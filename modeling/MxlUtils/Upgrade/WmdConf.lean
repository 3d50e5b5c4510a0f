import MxlUtils.Upgrade.WmdCtrl

/- The configuration as the daemon's users see it: lines, and blocks of lines with the
   name of an interface. An edit is meant to exchange the block of its interface or to
   change the w_active lines in it, and to leave everything else as it is; that is stated
   here without the script. -/
namespace WmdCtrl
open ShellText

inductive Item where
  | top (line : Line)
  | block (header : Line) (name : Word) (settings : List Line) (closing : Line)
deriving DecidableEq

def IsClosing (l : Line) : Prop := (words l).head? = some ['}']

instance (l : Line) : Decidable (IsClosing l) := inferInstanceAs (Decidable (_ = _))

/-- A line that is no header and closes no block. -/
structure IsSetting (l : Line) : Prop where
  line : '\n' ∉ l
  header : ∀ n, words l ≠ [n, ['{']]
  closing : ¬IsClosing l

def Item.WellFormed : Item → Prop
  | .top line => IsSetting line
  | .block header name settings closing =>
    '\n' ∉ header ∧ words header = [name, ['{']] ∧ (∀ l ∈ settings, IsSetting l) ∧ '\n' ∉ closing ∧ IsClosing closing

def WellFormed (items : List Item) : Prop := ∀ item ∈ items, item.WellFormed

def Item.lines : Item → List Line
  | .top line => [line]
  | .block header _ settings closing => header :: (settings ++ [closing])

def Item.named (name : Word) : Item → Bool
  | .top _ => false
  | .block _ n _ _ => n = name

/-- The file that holds the items. -/
def render (items : List Item) : List Char := linesText (items.flatMap Item.lines)

/-! ## A file has one reading -/

section Reading
variable {items items' : List Item} {item : Item} {l l' : Line} {ls ls' rest rest' : List Line}

theorem Item.WellFormed.newline (hitem : item.WellFormed) (hl : l ∈ item.lines) : '\n' ∉ l := by
  cases item with
  | top line =>
    rw [List.mem_singleton.mp hl]
    exact hitem.line
  | block header n settings closing =>
    obtain ⟨hheader, -, hsettings, hclosing, -⟩ := hitem
    rcases List.mem_cons.mp hl with rfl | hl
    · exact hheader
    · rcases List.mem_append.mp hl with hl | hl
      · exact (hsettings l hl).line
      · rwa [List.mem_singleton.mp hl]

theorem linesText_inj (hls : ∀ l ∈ ls, '\n' ∉ l) (hls' : ∀ l ∈ ls', '\n' ∉ l) (h : linesText ls = linesText ls') : ls = ls' := by
  induction ls generalizing ls' with
  | nil =>
    cases ls' with
    | nil => rfl
    | cons l' ls' => simp [linesText] at h
  | cons l ls ih =>
    cases ls' with
    | nil => simp [linesText] at h
    | cons l' ls' =>
      have hl := hls l (List.mem_cons_self ..)
      have hl' := hls' l' (List.mem_cons_self ..)
      have hcons : l ++ '\n' :: linesText ls = l' ++ '\n' :: linesText ls' := by simpa [linesText] using h
      have hsplit := congrArg (List.splitOn '\n') hcons
      rw [List.splitOn_append_cons_self_of_not_mem hl, List.splitOn_append_cons_self_of_not_mem hl'] at hsplit
      obtain ⟨rfl, -⟩ := List.cons.inj hsplit
      have hrest : linesText ls = linesText ls' := by simpa using hcons
      rw [ih (fun l hl => hls l (List.mem_cons_of_mem _ hl)) (fun l hl => hls' l (List.mem_cons_of_mem _ hl)) hrest]

/-- A block ends where the first line closes it. -/
theorem closing_inj (hls : ∀ l ∈ ls, IsSetting l) (hls' : ∀ l ∈ ls', IsSetting l) (hl : IsClosing l) (hl' : IsClosing l')
    (h : ls ++ l :: rest = ls' ++ l' :: rest') : ls = ls' ∧ l = l' ∧ rest = rest' := by
  induction ls generalizing ls' with
  | nil =>
    cases ls' with
    | nil =>
      obtain ⟨rfl, rfl⟩ := List.cons.inj h
      exact ⟨rfl, rfl, rfl⟩
    | cons x ls' =>
      obtain ⟨rfl, -⟩ := List.cons.inj h
      exact ((hls' l (List.mem_cons_self ..)).closing hl).elim
  | cons x ls ih =>
    cases ls' with
    | nil =>
      obtain ⟨rfl, -⟩ := List.cons.inj h
      exact ((hls x (List.mem_cons_self ..)).closing hl').elim
    | cons x' ls' =>
      obtain ⟨rfl, hrest⟩ := List.cons.inj h
      obtain ⟨rfl, hl, hrest⟩ :=
        ih (fun l hl => hls l (List.mem_cons_of_mem _ hl)) (fun l hl => hls' l (List.mem_cons_of_mem _ hl)) hrest
      exact ⟨rfl, hl, hrest⟩

theorem lines_inj (hitems : WellFormed items) (hitems' : WellFormed items')
    (h : items.flatMap Item.lines = items'.flatMap Item.lines) : items = items' := by
  have hne : ∀ item : Item, item.lines ≠ [] := fun item => by cases item <;> simp [Item.lines]
  induction items generalizing items' with
  | nil =>
    cases items' with
    | nil => rfl
    | cons item' items' => simp [hne item'] at h
  | cons item items ih =>
    cases items' with
    | nil => simp [hne item] at h
    | cons item' items' =>
      have hitem := hitems item (List.mem_cons_self ..)
      have hitem' := hitems' item' (List.mem_cons_self ..)
      have hrest := fun hlines => ih (fun i hi => hitems i (List.mem_cons_of_mem _ hi))
        (fun i hi => hitems' i (List.mem_cons_of_mem _ hi)) hlines
      rw [List.flatMap_cons, List.flatMap_cons] at h
      cases item with
      | top line =>
        cases item' with
        | top line' =>
          obtain ⟨rfl, htail⟩ := List.cons.inj h
          rw [hrest htail]
        | block header' n' settings' closing' =>
          obtain ⟨rfl, -⟩ := List.cons.inj h
          exact (hitem.header n' hitem'.2.1).elim
      | block header n settings closing =>
        cases item' with
        | top line' =>
          obtain ⟨rfl, -⟩ := List.cons.inj h
          exact (hitem'.header n hitem.2.1).elim
        | block header' n' settings' closing' =>
          obtain ⟨-, hwords, hsettings, -, hclosing⟩ := hitem
          obtain ⟨-, hwords', hsettings', -, hclosing'⟩ := hitem'
          obtain ⟨rfl, htail⟩ := List.cons.inj h
          have hrows : settings ++ closing :: items.flatMap Item.lines = settings' ++ closing' :: items'.flatMap Item.lines := by
            simpa using htail
          obtain ⟨rfl, rfl, hbehind⟩ := closing_inj hsettings hsettings' hclosing hclosing' hrows
          obtain rfl : n = n' := (List.cons.inj (hwords.symm.trans hwords')).1
          rw [hrest hbehind]

theorem render_inj (hitems : WellFormed items) (hitems' : WellFormed items') (h : render items = render items') :
    items = items' := by
  apply lines_inj hitems hitems'
  refine linesText_inj (fun l hl => ?_) (fun l hl => ?_) h
  · obtain ⟨item, hitem, hl⟩ := List.mem_flatMap.mp hl
    exact (hitems item hitem).newline hl
  · obtain ⟨item, hitem, hl⟩ := List.mem_flatMap.mp hl
    exact (hitems' item hitem).newline hl

end Reading

/-- What a line sets, if it is not a comment. -/
def assignment (l : Line) : Option (Word × Word) :=
  if (strip l).head? = some '#' then none
  else if '=' ∈ strip l then some ((strip l).takeWhile (· ≠ '='), ((strip l).dropWhile (· ≠ '=')).tail)
  else none

/-! ## Edits -/

/-- An argument of an edit besides the name. -/
inductive Param where
  | threshold (value : Word)
  | wActive (value : Word)
  | wans (names : List Word)
  | enable (value : Word)

structure Edit where
  name : Word
  params : List Param

/-- The last value that is given for each. -/
structure Given where
  threshold : Option Word
  wActive : Option Word
  wans : Option (List Word)
  enable : Option Word

def Given.add (g : Given) : Param → Given
  | .threshold value => { g with threshold := some value }
  | .wActive value => { g with wActive := some value }
  | .wans names => { g with wans := some names }
  | .enable value => { g with enable := some value }

def Edit.given (e : Edit) : Given := e.params.foldl Given.add ⟨none, none, none, none⟩

def joinColon (names : List Word) : Word := List.intercalate [':'] names

def Param.arg : Param → Word
  | .threshold value => "threshold=".toList ++ value
  | .wActive value => "w_active=".toList ++ value
  | .wans names => "wans=".toList ++ joinColon names
  | .enable value => "enable=".toList ++ value

/-- The arguments of set_wlan. -/
def Edit.args (e : Edit) : List Word := ("name=".toList ++ e.name) :: e.params.map Param.arg

/-- What the new block is to hold. -/
def Given.settings (g : Given) : List (Word × Word) :=
  (g.threshold.map fun t => ("threshold".toList, t)).toList ++ (g.wActive.map fun v => (wActiveKey, v)).toList ++
    (g.wans.getD []).map fun w => ("wan".toList, w)

/-- A line of the named block after it was enabled or disabled. -/
def LineEnabled (value : Word) (l l' : Line) : Prop :=
  if (assignment l).map Prod.fst = some wActiveKey then assignment l' = some (wActiveKey, value) else l' = l

def ItemEnabled (name value : Word) : Item → Item → Prop
  | .block header n settings closing, item' =>
    if n = name then ∃ settings', item' = .block header n settings' closing ∧ List.Forall₂ (LineEnabled value) settings settings'
    else item' = .block header n settings closing
  | .top line, item' => item' = .top line

/-- What an edit is to do. -/
def Edited (e : Edit) (items items' : List Item) : Prop :=
  match e.given.enable with
  | some value => List.Forall₂ (ItemEnabled e.name value) items items'
  | none => ∃ header settings closing, settings.filterMap assignment = e.given.settings ∧
      items' = items.filter (fun item => !item.named e.name) ++ [.block header e.name settings closing]

/-- Each edit of a run does what it is to do, whatever was left in the temporary file. -/
def Exact (E : Shell) : List Edit → Disk → List Item → Prop
  | [], _, _ => True
  | e :: es, d, items =>
    (setWlan E e.args d).conf = (setWlan E e.args { d with temp := none }).conf ∧
      ∃ next, WellFormed next ∧ Edited e items next ∧ (setWlan E e.args d).conf = render next ∧
        Exact E es (setWlan E e.args d) next

/-! ## When the script does it -/

/-- A word that the script passes on as it is: no separator, backslash or equals sign, and no pattern
that it is a part of stands for other names. -/
structure Passes (E : Shell) (w : Word) : Prop where
  ne_nil : w ≠ []
  chars : ∀ c ∈ w, isSeparator c = false ∧ c ≠ '\\' ∧ c ≠ '='
  expand : ∀ key ∈ [[], "name=".toList, "threshold=".toList, "w_active=".toList, "wans=".toList, "enable=".toList],
    E.expand (key ++ w) = [key ++ w]

/-- The arguments of an edit: the values are numbers the script takes, the names are not empty, and the
list of WANs is not the one that stands for no list. -/
structure ArgsPass (E : Shell) (e : Edit) : Prop where
  name : Passes E e.name
  name_first : e.name.head? ≠ some '-'
  name_brace : e.name ≠ ['}']
  threshold : ∀ t, .threshold t ∈ e.params → Passes E t
  wActive : ∀ v, .wActive v ∈ e.params → Passes E v
  enable : ∀ v, .enable v ∈ e.params → Passes E v
  wans : ∀ ws, .wans ws ∈ e.params → Passes E (joinColon ws)
  threshold_range : ∀ t, e.given.threshold = some t → ∃ n, integer t = some n ∧ 0 ≤ n ∧ n ≤ 100
  wActive_number : ∀ v, e.given.wActive = some v → ∃ n, integer v = some n ∧ n ≠ -1
  enable_number : ∀ v, e.given.enable = some v → ∃ n, integer v = some n ∧ n ≠ -1
  wans_names : ∀ ws, e.given.wans = some ws → joinColon ws ≠ none' ∧ (joinColon ws).head? ≠ some '-' ∧
    ∀ w ∈ ws, w ≠ [] ∧ ':' ∉ w

/-- A line that comes out of `read` and a quoted `echo` as it went in. -/
structure Survives (l : Line) : Prop where
  backslash : '\\' ∉ l
  ends : strip l = l
  first : l.head? ≠ some '-'

/-- A line that also comes out of an `echo` without quotes: one blank between its words, and no pattern
among them that files match. -/
structure SurvivesUnquoted (E : Shell) (l : Line) : Prop where
  backslash : '\\' ∉ l
  joined : joinWords (words l) = l
  first : l.head? ≠ some '-'
  expand : ∀ w ∈ words l, E.expand w = [w]

/-- The lines that an edit of `name` is to keep: they survive the loop, and do not begin with the name. -/
def Item.Kept (E : Shell) (name : Word) (item : Item) : Prop :=
  ∀ l ∈ item.lines, Survives l ∧ firstWord E l ≠ name

/-- A block that is to go: the script finds its end. -/
def Item.Goes (E : Shell) : Item → Prop
  | .top _ => True
  | .block header _ settings closing => '\\' ∉ header ∧ '\\' ∉ closing ∧ firstWord E closing = ['}'] ∧
      ∀ l ∈ settings, ¬Continues l ∧ firstWord E (readLine l) ≠ ['}']

/-- The other items, where a block is enabled. -/
def Item.KeptUnquoted (E : Shell) (name : Word) (item : Item) : Prop :=
  ∀ l ∈ item.lines, SurvivesUnquoted E l ∧ firstWord E l ≠ name

/-- A block that is enabled: all lines survive, but for those that set w_active, and no other
has that word in it. -/
def Item.Enables (E : Shell) : Item → Prop
  | .top _ => True
  | .block header _ settings closing =>
    SurvivesUnquoted E header ∧ ¬wActiveKey <:+: header ∧ SurvivesUnquoted E closing ∧
      ∀ l ∈ settings, '\\' ∉ l ∧ firstWord E (strip l) ≠ ['}'] ∧
        ((assignment l).map Prod.fst = some wActiveKey ∨ SurvivesUnquoted E l ∧ ¬wActiveKey <:+: l)

/-- The condition of one edit: nothing is left in the temporary file, the arguments pass, and the lines
survive. -/
structure Meets (E : Shell) (temp : Option (List Char)) (items : List Item) (e : Edit) : Prop where
  fresh : temp.getD [] = []
  args : ArgsPass E e
  lines : match e.given.enable with
    | some _ => ∀ item ∈ items, if item.named e.name then item.Enables E else item.KeptUnquoted E e.name
    | none => ∀ item ∈ items, if item.named e.name then item.Goes E else item.Kept E e.name

/-- The condition of a run, on the state before each edit. -/
def MeetsAll (E : Shell) : List Edit → Disk → Prop
  | [], _ => True
  | e :: es, d =>
    (∀ items, WellFormed items → d.conf = render items → Meets E d.temp items e) ∧ MeetsAll E es (setWlan E e.args d)

end WmdCtrl
