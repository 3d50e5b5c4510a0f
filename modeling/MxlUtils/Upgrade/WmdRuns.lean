import Mathlib.Data.List.Forall2
import MxlUtils.Upgrade.WmdBlock

/- Runs of edits. Where the condition is met, the loops take the file apart into its
   items as a reader does, and one edit leaves a file that is well formed again, so that
   the next one finds what it needs. -/
namespace WmdCtrl
open ShellText

variable {E : Shell} {e : Edit} {name value : Word} {items : List Item} {item : Item} {d : Disk}

/-! ## The arguments of an edit -/

/-- All values satisfy a property of parameters. -/
structure Given.All (P : Param → Prop) (g : Given) : Prop where
  threshold : ∀ t, g.threshold = some t → P (.threshold t)
  wActive : ∀ v, g.wActive = some v → P (.wActive v)
  wans : ∀ ws, g.wans = some ws → P (.wans ws)
  enable : ∀ v, g.enable = some v → P (.enable v)

theorem Given.All.add {P : Param → Prop} {g : Given} {x : Param} (hg : g.All P) (hx : P x) : (g.add x).All P := by
  cases x with
  | threshold t => exact { hg with threshold := fun t' ht => by cases ht; exact hx }
  | wActive v => exact { hg with wActive := fun v' hv => by cases hv; exact hx }
  | wans ws => exact { hg with wans := fun ws' hws => by cases hws; exact hx }
  | enable v => exact { hg with enable := fun v' hv => by cases hv; exact hx }

theorem Given.All.foldl {P : Param → Prop} {g : Given} {params : List Param} (hg : g.All P) (hparams : ∀ x ∈ params, P x) :
    (params.foldl Given.add g).All P := by
  induction params generalizing g with
  | nil => exact hg
  | cons x params ih =>
    exact ih (hg.add (hparams x (List.mem_cons_self ..))) fun x hx => hparams x (List.mem_cons_of_mem _ hx)

theorem ArgsPass.params (h : ArgsPass E e) : ∀ x ∈ e.params, x.Passes E := by
  intro x hx
  cases x with
  | threshold t => exact h.threshold t hx
  | wActive v => exact h.wActive v hx
  | wans ws => exact h.wans ws hx
  | enable v => exact h.enable v hx

theorem ArgsPass.all (h : ArgsPass E e) : e.given.All (Param.Passes E) :=
  Given.All.foldl ⟨by simp, by simp, by simp, by simp⟩ h.params

theorem ArgsPass.given (h : ArgsPass E e) : e.given.Pass E where
  threshold t ht := ⟨h.all.threshold t ht, h.threshold_range t ht⟩
  wActive v hv := ⟨h.all.wActive v hv, h.wActive_number v hv⟩
  wans ws hws :=
    have hnames := h.wans_names ws hws
    ⟨h.all.wans ws hws, hnames.1, hnames.2.1, hnames.2.2⟩

/-- What the script takes the arguments for. -/
theorem setWlan_args (h : ArgsPass E e) (d : Disk) :
    setWlan E e.args d = match e.given.enable with
      | some value => d.replace (enableLoop E e.name value false (readLines d.conf))
      | none =>
        { d.replace (removeLoop E e.name false (readLines d.conf)) with
          conf := (d.replace (removeLoop E e.name false (readLines d.conf))).conf ++ newBlock E e.name (e.given.vars E) } := by
  have hname : E.cutEcho '=' 2 (e.args.headD []) = e.name :=
    (cutEcho_arg (k := "name".toList) (by decide) h.name (h.name.expand "name=".toList (by simp))).2
  have hunquoted : E.unquoted e.name = [e.name] :=
    unquoted_word ⟨h.name.ne_nil, fun c hc => (h.name.chars c hc).1⟩ (h.name.expand [] (List.mem_cons_self ..))
  have hvars : e.args.tail.foldl (setParam E) .unset = e.given.vars E := setParams_args h.params ⟨none, none, none, none⟩
  rw [setWlan, hname, hunquoted, hvars]
  simp only [List.cons_ne_nil, if_false]
  cases henable : e.given.enable with
  | none =>
    have hvar : (e.given.vars E).wlanEnable = minusOne := by simp [Given.vars, henable]
    rw [hvar, isSet_minusOne]
    rfl
  | some value =>
    obtain ⟨n, hn, hne⟩ := h.enable_number value henable
    have hvar : (e.given.vars E).wlanEnable = value := by simp [Given.vars, henable]
    rw [hvar, if_pos (isSet_integer (h.all.enable value henable) hn hne)]

/-! ## The loops over the items of a file -/

/-- The script reads the lines of the items. -/
theorem readLines_render (hitems : WellFormed items) (hends : ∀ item ∈ items, ∀ l ∈ item.lines, ¬Continues l) :
    readLines (render items) = (items.flatMap Item.lines).map readLine := by
  apply readLines_linesText
  intro l hl
  obtain ⟨item, hitem, hl⟩ := List.mem_flatMap.mp hl
  exact ⟨(hitems item hitem).newline hl, hends item hitem l hl⟩

theorem render_cons (item : Item) (items : List Item) : render (item :: items) = linesText item.lines ++ render items :=
  linesText_append _ _

theorem render_append (items items' : List Item) : render (items ++ items') = render items ++ render items' := by
  rw [render, List.flatMap_append, linesText_append]
  rfl

/-- The header of a block begins with its name. -/
theorem firstWord_header {header : Line} (hname : Passes E name) (hfirst : name.head? ≠ some '-')
    (hwords : words header = [name, ['{']]) (hback : '\\' ∉ header) : firstWord E header = name := by
  have hexpand : ∀ w ∈ words header, E.expand w = [w] := by
    rw [hwords]
    intro w hw
    rcases List.mem_cons.mp hw with rfl | hw
    · exact hname.expand [] (List.mem_cons_self ..)
    · rw [List.mem_singleton.mp hw]
      rfl
  rw [firstWord_eq hback (by simpa [hwords] using hfirst) hexpand, hwords]
  rfl

section Loops
variable (hname : Passes E name) (hfirst : name.head? ≠ some '-') (hbrace : name ≠ ['}'])
include hname hfirst hbrace

theorem removeLoop_items (hitems : WellFormed items)
    (hlines : ∀ item ∈ items, if item.named name then item.Goes E else item.Kept E name) :
    removeLoop E name false ((items.flatMap Item.lines).map readLine) = render (items.filter fun item => !item.named name) := by
  induction items with
  | nil => rfl
  | cons item items ih =>
    have hrest := ih (fun i hi => hitems i (List.mem_cons_of_mem _ hi)) fun i hi => hlines i (List.mem_cons_of_mem _ hi)
    have hitem := hlines item (List.mem_cons_self ..)
    have hwell := hitems item (List.mem_cons_self ..)
    rw [List.flatMap_cons, List.map_append]
    by_cases hnamed : item.named name = true
    · rw [if_pos hnamed] at hitem
      have hfilter : (item :: items).filter (fun item => !item.named name) = items.filter fun item => !item.named name :=
        List.filter_cons_of_neg (by simpa using hnamed)
      cases item with
      | top line => cases hnamed
      | block header n settings closing =>
        obtain rfl : n = name := of_decide_eq_true hnamed
        obtain ⟨hback, hback', hclosing, hsettings⟩ := hitem
        have hheader : firstWord E (readLine header) = n := by
          rw [readLine_plain hback, firstWord_strip]
          exact firstWord_header hname hfirst hwell.2.1 hback
        have hlast : firstWord E (readLine closing) = ['}'] := by
          rw [readLine_plain hback', firstWord_strip]
          exact hclosing
        rw [hfilter, ← hrest]
        exact removeLoop_block hbrace hheader hlast fun l hl => (hsettings l hl).2
    · rw [if_neg hnamed] at hitem
      have hfilter : (item :: items).filter (fun item => !item.named name) = item :: items.filter fun item => !item.named name :=
        List.filter_cons_of_pos (by simpa using hnamed)
      rw [hfilter, render_cons, ← hrest]
      exact removeLoop_kept hitem

/-- An item after the named block was enabled. -/
def Item.enabled (name value : Word) : Item → Item
  | .top line => .top line
  | .block header n settings closing =>
    if n = name then .block header n (settings.map (enabledSetting value)) closing else .block header n settings closing

theorem enableLoop_items (hvalue : Passes E value) (hitems : WellFormed items)
    (hlines : ∀ item ∈ items, if item.named name then item.Enables E else item.KeptUnquoted E name) :
    enableLoop E name value false ((items.flatMap Item.lines).map readLine) = render (items.map (Item.enabled name value)) := by
  induction items with
  | nil => rfl
  | cons item items ih =>
    have hrest := ih (fun i hi => hitems i (List.mem_cons_of_mem _ hi)) fun i hi => hlines i (List.mem_cons_of_mem _ hi)
    have hitem := hlines item (List.mem_cons_self ..)
    have hwell := hitems item (List.mem_cons_self ..)
    rw [List.flatMap_cons, List.map_append, List.map_cons, render_cons, ← hrest]
    by_cases hnamed : item.named name = true
    · rw [if_pos hnamed] at hitem
      cases item with
      | top line => cases hnamed
      | block header n settings closing =>
        obtain rfl : n = name := of_decide_eq_true hnamed
        obtain ⟨hheader, hnone, hclosing, hsettings⟩ := hitem
        have hlast : firstWord E closing = ['}'] := by
          rw [hclosing.first_eq, List.headD_eq_head?_getD, hwell.2.2.2.2]
          rfl
        rw [Item.enabled, if_pos rfl]
        exact enableLoop_block hvalue hbrace hheader (firstWord_header hname hfirst hwell.2.1 hheader.backslash) hnone
          hclosing hlast hsettings
    · rw [if_neg hnamed] at hitem
      have hsame : item.enabled name value = item := by
        cases item with
        | top line => rfl
        | block header n settings closing => exact if_neg (by simpa [Item.named] using hnamed)
      rw [hsame]
      exact enableLoop_kept hitem

end Loops

/-! ## One edit -/

theorem settingLine_wActive (value : Word) : settingLine wActiveKey value = indent ++ enabledLine value := rfl

theorem assignment_enabledLine (hvalue : IsValue value) : assignment (enabledLine value) = some (wActiveKey, value) := by
  have hsame : assignment (settingLine wActiveKey value) = assignment (enabledLine value) := by
    rw [assignment, assignment, settingLine_wActive, strip_indent]
  rw [← hsame]
  exact assignment_settingLine (by decide) (by decide) hvalue

theorem isSetting_enabledLine (hvalue : IsValue value) : IsSetting (enabledLine value) := by
  have hline := isSetting_settingLine (k := wActiveKey) (by decide) hvalue
  refine hline.of_words (fun hc => hline.line ?_) ?_
  · rw [settingLine_wActive]
    exact List.mem_append_right _ hc
  · rw [settingLine_wActive, words_indent]

theorem lineEnabled (hvalue : IsValue value) (l : Line) : LineEnabled value l (enabledSetting value l) := by
  rw [LineEnabled, enabledSetting]
  by_cases hset : (assignment l).map Prod.fst = some wActiveKey
  · simpa [hset] using assignment_enabledLine hvalue
  · simp [hset]

theorem itemEnabled (hvalue : IsValue value) (name : Word) (item : Item) :
    ItemEnabled name value item (item.enabled name value) := by
  cases item with
  | top line => rfl
  | block header n settings closing =>
    by_cases hn : n = name
    · have hsettings : List.Forall₂ (LineEnabled value) settings (settings.map (enabledSetting value)) := by
        rw [List.forall₂_map_right_iff]
        exact List.forall₂_same.mpr fun l _ => lineEnabled hvalue l
      simpa [ItemEnabled, Item.enabled, hn] using hsettings
    · simp [ItemEnabled, Item.enabled, hn]

theorem Item.WellFormed.enabled (hvalue : IsValue value) (hitem : item.WellFormed) (name : Word) :
    (item.enabled name value).WellFormed := by
  cases item with
  | top line => exact hitem
  | block header n settings closing =>
    rw [Item.enabled]
    split
    · obtain ⟨hheader, hwords, hsettings, hclosing⟩ := hitem
      refine ⟨hheader, hwords, fun l hl => ?_, hclosing⟩
      obtain ⟨l₀, hl₀, rfl⟩ := List.mem_map.mp hl
      rw [enabledSetting]
      split
      · exact isSetting_enabledLine hvalue
      · exact hsettings l₀ hl₀
    · exact hitem

/-- The block that is written behind the others. -/
def Edit.block (e : Edit) : Item := .block (headerLine e.name) e.name e.given.lines ['}']

theorem ArgsPass.block (h : ArgsPass E e) : e.block.WellFormed := by
  have hword : IsWord e.name := ⟨h.name.ne_nil, fun c hc => (h.name.chars c hc).1⟩
  refine ⟨fun hc => ?_, ?_, isSetting_lines h.given, by decide, ?_⟩
  · rcases List.mem_append.mp hc with hc | hc
    · exact absurd (hword.2 _ hc) (by decide)
    · exact absurd hc (by decide)
  · rw [headerLine, words_word_cons hword _ (by decide), words_word ⟨by decide, by decide⟩]
  · rw [IsClosing, words_word ⟨by decide, by decide⟩]
    rfl

theorem Meets.ends {temp : Option (List Char)} (h : Meets E temp items e) :
    ∀ item ∈ items, ∀ l ∈ item.lines, ¬Continues l := by
  intro item hitem l hl
  have hlines := h.lines
  cases henable : e.given.enable with
  | none =>
    rw [henable] at hlines
    have hthis := hlines item hitem
    split at hthis
    · cases item with
      | top line =>
        rename_i hnamed
        cases hnamed
      | block header n settings closing =>
        obtain ⟨hback, hback', -, hsettings⟩ := hthis
        rcases List.mem_cons.mp hl with rfl | hl
        · exact not_continues hback
        · rcases List.mem_append.mp hl with hl | hl
          · exact (hsettings l hl).1
          · rw [List.mem_singleton.mp hl]
            exact not_continues hback'
    · exact not_continues (hthis l hl).1.backslash
  | some value =>
    rw [henable] at hlines
    have hthis := hlines item hitem
    split at hthis
    · cases item with
      | top line =>
        rename_i hnamed
        cases hnamed
      | block header n settings closing =>
        obtain ⟨hheader, -, hclosing, hsettings⟩ := hthis
        rcases List.mem_cons.mp hl with rfl | hl
        · exact not_continues hheader.backslash
        · rcases List.mem_append.mp hl with hl | hl
          · exact not_continues (hsettings l hl).1
          · rw [List.mem_singleton.mp hl]
            exact not_continues hclosing.backslash
    · exact not_continues (hthis l hl).1.backslash

/-- The temporary file has nothing to add. -/
theorem replace_conf {temp : Option (List Char)} (hfresh : temp.getD [] = []) (conf written : List Char) :
    (Disk.replace ⟨conf, temp⟩ written).conf = written := by
  rw [Disk.replace, hfresh]
  rfl

/-- One edit does what it is to do. -/
theorem setWlan_exact (hwell : WellFormed items) (hconf : d.conf = render items) (h : Meets E d.temp items e) :
    ∃ next, WellFormed next ∧ Edited e items next ∧ (setWlan E e.args d).conf = render next := by
  have hread : readLines d.conf = (items.flatMap Item.lines).map readLine := by
    rw [hconf]
    exact readLines_render hwell h.ends
  have hargs := h.args
  have hlines := h.lines
  cases henable : e.given.enable with
  | none =>
    rw [henable] at hlines
    have hloop := removeLoop_items hargs.name hargs.name_first hargs.name_brace hwell hlines
    have hblock : newBlock E e.name (e.given.vars E) = render [e.block] := by
      rw [newBlock_eq hargs.name hargs.name_first hargs.given, render, List.flatMap_singleton]
      rfl
    refine ⟨items.filter (fun item => !item.named e.name) ++ [e.block], ?_, ?_, ?_⟩
    · intro item hitem
      rcases List.mem_append.mp hitem with hitem | hitem
      · exact hwell item (List.mem_of_mem_filter hitem)
      · rw [List.mem_singleton.mp hitem]
        exact hargs.block
    · rw [Edited, henable]
      exact ⟨headerLine e.name, e.given.lines, ['}'], filterMap_lines hargs.given, rfl⟩
    · rw [setWlan_args hargs, henable, hread, hloop, render_append, ← hblock]
      simp only [replace_conf h.fresh]
  | some value =>
    rw [henable] at hlines
    have hvalue : Passes E value := hargs.all.enable value henable
    have hloop := enableLoop_items hargs.name hargs.name_first hargs.name_brace hvalue hwell hlines
    refine ⟨items.map (Item.enabled e.name value), ?_, ?_, ?_⟩
    · intro item hitem
      obtain ⟨item₀, hitem₀, rfl⟩ := List.mem_map.mp hitem
      exact (hwell item₀ hitem₀).enabled hvalue.chars e.name
    · rw [Edited, henable]
      show List.Forall₂ (ItemEnabled e.name value) items (items.map (Item.enabled e.name value))
      rw [List.forall₂_map_right_iff]
      exact List.forall₂_same.mpr fun item _ => itemEnabled hvalue.chars e.name item
    · rw [setWlan_args hargs]
      simp only [henable, hread, hloop]
      exact replace_conf h.fresh _ _

/-- A temporary file without text makes no difference. -/
theorem setWlan_fresh (hfresh : d.temp.getD [] = []) (args : List Word) :
    (setWlan E args d).conf = (setWlan E args { d with temp := none }).conf := by
  rw [setWlan, setWlan]
  simp only [Disk.replace, hfresh, Option.getD_none]
  split
  · rfl
  · split <;> rfl

/-! ## Runs of edits -/

/-- Where every edit of a run meets the condition, each leaves the file as it is to. -/
theorem edits_exact {es : List Edit} (hwell : WellFormed items) (hconf : d.conf = render items) (h : MeetsAll E es d) :
    Exact E es d items := by
  induction es generalizing d items with
  | nil => exact trivial
  | cons e es ih =>
    obtain ⟨hmeets, hrest⟩ := h
    have hstep := hmeets items hwell hconf
    obtain ⟨next, hnext, hedited, hconf'⟩ := setWlan_exact hwell hconf hstep
    exact ⟨setWlan_fresh hstep.fresh e.args, next, hnext, hedited, hconf', ih hnext hconf' hrest⟩

/-- A shell whose `echo` prints its operands as they are, where no pattern matches a file. -/
def plainShell : Shell where
  glob w := [w]
  echo ws := joinWords ws ++ ['\n']

def wlan0 : Word := "wlan0".toList
def wlan1 : Word := "wlan1".toList

/-- A top-level line, and a block without blanks before its settings. -/
def flatItems : List Item :=
  [.top "interval=5".toList, .block (headerLine wlan0) wlan0 ["threshold=90".toList] ['}']]

def withWans : Edit := ⟨wlan1, [.wans ["eth0".toList, "eth1".toList]]⟩
def activate : Edit := ⟨wlan1, [.wActive ['1']]⟩

theorem plain_passes {w : Word} (hne : w ≠ []) (hchars : ∀ c ∈ w, isSeparator c = false ∧ c ≠ '\\' ∧ c ≠ '=') :
    Passes plainShell w := by
  refine ⟨hne, hchars, fun key _ => ?_⟩
  rw [Shell.expand]
  split <;> rfl

theorem Survives.of_checks {l : Line} (h : '\\' ∉ l ∧ strip l = l ∧ l.head? ≠ some '-') : Survives l := ⟨h.1, h.2.1, h.2.2⟩

theorem flatItems_kept : ∀ item ∈ flatItems, if item.named wlan1 then item.Goes plainShell else item.Kept plainShell wlan1 := by
  have hkept : ∀ item ∈ flatItems, item.named wlan1 = false ∧
      ∀ l ∈ item.lines, ('\\' ∉ l ∧ strip l = l ∧ l.head? ≠ some '-') ∧ firstWord plainShell l ≠ wlan1 := by
    decide +kernel
  intro item hitem
  obtain ⟨hnamed, hlines⟩ := hkept item hitem
  rw [hnamed]
  exact fun l hl => ⟨Survives.of_checks (hlines l hl).1, (hlines l hl).2⟩

theorem withWans_meets : Meets plainShell none flatItems withWans where
  fresh := rfl
  args :=
    { name := plain_passes (by decide) (by decide)
      name_first := by decide
      name_brace := by decide
      threshold := by simp [withWans]
      wActive := by simp [withWans]
      enable := by simp [withWans]
      wans := by
        intro ws hws
        obtain rfl : ws = ["eth0".toList, "eth1".toList] := by simpa [withWans] using hws
        exact plain_passes (by decide) (by decide)
      threshold_range := by intro t ht; cases ht
      wActive_number := by intro v hv; cases hv
      enable_number := by intro v hv; cases hv
      wans_names := by intro ws hws; cases hws; decide }
  lines := flatItems_kept

/-- The block that the first edit wrote goes with the second. -/
theorem activate_meets : Meets plainShell none (flatItems ++ [withWans.block]) activate where
  fresh := rfl
  args :=
    { name := plain_passes (by decide) (by decide)
      name_first := by decide
      name_brace := by decide
      threshold := by simp [activate]
      wActive := by
        intro v hv
        obtain rfl : v = ['1'] := by simpa [activate] using hv
        exact plain_passes (by decide) (by decide)
      enable := by simp [activate]
      wans := by simp [activate]
      threshold_range := by intro t ht; cases ht
      wActive_number := by intro v hv; cases hv; exact ⟨1, by decide, by decide⟩
      enable_number := by intro v hv; cases hv
      wans_names := by intro ws hws; cases hws }
  lines := by
    have hgoes : '\\' ∉ headerLine wlan1 ∧ '\\' ∉ ['}'] ∧ firstWord plainShell ['}'] = ['}'] ∧
        ∀ l ∈ withWans.given.lines, ¬Continues l ∧ firstWord plainShell (readLine l) ≠ ['}'] := by
      decide +kernel
    intro item hitem
    rcases List.mem_append.mp hitem with hitem | hitem
    · exact flatItems_kept item hitem
    · rw [List.mem_singleton.mp hitem]
      exact hgoes

theorem wellFormed_flatItems : WellFormed flatItems := by
  intro item hitem
  rcases List.mem_cons.mp hitem with rfl | hitem
  · exact isSetting_word ⟨by decide, by decide⟩ (by decide)
  · rw [List.mem_singleton.mp hitem]
    refine ⟨by decide, by decide, fun l hl => ?_, by decide, by decide⟩
    rw [List.mem_singleton.mp hl]
    exact isSetting_word ⟨by decide, by decide⟩ (by decide)

theorem edits_exact_wlan1 : Exact plainShell [withWans, activate] ⟨render flatItems, none⟩ flatItems := by
  have hfirst : (setWlan plainShell withWans.args ⟨render flatItems, none⟩).conf = render (flatItems ++ [withWans.block]) := by
    decide +kernel
  have hblock : WellFormed (flatItems ++ [withWans.block]) := by
    intro item hitem
    rcases List.mem_append.mp hitem with hitem | hitem
    · exact wellFormed_flatItems item hitem
    · rw [List.mem_singleton.mp hitem]
      exact withWans_meets.args.block
  apply edits_exact wellFormed_flatItems rfl
  refine ⟨fun items hwell hconf => ?_, fun items hwell hconf => ?_, trivial⟩
  · rw [← render_inj wellFormed_flatItems hwell hconf]
    exact withWans_meets
  · rw [← render_inj hblock hwell (hfirst.symm.trans hconf)]
    exact activate_meets

def indentedItems : List Item := [.block (headerLine wlan0) wlan0 ["    threshold=90".toList] ['}']]

/-- The blanks before a setting of another interface are lost, and a line that was left in the
temporary file comes to the configuration. -/
theorem indentation_lost : WellFormed indentedItems ∧
    ¬Exact plainShell [activate] ⟨render indentedItems, none⟩ indentedItems ∧
    ¬Exact plainShell [activate] ⟨[], some "threshold=1\n".toList⟩ [] := by
  refine ⟨?_, ?_, ?_⟩
  · intro item hitem
    rw [List.mem_singleton.mp hitem]
    refine ⟨by decide, by decide, fun l hl => ?_, by decide, by decide⟩
    rw [List.mem_singleton.mp hl]
    exact isSetting_settingLine (k := "threshold".toList) (w := "90".toList) (by decide) (by decide)
  · rintro ⟨-, next, -, hedited, hconf, -⟩
    obtain ⟨header, settings, closing, -, rfl⟩ := hedited
    have hkept : indentedItems.filter (fun item => !item.named activate.name) = indentedItems := by decide +kernel
    have hwritten : (setWlan plainShell activate.args ⟨render indentedItems, none⟩).conf.take 9 ≠
        (render indentedItems).take 9 := by decide +kernel
    have hlength : 9 ≤ (render indentedItems).length := by decide +kernel
    apply hwritten
    rw [hconf, hkept, render_append, List.take_append_of_le_length hlength]
  · rintro ⟨hstale, -⟩
    revert hstale
    decide +kernel

end WmdCtrl
