import Mathlib.Data.List.DropRight
import MxlUtils.Lib.CString

/- Texts in a shell: the words of an unquoted expansion with the names that a pattern
   stands for, `echo`, `cut`, a command substitution, and the lines that `read` takes from
   a file. What files match a pattern is left to the system, and so is what `echo` prints
   for an option or a backslash. -/
namespace ShellText

abbrev Word := List Char

/-- Without its newline. -/
abbrev Line := List Char

structure Shell where
  glob : Word → List Word
  echo : List Word → List Char

def isBlank (c : Char) : Bool := c == ' ' || c == '\t'

def isSeparator (c : Char) : Bool := isBlank c || c == '\n'

/-! ## Words -/

def words (text : List Char) : List Word := (text.splitOnP isSeparator).filter (· ≠ [])

def joinWords (ws : List Word) : List Char := List.intercalate [' '] ws

/-- A word without separators, and not empty. -/
def IsWord (w : Word) : Prop := w ≠ [] ∧ ∀ c ∈ w, isSeparator c = false

variable {w : Word} {ws : List Word} {l : Line} {d c : Char} {text : List Char} {E : Shell}

@[simp] theorem words_nil : words [] = [] := by simp [words]

theorem words_append (a b : List Char) (hc : isSeparator c = true) : words (a ++ c :: b) = words a ++ words b := by
  rw [words, List.splitOnP_append_cons a b hc, List.filter_append]
  rfl

theorem words_cons (b : List Char) (hc : isSeparator c = true) : words (c :: b) = words b := by
  have happend := words_append [] b hc
  rwa [List.nil_append, words_nil, List.nil_append] at happend

theorem words_word (hw : IsWord w) : words w = [w] := by
  rw [words, List.splitOnP_eq_singleton hw.2]
  simp [hw.1]

theorem words_word_cons (hw : IsWord w) (b : List Char) (hc : isSeparator c = true) : words (w ++ c :: b) = w :: words b := by
  rw [words_append w b hc, words_word hw, List.singleton_append]

/-- The parts of a split text hold what was between the separators. -/
theorem mem_splitOnP {p : Char → Bool} {u : List Char} (hu : u ∈ text.splitOnP p) (hc : c ∈ u) : p c = false ∧ c ∈ text := by
  induction text generalizing u with
  | nil =>
    rw [List.splitOnP_nil, List.mem_singleton] at hu
    rw [hu] at hc
    cases hc
  | cons x t ih =>
    have hmore : ∀ {v}, v ∈ t.splitOnP p → c ∈ v → p c = false ∧ c ∈ x :: t := by
      intro v hv hcv
      obtain ⟨hp, hmem⟩ := ih hv hcv
      exact ⟨hp, List.mem_cons_of_mem _ hmem⟩
    rw [List.splitOnP_cons_eq_if_modifyHead] at hu
    by_cases hx : p x = true
    · rw [if_pos hx] at hu
      rcases List.mem_cons.mp hu with rfl | hu
      · cases hc
      · exact hmore hu hc
    · rw [if_neg hx] at hu
      obtain ⟨q, qs, hsplit⟩ := List.exists_cons_of_ne_nil (List.splitOnP_ne_nil p t)
      rw [hsplit, List.modifyHead_cons, List.mem_cons] at hu
      have hq : q ∈ t.splitOnP p := hsplit ▸ List.mem_cons_self ..
      rcases hu with rfl | hu
      · rcases List.mem_cons.mp hc with rfl | hc
        · exact ⟨by simpa using hx, List.mem_cons_self ..⟩
        · exact hmore hq hc
      · exact hmore (hsplit ▸ List.mem_cons_of_mem _ hu) hc

theorem isWord_of_mem (hw : w ∈ words text) : IsWord w := by
  rw [words, List.mem_filter] at hw
  exact ⟨by simpa using hw.2, fun c hc => (mem_splitOnP hw.1 hc).1⟩

theorem mem_of_words (hw : w ∈ words text) (hc : c ∈ w) : c ∈ text := by
  rw [words, List.mem_filter] at hw
  exact (mem_splitOnP hw.1 hc).2

theorem words_joinWords (hws : ∀ w ∈ ws, IsWord w) : words (joinWords ws) = ws := by
  induction ws with
  | nil => simp [joinWords]
  | cons w ws ih =>
    have hw := hws w (List.mem_cons_self ..)
    have hrest := ih fun w hw => hws w (List.mem_cons_of_mem _ hw)
    cases ws with
    | nil => simpa [joinWords] using words_word hw
    | cons w' ws =>
      have hjoin : joinWords (w :: w' :: ws) = w ++ ' ' :: joinWords (w' :: ws) := by
        simp [joinWords, List.intercalate]
      rw [hjoin, words_word_cons hw _ (by decide), hrest]

/-! ## Blanks at the ends -/

/-- A line without the blanks at its ends. -/
def strip (l : Line) : Line := (l.dropWhile isBlank).rdropWhile isBlank

theorem words_dropWhile (l : List Char) : words (l.dropWhile isBlank) = words l := by
  induction l with
  | nil => rfl
  | cons c l ih =>
    rw [List.dropWhile_cons]
    by_cases hc : isBlank c = true
    · rw [if_pos hc, ih, words_cons l (by simp [isSeparator, hc])]
    · rw [if_neg hc]

theorem words_rdropWhile (l : List Char) : words (l.rdropWhile isBlank) = words l := by
  induction l using List.reverseRecOn with
  | nil => rfl
  | append_singleton l c ih =>
    rw [List.rdropWhile_concat]
    by_cases hc : isBlank c = true
    · rw [if_pos hc, ih, words_append l [] (by simp [isSeparator, hc]), words_nil, List.append_nil]
    · rw [if_neg hc]

theorem words_strip (l : Line) : words (strip l) = words l := by
  rw [strip, words_rdropWhile, words_dropWhile]

/-! ## Unquoted expansions, and echo -/

def isPattern (w : Word) : Bool := w.any fun c => c == '*' || c == '?' || c == '['

def Shell.expand (E : Shell) (w : Word) : List Word := if isPattern w then E.glob w else [w]

/-- The words that an unquoted expansion of the text stands for. -/
def Shell.unquoted (E : Shell) (text : List Char) : List Word := (words text).flatMap E.expand

/-- Operands for which every `echo` prints the same. -/
def plainOperands (ws : List Word) : Bool :=
  ws.all (fun w => !w.contains '\\') && (ws.head?.bind List.head? != some '-')

def Shell.echoed (E : Shell) (ws : List Word) : List Char :=
  if plainOperands ws then joinWords ws ++ ['\n'] else E.echo ws

theorem echoed_plain (hws : plainOperands ws = true) : E.echoed ws = joinWords ws ++ ['\n'] := if_pos hws

theorem flatMap_expand (hws : ∀ w ∈ ws, E.expand w = [w]) : ws.flatMap E.expand = ws := by
  induction ws with
  | nil => rfl
  | cons w ws ih =>
    rw [List.flatMap_cons, hws w (List.mem_cons_self ..), ih fun w hw => hws w (List.mem_cons_of_mem _ hw)]
    rfl

theorem unquoted_words (hws : ∀ w ∈ words text, E.expand w = [w]) : E.unquoted text = words text := flatMap_expand hws

theorem unquoted_word (hw : IsWord w) (hexpand : E.expand w = [w]) : E.unquoted w = [w] := by
  rw [Shell.unquoted, words_word hw, flatMap_expand (by simpa using hexpand)]

/-! ## cut, and substitutions -/

def textLines (text : List Char) : List Line :=
  if (text.splitOn '\n').getLast? = some [] then (text.splitOn '\n').dropLast else text.splitOn '\n'

/-- A line without the delimiter is printed as it is. -/
def field (d : Char) (i : Nat) (l : Line) : Line := if d ∈ l then (l.splitOn d).getD (i - 1) [] else l

/-- `cut -f$i -d$d` -/
def cut (d : Char) (i : Nat) (text : List Char) : List Char := (textLines text).flatMap fun l => field d i l ++ ['\n']

/-- What a command substitution leaves of an output. -/
def substitution (text : List Char) : List Char := text.rdropWhile (· == '\n')

/-- `$(echo $text | cut -f$i -d$d)` -/
def Shell.cutEcho (E : Shell) (d : Char) (i : Nat) (text : List Char) : Word :=
  substitution (cut d i (E.echoed (E.unquoted text)))

theorem textLines_line (hl : '\n' ∉ l) : textLines (l ++ ['\n']) = [l] := by
  have hsplit : (l ++ ['\n']).splitOn '\n' = [l, []] := by
    rw [List.splitOn_append_cons_self_of_not_mem hl, List.splitOn_nil]
  rw [textLines, hsplit]
  rfl

theorem substitution_line (hl : '\n' ∉ l) : substitution (l ++ ['\n']) = l := by
  have hdrop : (l ++ ['\n']).rdropWhile (· == '\n') = l.rdropWhile (· == '\n') :=
    List.rdropWhile_concat_pos _ _ _ (by decide)
  rw [substitution, hdrop, List.rdropWhile_eq_self_iff]
  intro hne hlast
  have hend : l.getLast hne = '\n' := by simpa using hlast
  exact hl (hend ▸ List.getLast_mem hne)

theorem mem_field {i : Nat} (hc : c ∈ field d i l) : c ∈ l := by
  rw [field] at hc
  split at hc
  · rw [List.getD_eq_getElem?_getD] at hc
    cases hpart : (l.splitOn d)[i - 1]? with
    | none => simp [hpart] at hc
    | some u =>
      rw [hpart] at hc
      exact (CString.infix_of_mem_splitOn (List.mem_of_getElem? hpart)).subset hc
  · exact hc

/-- Without newlines in the words, the field of the line that they make. -/
theorem cutEcho_eq {i : Nat} (hplain : plainOperands (E.unquoted text) = true) (hline : '\n' ∉ joinWords (E.unquoted text)) :
    E.cutEcho d i text = field d i (joinWords (E.unquoted text)) := by
  have hfield : '\n' ∉ field d i (joinWords (E.unquoted text)) := fun h => hline (mem_field h)
  rw [Shell.cutEcho, echoed_plain hplain, cut, textLines_line hline]
  simpa using substitution_line hfield

theorem joinWords_cons (w : Word) (ws : List Word) : joinWords (w :: ws) = w ++ if ws = [] then [] else ' ' :: joinWords ws := by
  cases ws with
  | nil => simp [joinWords]
  | cons w' ws => simp [joinWords, List.intercalate]

theorem mem_joinWords (hc : c ∈ joinWords ws) : c = ' ' ∨ ∃ w ∈ ws, c ∈ w := by
  induction ws with
  | nil => simp [joinWords] at hc
  | cons w ws ih =>
    rw [joinWords_cons, List.mem_append] at hc
    rcases hc with hc | hc
    · exact .inr ⟨w, List.mem_cons_self .., hc⟩
    · split at hc
      · cases hc
      · rcases List.mem_cons.mp hc with rfl | hc
        · exact .inl rfl
        · rcases ih hc with rfl | ⟨v, hv, hc⟩
          · exact .inl rfl
          · exact .inr ⟨v, List.mem_cons_of_mem _ hv, hc⟩

theorem newline_notMem_joinWords (hws : ∀ w ∈ ws, IsWord w) : '\n' ∉ joinWords ws := by
  intro hc
  rcases mem_joinWords hc with h | ⟨w, hw, hc⟩
  · exact absurd h (by decide)
  · exact absurd ((hws w hw).2 _ hc) (by decide)

/-- The first word of a line, with one blank behind each. -/
theorem field_joinWords (hws : ∀ w ∈ ws, IsWord w) : field ' ' 1 (joinWords ws) = ws.headD [] := by
  cases ws with
  | nil => rfl
  | cons w ws =>
    have hw : ' ' ∉ w := fun h => absurd ((hws w (List.mem_cons_self ..)).2 _ h) (by decide)
    rw [joinWords_cons]
    by_cases hnil : ws = []
    · rw [if_pos hnil, List.append_nil, field, if_neg hw]
      rfl
    · rw [if_neg hnil, field, if_pos (by simp), List.splitOn_append_cons_self_of_not_mem hw]
      rfl

/-! ## Lines that are read -/

/-- The characters of a line, with those that a backslash keeps as they are, if the line does not go
on in the next one. -/
def unescape : Line → Option (List (Char × Bool))
  | [] => some []
  | ['\\'] => none
  | '\\' :: c :: l => (unescape l).map ((c, true) :: ·)
  | c :: l => (unescape l).map ((c, false) :: ·)

def freeBlank (c : Char × Bool) : Bool := isBlank c.1 && !c.2

/-- What `read` makes of a line: its characters, without the blanks at the ends. -/
def stripRead (u : List (Char × Bool)) : Line := ((u.dropWhile freeBlank).rdropWhile freeBlank).map Prod.fst

/-- The loop `while read LINE` over a text; what has no newline behind it is not read. -/
def readLoop (acc : List (Char × Bool)) : List Char → List Line
  | [] => []
  | ['\\'] => []
  | '\\' :: '\n' :: text => readLoop acc text
  | '\\' :: c :: text => readLoop (acc ++ [(c, true)]) text
  | '\n' :: text => stripRead acc :: readLoop [] text
  | c :: text => readLoop (acc ++ [(c, false)]) text

def readLines (text : List Char) : List Line := readLoop [] text

/-- A line that does not go on, as it is read. -/
def readLine (l : Line) : Line := stripRead ((unescape l).getD [])

def Continues (l : Line) : Prop := unescape l = none

instance (l : Line) : Decidable (Continues l) := inferInstanceAs (Decidable (_ = _))

theorem readLoop_escaped (hc : c ≠ '\n') (acc : List (Char × Bool)) (text : List Char) :
    readLoop acc ('\\' :: c :: text) = readLoop (acc ++ [(c, true)]) text := by
  rw [readLoop.eq_def]
  simp [hc]

theorem readLoop_char (hc : c ≠ '\n') (hback : c ≠ '\\') (acc : List (Char × Bool)) (text : List Char) :
    readLoop acc (c :: text) = readLoop (acc ++ [(c, false)]) text := by
  rw [readLoop.eq_def]
  simp [hc, hback]

theorem unescape_char (hback : c ≠ '\\') (l : Line) : unescape (c :: l) = (unescape l).map ((c, false) :: ·) := by
  rw [unescape.eq_def]
  simp [hback]

theorem readLoop_line (hl : '\n' ∉ l) (hends : ¬Continues l) (acc : List (Char × Bool)) (text : List Char) :
    readLoop acc (l ++ '\n' :: text) = stripRead (acc ++ (unescape l).getD []) :: readLines text := by
  induction l using unescape.induct generalizing acc with
  | case1 => simp [unescape, readLoop, readLines]
  | case2 => exact (hends rfl).elim
  | case3 c l ih =>
    have hc : c ≠ '\n' := by
      rintro rfl
      simp at hl
    obtain ⟨u, hu⟩ : ∃ u, unescape l = some u := by
      refine Option.ne_none_iff_exists'.mp fun hnone => hends ?_
      rw [Continues, unescape, hnone]
      rfl
    have hread := ih (fun h => hl (by simp [h])) (by simp [Continues, hu]) (acc ++ [(c, true)])
    rw [List.cons_append, List.cons_append, readLoop_escaped hc, hread, unescape, hu]
    simp
  | case4 c l hlast hmore ih =>
    have hback : c ≠ '\\' := by
      intro heq
      cases l with
      | nil => exact hlast heq rfl
      | cons x l => exact hmore x l heq rfl
    have hc : c ≠ '\n' := by
      rintro rfl
      simp at hl
    obtain ⟨u, hu⟩ : ∃ u, unescape l = some u := by
      refine Option.ne_none_iff_exists'.mp fun hnone => hends ?_
      rw [Continues, unescape_char hback, hnone]
      rfl
    have hread := ih (fun h => hl (by simp [h])) (by simp [Continues, hu]) (acc ++ [(c, false)])
    rw [List.cons_append, readLoop_char hc hback, hread, unescape_char hback, hu]
    simp

/-- A text as its lines, each with a newline behind it. -/
def linesText (ls : List Line) : List Char := ls.flatMap (· ++ ['\n'])

theorem readLines_linesText {ls : List Line} (hls : ∀ l ∈ ls, '\n' ∉ l ∧ ¬Continues l) :
    readLines (linesText ls) = ls.map readLine := by
  induction ls with
  | nil => rfl
  | cons l ls ih =>
    obtain ⟨hl, hends⟩ := hls l (List.mem_cons_self ..)
    have hrest := ih fun l hl => hls l (List.mem_cons_of_mem _ hl)
    have htext : linesText (l :: ls) = l ++ '\n' :: linesText ls := by simp [linesText]
    rw [htext, readLines, readLoop_line hl hends, List.nil_append, hrest]
    rfl

theorem unescape_plain (hl : '\\' ∉ l) : unescape l = some (l.map fun c => (c, false)) := by
  induction l with
  | nil => rfl
  | cons c l ih =>
    have hc : c ≠ '\\' := by
      rintro rfl
      simp at hl
    rw [unescape_char hc, ih fun h => hl (by simp [h])]
    rfl

theorem not_continues (hl : '\\' ∉ l) : ¬Continues l := by
  rw [Continues, unescape_plain hl]
  simp

/-- Without a backslash, only the blanks at the ends of a line are lost. -/
theorem readLine_plain (hl : '\\' ∉ l) : readLine l = strip l := by
  have hdrop : ∀ l : Line, (l.map fun c => (c, false)).dropWhile freeBlank = (l.dropWhile isBlank).map fun c => (c, false) := by
    intro l
    rw [List.dropWhile_map]
    congr
    funext c
    simp [freeBlank]
  have hmap : ∀ l : Line, (l.map fun c => (c, false)).map Prod.fst = l := by
    intro l
    rw [List.map_map]
    exact List.map_id' l
  rw [readLine, unescape_plain hl, Option.getD_some, stripRead, hdrop, strip, List.rdropWhile, ← List.map_reverse, hdrop,
    ← List.map_reverse, hmap, List.rdropWhile]

/-! ## Lines that are cut -/

theorem splitOn_linesText {ls : List Line} (hls : ∀ l ∈ ls, '\n' ∉ l) : (linesText ls).splitOn '\n' = ls ++ [[]] := by
  induction ls with
  | nil => rfl
  | cons l ls ih =>
    have hcons : linesText (l :: ls) = l ++ '\n' :: linesText ls := by simp [linesText]
    rw [hcons, List.splitOn_append_cons_self_of_not_mem (hls l (List.mem_cons_self ..)),
      ih fun l hl => hls l (List.mem_cons_of_mem _ hl), List.cons_append]

theorem textLines_linesText {ls : List Line} (hls : ∀ l ∈ ls, '\n' ∉ l) : textLines (linesText ls) = ls := by
  rw [textLines, splitOn_linesText hls]
  simp

theorem cut_linesText {i : Nat} {ls : List Line} (hls : ∀ l ∈ ls, '\n' ∉ l) :
    cut d i (linesText ls) = linesText (ls.map (field d i)) := by
  rw [cut, textLines_linesText hls, linesText, List.flatMap_map]

theorem substitution_append {a : List Char} (ht : substitution text ≠ []) : substitution (a ++ text) = a ++ substitution text := by
  have hdrop : text.reverse.dropWhile (· == '\n') ≠ [] := by simpa [substitution, List.rdropWhile] using ht
  rw [substitution, substitution, List.rdropWhile, List.rdropWhile, List.reverse_append, List.dropWhile_append,
    if_neg (by simpa using hdrop), List.reverse_append, List.reverse_reverse]

theorem isSeparator_newline : isSeparator '\n' = true := by decide

/-- A text of words on lines of their own, behind another word, is that of these words. -/
theorem words_substitution {p : Word} (hp : ∀ c ∈ p, isSeparator c = false) (hw : IsWord w) (hws : ∀ v ∈ ws, IsWord v) :
    words (p ++ substitution (linesText (w :: ws))) = (p ++ w) :: ws := by
  have hline : ∀ {v}, IsWord v → '\n' ∉ v := fun hv hc => absurd (hv.2 _ hc) (by decide)
  have hjoin : ∀ {q : Word}, IsWord q → (∀ c ∈ p, isSeparator c = false) → IsWord (p ++ q) := by
    intro q hq hp
    refine ⟨by simp [hq.1], fun c hc => ?_⟩
    rcases List.mem_append.mp hc with hc | hc
    · exact hp c hc
    · exact hq.2 c hc
  induction ws generalizing p w with
  | nil =>
    have hone : linesText [w] = w ++ ['\n'] := by simp [linesText]
    rw [hone, substitution_line (hline hw), words_word (hjoin hw hp)]
  | cons v ws ih =>
    have hrest := ih (p := []) (by simp) (hws v (List.mem_cons_self ..)) (fun v hv => hws v (List.mem_cons_of_mem _ hv))
      (fun hq _ => by simpa using hq)
    have hcons : linesText (w :: v :: ws) = (w ++ ['\n']) ++ linesText (v :: ws) := by simp [linesText]
    have hne : substitution (linesText (v :: ws)) ≠ [] := by
      intro hnil
      rw [hnil] at hrest
      simp at hrest
    rw [hcons, substitution_append hne, List.append_assoc, ← List.append_assoc, List.singleton_append,
      words_word_cons (hjoin hw hp) _ isSeparator_newline]
    simpa using hrest

/-! ## Numbers -/

theorem isDigit_of_mem_toString {i : Nat} (hc : c ∈ (toString i).toList) : c.isDigit = true := by
  rw [Nat.toString_eq_repr, Nat.toList_repr] at hc
  exact Nat.isDigit_of_mem_toDigits (by decide) (by decide) hc

theorem toString_toList_inj {i j : Nat} (h : (toString i).toList = (toString j).toList) : i = j := by
  rw [Nat.toString_eq_repr, Nat.toString_eq_repr, Nat.toList_repr, Nat.toList_repr] at h
  have hvalue := congrArg (Nat.ofDigitChars 10 · 0) h
  simpa using hvalue

def decimal (ds : Word) : Option Nat :=
  if ds ≠ [] ∧ ds.all Char.isDigit then some (ds.foldl (fun n d => 10 * n + (d.toNat - '0'.toNat)) 0) else none

def signed : Word → Option Int
  | '-' :: ds => (decimal ds).map fun n => -n
  | '+' :: ds => (decimal ds).map fun n => n
  | ds => (decimal ds).map fun n => n

/-- A number of 64 bits; what is greater is none. -/
def integer (w : Word) : Option Int := (signed w).filter fun n => -2 ^ 63 ≤ n ∧ n < 2 ^ 63

/-- The number that an unquoted expansion stands for in a test; without one the test fails. -/
def Shell.number (E : Shell) (text : List Char) : Option Int :=
  match E.unquoted text with
  | [w] => integer w
  | _ => none

end ShellText
