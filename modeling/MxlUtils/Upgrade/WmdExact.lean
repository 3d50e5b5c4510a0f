import MxlUtils.Upgrade.WmdConf

/- The loops of set_wlan over a file whose lines survive them, and the block that is
   written behind. Each item of the file is taken on its own: the loop leaves the state
   it began with, and writes the lines of the item, or the new ones. -/
namespace WmdCtrl
open ShellText

variable {E : Shell} {name value : Word} {items : List Item} {l : Line} {ls rest : List Line} {block : Bool}

/-! ## Lines of the loops -/

theorem firstWord_congr {l' : Line} (hwords : words l' = words l) : firstWord E l' = firstWord E l := by
  rw [firstWord, firstWord, Shell.cutEcho, Shell.cutEcho, Shell.unquoted, Shell.unquoted, hwords]

theorem firstWord_strip (l : Line) : firstWord E (strip l) = firstWord E l := firstWord_congr (words_strip l)

theorem linesText_cons (l : Line) (ls : List Line) : linesText (l :: ls) = l ++ '\n' :: linesText ls := by simp [linesText]

theorem linesText_append (ls ls' : List Line) : linesText (ls ++ ls') = linesText ls ++ linesText ls' := List.flatMap_append

/-- The words of a line are operands that `echo` prints as they are, if the line has no backslash. -/
theorem plainOperands_words (hback : '\\' ∉ l) (hfirst : (words l).head?.bind List.head? ≠ some '-') :
    plainOperands (words l) = true := by
  rw [plainOperands, Bool.and_eq_true]
  constructor
  · rw [List.all_eq_true]
    intro w hw
    simpa using fun hc => hback (mem_of_words hw hc)
  · simpa using hfirst

theorem firstWord_eq (hback : '\\' ∉ l) (hfirst : (words l).head?.bind List.head? ≠ some '-')
    (hexpand : ∀ w ∈ words l, E.expand w = [w]) : firstWord E l = (words l).headD [] := by
  have hwords : ∀ w ∈ words l, IsWord w := fun w hw => isWord_of_mem hw
  rw [firstWord, cutEcho_eq (by rw [unquoted_words hexpand]; exact plainOperands_words hback hfirst)
    (by rw [unquoted_words hexpand]; exact newline_notMem_joinWords hwords), unquoted_words hexpand, field_joinWords hwords]

/-- The first character of a line that does not begin with a blank is that of its first word. -/
theorem head_words (hjoin : joinWords (words l) = l) : (words l).head?.bind List.head? = l.head? := by
  cases hwords : words l with
  | nil =>
    rw [hwords] at hjoin
    rw [← hjoin]
    rfl
  | cons w ws =>
    obtain ⟨c, u, rfl⟩ := List.exists_cons_of_ne_nil (isWord_of_mem (hwords ▸ List.mem_cons_self ..) : IsWord w).1
    rw [hwords, joinWords_cons] at hjoin
    rw [← hjoin]
    rfl

theorem SurvivesUnquoted.first_eq (hl : SurvivesUnquoted E l) : firstWord E l = (words l).headD [] :=
  firstWord_eq hl.backslash (by rw [head_words hl.joined]; exact hl.first) hl.expand

/-- It comes out of the loop as it went in. -/
theorem SurvivesUnquoted.echo_eq (hl : SurvivesUnquoted E l) : E.echoed (E.unquoted (strip l)) = l ++ ['\n'] := by
  have hunquoted : E.unquoted (strip l) = words l := by
    rw [unquoted_words, words_strip]
    rw [words_strip]
    exact hl.expand
  have hfirst : (words l).head?.bind List.head? ≠ some '-' := by
    rw [head_words hl.joined]
    exact hl.first
  rw [hunquoted, echoed_plain (plainOperands_words hl.backslash hfirst), hl.joined]

theorem Survives.echo_eq (hl : Survives l) : E.echoed [l] = l ++ ['\n'] := by
  have hplain : plainOperands [l] = true := by
    simpa [plainOperands] using ⟨hl.backslash, hl.first⟩
  rw [echoed_plain hplain]
  simp [joinWords]

/-! ## Removing a block -/

theorem removeLoop_kept (hls : ∀ l ∈ ls, Survives l ∧ firstWord E l ≠ name) :
    removeLoop E name false (ls.map readLine ++ rest) = linesText ls ++ removeLoop E name false rest := by
  induction ls with
  | nil => rfl
  | cons l ls ih =>
    obtain ⟨hl, hname⟩ := hls l (List.mem_cons_self ..)
    have hrest := ih fun l hl => hls l (List.mem_cons_of_mem _ hl)
    have hread : readLine l = l := by rw [readLine_plain hl.backslash, hl.ends]
    rw [List.map_cons, List.cons_append, removeLoop, hread, linesText_cons]
    simp only [hname, if_false, Bool.false_eq_true, and_false, if_true, hrest, hl.echo_eq]
    simp

theorem removeLoop_within (hls : ∀ l ∈ ls, firstWord E (readLine l) ≠ ['}']) :
    removeLoop E name true (ls.map readLine ++ rest) = removeLoop E name true rest := by
  induction ls with
  | nil => rfl
  | cons l ls ih =>
    have hl := hls l (List.mem_cons_self ..)
    have hrest := ih fun l hl => hls l (List.mem_cons_of_mem _ hl)
    rw [List.map_cons, List.cons_append, removeLoop]
    by_cases hname : firstWord E (readLine l) = name
    · simp only [hname, if_true, hrest]
    · simp only [hname, hl, if_false, false_and, Bool.true_eq_false, hrest]

theorem removeLoop_block {header closing : Line} {settings : List Line} (hname : name ≠ ['}'])
    (hheader : firstWord E (readLine header) = name) (hclosing : firstWord E (readLine closing) = ['}'])
    (hsettings : ∀ l ∈ settings, firstWord E (readLine l) ≠ ['}']) :
    removeLoop E name false ((header :: (settings ++ [closing])).map readLine ++ rest) = removeLoop E name false rest := by
  rw [List.map_cons, List.map_append, List.cons_append, List.append_assoc, removeLoop]
  simp only [hheader, if_true]
  rw [removeLoop_within hsettings, List.map_cons, List.map_nil, List.singleton_append, removeLoop]
  simp only [hclosing, Ne.symm hname, if_false, and_self, if_true]

/-! ## Enabling a block -/

theorem strip_isInfix (l : Line) : strip l <:+: l := by
  rw [strip]
  exact (List.rdropWhile_prefix _ _).isInfix.trans (List.dropWhile_suffix _).isInfix

theorem enableLoop_kept (hls : ∀ l ∈ ls, SurvivesUnquoted E l ∧ firstWord E l ≠ name) :
    enableLoop E name value false (ls.map readLine ++ rest) = linesText ls ++ enableLoop E name value false rest := by
  induction ls with
  | nil => rfl
  | cons l ls ih =>
    obtain ⟨hl, hname⟩ := hls l (List.mem_cons_self ..)
    have hrest := ih fun l hl => hls l (List.mem_cons_of_mem _ hl)
    have hfirst : firstWord E (strip l) ≠ name := by rwa [firstWord_strip]
    rw [List.map_cons, List.cons_append, enableLoop, readLine_plain hl.backslash, linesText_cons]
    simp only [hfirst, if_false, Bool.false_eq_true, and_false, false_and, hrest, hl.echo_eq]
    simp

/-- The line that takes the place of one that sets w_active. -/
def enabledLine (value : Word) : Line := "w_active=".toList ++ value

/-- A line in the named block, after the loop. -/
def enabledSetting (value : Word) (l : Line) : Line :=
  if (assignment l).map Prod.fst = some wActiveKey then enabledLine value else l

theorem infix_of_assignment (hl : (assignment l).map Prod.fst = some wActiveKey) : wActiveKey <:+: strip l := by
  rw [assignment] at hl
  split at hl
  · cases hl
  · split at hl
    · obtain hkey : (strip l).takeWhile (· ≠ '=') = wActiveKey := Option.some.inj hl
      rw [← hkey]
      exact (List.takeWhile_prefix _).isInfix
    · cases hl

/-- A word that may stand before the equals sign of an argument. -/
def IsKey (k : Word) : Prop :=
  k ≠ [] ∧ k.head? ≠ some '-' ∧ ∀ c ∈ k, isSeparator c = false ∧ c ≠ '\\' ∧ c ≠ '='

instance (k : Word) : Decidable (IsKey k) := inferInstanceAs (Decidable (_ ∧ _ ∧ _))

/-- A word that may stand behind it. -/
def IsValue (w : Word) : Prop := ∀ c ∈ w, isSeparator c = false ∧ c ≠ '\\' ∧ c ≠ '='

instance (w : Word) : Decidable (IsValue w) := inferInstanceAs (Decidable (∀ c ∈ w, _))

section Arguments
variable {k w : Word}

theorem isWord_arg (hk : IsKey k) (hw : IsValue w) : IsWord (k ++ '=' :: w) := by
  refine ⟨by simp, fun c hc => ?_⟩
  rcases List.mem_append.mp hc with hc | hc
  · exact (hk.2.2 c hc).1
  · rcases List.mem_cons.mp hc with rfl | hc
    · decide
    · exact (hw c hc).1

theorem plainOperands_arg (hk : IsKey k) (hw : IsValue w) : plainOperands [k ++ '=' :: w] = true := by
  obtain ⟨hne, hfirst, hchars⟩ := hk
  obtain ⟨c, u, rfl⟩ := List.exists_cons_of_ne_nil hne
  have hback : '\\' ∉ c :: u ++ '=' :: w := by
    intro hc
    rcases List.mem_append.mp hc with hc | hc
    · exact (hchars _ hc).2.1 rfl
    · rcases List.mem_cons.mp hc with h | hc
      · exact absurd h (by decide)
      · exact (hw _ hc).2.1 rfl
  have hdash : c ≠ '-' := fun h => hfirst (by rw [h]; rfl)
  rw [plainOperands, Bool.and_eq_true]
  constructor
  · simpa using hback
  · simpa using hdash

end Arguments

theorem echoed_enabledLine (hvalue : Passes E value) :
    E.echoed (E.unquoted ("    w_active=".toList ++ value)) = enabledLine value ++ ['\n'] := by
  have hkey : IsKey wActiveKey := by decide
  have hline : enabledLine value = wActiveKey ++ '=' :: value := rfl
  have hwords : words ("    w_active=".toList ++ value) = [enabledLine value] := by
    show words (' ' :: ' ' :: ' ' :: ' ' :: (wActiveKey ++ '=' :: value)) = _
    rw [words_cons _ (by decide), words_cons _ (by decide), words_cons _ (by decide), words_cons _ (by decide),
      words_word (isWord_arg hkey hvalue.chars), hline]
  have hexpand : E.expand (enabledLine value) = [enabledLine value] := hvalue.expand _ (by simp)
  rw [Shell.unquoted, hwords, flatMap_expand (by simpa using hexpand), hline,
    echoed_plain (plainOperands_arg hkey hvalue.chars)]
  simp [joinWords]

theorem enableLoop_within (hvalue : Passes E value)
    (hls : ∀ l ∈ ls, '\\' ∉ l ∧ firstWord E (strip l) ≠ ['}'] ∧
      ((assignment l).map Prod.fst = some wActiveKey ∨ SurvivesUnquoted E l ∧ ¬wActiveKey <:+: l)) :
    enableLoop E name value true (ls.map readLine ++ rest) =
      linesText (ls.map (enabledSetting value)) ++ enableLoop E name value true rest := by
  induction ls with
  | nil => rfl
  | cons l ls ih =>
    obtain ⟨hback, hclosing, hl⟩ := hls l (List.mem_cons_self ..)
    have hrest := ih fun l hl => hls l (List.mem_cons_of_mem _ hl)
    have hin : (if firstWord E (strip l) = name then true else true) = true := by split <;> rfl
    rw [List.map_cons, List.cons_append, enableLoop, readLine_plain hback, List.map_cons, linesText_cons]
    simp only [hin, hclosing, false_and, if_false, true_and]
    by_cases hset : (assignment l).map Prod.fst = some wActiveKey
    · rw [if_pos (infix_of_assignment hset), enabledSetting, if_pos hset, echoed_enabledLine hvalue, hrest]
      simp
    · obtain ⟨hsurvives, hnone⟩ := hl.resolve_left hset
      have hnot : ¬wActiveKey <:+: strip l := fun h => hnone (h.trans (strip_isInfix l))
      rw [if_neg hnot, enabledSetting, if_neg hset, hsurvives.echo_eq, hrest]
      simp

theorem enableLoop_block {header closing : Line} {settings : List Line} (hvalue : Passes E value) (hname : name ≠ ['}'])
    (hheader : SurvivesUnquoted E header) (hfirst : firstWord E header = name) (hnone : ¬wActiveKey <:+: header)
    (hclosing : SurvivesUnquoted E closing) (hlast : firstWord E closing = ['}'])
    (hsettings : ∀ l ∈ settings, '\\' ∉ l ∧ firstWord E (strip l) ≠ ['}'] ∧
      ((assignment l).map Prod.fst = some wActiveKey ∨ SurvivesUnquoted E l ∧ ¬wActiveKey <:+: l)) :
    enableLoop E name value false ((header :: (settings ++ [closing])).map readLine ++ rest) =
      linesText (header :: (settings.map (enabledSetting value) ++ [closing])) ++ enableLoop E name value false rest := by
  have hfirst' : firstWord E (strip header) = name := by rwa [firstWord_strip]
  have hlast' : firstWord E (strip closing) = ['}'] := by rwa [firstWord_strip]
  have hnot : ¬wActiveKey <:+: strip header := fun h => hnone (h.trans (strip_isInfix header))
  rw [List.map_cons, List.map_append, List.cons_append, List.append_assoc, enableLoop, readLine_plain hheader.backslash]
  simp only [hfirst', hname, if_true, false_and, if_false, hnot, and_false, hheader.echo_eq]
  rw [enableLoop_within hvalue hsettings, List.map_cons, List.map_nil, List.singleton_append, enableLoop,
    readLine_plain hclosing.backslash]
  have hin : (if ['}'] = name then true else true) = true := by split <;> rfl
  simp only [hlast', hin, and_self, if_true, Bool.false_eq_true, false_and, if_false, hclosing.echo_eq]
  simp [linesText]

/-! ## The arguments -/

section Arguments
variable {k w : Word}

theorem joinWords_singleton (w : Word) : joinWords [w] = w := by simp [joinWords]

theorem cutEcho_word {d : Char} {i : Nat} (hw : IsWord w) (hexpand : E.expand w = [w]) (hplain : plainOperands [w] = true) :
    E.cutEcho d i w = field d i w := by
  have hunquoted := unquoted_word hw hexpand
  have hline : '\n' ∉ w := fun h => absurd (hw.2 _ h) (by decide)
  rw [cutEcho_eq (by rwa [hunquoted]) (by rwa [hunquoted, joinWords_singleton]), hunquoted, joinWords_singleton]

/-- The two parts of an argument. -/
theorem cutEcho_arg (hk : IsKey k) (hw : Passes E w) (hexpand : E.expand (k ++ '=' :: w) = [k ++ '=' :: w]) :
    E.cutEcho '=' 1 (k ++ '=' :: w) = k ∧ E.cutEcho '=' 2 (k ++ '=' :: w) = w := by
  have hkey : '=' ∉ k := fun h => (hk.2.2 _ h).2.2 rfl
  have hvalue : '=' ∉ w := fun h => (hw.chars _ h).2.2 rfl
  have hsplit : (k ++ '=' :: w).splitOn '=' = [k, w] := by
    rw [List.splitOn_append_cons_self_of_not_mem hkey, List.splitOn_eq_singleton hvalue]
  have hmem : '=' ∈ k ++ '=' :: w := by simp
  constructor
  · rw [cutEcho_word (isWord_arg hk hw.chars) hexpand (plainOperands_arg hk hw.chars), field, if_pos hmem, hsplit]
    rfl
  · rw [cutEcho_word (isWord_arg hk hw.chars) hexpand (plainOperands_arg hk hw.chars), field, if_pos hmem, hsplit]
    rfl

end Arguments

/-- What a threshold out of range is taken for. -/
def taken (E : Shell) (threshold : Word) : Word := if improper E threshold then "100".toList else threshold

/-- The variables after the arguments of which these are the last values. -/
def Given.vars (E : Shell) (g : Given) : Params where
  threshold := (g.threshold.map (taken E)).getD minusOne
  wanList := (g.wans.map joinColon).getD none'
  wActive := g.wActive.getD minusOne
  wlanEnable := g.enable.getD minusOne

/-- The values of the parameters pass. -/
def Param.Passes (E : Shell) : Param → Prop
  | .threshold value => WmdCtrl.Passes E value
  | .wActive value => WmdCtrl.Passes E value
  | .wans names => WmdCtrl.Passes E (joinColon names)
  | .enable value => WmdCtrl.Passes E value

theorem setParam_arg {x : Param} (hx : x.Passes E) (g : Given) : setParam E (g.vars E) x.arg = (g.add x).vars E := by
  cases x with
  | threshold value =>
    have hk : IsKey "threshold".toList := by decide
    obtain ⟨htoken, hvalue⟩ := cutEcho_arg hk hx (hx.expand "threshold=".toList (by simp))
    show setParam E (g.vars E) ("threshold".toList ++ '=' :: value) = _
    rw [setParam, htoken, hvalue]
    rfl
  | wActive value =>
    have hk : IsKey "w_active".toList := by decide
    obtain ⟨htoken, hvalue⟩ := cutEcho_arg hk hx (hx.expand "w_active=".toList (by simp))
    show setParam E (g.vars E) ("w_active".toList ++ '=' :: value) = _
    rw [setParam, htoken, hvalue]
    rfl
  | wans names =>
    have hk : IsKey "wans".toList := by decide
    obtain ⟨htoken, hvalue⟩ := cutEcho_arg hk hx (hx.expand "wans=".toList (by simp))
    show setParam E (g.vars E) ("wans".toList ++ '=' :: joinColon names) = _
    rw [setParam, htoken, hvalue]
    rfl
  | enable value =>
    have hk : IsKey "enable".toList := by decide
    obtain ⟨htoken, hvalue⟩ := cutEcho_arg hk hx (hx.expand "enable=".toList (by simp))
    show setParam E (g.vars E) ("enable".toList ++ '=' :: value) = _
    rw [setParam, htoken, hvalue]
    rfl

theorem setParams_args {params : List Param} (hparams : ∀ x ∈ params, x.Passes E) (g : Given) :
    (params.map Param.arg).foldl (setParam E) (g.vars E) = (params.foldl Given.add g).vars E := by
  induction params generalizing g with
  | nil => rfl
  | cons x params ih =>
    rw [List.map_cons, List.foldl_cons, List.foldl_cons, setParam_arg (hparams x (List.mem_cons_self ..))]
    exact ih (fun x hx => hparams x (List.mem_cons_of_mem _ hx)) (g.add x)

theorem number_of_integer {w : Word} {n : Int} (hw : Passes E w) (hn : integer w = some n) : E.number w = some n := by
  have hexpand : E.expand w = [w] := hw.expand [] (List.mem_cons_self ..)
  rw [Shell.number, unquoted_word ⟨hw.ne_nil, fun c hc => (hw.chars c hc).1⟩ hexpand]
  exact hn

theorem number_minusOne (E : Shell) : E.number minusOne = some (-1) := by
  have hunquoted : E.unquoted minusOne = [minusOne] := unquoted_word ⟨by decide, by decide⟩ rfl
  rw [Shell.number, hunquoted]
  rfl

theorem isSet_minusOne (E : Shell) : isSet E minusOne = false := by
  rw [isSet, number_minusOne]
  rfl

theorem isSet_integer {w : Word} {n : Int} (hw : Passes E w) (hn : integer w = some n) (hne : n ≠ -1) : isSet E w = true := by
  rw [isSet, number_of_integer hw hn]
  simpa using hne

end WmdCtrl
