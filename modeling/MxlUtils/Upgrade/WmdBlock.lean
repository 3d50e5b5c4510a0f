import MxlUtils.Upgrade.WmdExact

/- The block that an edit writes behind the others: comments and settings, one line for
   each value that was given and one for each WAN of the list. -/
namespace WmdCtrl
open ShellText

variable {E : Shell} {e : Edit} {g : Given} {k w : Word} {ws : List Word} {l : Line} {text : List Char} {i n : Nat}

/-! ## Lines that are written -/

def indent : List Char := [' ', ' ', ' ', ' ']

def settingLine (key value : Word) : Line := indent ++ (key ++ '=' :: value)

def commentLine (first : Word) (text : List Char) : Line := indent ++ ['#', ' '] ++ (first ++ ' ' :: text)

theorem words_indent (l : List Char) : words (indent ++ l) = words l := by
  show words (' ' :: ' ' :: ' ' :: ' ' :: l) = words l
  rw [words_cons _ (by decide), words_cons _ (by decide), words_cons _ (by decide), words_cons _ (by decide)]

theorem strip_indent (l : List Char) : strip (indent ++ l) = strip l := rfl

theorem strip_word (hw : IsWord w) : strip w = w := by
  obtain ⟨hne, hchars⟩ := hw
  have hblank : ∀ c ∈ w, isBlank c = false := fun c hc => by
    have hsep := hchars c hc
    rw [isSeparator, Bool.or_eq_false_iff] at hsep
    exact hsep.1
  have hleft : w.dropWhile isBlank = w := by
    rw [List.dropWhile_eq_self_iff]
    intro hlen
    simpa using hblank _ (List.getElem_mem hlen)
  rw [strip, hleft, List.rdropWhile_eq_self_iff]
  intro hne
  simpa using hblank _ (List.getLast_mem hne)

theorem IsSetting.of_words {l l' : Line} (hl : IsSetting l) (hline : '\n' ∉ l') (hwords : words l' = words l) : IsSetting l' :=
  ⟨hline, by rw [hwords]; exact hl.header, by rw [IsClosing, hwords]; exact hl.closing⟩

theorem isSetting_word (hl : IsWord l) (hclosing : l ≠ ['}']) : IsSetting l := by
  constructor
  · exact fun hc => absurd (hl.2 _ hc) (by decide)
  · intro n
    rw [words_word hl]
    simp
  · simpa [IsClosing, words_word hl] using hclosing

theorem isSetting_settingLine (hk : IsKey k) (hw : IsValue w) : IsSetting (settingLine k w) := by
  have hword := isWord_arg hk hw
  have hclosing : k ++ '=' :: w ≠ ['}'] := by
    intro h
    have hmem : '=' ∈ k ++ '=' :: w := by simp
    rw [h] at hmem
    exact absurd hmem (by decide)
  refine (isSetting_word hword hclosing).of_words (fun hc => ?_) (words_indent _)
  rcases List.mem_append.mp hc with hc | hc
  · exact absurd hc (by decide)
  · exact absurd (hword.2 _ hc) (by decide)

theorem assignment_settingLine (hk : IsKey k) (hhash : k.head? ≠ some '#') (hw : IsValue w) :
    assignment (settingLine k w) = some (k, w) := by
  have hstrip : strip (settingLine k w) = k ++ '=' :: w := by
    rw [settingLine, strip_indent, strip_word (isWord_arg hk hw)]
  have hkey : ∀ c ∈ k, (c ≠ '=') = True := fun c hc => by simpa using (hk.2.2 c hc).2.2
  have hfirst : (k ++ '=' :: w).head? ≠ some '#' := by
    obtain ⟨c, u, rfl⟩ := List.exists_cons_of_ne_nil hk.1
    exact hhash
  rw [assignment, hstrip, if_neg hfirst, if_pos (by simp), List.takeWhile_append_of_pos (by simpa using hkey),
    List.dropWhile_append_of_pos (by simpa using hkey)]
  simp

theorem words_commentLine (hw : IsWord w) : words (commentLine w text) = ['#'] :: w :: words text := by
  show words (indent ++ (['#'] ++ ' ' :: (w ++ ' ' :: text))) = _
  rw [words_indent, words_word_cons ⟨by decide, by decide⟩ _ (by decide), words_word_cons hw _ (by decide)]

theorem isSetting_commentLine (hw : IsWord w) (hbrace : w ≠ ['{']) (htext : '\n' ∉ text) : IsSetting (commentLine w text) := by
  constructor
  · intro hc
    rcases List.mem_append.mp hc with hc | hc
    · exact absurd hc (by decide)
    · rcases List.mem_append.mp hc with hc | hc
      · exact absurd (hw.2 _ hc) (by decide)
      · exact htext (by simpa using hc)
  · intro n
    rw [words_commentLine hw]
    simp [hbrace]
  · rw [IsClosing, words_commentLine hw]
    exact (by decide : some ['#'] ≠ some ['}'])

theorem assignment_commentLine (w : Word) (text : List Char) : assignment (commentLine w text) = none := by
  have hstrip : strip (commentLine w text) = ('#' :: ' ' :: (w ++ ' ' :: text)).rdropWhile isBlank := rfl
  have hne : strip (commentLine w text) ≠ [] := by
    rw [hstrip, Ne, List.rdropWhile_eq_nil_iff]
    intro h
    exact absurd (h '#' (List.mem_cons_self ..)) (by decide)
  have hhead : (strip (commentLine w text)).head? = some '#' := by
    obtain ⟨c, u, hu⟩ := List.exists_cons_of_ne_nil hne
    have hsome := List.rdropWhile_prefix isBlank ('#' :: ' ' :: (w ++ ' ' :: text))
    rw [← hstrip, hu, List.cons_prefix_cons] at hsome
    rw [hu, hsome.1]
    rfl
  rw [assignment, if_pos hhead]

/-! ## Lines that echo writes -/

theorem echoed_line (hback : '\\' ∉ l) (hfirst : l.head? ≠ some '-') : E.echoed [l] = linesText [l] := by
  have hplain : plainOperands [l] = true := by
    simpa [plainOperands] using ⟨hback, hfirst⟩
  rw [echoed_plain hplain, joinWords_singleton, linesText_cons]
  rfl

theorem echoed_settingLine (hk : IsKey k) (hw : IsValue w) : E.echoed [settingLine k w] = linesText [settingLine k w] := by
  apply echoed_line
  · intro hc
    rcases List.mem_append.mp hc with hc | hc
    · exact absurd hc (by decide)
    · rcases List.mem_append.mp hc with hc | hc
      · exact (hk.2.2 _ hc).2.1 rfl
      · rcases List.mem_cons.mp hc with h | hc
        · exact absurd h (by decide)
        · exact (hw _ hc).2.1 rfl
  · exact (by decide : some ' ' ≠ some '-')

theorem echoed_commentLine (hw : '\\' ∉ w) (htext : '\\' ∉ text) :
    E.echoed [commentLine w text] = linesText [commentLine w text] := by
  apply echoed_line
  · intro hc
    rcases List.mem_append.mp hc with hc | hc
    · exact absurd hc (by decide)
    · rcases List.mem_append.mp hc with hc | hc
      · exact hw hc
      · exact htext (by simpa using hc)
  · exact (by decide : some ' ' ≠ some '-')

/-! ## The WANs -/

def wanComment (i : Nat) : Line := commentLine "Active".toList ("WAN ".toList ++ (toString i).toList ++ " index".toList)

/-- The lines for WANs, the first of which is the i-th. -/
def wanSettings : Nat → List Word → List Line
  | _, [] => []
  | i, w :: ws => wanComment i :: settingLine "wan".toList w :: wanSettings (i + 1) ws

theorem mem_wanComment_tail {c : Char} (hc : c ∈ "WAN ".toList ++ (toString i).toList ++ " index".toList) :
    c ∈ "WAN  index".toList ∨ c.isDigit = true := by
  rcases List.mem_append.mp hc with hc | hc
  · rcases List.mem_append.mp hc with hc | hc
    · exact .inl (List.mem_append_left " index".toList hc)
    · exact .inr (isDigit_of_mem_toString hc)
  · exact .inl (List.mem_append_right "WAN ".toList hc)

theorem isSetting_wanComment (i : Nat) : IsSetting (wanComment i) := by
  refine isSetting_commentLine ⟨by decide, by decide⟩ (by decide) fun hc => ?_
  rcases mem_wanComment_tail hc with hc | hc
  · exact absurd hc (by decide)
  · exact absurd hc (by decide)

theorem wanLines_eq (hw : IsValue w) : wanLines E i w = linesText [wanComment i, settingLine "wan".toList w] := by
  have hcomment : E.echoed [wanComment i] = linesText [wanComment i] := by
    refine echoed_commentLine (by decide) fun hc => ?_
    rcases mem_wanComment_tail hc with hc | hc
    · exact absurd hc (by decide)
    · exact absurd hc (by decide)
  have hline : "    # Active WAN ".toList ++ (toString i).toList ++ " index".toList = wanComment i := rfl
  have hsetting : "    wan=".toList ++ w = settingLine "wan".toList w := rfl
  rw [wanLines, hline, hsetting, hcomment, echoed_settingLine (by decide) hw, ← linesText_append]
  rfl

theorem filterMap_wanSettings (hws : ∀ w ∈ ws, IsValue w) (i : Nat) :
    (wanSettings i ws).filterMap assignment = ws.map fun w => ("wan".toList, w) := by
  induction ws generalizing i with
  | nil => rfl
  | cons w ws ih =>
    have hcomment : assignment (wanComment i) = none := assignment_commentLine _ _
    have hsetting : assignment (settingLine "wan".toList w) = some ("wan".toList, w) :=
      assignment_settingLine (by decide) (by decide) (hws w (List.mem_cons_self ..))
    have hrest := ih (fun w hw => hws w (List.mem_cons_of_mem _ hw)) (i + 1)
    rw [wanSettings, List.filterMap_cons_none hcomment, List.filterMap_cons_some hsetting, hrest, List.map_cons]

theorem isSetting_wanSettings (hws : ∀ w ∈ ws, IsValue w) (i : Nat) : ∀ l ∈ wanSettings i ws, IsSetting l := by
  induction ws generalizing i with
  | nil => simp [wanSettings]
  | cons w ws ih =>
    have hsetting := isSetting_settingLine (k := "wan".toList) (by decide) (hws w (List.mem_cons_self ..))
    have hrest := ih (fun w hw => hws w (List.mem_cons_of_mem _ hw)) (i + 1)
    intro l hl
    rcases List.mem_cons.mp hl with rfl | hl
    · exact isSetting_wanComment i
    · rcases List.mem_cons.mp hl with rfl | hl
      · exact hsetting
      · exact hrest l hl

/-- The list of WANs as it is given: the names are not empty, and it passes. -/
structure Listed (E : Shell) (ws : List Word) : Prop where
  passes : Passes E (joinColon ws)
  not_none : joinColon ws ≠ none'
  first : (joinColon ws).head? ≠ some '-'
  names : ∀ w ∈ ws, w ≠ [] ∧ ':' ∉ w

theorem mem_joinColon {c : Char} (hw : w ∈ ws) (hc : c ∈ w) : c ∈ joinColon ws := by
  induction ws with
  | nil => cases hw
  | cons v ws ih =>
    cases ws with
    | nil =>
      rw [List.mem_singleton] at hw
      simpa [joinColon, ← hw] using hc
    | cons v' ws =>
      rw [joinColon, List.intercalate_cons_cons, ← joinColon]
      rcases List.mem_cons.mp hw with rfl | hw
      · simp [hc]
      · simp [ih hw]

theorem Listed.isValue (hws : Listed E ws) : ∀ w ∈ ws, IsValue w :=
  fun _ hw c hc => hws.passes.chars c (mem_joinColon hw hc)

theorem Listed.ne_nil (hws : Listed E ws) : ws ≠ [] := by
  rintro rfl
  exact hws.passes.ne_nil rfl

theorem Listed.isWord (hws : Listed E ws) : IsWord (joinColon ws) := ⟨hws.passes.ne_nil, fun c hc => (hws.passes.chars c hc).1⟩

theorem Listed.plain (hws : Listed E ws) : plainOperands [joinColon ws] = true := by
  have hback : '\\' ∉ joinColon ws := fun hc => (hws.passes.chars _ hc).2.1 rfl
  simpa [plainOperands] using ⟨hback, hws.first⟩

theorem Listed.unquoted (hws : Listed E ws) : E.unquoted (joinColon ws) = [joinColon ws] :=
  unquoted_word hws.isWord (hws.passes.expand [] (List.mem_cons_self ..))

/-- What `cut` gives for the i-th, or nothing. -/
theorem Listed.cut_eq (hws : Listed E ws) (hmem : ':' ∈ joinColon ws) (i : Nat) :
    E.cutEcho ':' i (joinColon ws) = ws.getD (i - 1) [] := by
  have hsplit : (joinColon ws).splitOn ':' = ws := List.splitOn_intercalate ':' (fun w hw => (hws.names w hw).2) hws.ne_nil
  rw [cutEcho_word hws.isWord (hws.passes.expand [] (List.mem_cons_self ..)) hws.plain, field, if_pos hmem, hsplit]

/-- The loop runs over the rest of the list, and stops behind it. -/
theorem Listed.wanLoop_eq (hws : Listed E ws) (hmem : ':' ∈ joinColon ws) {n i : Nat} (hn : ws.length - i < n) :
    wanLoop E (joinColon ws) n (i + 1) = linesText (wanSettings (i + 1) (ws.drop i)) := by
  induction n generalizing i with
  | zero => omega
  | succ n ih =>
    rw [wanLoop, hws.cut_eq hmem, Nat.add_sub_cancel]
    by_cases hi : i < ws.length
    · have hin := List.getElem_mem hi
      have hget : ws.getD i [] = ws[i] := by simp [hi]
      have hrest : wanLoop E (joinColon ws) n (i + 1 + 1) = linesText (wanSettings (i + 1 + 1) (ws.drop (i + 1))) := ih (by omega)
      simp only [hget, (hws.names _ hin).1, if_false]
      rw [hrest, wanLines_eq (hws.isValue _ hin), ← linesText_append, List.drop_eq_getElem_cons hi]
      rfl
    · have hget : ws.getD i [] = [] := by simp [Nat.le_of_not_lt hi]
      have hdrop : ws.drop i = [] := List.drop_eq_nil_of_le (Nat.le_of_not_lt hi)
      simp only [hget, if_true, hdrop]
      rfl

theorem length_le_joinColon (ws : List Word) : ws.length ≤ (joinColon ws).length + 1 := by
  induction ws with
  | nil => exact Nat.zero_le _
  | cons w ws ih =>
    cases ws with
    | nil => simp
    | cons w' ws =>
      rw [joinColon, List.intercalate_cons_cons, ← joinColon]
      simp only [List.length_cons, List.length_append, List.length_nil] at ih ⊢
      omega

/-- The number of the first WAN is 0 where there is one, and 1 where there are more. -/
def firstIndex (ws : List Word) : Nat := if ws.length = 1 then 0 else 1

theorem Listed.insertWans_eq (hws : Listed E ws) :
    insertWans E (joinColon ws) = linesText (wanSettings (firstIndex ws) ws) := by
  obtain ⟨w, rest, rfl⟩ := List.exists_cons_of_ne_nil hws.ne_nil
  cases rest with
  | nil =>
    have hjoin : joinColon [w] = w := List.intercalate_singleton
    have hcolon : ':' ∉ w := (hws.names w (List.mem_cons_self ..)).2
    have hline : '\n' ∉ w := fun hc => absurd ((hws.isValue w (List.mem_cons_self ..)) _ hc).1 (by decide)
    have hunquoted := hws.unquoted
    have hplain := hws.plain
    rw [hjoin] at hunquoted hplain
    have hecho : substitution (E.echoed (E.unquoted w)) = w := by
      rw [hunquoted, echoed_plain hplain, joinWords_singleton, substitution_line hline]
    have hindex : colonIndex w = 0 := if_neg hcolon
    rw [hjoin, insertWans, if_pos hindex, hecho, wanLines_eq (hws.isValue w (List.mem_cons_self ..))]
    rfl
  | cons w' rest =>
    have hmem : ':' ∈ joinColon (w :: w' :: rest) := by simp [joinColon, List.intercalate_cons_cons]
    have hindex : colonIndex (joinColon (w :: w' :: rest)) ≠ 0 := by
      rw [colonIndex, if_pos hmem]
      exact Nat.succ_ne_zero _
    have hlength := length_le_joinColon (w :: w' :: rest)
    rw [insertWans, if_neg hindex]
    exact hws.wanLoop_eq hmem (by omega)

theorem Listed.hasWans (hws : Listed E ws) : hasWans E (joinColon ws) = true := by
  rw [WmdCtrl.hasWans, hws.unquoted]
  simpa using hws.not_none

theorem hasWans_none : hasWans E none' = false := by
  have hunquoted : E.unquoted none' = [none'] := unquoted_word ⟨by decide, by decide⟩ rfl
  rw [hasWans, hunquoted]
  simp

/-! ## The whole block -/

def headerLine (name : Word) : Line := name ++ [' ', '{']

def thresholdComment : Line := commentLine "Percentage".toList "of downlink load when the \"At Capacity\" flag will be set".toList

def wActiveComment : Line := commentLine "Whether".toList "WMD is active for interface".toList

def thresholdSettings (t : Word) : List Line := [thresholdComment, settingLine "threshold".toList t]

def wActiveSettings (v : Word) : List Line := [wActiveComment, settingLine wActiveKey v]

/-- The lines of the block between the braces. -/
def Given.lines (g : Given) : List Line :=
  (g.threshold.map thresholdSettings).getD [] ++ (g.wActive.map wActiveSettings).getD [] ++
    (g.wans.map fun ws => wanSettings (firstIndex ws) ws).getD []

/-- What is given passes. -/
structure Given.Pass (E : Shell) (g : Given) : Prop where
  threshold : ∀ t, g.threshold = some t → Passes E t ∧ ∃ n, integer t = some n ∧ 0 ≤ n ∧ n ≤ 100
  wActive : ∀ v, g.wActive = some v → Passes E v ∧ ∃ n, integer v = some n ∧ n ≠ -1
  wans : ∀ ws, g.wans = some ws → Listed E ws

theorem echoed_thresholdComment :
    E.echoed ["    # Percentage of downlink load when the \"At Capacity\" flag will be set".toList] = linesText [thresholdComment] := by
  have hline : "    # Percentage of downlink load when the \"At Capacity\" flag will be set".toList = thresholdComment := by
    simp [thresholdComment, commentLine, indent]
  rw [hline, thresholdComment]
  exact echoed_commentLine (by simp) (by simp)

theorem echoed_wActiveComment : E.echoed ["    # Whether WMD is active for interface".toList] = linesText [wActiveComment] := by
  have hline : "    # Whether WMD is active for interface".toList = wActiveComment := by simp [wActiveComment, commentLine, indent]
  rw [hline, wActiveComment]
  exact echoed_commentLine (by simp) (by simp)

theorem isSetting_comments : IsSetting thresholdComment ∧ IsSetting wActiveComment :=
  ⟨isSetting_commentLine ⟨by decide, by decide⟩ (by decide) (by simp),
    isSetting_commentLine ⟨by decide, by decide⟩ (by decide) (by simp)⟩

theorem taken_eq {t : Word} {n : Int} (ht : Passes E t) (hn : integer t = some n) (hlow : 0 ≤ n) (hhigh : n ≤ 100) :
    taken E t = t := by
  have hproper : improper E t = false := by
    rw [improper, number_of_integer ht hn]
    simp
    omega
  rw [taken, hproper]
  rfl

theorem threshold_eq (hg : g.Pass E) :
    (if isSet E (g.vars E).threshold then
      E.echoed ["    # Percentage of downlink load when the \"At Capacity\" flag will be set".toList] ++
        E.echoed ["    threshold=".toList ++ (g.vars E).threshold]
    else []) = linesText ((g.threshold.map thresholdSettings).getD []) := by
  cases hthreshold : g.threshold with
  | none =>
    have hvar : (g.vars E).threshold = minusOne := by simp [Given.vars, hthreshold]
    rw [hvar, isSet_minusOne]
    rfl
  | some t =>
    obtain ⟨ht, n, hn, hlow, hhigh⟩ := hg.threshold t hthreshold
    have hvar : (g.vars E).threshold = t := by simp [Given.vars, hthreshold, taken_eq ht hn hlow hhigh]
    have hset : isSet E t = true := isSet_integer ht hn (by omega)
    rw [hvar, if_pos hset]
    have hline : "    threshold=".toList ++ t = settingLine "threshold".toList t := rfl
    rw [hline, echoed_thresholdComment, echoed_settingLine (by decide) ht.chars, ← linesText_append]
    rfl

theorem wActive_eq (hg : g.Pass E) :
    (if isSet E (g.vars E).wActive then
      E.echoed ["    # Whether WMD is active for interface".toList] ++ E.echoed ["    w_active=".toList ++ (g.vars E).wActive]
    else []) = linesText ((g.wActive.map wActiveSettings).getD []) := by
  cases hactive : g.wActive with
  | none =>
    have hvar : (g.vars E).wActive = minusOne := by simp [Given.vars, hactive]
    rw [hvar, isSet_minusOne]
    rfl
  | some v =>
    obtain ⟨hv, n, hn, hne⟩ := hg.wActive v hactive
    have hvar : (g.vars E).wActive = v := by simp [Given.vars, hactive]
    have hline : "    w_active=".toList ++ v = settingLine wActiveKey v := rfl
    rw [hvar, if_pos (isSet_integer hv hn hne), hline, echoed_wActiveComment, echoed_settingLine (by decide) hv.chars,
      ← linesText_append]
    rfl

theorem wans_eq (hg : g.Pass E) :
    (if hasWans E (g.vars E).wanList then insertWans E (g.vars E).wanList else []) =
      linesText ((g.wans.map fun ws => wanSettings (firstIndex ws) ws).getD []) := by
  cases hwans : g.wans with
  | none =>
    have hvar : (g.vars E).wanList = none' := by simp [Given.vars, hwans]
    rw [hvar, hasWans_none]
    rfl
  | some ws =>
    have hlisted := hg.wans ws hwans
    have hvar : (g.vars E).wanList = joinColon ws := by simp [Given.vars, hwans]
    rw [hvar, if_pos hlisted.hasWans, hlisted.insertWans_eq]
    rfl

theorem newBlock_eq {name : Word} (hname : Passes E name) (hfirst : name.head? ≠ some '-') (hg : g.Pass E) :
    newBlock E name (g.vars E) = linesText (headerLine name :: (g.lines ++ [['}']])) := by
  have hheader : E.echoed [headerLine name] = linesText [headerLine name] := by
    obtain ⟨c, u, rfl⟩ := List.exists_cons_of_ne_nil hname.ne_nil
    apply echoed_line
    · intro hc
      rcases List.mem_append.mp hc with hc | hc
      · exact (hname.chars _ hc).2.1 rfl
      · exact absurd hc (by decide)
    · exact hfirst
  have hclosing : E.echoed [['}']] = linesText [['}']] := echoed_line (by decide) (by decide)
  have hfirstLine : E.echoed [name ++ [' ', '{']] = linesText [headerLine name] := hheader
  have hcons : ∀ ls, linesText [headerLine name] ++ linesText ls = linesText (headerLine name :: ls) :=
    fun ls => (linesText_append _ ls).symm
  rw [newBlock, hfirstLine, threshold_eq hg, wActive_eq hg, wans_eq hg, hclosing, ← hcons (g.lines ++ [['}']]), Given.lines]
  simp only [linesText_append, List.append_assoc]

/-- The block sets what was given. -/
theorem filterMap_lines (hg : g.Pass E) : g.lines.filterMap assignment = g.settings := by
  have hthreshold : ((g.threshold.map thresholdSettings).getD []).filterMap assignment =
      (g.threshold.map fun t => ("threshold".toList, t)).toList := by
    cases hthreshold : g.threshold with
    | none => rfl
    | some t =>
      have hcomment : assignment thresholdComment = none := assignment_commentLine _ _
      have hsetting : assignment (settingLine "threshold".toList t) = some ("threshold".toList, t) :=
        assignment_settingLine (by decide) (by decide) (hg.threshold t hthreshold).1.chars
      rw [Option.map_some, Option.getD_some, thresholdSettings, List.filterMap_cons_none hcomment,
        List.filterMap_cons_some hsetting]
      rfl
  have hactive : ((g.wActive.map wActiveSettings).getD []).filterMap assignment =
      (g.wActive.map fun v => (wActiveKey, v)).toList := by
    cases hactive : g.wActive with
    | none => rfl
    | some v =>
      have hcomment : assignment wActiveComment = none := assignment_commentLine _ _
      have hsetting : assignment (settingLine wActiveKey v) = some (wActiveKey, v) :=
        assignment_settingLine (by decide) (by decide) (hg.wActive v hactive).1.chars
      rw [Option.map_some, Option.getD_some, wActiveSettings, List.filterMap_cons_none hcomment,
        List.filterMap_cons_some hsetting]
      rfl
  have hwans : ((g.wans.map fun ws => wanSettings (firstIndex ws) ws).getD []).filterMap assignment =
      (g.wans.getD []).map fun w => ("wan".toList, w) := by
    cases hwans : g.wans with
    | none => rfl
    | some ws => exact filterMap_wanSettings (hg.wans ws hwans).isValue _
  rw [Given.lines, List.filterMap_append, List.filterMap_append, hthreshold, hactive, hwans, Given.settings]

theorem isSetting_lines (hg : g.Pass E) : ∀ l ∈ g.lines, IsSetting l := by
  intro l hl
  rw [Given.lines, List.mem_append, List.mem_append] at hl
  rcases hl with (hl | hl) | hl
  · cases hthreshold : g.threshold with
    | none => simp [hthreshold] at hl
    | some t =>
      rw [hthreshold] at hl
      rcases List.mem_cons.mp hl with rfl | hl
      · exact isSetting_comments.1
      · rw [List.mem_singleton.mp hl]
        exact isSetting_settingLine (by decide) (hg.threshold t hthreshold).1.chars
  · cases hactive : g.wActive with
    | none => simp [hactive] at hl
    | some v =>
      rw [hactive] at hl
      rcases List.mem_cons.mp hl with rfl | hl
      · exact isSetting_comments.2
      · rw [List.mem_singleton.mp hl]
        exact isSetting_settingLine (by decide) (hg.wActive v hactive).1.chars
  · cases hwans : g.wans with
    | none => simp [hwans] at hl
    | some ws =>
      rw [hwans] at hl
      exact isSetting_wanSettings (hg.wans ws hwans).isValue _ l hl

end WmdCtrl
