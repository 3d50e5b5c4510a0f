import MxlUtils.CapProvide.Names

/- What cap_cmp makes of an arbitrary list. The character behind a comma is taken
   without a look at it, so that a second comma does not separate, a character there
   that is not allowed is not noticed, and a comma at the end is read past. `pieces`
   takes a list apart as the loop does; the result is right exactly where that makes
   no difference. -/
namespace CapProvide
open CString

variable {d s : Word} {flg t : Nat} {cut : Bool}

/-! ## Lists -/

/-- Neither of a name nor a comma. -/
def NotAllowed (c : Char) : Prop := (c < 'a' ∨ 'z' < c) ∧ c ≠ '_' ∧ c ≠ ','

instance (c : Char) : Decidable (NotAllowed c) := inferInstanceAs (Decidable (_ ∧ _))

/-- `d` is an element of the list, and up to it all characters are allowed. -/
def FoundIn (d s : Word) : Prop :=
  ∃ before after, s.splitOn ',' = before ++ d :: after ∧ ∀ w ∈ before, ∀ c ∈ w, ¬NotAllowed c

/-- `cap_cmp` tells whether `d` is an element, exits at a character that is not allowed unless an element
has decided the result before, and stays within the list. -/
structure MatchesList (d s : Word) : Prop where
  found : FoundIn d s → capCmp d s = .ok true
  invalid : ¬FoundIn d s → (∃ c ∈ s, NotAllowed c) → capCmp d s = .error (.exit 1)
  missing : ¬FoundIn d s → (∀ c ∈ s, ¬NotAllowed c) → capCmp d s = .ok false

/-! ## The list as the loop takes it apart -/

/-- A word as the loop reads it: what stands directly behind a comma, whatever it is, and the characters from
there to the next comma. -/
structure Piece where
  first : Option Char
  rest : Word

def Piece.word (p : Piece) : Word := p.first.toList ++ p.rest

def Piece.Clean (p : Piece) : Prop := ∀ c ∈ p.rest, ¬NotAllowed c

def Piece.Is (d : Word) (p : Piece) : Prop := d ≠ [] ∧ p.word = d

/-- The words of a list, where `p` has been read of the first. -/
def pieces (p : Piece) : Word → List Piece
  | [] => [p]
  | c :: s =>
    if c = ',' then
      match s with
      | [] => [p]
      | c :: s => p :: pieces ⟨some c, []⟩ s
    else pieces ⟨p.first, p.rest ++ [c]⟩ s

@[simp] theorem pieces_end {p : Piece} : pieces p [','] = [p] := rfl

@[simp] theorem pieces_comma {p : Piece} {c : Char} : pieces p (',' :: c :: s) = p :: pieces ⟨some c, []⟩ s := rfl

theorem pieces_char {p : Piece} {c : Char} (hcomma : c ≠ ',') :
    pieces p (c :: s) = pieces ⟨p.first, p.rest ++ [c]⟩ s := by
  rw [pieces.eq_def]
  simp only [if_neg hcomma]

def listPieces (s : Word) : List Piece := pieces ⟨none, []⟩ s

/-- The last comma that separates has nothing behind it. -/
def endsSeparated : Word → Bool
  | [] => false
  | c :: s =>
    if c = ',' then
      match s with
      | [] => true
      | _ :: s => endsSeparated s
    else endsSeparated s

/-- `d` is among the words, and those before it have no character that the loop rejects. -/
def FoundAsRead (d : Word) (ps : List Piece) : Prop :=
  ∃ before p after, ps = before ++ p :: after ∧ p.Is d ∧ ∀ q ∈ before, q.Clean

/-- The loop rejects a character of some word, and no word before it is `d`. -/
def RejectedAsRead (d : Word) (ps : List Piece) : Prop :=
  ∃ before p after, ps = before ++ p :: after ∧ ¬p.Clean ∧ ∀ q ∈ before, ¬q.Is d

/-- The characters that are taken unseen make no difference: an element that decides the result is a word of the
loop too, a character that is not allowed is noticed in time, and the list does not end in a comma that separates. -/
structure UnseenHarmless (d s : Word) : Prop where
  found : FoundIn d s → FoundAsRead d (listPieces s)
  invalid : ¬FoundIn d s → (∃ c ∈ s, NotAllowed c) → RejectedAsRead d (listPieces s)
  missing : ¬FoundIn d s → (∀ c ∈ s, ¬NotAllowed c) → endsSeparated s = false

/-! ## The result, by the words -/

instance (p : Piece) : Decidable p.Clean := inferInstanceAs (Decidable (∀ c ∈ p.rest, ¬NotAllowed c))

instance (d : Word) (p : Piece) : Decidable (p.Is d) := inferInstanceAs (Decidable (_ ∧ _))

/-- The result for the words `ps`; `cut` says that a comma is left over at the end. -/
def decided (d : Word) (cut : Bool) : List Piece → Except Stop Bool
  | [] => if cut then .error .beyond else .ok false
  | p :: ps =>
    if ¬p.Clean then .error (.exit 1)
    else if p.Is d then .ok true
    else decided d cut ps

/-- A character that is rejected in the first word decides. -/
theorem decided_of_not_clean {p : Piece} (hp : ¬p.Clean) (s : Word) : decided d cut (pieces p s) = .error (.exit 1) := by
  induction s generalizing p with
  | nil => rw [pieces, decided, if_pos hp]
  | cons c s ih =>
    by_cases hcomma : c = ','
    · subst hcomma
      cases s with
      | nil => rw [pieces_end, decided, if_pos hp]
      | cons c s => rw [pieces_comma, decided, if_pos hp]
    · rw [pieces_char hcomma]
      apply ih
      intro hclean
      exact hp fun c' hc => hclean c' (List.mem_append_left _ hc)

/-- What the counters say at the end of a word. -/
theorem read_end_is {p : Piece} (hd : NUL ∉ d) (hread : Read d p.word flg t) :
    flg = 1 ∧ d.getD t NUL = NUL ↔ p.Is d := by
  by_cases hnil : p.word = []
  · rcases hread with ⟨-, rfl, -⟩ | ⟨hne, -⟩ | ⟨hne, -⟩
    · constructor
      · rintro ⟨hflg, -⟩
        cases hflg
      · rintro ⟨hne, hword⟩
        exact absurd (hword.symm.trans hnil) hne
    · exact absurd hnil hne
    · exact absurd hnil hne
  · rw [read_end_iff hd hnil hread]
    constructor
    · intro hword
      exact ⟨hword ▸ hnil, hword⟩
    · exact And.right

theorem capCmpLoop_end : capCmpLoop d flg t [','] =
    if flg = 1 ∧ d.getD t NUL = NUL then .ok true else .error .beyond := rfl

/-- Behind a comma the loop takes one character unseen. -/
theorem capCmpLoop_unseen {c : Char} : capCmpLoop d flg t (',' :: c :: s) =
    if flg = 1 ∧ d.getD t NUL = NUL then .ok true
    else capCmpLoop d (compare d 0 0 c).1 (compare d 0 0 c).2 s := rfl

/-- The loop computes the result by the words: what is read of the first word is `p`. -/
theorem capCmpLoop_eq_decided {p : Piece} (hd : NUL ∉ d) (hs : NUL ∉ s) (hclean : p.Clean)
    (hread : Read d p.word flg t) : capCmpLoop d flg t s = decided d (endsSeparated s) (pieces p s) := by
  induction s using endsSeparated.induct generalizing p flg t with
  | case1 =>
    rw [capCmpLoop, pieces, decided, if_neg (not_not.mpr hclean)]
    by_cases his : p.Is d
    · rw [if_pos his, decide_eq_true ((read_end_is hd hread).mpr his)]
    · rw [if_neg his, decide_eq_false fun hend => his ((read_end_is hd hread).mp hend)]
      rfl
  | case2 =>
    rw [capCmpLoop_end, pieces_end, decided, if_neg (not_not.mpr hclean)]
    by_cases his : p.Is d
    · rw [if_pos his, if_pos ((read_end_is hd hread).mpr his)]
    · rw [if_neg his, if_neg (mt (read_end_is hd hread).mp his)]
      rfl
  | case3 c s ih =>
    obtain ⟨-, hc, hs⟩ : ',' ≠ NUL ∧ c ≠ NUL ∧ NUL ∉ s := by simpa [eq_comm] using hs
    rw [capCmpLoop_unseen, pieces_comma, decided, if_neg (not_not.mpr hclean)]
    by_cases his : p.Is d
    · rw [if_pos his, if_pos ((read_end_is hd hread).mpr his)]
    · rw [if_neg his, if_neg (mt (read_end_is hd hread).mp his)]
      have hfirst : Read d (Piece.mk (some c) []).word (compare d 0 0 c).1 (compare d 0 0 c).2 :=
        read_compare (x := []) hc (.inl ⟨rfl, rfl, rfl⟩)
      exact ih hs (fun _ hc => absurd hc List.not_mem_nil) hfirst
  | case4 c s hcomma ih =>
    obtain ⟨hc, hs⟩ : c ≠ NUL ∧ NUL ∉ s := by simpa [eq_comm] using hs
    rw [pieces_char hcomma, endsSeparated.eq_def]
    simp only [if_neg hcomma]
    by_cases hbad : NotAllowed c
    · have hnot : ¬(Piece.mk p.first (p.rest ++ [c])).Clean := fun hall => hall c (by simp) hbad
      rw [decided_of_not_clean hnot, capCmpLoop.eq_def]
      exact if_pos hbad
    · have hmore : (Piece.mk p.first (p.rest ++ [c])).Clean := by
        intro c' hc'
        rcases List.mem_append.mp hc' with hc' | hc'
        · exact hclean c' hc'
        · rwa [List.mem_singleton.mp hc']
      rw [capCmpLoop_char hbad hcomma]
      exact ih hs hmore (by simpa [Piece.word] using read_compare hc hread)

theorem capCmp_eq_decided (hd : NUL ∉ d) (hs : NUL ∉ s) :
    capCmp d s = decided d (endsSeparated s) (listPieces s) :=
  capCmpLoop_eq_decided hd hs (fun _ hc => absurd hc List.not_mem_nil) (.inl ⟨rfl, rfl, rfl⟩)

section Decided
variable {ps : List Piece}

theorem not_exists_first_nil {P Q : Piece → Prop} :
    ¬∃ before a after, [] = before ++ a :: after ∧ P a ∧ ∀ b ∈ before, Q b := by
  simp

theorem Piece.Is.clean {p : Piece} (hd : ∀ c ∈ d, ¬NotAllowed c) (his : p.Is d) : p.Clean := by
  intro c hc
  apply hd c
  rw [← his.2]
  exact List.mem_append_right _ hc

theorem decided_true_iff (hd : ∀ c ∈ d, ¬NotAllowed c) : decided d cut ps = .ok true ↔ FoundAsRead d ps := by
  induction ps with
  | nil => exact iff_of_false (by cases cut <;> simp [decided]) not_exists_first_nil
  | cons p ps ih =>
    rw [FoundAsRead, exists_first_cons, decided]
    by_cases hclean : p.Clean
    · rw [if_neg (not_not.mpr hclean)]
      by_cases his : p.Is d
      · simp [his]
      · rw [if_neg his, ih]
        simp [his, hclean, FoundAsRead]
    · rw [if_pos hclean]
      have his : ¬p.Is d := fun his => hclean (his.clean hd)
      simp [his, hclean]

theorem decided_exit_iff :
    decided d cut ps = .error (.exit 1) ↔ RejectedAsRead d ps := by
  induction ps with
  | nil => exact iff_of_false (by cases cut <;> simp [decided]) not_exists_first_nil
  | cons p ps ih =>
    rw [RejectedAsRead, exists_first_cons, decided]
    by_cases hclean : p.Clean
    · rw [if_neg (not_not.mpr hclean)]
      by_cases his : p.Is d
      · simp [his, hclean]
      · rw [if_neg his, ih]
        simp [his, hclean, RejectedAsRead]
    · simp [hclean]

/-- Where nothing is rejected and no word is the name, the end of the list decides. -/
theorem decided_false_iff (hclean : ∀ p ∈ ps, p.Clean) (his : ∀ p ∈ ps, ¬p.Is d) :
    decided d cut ps = .ok false ↔ cut = false := by
  induction ps with
  | nil => cases cut <;> simp [decided]
  | cons p ps ih =>
    obtain ⟨hp, hclean⟩ := List.forall_mem_cons.mp hclean
    obtain ⟨hnot, his⟩ := List.forall_mem_cons.mp his
    rw [decided, if_neg (not_not.mpr hp), if_neg hnot]
    exact ih hclean his

end Decided

/-! ## Words and elements -/

/-- A word without a comma is an element. -/
theorem word_mem_splitOn {p q : Piece} (hp : p ∈ pieces q s) (hcomma : ',' ∉ p.word) :
    p.word ∈ (q.word ++ s).splitOn ',' := by
  induction s using endsSeparated.induct generalizing q with
  | case1 =>
    obtain rfl := List.mem_singleton.mp hp
    rw [List.append_nil, List.splitOn_eq_singleton hcomma]
    exact List.mem_singleton_self _
  | case2 =>
    obtain rfl := List.mem_singleton.mp hp
    rw [List.splitOn_append_cons_self_of_not_mem hcomma]
    exact List.mem_cons_self
  | case3 c s ih =>
    rw [List.splitOn_append_cons_self]
    rcases List.mem_cons.mp hp with rfl | hp
    · apply List.mem_append_left
      rw [List.splitOn_eq_singleton hcomma]
      exact List.mem_singleton_self _
    · exact List.mem_append_right _ (ih hp)
  | case4 c s hne ih =>
    rw [pieces_char hne] at hp
    have hmem := ih hp
    simpa [Piece.word] using hmem

/-- What the loop looks at are characters of the list. -/
theorem mem_of_mem_rest {p q : Piece} {c : Char} (hp : p ∈ pieces q s) (hc : c ∈ p.rest) : c ∈ q.rest ∨ c ∈ s := by
  induction s using endsSeparated.induct generalizing q with
  | case1 =>
    obtain rfl := List.mem_singleton.mp hp
    exact .inl hc
  | case2 =>
    obtain rfl := List.mem_singleton.mp hp
    exact .inl hc
  | case3 c' s ih =>
    rcases List.mem_cons.mp hp with rfl | hp
    · exact .inl hc
    · have hrest := ih hp
      simp only [List.not_mem_nil, false_or] at hrest
      exact .inr (by simp [hrest])
  | case4 c' s hne ih =>
    rw [pieces_char hne] at hp
    rcases ih hp with hrest | hs
    · rcases List.mem_append.mp hrest with hrest | hsame
      · exact .inl hrest
      · exact .inr (by simp [List.mem_singleton.mp hsame])
    · exact .inr (List.mem_cons_of_mem _ hs)

theorem mem_of_mem_splitOn {w : Word} {c : Char} (hw : w ∈ s.splitOn ',') (hc : c ∈ w) : c ∈ s :=
  (infix_of_mem_splitOn hw).subset hc

/-! ## The result -/

/-- The result is right exactly where the characters that are taken unseen make no difference. -/
theorem matchesList_iff (hd : ∀ c ∈ d, ('a' ≤ c ∧ c ≤ 'z') ∨ c = '_') (hs : NUL ∉ s) :
    MatchesList d s ↔ UnseenHarmless d s := by
  have hnul : NUL ∉ d := fun hmem => (name_char (hd _ hmem)).1 rfl
  have hallowed : ∀ c ∈ d, ¬NotAllowed c := fun c hc => (name_char (hd c hc)).2.2
  have hcmp := capCmp_eq_decided hnul hs
  -- where all is allowed and the name is no element, the loop rejects nothing and finds nothing
  have hend : ¬FoundIn d s → (∀ c ∈ s, ¬NotAllowed c) → (capCmp d s = .ok false ↔ endsSeparated s = false) := by
    intro hnot hgood
    rw [hcmp]
    apply decided_false_iff
    · intro p hp c hc
      rcases mem_of_mem_rest hp hc with hrest | hmem
      · cases hrest
      · exact hgood c hmem
    · intro p hp his
      have hcomma : ',' ∉ p.word := by
        rw [his.2]
        exact fun hmem => (name_char (hd _ hmem)).2.1 rfl
      obtain ⟨before, after, hsplit⟩ := List.append_of_mem (word_mem_splitOn hp hcomma)
      rw [his.2] at hsplit
      refine hnot ⟨before, after, hsplit, fun w hw c hc => hgood c ?_⟩
      exact mem_of_mem_splitOn (hsplit ▸ List.mem_append_left _ hw) hc
  constructor
  · intro h
    refine ⟨fun hfound => ?_, fun hnot hbad => ?_, fun hnot hgood => (hend hnot hgood).mp (h.missing hnot hgood)⟩
    · exact (decided_true_iff hallowed).mp (hcmp.symm.trans (h.found hfound))
    · exact (decided_exit_iff).mp (hcmp.symm.trans (h.invalid hnot hbad))
  · intro h
    refine ⟨fun hfound => ?_, fun hnot hbad => ?_, fun hnot hgood => (hend hnot hgood).mpr (h.missing hnot hgood)⟩
    · exact hcmp.trans ((decided_true_iff hallowed).mpr (h.found hfound))
    · exact hcmp.trans ((decided_exit_iff).mpr (h.invalid hnot hbad))

/-- An empty element at the front of the list hides nothing. -/
theorem matchesList_empty_front : MatchesList "cap_kill".toList ",cap_kill".toList := by
  have hfound : FoundIn "cap_kill".toList ",cap_kill".toList := ⟨[[]], [], by simp [List.splitOn_cons_eq_if_modifyHead], by simp⟩
  apply (matchesList_iff (by decide) (by decide)).mpr
  refine ⟨fun _ => ?_, fun hnot => absurd hfound hnot, fun hnot => absurd hfound hnot⟩
  have hpieces : listPieces ",cap_kill".toList = [⟨none, []⟩, ⟨some 'c', "ap_kill".toList⟩] := by
    simp [listPieces, pieces]
  exact ⟨[⟨none, []⟩], ⟨some 'c', "ap_kill".toList⟩, [], hpieces, by decide, by decide⟩

/-- Of two commas in a row, the second is taken for the beginning of the name. -/
theorem not_matchesList_empty_element : ¬MatchesList "cap_kill".toList "cap_chown,,cap_kill".toList := by
  intro h
  have hfound : FoundIn "cap_kill".toList "cap_chown,,cap_kill".toList :=
    ⟨["cap_chown".toList, []], [], by simp [List.splitOn_cons_eq_if_modifyHead], by decide⟩
  have hcmp : capCmp "cap_kill".toList "cap_chown,,cap_kill".toList = .ok false := by
    have hpieces : listPieces "cap_chown,,cap_kill".toList =
        [⟨none, "cap_chown".toList⟩, ⟨some ',', "cap_kill".toList⟩] := by simp [listPieces, pieces]
    rw [capCmp_eq_decided (by decide) (by decide), hpieces]
    exact (decided_false_iff (by decide) (by decide)).mpr (by simp [endsSeparated])
  cases hcmp.symm.trans (h.found hfound)

end CapProvide
