import MxlUtils.CapProvide.Main

/- The list of capabilities. For a list of names, cap_cmp finds out whether a name is in
   it: what has been read of a word is a beginning of the name until one character is
   not, and a word counts if it ends where the name does. -/
namespace CapProvide
open CString Capabilities

variable {S : System} {d w : Word} {list : List Word} {flg t k : Nat}

/-- A word of the list: at least one character, and only those that are allowed. -/
structure IsCapName (w : Word) : Prop where
  ne_nil : w ≠ []
  chars : ∀ c ∈ w, ('a' ≤ c ∧ c ≤ 'z') ∨ c = '_'

/-- The argument for a list of names. -/
def capList (list : List Word) : Word := List.intercalate [','] list

/-- What the counters say of the part of a word that was read. -/
def Read (d : Word) (x : Word) (flg t : Nat) : Prop :=
  x = [] ∧ flg = 0 ∧ t = 0 ∨ x ≠ [] ∧ x <+: d ∧ flg = 1 ∧ t = x.length ∨ x ≠ [] ∧ ¬x <+: d ∧ flg = 2

theorem concat_prefix_iff {x : Word} {c : Char} (hc : c ≠ NUL) (hx : x <+: d) :
    x ++ [c] <+: d ↔ c = d.getD x.length NUL := by
  obtain ⟨rest, rfl⟩ := hx
  cases rest with
  | nil =>
    constructor
    · rintro ⟨tail, htail⟩
      have := congrArg List.length htail
      simp at this
    · intro heq
      simp at heq
      exact (hc heq).elim
  | cons c' rest =>
    rw [List.prefix_append_right_inj]
    simp [List.prefix_cons_inj, eq_comm]

/-- One more character of a word. -/
theorem read_compare {x : Word} {c : Char} (hc : c ≠ NUL) (hread : Read d x flg t) :
    Read d (x ++ [c]) (compare d flg t c).1 (compare d flg t c).2 := by
  have hne : x ++ [c] ≠ [] := by simp
  have hmore : x <+: d → t = x.length → flg ≠ 2 → Read d (x ++ [c]) (compare d flg t c).1 (compare d flg t c).2 := by
    rintro hx rfl hflg
    have hiff := concat_prefix_iff hc hx
    by_cases hsame : c = d.getD x.length NUL
    · refine .inr (.inl ⟨hne, hiff.mpr hsame, ?_, ?_⟩)
      · rw [compare, if_pos hflg, if_pos hsame]
      · rw [compare, if_pos hflg, if_pos hsame]
        simp
    · refine .inr (.inr ⟨hne, fun hbegins => hsame (hiff.mp hbegins), ?_⟩)
      rw [compare, if_pos hflg, if_neg hsame]
  rcases hread with ⟨rfl, rfl, rfl⟩ | ⟨-, hx, rfl, ht⟩ | ⟨-, hx, rfl⟩
  · exact hmore List.nil_prefix rfl (by decide)
  · exact hmore hx ht (by decide)
  · refine .inr (.inr ⟨hne, fun hbegins => hx ((List.prefix_append x [c]).trans hbegins), ?_⟩)
    simp [compare]

/-- A word that was read to its end is the name if the counters say so. -/
theorem read_end_iff (hd : NUL ∉ d) (hw : w ≠ []) (hread : Read d w flg t) :
    flg = 1 ∧ d.getD t NUL = NUL ↔ w = d := by
  rcases hread with ⟨rfl, -, -⟩ | ⟨-, hbegins, rfl, rfl⟩ | ⟨-, hbegins, rfl⟩
  · exact (hw rfl).elim
  · obtain ⟨rest, rfl⟩ := hbegins
    cases rest with
    | nil => simp
    | cons c rest =>
      have hc : c ≠ NUL := by
        rintro rfl
        exact hd (by simp)
      simp [hc]
  · constructor
    · rintro ⟨hflg, -⟩
      cases hflg
    · rintro rfl
      exact (hbegins (List.prefix_refl _)).elim

/-- A character of a name ends no word, and is not rejected. -/
theorem name_char {c : Char} (hc : ('a' ≤ c ∧ c ≤ 'z') ∨ c = '_') :
    c ≠ NUL ∧ c ≠ ',' ∧ ¬((c < 'a' ∨ 'z' < c) ∧ c ≠ '_' ∧ c ≠ ',') := by
  rcases hc with ⟨ha, hz⟩ | rfl
  · refine ⟨?_, ?_, ?_⟩
    · rintro rfl
      exact absurd ha (by decide)
    · rintro rfl
      exact absurd ha (by decide)
    · rintro ⟨hlt | hlt, -⟩
      · exact absurd ha (Char.not_le.mpr hlt)
      · exact absurd hz (Char.not_le.mpr hlt)
  · exact ⟨by decide, by decide, by decide⟩

theorem IsCapName.ne_nul (hw : IsCapName w) : ∀ c ∈ w, c ≠ NUL ∧ c ≠ ',' ∧ ¬((c < 'a' ∨ 'z' < c) ∧ c ≠ '_' ∧ c ≠ ',') :=
  fun c hc => name_char (hw.chars c hc)

theorem capCmpLoop_char {c : Char} {s : Word} (hvalid : ¬((c < 'a' ∨ 'z' < c) ∧ c ≠ '_' ∧ c ≠ ',')) (hcomma : c ≠ ',') :
    capCmpLoop d flg t (c :: s) = capCmpLoop d (compare d flg t c).1 (compare d flg t c).2 s := by
  rw [capCmpLoop.eq_def]
  simp only [hvalid, hcomma, if_false]

/-- After a word that is not the name, the loop starts anew behind the comma. -/
theorem capCmpLoop_comma {c : Char} {s : Word} (hvalid : ¬((c < 'a' ∨ 'z' < c) ∧ c ≠ '_' ∧ c ≠ ',')) (hcomma : c ≠ ',') :
    capCmpLoop d flg t (',' :: c :: s) =
      if flg = 1 ∧ d.getD t NUL = NUL then .ok true else capCmpLoop d 0 0 (c :: s) := by
  rw [capCmpLoop_char hvalid hcomma, capCmpLoop.eq_def]
  simp

/-- The loop over the rest of a word. -/
theorem capCmpLoop_word {x y : Word} (tail : Word)
    (hy : ∀ c ∈ y, c ≠ NUL ∧ c ≠ ',' ∧ ¬((c < 'a' ∨ 'z' < c) ∧ c ≠ '_' ∧ c ≠ ',')) (hread : Read d x flg t) :
    ∃ flg' t', Read d (x ++ y) flg' t' ∧ capCmpLoop d flg t (y ++ tail) = capCmpLoop d flg' t' tail := by
  induction y generalizing x flg t with
  | nil => exact ⟨flg, t, by simpa using hread, rfl⟩
  | cons c y ih =>
    obtain ⟨hnul, hcomma, hvalid⟩ := hy c (List.mem_cons_self ..)
    obtain ⟨flg', t', hend, hloop⟩ := ih (fun c hc => hy c (List.mem_cons_of_mem _ hc)) (read_compare hnul hread)
    refine ⟨flg', t', by simpa using hend, ?_⟩
    rw [List.cons_append, capCmpLoop_char hvalid hcomma, hloop]

theorem capList_cons (w : Word) (list : List Word) :
    capList (w :: list) = w ++ if list = [] then [] else ',' :: capList list := by
  cases list with
  | nil => simp [capList]
  | cons w' list => simp [capList, List.intercalate]

/-- For a list of names, the loop tells whether the name is in it. -/
theorem capCmp_capList (hd : NUL ∉ d) (hlist : ∀ w ∈ list, IsCapName w) :
    capCmp d (capList list) = .ok (decide (d ∈ list)) := by
  rw [capCmp]
  induction list with
  | nil => simp [capList, capCmpLoop]
  | cons w list ih =>
    have hw := hlist w (List.mem_cons_self ..)
    have hrest : ∀ w ∈ list, IsCapName w := fun w hw => hlist w (List.mem_cons_of_mem _ hw)
    rw [capList_cons]
    obtain ⟨flg, t, hend, hloop⟩ :=
      capCmpLoop_word (if list = [] then [] else ',' :: capList list) hw.ne_nul (.inl ⟨rfl, rfl, rfl⟩)
    rw [List.nil_append] at hend
    have hiff := read_end_iff hd hw.ne_nil hend
    rw [hloop]
    cases list with
    | nil =>
      rw [if_pos rfl, capCmpLoop]
      have hsame : (flg = 1 ∧ d.getD t NUL = NUL) ↔ d ∈ [w] := hiff.trans (by rw [List.mem_singleton, eq_comm])
      exact congrArg Except.ok (decide_eq_decide.mpr hsame)
    | cons w' list =>
      -- the first character of the next word is there
      have hw' := hrest w' (List.mem_cons_self ..)
      obtain ⟨c, y, rfl⟩ := List.exists_cons_of_ne_nil hw'.ne_nil
      obtain ⟨-, hcomma, hvalid⟩ := hw'.ne_nul c (List.mem_cons_self ..)
      have hnext := ih hrest
      rw [capList_cons, List.cons_append] at hnext ⊢
      rw [if_neg (List.cons_ne_nil _ _), capCmpLoop_comma hvalid hcomma, hnext]
      by_cases hsame : w = d
      · rw [if_pos (hiff.mpr hsame), hsame]
        simp
      · rw [if_neg (fun hread => hsame (hiff.mp hread))]
        simp [Ne.symm hsame]

/-- The capabilities that a list names. -/
def Requested (S : System) (list : List Word) (k : Nat) : Prop :=
  k ≤ S.last ∧ (S.names k ∈ list ∨ capAll ∈ list)

/-- One round of the loop over the capabilities. -/
def readCap (S : System) (uCaps : Word) (caps : CapSet) (j : Nat) : Except Stop CapSet := do
  if ← capCmp (S.names j) uCaps then .ok (caps.add j)
  else if ← capCmp capAll uCaps then .ok (caps.add j)
  else .ok caps

theorem readCap_capList (hlist : ∀ w ∈ list, IsCapName w) (caps : CapSet) (j : Nat) :
    readCap S (capList list) caps j =
      .ok (if S.names j ∈ list ∨ capAll ∈ list then caps.add j else caps) := by
  have hname : capCmp (S.names j) (capList list) = .ok (decide (S.names j ∈ list)) := capCmp_capList (S.names_ok j) hlist
  have hall : capCmp capAll (capList list) = .ok (decide (capAll ∈ list)) :=
    capCmp_capList (by decide) hlist
  unfold readCap
  rw [hname, hall]
  by_cases hj : S.names j ∈ list
  · simp [hj]
    rfl
  · by_cases hc : capAll ∈ list
    · simp only [hj, hc]
      rfl
    · simp only [hj, hc]
      rfl

/-- The bits that the loop sets are those of the capabilities in the list. -/
theorem readCaps_capList (hlist : ∀ w ∈ list, IsCapName w) :
    ∃ caps, readCaps S (capList list) = .ok caps ∧ ∀ k, caps.getLsbD k = true ↔ Requested S list k := by
  have hloop : ∀ (js : List Nat) (caps : CapSet), (∀ j ∈ js, j < 64) → ∃ caps',
      js.foldlM (readCap S (capList list)) caps = .ok caps' ∧ ∀ k, caps'.getLsbD k = true ↔
        caps.getLsbD k = true ∨ k ∈ js ∧ (S.names k ∈ list ∨ capAll ∈ list) := by
    intro js
    induction js with
    | nil => exact fun caps _ => ⟨caps, rfl, by simp⟩
    | cons j js ih =>
      intro caps hjs
      obtain ⟨caps', hrun, hbits⟩ := ih (if S.names j ∈ list ∨ capAll ∈ list then caps.add j else caps)
        fun j hj => hjs j (List.mem_cons_of_mem _ hj)
      refine ⟨caps', ?_, fun k => ?_⟩
      · rw [List.foldlM_cons, readCap_capList hlist]
        exact hrun
      · rw [hbits k]
        have hj : j < 64 := hjs j (List.mem_cons_self ..)
        by_cases hnamed : S.names j ∈ list ∨ capAll ∈ list
        · rw [if_pos hnamed, getLsbD_add hj]
          by_cases hk : k = j
          · subst hk
            simp [hnamed]
          · simp [hk]
        · rw [if_neg hnamed]
          by_cases hk : k = j
          · subst hk
            simp [hnamed]
          · simp [hk]
  obtain ⟨caps, hrun, hbits⟩ := hloop (List.range (S.last + 1)) 0#64 fun j hj => by
    have := S.last_lt
    have := List.mem_range.mp hj
    omega
  refine ⟨caps, hrun, fun k => ?_⟩
  rw [hbits k, Requested, List.mem_range, Nat.lt_succ_iff]
  simp

end CapProvide
