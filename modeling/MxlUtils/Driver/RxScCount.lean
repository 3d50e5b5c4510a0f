import MxlUtils.Driver.RxScSearch
import MxlUtils.Lib.Execution

/- The count of the active receive channels. The count is kept beside the list, by the
   commands and not by the flags: a channel is counted when it is created and its flag
   is written over afterwards, and nothing asks whether its SCI is in the list already.
   Every other change of a flag or of the list is counted as it should be. -/
namespace Gpy211Gennl
open Loop Chain

variable {s s' : Driver} {l : List (Addr × RxSc)} {sci : BitVec 64} {r : Request}
variable {c c' : BitVec 32} {T T' T₁ T₂ : ScTable} {w : ScWish}

/-- The number of channels whose active flag is set. -/
def activeCount (T : ScTable) : Nat := T.countP (·.2)

/-- The count is that number, and no SCI is there twice. -/
structure CountRight (c : BitVec 32) (T : ScTable) : Prop where
  count : c.toNat = activeCount T
  once : (T.map Prod.fst).Nodup

/-- The count and the list of a driver. -/
def Counted (s : Driver) : Prop := ∃ l, Lists s l ∧ CountRight s.secy.nRxSc (scTable l)

/-- What keeps them right: a new channel is active and has an SCI of its own, and the count,
which has 32 bits, is not at its end when a channel becomes active. -/
def Fits : ScWish → ScTable → Prop
  | .add sci active, T => active = true ∧ sci ∉ T.map Prod.fst ∧ activeCount T + 1 < 2 ^ 32
  | .update sci true, T => (sci, false) ∈ T → activeCount T + 1 < 2 ^ 32
  | .update _ false, _ => True
  | .delete _, _ => True
  | .keep, _ => True

@[simp] theorem activeCount_cons (x : BitVec 64 × Bool) :
    activeCount (x :: T) = activeCount T + x.2.toNat := by
  cases h : x.2 <;> simp [activeCount, List.countP_cons, h]

@[simp] theorem activeCount_append : activeCount (T₁ ++ T₂) = activeCount T₁ + activeCount T₂ :=
  List.countP_append

/-- A channel that is there with one flag is not there with the other. -/
theorem flag_unique {old new : Bool} (h : ((T₁ ++ (sci, old) :: T₂).map Prod.fst).Nodup)
    (hmem : (sci, new) ∈ T₁ ++ (sci, old) :: T₂) : new = old := by
  have hrest : sci ∉ (T₁ ++ T₂).map Prod.fst := by
    have hperm : (T₁ ++ (sci, old) :: T₂).Perm ((sci, old) :: (T₁ ++ T₂)) := List.perm_middle
    exact (List.nodup_cons.mp ((hperm.map Prod.fst).nodup_iff.mp h)).1
  rcases List.mem_cons.mp (List.perm_middle.mem_iff.mp hmem) with heq | hmem
  · exact congrArg Prod.snd heq
  · exact (hrest (List.mem_map_of_mem hmem)).elim

theorem toNat_succ (c : BitVec 32) : (c + 1).toNat = if c.toNat + 1 < 2 ^ 32 then c.toNat + 1 else 0 := by
  have hlt := c.isLt
  split <;> bv_omega

theorem toNat_pred {n : Nat} (h : c.toNat = n + 1) : (c - 1).toNat = n := by
  bv_omega

theorem countRight_add_iff {act : Bool} (h : CountRight c T) :
    CountRight (c + 1) ((sci, act) :: T) ↔ Fits (.add sci act) T := by
  have hc := h.count
  constructor
  · rintro ⟨hcount, honce⟩
    rw [toNat_succ, activeCount_cons, hc] at hcount
    rw [List.map_cons, List.nodup_cons] at honce
    cases act with
    | false =>
      change _ = activeCount T + 0 at hcount
      split at hcount <;> omega
    | true =>
      change _ = activeCount T + 1 at hcount
      refine ⟨rfl, honce.1, ?_⟩
      by_contra hfull
      rw [if_neg hfull] at hcount
      omega
  · rintro ⟨rfl, hnew, hfull⟩
    refine ⟨?_, ?_⟩
    · rw [toNat_succ, activeCount_cons, hc, if_pos hfull]
      rfl
    · rw [List.map_cons, List.nodup_cons]
      exact ⟨hnew, h.once⟩

theorem countRight_update_iff {old new : Bool} (h : CountRight c (T₁ ++ (sci, old) :: T₂)) :
    CountRight (c + if old = new then 0 else if new then 1 else -1) (T₁ ++ (sci, new) :: T₂) ↔
      Fits (.update sci new) (T₁ ++ (sci, old) :: T₂) := by
  have hc := h.count
  have honce : ((T₁ ++ (sci, new) :: T₂).map Prod.fst).Nodup := by
    have honce := h.once
    rw [List.map_append, List.map_cons] at honce ⊢
    exact honce
  rw [activeCount_append, activeCount_cons] at hc
  have hiff : CountRight (c + if old = new then 0 else if new then 1 else -1) (T₁ ++ (sci, new) :: T₂) ↔
      (c + if old = new then 0 else if new then 1 else -1).toNat =
        activeCount T₁ + (activeCount T₂ + new.toNat) := by
    rw [← activeCount_cons (sci, new), ← activeCount_append]
    exact ⟨fun h => h.count, fun h => ⟨h, honce⟩⟩
  rw [hiff]
  cases old <;> cases new
  · have hsame : c + 0 = c := BitVec.add_zero c
    change (c + 0).toNat = _ ↔ _
    rw [hsame]
    exact iff_of_true hc trivial
  · have hmem : (sci, false) ∈ T₁ ++ (sci, false) :: T₂ := by simp
    have hfits : Fits (.update sci true) (T₁ ++ (sci, false) :: T₂) ↔
        activeCount T₁ + activeCount T₂ + 1 < 2 ^ 32 := by
      rw [Fits, activeCount_append, activeCount_cons]
      exact ⟨fun h => h hmem, fun h _ => h⟩
    have hc : c.toNat = activeCount T₁ + activeCount T₂ := hc
    change (c + 1).toNat = activeCount T₁ + (activeCount T₂ + 1) ↔ _
    rw [hfits, toNat_succ, hc]
    split <;> omega
  · have hc : c.toNat = activeCount T₁ + activeCount T₂ + 1 := hc
    change (c + -1).toNat = activeCount T₁ + (activeCount T₂ + 0) ↔ _
    rw [← BitVec.sub_eq_add_neg]
    exact iff_of_true (toNat_pred hc) trivial
  · have hsame : c + 0 = c := BitVec.add_zero c
    change (c + 0).toNat = _ ↔ _
    rw [hsame]
    refine iff_of_true hc fun hmem => ?_
    exact absurd (flag_unique h.once hmem) (by simp)

theorem countRight_delete {act : Bool} (h : CountRight c (T₁ ++ (sci, act) :: T₂)) :
    CountRight (if act then c - 1 else c) (T₁ ++ T₂) := by
  have hc := h.count
  rw [activeCount_append, activeCount_cons] at hc
  constructor
  · rw [activeCount_append]
    cases act with
    | false => exact hc
    | true => exact toNat_pred hc
  · have honce := h.once
    rw [List.map_append, List.map_cons] at honce
    rw [List.map_append]
    exact honce.sublist (List.Sublist.append (List.Sublist.refl _) (List.sublist_cons_self _ _))

/-- A change keeps count and list right exactly when it fits. -/
theorem countRight_iff_of_change (hchange : ScChange w c T c' T') (h : CountRight c T) :
    CountRight c' T' ↔ Fits w T := by
  cases hchange with
  | keep => exact iff_of_true h trivial
  | add => exact countRight_add_iff h
  | update => exact countRight_update_iff h
  | delete => exact iff_of_true (countRight_delete h) trivial
  | absent => exact iff_of_true h trivial

/-- The request fits the list of the driver. -/
def RequestFits (s : Driver) (r : Request) : Prop := ∃ l, Lists s l ∧ Fits r.wish (scTable l)

theorem counted_iff_of_step (hstep : Step s r s') (h : Counted s) : Counted s' ↔ RequestFits s r := by
  obtain ⟨l, hl, hright⟩ := h
  obtain ⟨l', hl', hchange⟩ := change_of_step hl hstep
  have hiff := countRight_iff_of_change hchange hright
  constructor
  · rintro ⟨l₁, hl₁, hright'⟩
    obtain rfl := hl₁.unique hl'
    exact ⟨l, hl, hiff.mp hright'⟩
  · rintro ⟨l₁, hl₁, hfits⟩
    obtain rfl := hl₁.unique hl
    exact ⟨l', hl', hiff.mpr hfits⟩

/-- In a run of commands from a driver without channels, the count is right and no SCI is there
twice in every state if and only if every request fits the list it finds. -/
theorem rxScCount_iff {es : List (Request × Driver)} (hinit : Initial s) (hrun : Execution.Run Step s es) :
    (∀ e ∈ es, Counted e.2) ↔ Execution.Allowed RequestFits s es := by
  refine hrun.good_iff (I := fun _ => True) (fun _ _ _ _ _ => trivial)
    (fun s r s' hstep _ h => counted_iff_of_step hstep h) trivial ?_
  exact ⟨[], lists_of_initial hinit, by simp [scTable, activeCount, hinit.2.1], by simp [scTable]⟩

theorem counted_oneChannel : (∀ e ∈ [(addChannel 1 10 none, emptyDriver.added 1 10 true)], Counted e.2) ↔
    Execution.Allowed RequestFits emptyDriver [(addChannel 1 10 none, emptyDriver.added 1 10 true)] :=
  rxScCount_iff ⟨rfl, rfl, rfl, rfl⟩ ⟨step_addChannel rfl rfl, trivial⟩

/-- A channel added with its active attribute 0 is counted. -/
theorem not_counted_inactive : ¬∀ s es, Initial s → Execution.Run Step s es → ∀ e ∈ es, Counted e.2 := by
  intro hclaim
  have hrun : Execution.Run Step emptyDriver [(addChannel 1 10 (some 0), emptyDriver.added 1 10 false)] :=
    ⟨step_addChannel rfl rfl, trivial⟩
  obtain ⟨l, hl, hright⟩ := hclaim _ _ ⟨rfl, rfl, rfl, rfl⟩ hrun _ List.mem_cons_self
  obtain rfl := hl.unique ((lists_of_initial ⟨rfl, rfl, rfl, rfl⟩).added rfl)
  exact absurd hright.count (by decide)

end Gpy211Gennl
