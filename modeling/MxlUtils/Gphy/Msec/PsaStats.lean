import MxlUtils.Gphy.Msec.EngineConfig

/- The per-SA statistics summary. A request names one rule or asks for all of them.
   Both forms go through one loop: for one rule it ends after its first round, where the
   slot is still the first. -/
namespace Gpy2xx
open Effect Effect.Lock Bits

/-! ## The calls -/

/-- `enum psa_input` -/
inductive PsaInput where
  | summGetAll
  | summGetGiven
  | other (v : BitVec 32)
deriving DecidableEq, Repr

/-- `struct psa_summary` -/
structure PsaSummary where
  ruleIndex : BitVec 8
  psaType : PsaInput
  countSummPsa : Words 32

/-- `COUNT_SUMMARY_SAx` of a rule. -/
def countSummarySa (dir : MsecDir) (rule : Nat) : Nat := statControlBase dir + (rule * 4 + 0x100)

/-- The register that a round of the loop is about. -/
def PsaSummary.target (dir : MsecDir) (psaSum : PsaSummary) (i : Nat) : Nat :=
  countSummarySa dir (if psaSum.psaType = .summGetGiven then psaSum.ruleIndex.toNat else i)

/-- `count_summ_psa[i] = data` -/
def PsaSummary.put (psaSum : PsaSummary) (i : Nat) (data : BitVec 32) : PsaSummary :=
  { psaSum with countSummPsa := fun j => if j.val = i then data else psaSum.countSummPsa j }

/-- The rounds of the loop: up to `nr_of_sas`, and to `MACSEC_MAX_SA_RULES`. -/
def psaRounds (phy : MsecDevice) : Nat := min phy.nrOfSas.toNat 32

def readPsaSumm (dir : MsecDir) : (n i : Nat) → PsaSummary → Api PsaSummary
  | 0, _, psaSum => pure psaSum
  | n + 1, i, psaSum => do
    let data ← phyMboxRead (psaSum.target dir i)
    let psaSum := psaSum.put i data
    if psaSum.psaType = .summGetGiven then pure psaSum else readPsaSumm dir n (i + 1) psaSum

def writePsaSumm (dir : MsecDir) (psaSum : PsaSummary) : (n i : Nat) → Api Unit
  | 0, _ => pure ()
  | n + 1, i => do
    phyMboxWrite (psaSum.target dir i) (if h : i < 32 then psaSum.countSummPsa ⟨i, h⟩ else 0)
    if psaSum.psaType = .summGetGiven then pure () else writePsaSumm dir psaSum n (i + 1)

/-- `gpy2xx_msec_get_*_psa_stats_summ`; `none` if the program is stopped at a null pointer, with the
lock taken. -/
def getPsaStatsSumm (dir : MsecDir) (phy : MsecDevice) : Option PsaSummary → Option (Call (Option PsaSummary))
  | some psaSum => some (locked (some <$> readPsaSumm dir (psaRounds phy) 0 psaSum))
  | none => if psaRounds phy = 0 then some (locked (pure none)) else none

def gpy2xxMsecGetIngPsaStatsSumm : MsecDevice → Option PsaSummary → Option (Call (Option PsaSummary)) :=
  getPsaStatsSumm .ingress

def gpy2xxMsecGetEgrPsaStatsSumm : MsecDevice → Option PsaSummary → Option (Call (Option PsaSummary)) :=
  getPsaStatsSumm .egress

/-- `gpy2xx_msec_clear_*_psa_stats_summ` -/
def clearPsaStatsSumm (dir : MsecDir) (phy : MsecDevice) (psaSum : PsaSummary) : Call Unit :=
  locked (writePsaSumm dir psaSum (psaRounds phy) 0)

def gpy2xxMsecClearIngPsaStatsSumm : MsecDevice → PsaSummary → Call Unit := clearPsaStatsSumm .ingress

def gpy2xxMsecClearEgrPsaStatsSumm : MsecDevice → PsaSummary → Call Unit := clearPsaStatsSumm .egress

/-! ## What the two forms should have in common -/

/-- The call ends with an error, and no register has been accessed. -/
def RejectsPsa (dir : MsecDir) (phy : MsecDevice) (psaSum : Option PsaSummary) : Prop :=
  ∃ call, getPsaStatsSumm dir phy psaSum = some call ∧
    ∀ t r, call.Runs t r → accesses t = [] ∧ ∃ e, r = .error e

/-- The summary that a call leaves, where every access succeeds. -/
def psaResult (dir : MsecDir) (phy : MsecDevice) (regs : Regs) (psaSum : PsaSummary) :
    Option (Option PsaSummary) :=
  (getPsaStatsSumm dir phy (some psaSum)).bind fun call => (call.exec lockedMem regs).1.toOption

/-- A request for one rule does what the request for all does for that rule. -/
structure PsaFormsAgree (dir : MsecDir) (phy : MsecDevice) (regs : Regs) (psaSum : Option PsaSummary) : Prop where
  missing : psaSum = none → RejectsPsa dir phy psaSum
  beyond : ∀ s, psaSum = some s → s.psaType = .summGetGiven → phy.nrOfSas ≤ s.ruleIndex → RejectsPsa dir phy psaSum
  agrees : ∀ s, psaSum = some s → s.psaType = .summGetGiven → s.ruleIndex < phy.nrOfSas →
    ∃ one all, psaResult dir phy regs s = some (some one) ∧
      psaResult dir phy regs { s with psaType := .summGetAll } = some (some all) ∧
      ∀ j : Fin 32, one.countSummPsa j =
        if j.val = s.ruleIndex.toNat then all.countSummPsa j else s.countSummPsa j

/-! ## The loop -/

section Loop
variable {dir : MsecDir} {phy : MsecDevice} {regs : Regs} {s : PsaSummary} {n i : Nat}

theorem psaType_put (s : PsaSummary) (i : Nat) (data : BitVec 32) : (s.put i data).psaType = s.psaType := rfl

theorem exec_readPsaSumm_given (hgiven : s.psaType = .summGetGiven) :
    (readPsaSumm dir (n + 1) i s).exec memHandler regs =
      (.ok (s.put i (regs.mbox.load32 (countSummarySa dir s.ruleIndex.toNat))), regs) := by
  rw [readPsaSumm, Fallible.exec_bind_ok (exec_phyMboxRead regs _), PsaSummary.target, if_pos hgiven]
  simp only [psaType_put, hgiven, if_true, Fallible.exec_pure]

/-- A request for all rules fills a stretch of the slots. -/
theorem exec_readPsaSumm_all (hall : s.psaType = .summGetAll) :
    (readPsaSumm dir n i s).exec memHandler regs =
      (.ok { s with countSummPsa := fun j =>
        if i ≤ j.val ∧ j.val < i + n then regs.mbox.load32 (countSummarySa dir j.val) else s.countSummPsa j }, regs) := by
  induction n generalizing i s with
  | zero =>
    have hkeep : (fun j : Fin 32 => if i ≤ j.val ∧ j.val < i + 0 then regs.mbox.load32 (countSummarySa dir j.val)
        else s.countSummPsa j) = s.countSummPsa := by
      funext j
      exact if_neg (by omega)
    rw [readPsaSumm, hkeep]
    rfl
  | succ n ih =>
    have hnot : ¬s.psaType = .summGetGiven := by simp [hall]
    rw [readPsaSumm, Fallible.exec_bind_ok (exec_phyMboxRead regs _), PsaSummary.target, if_neg hnot]
    simp only [psaType_put, hnot, if_false]
    have hrest : (s.put i (regs.mbox.load32 (countSummarySa dir i))).psaType = .summGetAll := hall
    rw [ih hrest]
    refine Prod.ext (congrArg Except.ok ?_) rfl
    simp only [PsaSummary.put, PsaSummary.mk.injEq, true_and]
    funext j
    -- the slot of this round, the later ones, and those outside
    by_cases hthis : j.val = i
    · rw [if_neg (by omega), if_pos hthis, if_pos (by omega), hthis]
    · by_cases hlater : i + 1 ≤ j.val ∧ j.val < i + 1 + n
      · rw [if_pos hlater, if_pos (by omega)]
      · rw [if_neg hlater, if_neg hthis, if_neg (by omega)]

theorem psaResult_eq {s' : PsaSummary} (h : (readPsaSumm dir (psaRounds phy) 0 s).exec memHandler regs = (.ok s', regs)) :
    psaResult dir phy regs s = some (some s') := by
  have hsome : (some <$> readPsaSumm dir (psaRounds phy) 0 s).exec memHandler regs = (.ok (some s'), regs) :=
    Fallible.exec_bind_ok h
  rw [psaResult, getPsaStatsSumm, Option.bind_some, exec_locked, hsome]
  rfl

theorem psaResult_given (hgiven : s.psaType = .summGetGiven) (hsome : phy.nrOfSas.toNat ≠ 0) :
    psaResult dir phy regs s = some (some (s.put 0 (regs.mbox.load32 (countSummarySa dir s.ruleIndex.toNat)))) := by
  obtain ⟨n, hn⟩ : ∃ n, psaRounds phy = n + 1 := Nat.exists_eq_succ_of_ne_zero (by rw [psaRounds]; omega)
  apply psaResult_eq
  rw [hn]
  exact exec_readPsaSumm_given hgiven

/-- What a request for all rules leaves. -/
def PsaSummary.filled (dir : MsecDir) (phy : MsecDevice) (regs : Regs) (s : PsaSummary) : PsaSummary :=
  { s with countSummPsa := fun j =>
    if j.val < (psaRounds phy) then regs.mbox.load32 (countSummarySa dir j.val) else s.countSummPsa j }

/-- A slot below the number of SAs holds what its register does. -/
theorem filled_slot {j : Fin 32} (hj : j.val < phy.nrOfSas.toNat) :
    (s.filled dir phy regs).countSummPsa j = regs.mbox.load32 (countSummarySa dir j.val) := by
  have hj32 := j.isLt
  exact if_pos (show j.val < psaRounds phy by rw [psaRounds]; omega)

theorem psaResult_all (hall : s.psaType = .summGetAll) :
    psaResult dir phy regs s = some (some (s.filled dir phy regs)) := by
  have hread := @exec_readPsaSumm_all dir regs s (psaRounds phy) 0 hall
  simp only [Nat.zero_le, true_and, Nat.zero_add] at hread
  exact psaResult_eq hread

end Loop

/-! ## Rejections -/

section Rejections
variable {dir : MsecDir} {phy : MsecDevice} {s : PsaSummary}

/-- Nothing is checked: a call that is made can succeed. -/
theorem exists_psa_ok {call : Call (Option PsaSummary)} {psaSum : Option PsaSummary}
    (h : getPsaStatsSumm dir phy psaSum = some call) (hsumm : ∀ s, psaSum = some s → s.psaType = .summGetGiven) :
    ∃ t x, call.Runs t (.ok x) := by
  cases psaSum with
  | none =>
    rw [getPsaStatsSumm] at h
    split at h
    · cases h
      obtain ⟨t, hrun, -⟩ := runs_locked_of_body (Fallible.runs_pure.mpr ⟨rfl, rfl⟩ :
        (pure none : Api (Option PsaSummary)).Runs [] (.ok none))
      exact ⟨t, _, hrun⟩
    · cases h
  | some s =>
    cases h
    have hexec : ∃ s', (readPsaSumm dir (psaRounds phy) 0 s).exec memHandler (zeroRegs true) = (.ok s', zeroRegs true) := by
      cases psaRounds phy with
      | zero => exact ⟨s, rfl⟩
      | succ n => exact ⟨_, exec_readPsaSumm_given (hsumm s rfl)⟩
    obtain ⟨s', hs'⟩ := hexec
    have hsome : (some <$> readPsaSumm dir (psaRounds phy) 0 s).exec memHandler (zeroRegs true) = (.ok (some s'), zeroRegs true) :=
      Fallible.exec_bind_ok hs'
    obtain ⟨t, hrun, -⟩ := (Fallible.exec_eq_iff).mp hsome
    obtain ⟨t', hlocked, -⟩ := runs_locked_of_body hrun
    exact ⟨t', _, hlocked⟩

theorem not_rejectsPsa {psaSum : Option PsaSummary} (hsumm : ∀ s, psaSum = some s → s.psaType = .summGetGiven) :
    ¬RejectsPsa dir phy psaSum := by
  rintro ⟨call, hcall, hruns⟩
  obtain ⟨t, x, hrun⟩ := exists_psa_ok hcall hsumm
  obtain ⟨-, e, he⟩ := hruns t _ hrun
  cases he

end Rejections

/-- The inputs for which the slot that is filled is the right one, or happens to hold the right word. -/
def PsaSlotRight (dir : MsecDir) (phy : MsecDevice) (regs : Regs) (s : PsaSummary) : Prop :=
  s.psaType = .summGetGiven → s.ruleIndex < phy.nrOfSas ∧
    (s.ruleIndex = 0 ∨
      s.countSummPsa 0 = regs.mbox.load32 (countSummarySa dir s.ruleIndex.toNat) ∧
      ∀ j : Fin 32, j.val = s.ruleIndex.toNat →
        s.countSummPsa j = regs.mbox.load32 (countSummarySa dir s.ruleIndex.toNat))

/-- What the form for one rule leaves against what it should, where the rule exists. -/
theorem given_agrees_iff {dir : MsecDir} {phy : MsecDevice} {regs : Regs} {s : PsaSummary}
    (hgiven : s.psaType = .summGetGiven) (hlt : s.ruleIndex < phy.nrOfSas) :
    (∃ one all, psaResult dir phy regs s = some (some one) ∧
      psaResult dir phy regs { s with psaType := .summGetAll } = some (some all) ∧
      ∀ j : Fin 32, one.countSummPsa j =
        if j.val = s.ruleIndex.toNat then all.countSummPsa j else s.countSummPsa j) ↔
    ∀ j : Fin 32, (if j.val = 0 then regs.mbox.load32 (countSummarySa dir s.ruleIndex.toNat) else s.countSummPsa j) =
      if j.val = s.ruleIndex.toNat then regs.mbox.load32 (countSummarySa dir s.ruleIndex.toNat) else s.countSummPsa j := by
  rw [BitVec.lt_def] at hlt
  have hone := @psaResult_given dir phy regs s hgiven (by omega)
  have hall := @psaResult_all dir phy regs { s with psaType := .summGetAll } rfl
  have hslot : ∀ j : Fin 32, j.val = s.ruleIndex.toNat →
      (PsaSummary.filled dir phy regs { s with psaType := .summGetAll }).countSummPsa j =
        regs.mbox.load32 (countSummarySa dir s.ruleIndex.toNat) := fun j hj => by
    rw [filled_slot (by omega), hj]
  constructor
  · intro h j
    obtain ⟨one, all, hone', hall', hsame⟩ := h
    cases hone.symm.trans hone'
    cases hall.symm.trans hall'
    have hj := hsame j
    by_cases heq : j.val = s.ruleIndex.toNat
    · rw [if_pos heq, hslot j heq] at hj
      rw [if_pos heq]
      exact hj
    · rw [if_neg heq] at hj ⊢
      exact hj
  · intro hsame
    refine ⟨_, _, hone, hall, fun j => ?_⟩
    have hj := hsame j
    by_cases heq : j.val = s.ruleIndex.toNat
    · rw [if_pos heq] at hj ⊢
      rw [hslot j heq]
      exact hj
    · rw [if_neg heq] at hj ⊢
      exact hj

theorem slots_iff {a : BitVec 32} {f : Words 32} {k : Nat} :
    (∀ j : Fin 32, (if j.val = 0 then a else f j) = if j.val = k then a else f j) ↔
      k = 0 ∨ f 0 = a ∧ ∀ j : Fin 32, j.val = k → f j = a := by
  constructor
  · intro h
    by_cases hk : k = 0
    · exact .inl hk
    · have hfirst := h 0
      have hval : (0 : Fin 32).val = 0 := rfl
      rw [hval, if_pos rfl, if_neg (fun hzero => hk hzero.symm)] at hfirst
      refine .inr ⟨hfirst.symm, fun j hj => ?_⟩
      have hthis := h j
      rwa [if_neg (by omega), if_pos hj] at hthis
  · rintro (rfl | ⟨hfirst, hthis⟩) j
    · rfl
    · by_cases hzero : j.val = 0
      · have hj : j = 0 := Fin.ext hzero
        rw [if_pos hzero, hj, hfirst, ite_self]
      · rw [if_neg hzero]
        by_cases hk : j.val = k
        · rw [if_pos hk, hthis j hk]
        · rw [if_neg hk]

/-- The two forms agree for the first rule, and where the summary held what they read. -/
theorem psaFormsAgree_iff (dir : MsecDir) (phy : MsecDevice) (regs : Regs) (psaSum : Option PsaSummary) :
    PsaFormsAgree dir phy regs psaSum ↔ ∃ s, psaSum = some s ∧ PsaSlotRight dir phy regs s := by
  have hzero : ∀ s : PsaSummary, s.ruleIndex.toNat = 0 ↔ s.ruleIndex = 0 := fun s =>
    ⟨fun h => BitVec.eq_of_toNat_eq h, fun h => congrArg BitVec.toNat h⟩
  constructor
  · intro h
    cases psaSum with
    | none => exact absurd (h.missing rfl) (not_rejectsPsa fun s hs => by cases hs)
    | some s =>
      refine ⟨s, rfl, fun hgiven => ?_⟩
      have hlt : s.ruleIndex < phy.nrOfSas := by
        by_contra hge
        refine not_rejectsPsa (fun s' hs' => ?_) (h.beyond s rfl hgiven (BitVec.not_lt.mp hge))
        cases hs'
        exact hgiven
      have hslots := (slots_iff).mp ((given_agrees_iff hgiven hlt).mp (h.agrees s rfl hgiven hlt))
      rw [hzero] at hslots
      exact ⟨hlt, hslots⟩
  · rintro ⟨s, rfl, hright⟩
    refine ⟨fun hnone => absurd hnone (Option.some_ne_none s), fun s' hs' hgiven hge => ?_, fun s' hs' hgiven hlt => ?_⟩
    · cases hs'
      exact absurd (hright hgiven).1 (BitVec.not_lt.mpr hge)
    · cases hs'
      have hslots := (hright hgiven).2
      rw [← hzero] at hslots
      exact (given_agrees_iff hgiven hlt).mpr (slots_iff.mpr hslots)

/-- Rule 1 of an engine of 32, whose flags are clear in the summary and set in the register. -/
theorem psa_first_slot_filled : ¬∀ (dir : MsecDir) (phy : MsecDevice) (regs : Regs) (psaSum : Option PsaSummary),
    PsaFormsAgree dir phy regs psaSum := by
  intro h
  have hagrees := (given_agrees_iff rfl (by decide)).mp
    ((h .ingress ⟨32⟩ { zeroRegs true with mbox := fun _ => 1 } (some ⟨1, .summGetGiven, fun _ => 0⟩)).agrees _ rfl rfl (by decide))
  exact absurd (hagrees 0) (by decide +kernel)

end Gpy2xx
