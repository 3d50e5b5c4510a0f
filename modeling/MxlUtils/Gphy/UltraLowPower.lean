import MxlUtils.Gphy.Chip
import MxlUtils.Gphy.Msec.PacketNumber

/- The ultra-low-power mode of the four PHYs of a package. Each has its own
   PHY_CTL2; the master slice, the wake bits and the status are shared.
   `gpy2xx_ulp_cfg` refuses the master slice, though without an error, and then
   hands the role of master to any slice the caller names, in ULP or not. -/
namespace Gpy2xx
open Effect Effect.Fallible Effect.Lock Bits

/-! ## Registers -/

def phyCtl2 : Nat := 0x14

/-- `TOP_STATUS`, `TOP_SLICE_IF` and `TOP_SLICE_MASTER` -/
def topStatus : Nat := 0xD28804
def topSliceIf : Nat := 0xD28808
def topSliceMaster : Nat := 0xD28818

/-- `phy->phy_addr & 0x3` -/
def Gpy211Device.slice (phy : Gpy211Device) : Nat := (phy.phyAddr % 4).toNat

/-- `struct gpy211_ulp_ctrl` -/
structure UlpCtrl where
  ulpEn : BitVec 8
  ulpExit : BitVec 8
  ulpStatus : BitVec 8
  ulpStaBlock : BitVec 8
  masterSlice : BitVec 32

/-! ## The calls -/

def ulpWord (ulp : UlpCtrl) (ctl : BitVec 16) : BitVec 16 :=
  replaceFields ctl [(⟨0x8, 3⟩, ulp.ulpEn.setWidth 16), (⟨0x10, 4⟩, ulp.ulpStaBlock.setWidth 16)]

def wakeSlice (phy : Gpy211Device) : Api Unit := do
  let topSlice ← phyMboxHwrd topSliceIf
  phyMboxHwwr topSliceIf (topSlice ||| 1 <<< (phy.slice + 2))

/-- From the check of the master slice on. -/
def setUlp (phy : Gpy211Device) (ulp : UlpCtrl) : Api Unit := do
  let ctl ← phyRead phyCtl2
  phyWrite phyCtl2 (ulpWord ulp ctl)
  phyMboxHwwr topSliceMaster (ulp.masterSlice.setWidth 16)
  if ulp.ulpExit = 1 then wakeSlice phy else pure ()

def ulpRejects (ulp : UlpCtrl) : Prop := ulp.ulpEn > 1 ∨ ulp.ulpStaBlock > 1

instance (ulp : UlpCtrl) : Decidable (ulpRejects ulp) := inferInstanceAs (Decidable (_ ∨ _))

def gpy2xxUlpCfg (phy : Gpy211Device) (ulp : UlpCtrl) : Call Unit :=
  if ulpRejects ulp then throw EINVAL
  else locked do
    let mstrSlice ← phyMboxHwrd topSliceMaster
    -- the label, with the non-negative result of the read
    if phy.slice = mstrSlice.toNat then pure () else setUlp phy ulp

/-- `(_top_status >> ((phy->phy_addr & 0x3) + 4)) && 1`, with a logical and. -/
def ulpStatusOf (phy : Gpy211Device) (status : BitVec 16) : BitVec 8 :=
  if status >>> (phy.slice + 4) ≠ 0 then 1 else 0

/-- `ulp_exit` is left as it was. -/
def gpy2xxUlpGet (phy : Gpy211Device) (ulp : UlpCtrl) : Call UlpCtrl :=
  locked do
    let ctl ← phyRead phyCtl2
    let mstrSlice ← phyMboxHwrd topSliceMaster
    let status ← phyMboxHwrd topStatus
    pure { ulp with
      ulpEn := (Field.get ⟨0x8, 3⟩ ctl).setWidth 8
      ulpStaBlock := (Field.get ⟨0x10, 4⟩ ctl).setWidth 8
      masterSlice := (mstrSlice &&& 0x3).setWidth 32
      ulpStatus := ulpStatusOf phy status }

/-! ## A package -/

/-- Four PHYs, each with the slice of its number. -/
structure Package where
  dev : Fin 4 → Gpy211Device
  slice_dev : ∀ k, (dev k).slice = k.val

/-- The registers of a package: what the PHYs share, and the PHY registers of each. -/
structure PackageRegs where
  shared : Regs
  own : Fin 4 → Nat → BitVec 16

namespace PackageRegs

/-- The registers as PHY `k` sees them. -/
def view (p : PackageRegs) (k : Fin 4) : Regs := { p.shared with phy := p.own k }

/-- The registers after PHY `k` has left `s`. -/
def put (p : PackageRegs) (k : Fin 4) (s : Regs) : PackageRegs :=
  ⟨{ s with phy := p.shared.phy }, Function.update p.own k s.phy⟩

theorem put_view (p : PackageRegs) (k : Fin 4) : p.put k (p.view k) = p := by
  rw [put, view]
  simp

/-- `TOP_SLICE_MASTER` -/
def master (p : PackageRegs) : Nat := (p.shared.mbox.load16 topSliceMaster).toNat

/-- The ULP bit of a slice. -/
def ulp (p : PackageRegs) (k : Fin 4) : Bool := (p.own k phyCtl2).getLsbD 3

/-- The slice that is named as master is not in ULP. -/
def MasterAwake (p : PackageRegs) : Prop := ∀ k : Fin 4, p.master = k.val → p.ulp k = false

end PackageRegs

/-- A call of `gpy2xx_ulp_cfg` on PHY `k`. -/
def Package.ulpCfg (pkg : Package) (k : Fin 4) (ulp : UlpCtrl) (p : PackageRegs) :
    Except Errno Unit × PackageRegs :=
  (((gpy2xxUlpCfg (pkg.dev k) ulp).exec lockedMem (p.view k)).1,
    p.put k ((gpy2xxUlpCfg (pkg.dev k) ulp).exec lockedMem (p.view k)).2)

/-! ## What one call does -/

section Step
variable {pkg : Package} {k : Fin 4} {ulp : UlpCtrl} {p : PackageRegs}

/-- The registers after `setUlp`. -/
def afterSetUlp (phy : Gpy211Device) (ulp : UlpCtrl) (s : Regs) : Regs :=
  let mbox := s.mbox.store16 topSliceMaster (ulp.masterSlice.setWidth 16)
  { s with
    phy := Function.update s.phy phyCtl2 (ulpWord ulp (s.phy phyCtl2))
    mbox := if ulp.ulpExit = 1 then
        mbox.store16 topSliceIf (mbox.load16 topSliceIf ||| 1 <<< (phy.slice + 2))
      else mbox }

theorem exec_setUlp (phy : Gpy211Device) (s : Regs) :
    (setUlp phy ulp).exec memHandler s = (.ok (), afterSetUlp phy ulp s) := by
  by_cases hexit : ulp.ulpExit = 1
  · simp [setUlp, exec_bind, hexit, wakeSlice, afterSetUlp]
  · have hstay : ¬ulp.ulpExit = 1#8 := hexit
    simp [setUlp, exec_bind, hstay, afterSetUlp]

theorem exec_gpy2xxUlpCfg (phy : Gpy211Device) (s : Regs) :
    (gpy2xxUlpCfg phy ulp).exec lockedMem s =
      if ulpRejects ulp then (.error EINVAL, s)
      else if phy.slice = (s.mbox.load16 topSliceMaster).toNat then (.ok (), s)
      else (.ok (), afterSetUlp phy ulp s) := by
  by_cases hrej : ulpRejects ulp
  · rw [gpy2xxUlpCfg, if_pos hrej, if_pos hrej]
    rfl
  · rw [gpy2xxUlpCfg, if_neg hrej, if_neg hrej, exec_locked, exec_bind_ok (exec_phyMboxHwrd _ _),
      exec_ite, exec_setUlp]
    rfl

/-- The master named last is the one that is named. -/
theorem load16_afterSetUlp (phy : Gpy211Device) (s : Regs) :
    (afterSetUlp phy ulp s).mbox.load16 topSliceMaster = ulp.masterSlice.setWidth 16 := by
  rw [afterSetUlp]
  by_cases hexit : ulp.ulpExit = 1
  · simp only [hexit, if_true]
    rw [Mem.load16_store16_of_disjoint (by decide), Mem.load16_store16_same]
  · simp only [hexit, if_false]
    exact Mem.load16_store16_same _

/-- A call that takes effect: its parameters are valid and the slice is not the master. -/
def TakesEffect (k : Fin 4) (ulp : UlpCtrl) (p : PackageRegs) : Prop :=
  ¬ulpRejects ulp ∧ p.master ≠ k.val

theorem ulpCfg_of_not_takesEffect (h : ¬TakesEffect k ulp p) :
    pkg.ulpCfg k ulp p = (if ulpRejects ulp then .error EINVAL else .ok (), p) := by
  rw [Package.ulpCfg, exec_gpy2xxUlpCfg]
  by_cases hrej : ulpRejects ulp
  · simp only [hrej, if_true]
    rw [PackageRegs.put_view]
  · have hmaster : (pkg.dev k).slice = ((p.view k).mbox.load16 topSliceMaster).toNat := by
      rw [pkg.slice_dev]
      by_contra hne
      exact h ⟨hrej, fun heq => hne heq.symm⟩
    simp only [hrej, if_false, if_pos hmaster]
    rw [PackageRegs.put_view]

theorem ulpCfg_of_takesEffect (h : TakesEffect k ulp p) :
    pkg.ulpCfg k ulp p = (.ok (), p.put k (afterSetUlp (pkg.dev k) ulp (p.view k))) := by
  have hmaster : ¬(pkg.dev k).slice = ((p.view k).mbox.load16 topSliceMaster).toNat := by
    rw [pkg.slice_dev]
    exact fun heq => h.2 heq.symm
  rw [Package.ulpCfg, exec_gpy2xxUlpCfg, if_neg h.1, if_neg hmaster]

/-- The slice a call names as master. -/
def UlpCtrl.newMaster (ulp : UlpCtrl) : Nat := (ulp.masterSlice.setWidth 16).toNat

/-- A call that names no slice in ULP as master: neither the one it puts there nor another. -/
def Careful (k : Fin 4) (ulp : UlpCtrl) (p : PackageRegs) : Prop :=
  TakesEffect k ulp p → ∀ j : Fin 4, ulp.newMaster = j.val →
    if j = k then ulp.ulpEn = 0 else p.ulp j = false

/-- The ULP bit of the slice itself, for a flag that is 0 or 1. -/
theorem ulp_ulpWord (hen : ulp.ulpEn ≤ 1) (ctl : BitVec 16) :
    (ulpWord ulp ctl).getLsbD 3 = false ↔ ulp.ulpEn = 0 := by
  have hbit : (ulpWord ulp ctl).getLsbD 3 = (ulp.ulpEn.setWidth 16).getLsbD 0 :=
    @getLsbD_replaceFields_cons _ ⟨0x8, 3⟩ _ _ _ (by decide) (by simp)
  have hcases : ulp.ulpEn = 0 ∨ ulp.ulpEn = 1 := by
    have hle : ulp.ulpEn.toNat ≤ 1 := hen
    rcases Nat.le_one_iff_eq_zero_or_eq_one.mp hle with h | h
    · exact .inl (BitVec.eq_of_toNat_eq h)
    · exact .inr (BitVec.eq_of_toNat_eq h)
  rw [hbit]
  rcases hcases with h | h <;> simp [h]

/-- From a state whose master is awake, the careful calls are those that leave the master awake. -/
theorem masterAwake_ulpCfg_iff (h : p.MasterAwake) :
    (pkg.ulpCfg k ulp p).2.MasterAwake ↔ Careful k ulp p := by
  by_cases heffect : TakesEffect k ulp p
  · have hen : ulp.ulpEn ≤ 1 := by
      have hrej := heffect.1
      rw [ulpRejects, not_or] at hrej
      exact BitVec.not_lt.mp hrej.1
    have hmaster : (p.put k (afterSetUlp (pkg.dev k) ulp (p.view k))).master = ulp.newMaster :=
      congrArg BitVec.toNat (load16_afterSetUlp _ _)
    have hulp : ∀ j, (p.put k (afterSetUlp (pkg.dev k) ulp (p.view k))).ulp j = false ↔
        if j = k then ulp.ulpEn = 0 else p.ulp j = false := by
      intro j
      by_cases hj : j = k
      · subst hj
        rw [if_pos rfl, ← ulp_ulpWord hen (p.own j phyCtl2)]
        simp [PackageRegs.ulp, PackageRegs.put, afterSetUlp, PackageRegs.view]
      · rw [if_neg hj]
        simp [PackageRegs.ulp, PackageRegs.put, hj]
    rw [ulpCfg_of_takesEffect heffect, PackageRegs.MasterAwake, hmaster]
    simp only [hulp]
    exact ⟨fun hawake _ => hawake, fun hcareful => hcareful heffect⟩
  · rw [ulpCfg_of_not_takesEffect heffect]
    exact ⟨fun _ hd => absurd hd heffect, fun _ => h⟩

end Step

/-! ## Runs of calls -/

section Runs
variable {pkg : Package} {p : PackageRegs}

/-- The master is awake in every state that a sequence of calls reaches. -/
def AwakeThroughout (pkg : Package) : List (Fin 4 × UlpCtrl) → PackageRegs → Prop
  | [], p => p.MasterAwake
  | (k, ulp) :: calls, p => p.MasterAwake ∧ AwakeThroughout pkg calls (pkg.ulpCfg k ulp p).2

/-- Every call of the sequence is careful in the state it finds. -/
def CarefulThroughout (pkg : Package) : List (Fin 4 × UlpCtrl) → PackageRegs → Prop
  | [], _ => True
  | (k, ulp) :: calls, p => Careful k ulp p ∧ CarefulThroughout pkg calls (pkg.ulpCfg k ulp p).2

theorem awakeThroughout_iff {calls : List (Fin 4 × UlpCtrl)} (h : p.MasterAwake) :
    AwakeThroughout pkg calls p ↔ CarefulThroughout pkg calls p := by
  induction calls generalizing p with
  | nil => exact ⟨fun _ => trivial, fun _ => h⟩
  | cons call calls ih =>
    obtain ⟨k, ulp⟩ := call
    constructor
    · intro hawake
      have hnext : (pkg.ulpCfg k ulp p).2.MasterAwake := by
        cases calls with
        | nil => exact hawake.2
        | cons _ _ => exact hawake.2.1
      exact ⟨(masterAwake_ulpCfg_iff h).mp hnext, (ih hnext).mp hawake.2⟩
    · intro hcareful
      exact ⟨h, (ih ((masterAwake_ulpCfg_iff h).mpr hcareful.1)).mpr hcareful.2⟩

/-! ## Refusing the master, and the status -/

/-- A call to put a slice in ULP that is the master, or is to be. -/
def SleepsMaster (k : Fin 4) (ulp : UlpCtrl) (p : PackageRegs) : Prop :=
  ulp.ulpEn = 1 ∧ (p.master = k.val ∨ ulp.newMaster = k.val)

/-- Such a call is refused for its other parameter only. -/
theorem ulpCfg_refused_iff {k : Fin 4} {ulp : UlpCtrl} (h : SleepsMaster k ulp p) :
    ((∃ e, (pkg.ulpCfg k ulp p).1 = .error e) ∧ (pkg.ulpCfg k ulp p).2 = p) ↔ ulp.ulpStaBlock > 1 := by
  constructor
  · intro hrefused
    obtain ⟨⟨e, herror⟩, -⟩ := hrefused
    by_contra hblock
    have hrej : ¬ulpRejects ulp := by
      rw [ulpRejects, h.1]
      exact fun hrej => hrej.elim (by decide) hblock
    by_cases heffect : TakesEffect k ulp p
    · rw [ulpCfg_of_takesEffect heffect] at herror
      cases herror
    · rw [ulpCfg_of_not_takesEffect heffect, if_neg hrej] at herror
      cases herror
  · intro hblock
    rw [ulpCfg_of_not_takesEffect fun heffect => heffect.1 (.inr hblock), if_pos (.inr hblock)]
    exact ⟨⟨EINVAL, rfl⟩, rfl⟩

/-- `ulp_get` on PHY `k`. -/
def Package.ulpGet (pkg : Package) (k : Fin 4) (ulp : UlpCtrl) (p : PackageRegs) :
    Except Errno UlpCtrl := ((gpy2xxUlpGet (pkg.dev k) ulp).exec lockedMem (p.view k)).1

/-- A slice's own bit of `TOP_STATUS`. -/
def PackageRegs.inLowPower (p : PackageRegs) (k : Fin 4) : Bool :=
  (p.shared.mbox.load16 topStatus).getLsbD (k + 4)

/-- A word shifted down to a bit that is 0 is 0 if and only if it is past the bit. -/
theorem ushiftRight_eq_zero_iff {v : BitVec 16} {i : Nat} (hbit : v.getLsbD i = false) :
    v >>> i = 0 ↔ v >>> (i + 1) = 0 := by
  constructor
  · intro h
    rw [BitVec.shiftRight_add, h]
    exact BitVec.zero_ushiftRight
  · intro h
    apply BitVec.eq_of_getLsbD_eq
    intro j _
    cases j with
    | zero => simpa using hbit
    | succ j =>
      have hj := congrArg (·.getLsbD j) h
      simpa [Nat.add_assoc, Nat.add_comm 1] using hj

/-- The status is that of the slice where its bit is set, or no bit above it is. -/
theorem ulpGet_status_iff {k : Fin 4} {ulp : UlpCtrl} :
    (∃ shown, pkg.ulpGet k ulp p = .ok shown ∧
      shown.ulpStatus = if p.inLowPower k then 1 else 0) ↔
      p.inLowPower k = true ∨ p.shared.mbox.load16 topStatus >>> (k.val + 5) = 0 := by
  have hget : ∃ shown, pkg.ulpGet k ulp p = .ok shown ∧ shown.ulpStatus =
      if p.shared.mbox.load16 topStatus >>> (k.val + 4) ≠ 0 then 1 else 0 := by
    refine ⟨_, rfl, ?_⟩
    show ulpStatusOf (pkg.dev k) _ = _
    rw [ulpStatusOf, pkg.slice_dev]
    rfl
  obtain ⟨shown, hshown, hstatus⟩ := hget
  have hiff : (∃ shown, pkg.ulpGet k ulp p = .ok shown ∧
      shown.ulpStatus = if p.inLowPower k then 1 else 0) ↔
      shown.ulpStatus = if p.inLowPower k then 1 else 0 := by
    rw [hshown]
    simp
  rw [hiff, hstatus]
  cases hbit : p.inLowPower k with
  | true =>
    have hne : p.shared.mbox.load16 topStatus >>> (k.val + 4) ≠ 0 := by
      intro hzero
      have hlow := congrArg (·.getLsbD 0) hzero
      simp [PackageRegs.inLowPower] at hbit hlow
      rw [hbit] at hlow
      cases hlow
    simp only [ne_eq, hne, not_false_eq_true, if_true, true_or]
  | false =>
    have hzero := ushiftRight_eq_zero_iff hbit
    simp only [ne_eq, Bool.false_eq_true, if_false, false_or, ← hzero]
    by_cases h : p.shared.mbox.load16 topStatus >>> (k.val + 4) = 0 <;> simp [h]

/-- **The master slice and ULP.** A sequence of calls never leaves the master in ULP if and only if
each of its calls that takes effect names a slice as master that is not in ULP then. A call that
would put the master in ULP is refused, and changes nothing, only where its other flag is invalid.
And the status of a slice is that of its own bit where that is set or no bit above it is. -/
theorem master_awake_iff (pkg : Package) (p : PackageRegs) :
    (p.MasterAwake → ∀ calls, AwakeThroughout pkg calls p ↔ CarefulThroughout pkg calls p) ∧
    (∀ k ulp, SleepsMaster k ulp p →
      (((∃ e, (pkg.ulpCfg k ulp p).1 = .error e) ∧ (pkg.ulpCfg k ulp p).2 = p) ↔
        ulp.ulpStaBlock > 1)) ∧
    ∀ k ulp, (∃ shown, pkg.ulpGet k ulp p = .ok shown ∧
        shown.ulpStatus = if p.inLowPower k then 1 else 0) ↔
      p.inLowPower k = true ∨ p.shared.mbox.load16 topStatus >>> (k.val + 5) = 0 :=
  ⟨fun h _ => awakeThroughout_iff h, fun _ _ h => ulpCfg_refused_iff h, fun _ _ => ulpGet_status_iff⟩

end Runs

/-- Four PHYs in a row, all awake, with slice 0 as master. -/
def plainPackage : Package := ⟨fun k => ⟨⟨0⟩, .p34x, k.val, false, 0, 0, 0, 0⟩, by decide⟩
def awakeRegs : PackageRegs := ⟨zeroRegs true, fun _ _ => 0⟩

/-- No sequence of calls puts the master in ULP. -/
def NeverSleepsMaster (pkg : Package) : Prop :=
  ∀ (p : PackageRegs) (calls : List (Fin 4 × UlpCtrl)), p.MasterAwake → AwakeThroughout pkg calls p

theorem masterAwake_awakeRegs : awakeRegs.MasterAwake := by
  intro k _
  show (0 : BitVec 16).getLsbD 3 = false
  rfl

/-- Slice 1 to ULP, with slice 0 as master still. -/
theorem awakeThroughout_sleepSlice1 :
    AwakeThroughout plainPackage [(1, ⟨1, 0, 0, 0, 0⟩)] awakeRegs := by
  refine ((master_awake_iff plainPackage awakeRegs).1 masterAwake_awakeRegs _).mpr ⟨?_, trivial⟩
  intro _ j hj
  have hzero : j = 0 := Fin.ext hj.symm
  subst hzero
  exact rfl

/-- Slice 1 to ULP and to be the master. -/
theorem not_neverSleepsMaster : ¬NeverSleepsMaster plainPackage := by
  intro h
  have hawake := h awakeRegs [(1, ⟨1, 0, 0, 0, 1⟩)] masterAwake_awakeRegs
  exact absurd (hawake.2 1 rfl) (by decide)

end Gpy2xx
