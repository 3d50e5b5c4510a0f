import MxlUtils.Gphy.Ptp.Frequency
import Mathlib.Algebra.Order.Field.Rat
import Mathlib.Tactic.Linarith
import Mathlib.Tactic.NormNum

/- The nominal rate. Each cycle of the clock adds the addend to an accumulator of
   32 bits, and each overflow advances the time by the increment. `ptp_enable`
   chooses an addend that overflows once in two cycles, and an increment of one
   cycle; so the time advances at half its rate, at every clock. -/
namespace Gpy2xx
open Effect Effect.Fallible Effect.Lock

/-! ## The rate of the time -/

/-- Nanoseconds per overflow. -/
def incrementNs (ssinc snsinc : Nat) : ℚ := ssinc + snsinc / 256

/-- Overflows per second. -/
def overflowHz (ptpClock addend : Nat) : ℚ := ptpClock * (addend / 2 ^ 32)

/-- A second lasts a second, up to one step of the increment per overflow. -/
def RateLaw (ptpClock ssinc snsinc addend : Nat) : Prop :=
  |overflowHz ptpClock addend * incrementNs ssinc snsinc - 10 ^ 9| ≤ overflowHz ptpClock addend * (1 / 256)

/-- The whole nanoseconds of a cycle, and the rest in 256ths. -/
def wholeNs (ptpClock : Nat) : Nat := 1000000000 / ptpClock
def restNs (ptpClock : Nat) : Nat := (1000000000 % ptpClock * 1000 / ptpClock + 1) * 256 / 1000

/-- The law, with increments that are not cut off to their fields. -/
def NominalRate (ptpClock ssinc snsinc addend : Nat) : Prop :=
  RateLaw ptpClock ssinc snsinc addend ∧ ssinc = wholeNs ptpClock ∧ snsinc = restNs ptpClock

/-- The law as an inequality of natural numbers, in one direction. -/
theorem le_of_rateLaw {ptpClock ssinc snsinc addend : Nat}
    (h : RateLaw ptpClock ssinc snsinc addend) :
    10 ^ 9 * 2 ^ 40 ≤ ptpClock * addend * (256 * ssinc + snsinc + 1) := by
  have hlow := (abs_le.mp h).1
  rw [overflowHz, incrementNs] at hlow
  have hrat : (10 ^ 9 * 2 ^ 40 : ℚ) ≤ ptpClock * addend * (256 * ssinc + snsinc + 1) := by
    have hscaled := mul_le_mul_of_nonneg_left hlow (by norm_num : (0 : ℚ) ≤ 2 ^ 40)
    linarith
  exact_mod_cast hrat

/-! ## The increments -/

section Increments
variable {ptpClock : BitVec 32}

/-- The whole nanoseconds fit their byte for clocks above 3.90625 MHz. -/
theorem subSec_exact_iff (hclock : ptpClock ≠ 0) :
    (subSec ptpClock).toNat = wholeNs ptpClock.toNat ↔ 3906250 < ptpClock.toNat := by
  have hpos : 0 < ptpClock.toNat := Nat.pos_of_ne_zero fun h => hclock (BitVec.eq_of_toNat_eq h)
  have hfits : wholeNs ptpClock.toNat < 256 ↔ 3906250 < ptpClock.toNat := by
    rw [wholeNs, Nat.div_lt_iff_lt_mul hpos]
    omega
  rw [← hfits, subSec, BitVec.toNat_ofNat]
  show wholeNs ptpClock.toNat % 2 ^ 8 = wholeNs ptpClock.toNat ↔ _
  omega

/-- The rest wraps to 0 where it rounds to a whole nanosecond. -/
theorem subNsec_exact_iff (hclock : ptpClock ≠ 0) :
    (subNsec ptpClock).toNat = restNs ptpClock.toNat ↔
      1000000000 % ptpClock.toNat * 1000 / ptpClock.toNat ≠ 999 := by
  have hpos : 0 < ptpClock.toNat := Nat.pos_of_ne_zero fun h => hclock (BitVec.eq_of_toNat_eq h)
  have hlt : 1000000000 % ptpClock.toNat * 1000 / ptpClock.toNat < 1000 := by
    have hmod := Nat.mod_lt 1000000000 hpos
    rw [Nat.div_lt_iff_lt_mul hpos]
    omega
  rw [subNsec, restNs, BitVec.toNat_ofNat]
  omega

/-- Both together are not more than a cycle and one step. -/
theorem increment_le (hclock : ptpClock ≠ 0) :
    ptpClock.toNat * (256 * (subSec ptpClock).toNat + (subNsec ptpClock).toNat) ≤
      256 * 1000000000 + ptpClock.toNat := by
  have hpos : 0 < ptpClock.toNat := Nat.pos_of_ne_zero fun h => hclock (BitVec.eq_of_toNat_eq h)
  have hwhole : (subSec ptpClock).toNat ≤ wholeNs ptpClock.toNat := Nat.mod_le _ _
  have hrest : (subNsec ptpClock).toNat ≤ restNs ptpClock.toNat := Nat.mod_le _ _
  have hsplit : ptpClock.toNat * wholeNs ptpClock.toNat + 1000000000 % ptpClock.toNat = 1000000000 :=
    Nat.div_add_mod _ _
  have hthousandths : ptpClock.toNat * (1000000000 % ptpClock.toNat * 1000 / ptpClock.toNat) ≤
      1000000000 % ptpClock.toNat * 1000 := Nat.mul_div_le _ _
  have hstep : 1000 * restNs ptpClock.toNat ≤
      (1000000000 % ptpClock.toNat * 1000 / ptpClock.toNat + 1) * 256 := Nat.mul_div_le _ _
  have hscaled : 1000 * (ptpClock.toNat * restNs ptpClock.toNat) ≤
      256 * (1000000000 % ptpClock.toNat * 1000) + 256 * ptpClock.toNat := by
    calc 1000 * (ptpClock.toNat * restNs ptpClock.toNat)
        = ptpClock.toNat * (1000 * restNs ptpClock.toNat) := by ring
      _ ≤ ptpClock.toNat * ((1000000000 % ptpClock.toNat * 1000 / ptpClock.toNat + 1) * 256) :=
        Nat.mul_le_mul_left _ hstep
      _ = 256 * (ptpClock.toNat * (1000000000 % ptpClock.toNat * 1000 / ptpClock.toNat)) +
          256 * ptpClock.toNat := by ring
      _ ≤ _ := by omega
  calc ptpClock.toNat * (256 * (subSec ptpClock).toNat + (subNsec ptpClock).toNat)
      ≤ ptpClock.toNat * (256 * wholeNs ptpClock.toNat + restNs ptpClock.toNat) :=
        Nat.mul_le_mul_left _ (by omega)
    _ = 256 * (ptpClock.toNat * wholeNs ptpClock.toNat) + ptpClock.toNat * restNs ptpClock.toNat := by
        ring
    _ ≤ _ := by omega

/-- The addend overflows the accumulator once in two cycles at most. -/
theorem addend_le (hclock : ptpClock ≠ 0) :
    ptpClock.toNat * (defaultAddend ptpClock).toNat ≤ 2 ^ 31 * ptpClock.toNat := by
  rw [defaultAddend_toNat hclock]
  calc ptpClock.toNat * (2 ^ 32 * (ptpClock.toNat / 2) / ptpClock.toNat)
      ≤ 2 ^ 32 * (ptpClock.toNat / 2) := Nat.mul_div_le _ _
    _ ≤ 2 ^ 31 * ptpClock.toNat := by omega

/-- Half the rate is less than the law lets pass, at every clock. -/
theorem not_rateLaw (hclock : ptpClock ≠ 0) :
    ¬RateLaw ptpClock.toNat (subSec ptpClock).toNat (subNsec ptpClock).toNat
      (defaultAddend ptpClock).toNat := by
  intro h
  have hlt := ptpClock.isLt
  have hlow := le_of_rateLaw h
  have hhigh : ptpClock.toNat * (defaultAddend ptpClock).toNat *
      (256 * (subSec ptpClock).toNat + (subNsec ptpClock).toNat + 1) ≤
        2 ^ 31 * (256 * 1000000000 + 2 * ptpClock.toNat) := by
    calc ptpClock.toNat * (defaultAddend ptpClock).toNat *
          (256 * (subSec ptpClock).toNat + (subNsec ptpClock).toNat + 1)
        ≤ 2 ^ 31 * ptpClock.toNat *
          (256 * (subSec ptpClock).toNat + (subNsec ptpClock).toNat + 1) :=
          Nat.mul_le_mul_right _ (addend_le hclock)
      _ = 2 ^ 31 * (ptpClock.toNat * (256 * (subSec ptpClock).toNat + (subNsec ptpClock).toNat) +
          ptpClock.toNat) := by ring
      _ ≤ _ := Nat.mul_le_mul_left _ (by have hinc := increment_le hclock; omega)
  omega

end Increments

/-! ## What `ptp_enable` programs -/

/-- The base addresses of a device that has been initialised. -/
def KnownBases (phy : Gpy211Device) : Prop :=
  (phy.family = .p34x ∧ phy.gmacfBaseAddr = 0xA32000 ∧ phy.gmaclBaseAddr = 0xA30000 ∧
    phy.pmBaseAddr = 0xA38000) ∨
  (phy.family ≠ .p34x ∧ phy.gmacfBaseAddr = 0xD30000 ∧ phy.gmaclBaseAddr = 0xD32000 ∧
    phy.pmBaseAddr = 0xD38000)

/-- The registers of the increment and of the addend. -/
def ssincReg (phy : Gpy211Device) : Nat := smdioReg (phy.gmacfBaseAddr + subSecondIncrementH)
def snsincReg (phy : Gpy211Device) : Nat := smdioReg (phy.gmacfBaseAddr + subSecondIncrementL)
def addendLowReg (phy : Gpy211Device) : Nat := smdioReg (phy.gmacfBaseAddr + timestampAddendL)
def addendHighReg (phy : Gpy211Device) : Nat := smdioReg (phy.gmacfBaseAddr + timestampAddendH)

/-- The run has written increments and an addend with which a second lasts a second. -/
def ProgramsNominalRate (phy : Gpy211Device) (t : RegTrace) : Prop :=
  ∃ ssinc snsinc : BitVec 8, ∃ low high : BitVec 16,
    (ssincReg phy, ssinc.setWidth 16) ∈ smdioWritten t ∧
    (snsincReg phy, snsinc.setWidth 16 <<< 8) ∈ smdioWritten t ∧
    (addendLowReg phy, low) ∈ smdioWritten t ∧ (addendHighReg phy, high) ∈ smdioWritten t ∧
    NominalRate phy.ptpClock.toNat ssinc.toNat snsinc.toNat (high ++ low).toNat

/-- What a write of these registers writes. -/
def RateWrite (phy : Gpy211Device) : RegOp → Prop
  | .smdioWrite reg v => (reg = ssincReg phy → v = (subSec phy.ptpClock).setWidth 16) ∧
      (reg = snsincReg phy → v = (subNsec phy.ptpClock).setWidth 16 <<< 8) ∧
      (reg = addendLowReg phy → v = (defaultAddend phy.ptpClock).extractLsb' 0 16) ∧
      (reg = addendHighReg phy → v = (defaultAddend phy.ptpClock).extractLsb' 16 16)
  | _ => True

section Enable
variable {phy : Gpy211Device}

/-- Any other register. -/
theorem rateWrite_of_ne {addr : Nat} (v : BitVec 16)
    (h : smdioReg addr ∉ [ssincReg phy, snsincReg phy, addendLowReg phy, addendHighReg phy]) :
    (smdioWriteAt addr v).All (RateWrite phy) := by
  simp only [List.mem_cons, List.not_mem_nil, or_false, not_or] at h
  obtain ⟨hss, hsn, hlow, hhigh⟩ := h
  exact ⟨⟨fun h => absurd h hss, fun h => absurd h hsn, fun h => absurd h hlow,
    fun h => absurd h hhigh⟩, fun _ => trivial⟩

theorem all_smdioReadAt (addr : Nat) : (smdioReadAt addr).All (RateWrite phy) :=
  ⟨trivial, fun _ => trivial⟩

/-- The registers `ptp_enable` writes beside these are others. -/
theorem apart_of_knownBases (hbases : KnownBases phy) :
    ∀ addr ∈ [phy.pmBaseAddr + pmGmacCfg, phy.pmBaseAddr + pmGmaclCfg, phy.pmBaseAddr + pmTsCfg,
      phy.pmBaseAddr + pmGmacPtpCfg, phy.pmBaseAddr + pmTxOstCfg, phy.pmBaseAddr + pmTxOstCfg + 4,
      phy.pmBaseAddr + pmTxOstCfg + 8, phy.pmBaseAddr + pmTxOstCfg + 12,
      phy.gmacfBaseAddr + timestampControlL, phy.gmacfBaseAddr + timestampControlH,
      phy.gmaclBaseAddr + liteTimestampControlL phy.family],
      smdioReg addr ∉ [ssincReg phy, snsincReg phy, addendLowReg phy, addendHighReg phy] := by
  unfold ssincReg snsincReg addendLowReg addendHighReg liteTimestampControlL
  rcases hbases with ⟨hfamily, hf, hl, hpm⟩ | ⟨hfamily, hf, hl, hpm⟩
  · rw [hf, hl, hpm, if_pos hfamily]
    decide
  · rw [hf, hl, hpm, if_neg hfamily]
    decide

theorem all_smdioSetBit {addr pos : Nat}
    (h : smdioReg addr ∉ [ssincReg phy, snsincReg phy, addendLowReg phy, addendHighReg phy]) :
    (smdioSetBit addr pos).All (RateWrite phy) :=
  All.bind (all_smdioReadAt addr) fun _ => rateWrite_of_ne _ h

theorem ssincReg_ne : ssincReg phy ≠ snsincReg phy ∧ ssincReg phy ≠ addendLowReg phy ∧
    ssincReg phy ≠ addendHighReg phy :=
  ⟨(smdioReg_ne (by decide) (by decide)).symm, smdioReg_ne (by decide) (by decide),
    smdioReg_ne (by decide) (by decide)⟩

theorem snsincReg_ne : snsincReg phy ≠ addendLowReg phy ∧ snsincReg phy ≠ addendHighReg phy :=
  ⟨smdioReg_ne (by decide) (by decide), smdioReg_ne (by decide) (by decide)⟩

theorem addendLowReg_ne : addendLowReg phy ≠ addendHighReg phy :=
  smdioReg_ne (by decide) (by decide)

theorem all_ptpSetSsecinc : (ptpSetSsecinc phy).All (RateWrite phy) := by
  have hss := @ssincReg_ne phy
  have hsn := @snsincReg_ne phy
  refine All.ite (fun _ => All.throw _) fun _ => All.bind ⟨?_, fun _ => trivial⟩ fun _ =>
    ⟨?_, fun _ => trivial⟩
  · exact ⟨fun _ => rfl, fun h => absurd h hss.1, fun h => absurd h hss.2.1, fun h => absurd h hss.2.2⟩
  · exact ⟨fun h => absurd h.symm hss.1, fun _ => rfl, fun h => absurd h hsn.1, fun h => absurd h hsn.2⟩

theorem all_ptpSetAddend (hbases : KnownBases phy) :
    (ptpSetAddend phy (defaultAddend phy.ptpClock)).All (RateWrite phy) := by
  have hss := @ssincReg_ne phy
  have hsn := @snsincReg_ne phy
  have hlow := @addendLowReg_ne phy
  refine All.bind (all_smdioReadAt _) fun _ => All.ite (fun _ => All.pure _) fun _ => ?_
  refine All.bind (all_isRwDone trivial) fun _ => All.bind ⟨?_, fun _ => trivial⟩ fun _ =>
    All.bind ⟨?_, fun _ => trivial⟩ fun _ => All.bind ?_ fun _ => all_isRwDone trivial
  · exact ⟨fun h => absurd h.symm hss.2.1, fun h => absurd h.symm hsn.1, fun _ => rfl,
      fun h => absurd h hlow⟩
  · exact ⟨fun h => absurd h.symm hss.2.2, fun h => absurd h.symm hsn.2, fun h => absurd h.symm hlow,
      fun _ => rfl⟩
  · exact all_smdioSetBit (apart_of_knownBases hbases _ (by simp))

theorem all_enableTimestamps (hbases : KnownBases phy) (stack : BitVec 16) (ptpCfg : PtpCtrl) :
    (enableTimestamps phy stack ptpCfg).All (RateWrite phy) := by
  have hapart := apart_of_knownBases hbases
  have hdetect : (enablePtpDetection phy).All (RateWrite phy) := by
    refine All.bind (All.attempt (all_smdioSetBit (hapart _ (by simp)))) fun r => ?_
    refine All.bind (All.attempt (all_smdioSetBit (hapart _ (by simp)))) fun r₂ => ?_
    cases r₂ <;> cases r <;> exact trivial
  have hcorrection : (setCorrection phy ptpCfg).All (RateWrite phy) := by
    refine All.ite (fun _ => ?_) fun _ => All.pure _
    refine All.bind (rateWrite_of_ne _ (hapart _ (by simp))) fun _ => ?_
    refine All.bind (rateWrite_of_ne _ (hapart _ (by simp))) fun _ => ?_
    exact All.bind (rateWrite_of_ne _ (hapart _ (by simp))) fun _ =>
      rateWrite_of_ne _ (hapart _ (by simp))
  refine All.bind hdetect fun _ => All.bind (rateWrite_of_ne _ (hapart _ (by simp))) fun _ => ?_
  refine All.bind (rateWrite_of_ne _ (hapart _ (by simp))) fun _ => All.bind hcorrection fun _ => ?_
  refine All.bind (rateWrite_of_ne _ (hapart _ (by simp))) fun _ => ?_
  exact All.bind (rateWrite_of_ne _ (hapart _ (by simp))) fun _ => all_ptpSetSsecinc

/-- Whatever `ptp_enable` writes to these registers are the values it computes from the clock. -/
theorem accesses_gpy2xxPtpEnable (hbases : KnownBases phy) (stack : BitVec 16) (ptpCfg : PtpCtrl) :
    Accesses (RateWrite phy) (gpy2xxPtpEnable phy stack ptpCfg) := by
  have hapart := apart_of_knownBases hbases
  have hstart : (startPtp phy stack ptpCfg).All (RateWrite phy) :=
    All.bind (all_enableTimestamps hbases stack ptpCfg) fun _ => all_ptpSetAddend hbases
  refine Accesses.ite (fun _ => Accesses.throw _) fun _ => Accesses.bracket ?_
  refine Accesses.bind (Accesses.outside hstart) fun _ => Accesses.bind (Accesses.locked ?_) fun _ => ?_
  · refine All.bind (all_smdioReadAt _) fun _ => ?_
    refine All.bind (rateWrite_of_ne _ (hapart _ (by simp))) fun _ => ?_
    exact All.bind (all_smdioReadAt _) fun _ => rateWrite_of_ne _ (hapart _ (by simp))
  · have hread : ∀ addr, (phyMboxHwrd addr).All (RateWrite phy) := fun _ => ⟨trivial, fun _ => trivial⟩
    have hwrite : ∀ addr v, (phyMboxHwwr addr v).All (RateWrite phy) := fun _ _ =>
      ⟨trivial, fun _ => trivial⟩
    refine Accesses.bind (Accesses.locked ?_) fun _ => Accesses.locked ?_
    · exact All.bind (hread _) fun _ => All.bind (hread _) fun _ => All.bind (hread _) fun _ =>
        All.bind (hread _) fun _ => All.bind (hread _) fun _ => All.bind (hread _) fun _ => All.pure _
    · exact All.bind (hwrite _ _) fun _ => All.bind (hwrite _ _) fun _ => All.bind (hwrite _ _) fun _ =>
        All.bind (hwrite _ _) fun _ => All.bind (hwrite _ _) fun _ => hwrite _ _

theorem rateWrite_of_written {t : RegTrace} (h : ∀ e ∈ t, RateWrite phy e.op) {reg : Nat}
    {v : BitVec 16} (hmem : (reg, v) ∈ smdioWritten t) : RateWrite phy (.smdioWrite reg v) := by
  obtain ⟨⟨op, ret⟩, he, hev⟩ := List.mem_filterMap.mp hmem
  cases op <;> first | cases hev | skip
  · next reg' v' =>
    cases ret with
    | error e => cases hev
    | ok _ =>
      cases hev
      exact h _ he

/-- A rate that it programs is that of the values it computes. -/
theorem nominalRate_of_programs (hbases : KnownBases phy) {stack : BitVec 16} {ptpCfg : PtpCtrl}
    {t : Trace regSig.locking} {r : Except Errno Unit}
    (hrun : (gpy2xxPtpEnable phy stack ptpCfg).Runs t r) (h : ProgramsNominalRate phy (accesses t)) :
    NominalRate phy.ptpClock.toNat (subSec phy.ptpClock).toNat (subNsec phy.ptpClock).toNat
      (defaultAddend phy.ptpClock).toNat := by
  obtain ⟨ssinc, snsinc, low, high, hss, hsn, hlow, hhigh, hrate⟩ := h
  have hwritten := fun {reg v} => @rateWrite_of_written phy (accesses t)
    (accesses_gpy2xxPtpEnable hbases stack ptpCfg t _ hrun) reg v
  have hss := (hwritten hss).1 rfl
  have hsn := (hwritten hsn).2.1 rfl
  have hlow := (hwritten hlow).2.2.1 rfl
  have hhigh := (hwritten hhigh).2.2.2 rfl
  have hssinc : ssinc = subSec phy.ptpClock := by
    simpa using congrArg (BitVec.setWidth 8) hss
  have hsnsinc : snsinc = subNsec phy.ptpClock := by
    have hshift : ∀ v : BitVec 8, ((v.setWidth 16 <<< 8) >>> 8).setWidth 8 = v := by decide
    rw [← hshift snsinc, hsn, hshift]
  have haddend : high ++ low = defaultAddend phy.ptpClock := by
    rw [hlow, hhigh, BitVec.extractLsb'_append_extractLsb']
  rwa [hssinc, hsnsinc, haddend] at hrate

/-- So no run of it programs a rate at which a second lasts a second. -/
theorem not_programsNominalRate (hclock : phy.ptpClock ≠ 0) (hbases : KnownBases phy)
    {stack : BitVec 16} {ptpCfg : PtpCtrl} {t : Trace regSig.locking}
    (hrun : (gpy2xxPtpEnable phy stack ptpCfg).Runs t (.ok ())) :
    ¬ProgramsNominalRate phy (accesses t) := by
  intro h
  exact not_rateLaw hclock (nominalRate_of_programs hbases hrun h).1

end Enable

/-- At 406.25 MHz, on registers that are memory. -/
theorem runs_ptpEnable_406MHz : ∃ t,
    (gpy2xxPtpEnable (ptpPhy 406250000) 0 ⟨0, 0, 0, 0, 0, 0⟩).Runs t (.ok ()) := by
  have hexec : ∃ s, (gpy2xxPtpEnable (ptpPhy 406250000) 0 ⟨0, 0, 0, 0, 0, 0⟩).exec (handler memHandler)
      (zeroRegs true) = (.ok (), s) := ⟨_, rfl⟩
  obtain ⟨s, hexec⟩ := hexec
  obtain ⟨t, hrun, -⟩ := (exec_eq_iff).mp hexec
  exact ⟨t, hrun⟩

theorem knownBases_ptpPhy : KnownBases (ptpPhy 406250000) := .inr ⟨by decide, rfl, rfl, rfl⟩

theorem not_programsNominalRate_406MHz : ∃ t,
    (gpy2xxPtpEnable (ptpPhy 406250000) 0 ⟨0, 0, 0, 0, 0, 0⟩).Runs t (.ok ()) ∧
    ¬ProgramsNominalRate (ptpPhy 406250000) (accesses t) := by
  obtain ⟨t, hrun⟩ := runs_ptpEnable_406MHz
  exact ⟨t, hrun, not_programsNominalRate (by decide) knownBases_ptpPhy hrun⟩

/-- There the increment is 2 + 118/256 ns and the addend 2^31: 203125000 overflows make half a second. -/
theorem half_rate_406MHz : ∃ t,
    (gpy2xxPtpEnable (ptpPhy 406250000) 0 ⟨0, 0, 0, 0, 0, 0⟩).Runs t (.ok ()) ∧
    ¬ProgramsNominalRate (ptpPhy 406250000) (accesses t) := by
  obtain ⟨t, hrun⟩ := runs_ptpEnable_406MHz
  refine ⟨t, hrun, fun h => ?_⟩
  have hlow := le_of_rateLaw (nominalRate_of_programs knownBases_ptpPhy hrun h).1
  have hvalues : (subSec 406250000).toNat = 2 ∧ (subNsec 406250000).toNat = 118 ∧
      (defaultAddend 406250000).toNat = 2 ^ 31 := by decide
  have hlow : 10 ^ 9 * 2 ^ 40 ≤ 406250000 * (defaultAddend 406250000).toNat *
      (256 * (subSec 406250000).toNat + (subNsec 406250000).toNat + 1) := hlow
  rw [hvalues.1, hvalues.2.1, hvalues.2.2] at hlow
  omega

end Gpy2xx
