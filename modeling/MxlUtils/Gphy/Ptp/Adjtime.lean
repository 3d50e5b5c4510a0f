import MxlUtils.Gphy.Ptp.Pps
import MxlUtils.Gphy.Ptp.Written

/- Shifting the time. `ptp_adjtime` takes a difference apart into seconds and
   nanoseconds and hands them to the update registers; where they are subtracted,
   each half goes there as its complement. The device takes the seconds modulo 2^32,
   and keeps nanoseconds below a second. -/
namespace Gpy2xx
open Effect Effect.Fallible Effect.Lock Bits

/-! ## The call -/

/-- `GMACF_MAC_SYSTEM_TIME_*_UPDATE_*` -/
def secondsUpdateL : Nat := 0x1620
def secondsUpdateH : Nat := 0x1624
def nanosecondsUpdateL : Nat := 0x1628
def nanosecondsUpdateH : Nat := 0x162C

/-- `GMACF_MAC_TIMESTAMP_CONTROL_L_TSUPDT_POS` -/
def tsupdtPos : Nat := 3

/-- `GMACF_MAC_SYSTEM_TIME_NANOSECONDS_UPDATE_H_ADDSUB` -/
def addsub : Field 16 := ⟨0x8000, 15⟩

/-- The fields of the update registers. -/
structure TimeUpdate where
  addSub : Bool
  tss : BitVec 32
  tsss : BitVec 32
deriving DecidableEq

def timeUpdate (addSub : Bool) (sec nsec : BitVec 32) : TimeUpdate :=
  if addSub then ⟨true, (0x100000000 - sec.setWidth 64 : BitVec 64).setWidth 32, 0x3B9ACA00 - nsec⟩
  else ⟨false, sec, nsec⟩

/-- The words of the registers, with the sign over the high half of the nanoseconds. -/
def TimeUpdate.words (phy : Gpy211Device) (u : TimeUpdate) : List (Nat × BitVec 16) := [
  (phy.gmacfBaseAddr + secondsUpdateL, u.tss.extractLsb' 0 16),
  (phy.gmacfBaseAddr + secondsUpdateH, u.tss.extractLsb' 16 16),
  (phy.gmacfBaseAddr + nanosecondsUpdateL, u.tsss.extractLsb' 0 16),
  (phy.gmacfBaseAddr + nanosecondsUpdateH, addsub.replace (u.tsss.extractLsb' 16 16) (if u.addSub then 1 else 0))]

/-- `_gpy2xx_ptp_updt_systime` -/
def ptpUpdtSystime (phy : Gpy211Device) (addSub : Bool) (sec nsec : BitVec 32) : Api Unit :=
  if nsec.toNat > maxNsecInSec then throw EINVAL
  else do
    isRwDone (phy.gmacfBaseAddr + timestampControlL) tsupdtPos
    let update := timeUpdate addSub sec nsec
    smdioWriteAt (phy.gmacfBaseAddr + secondsUpdateL) (update.tss.extractLsb' 0 16)
    smdioWriteAt (phy.gmacfBaseAddr + secondsUpdateH) (update.tss.extractLsb' 16 16)
    smdioWriteAt (phy.gmacfBaseAddr + nanosecondsUpdateL) (update.tsss.extractLsb' 0 16)
    smdioWriteAt (phy.gmacfBaseAddr + nanosecondsUpdateH)
      (addsub.replace (update.tsss.extractLsb' 16 16) (if update.addSub then 1 else 0))
    smdioSetBit (phy.gmacfBaseAddr + timestampControlL) tsupdtPos
    isRwDone (phy.gmacfBaseAddr + timestampControlL) tsupdtPos

/-- `MAX_NANOSEC_IN_DAY` -/
def maxNanosecInDay : Nat := 86399999999999

/-- `-delta` of a negative difference. -/
def magnitude (delta : BitVec 64) : BitVec 64 := if delta.slt 0 then -delta else delta

/-- The comparison with the bound, which is unsigned, is one without a sign. -/
def gpy2xxPtpAdjtime (phy : Gpy211Device) (delta : BitVec 64) : Call Unit :=
  if (magnitude delta).toNat > maxNanosecInDay then throw EINVAL
  else
    let parts := (divU64Rem false (magnitude delta) 1000000000 .object).getD (0, 0)
    locked (ptpUpdtSystime phy (delta.slt 0) parts.1 parts.2)

/-! ## What the device does with it -/

/-- The fields that the registers hold. -/
def updateFields (secL secH nsecL nsecH : BitVec 16) : TimeUpdate :=
  ⟨nsecH.getLsbD 15, secH ++ secL, (nsecH &&& 0x7FFF) ++ nsecL⟩

/-- The difference they stand for, in nanoseconds. -/
def TimeUpdate.delta (u : TimeUpdate) : Int :=
  if u.addSub then -((2 ^ 32 - u.tss.toNat : Int) % 2 ^ 32 * 1000000000 + (1000000000 - u.tsss.toNat))
  else u.tss.toNat * 1000000000 + u.tsss.toNat

/-- A difference within a day is programmed, unless an access fails; any other is rejected. -/
structure AdjtimeExact (phy : Gpy211Device) (delta : BitVec 64) : Prop where
  rejected : maxNanosecInDay < delta.toInt.natAbs →
    ∀ t r, (gpy2xxPtpAdjtime phy delta).Runs t r → accesses t = [] ∧ ∃ e, r = .error e
  accepted : delta.toInt.natAbs ≤ maxNanosecInDay → ∃ secL secH nsecL nsecH : BitVec 16,
    (updateFields secL secH nsecL nsecH).delta = delta.toInt ∧
    (updateFields secL secH nsecL nsecH).tsss.toNat ≤ 999999999 ∧
    ∀ t r, (gpy2xxPtpAdjtime phy delta).Runs t r → ∃ v,
      let words := registers [(phy.gmacfBaseAddr + secondsUpdateL, secL), (phy.gmacfBaseAddr + secondsUpdateH, secH),
        (phy.gmacfBaseAddr + nanosecondsUpdateL, nsecL), (phy.gmacfBaseAddr + nanosecondsUpdateH, nsecH),
        (phy.gmacfBaseAddr + timestampControlL, v)]
      smdioTried (accesses t) <+: words ∧ (r = .ok () → smdioTried (accesses t) = words) ∧
        ∀ e, r = .error e → ∃ ev ∈ accesses t, refused ev = true

/-! ## The arithmetic of the call -/

section Arithmetic
variable {delta : BitVec 64} {sec nsec : BitVec 32}

theorem slt_zero : delta.slt 0 = decide (delta.toInt < 0) := by
  rw [BitVec.slt_eq_decide]
  simp

theorem toNat_magnitude (delta : BitVec 64) : (magnitude delta).toNat = delta.toInt.natAbs := by
  have hlt := delta.isLt
  have hint := BitVec.toInt_eq_toNat_cond delta
  rw [magnitude, slt_zero]
  by_cases hneg : delta.toInt < 0
  · rw [if_pos (by simpa using hneg), BitVec.toNat_neg]
    split at hint <;> omega
  · rw [if_neg (by simpa using hneg)]
    split at hint <;> omega

/-- Seconds and nanoseconds of a difference within a day. -/
theorem divU64Rem_magnitude {m : BitVec 64} (hm : m.toNat ≤ maxNanosecInDay) :
    divU64Rem false m 1000000000 .object = some (.ofNat 32 (m.toNat / 1000000000), .ofNat 32 (m.toNat % 1000000000)) := by
  have hupper : (m.extractLsb' 32 32).toNat = m.toNat / 2 ^ 32 := by
    rw [BitVec.extractLsb'_toNat, Nat.shiftRight_eq_div_pow]
    omega
  have hsmall : ¬(1000000000 : BitVec 32) ≤ m.extractLsb' 32 32 := by
    rw [BitVec.le_def, hupper]
    have hconst : (1000000000 : BitVec 32).toNat = 1000000000 := rfl
    rw [maxNanosecInDay] at hm
    omega
  have hword : m.extractLsb' 32 32 ++ m.extractLsb' 0 32 = m := by
    rw [BitVec.extractLsb'_append_extractLsb']
  have hwidth : (BitVec.setWidth 64 (1000000000 : BitVec 32)).toNat = 1000000000 := rfl
  rw [divU64Rem, if_neg hsmall, if_neg hsmall, if_pos ⟨by decide, rfl⟩, hword]
  refine congrArg some (Prod.ext ?_ ?_)
  · apply BitVec.eq_of_toNat_eq
    rw [BitVec.setWidth_append_eq_right, BitVec.toNat_setWidth, BitVec.toNat_udiv, hwidth, BitVec.toNat_ofNat]
  · apply BitVec.eq_of_toNat_eq
    rw [BitVec.toNat_setWidth, BitVec.toNat_umod, hwidth, BitVec.toNat_ofNat]

theorem toNat_secComplement (hsec : sec.toNat ≠ 0) :
    ((0x100000000 - sec.setWidth 64 : BitVec 64).setWidth 32).toNat = 2 ^ 32 - sec.toNat := by
  have hlt := sec.isLt
  have hconst : (0x100000000 : BitVec 64).toNat = 2 ^ 32 := rfl
  rw [BitVec.toNat_setWidth, BitVec.toNat_sub, BitVec.toNat_setWidth, hconst]
  omega

theorem secComplement_zero (hsec : sec.toNat = 0) :
    ((0x100000000 - sec.setWidth 64 : BitVec 64).setWidth 32).toNat = 0 := by
  have hconst : (0x100000000 : BitVec 64).toNat = 2 ^ 32 := rfl
  rw [BitVec.toNat_setWidth, BitVec.toNat_sub, BitVec.toNat_setWidth, hconst, hsec]
  omega

theorem toNat_nsecComplement (hnsec : nsec.toNat ≤ maxNsecInSec) : (0x3B9ACA00 - nsec).toNat = 1000000000 - nsec.toNat := by
  have hconst : (0x3B9ACA00 : BitVec 32).toNat = 1000000000 := rfl
  rw [maxNsecInSec] at hnsec
  rw [BitVec.toNat_sub, hconst]
  omega

/-- The fields stand for the seconds and nanoseconds they were made of. -/
theorem delta_add : (timeUpdate false sec nsec).delta = sec.toNat * 1000000000 + nsec.toNat := by
  have haddSub : (timeUpdate false sec nsec).addSub = false := rfl
  have htss : (timeUpdate false sec nsec).tss = sec := rfl
  have htsss : (timeUpdate false sec nsec).tsss = nsec := rfl
  rw [TimeUpdate.delta, haddSub, htss, htsss]
  rfl

theorem delta_sub (hnsec : nsec.toNat ≤ maxNsecInSec) :
    (timeUpdate true sec nsec).delta = -(sec.toNat * 1000000000 + nsec.toNat : Int) := by
  have hlt := sec.isLt
  have hns := toNat_nsecComplement hnsec
  have haddSub : (timeUpdate true sec nsec).addSub = true := rfl
  have htss : (timeUpdate true sec nsec).tss = (0x100000000 - sec.setWidth 64 : BitVec 64).setWidth 32 := rfl
  have htsss : (timeUpdate true sec nsec).tsss = 0x3B9ACA00 - nsec := rfl
  rw [maxNsecInSec] at hnsec
  rw [TimeUpdate.delta, if_pos haddSub, htss, htsss, hns]
  by_cases hsec : sec.toNat = 0
  · rw [secComplement_zero hsec, hsec]
    omega
  · rw [toNat_secComplement hsec]
    omega

theorem tsss_timeUpdate_le (addSub : Bool) (hnsec : nsec.toNat ≤ maxNsecInSec) :
    (timeUpdate addSub sec nsec).tsss.toNat ≤ 1000000000 ∧
      ((timeUpdate addSub sec nsec).tsss.toNat = 1000000000 ↔ addSub = true ∧ nsec.toNat = 0) := by
  have hns := toNat_nsecComplement hnsec
  rw [maxNsecInSec] at hnsec
  cases addSub with
  | false =>
    have hsame : (timeUpdate false sec nsec).tsss = nsec := rfl
    rw [hsame]
    simp
    omega
  | true =>
    have hsame : (timeUpdate true sec nsec).tsss = 0x3B9ACA00 - nsec := rfl
    rw [hsame, hns]
    simp
    omega

/-- The sign is read back, and the nanoseconds below it. -/
theorem updateFields_words {u : TimeUpdate} (htsss : u.tsss.toNat < 2 ^ 31) :
    updateFields (u.tss.extractLsb' 0 16) (u.tss.extractLsb' 16 16) (u.tsss.extractLsb' 0 16)
      (addsub.replace (u.tsss.extractLsb' 16 16) (if u.addSub then 1 else 0)) = u := by
  obtain ⟨addSub, tss, tsss⟩ := u
  have hspans : addsub.Spans 1 := by decide
  have hsign : (addsub.replace (tsss.extractLsb' 16 16) (if addSub then 1 else 0)).getLsbD 15 = addSub := by
    have hbit := @Field.getLsbD_replace_bit 16 addsub (tsss.extractLsb' 16 16) (if addSub then 1 else 0) hspans
    have hpos : addsub.pos = 15 := rfl
    rw [hpos] at hbit
    rw [hbit]
    cases addSub <;> rfl
  have hhigh : (addsub.replace (tsss.extractLsb' 16 16) (if addSub then 1 else 0)) &&& 0x7FFF = tsss.extractLsb' 16 16 := by
    have hkeep := @Field.replace_and_of_disjoint 16 addsub (tsss.extractLsb' 16 16) (if addSub then 1 else 0) 0x7FFF (by decide)
    rw [hkeep]
    have hlt : (tsss.extractLsb' 16 16).toNat < 2 ^ 15 := by
      rw [BitVec.extractLsb'_toNat, Nat.shiftRight_eq_div_pow]
      simp only at htsss
      omega
    apply BitVec.eq_of_toNat_eq
    rw [BitVec.toNat_and]
    exact Nat.and_two_pow_sub_one_of_lt_two_pow hlt
  rw [updateFields, hsign, hhigh, BitVec.extractLsb'_append_extractLsb', BitVec.extractLsb'_append_extractLsb']

end Arithmetic

/-! ## Runs of the call -/

section Runs
variable {phy : Gpy211Device} {delta : BitVec 64} {addSub : Bool} {sec nsec : BitVec 32} {t : RegTrace}
  {r : Except Errno Unit} {u : TimeUpdate}

/-- The writes of an update, and the word that hands it to the device. -/
def TimeUpdate.allWords (phy : Gpy211Device) (u : TimeUpdate) (v : BitVec 16) : List (Nat × BitVec 16) :=
  u.words phy ++ [(phy.gmacfBaseAddr + timestampControlL, v)]

/-- The end of an update: the bit is set, and waited for. -/
def handOver (phy : Gpy211Device) : Api Unit := do
  smdioSetBit (phy.gmacfBaseAddr + timestampControlL) tsupdtPos
  isRwDone (phy.gmacfBaseAddr + timestampControlL) tsupdtPos

theorem ptpUpdtSystime_eq (hnsec : nsec.toNat ≤ maxNsecInSec) :
    ptpUpdtSystime phy addSub sec nsec = (isRwDone (phy.gmacfBaseAddr + timestampControlL) tsupdtPos >>=
      fun _ => writeAll (handOver phy) ((timeUpdate addSub sec nsec).words phy)) := by
  rw [ptpUpdtSystime, if_neg (by omega)]
  rfl

theorem runs_handOver (h : (handOver phy).Runs t r) :
    (∃ e, smdioTried t = [] ∧ r = .error e ∧ ∃ ev ∈ t, refused ev = true) ∨
    ∃ v, smdioTried t = registers [(phy.gmacfBaseAddr + timestampControlL, v)] ∧
      (r = .ok () ∨ ∃ ev ∈ t, refused ev = true) := by
  rw [handOver, smdioSetBit, bind_assoc] at h
  rcases (runs_smdioRead_bind).mp h with ⟨e, rfl, rfl⟩ | ⟨v, t', rfl, hrest⟩
  · exact .inl ⟨e, rfl, rfl, _, List.mem_singleton_self _, rfl⟩
  · refine .inr ⟨v ||| 1 <<< tsupdtPos, ?_⟩
    rcases (runs_smdioWrite_bind).mp hrest with ⟨e, rfl, rfl⟩ | ⟨_, t'', rfl, hdone⟩
    · exact ⟨rfl, .inr ⟨_, List.mem_cons_of_mem _ (List.mem_singleton_self _), rfl⟩⟩
    · obtain ⟨hok, hreads⟩ := runs_isRwDone hdone
      exact ⟨congrArg (_ :: ·) (smdioTried_reads hreads), .inl hok⟩

theorem runs_ptpUpdtSystime (hnsec : nsec.toNat ≤ maxNsecInSec) (h : (ptpUpdtSystime phy addSub sec nsec).Runs t r) :
    ∃ v, smdioTried t <+: registers ((timeUpdate addSub sec nsec).allWords phy v) ∧
      (r = .ok () → smdioTried t = registers ((timeUpdate addSub sec nsec).allWords phy v)) ∧
      ∀ e, r = .error e → ∃ ev ∈ t, refused ev = true := by
  rw [ptpUpdtSystime_eq hnsec] at h
  rcases (runs_bind).mp h with ⟨e, hwait, -⟩ | ⟨t₁, _, t₂, rfl, hwait, hrest⟩
  · cases (runs_isRwDone hwait).1
  have hnone := smdioTried_reads (runs_isRwDone hwait).2
  rcases (runs_writeAll).mp hrest with ⟨before, w, after, e, hwords, rfl, rfl⟩ | ⟨t₃, rfl, hend⟩
  · -- a write of the update fails
    refine ⟨0, ?_, fun hok => (by cases hok), fun _ _ => ⟨⟨.smdioWrite (smdioReg w.1) w.2, .error e⟩, ?_, rfl⟩⟩
    · rw [smdioTried_append, hnone, List.nil_append, smdioTried_failed, TimeUpdate.allWords, hwords]
      exact ⟨registers (after ++ [(phy.gmacfBaseAddr + timestampControlL, 0)]), by simp [registers]⟩
    · exact List.mem_append_right _ (List.mem_append_right _ (List.mem_singleton_self _))
  · have htried : smdioTried (t₁ ++ (smdioOk ((timeUpdate addSub sec nsec).words phy) ++ t₃)) =
        registers ((timeUpdate addSub sec nsec).words phy) ++ smdioTried t₃ := by
      rw [smdioTried_append, hnone, smdioTried_append, smdioTried_smdioOk, List.nil_append]
    rcases runs_handOver hend with ⟨e, htail, rfl, ev, hev, href⟩ | ⟨v, htail, hr⟩
    · refine ⟨0, ?_, fun hok => (by cases hok), fun _ _ =>
        ⟨ev, List.mem_append_right _ (List.mem_append_right _ hev), href⟩⟩
      rw [htried, htail, List.append_nil, TimeUpdate.allWords, registers, registers, List.map_append]
      exact List.prefix_append _ _
    · have hall : smdioTried (t₁ ++ (smdioOk ((timeUpdate addSub sec nsec).words phy) ++ t₃)) =
          registers ((timeUpdate addSub sec nsec).allWords phy v) := by
        rw [htried, htail, TimeUpdate.allWords, registers, registers, registers, List.map_append]
      refine ⟨v, hall ▸ List.prefix_rfl, fun _ => hall, fun e he => ?_⟩
      rcases hr with rfl | ⟨ev, hev, href⟩
      · cases he
      · exact ⟨ev, List.mem_append_right _ (List.mem_append_right _ hev), href⟩

/-- The halves of a difference, in seconds and nanoseconds. -/
def secondsOf (delta : BitVec 64) : BitVec 32 := .ofNat 32 (delta.toInt.natAbs / 1000000000)
def nanosecondsOf (delta : BitVec 64) : BitVec 32 := .ofNat 32 (delta.toInt.natAbs % 1000000000)

theorem toNat_nanosecondsOf (delta : BitVec 64) : (nanosecondsOf delta).toNat = delta.toInt.natAbs % 1000000000 := by
  rw [nanosecondsOf, BitVec.toNat_ofNat]
  omega

theorem toNat_secondsOf (hday : delta.toInt.natAbs ≤ maxNanosecInDay) :
    (secondsOf delta).toNat = delta.toInt.natAbs / 1000000000 := by
  rw [maxNanosecInDay] at hday
  rw [secondsOf, BitVec.toNat_ofNat]
  omega

theorem nanosecondsOf_le (delta : BitVec 64) : (nanosecondsOf delta).toNat ≤ maxNsecInSec := by
  rw [toNat_nanosecondsOf, maxNsecInSec]
  omega

theorem ptpAdjtime_accepted (hday : delta.toInt.natAbs ≤ maxNanosecInDay) :
    gpy2xxPtpAdjtime phy delta =
      locked (ptpUpdtSystime phy (decide (delta.toInt < 0)) (secondsOf delta) (nanosecondsOf delta)) := by
  have hmag : (magnitude delta).toNat ≤ maxNanosecInDay := by rw [toNat_magnitude]; exact hday
  rw [gpy2xxPtpAdjtime, if_neg (by omega), divU64Rem_magnitude hmag, toNat_magnitude, slt_zero]
  rfl

theorem ptpAdjtime_rejected (hday : maxNanosecInDay < delta.toInt.natAbs) :
    gpy2xxPtpAdjtime phy delta = throw EINVAL := by
  rw [gpy2xxPtpAdjtime, toNat_magnitude, if_pos hday]

/-- The fields that an accepted difference is programmed with. -/
def adjustment (delta : BitVec 64) : TimeUpdate :=
  timeUpdate (decide (delta.toInt < 0)) (secondsOf delta) (nanosecondsOf delta)

theorem delta_adjustment (hday : delta.toInt.natAbs ≤ maxNanosecInDay) : (adjustment delta).delta = delta.toInt := by
  have hsec := toNat_secondsOf hday
  have hnsec := toNat_nanosecondsOf delta
  rw [adjustment]
  by_cases hneg : delta.toInt < 0
  · rw [decide_eq_true hneg, delta_sub (nanosecondsOf_le delta), hsec, hnsec]
    omega
  · rw [decide_eq_false hneg, delta_add, hsec, hnsec]
    omega

theorem tsss_adjustment_le_iff (delta : BitVec 64) : (adjustment delta).tsss.toNat ≤ 999999999 ↔
    (delta.toInt < 0 → ¬(1000000000 : Int) ∣ delta.toInt) := by
  have hle := @tsss_timeUpdate_le (secondsOf delta) (nanosecondsOf delta) (decide (delta.toInt < 0)) (nanosecondsOf_le delta)
  rw [toNat_nanosecondsOf, decide_eq_true_iff] at hle
  rw [adjustment]
  omega

theorem tsss_adjustment_lt (delta : BitVec 64) : (adjustment delta).tsss.toNat < 2 ^ 31 := by
  have hle := @tsss_timeUpdate_le (secondsOf delta) (nanosecondsOf delta) (decide (delta.toInt < 0)) (nanosecondsOf_le delta)
  rw [adjustment]
  omega

theorem runs_ptpAdjtime {t : Trace regSig.locking} (hday : delta.toInt.natAbs ≤ maxNanosecInDay)
    (h : (gpy2xxPtpAdjtime phy delta).Runs t r) :
    ∃ v, smdioTried (accesses t) <+: registers ((adjustment delta).allWords phy v) ∧
      (r = .ok () → smdioTried (accesses t) = registers ((adjustment delta).allWords phy v)) ∧
      ∀ e, r = .error e → ∃ ev ∈ accesses t, refused ev = true := by
  rw [ptpAdjtime_accepted hday] at h
  exact runs_ptpUpdtSystime (nanosecondsOf_le delta) (Runs.accesses_locked h)

/-- Where every access is answered, the call gets to its end. -/
theorem exists_ptpAdjtime_ok (phy : Gpy211Device) (hday : delta.toInt.natAbs ≤ maxNanosecInDay) :
    ∃ t, (gpy2xxPtpAdjtime phy delta).Runs t (.ok ()) := by
  obtain ⟨t, r, hrun, hans⟩ := Prog.exists_runs okAnswer
    (ptpUpdtSystime phy (decide (delta.toInt < 0)) (secondsOf delta) (nanosecondsOf delta)).run
  obtain ⟨v, -, -, herr⟩ := runs_ptpUpdtSystime (nanosecondsOf_le delta) hrun
  obtain ⟨t', hlocked, -⟩ := runs_locked_of_body hrun
  rw [ptpAdjtime_accepted hday]
  cases r with
  | ok _ => exact ⟨t', hlocked⟩
  | error e =>
    obtain ⟨ev, hev, href⟩ := herr e rfl
    rw [refused, hans ev hev, succeeded_okAnswer] at href
    cases href

end Runs

/-- What is programmed is what a successful run shows. -/
theorem AdjtimeExact.tsss_le {phy : Gpy211Device} {delta : BitVec 64} (h : AdjtimeExact phy delta)
    (hday : delta.toInt.natAbs ≤ maxNanosecInDay) : (adjustment delta).tsss.toNat ≤ 999999999 := by
  obtain ⟨secL, secH, nsecL, nsecH, -, hle, hruns⟩ := h.accepted hday
  obtain ⟨t, hrun⟩ := exists_ptpAdjtime_ok phy hday
  obtain ⟨v, -, hwords, -⟩ := hruns t _ hrun
  obtain ⟨v', -, hwords', -⟩ := runs_ptpAdjtime hday hrun
  have hsame := (hwords rfl).symm.trans (hwords' rfl)
  simp only [registers, TimeUpdate.allWords, TimeUpdate.words, List.map_cons, List.map_append, List.cons_append,
    List.nil_append, List.map_nil, List.cons.injEq, Prod.mk.injEq, true_and, and_true] at hsame
  obtain ⟨rfl, rfl, rfl, rfl, -⟩ := hsame
  rwa [updateFields_words (tsss_adjustment_lt delta)] at hle

/-- A shift is programmed as it should be, unless it goes back by whole seconds. -/
theorem adjtime_exact_iff (phy : Gpy211Device) (delta : BitVec 64) : AdjtimeExact phy delta ↔
    (delta.toInt < 0 → delta.toInt.natAbs ≤ maxNanosecInDay → ¬(1000000000 : Int) ∣ delta.toInt) := by
  constructor
  · intro h hneg hday
    exact (tsss_adjustment_le_iff delta).mp (h.tsss_le hday) hneg
  · intro h
    refine ⟨fun hday t r hrun => ?_, fun hday => ?_⟩
    · rw [ptpAdjtime_rejected hday] at hrun
      obtain ⟨rfl, rfl⟩ := (runs_throw).mp hrun
      exact ⟨rfl, _, rfl⟩
    · refine ⟨_, _, _, _, ?_, ?_, fun t r hrun => runs_ptpAdjtime hday hrun⟩
      · rw [updateFields_words (tsss_adjustment_lt delta)]
        exact delta_adjustment hday
      · rw [updateFields_words (tsss_adjustment_lt delta)]
        exact (tsss_adjustment_le_iff delta).mpr fun hneg => h hneg hday

/-- One second back: the nanoseconds are those of a whole second. -/
theorem adjtime_second_back : ¬∀ (phy : Gpy211Device) (delta : BitVec 64), AdjtimeExact phy delta := by
  intro h
  have hle := (h (ptpPhy 250000000) (.ofInt 64 (-1000000000))).tsss_le (by decide)
  exact absurd hle (by decide +kernel)

end Gpy2xx
