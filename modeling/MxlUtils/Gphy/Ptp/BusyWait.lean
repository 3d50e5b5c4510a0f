import MxlUtils.Gphy.Ptp.Settime
import MxlUtils.Lib.Polling

/- Waiting for a busy bit. The loop of `__is_rw_done` ends at the first read that does not look
   busy, or when its budget is used up with the bit still set; the test after it asks for both,
   a clear bit and no budget left, which never happens. So the wait never fails: the result is
   right exactly where the device is done in time (`busyWaitRight_iff`), and no handshake of the
   PTP block reports a device that stays busy (`not_reportsBusy`). -/
namespace Gpy2xx
open Effect Effect.Fallible Effect.Lock Bits Polling

/-- A device that presents `answers` to its reads through the slave MDIO, one after the other; the
state is the number of the read. -/
def presents (answers : Nat → Except Errno (BitVec 16)) : Handler regSig Nat
  | .smdioRead _, k => (answers k, k + 1)
  | .phyRead _, k | .mmdRead _ _, k | .mboxRead16 _, k => (.ok 0, k)
  | .mboxRead32 _, k => (.ok 0, k)
  | .phyWrite _ _, k | .mmdWrite _ _ _, k | .smdioWrite _ _, k | .mboxWrite16 _ _, k
  | .mboxWrite32 _ _, k => (.ok (), k)
  | .osAlloc, k => (true, k)
  | .rand, k => (0, k)

section Wait
variable {reg bit : Nat} {answers : Nat → Except Errno (BitVec 16)}

/-- A successful read with the bit clear; a failed read shows nothing. -/
def ShowsIdle (bit : Nat) (answer : Except Errno (BitVec 16)) : Prop :=
  ∃ v, answer = .ok v ∧ v.getLsbD bit = false

/-- What the loop takes for busy. -/
def LooksBusy (bit : Nat) (answer : Except Errno (BitVec 16)) : Prop :=
  (returnedWord answer).getLsbD bit = true

theorem exec_pollBusy_zero (k : Nat) :
    (pollBusy reg bit 0).exec (presents answers) k = (.ok (true, 0), k) := rfl

theorem exec_pollBusy_busy {k n : Nat} (h : LooksBusy bit (answers k)) :
    (pollBusy reg bit (n + 1)).exec (presents answers) k =
      (pollBusy reg bit n).exec (presents answers) (k + 1) := by
  have h : (returnedWord (answers k)).getLsbD bit = true := h
  show (if (returnedWord (answers k)).getLsbD bit then _ else _ : Api _).exec _ _ = _
  rw [if_pos h]
  rfl

theorem exec_pollBusy_idle {k n : Nat} (h : ¬ LooksBusy bit (answers k)) :
    (pollBusy reg bit (n + 1)).exec (presents answers) k = (.ok (false, n + 1), k + 1) := by
  have h : ¬ (returnedWord (answers k)).getLsbD bit = true := h
  show (if (returnedWord (answers k)).getLsbD bit then _ else _ : Api _).exec _ _ = _
  rw [if_neg h]
  rfl

/-- The loop ends at the first read that does not look busy, with budget left. -/
theorem exec_pollBusy_first {k n i : Nat} (h : First (fun j => ¬ LooksBusy bit (answers (k + j))) n i) :
    ∃ left, 0 < left ∧
      (pollBusy reg bit n).exec (presents answers) k = (.ok (false, left), k + i + 1) := by
  induction n generalizing k i with
  | zero => exact absurd h.lt (Nat.not_lt_zero i)
  | succ n ih =>
    rcases h.cases with ⟨rfl, hidle⟩ | ⟨j, rfl, hbusy, hrest⟩
    · exact ⟨n + 1, Nat.succ_pos n, exec_pollBusy_idle hidle⟩
    · have hshift : First (fun i => ¬ LooksBusy bit (answers (k + 1 + i))) n j := by
        simpa only [Nat.add_assoc, Nat.add_comm 1] using hrest
      obtain ⟨left, hleft, hexec⟩ := ih hshift
      have hk : LooksBusy bit (answers k) := not_not.mp hbusy
      refine ⟨left, hleft, ?_⟩
      rw [exec_pollBusy_busy hk, hexec]
      congr 1
      omega

theorem exec_pollBusy_none {k n : Nat} (h : ∀ j < n, LooksBusy bit (answers (k + j))) :
    (pollBusy reg bit n).exec (presents answers) k = (.ok (true, 0), k + n) := by
  induction n generalizing k with
  | zero => rfl
  | succ n ih =>
    have hrest : ∀ j < n, LooksBusy bit (answers (k + 1 + j)) := by
      intro j hj
      have := h (j + 1) (Nat.succ_lt_succ hj)
      rwa [show k + (j + 1) = k + 1 + j by omega] at this
    have hk : LooksBusy bit (answers k) := h 0 (Nat.succ_pos n)
    rw [exec_pollBusy_busy hk, ih hrest]
    congr 1
    omega

/-- How many of the answers the wait looks at. -/
theorem exec_isRwDone :
    (∃ i, First (fun j => ¬ LooksBusy bit (answers j)) 100 i ∧
      (isRwDone reg bit).exec (presents answers) 0 = (.ok (), i + 1)) ∨
    (∀ i < 100, LooksBusy bit (answers i)) ∧
      (isRwDone reg bit).exec (presents answers) 0 = (.ok (), 100) := by
  rcases exists_first_or (fun j => ¬ LooksBusy bit (answers j)) 100 with ⟨i, hi⟩ | hnone
  · left
    have hi' : First (fun j => ¬ LooksBusy bit (answers (0 + j))) 100 i := by simpa using hi
    obtain ⟨left, hleft, hexec⟩ := @exec_pollBusy_first reg bit answers 0 100 i hi'
    refine ⟨i, hi, ?_⟩
    rw [isRwDone, exec_bind_ok hexec]
    have hne : ¬ (!false && left == 0) = true := by simp; omega
    simp only [if_neg hne, Nat.zero_add]
    rfl
  · right
    have hbusy : ∀ i < 100, LooksBusy bit (answers i) := fun i hi => not_not.mp (hnone i hi)
    have hexec := @exec_pollBusy_none reg bit answers 0 100 (by simpa using hbusy)
    refine ⟨hbusy, ?_⟩
    rw [isRwDone, exec_bind_ok hexec]
    rfl

end Wait

/-! ## The handshakes -/

/-- What the calls do that wait for the device, with arguments that are not rejected. -/
inductive PtpHandshake where
  | initSystime (sec nsec : BitVec 32) (h : nsec.toNat ≤ maxNsecInSec)
  | updtSystime (addSub : Bool) (sec nsec : BitVec 32) (h : nsec.toNat ≤ maxNsecInSec)
  | writeAddend (addend : BitVec 32)
  | setPpsctrl (ppsCtrl : PpsCtrl) (gpcSel : BitVec 32)

namespace PtpHandshake
variable (phy : Gpy211Device)

def prog : PtpHandshake → Api Unit
  | .initSystime sec nsec _ => ptpInitSystime phy sec nsec
  | .updtSystime addSub sec nsec _ => ptpUpdtSystime phy addSub sec nsec
  | .writeAddend addend => Gpy2xx.writeAddend phy addend
  | .setPpsctrl ppsCtrl gpcSel => Gpy2xx.setPpsctrl phy ppsCtrl gpcSel

/-- The register that is polled. -/
def reg : PtpHandshake → Nat
  | .initSystime .. | .updtSystime .. | .writeAddend .. => phy.gmacfBaseAddr + timestampControlL
  | .setPpsctrl .. => phy.gmacfBaseAddr + 0x170C

/-- Its busy bit. -/
def bit : PtpHandshake → Nat
  | .initSystime .. => tsinitPos
  | .updtSystime .. => tsupdtPos
  | .writeAddend .. => tsaddregPos
  | .setPpsctrl .. => 15

/-- Every read of the polled register shows the bit set. -/
def StaysBusy (h : PtpHandshake) (t : RegTrace) : Prop :=
  ∀ e ∈ t, ∀ r, e = ⟨.smdioRead (smdioReg (h.reg phy)), r⟩ → ∃ v, r = .ok v ∧ v.getLsbD h.bit = true

/-- On a device that stays busy the handshake fails. -/
def ReportsBusy (h : PtpHandshake) : Prop :=
  ∀ t c, (h.prog phy).Runs t c → h.StaysBusy phy t → ∃ e, c = .error e

end PtpHandshake

/-- Every access succeeds, and every register of the slave MDIO shows all its bits set. -/
def busyAnswers : (o : RegOp) → regSig.Ret o
  | .smdioRead _ => .ok 0xFFFF
  | .phyRead _ | .mmdRead _ _ | .mboxRead16 _ => .ok 0
  | .mboxRead32 _ => .ok 0
  | .phyWrite _ _ | .mmdWrite _ _ _ | .smdioWrite _ _ | .mboxWrite16 _ _ | .mboxWrite32 _ _ => .ok ()
  | .osAlloc => true
  | .rand => 0

section Handshakes
variable {phy : Gpy211Device}

theorem answered_isRwDone (g : (o : RegOp) → regSig.Ret o) (reg bit : Nat) :
    answered g (isRwDone reg bit) = .ok () := by
  obtain ⟨t, ht, -⟩ := exists_runs_of_answered (x := isRwDone reg bit) (g := g) rfl
  exact (runs_isRwDone ht).1

theorem answered_wait (reg bit : Nat) {f : Unit → Api Unit} :
    answered busyAnswers (isRwDone reg bit >>= f) = answered busyAnswers (f ()) :=
  answered_bind_ok (answered_isRwDone busyAnswers reg bit)

theorem answered_gpioUpdate {addr : Nat} {f : BitVec 16 → BitVec 16} {rest : Api Unit}
    (h : answered busyAnswers rest = .ok ()) : answered busyAnswers (gpioUpdate addr f rest) = .ok () := by
  show answered busyAnswers (if f 0 != 0 then pure () else rest) = .ok ()
  split
  · rfl
  · exact h

theorem answered_routeGpc (gpcSel : BitVec 32) : answered busyAnswers (routeGpc phy gpcSel) = .ok () := by
  have hselect : answered busyAnswers (selectGpc phy gpcSel) = .ok () := rfl
  rw [routeGpc, answered_bind_ok hselect]
  apply answered_gpioUpdate
  apply answered_gpioUpdate
  apply answered_gpioUpdate
  rfl

/-- With every access succeeding a handshake ends well, whatever its waits saw. -/
theorem answered_prog (h : PtpHandshake) : answered busyAnswers (h.prog phy) = .ok () := by
  cases h with
  | initSystime sec nsec h =>
    rw [PtpHandshake.prog, ptpInitSystime, if_neg (by omega)]
    simp only [answered_bind, answered_isRwDone]
    rfl
  | updtSystime addSub sec nsec h =>
    rw [PtpHandshake.prog, ptpUpdtSystime, if_neg (by omega)]
    simp only [answered_bind, answered_isRwDone]
    rfl
  | writeAddend addend =>
    rw [PtpHandshake.prog, Gpy2xx.writeAddend]
    simp only [answered_bind, answered_isRwDone]
    rfl
  | setPpsctrl ppsCtrl gpcSel =>
    have hunits : ∀ addr units, answered busyAnswers (writeUnits addr units) = .ok () := fun _ _ => rfl
    have hwrite : ∀ addr val, answered busyAnswers (smdioWriteAt addr val) = .ok () := fun _ _ => rfl
    rw [PtpHandshake.prog, Gpy2xx.setPpsctrl, answered_bind_ok (hwrite _ _), answered_wait,
      answered_bind_ok (hwrite _ _), answered_bind_ok (hwrite _ _), answered_bind_ok (hwrite _ _),
      answered_bind_ok (hwrite _ _)]
    split
    · rfl
    · rw [answered_bind_ok (hunits _ _)]
      split
      · rfl
      · rw [answered_bind_ok (hunits _ _), answered_routeGpc]

/-- No handshake reports a device that stays busy. -/
theorem not_reportsBusy (h : PtpHandshake) : ¬ h.ReportsBusy phy := by
  intro hreports
  obtain ⟨t, ht, hanswers⟩ := exists_runs_of_answered (@answered_prog phy h)
  have hbusy : h.StaysBusy phy t := by
    intro e he r heq
    subst heq
    refine ⟨0xFFFF, hanswers _ he, ?_⟩
    cases h <;> simp [PtpHandshake.bit, tsinitPos, tsupdtPos, tsaddregPos]
  obtain ⟨e, he⟩ := hreports t _ ht hbusy
  cases he

end Handshakes

/-! ## What the wait is for -/

/-- The wait fails exactly if none of its reads showed the device done, and on a device that stays
busy so do the handshakes that wait for this register. -/
structure BusyWaitRight (phy : Gpy211Device) (reg bit : Nat) (answers : Nat → Except Errno (BitVec 16)) :
    Prop where
  result : ∀ c polls, (isRwDone reg bit).exec (presents answers) 0 = (c, polls) →
    ((∃ e, c = .error e) ↔ ¬ ∃ i < polls, ShowsIdle bit (answers i))
  handshakes : (∀ i, ∃ v, answers i = .ok v ∧ v.getLsbD bit = true) →
    ∀ h : PtpHandshake, h.reg phy = reg → h.bit = bit → h.ReportsBusy phy

/-- The device is done within the budget, and every read before looked busy. -/
def DoneInTime (bit : Nat) (answers : Nat → Except Errno (BitVec 16)) : Prop :=
  ∃ i, First (fun j => ¬ LooksBusy bit (answers j)) 100 i ∧ ShowsIdle bit (answers i)

section Right
variable {phy : Gpy211Device} {reg bit : Nat} {answers : Nat → Except Errno (BitVec 16)}

theorem not_looksBusy_of_showsIdle {answer : Except Errno (BitVec 16)} (h : ShowsIdle bit answer) :
    ¬ LooksBusy bit answer := by
  obtain ⟨v, rfl, hv⟩ := h
  simp only [LooksBusy, returnedWord, BitVec.getLsbD_setWidth, hv, Bool.and_false]
  decide

/-- The wait is right exactly on the devices that are done in time. -/
theorem busyWaitRight_iff : BusyWaitRight phy reg bit answers ↔ DoneInTime bit answers := by
  constructor
  · intro h
    rcases @exec_isRwDone reg bit answers with ⟨i, hi, hexec⟩ | ⟨hbusy, hexec⟩
    · -- the wait ended at a read that did not look busy
      have hres := h.result _ _ hexec
      obtain ⟨j, hj, hidle⟩ : ∃ j < i + 1, ShowsIdle bit (answers j) := by
        by_contra hnone
        obtain ⟨e, he⟩ := hres.mpr hnone
        cases he
      obtain rfl := hi.eq_of_lt_succ hj (not_looksBusy_of_showsIdle hidle)
      exact ⟨j, hi, hidle⟩
    · -- the budget was used up, and still it did not fail
      have hres := h.result _ _ hexec
      have hnone : ¬ ∃ i < 100, ShowsIdle bit (answers i) := by
        rintro ⟨i, hi, hidle⟩
        exact not_looksBusy_of_showsIdle hidle (hbusy i hi)
      obtain ⟨e, he⟩ := hres.mpr hnone
      cases he
  · rintro ⟨i, hi, hidle⟩
    constructor
    · intro c polls hexec
      rcases @exec_isRwDone reg bit answers with ⟨j, hj, hexec'⟩ | ⟨hbusy, -⟩
      · obtain ⟨rfl, rfl⟩ := Prod.mk.inj (hexec.symm.trans hexec')
        obtain rfl := hi.unique hj
        constructor
        · rintro ⟨e, he⟩
          cases he
        · intro hnone
          exact absurd ⟨i, Nat.lt_succ_self i, hidle⟩ hnone
      · exact absurd (hbusy i hi.lt) hi.holds
    · intro hbusy
      obtain ⟨v, hv, hset⟩ := hbusy i
      obtain ⟨w, hw, hclear⟩ := hidle
      rw [hv] at hw
      cases hw
      rw [hset] at hclear
      cases hclear

/-- A device whose addend register never gets ready: the wait succeeds, and so does the handshake. -/
theorem not_busyWaitRight_stuck : ¬ BusyWaitRight (ptpPhy 250000000)
    ((ptpPhy 250000000).gmacfBaseAddr + timestampControlL) tsaddregPos (fun _ => .ok 0xFFFF) := by
  intro h
  have hreports := h.handshakes (fun _ => ⟨0xFFFF, rfl, rfl⟩) (.writeAddend 1) rfl rfl
  exact not_reportsBusy _ hreports

end Right

end Gpy2xx
