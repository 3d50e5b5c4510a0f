import Mathlib.Data.List.Nodup
import MxlUtils.Gphy.Renegotiation
import MxlUtils.Gphy.Init
import MxlUtils.Gphy.ForcedSpeed

/- The advertisement registers. A table gives each link mode a bit; `config_advert` writes the
   tables of three registers, and `read_advertising` reads them back. What is read is what was to
   be advertised, the gigabit modes where the device has them; the result tells whether a mode was
   changed; and calling it again changes nothing. Forcing a speed goes over the same register: its
   pause bits can only be switched on that way, and switching them off takes the modes of 10 Mbps
   from the advertisement instead. -/
namespace Gpy2xx
open Effect Effect.Fallible Effect.Lock Bits

/-! ## Tables of modes -/

/-- Link modes with their places in a register. -/
abbrev ModeTable := List (LinkMode × Nat)

namespace ModeTable

/-- As `config_advert` writes it. -/
def toWrite (t : ModeTable) : List (LinkMode × BitVec 16) := t.map fun e => (e.1, 1#16 <<< e.2)

/-- As `read_advertising` reads it. -/
def toRead (t : ModeTable) : List (BitVec 16 × LinkMode) := t.map fun e => (1#16 <<< e.2, e.1)

/-- The modes of a table, as a set. -/
def modes (t : ModeTable) : BitVec 64 := t.foldl (fun s e => s ||| 1#64 <<< e.1.bit) 0

/-- The places are different ones of the register, as the modes are, and `mask` covers them. -/
structure Fits (t : ModeTable) (mask : BitVec 16) : Prop where
  nodup : (t.map Prod.snd).Nodup
  distinct : (t.map fun e => e.1.bit).Nodup
  covered : ∀ e ∈ t, e.2 < 16 ∧ mask.getLsbD e.2 = true

end ModeTable

def anAdvTable : ModeTable :=
  [(.t10Half, 5), (.t10Full, 6), (.t100Half, 7), (.t100Full, 8), (.pause, 10), (.asymPause, 11)]

def gctrlTable : ModeTable := [(.t1000Half, 8), (.t1000Full, 9)]

def mgbtTable : ModeTable := [(.t2500Full, 7), (.t5000Full, 8), (.t2500Fr, 5), (.t5000Fr, 6)]

theorem fits_anAdvTable : anAdvTable.Fits 0xFE0 := ⟨by decide, by decide, by decide⟩

theorem fits_gctrlTable : gctrlTable.Fits 0x300 := ⟨by decide, by decide, by decide⟩

theorem fits_mgbtTable : mgbtTable.Fits 0x1E0 := ⟨by decide, by decide, by decide⟩

section Tables
variable {t : ModeTable} {mask old val : BitVec 16} {modes acc : BitVec 64}

theorem getLsbD_foldl_write (bits : List (LinkMode × BitVec 16)) (i : Nat) :
    (bits.foldl (fun adv m => if modes.getLsbD m.1.bit then adv ||| m.2 else adv) old).getLsbD i =
      (old.getLsbD i || bits.any fun m => modes.getLsbD m.1.bit && m.2.getLsbD i) := by
  induction bits generalizing old with
  | nil => simp
  | cons m bits ih =>
    rw [List.foldl_cons, ih, List.any_cons]
    by_cases h : modes.getLsbD m.1.bit
    · simp [h, Bool.or_assoc]
    · simp [h]

/-- A bit of the register after the table is written: an old one outside the mask, or that of a mode. -/
theorem getLsbD_advertised (i : Nat) (hi : i < 16) : (advertised modes mask t.toWrite old).getLsbD i =
    (old.getLsbD i && !mask.getLsbD i || t.any fun e => modes.getLsbD e.1.bit && e.2 == i) := by
  have hbit : ∀ e : LinkMode × Nat, (1#16 <<< e.2).getLsbD i = (e.2 == i) := by
    intro e
    rw [getLsbD_one_shiftLeft]
    by_cases h : e.2 = i
    · simp [h, hi]
    · simp [h, hi, Ne.symm h]
  rw [advertised, getLsbD_foldl_write, ModeTable.toWrite, List.any_map]
  simp only [Function.comp_def]
  rw [BitVec.getLsbD_and, BitVec.getLsbD_not]
  have hany : (t.any fun e => modes.getLsbD e.1.bit && (1#16 <<< e.2).getLsbD i) =
      t.any fun e => modes.getLsbD e.1.bit && e.2 == i := by simp only [hbit]
  simp only [hi, decide_true, Bool.true_and]
  exact congrArg _ hany

/-- A mode is in the register when the table has been written exactly if it was to be there. -/
theorem getLsbD_written (h : t.Fits mask) {e : LinkMode × Nat} (he : e ∈ t) :
    (advertised modes mask t.toWrite old).getLsbD e.2 = modes.getLsbD e.1.bit := by
  obtain ⟨hlt, hmask⟩ := h.covered e he
  rw [getLsbD_advertised e.2 hlt, hmask]
  simp only [Bool.not_true, Bool.and_false, Bool.false_or]
  -- No other mode has this place.
  have honly : ∀ e' ∈ t, e'.2 = e.2 → e' = e := by
    intro e' he' hplace
    exact List.inj_on_of_nodup_map h.nodup he' he hplace
  by_cases hbit : modes.getLsbD e.1.bit = true
  · rw [hbit, List.any_eq_true]
    exact ⟨e, he, by simp [hbit]⟩
  · rw [Bool.not_eq_true] at hbit
    rw [hbit, List.any_eq_false]
    intro e' he'
    by_cases hplace : e'.2 = e.2
    · simp [honly e' he' hplace, hbit]
    · simp [hplace]

theorem getLsbD_modes (k : Nat) (hk : k < 64) : t.modes.getLsbD k = t.any fun e => e.1.bit == k := by
  have hfold : ∀ s : BitVec 64, (t.foldl (fun s e => s ||| 1#64 <<< e.1.bit) s).getLsbD k =
      (s.getLsbD k || t.any fun e => e.1.bit == k) := by
    intro s
    induction t generalizing s with
    | nil => simp
    | cons e t ih =>
      rw [List.foldl_cons, ih, List.any_cons, BitVec.getLsbD_or, getLsbD_one_shiftLeft]
      by_cases h : k = e.1.bit
      · simp [h, h ▸ hk]
      · simp [h, beq_false_of_ne (Ne.symm h)]
  rw [ModeTable.modes, hfold]
  simp

/-- A mode as a set, in the words of `withModes`. -/
theorem getLsbD_modeBit (b k : Nat) : ((1 <<< b : Nat) : BitVec 64).getLsbD k = (1#64 <<< b).getLsbD k := by
  rw [getLsbD_one_shiftLeft, BitVec.natCast_eq_ofNat, BitVec.getLsbD_ofNat, Nat.one_shiftLeft, Nat.testBit_two_pow,
    Bool.and_comm]
  simp only [eq_comm]

theorem and_bit_ne_zero {k : Nat} (hk : k < 16) : val &&& 1#16 <<< k ≠ 0 ↔ val.getLsbD k = true := by
  rw [show (1#16 <<< k) = BitVec.twoPow 16 k from (BitVec.twoPow_eq 16 k).symm, BitVec.and_twoPow]
  by_cases hbit : val.getLsbD k = true
  · have hne : BitVec.twoPow 16 k ≠ 0#16 := by
      intro hzero
      have hget := congrArg (BitVec.getLsbD · k) hzero
      simp [hk] at hget
    simp [hbit, hne]
  · simp [hbit]

theorem getLsbD_withModes (ht : ∀ e ∈ t, e.2 < 16) (k : Nat) (hk : k < 64) :
    (withModes t.toRead val acc).getLsbD k = (acc.getLsbD k || t.any fun e => val.getLsbD e.2 && e.1.bit == k) := by
  rw [withModes, ModeTable.toRead]
  induction t generalizing acc with
  | nil => simp
  | cons e t ih =>
    have hplace := @and_bit_ne_zero val _ (ht e (by simp))
    rw [List.map_cons, List.foldl_cons, ih fun e' he' => ht e' (by simp [he']), List.any_cons]
    simp only [hplace]
    by_cases hbit : val.getLsbD e.2 = true
    · rw [if_pos hbit, BitVec.getLsbD_or, getLsbD_modeBit, getLsbD_one_shiftLeft, hbit]
      by_cases h : k = e.1.bit
      · simp [h, h ▸ hk]
      · simp [h, beq_false_of_ne (Ne.symm h)]
    · rw [if_neg hbit]
      simp [hbit]

/-- What is read from a register is what was written to it, as far as it is in the table. -/
theorem withModes_advertised (h : t.Fits mask) :
    withModes t.toRead (advertised modes mask t.toWrite old) acc = acc ||| modes &&& t.modes := by
  apply BitVec.eq_of_getLsbD_eq
  intro k hk
  rw [getLsbD_withModes (fun e he => (h.covered e he).1) k hk, BitVec.getLsbD_or, BitVec.getLsbD_and,
    getLsbD_modes k hk]
  congr 1
  have hany : (t.any fun e => (advertised modes mask t.toWrite old).getLsbD e.2 && e.1.bit == k) =
      t.any fun e => modes.getLsbD k && e.1.bit == k := by
    rw [Bool.eq_iff_iff, List.any_eq_true, List.any_eq_true]
    refine exists_congr fun e => and_congr_right fun he => ?_
    rw [getLsbD_written h he]
    by_cases hbit : e.1.bit = k
    · simp [hbit]
    · simp [hbit]
  rw [hany]
  cases modes.getLsbD k <;> simp

/-- Only the bits of the mask are written. -/
theorem advertised_outside (h : t.Fits mask) :
    advertised modes mask t.toWrite old &&& ~~~mask = old &&& ~~~mask := by
  apply BitVec.eq_of_getLsbD_eq
  intro i hi
  rw [BitVec.getLsbD_and, BitVec.getLsbD_and, getLsbD_advertised i hi, BitVec.getLsbD_not]
  by_cases hmask : mask.getLsbD i = true
  · simp [hmask]
  · have hnone : (t.any fun e => modes.getLsbD e.1.bit && e.2 == i) = false := by
      rw [List.any_eq_false]
      intro e he
      have hne : e.2 ≠ i := by
        rintro rfl
        exact hmask (h.covered e he).2
      simp [hne]
    simp [hmask, hnone]

/-- Writing a table twice is writing it once. -/
theorem advertised_advertised : advertised modes mask t.toWrite (advertised modes mask t.toWrite old) =
    advertised modes mask t.toWrite old := by
  apply BitVec.eq_of_getLsbD_eq
  intro i hi
  rw [getLsbD_advertised i hi, getLsbD_advertised i hi]
  cases old.getLsbD i <;> cases mask.getLsbD i <;> cases t.any _ <;> rfl

/-- A mode is shown where its bit is on. -/
theorem getLsbD_withModes_zero (h : t.Fits mask) {e : LinkMode × Nat} (he : e ∈ t) :
    (withModes t.toRead val 0#64).getLsbD e.1.bit = val.getLsbD e.2 := by
  have hk : e.1.bit < 64 := by cases e.1 <;> decide
  rw [getLsbD_withModes (fun e he => (h.covered e he).1) _ hk, BitVec.getLsbD_zero, Bool.false_or]
  have honly : ∀ e' ∈ t, e'.1.bit = e.1.bit → e' = e := by
    intro e' he' hbit
    exact List.inj_on_of_nodup_map h.distinct he' he hbit
  by_cases hval : val.getLsbD e.2 = true
  · rw [hval, List.any_eq_true]
    exact ⟨e, he, by simp [hval]⟩
  · rw [Bool.not_eq_true] at hval
    rw [hval, List.any_eq_false]
    intro e' he'
    by_cases hbit : e'.1.bit = e.1.bit
    · simp [honly e' he' hbit, hval]
    · simp [hbit]

theorem withModes_eq_or : withModes t.toRead val acc = acc ||| withModes t.toRead val 0#64 := by
  rw [withModes, withModes]
  generalize t.toRead = l
  induction l generalizing acc with
  | nil => simp
  | cons m l ih =>
    rw [List.foldl_cons, List.foldl_cons, ih, @ih (if val &&& m.1 ≠ 0 then _ else 0#64), ← BitVec.or_assoc]
    split <;> simp

/-- Only modes of the table are shown. -/
theorem withModes_and_modes (h : t.Fits mask) :
    withModes t.toRead val 0#64 &&& t.modes = withModes t.toRead val 0#64 := by
  apply BitVec.eq_of_getLsbD_eq
  intro k hk
  rw [BitVec.getLsbD_and, getLsbD_withModes (fun e he => (h.covered e he).1) k hk, getLsbD_modes k hk,
    BitVec.getLsbD_zero, Bool.false_or, Bool.and_eq_left_iff_imp, List.any_eq_true, List.any_eq_true]
  intro hshown
  obtain ⟨e, he, hbit⟩ := hshown
  exact ⟨e, he, (Bool.and_eq_true_iff.mp hbit).2⟩

/-- The bits of the mask that belong to no mode. -/
def spare (t : ModeTable) (mask val : BitVec 16) : Prop :=
  ∃ i, mask.getLsbD i = true ∧ val.getLsbD i = true ∧ ∀ e ∈ t, e.2 ≠ i

/-- Writing a table changes the register exactly if other modes are to be shown, or a bit is on that
belongs to no mode. -/
theorem advertised_ne_iff (h : t.Fits mask) : advertised modes mask t.toWrite old ≠ old ↔
    withModes t.toRead old 0#64 ≠ modes &&& t.modes ∨ spare t mask old := by
  rw [← not_iff_not, not_or, not_not, not_not]
  constructor
  · intro hsame
    refine ⟨?_, ?_⟩
    · rw [← BitVec.zero_or (x := modes &&& t.modes), ← withModes_advertised h, hsame]
    · intro hspare
      obtain ⟨i, hmask, hold, hfree⟩ := hspare
      have hnew := congrArg (BitVec.getLsbD · i) hsame
      have hnone : (t.any fun e => modes.getLsbD e.1.bit && e.2 == i) = false := by
        rw [List.any_eq_false]
        intro e he
        simp [hfree e he]
      simp [getLsbD_advertised i (BitVec.lt_of_getLsbD hmask), hmask, hnone, hold] at hnew
  · intro hshown
    obtain ⟨hmodes, hspare⟩ := hshown
    apply BitVec.eq_of_getLsbD_eq
    intro i hi
    by_cases hplace : ∃ e ∈ t, e.2 = i
    · obtain ⟨e, he, rfl⟩ := hplace
      have hbit := congrArg (BitVec.getLsbD · e.1.bit) hmodes
      have hk : e.1.bit < 64 := by cases e.1 <;> decide
      have hmem : t.modes.getLsbD e.1.bit = true := by
        rw [getLsbD_modes _ hk, List.any_eq_true]
        exact ⟨e, he, beq_self_eq_true _⟩
      simp only [getLsbD_withModes_zero h he, BitVec.getLsbD_and, hmem, Bool.and_true] at hbit
      rw [getLsbD_written h he, hbit]
    · have hnone : (t.any fun e => modes.getLsbD e.1.bit && e.2 == i) = false := by
        rw [List.any_eq_false]
        intro e he
        have hne : e.2 ≠ i := fun heq => hplace ⟨e, he, heq⟩
        simp [hne]
      rw [getLsbD_advertised i hi, hnone, Bool.or_false]
      by_cases hold : old.getLsbD i = true
      · have hmask : mask.getLsbD i ≠ true := by
          intro hmask
          exact hspare ⟨i, hmask, hold, fun e he heq => hplace ⟨e, he, heq⟩⟩
        simp [hold, hmask]
      · simp [hold]

end Tables

/-! ## The registers in terms of the tables -/

theorem anAdvOf_eq (modes : BitVec 64) : anAdvOf modes = advertised modes 0xFE0 anAdvTable.toWrite := by
  rw [anAdvOf]
  exact congrArg _ (by decide)

theorem gctrlOf_eq (modes : BitVec 64) : gctrlOf modes = advertised modes 0x300 gctrlTable.toWrite := by
  rw [gctrlOf]
  exact congrArg _ (by decide)

theorem mgbtOf_eq (modes : BitVec 64) : mgbtOf modes = advertised modes 0x1E0 mgbtTable.toWrite := by
  rw [mgbtOf]
  exact congrArg _ (by decide)

theorem msCleared_eq (gctrl : BitVec 16) : msCleared gctrl = gctrl &&& ~~~0x1800 := by
  have hset : ∀ f : Field 16, f.set 0#16 = 0#16 := fun f => by simp [Field.set]
  show (gctrl &&& ~~~0x1000#16 ||| gctrlMsen.set 0#16) &&& ~~~0x800#16 ||| gctrlMs.set 0#16 = _
  rw [hset, hset, BitVec.or_zero, BitVec.or_zero, BitVec.and_assoc]
  rfl

theorem msCleared_msCleared (gctrl : BitVec 16) : msCleared (msCleared gctrl) = msCleared gctrl := by
  rw [msCleared_eq, msCleared_eq, BitVec.and_assoc, BitVec.and_self]

theorem getLsbD_msCleared_of_gctrl {e : LinkMode × Nat} (he : e ∈ gctrlTable) (gctrl : BitVec 16) :
    (msCleared gctrl).getLsbD e.2 = gctrl.getLsbD e.2 := by
  have hoff : ∀ e ∈ gctrlTable, (~~~0x1800 : BitVec 16).getLsbD e.2 = true := by decide
  rw [msCleared_eq, BitVec.getLsbD_and, hoff e he, Bool.and_true]

/-- The gigabit modes do not depend on the master/slave bits. -/
theorem withModes_msCleared (gctrl : BitVec 16) :
    withModes gctrlTable.toRead (msCleared gctrl) 0#64 = withModes gctrlTable.toRead gctrl 0#64 := by
  apply BitVec.eq_of_getLsbD_eq
  intro k hk
  rw [getLsbD_withModes (fun e he => (fits_gctrlTable.covered e he).1) k hk,
    getLsbD_withModes (fun e he => (fits_gctrlTable.covered e he).1) k hk]
  congr 1
  rw [Bool.eq_iff_iff, List.any_eq_true, List.any_eq_true]
  refine exists_congr fun e => and_congr_right fun he => ?_
  rw [getLsbD_msCleared_of_gctrl he]

/-- Writing the gigabit modes and clearing the master/slave bits do not meet. -/
theorem msCleared_gctrlOf (modes : BitVec 64) (gctrl : BitVec 16) :
    msCleared (gctrlOf modes (msCleared gctrl)) = gctrlOf modes (msCleared gctrl) := by
  rw [gctrlOf_eq, msCleared_eq]
  apply BitVec.eq_of_getLsbD_eq
  intro i hi
  rw [BitVec.getLsbD_and, getLsbD_advertised i hi, msCleared_eq, BitVec.getLsbD_and]
  by_cases hms : (~~~0x1800 : BitVec 16).getLsbD i = true
  · rw [hms, Bool.and_true]
  · have hplace : ∀ e ∈ gctrlTable, e.2 ≠ i := by
      intro e he heq
      have hoff : ∀ e ∈ gctrlTable, (~~~0x1800 : BitVec 16).getLsbD e.2 = true := by decide
      exact hms (heq ▸ hoff e he)
    have hnone : (gctrlTable.any fun e => modes.getLsbD e.1.bit && e.2 == i) = false := by
      rw [List.any_eq_false]
      intro e he
      simp [hplace e he]
    rw [Bool.not_eq_true] at hms
    rw [hms, hnone, Bool.and_false, Bool.and_false, Bool.false_and, Bool.or_false]

/-! ## What the registers show -/

/-- The status register has an extension. -/
def Regs.hasExt (s : Regs) : Bool := s.phy stdStat &&& statExt != 0

/-- The modes the registers show, from `old`. -/
def Regs.anAdvShown (s : Regs) : BitVec 64 := withModes anAdvTable.toRead (s.phy stdAnAdv) 0#64
def Regs.gctrlShown (s : Regs) : BitVec 64 :=
  if s.hasExt then withModes gctrlTable.toRead (s.phy stdGctrl) 0#64 else 0#64
def Regs.mgbtShown (s : Regs) : BitVec 64 := withModes mgbtTable.toRead (s.mmd .an anegMgbtAnCtrl) 0#64

/-- The flag of `read_advertising` that is no mode. -/
def Regs.autonegFlag (s : Regs) : BitVec 64 := if s.mmd .an anegStat &&& 0x8 ≠ 0 then supportedAutoneg else 0#64

/-- What `read_advertising` answers. -/
def Regs.shown (s : Regs) : BitVec 64 := s.anAdvShown ||| s.gctrlShown ||| s.mgbtShown ||| s.autonegFlag

/-- The modes that have a place in a register. -/
def Regs.advertisable (s : Regs) : BitVec 64 :=
  anAdvTable.modes ||| (if s.hasExt then gctrlTable.modes else 0#64) ||| mgbtTable.modes

theorem exec_readAdvertisingG (s : Regs) (modes : BitVec 64) :
    (readAdvertisingG modes).exec memHandler s = (.ok (modes ||| s.gctrlShown), s) := by
  rw [readAdvertisingG, exec_bind_ok (exec_phyRead s stdStat), exec_ite]
  by_cases hext : s.phy stdStat &&& statExt ≠ 0
  · rw [if_pos hext, exec_bind_ok (exec_phyRead s stdGctrl), exec_pure, Regs.gctrlShown, Regs.hasExt,
      if_pos (bne_iff_ne.mpr hext)]
    exact congrArg (fun modes => (Except.ok modes, s)) (@withModes_eq_or gctrlTable _ _)
  · rw [if_neg hext, exec_pure, Regs.gctrlShown, Regs.hasExt, if_neg fun h => hext (bne_iff_ne.mp h),
      BitVec.or_zero]

theorem exec_readAdvertising (s : Regs) : readAdvertising.exec memHandler s = (.ok s.shown, s) := by
  have hflag : (if s.mmd .an anegStat &&& 0x8 ≠ 0 then s.anAdvShown ||| supportedAutoneg else s.anAdvShown) =
      s.anAdvShown ||| s.autonegFlag := by
    rw [Regs.autonegFlag]
    split
    · rfl
    · exact BitVec.or_zero.symm
  calc readAdvertising.exec memHandler s
      = (.ok (withModes mgbtTable.toRead (s.mmd .an anegMgbtAnCtrl)
          ((if s.mmd .an anegStat &&& 0x8 ≠ 0 then s.anAdvShown ||| supportedAutoneg else s.anAdvShown) |||
            s.gctrlShown)), s) := by
        rw [readAdvertising, exec_bind_ok (exec_phyRead s stdAnAdv), exec_bind_ok (exec_phyReadMmd s .an anegStat),
          exec_bind_ok (exec_readAdvertisingG s _), exec_bind_ok (exec_phyReadMmd s .an anegMgbtAnCtrl)]
        rfl
    _ = (.ok s.shown, s) := by
        rw [hflag, @withModes_eq_or mgbtTable, Regs.shown, Regs.mgbtShown]
        congr 2
        ac_rfl

/-! ## Programming them -/

theorem setPhy_self (s : Regs) (reg : Nat) : s.setPhy reg (s.phy reg) = s := by
  rw [Regs.setPhy, Function.update_eq_self]

@[simp] theorem phy_setPhy (s : Regs) (reg : Nat) (v : BitVec 16) : (s.setPhy reg v).phy reg = v :=
  Function.update_self ..

theorem exec_updateChanged (s : Regs) (reg : Nat) (f : BitVec 16 → BitVec 16) :
    (updateChanged reg f).exec memHandler s =
      (.ok (decide (f (s.phy reg) ≠ s.phy reg)), s.setPhy reg (f (s.phy reg))) := by
  rw [updateChanged, exec_bind_ok (exec_phyRead s reg), exec_ite]
  by_cases hchange : f (s.phy reg) ≠ s.phy reg
  · rw [if_pos hchange, exec_bind_ok (exec_phyWrite s reg _), exec_pure, decide_eq_true hchange]
    rfl
  · rw [if_neg hchange, exec_pure, decide_eq_false hchange, not_not.mp hchange, setPhy_self]

/-- The registers with other advertisements. -/
def Regs.setAdvert (s : Regs) (anAdv gctrl mgbt : BitVec 16) : Regs :=
  { (s.setPhy stdGctrl gctrl).setPhy stdAnAdv anAdv with
    mmd := Function.update s.mmd .an (Function.update (s.mmd .an) anegMgbtAnCtrl mgbt) }

section Programmed
variable (modes : BitVec 64) (s : Regs)

/-- 1000BASE-T control as it is left. -/
def gctrlAfter : BitVec 16 :=
  if s.hasExt then gctrlOf modes (msCleared (s.phy stdGctrl)) else msCleared (s.phy stdGctrl)

/-- The registers as they are left. -/
def advertAfter : Regs :=
  s.setAdvert (anAdvOf modes (s.phy stdAnAdv)) (gctrlAfter modes s) (mgbtOf modes (s.mmd .an anegMgbtAnCtrl))

/-- A field that `config_advert` compares is changed. -/
def AdvertChanged : Prop :=
  anAdvOf modes (s.phy stdAnAdv) ≠ s.phy stdAnAdv ∨
    (s.hasExt = true ∧ gctrlOf modes (msCleared (s.phy stdGctrl)) ≠ msCleared (s.phy stdGctrl)) ∨
    mgbtOf modes (s.mmd .an anegMgbtAnCtrl) ≠ s.mmd .an anegMgbtAnCtrl

instance : Decidable (AdvertChanged modes s) := inferInstanceAs (Decidable (_ ∨ _))

end Programmed

theorem exec_updateGctrl (s : Regs) (modes : BitVec 64) : (updateGctrl modes).exec memHandler s =
    (.ok (decide (s.hasExt = true ∧ gctrlOf modes (s.phy stdGctrl) ≠ s.phy stdGctrl)),
      s.setPhy stdGctrl (if s.hasExt then gctrlOf modes (s.phy stdGctrl) else s.phy stdGctrl)) := by
  rw [updateGctrl, exec_bind_ok (exec_phyRead s stdStat), exec_ite]
  by_cases hext : s.phy stdStat &&& statExt ≠ 0
  · have hbit : s.hasExt = true := bne_iff_ne.mpr hext
    rw [if_pos hext, exec_updateChanged, hbit, if_pos rfl]
    simp only [true_and]
  · have hbit : s.hasExt = false := bne_eq_false_iff_eq.mpr (not_not.mp hext)
    rw [if_neg hext, exec_pure, hbit, if_neg Bool.false_ne_true, setPhy_self]
    simp only [Bool.false_eq_true, false_and, decide_false]

theorem exec_updateMgbt (s : Regs) (modes : BitVec 64) (changed : Bool) :
    (updateMgbt modes changed).exec memHandler s =
      (.ok (changed || decide (mgbtOf modes (s.mmd .an anegMgbtAnCtrl) ≠ s.mmd .an anegMgbtAnCtrl)).toNat,
        { s with mmd := Function.update s.mmd .an (Function.update (s.mmd .an) anegMgbtAnCtrl
          (mgbtOf modes (s.mmd .an anegMgbtAnCtrl))) }) := by
  rw [updateMgbt, exec_bind_ok (exec_phyReadMmd s .an anegMgbtAnCtrl), exec_ite]
  by_cases hchange : mgbtOf modes (s.mmd .an anegMgbtAnCtrl) ≠ s.mmd .an anegMgbtAnCtrl
  · rw [if_pos hchange, exec_bind_ok (exec_attempt _ _ s), exec_phyWriteMmd, decide_eq_true hchange, Bool.or_true]
    rfl
  · rw [if_neg hchange, exec_pure, decide_eq_false hchange, Bool.or_false, not_not.mp hchange,
      Function.update_eq_self, Function.update_eq_self]

theorem exec_clearMs (s : Regs) :
    clearMs.exec memHandler s = (.ok (), s.setPhy stdGctrl (msCleared (s.phy stdGctrl))) := by
  rw [clearMs, exec_bind_ok (exec_phyRead s stdGctrl), exec_phyWrite]
  rfl

theorem setPhy_setAdvert (s : Regs) (gctrl anAdv gctrl' mgbt : BitVec 16) :
    ({ ((s.setPhy stdGctrl gctrl).setPhy stdAnAdv anAdv).setPhy stdGctrl gctrl' with
      mmd := Function.update s.mmd .an (Function.update (s.mmd .an) anegMgbtAnCtrl mgbt) } : Regs) =
      s.setAdvert anAdv gctrl' mgbt := by
  rw [Regs.setAdvert, Regs.setPhy, Regs.setPhy, Regs.setPhy, Regs.setPhy, Regs.setPhy,
    Function.update_comm (show stdAnAdv ≠ stdGctrl by decide), Function.update_idem]

theorem exec_configAdvert (s : Regs) (link : Link) :
    (gpy2xxConfigAdvert link).exec lockedMem s =
      (.ok (decide (AdvertChanged link.narrowed.advertising s)).toNat, advertAfter link.narrowed.advertising s) := by
  rw [gpy2xxConfigAdvert, exec_locked, configAdvert, exec_bind_ok (exec_clearMs s),
    exec_bind_ok (exec_updateChanged _ _ _), exec_bind_ok (exec_updateGctrl _ _), exec_updateMgbt]
  generalize link.narrowed.advertising = modes
  rw [Bool.or_assoc, ← Bool.decide_or, ← Bool.decide_or]
  exact congrArg (Prod.mk _) (setPhy_setAdvert s _ _ _ _)

/-! ## Exactness -/

section Exact
variable (modes : BitVec 64) (s : Regs)

theorem hasExt_advertAfter : (advertAfter modes s).hasExt = s.hasExt := rfl

theorem anAdvShown_advertAfter : (advertAfter modes s).anAdvShown = modes &&& anAdvTable.modes := by
  show withModes anAdvTable.toRead (anAdvOf modes (s.phy stdAnAdv)) 0#64 = _
  rw [anAdvOf_eq, withModes_advertised fits_anAdvTable, BitVec.zero_or]

theorem gctrlShown_advertAfter :
    (advertAfter modes s).gctrlShown = modes &&& (if s.hasExt then gctrlTable.modes else 0#64) := by
  rw [Regs.gctrlShown, hasExt_advertAfter]
  cases hext : s.hasExt with
  | false => exact BitVec.and_zero.symm
  | true =>
    show withModes gctrlTable.toRead (gctrlAfter modes s) 0#64 = modes &&& gctrlTable.modes
    rw [gctrlAfter, hext, if_pos rfl, gctrlOf_eq, withModes_advertised fits_gctrlTable, BitVec.zero_or]

theorem mgbtShown_advertAfter : (advertAfter modes s).mgbtShown = modes &&& mgbtTable.modes := by
  show withModes mgbtTable.toRead (mgbtOf modes (s.mmd .an anegMgbtAnCtrl)) 0#64 = _
  rw [mgbtOf_eq, withModes_advertised fits_mgbtTable, BitVec.zero_or]

theorem shown_advertAfter : (advertAfter modes s).shown = modes &&& s.advertisable ||| s.autonegFlag := by
  rw [Regs.shown, anAdvShown_advertAfter, gctrlShown_advertAfter, mgbtShown_advertAfter, Regs.advertisable,
    BitVec.and_or_distrib_left, BitVec.and_or_distrib_left]
  rfl

end Exact

/-! ### What counts as a change -/

theorem spare_anAdvTable (v : BitVec 16) : spare anAdvTable 0xFE0 v ↔ v.getLsbD 9 = true := by
  constructor
  · intro h
    obtain ⟨i, hmask, hval, hfree⟩ := h
    have honly : ∀ i < 16, (0xFE0#16).getLsbD i = true → (∀ e ∈ anAdvTable, e.2 ≠ i) → i = 9 := by decide
    rwa [honly i (BitVec.lt_of_getLsbD hmask) hmask hfree] at hval
  · intro h
    exact ⟨9, by decide, h, by decide⟩

theorem not_spare_gctrlTable (v : BitVec 16) : ¬spare gctrlTable 0x300 v := by
  intro h
  obtain ⟨i, hmask, -, hfree⟩ := h
  have hnone : ∀ i < 16, (0x300#16).getLsbD i = true → ¬∀ e ∈ gctrlTable, e.2 ≠ i := by decide
  exact hnone i (BitVec.lt_of_getLsbD hmask) hmask hfree

theorem not_spare_mgbtTable (v : BitVec 16) : ¬spare mgbtTable 0x1E0 v := by
  intro h
  obtain ⟨i, hmask, -, hfree⟩ := h
  have hnone : ∀ i < 16, (0x1E0#16).getLsbD i = true → ¬∀ e ∈ mgbtTable, e.2 ≠ i := by decide
  exact hnone i (BitVec.lt_of_getLsbD hmask) hmask hfree

/-- Sets of apart masks have nothing in common. -/
theorem and_eq_zero_of_apart {x m m' : BitVec 64} (hx : x &&& m = x) (hm : m &&& m' = 0#64) : x &&& m' = 0#64 := by
  rw [← hx, BitVec.and_assoc, hm, BitVec.and_zero]

section Parts
variable (s : Regs)

theorem anAdvShown_and : s.anAdvShown &&& anAdvTable.modes = s.anAdvShown := withModes_and_modes fits_anAdvTable

theorem mgbtShown_and : s.mgbtShown &&& mgbtTable.modes = s.mgbtShown := withModes_and_modes fits_mgbtTable

theorem gctrlShown_and : s.gctrlShown &&& gctrlTable.modes = s.gctrlShown := by
  rw [Regs.gctrlShown]
  split
  · exact withModes_and_modes fits_gctrlTable
  · exact BitVec.zero_and

theorem autonegFlag_and : s.autonegFlag &&& supportedAutoneg = s.autonegFlag := by
  rw [Regs.autonegFlag]
  split
  · exact BitVec.and_self
  · exact BitVec.zero_and

/-- The places of the modes in the answer are apart, so each register can be told from it. -/
theorem anAdvShown_of_shown : s.shown &&& anAdvTable.modes = s.anAdvShown := by
  rw [Regs.shown, BitVec.and_or_distrib_right, BitVec.and_or_distrib_right, BitVec.and_or_distrib_right,
    anAdvShown_and, and_eq_zero_of_apart (gctrlShown_and s) (by decide),
    and_eq_zero_of_apart (mgbtShown_and s) (by decide), and_eq_zero_of_apart (autonegFlag_and s) (by decide),
    BitVec.or_zero, BitVec.or_zero, BitVec.or_zero]

theorem gctrlShown_of_shown : s.shown &&& gctrlTable.modes = s.gctrlShown := by
  rw [Regs.shown, BitVec.and_or_distrib_right, BitVec.and_or_distrib_right, BitVec.and_or_distrib_right,
    gctrlShown_and, and_eq_zero_of_apart (anAdvShown_and s) (by decide),
    and_eq_zero_of_apart (mgbtShown_and s) (by decide), and_eq_zero_of_apart (autonegFlag_and s) (by decide),
    BitVec.or_zero, BitVec.or_zero, BitVec.zero_or]

theorem mgbtShown_of_shown : s.shown &&& mgbtTable.modes = s.mgbtShown := by
  rw [Regs.shown, BitVec.and_or_distrib_right, BitVec.and_or_distrib_right, BitVec.and_or_distrib_right,
    mgbtShown_and, and_eq_zero_of_apart (anAdvShown_and s) (by decide),
    and_eq_zero_of_apart (gctrlShown_and s) (by decide), and_eq_zero_of_apart (autonegFlag_and s) (by decide),
    BitVec.or_zero, BitVec.or_zero, BitVec.zero_or]

end Parts

theorem shown_eq_iff_parts {s s' : Regs} (hflag : s'.autonegFlag = s.autonegFlag) : s'.shown = s.shown ↔
    s'.anAdvShown = s.anAdvShown ∧ s'.gctrlShown = s.gctrlShown ∧ s'.mgbtShown = s.mgbtShown := by
  constructor
  · intro h
    have hpart : ∀ m : BitVec 64, s'.shown &&& m = s.shown &&& m := fun m => by rw [h]
    refine ⟨?_, ?_, ?_⟩
    · rw [← anAdvShown_of_shown, ← anAdvShown_of_shown, hpart]
    · rw [← gctrlShown_of_shown, ← gctrlShown_of_shown, hpart]
    · rw [← mgbtShown_of_shown, ← mgbtShown_of_shown, hpart]
  · intro h
    obtain ⟨hanAdv, hgctrl, hmgbt⟩ := h
    rw [Regs.shown, Regs.shown, hanAdv, hgctrl, hmgbt, hflag]

/-- A change is one of the modes that are shown, or 100BASE-T4 was on, which no mode stands for. -/
theorem advertChanged_iff (modes : BitVec 64) (s : Regs) : AdvertChanged modes s ↔
    (advertAfter modes s).shown ≠ s.shown ∨ (s.phy stdAnAdv).getLsbD 9 = true := by
  have hanAdv : anAdvOf modes (s.phy stdAnAdv) ≠ s.phy stdAnAdv ↔
      (advertAfter modes s).anAdvShown ≠ s.anAdvShown ∨ (s.phy stdAnAdv).getLsbD 9 = true := by
    rw [anAdvOf_eq, advertised_ne_iff fits_anAdvTable, spare_anAdvTable, anAdvShown_advertAfter, ne_comm]
    rfl
  have hgctrl : (s.hasExt = true ∧ gctrlOf modes (msCleared (s.phy stdGctrl)) ≠ msCleared (s.phy stdGctrl)) ↔
      (advertAfter modes s).gctrlShown ≠ s.gctrlShown := by
    rw [gctrlShown_advertAfter, Regs.gctrlShown, gctrlOf_eq, advertised_ne_iff fits_gctrlTable, withModes_msCleared,
      or_iff_left (not_spare_gctrlTable _)]
    cases s.hasExt with
    | false => simp
    | true => simp [ne_comm]
  have hmgbt : mgbtOf modes (s.mmd .an anegMgbtAnCtrl) ≠ s.mmd .an anegMgbtAnCtrl ↔
      (advertAfter modes s).mgbtShown ≠ s.mgbtShown := by
    rw [mgbtOf_eq, advertised_ne_iff fits_mgbtTable, mgbtShown_advertAfter, ne_comm,
      or_iff_left (not_spare_mgbtTable _)]
    rfl
  have hshown : (advertAfter modes s).shown ≠ s.shown ↔ (advertAfter modes s).anAdvShown ≠ s.anAdvShown ∨
      (advertAfter modes s).gctrlShown ≠ s.gctrlShown ∨ (advertAfter modes s).mgbtShown ≠ s.mgbtShown := by
    have hflag : (advertAfter modes s).autonegFlag = s.autonegFlag := rfl
    rw [Ne, shown_eq_iff_parts hflag, not_and_or, not_and_or]
  rw [AdvertChanged, hanAdv, hgctrl, hmgbt, hshown]
  exact or_right_comm

/-! ### The whole call -/

/-- The bits of `STD_GCTRL` that the call owns: the master/slave bits, and the modes where there are any. -/
def Regs.gctrlOwned (s : Regs) : BitVec 16 := 0x1800 ||| if s.hasExt then 0x300 else 0

/-- Only the three registers change, and only where the call owns them. -/
structure OnlyAdvertises (s s' : Regs) : Prop where
  anAdv : s'.phy stdAnAdv &&& ~~~0xFE0 = s.phy stdAnAdv &&& ~~~0xFE0
  gctrl : s'.phy stdGctrl &&& ~~~s.gctrlOwned = s.phy stdGctrl &&& ~~~s.gctrlOwned
  masterSlave : s'.phy stdGctrl &&& 0x1800 = 0
  mgbt : s'.mmd .an anegMgbtAnCtrl &&& ~~~0x1E0 = s.mmd .an anegMgbtAnCtrl &&& ~~~0x1E0
  others : s' = s.setAdvert (s'.phy stdAnAdv) (s'.phy stdGctrl) (s'.mmd .an anegMgbtAnCtrl)

theorem msCleared_gctrlAfter (modes : BitVec 64) (s : Regs) : msCleared (gctrlAfter modes s) = gctrlAfter modes s := by
  rw [gctrlAfter]
  split
  · exact msCleared_gctrlOf modes _
  · exact msCleared_msCleared _

theorem gctrlAfter_outside (modes : BitVec 64) (s : Regs) :
    gctrlAfter modes s &&& ~~~s.gctrlOwned = s.phy stdGctrl &&& ~~~s.gctrlOwned := by
  rw [gctrlAfter, Regs.gctrlOwned, BitVec.not_or]
  cases s.hasExt with
  | false =>
    show msCleared (s.phy stdGctrl) &&& (~~~0x1800 &&& ~~~0) = s.phy stdGctrl &&& (~~~0x1800 &&& ~~~0)
    rw [msCleared_eq, BitVec.and_assoc, ← BitVec.and_assoc (~~~0x1800), BitVec.and_self]
  | true =>
    show gctrlOf modes (msCleared (s.phy stdGctrl)) &&& (~~~0x1800 &&& ~~~0x300) =
      s.phy stdGctrl &&& (~~~0x1800 &&& ~~~0x300)
    rw [gctrlOf_eq, BitVec.and_comm (~~~0x1800), ← BitVec.and_assoc, advertised_outside fits_gctrlTable,
      msCleared_eq]
    ac_rfl

theorem onlyAdvertises_advertAfter (modes : BitVec 64) (s : Regs) : OnlyAdvertises s (advertAfter modes s) where
  anAdv := by
    show anAdvOf modes (s.phy stdAnAdv) &&& _ = _
    rw [anAdvOf_eq, advertised_outside fits_anAdvTable]
  gctrl := gctrlAfter_outside modes s
  masterSlave := by
    show gctrlAfter modes s &&& _ = _
    rw [← msCleared_gctrlAfter, msCleared_eq, BitVec.and_assoc]
    exact BitVec.and_zero
  mgbt := by
    show mgbtOf modes (s.mmd .an anegMgbtAnCtrl) &&& _ = _
    rw [mgbtOf_eq, advertised_outside fits_mgbtTable]
  others := rfl

theorem setAdvert_setAdvert (s : Regs) (anAdv gctrl mgbt anAdv' gctrl' mgbt' : BitVec 16) :
    (s.setAdvert anAdv gctrl mgbt).setAdvert anAdv' gctrl' mgbt' = s.setAdvert anAdv' gctrl' mgbt' := by
  simp only [Regs.setAdvert, Regs.setPhy, Function.update_idem, Function.update_self,
    Function.update_comm (show stdAnAdv ≠ stdGctrl by decide)]

section Again
variable (modes : BitVec 64) (s : Regs)

theorem anAdvOf_anAdvOf (anAdv : BitVec 16) : anAdvOf modes (anAdvOf modes anAdv) = anAdvOf modes anAdv := by
  rw [anAdvOf_eq]
  exact advertised_advertised

theorem mgbtOf_mgbtOf (mgbt : BitVec 16) : mgbtOf modes (mgbtOf modes mgbt) = mgbtOf modes mgbt := by
  rw [mgbtOf_eq]
  exact advertised_advertised

theorem gctrlOf_gctrlAfter (hext : s.hasExt = true) : gctrlOf modes (gctrlAfter modes s) = gctrlAfter modes s := by
  rw [gctrlAfter, hext, if_pos rfl, gctrlOf_eq]
  exact advertised_advertised

/-- What has been programmed is no change. -/
theorem not_advertChanged_advertAfter : ¬AdvertChanged modes (advertAfter modes s) := by
  intro h
  obtain hanAdv | ⟨hext, hgctrl⟩ | hmgbt := h
  · exact hanAdv (anAdvOf_anAdvOf modes _)
  · apply hgctrl
    show gctrlOf modes (msCleared (gctrlAfter modes s)) = msCleared (gctrlAfter modes s)
    rw [msCleared_gctrlAfter, gctrlOf_gctrlAfter modes s hext]
  · exact hmgbt (mgbtOf_mgbtOf modes _)

theorem gctrlAfter_advertAfter : gctrlAfter modes (advertAfter modes s) = gctrlAfter modes s := by
  show (if s.hasExt then gctrlOf modes (msCleared (gctrlAfter modes s)) else msCleared (gctrlAfter modes s)) = _
  rw [msCleared_gctrlAfter]
  split
  · exact gctrlOf_gctrlAfter modes s ‹_›
  · rfl

/-- Programming the same modes twice. -/
theorem advertAfter_advertAfter : advertAfter modes (advertAfter modes s) = advertAfter modes s := by
  calc advertAfter modes (advertAfter modes s)
      = (advertAfter modes s).setAdvert (anAdvOf modes (anAdvOf modes (s.phy stdAnAdv))) (gctrlAfter modes s)
          (mgbtOf modes (mgbtOf modes (s.mmd .an anegMgbtAnCtrl))) :=
        congrArg ((advertAfter modes s).setAdvert _ · _) (gctrlAfter_advertAfter modes s)
    _ = advertAfter modes s := by
        rw [anAdvOf_anAdvOf, mgbtOf_mgbtOf]
        exact setAdvert_setAdvert s _ _ _ _ _ _

end Again

/-! ### Failures -/

/-- The write whose failure is not told: `config_advert` returns the value it wanted to write. -/
def writesMgbt : RegOp → Bool
  | .mmdWrite .an 0x20 _ => true
  | _ => false

/-- The failures that are told. -/
def Told (e : Event regSig) : Prop := refused e = true ∧ writesMgbt e.op = false

section Failures
variable {reg : Nat} {val : BitVec 16}

theorem told_access {α : Type} {o : RegOp} {g : regSig.Ret o → Except Errno α} (hother : writesMgbt o = false)
    (h : Fallible.FailsOn (fun e => refused e) (Fallible.ofProg (.call o fun a => .done (g a)) : Api α)) :
    Fallible.FailsOn Told (Fallible.ofProg (.call o fun a => .done (g a)) : Api α) := by
  intro t r hrun
  rw [h t r hrun]
  obtain ⟨a, _, rfl, rfl, -⟩ := (Fallible.runs_ofProg).mp hrun
  simp [Told, hother]

theorem told_phyRead : Fallible.FailsOn Told (phyRead reg) :=
  @told_access _ (.phyRead reg) id rfl failsOn_phyRead

theorem told_phyWrite : Fallible.FailsOn Told (phyWrite reg val) :=
  @told_access _ (.phyWrite reg val) id rfl failsOn_phyWrite

theorem told_phyReadMmd {devad : Mmd} : Fallible.FailsOn Told (phyReadMmd devad reg) :=
  @told_access _ (.mmdRead devad reg) id rfl failsOn_phyReadMmd

theorem told_updateChanged {f : BitVec 16 → BitVec 16} : Fallible.FailsOn Told (updateChanged reg f) := by
  apply Fallible.GoesOn.bind told_phyRead
  intro oldadv
  apply Fallible.GoesOn.ite
  · intro _
    exact .bind told_phyWrite fun _ => .pure trivial
  · intro _
    exact .pure trivial

theorem told_attempt_mgbt :
    Fallible.FailsOn Told (phyWriteMmd .an anegMgbtAnCtrl val).attempt := by
  intro t r hrun
  obtain ⟨c, hcall, rfl⟩ := (Fallible.runs_attempt).mp hrun
  obtain ⟨a, _, rfl, rfl, -⟩ := (Fallible.runs_ofProg).mp hcall
  simp [Told, writesMgbt, anegMgbtAnCtrl]

theorem told_updateMgbt {modes : BitVec 64} {changed : Bool} : Fallible.FailsOn Told (updateMgbt modes changed) := by
  apply Fallible.GoesOn.bind told_phyReadMmd
  intro oldadv
  apply Fallible.GoesOn.ite
  · intro _
    apply Fallible.GoesOn.bind told_attempt_mgbt
    intro ret
    cases ret <;> exact .pure trivial
  · intro _
    exact .pure trivial

theorem told_configAdvert {link : Link} : Lock.FailsOn Told (gpy2xxConfigAdvert link) := by
  apply Lock.FailsOn.locked
  apply Fallible.GoesOn.bind (.bind told_phyRead fun _ => told_phyWrite)
  intro _
  apply Fallible.GoesOn.bind told_updateChanged
  intro _
  apply Fallible.GoesOn.bind _ fun _ => told_updateMgbt
  apply Fallible.GoesOn.bind told_phyRead
  intro _
  apply Fallible.GoesOn.ite
  · intro _
    exact told_updateChanged
  · intro _
    exact .pure trivial

end Failures

/-- **Programming the advertisement.** For any settings: every failed access is told but for that of the last
write. Where the registers answer, whatever they hold, what `read_advertising` answers after `config_advert` is
what was to be advertised and can be; the result tells whether that is news, or 100BASE-T4 was on; no other bit
changes, but that the master/slave bits are cleared; and the same call again changes nothing. -/
theorem configAdvert_exact (link : Link) : Lock.FailsOn Told (gpy2xxConfigAdvert link) ∧ ∀ s, ∃ s',
    (gpy2xxConfigAdvert link).exec lockedMem s =
      (.ok (if s'.shown ≠ s.shown ∨ (s.phy stdAnAdv).getLsbD 9 = true then 1 else 0), s') ∧
    readAdvertising.exec memHandler s' =
      (.ok (link.advertising &&& link.supported &&& s.advertisable ||| s.autonegFlag), s') ∧
    OnlyAdvertises s s' ∧ (gpy2xxConfigAdvert link).exec lockedMem s' = (.ok 0, s') := by
  refine ⟨told_configAdvert, fun s => ⟨advertAfter link.narrowed.advertising s, ?_, ?_, ?_, ?_⟩⟩
  · rw [exec_configAdvert]
    refine congrArg (fun n => (Except.ok n, _)) ?_
    split
    · rw [decide_eq_true ((advertChanged_iff _ s).mpr ‹_›)]
      rfl
    · rw [decide_eq_false (mt (advertChanged_iff _ s).mp ‹_›)]
      rfl
  · rw [exec_readAdvertising, shown_advertAfter]
    rfl
  · exact onlyAdvertises_advertAfter _ s
  · rw [exec_configAdvert, advertAfter_advertAfter, decide_eq_false (not_advertChanged_advertAfter _ s)]
    rfl

/-! ## Forced speeds and the pause bits -/

/-- The calls that pass the first checks; these write the register, whatever comes of the speed. -/
def acceptedCalls (cs : List (Link × BitVec 8)) : List (Link × BitVec 8) := cs.filter fun c => forcedAccepts c.1

/-- `STD_AN_ADV` after one call. -/
theorem anAdv_setupForced (s : Regs) (link : Link) (mstrSlave : BitVec 8) :
    ((gpy2xxSetupForced link mstrSlave).exec lockedMem s).2.phy stdAnAdv =
      if forcedAccepts link then forcedAnAdv link (s.phy stdAnAdv) else s.phy stdAnAdv := by
  have hsame : ∀ link : Link, ((setupForced link mstrSlave).exec memHandler s).2.phy stdAnAdv =
      if forcedAccepts link then forcedAnAdv link (s.phy stdAnAdv) else s.phy stdAnAdv := by
    intro link
    by_cases haccepts : forcedAccepts link = true
    · rw [if_pos haccepts]
      -- Neither the speed nor the master/slave bits are in the register.
      have hforce : ∃ r s₂, (forceSpeed link (s.phy stdCtrl)).exec memHandler (s.forcedAdv link) = (r, s₂) ∧
          s₂.phy stdAnAdv = forcedAnAdv link (s.phy stdAnAdv) := by
        rw [forceSpeed]
        split
        · rw [forceUpTo1000]
          cases forcedSpeedBits link.speed with
          | none => exact ⟨_, _, rfl, rfl⟩
          | some bits => exact ⟨_, _, rfl, rfl⟩
        · exact ⟨_, _, rfl, rfl⟩
      obtain ⟨r, s₂, hexec, hadv⟩ := hforce
      cases r with
      | ok _ =>
        rw [exec_setupForced_ok haccepts hexec]
        exact hadv
      | error e =>
        rw [exec_setupForced_error haccepts hexec]
        exact hadv
    · rw [if_neg haccepts, setupForced_rejected (Bool.eq_false_iff.mpr haccepts)]
  rw [gpy2xxSetupForced, exec_locked]
  exact hsame _

/-- What the pause setting does with its bit of the ability field, and with the bit at the unshifted place. -/
theorem getLsbD_pauseBit (adv : BitVec 16) (wanted : Int) {set clear : BitVec 16} {high low : Nat}
    (hset : ∀ i < 16, set.getLsbD i = (i == high)) (hclear : ∀ i < 16, (~~~clear).getLsbD i = (i != low))
    (hne : high ≠ low) (i : Nat) (hi : i < 16) :
    (if wanted ≠ 0 then adv ||| set else adv &&& ~~~clear).getLsbD i =
      if i = high then adv.getLsbD i || wanted != 0
      else if i = low then adv.getLsbD i && wanted != 0 else adv.getLsbD i := by
  by_cases hwanted : wanted = 0
  · rw [if_neg (not_not.mpr hwanted), BitVec.getLsbD_and, hclear i hi, hwanted]
    split
    · simp [*]
    · split <;> simp [*]
  · rw [if_pos hwanted, BitVec.getLsbD_or, hset i hi]
    by_cases h : i = high
    · rw [if_pos h, h, beq_self_eq_true, bne_iff_ne.mpr hwanted]
    · rw [if_neg h, beq_false_of_ne h, bne_iff_ne.mpr hwanted, Bool.and_true, Bool.or_false, ite_self]

/-- A bit of the register after one accepted call: the pause bits are only set, and the bits at their
unshifted places only cleared. -/
theorem getLsbD_forcedAnAdv (link : Link) (adv : BitVec 16) (i : Nat) (hi : i < 16) :
    (forcedAnAdv link adv).getLsbD i =
      if i = 10 then adv.getLsbD i || link.pause != 0
      else if i = 11 then adv.getLsbD i || link.asymPause != 0
      else if i = 5 then adv.getLsbD i && link.pause != 0
      else if i = 6 then adv.getLsbD i && link.asymPause != 0
      else adv.getLsbD i := by
  have hasym := getLsbD_pauseBit (if link.pause ≠ 0 then adv ||| 0x20 <<< 5 else adv &&& ~~~0x20) link.asymPause
    (show ∀ i < 16, (0x40 <<< 5 : BitVec 16).getLsbD i = (i == 11) by decide)
    (show ∀ i < 16, (~~~0x40 : BitVec 16).getLsbD i = (i != 6) by decide) (by decide) i hi
  have hpause := getLsbD_pauseBit adv link.pause
    (show ∀ i < 16, (0x20 <<< 5 : BitVec 16).getLsbD i = (i == 10) by decide)
    (show ∀ i < 16, (~~~0x20 : BitVec 16).getLsbD i = (i != 5) by decide) (by decide) i hi
  rw [forcedAnAdv, hasym, hpause]
  split_ifs <;> first | rfl | omega

/-- **Pause by forced speeds.** Over any calls of `setup_forced`: symmetric and asymmetric pause are advertised
exactly if they were, or some accepted call wanted them; the modes of 10 Mbps are advertised exactly if they were,
and every accepted call wanted pause; no other bit changes. -/
theorem forced_pause (s : Regs) (cs : List (Link × BitVec 8)) (i : Nat) :
    ((afterForced s cs).phy stdAnAdv).getLsbD i =
      if i = 10 then (s.phy stdAnAdv).getLsbD i || (acceptedCalls cs).any fun c => c.1.pause != 0
      else if i = 11 then (s.phy stdAnAdv).getLsbD i || (acceptedCalls cs).any fun c => c.1.asymPause != 0
      else if i = 5 then (s.phy stdAnAdv).getLsbD i && (acceptedCalls cs).all fun c => c.1.pause != 0
      else if i = 6 then (s.phy stdAnAdv).getLsbD i && (acceptedCalls cs).all fun c => c.1.asymPause != 0
      else (s.phy stdAnAdv).getLsbD i := by
  by_cases hi : i < 16
  · induction cs generalizing s with
    | nil => split_ifs <;> simp [afterForced, acceptedCalls]
    | cons c cs ih =>
      have hcall := anAdv_setupForced s c.1 c.2
      have hcons : acceptedCalls (c :: cs) =
          if forcedAccepts c.1 then c :: acceptedCalls cs else acceptedCalls cs := List.filter_cons
      rw [afterForced, List.foldl_cons, ← afterForced, ih]
      by_cases haccepts : forcedAccepts c.1 = true
      · rw [if_pos haccepts] at hcall hcons
        rw [hcall, hcons, getLsbD_forcedAnAdv _ _ i hi, List.any_cons, List.any_cons, List.all_cons, List.all_cons]
        split_ifs <;> simp [Bool.or_assoc, Bool.and_assoc]
      · rw [if_neg haccepts] at hcall hcons
        rw [hcall, hcons]
  · have hoff : ∀ v : BitVec 16, v.getLsbD i = false := fun v => BitVec.getLsbD_of_ge v i (Nat.le_of_not_lt hi)
    rw [hoff, hoff]
    split_ifs <;> first | rfl | omega

end Gpy2xx
