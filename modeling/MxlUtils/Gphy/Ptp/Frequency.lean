import MxlUtils.Gphy.NestedLocks
import MxlUtils.Lib.Rounding

/- Frequency adjustment. `ptp_adjfreq` computes an addend from the clock and the
   offset and hands it to the device. It divides with a helper that stores the
   remainder through a pointer, and passes null. So where such a store stops the
   program no call gets to the device; where it does not, `adjfreq_exact_iff` says
   which calls program the addend they should. -/
namespace Gpy2xx
open Effect Effect.Lock

/-! ## Division -/

/-- A pointer of the caller's. -/
inductive Pointer where
  | null
  | object

/-- Whether a store through a pointer goes through; one through null does where address 0 is memory
that can be written. -/
def Pointer.writable (nullWritable : Bool) : Pointer → Bool
  | .null => nullWritable
  | .object => true

/-- `div_u64_rem`: the upper half is divided first, and the division instruction takes what is left
of it. The return type drops the upper half of the quotient. `none` is a program that is stopped, by
the division or by the store of the remainder. -/
def divU64Rem (nullWritable : Bool) (dividend : BitVec 64) (divisor : BitVec 32)
    (remainder : Pointer) : Option (BitVec 32 × BitVec 32) :=
  let upper := dividend.extractLsb' 32 32
  let low := dividend.extractLsb' 0 32
  let high := if divisor ≤ upper then upper / divisor else 0
  let upper := if divisor ≤ upper then upper % divisor else upper
  if divisor ≠ 0 ∧ remainder.writable nullWritable then
    let quotient := ((upper ++ low) / divisor.setWidth 64).setWidth 32
    some ((high ++ quotient).setWidth 32, ((upper ++ low) % divisor.setWidth 64).setWidth 32)
  else none

section Division
variable {nullWritable : Bool} {dividend : BitVec 64} {divisor : BitVec 32} {remainder : Pointer}

/-- The quotient in 32 bits. -/
theorem divU64Rem_eq (hdivisor : divisor ≠ 0) (hstore : remainder.writable nullWritable = true) :
    (divU64Rem nullWritable dividend divisor remainder).map Prod.fst =
      some (.ofNat 32 (dividend.toNat / divisor.toNat)) := by
  have hpos : 0 < divisor.toNat := Nat.pos_of_ne_zero fun h => hdivisor (BitVec.eq_of_toNat_eq h)
  have hreduced : (if divisor ≤ dividend.extractLsb' 32 32 then dividend.extractLsb' 32 32 % divisor
      else dividend.extractLsb' 32 32).toNat = dividend.toNat / 2 ^ 32 % divisor.toNat := by
    have hupper : (dividend.extractLsb' 32 32).toNat = dividend.toNat / 2 ^ 32 := by
      rw [BitVec.extractLsb'_toNat, Nat.shiftRight_eq_div_pow]
      omega
    split
    · rw [BitVec.toNat_umod, hupper]
    · next h =>
      rw [hupper, Nat.mod_eq_of_lt]
      rw [BitVec.le_def, hupper] at h
      omega
  generalize hword : (if divisor ≤ dividend.extractLsb' 32 32 then
      dividend.extractLsb' 32 32 % divisor else dividend.extractLsb' 32 32) = upper at hreduced
  have hdivided : (upper ++ dividend.extractLsb' 0 32).toNat =
      dividend.toNat / 2 ^ 32 % divisor.toNat * 2 ^ 32 + dividend.toNat % 2 ^ 32 := by
    rw [BitVec.toNat_append, hreduced, BitVec.extractLsb'_toNat, Nat.shiftRight_zero,
      ← Nat.shiftLeft_add_eq_or_of_lt (Nat.mod_lt _ (by decide)), Nat.shiftLeft_eq]
  have hlong : dividend.toNat / divisor.toNat =
      dividend.toNat / 2 ^ 32 / divisor.toNat * 2 ^ 32 +
        (upper ++ dividend.extractLsb' 0 32).toNat / divisor.toNat := by
    rw [hdivided, ← Rounding.long_div _ _ _ hpos, Nat.div_add_mod']
  rw [divU64Rem, if_pos ⟨hdivisor, hstore⟩, Option.map_some]
  refine congrArg some (BitVec.eq_of_toNat_eq ?_)
  simp only [hword]
  have hwidth : (divisor.setWidth 64).toNat = divisor.toNat := by
    rw [BitVec.toNat_setWidth, Nat.mod_eq_of_lt (by omega)]
  rw [BitVec.toNat_ofNat, hlong, Nat.mul_add_mod_self_right, BitVec.setWidth_append_eq_right,
    BitVec.toNat_setWidth, BitVec.toNat_udiv, hwidth]

/-- The addend that `ptp_enable` computes with it. -/
theorem defaultAddend_eq_divU64Rem {ptpClock : BitVec 32} (hclock : ptpClock ≠ 0) :
    (divU64Rem nullWritable (0x100000000 * (ptpClock / 2).setWidth 64) ptpClock .object).map Prod.fst =
      some (defaultAddend ptpClock) := by
  have hlt := (ptpClock / 2).isLt
  rw [divU64Rem_eq hclock rfl, defaultAddend, BitVec.toNat_mul, BitVec.toNat_setWidth]
  have hhalf : (ptpClock / 2).toNat = ptpClock.toNat / 2 := BitVec.toNat_udiv
  rw [hhalf] at hlt ⊢
  have hword : (0x100000000 : BitVec 64).toNat = 2 ^ 32 := rfl
  rw [hword, Nat.mod_eq_of_lt (a := ptpClock.toNat / 2) (by omega), Nat.mod_eq_of_lt (by omega)]

end Division

/-! ## The call -/

/-- The range check. The first comparison is unsigned, with the offset extended to 64 bits; the second
one is signed. -/
def ppbAccepts (ppb : BitVec 32) : Bool :=
  ppb.signExtend 64 < 1000000000 && -1000000000 < ppb.toInt

/-- The addend for an offset; the difference to the nominal rate is an argument of 32 bits. -/
def adjfreqAddend (nullWritable : Bool) (ptpClock ppb : BitVec 32) : Option (BitVec 32) := do
  let defAddend ← (divU64Rem nullWritable (0xFFFFFFFF * (ptpClock / 2).setWidth 64) ptpClock .null).map
    Prod.fst
  (divU64Rem nullWritable (defAddend.setWidth 64 * 1000000000)
    ((1000000000 - ppb.signExtend 64).setWidth 32) .null).map Prod.fst

/-- `none` if the program is stopped before the first access. -/
def gpy2xxPtpAdjfreq (nullWritable : Bool) (phy : Gpy211Device) (ppb : BitVec 32) :
    Option (Call Unit) :=
  if !ppbAccepts ppb then some (throw EINVAL)
  else (adjfreqAddend nullWritable phy.ptpClock ppb).map fun addend =>
    locked (ptpSetAddend phy addend)

/-- A call and how it ends; a program that is stopped has taken the lock and no more. -/
def AdjfreqRun (nullWritable : Bool) (phy : Gpy211Device) (ppb : BitVec 32)
    (t : Trace regSig.locking) (r : Option (Except Errno Unit)) : Prop :=
  match gpy2xxPtpAdjfreq nullWritable phy ppb with
  | none => t = [⟨.lock, ()⟩] ∧ r = none
  | some call => ∃ c, call.Runs t c ∧ r = some c

/-! ## What the call is for -/

/-- The addend for an offset in parts per billion. -/
def exactAddend (ptpClock : BitVec 32) (ppb : Int) : Nat :=
  (defaultAddend ptpClock).toNat * 1000000000 / (1000000000 - ppb).toNat

theorem exactAddend_zero (ptpClock : BitVec 32) :
    exactAddend ptpClock 0 = (defaultAddend ptpClock).toNat :=
  Nat.mul_div_cancel _ (by decide)

theorem exactAddend_mono (ptpClock : BitVec 32) {ppb ppb' : Int} (hle : ppb ≤ ppb')
    (hlt : ppb' < 1000000000) : exactAddend ptpClock ppb ≤ exactAddend ptpClock ppb' :=
  Nat.div_le_div_left (by omega) (by omega)

/-- The quotient fits the register. -/
def AddendFits (ptpClock : BitVec 32) (ppb : Int) : Prop := exactAddend ptpClock ppb < 2 ^ 32

/-- The slave-MDIO registers a run has written, with the values. -/
def smdioWritten (t : RegTrace) : List (Nat × BitVec 16) :=
  t.filterMap fun
    | ⟨.smdioWrite reg v, .ok _⟩ => some (reg, v)
    | _ => none

/-- The register with the update bit. -/
def updateReg (phy : Gpy211Device) : Nat := smdioReg (phy.gmacfBaseAddr + timestampControlL)

/-- The last access finds the update bit clear. -/
def UpdateSeen (phy : Gpy211Device) (t : RegTrace) : Prop :=
  ∃ pre v, t = pre ++ [⟨.smdioRead (updateReg phy), .ok v⟩] ∧ v.getLsbD tsaddregPos = false

/-- The addend has been written and handed to the device, which has taken it. -/
def AddendLatched (phy : Gpy211Device) (addend : BitVec 32) (t : RegTrace) : Prop :=
  (∃ v, v.getLsbD tsaddregPos = true ∧ smdioWritten t =
    [(smdioReg (phy.gmacfBaseAddr + timestampAddendL), addend.extractLsb' 0 16),
      (smdioReg (phy.gmacfBaseAddr + timestampAddendH), addend.extractLsb' 16 16),
      (updateReg phy, v)]) ∧
    UpdateSeen phy t

/-- A quotient that fits is programmed and taken, unless an access fails; any other is rejected. -/
def AdjfreqExact (phy : Gpy211Device) (ppb : Int) (t : RegTrace) : Option (Except Errno Unit) → Prop
  | none => False
  | some (.ok _) => AddendFits phy.ptpClock ppb ∧
      AddendLatched phy (.ofNat 32 (exactAddend phy.ptpClock ppb)) t
  | some (.error _) => ¬AddendFits phy.ptpClock ppb ∨ ∃ e ∈ t, refused e = true

/-- The unit is in the mode of fine updates when the call looks. -/
def FineUpdates (phy : Gpy211Device) (t : RegTrace) : Prop :=
  ∃ v rest, t = ⟨.smdioRead (updateReg phy), .ok v⟩ :: rest ∧ v.getLsbD focUpdtPos = true

/-- The two default addends, of `ptp_enable` and of `ptp_adjfreq`, are the same. -/
def SameDefault (ptpClock : BitVec 32) : Prop :=
  ptpClock.toNat / 2 ≤ 2 ^ 32 * (ptpClock.toNat / 2) % ptpClock.toNat

instance (ptpClock : BitVec 32) : Decidable (SameDefault ptpClock) :=
  inferInstanceAs (Decidable (_ ≤ _))

/-! ## The arithmetic of the call -/

section Arithmetic
variable {ptpClock ppb : BitVec 32}

/-- What `ptp_adjfreq` takes for the default addend: 2^32 - 1 times half the clock, over the clock. -/
def adjfreqDefault (ptpClock : BitVec 32) : Nat := 0xFFFFFFFF * (ptpClock.toNat / 2) / ptpClock.toNat

/-- A negative offset is a number beyond the range once it is taken as unsigned. -/
theorem signExtend_toNat :
    (ppb.signExtend 64).toNat =
      if 0 ≤ ppb.toInt then ppb.toInt.toNat else ppb.toNat + (2 ^ 64 - 2 ^ 32) := by
  have hlt := ppb.isLt
  rw [BitVec.toNat_signExtend, BitVec.toNat_setWidth, Nat.mod_eq_of_lt (by omega)]
  by_cases hpos : 0 ≤ ppb.toInt
  · have hmsb : ppb.msb = false := BitVec.msb_eq_false_iff_two_mul_lt.mpr (BitVec.toInt_pos_iff.mp hpos)
    rw [if_pos hpos, hmsb, BitVec.toInt_eq_msb_cond, hmsb]
    simp
  · have hmsb : ppb.msb = true := by
      rw [← Bool.not_eq_false]
      exact fun h => hpos (BitVec.toInt_nonneg_of_msb_false h)
    rw [if_neg hpos, hmsb, if_pos rfl]

/-- So the range check leaves only what is not negative. -/
theorem ppbAccepts_iff (hlow : -1000000000 < ppb.toInt) (hhigh : ppb.toInt < 1000000000) :
    ppbAccepts ppb = true ↔ 0 ≤ ppb.toInt := by
  rw [ppbAccepts, Bool.and_eq_true, decide_eq_true_iff, decide_eq_true_iff, BitVec.lt_def,
    signExtend_toNat]
  have hbound : (1000000000 : BitVec 64).toNat = 1000000000 := rfl
  rw [hbound]
  split
  · omega
  · omega

theorem adjfreqDefault_lt (hclock : ptpClock ≠ 0) : adjfreqDefault ptpClock < 2 ^ 31 := by
  have hpos : 0 < ptpClock.toNat := Nat.pos_of_ne_zero fun h => hclock (BitVec.eq_of_toNat_eq h)
  rw [adjfreqDefault, Nat.div_lt_iff_lt_mul hpos]
  omega

/-- None of the three steps leaves its word. -/
theorem toNat_scaledHalf : (0xFFFFFFFF * (ptpClock / 2).setWidth 64 : BitVec 64).toNat =
    0xFFFFFFFF * (ptpClock.toNat / 2) := by
  have hlt := (ptpClock / 2).isLt
  have hhalf : (ptpClock / 2).toNat = ptpClock.toNat / 2 := BitVec.toNat_udiv
  have hword : (0xFFFFFFFF : BitVec 64).toNat = 0xFFFFFFFF := rfl
  rw [BitVec.toNat_mul, BitVec.toNat_setWidth, hword, hhalf,
    Nat.mod_eq_of_lt (a := ptpClock.toNat / 2) (by omega), Nat.mod_eq_of_lt (by omega)]

theorem toNat_scaledDefault (hclock : ptpClock ≠ 0) :
    ((BitVec.ofNat 32 (adjfreqDefault ptpClock)).setWidth 64 * 1000000000 : BitVec 64).toNat =
      adjfreqDefault ptpClock * 1000000000 := by
  have hsmall := adjfreqDefault_lt hclock
  have hword : (1000000000 : BitVec 64).toNat = 1000000000 := rfl
  rw [BitVec.toNat_mul, BitVec.toNat_setWidth, BitVec.toNat_ofNat, hword,
    Nat.mod_eq_of_lt (b := 2 ^ 32) (by omega), Nat.mod_eq_of_lt (b := 2 ^ 64) (by omega),
    Nat.mod_eq_of_lt (by omega)]

theorem toNat_diff (hnonneg : 0 ≤ ppb.toInt) (hhigh : ppb.toInt < 1000000000) :
    ((1000000000 - ppb.signExtend 64).setWidth 32).toNat = (1000000000 - ppb.toInt).toNat := by
  rw [BitVec.toNat_setWidth, BitVec.toNat_sub, signExtend_toNat, if_pos hnonneg]
  have hword : (1000000000 : BitVec 64).toNat = 1000000000 := rfl
  rw [hword]
  omega

/-- The addend of an offset that is accepted, in 32 bits. -/
theorem adjfreqAddend_eq (hclock : ptpClock ≠ 0) (hnonneg : 0 ≤ ppb.toInt)
    (hhigh : ppb.toInt < 1000000000) :
    adjfreqAddend true ptpClock ppb = some (.ofNat 32
      (adjfreqDefault ptpClock * 1000000000 / (1000000000 - ppb.toInt).toNat)) := by
  have hdiff := toNat_diff hnonneg hhigh
  have hdivisor : (1000000000 - ppb.signExtend 64).setWidth 32 ≠ (0 : BitVec 32) := by
    intro h
    have hzero : ((1000000000 - ppb.signExtend 64).setWidth 32).toNat = 0 := by
      rw [h]
      rfl
    omega
  rw [adjfreqAddend, divU64Rem_eq hclock rfl, toNat_scaledHalf, ← adjfreqDefault,
    Option.bind_eq_bind, Option.bind_some, divU64Rem_eq hdivisor rfl, toNat_scaledDefault hclock, hdiff]

/-- A store through null that stops the program stops every call that is accepted. -/
theorem adjfreqAddend_stopped : adjfreqAddend false ptpClock ppb = none := by
  simp [adjfreqAddend, divU64Rem, Pointer.writable]

theorem defaultAddend_toNat (hclock : ptpClock ≠ 0) :
    (defaultAddend ptpClock).toNat = 2 ^ 32 * (ptpClock.toNat / 2) / ptpClock.toNat := by
  have hpos : 0 < ptpClock.toNat := Nat.pos_of_ne_zero fun h => hclock (BitVec.eq_of_toNat_eq h)
  have hlt : 2 ^ 32 * (ptpClock.toNat / 2) / ptpClock.toNat < 2 ^ 32 := by
    rw [Nat.div_lt_iff_lt_mul hpos]
    omega
  rw [defaultAddend, BitVec.toNat_ofNat, Nat.mod_eq_of_lt hlt]

theorem adjfreqDefault_eq_iff (hclock : ptpClock ≠ 0) :
    adjfreqDefault ptpClock = (defaultAddend ptpClock).toNat ↔ SameDefault ptpClock := by
  have hpos : 0 < ptpClock.toNat := Nat.pos_of_ne_zero fun h => hclock (BitVec.eq_of_toNat_eq h)
  have hsub : 0xFFFFFFFF * (ptpClock.toNat / 2) =
      2 ^ 32 * (ptpClock.toNat / 2) - ptpClock.toNat / 2 := by omega
  rw [adjfreqDefault, defaultAddend_toNat hclock, hsub]
  exact Rounding.sub_div_eq_iff hpos (by omega)

theorem adjfreqDefault_le (hclock : ptpClock ≠ 0) :
    adjfreqDefault ptpClock ≤ (defaultAddend ptpClock).toNat := by
  rw [defaultAddend_toNat hclock]
  exact Nat.div_le_div_right (Nat.mul_le_mul_right _ (by decide))

/-- A quotient that fits is the one the call computes exactly when the defaults are the same. -/
theorem adjfreqAddend_exact_iff (hclock : ptpClock ≠ 0) (hnonneg : 0 ≤ ppb.toInt)
    (hhigh : ppb.toInt < 1000000000) (hfits : AddendFits ptpClock ppb.toInt) :
    BitVec.ofNat 32 (adjfreqDefault ptpClock * 1000000000 / (1000000000 - ppb.toInt).toNat) =
      BitVec.ofNat 32 (exactAddend ptpClock ppb.toInt) ↔ SameDefault ptpClock := by
  have hfits : exactAddend ptpClock ppb.toInt < 2 ^ 32 := hfits
  have hle : adjfreqDefault ptpClock * 1000000000 / (1000000000 - ppb.toInt).toNat ≤
      exactAddend ptpClock ppb.toInt :=
    Nat.div_le_div_right (Nat.mul_le_mul_right _ (adjfreqDefault_le hclock))
  rw [← adjfreqDefault_eq_iff hclock, ← BitVec.toNat_inj, BitVec.toNat_ofNat, BitVec.toNat_ofNat,
    Nat.mod_eq_of_lt hfits, Nat.mod_eq_of_lt (by omega), exactAddend]
  exact Rounding.mul_div_right_inj (by omega) (by omega)

/-- The addend is zero, and then not written, for a clock of 1 Hz only. -/
theorem exactAddend_pos_iff (hclock : ptpClock ≠ 0) (hnonneg : 0 ≤ ppb.toInt)
    (hhigh : ppb.toInt < 1000000000) : 0 < exactAddend ptpClock ppb.toInt ↔ ptpClock ≠ 1 := by
  have hpos : 0 < ptpClock.toNat := Nat.pos_of_ne_zero fun h => hclock (BitVec.eq_of_toNat_eq h)
  have hone : ptpClock = 1 ↔ ptpClock.toNat = 1 := by
    rw [← BitVec.toNat_inj]
    rfl
  rw [exactAddend, Nat.div_pos_iff, Ne, hone, defaultAddend_toNat hclock]
  have hdefault : 0 < 2 ^ 32 * (ptpClock.toNat / 2) / ptpClock.toNat ↔ ¬ptpClock.toNat = 1 := by
    rw [Nat.div_pos_iff]
    omega
  rw [← hdefault]
  omega

end Arithmetic

/-! ## Runs of the call -/

section Runs
variable {phy : Gpy211Device} {acc : RegTrace}

theorem smdioWritten_append (acc₁ acc₂ : RegTrace) :
    smdioWritten (acc₁ ++ acc₂) = smdioWritten acc₁ ++ smdioWritten acc₂ := List.filterMap_append

theorem smdioWritten_reads (h : ∀ e ∈ acc, isSmdioWrite e.op = false) : smdioWritten acc = [] := by
  refine List.filterMap_eq_nil_iff.mpr fun e he => ?_
  have hread := h e he
  obtain ⟨op, ret⟩ := e
  cases op <;> first | rfl | cases hread

theorem getLsbD_setUpdate (v : BitVec 16) :
    (v ||| 1 <<< tsaddregPos).getLsbD tsaddregPos = true := by
  have hbit : (1 <<< tsaddregPos : BitVec 16).getLsbD tsaddregPos = true := by decide
  rw [BitVec.getLsbD_or, hbit, Bool.or_true]

/-- A run that returns no error has found coarse updates or no addend, and written nothing, or has
written the addend and set the update bit. -/
theorem runs_ptpSetAddend_ok {addend : BitVec 32} (h : (ptpSetAddend phy addend).Runs acc (.ok ())) :
    (¬(FineUpdates phy acc ∧ addend ≠ 0) ∧ smdioWritten acc = []) ∨
    (FineUpdates phy acc ∧ addend ≠ 0 ∧ ∃ v, v.getLsbD tsaddregPos = true ∧ smdioWritten acc =
      [(smdioReg (phy.gmacfBaseAddr + timestampAddendL), addend.extractLsb' 0 16),
        (smdioReg (phy.gmacfBaseAddr + timestampAddendH), addend.extractLsb' 16 16),
        (updateReg phy, v)]) := by
  rcases (runs_smdioRead_bind).mp h with ⟨e, -, hc⟩ | ⟨tscLow, acc₁, rfl, hrest⟩
  · cases hc
  have hfine : FineUpdates phy (⟨.smdioRead (updateReg phy), .ok tscLow⟩ :: acc₁) ↔
      tscLow.getLsbD focUpdtPos = true := by
    constructor
    · intro hfine
      obtain ⟨v, rest, heq, hv⟩ := hfine
      cases heq
      exact hv
    · exact fun hv => ⟨tscLow, acc₁, rfl, hv⟩
  change (_ ∧ _) ∨ (FineUpdates phy (⟨.smdioRead (updateReg phy), .ok tscLow⟩ :: acc₁) ∧ _)
  change (¬(FineUpdates phy (⟨.smdioRead (updateReg phy), .ok tscLow⟩ :: acc₁) ∧ _) ∧ _) ∨ _
  rw [hfine]
  rw [Fallible.runs_ite] at hrest
  split at hrest
  · next hstop =>
    obtain ⟨rfl, -⟩ := hrest
    refine .inl ⟨fun hgo => ?_, rfl⟩
    exact hgo.2 (by simpa [hgo.1] using hstop)
  · next hgo =>
    obtain ⟨hfoc, hne⟩ : tscLow.getLsbD focUpdtPos = true ∧ addend ≠ 0 := by simpa using hgo
    refine .inr ⟨hfoc, hne, ?_⟩
    obtain ⟨accw, _, acc₂, rfl, hwait, hwrites⟩ := (Fallible.runs_bind_ok).mp hrest
    rcases (runs_smdioWrite_bind).mp hwrites with ⟨e, -, hc⟩ | ⟨_, acc₃, rfl, hhigh⟩
    · cases hc
    rcases (runs_smdioWrite_bind).mp hhigh with ⟨e, -, hc⟩ | ⟨_, acc₄, rfl, hend⟩
    · cases hc
    rw [smdioSetBit, bind_assoc] at hend
    rcases (runs_smdioRead_bind).mp hend with ⟨e, -, hc⟩ | ⟨v, acc₅, rfl, hset⟩
    · cases hc
    rcases (runs_smdioWrite_bind).mp hset with ⟨e, -, hc⟩ | ⟨_, acc₆, rfl, hdone⟩
    · cases hc
    have hbefore := smdioWritten_reads (runs_isRwDone hwait).2
    have hafter := smdioWritten_reads (runs_isRwDone hdone).2
    refine ⟨v ||| 1 <<< tsaddregPos, getLsbD_setUpdate v, ?_⟩
    calc smdioWritten (accw ++ _) = _ := smdioWritten_append _ _
      _ = _ := by
        rw [hbefore]
        exact congrArg (fun l => _ :: _ :: _ :: l) hafter

theorem exists_refused_of_addendStops {strict : Bool} (h : addendStops phy strict acc = true) :
    ∃ e ∈ acc, refused e = true := by
  induction acc generalizing strict with
  | nil => cases h
  | cons e acc ih =>
    rw [addendStops, Bool.or_eq_true] at h
    rcases h with hhere | hlater
    · exact ⟨e, List.mem_cons_self, (Bool.and_eq_true_iff.mp hhere).1⟩
    · obtain ⟨e', he', href⟩ := ih hlater
      exact ⟨e', List.mem_cons_of_mem _ he', href⟩

/-- The halves tell the addend. -/
theorem halves_inj {a b : BitVec 32} (hlow : a.extractLsb' 0 16 = b.extractLsb' 0 16)
    (hhigh : a.extractLsb' 16 16 = b.extractLsb' 16 16) : a = b := by
  have hsplit : ∀ v : BitVec 32, v.extractLsb' 16 16 ++ v.extractLsb' 0 16 = v := by
    intro v
    rw [BitVec.extractLsb'_append_extractLsb']
  rw [← hsplit a, ← hsplit b, hlow, hhigh]

/-- A run that returns no error programs `exact` if it finds fine updates, is given that addend and
the device takes it. -/
theorem latched_iff_of_ok {addend exact : BitVec 32}
    (h : (ptpSetAddend phy addend).Runs acc (.ok ())) :
    AddendLatched phy exact acc ↔
      addend = exact ∧ addend ≠ 0 ∧ FineUpdates phy acc ∧ UpdateSeen phy acc := by
  rcases runs_ptpSetAddend_ok h with ⟨hstop, hnone⟩ | ⟨hfine, hne, v, hv, hwritten⟩
  · refine iff_of_false (fun hlatched => ?_) fun hgo => hstop ⟨hgo.2.2.1, hgo.2.1⟩
    obtain ⟨⟨_, -, hwritten⟩, -⟩ := hlatched
    rw [hnone] at hwritten
    cases hwritten
  · constructor
    · intro hlatched
      obtain ⟨⟨v', -, hwritten'⟩, hseen⟩ := hlatched
      rw [hwritten] at hwritten'
      simp only [List.cons.injEq, Prod.mk.injEq, true_and] at hwritten'
      exact ⟨halves_inj hwritten'.1 hwritten'.2.1, hne, hfine, hseen⟩
    · intro hgo
      obtain ⟨rfl, -, -, hseen⟩ := hgo
      exact ⟨⟨v, hv, hwritten⟩, hseen⟩

end Runs

/-! ## Which calls do what they are for -/

section Exact
variable {nullWritable : Bool} {phy : Gpy211Device} {ppb : BitVec 32} {t : Trace regSig.locking}
variable {r : Option (Except Errno Unit)}

/-- What an addend of an accepted offset comes to in a run that returns no error. -/
theorem adjfreqExact_ok_iff (hclock : phy.ptpClock ≠ 0) (hnonneg : 0 ≤ ppb.toInt)
    (hhigh : ppb.toInt < 1000000000) {acc : RegTrace}
    (h : (ptpSetAddend phy (.ofNat 32 (adjfreqDefault phy.ptpClock * 1000000000 /
      (1000000000 - ppb.toInt).toNat))).Runs acc (.ok ())) :
    AdjfreqExact phy ppb.toInt acc (some (.ok ())) ↔
      phy.ptpClock ≠ 1 ∧ SameDefault phy.ptpClock ∧ AddendFits phy.ptpClock ppb.toInt ∧
        FineUpdates phy acc ∧ UpdateSeen phy acc := by
  have hlatched := fun exact => @latched_iff_of_ok _ _ _ exact h
  show _ ∧ AddendLatched phy _ acc ↔ _
  rw [hlatched]
  by_cases hfits : AddendFits phy.ptpClock ppb.toInt
  · have hlt : exactAddend phy.ptpClock ppb.toInt < 2 ^ 32 := hfits
    have hsame := adjfreqAddend_exact_iff hclock hnonneg hhigh hfits
    have hzero : BitVec.ofNat 32 (exactAddend phy.ptpClock ppb.toInt) ≠ 0 ↔ phy.ptpClock ≠ 1 := by
      rw [← exactAddend_pos_iff hclock hnonneg hhigh, Ne, ← BitVec.toNat_inj, BitVec.toNat_ofNat,
        Nat.mod_eq_of_lt hlt]
      exact Nat.pos_iff_ne_zero.symm
    constructor
    · intro hgo
      obtain ⟨-, heq, hne, hfine, hseen⟩ := hgo
      exact ⟨hzero.mp (heq ▸ hne), hsame.mp heq, hfits, hfine, hseen⟩
    · intro hgo
      obtain ⟨hone, hdefault, -, hfine, hseen⟩ := hgo
      refine ⟨hfits, hsame.mpr hdefault, ?_, hfine, hseen⟩
      rw [hsame.mpr hdefault]
      exact hzero.mpr hone
  · exact iff_of_false (fun hgo => hfits hgo.1) fun hgo => hfits hgo.2.2.1

/-- A call does what it is for exactly when a store through null does no harm, the offset is not
negative and either an access that counts fails or: the default addends agree and are not zero, the
quotient fits, and the unit takes an addend. -/
theorem adjfreq_exact_iff (hclock : phy.ptpClock ≠ 0) (hlow : -1000000000 < ppb.toInt)
    (hhigh : ppb.toInt < 1000000000) (hrun : AdjfreqRun nullWritable phy ppb t r) :
    AdjfreqExact phy ppb.toInt (accesses t) r ↔ nullWritable = true ∧ 0 ≤ ppb.toInt ∧
      (addendStops phy true (accesses t) = true ∨
        (phy.ptpClock ≠ 1 ∧ SameDefault phy.ptpClock ∧ AddendFits phy.ptpClock ppb.toInt ∧
          FineUpdates phy (accesses t) ∧ UpdateSeen phy (accesses t))) := by
  have haccepts := ppbAccepts_iff hlow hhigh
  by_cases hnonneg : 0 ≤ ppb.toInt
  · have haccepts : ¬(!ppbAccepts ppb) = true := by simp [haccepts.mpr hnonneg]
    rw [AdjfreqRun, gpy2xxPtpAdjfreq, if_neg haccepts] at hrun
    cases nullWritable with
    | false =>
      rw [adjfreqAddend_stopped] at hrun
      obtain ⟨-, rfl⟩ := hrun
      exact iff_of_false id fun h => by cases h.1
    | true =>
      rw [adjfreqAddend_eq hclock hnonneg hhigh] at hrun
      obtain ⟨c, hcall, rfl⟩ := hrun
      have hbody := Runs.accesses_locked hcall
      have hstops := ok_ptpSetAddend_iff hbody
      cases c with
      | error e =>
        have hstop : addendStops phy true (accesses t) = true := by
          rw [← Bool.not_eq_false, ← hstops]
          exact fun h => by cases h
        exact iff_of_true (.inr (exists_refused_of_addendStops hstop)) ⟨rfl, hnonneg, .inl hstop⟩
      | ok _ =>
        rw [adjfreqExact_ok_iff hclock hnonneg hhigh hbody, hstops.mp rfl]
        simp [hnonneg]
  · -- a negative offset is rejected, and its quotient is below the default addend
    have hrejects : (!ppbAccepts ppb) = true := by
      rw [Bool.not_eq_true', ← Bool.not_eq_true, haccepts]
      exact hnonneg
    rw [AdjfreqRun, gpy2xxPtpAdjfreq, if_pos hrejects] at hrun
    obtain ⟨c, ⟨rfl, rfl⟩, rfl⟩ := hrun
    have hfits : AddendFits phy.ptpClock ppb.toInt := by
      calc exactAddend phy.ptpClock ppb.toInt
          ≤ exactAddend phy.ptpClock 0 := exactAddend_mono _ (by omega) (by decide)
        _ = (defaultAddend phy.ptpClock).toNat := exactAddend_zero _
        _ < 2 ^ 32 := (defaultAddend phy.ptpClock).isLt
    refine iff_of_false (fun h => ?_) fun h => hnonneg h.2.1
    rcases h with hno | ⟨e, he, -⟩
    · exact hno hfits
    · cases he

end Exact

/-- No offset, at an odd clock: the addend is the default one. -/
def nominalTrace : Trace regSig.locking :=
  [⟨.lock, ()⟩, ⟨.acc (.smdioRead 0x8B00), .ok 0x2⟩, ⟨.acc (.smdioRead 0x8B00), .ok 0x2⟩,
    ⟨.acc (.smdioWrite 0x8B18 0xFFFA), .ok ()⟩, ⟨.acc (.smdioWrite 0x8B1A 0x7FFF), .ok ()⟩,
    ⟨.acc (.smdioRead 0x8B00), .ok 0x2⟩, ⟨.acc (.smdioWrite 0x8B00 0x22), .ok ()⟩,
    ⟨.acc (.smdioRead 0x8B00), .ok 0x2⟩, ⟨.unlock, ()⟩]

theorem adjfreqRun_nominalTrace :
    AdjfreqRun true (ptpPhy 406250001) 0 nominalTrace (some (.ok ())) :=
  ⟨.ok (), ⟨(), _, rfl, .ok 0x2, _, rfl, .ok 0x2, _, rfl, .ok (), _, rfl, .ok (), _, rfl, .ok 0x2, _, rfl,
    .ok (), _, rfl, .ok 0x2, _, rfl, (), _, rfl, rfl, rfl⟩, rfl⟩

theorem adjfreqExact_nominalTrace :
    AdjfreqExact (ptpPhy 406250001) 0 (accesses nominalTrace) (some (.ok ())) :=
  (adjfreq_exact_iff (by decide) (by decide) (by decide) adjfreqRun_nominalTrace).mpr
    ⟨rfl, by decide, .inr ⟨by decide, by decide, by unfold AddendFits; decide, ⟨0x2, _, rfl, by decide⟩,
      ⟨(accesses nominalTrace).dropLast, 0x2, rfl, by decide⟩⟩⟩

/-- An offset of -1 part per billion is rejected, although its addend fits. -/
theorem not_adjfreqExact_negative : ∃ t r, AdjfreqRun true (ptpPhy 406250000) (-1) t r ∧
    ¬AdjfreqExact (ptpPhy 406250000) (-1) (accesses t) r := by
  refine ⟨[], some (.error EINVAL), ⟨.error EINVAL, ⟨rfl, rfl⟩, rfl⟩, fun h => ?_⟩
  rcases h with hno | ⟨e, he, -⟩
  · exact hno (by unfold AddendFits; decide)
  · cases he

end Gpy2xx
