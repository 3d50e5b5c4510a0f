import MxlUtils.Gphy.Msec.SamControl

/- Flow control actions: what the configuration calls accept, and what the matching
   calls read back. The fields are checked one by one against limits of their own;
   the widths that matter are those of the register. -/
namespace Gpy2xx
open Effect Effect.Lock Bits

/-! ## Fields apart from each other -/

section Fields
variable {w len : Nat} {f : Field w} {word v : BitVec w} {fields : List (Field w × BitVec w)}

/-- The value is no larger than the field. -/
def FieldHolds (f : Field w) (v : BitVec w) : Prop := v ≤ f.mask >>> f.pos

theorem fieldHolds_iff (hf : f.Spans len) : FieldHolds f v ↔ v.toNat < 2 ^ len := by
  have hmask : f.mask >>> f.pos = BitVec.ofNat w (2 ^ len - 1) := by
    have hw := hf.2
    apply BitVec.eq_of_getLsbD_eq
    intro i hi
    rw [BitVec.getLsbD_ushiftRight, hf.mask_bit, BitVec.getLsbD_ofNat, Nat.testBit_two_pow_sub_one]
    by_cases hl : i < len
    · simp [hl, hi]
    · simp [hl]
  have hle : 2 ^ len ≤ 2 ^ w := Nat.pow_le_pow_right (by decide) (by have := hf.2; omega)
  have hpos : 0 < 2 ^ len := Nat.two_pow_pos len
  rw [FieldHolds, hmask, BitVec.le_def, BitVec.toNat_ofNat, Nat.mod_eq_of_lt (by omega)]
  omega

end Fields

/-! ## What the calls are for -/

section Ranges
variable {dir : MsecDir} {fca : SaMatchFca}

end Ranges

/-! ## The word of an action -/

section Word
variable {dir : MsecDir} {fca : SaMatchFca}

end Word

/-! ## The calls on registers as memory -/

section Calls
variable {dir : MsecDir} {phy : MsecDevice} {fca : SaMatchFca} {regs : Regs}

end Calls

end Gpy2xx
