import Mathlib.Algebra.Field.ZMod
import Mathlib.Data.BitVec
import Mathlib.RingTheory.AdjoinRoot
import Mathlib.Tactic.ComputeDegree
import Mathlib.Tactic.LinearCombination

/- Bytes as polynomials over two elements modulo x^8 + x^4 + x^3 + x + 1. Addition is the
   exclusive or, and `mul` multiplies by shifting and adding. `value` is the class of a byte's
   polynomial in the quotient ring; it is injective, so that the laws of the ring are those
   of the bytes. -/
namespace GF256
open Polynomial

abbrev Byte := BitVec 8

/-- Multiplication by x. -/
def xtime (b : Byte) : Byte := (b <<< 1) ^^^ (if b.getLsbD 7 then 0x1b#8 else 0#8)

/-- The sum of the multiples of `b` by the lowest `n` bits of `a`. -/
def mulLow : Nat → Byte → Byte → Byte
  | 0, _, _ => 0#8
  | n + 1, a, b => (if a.getLsbD 0 then b else 0#8) ^^^ mulLow n (a >>> 1) (xtime b)

def mul (a b : Byte) : Byte := mulLow 8 a b

/-! ## The polynomial of a byte -/

noncomputable def modulus : (ZMod 2)[X] := X ^ 8 + X ^ 4 + X ^ 3 + X + 1

/-- Bit `i` is the coefficient of x^i. -/
noncomputable def poly (b : Byte) : (ZMod 2)[X] :=
  ∑ i ∈ Finset.range 8, if b.getLsbD i then X ^ i else 0

theorem coeff_poly (b : Byte) (i : Nat) : (poly b).coeff i = if b.getLsbD i then 1 else 0 := by
  have hterm : ∀ k, (if b.getLsbD k then (X : (ZMod 2)[X]) ^ k else 0).coeff i =
      if i = k then (if b.getLsbD k then 1 else 0) else 0 := by
    intro k
    cases b.getLsbD k <;> simp [coeff_X_pow]
  rw [poly, finset_sum_coeff, Finset.sum_congr rfl fun k _ => hterm k, Finset.sum_ite_eq]
  by_cases hi : i < 8
  · rw [if_pos (Finset.mem_range.mpr hi)]
  · rw [if_neg fun h => hi (Finset.mem_range.mp h), BitVec.getLsbD_of_ge b i (by omega)]
    rfl

theorem poly_xor (a b : Byte) : poly (a ^^^ b) = poly a + poly b := by
  ext i
  rw [coeff_add, coeff_poly, coeff_poly, coeff_poly, BitVec.getLsbD_xor]
  cases a.getLsbD i <;> cases b.getLsbD i <;> rfl

theorem degree_poly_lt (b : Byte) : (poly b).degree < 8 := by
  apply (degree_lt_iff_coeff_zero _ _).mpr
  intro i hi
  rw [coeff_poly, BitVec.getLsbD_of_ge b i hi]
  rfl

theorem poly_injective : Function.Injective poly := by
  intro a b h
  apply BitVec.eq_of_getLsbD_eq
  intro i _
  have hcoeff : (poly a).coeff i = (poly b).coeff i := by rw [h]
  rw [coeff_poly, coeff_poly] at hcoeff
  revert hcoeff
  cases a.getLsbD i <;> cases b.getLsbD i <;> decide

theorem degree_modulus : modulus.degree = 8 := by
  unfold modulus
  compute_degree!

theorem monic_modulus : modulus.Monic := by
  unfold modulus
  monicity!

/-! ## The quotient ring -/

abbrev Quotient := AdjoinRoot modulus

noncomputable def root : Quotient := AdjoinRoot.root modulus

noncomputable def value (b : Byte) : Quotient := AdjoinRoot.mk modulus (poly b)

theorem value_injective : Function.Injective value := by
  intro a b h
  have hdvd : modulus ∣ poly a - poly b := AdjoinRoot.mk_eq_mk.mp h
  have hdegree : (poly a - poly b).degree < modulus.degree := by
    rw [degree_modulus]
    exact lt_of_le_of_lt (degree_sub_le _ _) (max_lt (degree_poly_lt a) (degree_poly_lt b))
  by_contra hne
  have hdiff : poly a - poly b ≠ 0 := fun hzero => hne (poly_injective (sub_eq_zero.mp hzero))
  exact monic_modulus.not_dvd_of_degree_lt hdiff hdegree hdvd

theorem value_xor (a b : Byte) : value (a ^^^ b) = value a + value b := by
  rw [value, poly_xor, map_add]
  rfl

theorem value_zero : value 0#8 = 0 := by
  have hxor := value_xor 0#8 0#8
  rw [BitVec.xor_self] at hxor
  exact left_eq_add.mp hxor

theorem value_one : value 1#8 = 1 := by
  have hpoly : poly 1#8 = 1 := by
    ext i
    rw [coeff_poly, coeff_one]
    cases i with
    | zero => rfl
    | succ i => simp
  rw [value, hpoly, map_one]

/-- The bit that is lost on the left is the coefficient of x^8. -/
theorem poly_shiftLeft (b : Byte) :
    poly (b <<< 1) + (if b.getLsbD 7 then X ^ 8 else 0) = X * poly b := by
  have hlast : ∀ i, (if b.getLsbD 7 then (X : (ZMod 2)[X]) ^ 8 else 0).coeff i =
      if i = 8 ∧ b.getLsbD 7 = true then 1 else 0 := by
    intro i
    cases b.getLsbD 7 <;> simp [coeff_X_pow]
  ext i
  rw [coeff_add, coeff_poly, hlast, BitVec.getLsbD_shiftLeft]
  cases i with
  | zero => simp
  | succ i =>
    rw [coeff_X_mul, coeff_poly, Nat.add_sub_cancel]
    rcases Nat.lt_trichotomy i 7 with hi | rfl | hi
    · simp [show i + 1 < 8 by omega, show i ≠ 7 by omega]
    · simp
    · simp [show ¬ i + 1 < 8 by omega, show i ≠ 7 by omega, BitVec.getLsbD_of_ge b i (by omega)]

theorem poly_rest : poly 0x1b#8 = X ^ 4 + X ^ 3 + X + 1 := by
  ext i
  rw [coeff_poly]
  by_cases hi : i < 8
  · interval_cases i <;> simp [coeff_X, coeff_one, coeff_X_pow, BitVec.getLsbD, Nat.testBit]
  · rw [BitVec.getLsbD_of_ge _ i (by omega)]
    simp [coeff_X, coeff_one, coeff_X_pow, show i ≠ 4 by omega, show i ≠ 3 by omega, show 1 ≠ i by omega,
      show i ≠ 0 by omega]

theorem add_self (x : Quotient) : x + x = 0 := by
  have htwo : (2 : Quotient) = 0 := by
    rw [← map_ofNat (AdjoinRoot.of modulus) 2, show (2 : ZMod 2) = 0 from rfl, map_zero]
  linear_combination x * htwo

theorem root_pow_eight : root ^ 8 = root ^ 4 + root ^ 3 + root + 1 := by
  have hmodulus : AdjoinRoot.mk modulus (X ^ 8 + X ^ 4 + X ^ 3 + X + 1) = 0 := AdjoinRoot.mk_self
  simp only [map_add, map_pow, map_one, AdjoinRoot.mk_X] at hmodulus
  change root ^ 8 + root ^ 4 + root ^ 3 + root + 1 = 0 at hmodulus
  linear_combination hmodulus - add_self (root ^ 4 + root ^ 3 + root + 1)

theorem value_xtime (b : Byte) : value (xtime b) = root * value b := by
  have hshift : value (b <<< 1) + (if b.getLsbD 7 then root ^ 8 else 0) = root * value b := by
    have hpoly := congrArg (AdjoinRoot.mk modulus) (poly_shiftLeft b)
    rw [map_add, map_mul, AdjoinRoot.mk_X] at hpoly
    rw [value, value, root, ← hpoly]
    cases b.getLsbD 7 <;> simp
  have hrest : value 0x1b#8 = root ^ 8 := by
    rw [root_pow_eight, value, poly_rest]
    simp [root]
  rw [xtime, value_xor, ← hshift]
  cases b.getLsbD 7 with
  | true => exact congrArg (value (b <<< 1) + ·) hrest
  | false => exact congrArg (value (b <<< 1) + ·) value_zero

/-- The lowest `n` terms of a byte. -/
noncomputable def low (n : Nat) (a : Byte) : Quotient :=
  ∑ i ∈ Finset.range n, if a.getLsbD i then root ^ i else 0

theorem low_eight (a : Byte) : low 8 a = value a := by
  rw [low, value, poly, map_sum]
  refine Finset.sum_congr rfl fun i _ => ?_
  cases a.getLsbD i <;> simp [root]

theorem low_succ (n : Nat) (a : Byte) :
    low (n + 1) a = root * low n (a >>> 1) + (if a.getLsbD 0 then 1 else 0) := by
  rw [low, Finset.sum_range_succ', low, Finset.mul_sum, pow_zero]
  refine congrArg (· + _) (Finset.sum_congr rfl fun i _ => ?_)
  rw [BitVec.getLsbD_ushiftRight, Nat.add_comm 1 i]
  cases a.getLsbD (i + 1)
  · simp
  · simp [pow_succ']

theorem value_mulLow (n : Nat) (a b : Byte) : value (mulLow n a b) = low n a * value b := by
  induction n generalizing a b with
  | zero => simp [mulLow, low, value_zero]
  | succ n ih =>
    have hbit : value (if a.getLsbD 0 then b else 0#8) = (if a.getLsbD 0 then 1 else 0) * value b := by
      cases a.getLsbD 0 <;> simp [value_zero]
    rw [mulLow, value_xor, ih, value_xtime, low_succ, hbit]
    ring

theorem value_mul (a b : Byte) : value (mul a b) = value a * value b := by
  rw [mul, value_mulLow, low_eight]

/-! ## The laws of the ring -/

section Laws
variable (a b c : Byte)

theorem mul_comm : mul a b = mul b a := by
  apply value_injective
  rw [value_mul, value_mul]
  ring

theorem mul_assoc : mul (mul a b) c = mul a (mul b c) := by
  apply value_injective
  simp only [value_mul]
  ring

theorem mul_xor : mul a (b ^^^ c) = mul a b ^^^ mul a c := by
  apply value_injective
  simp only [value_mul, value_xor]
  ring

theorem one_mul : mul 1#8 b = b := by
  apply value_injective
  rw [value_mul, value_one]
  ring

theorem zero_mul : mul 0#8 b = 0#8 := by
  apply value_injective
  rw [value_mul, value_zero]
  ring

end Laws

/-! ## Inverses -/

/-- `c` is the inverse of `b`, where 0 is the inverse of 0. -/
def IsInverse (b c : Byte) : Prop := (b = 0#8 ∧ c = 0#8) ∨ mul b c = 1#8

instance (b c : Byte) : Decidable (IsInverse b c) := inferInstanceAs (Decidable (_ ∨ _))

theorem zero_mul_ne_one (b : Byte) : mul 0#8 b ≠ 1#8 := by
  rw [zero_mul]
  decide

theorem IsInverse.symm {b c : Byte} (h : IsInverse b c) : IsInverse c b := by
  rcases h with ⟨hb, hc⟩ | h
  · exact .inl ⟨hc, hb⟩
  · exact .inr ((mul_comm c b).trans h)

theorem IsInverse.unique {b c d : Byte} (hc : IsInverse b c) (hd : IsInverse b d) : c = d := by
  rcases hc with ⟨rfl, rfl⟩ | hc
  · rcases hd with ⟨-, rfl⟩ | hd
    · rfl
    · exact absurd hd (zero_mul_ne_one d)
  · rcases hd with ⟨rfl, -⟩ | hd
    · exact absurd hc (zero_mul_ne_one c)
    · calc c = mul (mul b d) c := by rw [hd, one_mul]
        _ = mul (mul b c) d := by rw [mul_assoc, mul_comm d c, ← mul_assoc]
        _ = d := by rw [hc, one_mul]

end GF256
