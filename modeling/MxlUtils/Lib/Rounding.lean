import Mathlib.Tactic.Common
import Mathlib.Tactic.Ring

/- Quantities converted by division that rounds down. `convert n c x` turns `x`
   from units of `1/n` into units of `1/c`; there and back it loses less than a
   unit of either. A value comes back to itself only if the division leaves
   nothing over, so a value that is read and written back may drift. -/
namespace Rounding

/-! ## Division -/

/-- Long division by words of size `b`. -/
theorem long_div (hi lo b : Nat) {d : Nat} (hd : 0 < d) :
    (hi * b + lo) / d = hi / d * b + (hi % d * b + lo) / d := by
  have hsplit : hi * b + lo = hi % d * b + lo + d * (hi / d * b) := by
    calc hi * b + lo = (d * (hi / d) + hi % d) * b + lo := by rw [Nat.div_add_mod]
      _ = hi % d * b + lo + d * (hi / d * b) := by ring
  rw [hsplit, Nat.add_mul_div_left _ _ hd, Nat.add_comm]

/-- Taking something away changes a quotient unless the remainder covers it. -/
theorem sub_div_eq_iff {a j k : Nat} (hk : 0 < k) (hj : j ≤ a) : (a - j) / k = a / k ↔ j ≤ a % k := by
  have hsplit := Nat.div_add_mod a k
  rw [Nat.div_eq_iff hk]
  have hlt := Nat.mod_lt a hk
  rw [Nat.mul_comm] at hsplit
  constructor
  · intro h
    omega
  · intro h
    omega

/-- Scaling up keeps apart what is apart. -/
theorem mul_div_right_inj {a b n m : Nat} (hm : 0 < m) (hmn : m ≤ n) : a * n / m = b * n / m ↔ a = b := by
  have hstrict : ∀ {a b : Nat}, a < b → a * n / m < b * n / m := by
    intro a b hab
    calc a * n / m < (a * n + m) / m := by rw [Nat.add_div_right _ hm]; omega
      _ ≤ (a + 1) * n / m := Nat.div_le_div_right (by rw [Nat.succ_mul]; omega)
      _ ≤ b * n / m := Nat.div_le_div_right (Nat.mul_le_mul_right n hab)
  constructor
  · intro h
    rcases Nat.lt_trichotomy a b with hlt | heq | hgt
    · exact absurd h (Nat.ne_of_lt (hstrict hlt))
    · exact heq
    · exact absurd h (Nat.ne_of_gt (hstrict hgt))
  · exact fun h => h ▸ rfl

/-! ## There and back -/

/-- `x` in units of which `c` are as much as `n` of its own, rounded down. -/
def convert (n c x : Nat) : Nat := x * c / n

section Convert
variable {n c x u : Nat}

theorem convert_mul_le : convert n c x * n ≤ x * c := Nat.div_mul_le_self _ _

theorem lt_convert_succ_mul (hn : 0 < n) : x * c < convert n c x * n + n := by
  have hmod := Nat.div_add_mod (x * c) n
  have hlt := Nat.mod_lt (x * c) hn
  rw [Nat.mul_comm] at hmod
  unfold convert
  omega

/-- Nothing is gained on the way there and back. -/
theorem convert_convert_le : convert c n (convert n c x) ≤ x := by
  have hthere : convert n c x * n ≤ x * c := convert_mul_le
  exact Nat.div_le_of_le_mul (by rw [Nat.mul_comm c x]; exact hthere)

/-- What is lost is less than a unit of each. -/
theorem lt_convert_convert (hn : 0 < n) (hc : 0 < c) :
    x * c < convert c n (convert n c x) * c + c + n := by
  have hthere : x * c < convert n c x * n + n := lt_convert_succ_mul hn
  have hback : convert n c x * n < convert c n (convert n c x) * c + c := lt_convert_succ_mul hc
  omega

/-- A value comes back to itself if and only if its conversion leaves nothing over. -/
theorem convert_fixed_iff (hn : 0 < n) : convert n c (convert c n u) = u ↔ c ∣ u * n := by
  constructor
  · intro hfixed
    have hback : convert c n u * c ≤ u * n := convert_mul_le
    have hthere : convert n c (convert c n u) * n ≤ convert c n u * c := convert_mul_le
    rw [hfixed] at hthere
    exact ⟨convert c n u, by rw [Nat.mul_comm c]; omega⟩
  · intro hdvd
    calc convert n c (convert c n u) = u * n / c * c / n := rfl
      _ = u * n / n := by rw [Nat.div_mul_cancel hdvd]
      _ = u := Nat.mul_div_cancel u hn

theorem convert_mono {y : Nat} (h : x ≤ y) : convert n c x ≤ convert n c y :=
  Nat.div_le_div_right (Nat.mul_le_mul_right c h)

end Convert

end Rounding
