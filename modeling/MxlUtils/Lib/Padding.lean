import Mathlib.Tactic.Common
import Mathlib.Algebra.Order.Group.Nat

/- Lists filled up to a whole number of blocks. `padTo k x l` is `l` followed by as
   few copies of `x` as make the length a multiple of `k`; it is cut into blocks by
   padding the first `k` elements and the rest apart. -/
namespace Padding

variable {α : Type} {k n m : Nat} {x : α} {l : List α}

/-- How many elements are missing to a multiple of `k`. -/
def gap (k n : Nat) : Nat := (k - n % k) % k

def padTo (k : Nat) (x : α) (l : List α) : List α := l ++ List.replicate (gap k l.length) x

@[simp] theorem gap_zero : gap k 0 = 0 := by simp [gap]

theorem gap_lt (hk : 0 < k) : gap k n < k := Nat.mod_lt _ hk

theorem gap_self_add : gap k (k + n) = gap k n := by simp [gap]

theorem gap_of_le (hn : 0 < n) (hle : n ≤ k) : gap k n = k - n := by
  by_cases h : n = k
  · simp [gap, h]
  · have hlt : n < k := by omega
    rw [gap, Nat.mod_eq_of_lt hlt]
    apply Nat.mod_eq_of_lt
    omega

theorem dvd_add_gap (hk : 0 < k) : k ∣ n + gap k n := by
  have hlt : n % k < k := Nat.mod_lt _ hk
  by_cases h : n % k = 0
  · simpa [gap, h] using Nat.dvd_of_mod_eq_zero h
  · have hgap : gap k n = k - n % k := Nat.mod_eq_of_lt (by omega)
    have hdiv : n + gap k n = k * (n / k + 1) := by
      rw [Nat.mul_add, hgap]
      have := Nat.div_add_mod n k
      omega
    exact ⟨_, hdiv⟩

@[simp] theorem padTo_nil : padTo k x ([] : List α) = [] := by simp [padTo]

theorem length_padTo : (padTo k x l).length = l.length + gap k l.length := by simp [padTo]

theorem prefix_padTo : l <+: padTo k x l := List.prefix_append _ _

/-- The first block of a list that is not empty. -/
theorem padTo_of_length_le (hpos : 0 < l.length) (hle : l.length ≤ k) :
    padTo k x l = l ++ List.replicate (k - l.length) x := by rw [padTo, gap_of_le hpos hle]

theorem padTo_take_append_drop : padTo k x l = padTo k x (l.take k) ++ padTo k x (l.drop k) := by
  by_cases h : l.length ≤ k
  · rw [List.take_of_length_le h, List.drop_of_length_le h, padTo_nil, List.append_nil]
  · have htake : (l.take k).length = k := by rw [List.length_take]; omega
    have hdrop : l.length = k + (l.drop k).length := by rw [List.length_drop]; omega
    have hgap : gap k k = 0 := by simpa using gap_self_add (k := k) (n := 0)
    calc padTo k x l
      _ = l.take k ++ l.drop k ++ List.replicate (gap k l.length) x := by
          rw [List.take_append_drop, padTo]
      _ = l.take k ++ padTo k x (l.drop k) := by
          rw [hdrop, gap_self_add, List.append_assoc, padTo]
      _ = padTo k x (l.take k) ++ padTo k x (l.drop k) := by
          rw [padTo, padTo, htake, hgap, List.replicate_zero, List.append_nil]

/-! ## A list that is cut off -/

/-- `l` goes on after its first `n` elements with what these would be padded with. -/
def Blank (k : Nat) (x : α) (l : List α) (n : Nat) : Prop := ∀ y ∈ (l.drop n).take (gap k n), y = x

/-- Whole blocks of the padded beginning of a list are also a beginning of the padded list, unless
they hold padding that the list does not have. -/
theorem take_padTo_take_prefix_iff (hk : 0 < k) (hlong : n + k ≤ l.length)
    (hm : k * m ≤ (padTo k x (l.take n)).length) :
    (padTo k x (l.take n)).take (k * m) <+: padTo k x l ↔ k * m ≤ n ∨ Blank k x l n := by
  have hlen : (l.take n).length = n := by rw [List.length_take]; omega
  have hgap : gap k n < k := gap_lt hk
  rw [length_padTo, hlen] at hm
  by_cases hle : k * m ≤ n
  · have htake : (padTo k x (l.take n)).take (k * m) = l.take (k * m) := by
      rw [padTo, List.take_append_of_le_length (by omega), List.take_take, Nat.min_eq_left hle]
    rw [htake]
    exact ⟨fun _ => .inl hle, fun _ => (List.take_prefix _ _).trans prefix_padTo⟩
  · -- the only multiple of the block size beyond `n` is the padded length
    have hall : k * m = n + gap k n := by
      obtain ⟨q, hq⟩ := dvd_add_gap (n := n) hk
      rw [hq] at hm ⊢
      have hmq : m ≤ q := Nat.le_of_mul_le_mul_left hm hk
      have hqm : q < m + 1 := by
        apply Nat.lt_of_mul_lt_mul_left (a := k)
        rw [Nat.mul_succ]
        omega
      rw [Nat.le_antisymm hmq (by omega)]
    have hwhole : (padTo k x (l.take n)).take (k * m) = l.take n ++ List.replicate (gap k n) x := by
      rw [List.take_of_length_le (by rw [length_padTo, hlen]; omega), padTo, hlen]
    have hsplit : padTo k x l = l.take n ++ (l.drop n ++ List.replicate (gap k l.length) x) := by
      rw [← List.append_assoc, List.take_append_drop, padTo]
    have hdrop : gap k n ≤ (l.drop n).length := by rw [List.length_drop]; omega
    rw [hwhole, hsplit, List.prefix_append_right_inj, List.prefix_iff_eq_take, List.length_replicate,
      List.take_append_of_le_length hdrop, Blank]
    constructor
    · intro h
      right
      intro y hy
      rw [← h] at hy
      exact List.eq_of_mem_replicate hy
    · intro h
      have hblank := h.resolve_left hle
      symm
      rw [List.eq_replicate_iff, List.length_take]
      exact ⟨by omega, hblank⟩

end Padding
