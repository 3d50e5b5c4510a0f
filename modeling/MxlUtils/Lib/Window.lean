import Mathlib.Algebra.Ring.Int.Defs
import Mathlib.Algebra.Ring.Nat
import Mathlib.Data.List.Basic

/- Reads through a window of some size, one unit after the other. The first read
   that is not inside is the last one: nothing is known of what follows it. -/
namespace Window

/-- The positions of `n` units from `pos` on. -/
def positions (width pos : Nat) : Nat → List Nat
  | 0 => []
  | n + 1 => pos :: positions width (pos + width) n

/-- The positions up to the first that is not inside. -/
def upTo (inside : Nat → Bool) : List Nat → List Nat
  | [] => []
  | pos :: rest => pos :: if inside pos then upTo inside rest else []

variable {width pos n : Nat} {inside : Nat → Bool}

theorem mem_positions {p : Nat} : p ∈ positions width pos n ↔ ∃ k < n, p = pos + k * width := by
  induction n generalizing pos with
  | zero => simp [positions]
  | succ n ih =>
    rw [positions, List.mem_cons, ih]
    constructor
    · rintro (rfl | ⟨k, hk, rfl⟩)
      · exact ⟨0, by omega, by omega⟩
      · exact ⟨k + 1, by omega, by rw [Nat.succ_mul]; omega⟩
    · rintro ⟨k, hk, rfl⟩
      cases k with
      | zero => exact .inl (by omega)
      | succ k => exact .inr ⟨k, by omega, by rw [Nat.succ_mul]; omega⟩

theorem positions_add (a b : Nat) :
    positions width pos (a + b) = positions width pos a ++ positions width (pos + a * width) b := by
  induction a generalizing pos with
  | zero => simp [positions]
  | succ a ih =>
    have hnext : pos + width + a * width = pos + (a + 1) * width := by rw [Nat.succ_mul]; omega
    rw [Nat.succ_add, positions, positions, ih, hnext, List.cons_append]

theorem mem_of_mem_upTo {l : List Nat} {p : Nat} (hp : p ∈ upTo inside l) : p ∈ l := by
  induction l with
  | nil => exact hp
  | cons q l ih =>
    rw [upTo, List.mem_cons] at hp
    rcases hp with rfl | hp
    · exact List.mem_cons_self ..
    · split at hp
      · exact List.mem_cons_of_mem _ (ih hp)
      · cases hp

/-- All reads are inside if and only if all units are. -/
theorem upTo_inside_iff {l : List Nat} : (∀ p ∈ upTo inside l, inside p = true) ↔ ∀ p ∈ l, inside p = true := by
  constructor
  · intro hall
    induction l with
    | nil => exact fun p hp => (List.not_mem_nil hp).elim
    | cons q l ih =>
      have hq : inside q = true := hall q (List.mem_cons_self ..)
      intro p hp
      rcases List.mem_cons.mp hp with rfl | hp
      · exact hq
      · refine ih (fun r hr => hall r ?_) p hp
        rw [upTo, if_pos hq]
        exact List.mem_cons_of_mem _ hr
  · exact fun hall p hp => hall p (mem_of_mem_upTo hp)

theorem upTo_append {l l' : List Nat} (hl : ∀ p ∈ l, inside p = true) :
    upTo inside (l ++ l') = l ++ upTo inside l' := by
  induction l with
  | nil => rfl
  | cons q l ih =>
    rw [List.cons_append, upTo, if_pos (hl q (List.mem_cons_self ..)),
      ih fun p hp => hl p (List.mem_cons_of_mem _ hp), List.cons_append]

end Window
