import Mathlib.Tactic.Common

/- A loop that looks at one answer after the other, up to a budget, and stops at the first that is
   as it should be. What such a loop does depends on nothing but the poll it stops at. -/
namespace Polling

variable {p : Nat → Prop} {n i : Nat}

/-- Of `n` polls the first that meets `p`. -/
structure First (p : Nat → Prop) (n i : Nat) : Prop where
  lt : i < n
  holds : p i
  before : ∀ j < i, ¬ p j

theorem First.unique {j : Nat} (h : First p n i) (h' : First p n j) : i = j := by
  rcases Nat.lt_trichotomy i j with hlt | heq | hlt
  · exact absurd h.holds (h'.before i hlt)
  · exact heq
  · exact absurd h'.holds (h.before j hlt)

/-- The loop stops at its first poll, or what is left of it does. -/
theorem First.cases (h : First p (n + 1) i) :
    i = 0 ∧ p 0 ∨ ∃ j, i = j + 1 ∧ ¬ p 0 ∧ First (fun k => p (k + 1)) n j := by
  cases i with
  | zero => exact Or.inl ⟨rfl, h.holds⟩
  | succ j =>
    right
    refine ⟨j, rfl, h.before 0 (Nat.succ_pos j), Nat.lt_of_succ_lt_succ h.lt, h.holds, ?_⟩
    intro k hk
    exact h.before (k + 1) (Nat.succ_lt_succ hk)

theorem exists_first_or (p : Nat → Prop) (n : Nat) : (∃ i, First p n i) ∨ ∀ i < n, ¬ p i := by
  induction n with
  | zero => exact Or.inr nofun
  | succ n ih =>
    rcases ih with ⟨i, hi⟩ | hnone
    · exact Or.inl ⟨i, Nat.lt_succ_of_lt hi.lt, hi.holds, hi.before⟩
    · by_cases hn : p n
      · exact Or.inl ⟨n, Nat.lt_succ_self n, hn, hnone⟩
      · right
        intro i hi
        rcases Nat.lt_succ_iff_lt_or_eq.mp hi with hlt | rfl
        · exact hnone i hlt
        · exact hn

/-- A poll that was made and meets `p` is the one the loop stopped at. -/
theorem First.eq_of_lt_succ {j : Nat} (h : First p n i) (hj : j < i + 1) (hp : p j) : j = i := by
  rcases Nat.lt_succ_iff_lt_or_eq.mp hj with hlt | heq
  · exact absurd hp (h.before j hlt)
  · exact heq

end Polling
