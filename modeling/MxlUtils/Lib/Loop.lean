import Mathlib.Data.List.Basic

/- Loops that need not end. A body goes on with a new state (`inl`) or stops with
   a result (`inr`). `run` makes a bounded number of rounds, so it computes; a loop
   ends with `b` if some number of rounds does, and spins if none is enough. -/
namespace Loop

variable {σ β : Type} {body : σ → σ ⊕ β} {s s' : σ} {b b' : β}

/-- The result, if the loop stops within `n` rounds. -/
def run (body : σ → σ ⊕ β) : Nat → σ → Option β
  | 0, _ => none
  | n + 1, s =>
    match body s with
    | .inl s' => run body n s'
    | .inr b => some b

/-- Some number of rounds ends the loop. -/
def Ends (body : σ → σ ⊕ β) (s : σ) (b : β) : Prop := ∃ n, run body n s = some b

/-- No number of rounds ends the loop. -/
def Spins (body : σ → σ ⊕ β) (s : σ) : Prop := ∀ n, run body n s = none

@[simp] theorem run_zero : run body 0 s = none := rfl

theorem run_succ_inl {n : Nat} (h : body s = .inl s') : run body (n + 1) s = run body n s' := by
  rw [run, h]

theorem run_succ_inr {n : Nat} (h : body s = .inr b) : run body (n + 1) s = some b := by
  rw [run, h]

/-- More rounds than needed change nothing. -/
theorem run_mono {n m : Nat} (h : run body n s = some b) (hle : n ≤ m) : run body m s = some b := by
  induction n generalizing s m with
  | zero => simp at h
  | succ n ih =>
    obtain ⟨m, rfl⟩ : ∃ k, m = k + 1 := ⟨m - 1, by omega⟩
    cases hbody : body s with
    | inl s₁ =>
      rw [run_succ_inl hbody] at h ⊢
      exact ih h (by omega)
    | inr b₁ =>
      rw [run_succ_inr hbody] at h ⊢
      exact h

/-- A loop has one result. -/
theorem Ends.unique (h : Ends body s b) (h' : Ends body s b') : b = b' := by
  obtain ⟨n, hn⟩ := h
  obtain ⟨m, hm⟩ := h'
  have hn := run_mono hn (Nat.le_max_left n m)
  have hm := run_mono hm (Nat.le_max_right n m)
  exact Option.some.inj (hn.symm.trans hm)

theorem ends_inr (h : body s = .inr b) : Ends body s b := ⟨1, run_succ_inr h⟩

theorem ends_inl (h : body s = .inl s') (hs : Ends body s' b) : Ends body s b := by
  obtain ⟨n, hn⟩ := hs
  exact ⟨n + 1, by rw [run_succ_inl h, hn]⟩

theorem not_ends_of_spins (h : Spins body s) : ¬Ends body s b := by
  rintro ⟨n, hn⟩
  rw [h n] at hn
  simp at hn

theorem spins_inl (h : body s = .inl s') (hs : Spins body s') : Spins body s := by
  intro n
  cases n with
  | zero => rfl
  | succ n => rw [run_succ_inl h, hs n]

/-- What the body goes on from and keeps, it goes on from for ever. -/
theorem spins_of_inv {I : σ → Prop} (hI : ∀ s, I s → ∃ s', body s = .inl s' ∧ I s') (hs : I s) :
    Spins body s := by
  intro n
  induction n generalizing s with
  | zero => rfl
  | succ n ih =>
    obtain ⟨s', hbody, hs'⟩ := hI s hs
    rw [run_succ_inl hbody]
    exact ih hs'

/-! ## Loops that count -/

/-- What holds before the first index, and from each index to the next, holds after the last. -/
theorem foldl_range'_inv {f : σ → Nat → σ} {P : Nat → σ → Prop} {start n : Nat} (hs : P start s)
    (hstep : ∀ i s, start ≤ i → i < start + n → P i s → P (i + 1) (f s i)) :
    P (start + n) ((List.range' start n).foldl f s) := by
  induction n generalizing start s with
  | zero => exact hs
  | succ n ih =>
    have hnext := @ih (f s start) (start + 1) (hstep start s (Nat.le_refl start) (by omega) hs)
      fun i s hle hlt => hstep i s (by omega) (by omega)
    rw [Nat.add_right_comm start 1 n] at hnext
    exact hnext

end Loop
