import Mathlib.Data.List.Basic
import Mathlib.Logic.Relation

/- Runs of a labelled transition relation, as the list of the labels with the states
   they lead to. If a step from a good state leads to a good state exactly when the
   label is allowed there, then all states of a run are good exactly when all its
   labels are allowed where they occur. -/
namespace Execution

variable {σ ι : Type} {step : σ → ι → σ → Prop} {Good : σ → Prop} {Ok : σ → ι → Prop}

/-- From `s` the labels lead through the listed states. -/
def Run (step : σ → ι → σ → Prop) : σ → List (ι × σ) → Prop
  | _, [] => True
  | s, (i, s') :: es => step s i s' ∧ Run step s' es

/-- Each label is allowed in the state before it. -/
def Allowed (Ok : σ → ι → Prop) : σ → List (ι × σ) → Prop
  | _, [] => True
  | s, (i, s') :: es => Ok s i ∧ Allowed Ok s' es

@[simp] theorem run_cons {s s' : σ} {i : ι} {es : List (ι × σ)} :
    Run step s ((i, s') :: es) ↔ step s i s' ∧ Run step s' es := Iff.rfl

@[simp] theorem allowed_cons {s s' : σ} {i : ι} {es : List (ι × σ)} :
    Allowed Ok s ((i, s') :: es) ↔ Ok s i ∧ Allowed Ok s' es := Iff.rfl

/-- The last state of a run. -/
def final : σ → List (ι × σ) → σ
  | s, [] => s
  | _, (_, s') :: es => final s' es

/-- The last step of a run is one from the last state of what comes before it. -/
theorem Run.last {s s' : σ} {i : ι} {es : List (ι × σ)} (hrun : Run step s (es ++ [(i, s')])) :
    step (final s es) i s' := by
  induction es generalizing s with
  | nil => exact hrun.1
  | cons e es ih => exact ih hrun.2

/-- What a step preserves, a run preserves. -/
theorem Run.inv {I : σ → Prop} (hstep : ∀ s i s', step s i s' → I s → I s') {s : σ} {es : List (ι × σ)}
    (hrun : Run step s es) (hs : I s) : ∀ e ∈ es, I e.2 := by
  induction es generalizing s with
  | nil => simp
  | cons e es ih =>
    obtain ⟨i, s'⟩ := e
    obtain ⟨h, hrun⟩ := hrun
    have hs' := hstep s i s' h hs
    intro e he
    rcases List.mem_cons.mp he with rfl | he
    · exact hs'
    · exact ih hrun hs' e he

/-- All states are good if and only if all labels are allowed. -/
theorem Run.good_iff {I : σ → Prop} (hinv : ∀ s i s', step s i s' → I s → I s')
    (hstep : ∀ s i s', step s i s' → I s → Good s → (Good s' ↔ Ok s i)) {s : σ} {es : List (ι × σ)}
    (hrun : Run step s es) (hI : I s) (hs : Good s) : (∀ e ∈ es, Good e.2) ↔ Allowed Ok s es := by
  induction es generalizing s with
  | nil => simp [Allowed]
  | cons e es ih =>
    obtain ⟨i, s'⟩ := e
    obtain ⟨h, hrun⟩ := hrun
    have hone := hstep s i s' h hI hs
    rw [List.forall_mem_cons, allowed_cons]
    constructor
    · rintro ⟨hs', hrest⟩
      exact ⟨hone.mp hs', (ih hrun (hinv s i s' h hI) hs').mp hrest⟩
    · rintro ⟨hok, hrest⟩
      have hs' := hone.mpr hok
      exact ⟨hs', (ih hrun (hinv s i s' h hI) hs').mpr hrest⟩

/-- What holds of the label of each step, holds of all labels of a run. -/
theorem Run.labels {P : ι → Prop} (hstep : ∀ s i s', step s i s' → P i) {s : σ} {es : List (ι × σ)}
    (hrun : Run step s es) : ∀ e ∈ es, P e.1 := by
  induction es generalizing s with
  | nil => simp
  | cons e es ih => exact List.forall_mem_cons.mpr ⟨hstep _ _ _ hrun.1, ih hrun.2⟩

/-- What each step does from a good state is right if and only if all labels are allowed, where
a step that is right leads to a good state. -/
theorem Run.allowed_iff {Right : σ → ι → Prop}
    (hstep : ∀ s i s', step s i s' → Good s → (Right s i ↔ Ok s i))
    (hgood : ∀ s i s', step s i s' → Good s → Right s i → Good s') {s : σ} {es : List (ι × σ)}
    (hrun : Run step s es) (hs : Good s) : Allowed Right s es ↔ Allowed Ok s es := by
  induction es generalizing s with
  | nil => exact Iff.rfl
  | cons e es ih =>
    obtain ⟨i, s'⟩ := e
    obtain ⟨h, hrun⟩ := hrun
    rw [allowed_cons, allowed_cons, ← hstep s i s' h hs]
    exact and_congr_right fun hright => ih hrun (hgood s i s' h hs hright)

/-! ## Where all executions end -/

section Inevitable
variable {next : σ → σ → Prop} {P Q : σ → Prop} {s s' : σ}

/-- Every execution from `s` comes to an end, in a state with `P`. -/
def Inevitable (next : σ → σ → Prop) (P : σ → Prop) (s : σ) : Prop :=
  Acc (flip next) s ∧ ∀ s', Relation.ReflTransGen next s s' → (∀ s'', ¬next s' s'') → P s'

theorem Inevitable.mono (h : Inevitable next P s) (himp : ∀ s, P s → Q s) : Inevitable next Q s :=
  ⟨h.1, fun s' hreach hfinal => himp s' (h.2 s' hreach hfinal)⟩

end Inevitable

end Execution
