import MxlUtils.Lib.Fallible

/- Weakest preconditions over a nondeterministic device. `wp d x Q s` says that
   every run of `x` that the device allows from `s` ends in `Q`. The rules follow
   the program: a sequence is peeled with `wp_bind`, one access with `wp_access`.
   A run against any environment is a run against the device that only records
   what it sees (`Dev.record`), so the same rules prove facts about traces. -/
namespace Effect

namespace Dev

variable {S : Sig}

/-- An environment that answers anything; its state is the trace so far. -/
def record : Dev S (Trace S) := fun s e s' => s' = s ++ [e]

theorem path_record {s s' t : Trace S} : record.Path s t s' ↔ s' = s ++ t := by
  induction t generalizing s with
  | nil => rw [path_nil, List.append_nil]
  | cons e t ih =>
    constructor
    · intro h
      obtain ⟨m, hm, h⟩ := h
      rw [ih.mp h, show m = s ++ [e] from hm, List.append_assoc]
      rfl
    · intro h
      exact ⟨s ++ [e], rfl, ih.mpr (by rw [h, List.append_assoc]; rfl)⟩

end Dev

namespace Fallible

variable {S : Sig} {ε α β σ : Type} {d : Dev S σ} {s : σ}

/-- Every run of `x` that `d` allows from `s` ends with a result and a state in `Q`. -/
def wp (d : Dev S σ) (x : Fallible S ε α) (Q : Except ε α → σ → Prop) (s : σ) : Prop :=
  ∀ t r s', Runs x t r → d.Path s t s' → Q r s'

theorem wp_mono {x : Fallible S ε α} {Q Q' : Except ε α → σ → Prop} (h : wp d x Q s)
    (hQ : ∀ r s', Q r s' → Q' r s') : wp d x Q' s := by
  intro t r s' hrun hpath
  exact hQ r s' (h t r s' hrun hpath)

theorem wp_and {x : Fallible S ε α} {Q Q' : Except ε α → σ → Prop} (h : wp d x Q s)
    (h' : wp d x Q' s) : wp d x (fun r s' => Q r s' ∧ Q' r s') s := by
  intro t r s' hrun hpath
  exact ⟨h t r s' hrun hpath, h' t r s' hrun hpath⟩

theorem wp_pure {Q : Except ε α → σ → Prop} {a : α} (h : Q (.ok a) s) :
    wp d (pure a) Q s := by
  intro t r s' hrun hpath
  obtain ⟨rfl, rfl⟩ := (runs_pure).mp hrun
  rw [(Dev.path_nil).mp hpath]
  exact h

theorem wp_throw {Q : Except ε α → σ → Prop} {e : ε} (h : Q (.error e) s) :
    wp d (throw e) Q s := by
  intro t r s' hrun hpath
  obtain ⟨rfl, rfl⟩ := (runs_throw).mp hrun
  rw [(Dev.path_nil).mp hpath]
  exact h

theorem wp_ofExcept {Q : Except ε α → σ → Prop} {x : Except ε α} (h : Q x s) :
    wp d (ofExcept x) Q s := by
  intro t r s' hrun hpath
  obtain ⟨rfl, rfl⟩ := (runs_ofExcept).mp hrun
  rw [(Dev.path_nil).mp hpath]
  exact h

/-- A sequence: the second program starts where the first one ends. -/
theorem wp_bind {x : Fallible S ε α} {f : α → Fallible S ε β} {Q : Except ε β → σ → Prop}
    (h : wp d x (fun r s' => match r with
      | .ok a => wp d (f a) Q s'
      | .error e => Q (.error e) s') s) : wp d (x >>= f) Q s := by
  intro t r s' hrun hpath
  rcases (runs_bind).mp hrun with ⟨e, hx, rfl⟩ | ⟨t₁, a, t₂, rfl, hx, hf⟩
  · exact h t _ s' hx hpath
  · obtain ⟨m, hp₁, hp₂⟩ := (Dev.path_append).mp hpath
    exact h t₁ _ m hx hp₁ t₂ r s' hf hp₂

theorem wp_attempt {x : Fallible S ε α} {Q : Except ε (Except ε α) → σ → Prop}
    (h : wp d x (fun r s' => Q (.ok r) s') s) : wp d (attempt x) Q s := by
  intro t r s' hrun hpath
  obtain ⟨r', hx, rfl⟩ := (runs_attempt).mp hrun
  exact h t r' s' hx hpath

theorem wp_ite {c : Prop} [Decidable c] {x y : Fallible S ε α} {Q : Except ε α → σ → Prop}
    (hx : c → wp d x Q s) (hy : ¬c → wp d y Q s) : wp d (if c then x else y) Q s := by
  by_cases h : c
  · rw [if_pos h]; exact hx h
  · rw [if_neg h]; exact hy h

/-- One access. -/
theorem wp_access {o : S.Op} {g : S.Ret o → Except ε α} {Q : Except ε α → σ → Prop}
    (h : ∀ r s', d s ⟨o, r⟩ s' → Q (g r) s') :
    wp d (ofProg (.call o fun r => .done (g r))) Q s := by
  intro t r s' hrun hpath
  obtain ⟨a, _, rfl, rfl, rfl⟩ := (runs_ofProg).mp hrun
  obtain ⟨m, hm, hend⟩ := hpath
  rw [(Dev.path_nil).mp hend]
  exact h a m hm

/-- A value and a state in `P`, or a failure that leaves a state in `E`. -/
def EndsIn (P : α → σ → Prop) (E : σ → Prop) : Except ε α → σ → Prop
  | .ok a, s => P a s
  | .error _, s => E s

theorem wp_endsIn_bind {x : Fallible S ε α} {f : α → Fallible S ε β} {P : β → σ → Prop}
    {E : σ → Prop} (h : wp d x (EndsIn (fun a s' => wp d (f a) (EndsIn P E) s') E) s) :
    wp d (x >>= f) (EndsIn P E) s := by
  refine wp_bind (wp_mono h fun r s' hr => ?_)
  cases r with
  | ok a => exact hr
  | error e => exact hr

/-- A value and a state in `P`, or a failure. -/
def OnOk (P : α → σ → Prop) : Except ε α → σ → Prop := EndsIn P fun _ => True

theorem wp_onOk_bind {x : Fallible S ε α} {f : α → Fallible S ε β} {P : β → σ → Prop}
    (h : wp d x (OnOk fun a s' => wp d (f a) (OnOk P) s') s) : wp d (x >>= f) (OnOk P) s :=
  wp_endsIn_bind h

/-- What holds over the recording device holds of every run. -/
theorem wp_record {x : Fallible S ε α} {Q : Except ε α → Trace S → Prop}
    (h : wp Dev.record x Q []) {t : Trace S} {r : Except ε α} (hrun : Runs x t r) : Q r t :=
  h t r t hrun (Dev.path_record.mpr (List.nil_append t).symm)

end Fallible

end Effect
