import MxlUtils.Lib.Fallible

/- Shell commands. A command returns its exit status, 0 being success, or ends the
   script with `exit`. A function that reads the status of what it calls goes on from
   it; one that does not read it goes on whatever it is, so a failure is seen by the
   caller of a script only if someone passes it on. -/
namespace Effect

/-- A piece of a shell script: `exit` ends the whole script. -/
abbrev Sh (S : Sig) (α : Type) := Fallible S Nat α

namespace Sh

variable {S : Sig} {α : Type} {x y : Sh S Nat} {t : Trace S} {r : Except Nat Nat} {c : Nat}

/-- `[ b ]` -/
def test (b : Bool) : Sh S Nat := pure (if b then 0 else 1)

/-- `x && y` -/
def andThen (x y : Sh S Nat) : Sh S Nat := do
  let c ← x
  if c = 0 then y else pure c

/-- `x || y` -/
def orElse (x y : Sh S Nat) : Sh S Nat := do
  let c ← x
  if c = 0 then pure c else y

/-- A redirection without a command, such as `>&-`. -/
def nothing : Sh S Nat := pure 0

def exit (code : Nat) : Sh S α := throw code

/-- The exit status of a script. -/
def script (x : Sh S Nat) : Prog S Nat := x.run >>= fun
  | .ok c => .done c
  | .error c => .done c

theorem runs_script : (script x).Runs t c ↔ Fallible.Runs x t (.ok c) ∨ Fallible.Runs x t (.error c) := by
  rw [script, Prog.runs_bind]
  constructor
  · rintro ⟨t₁, r, t₂, rfl, hx, h⟩
    cases r with
    | ok a =>
      obtain ⟨rfl, rfl⟩ := h
      exact .inl (by rwa [List.append_nil])
    | error a =>
      obtain ⟨rfl, rfl⟩ := h
      exact .inr (by rwa [List.append_nil])
  · rintro (h | h)
    · exact ⟨t, .ok c, [], by simp, h, rfl, rfl⟩
    · exact ⟨t, .error c, [], by simp, h, rfl, rfl⟩

/-- `x || >&-` hides every status of `x` but that of an `exit`. -/
theorem runs_orElse_nothing :
    Fallible.Runs (orElse x nothing) t r ↔ (∃ c, Fallible.Runs x t (.ok c)) ∧ r = .ok 0 ∨
      ∃ c, Fallible.Runs x t (.error c) ∧ r = .error c := by
  have hrest : ∀ (a : Nat) (u : Trace S),
      Fallible.Runs (if a = 0 then pure a else nothing : Sh S Nat) u r ↔ u = [] ∧ r = .ok 0 := by
    intro a u
    by_cases ha : a = 0
    · rw [if_pos ha, ha, Fallible.runs_pure]
    · rw [if_neg ha, nothing, Fallible.runs_pure]
  rw [orElse, Fallible.runs_bind]
  constructor
  · rintro (h | ⟨t₁, a, t₂, rfl, hx, h⟩)
    · exact .inr h
    · obtain ⟨rfl, rfl⟩ := (hrest a t₂).mp h
      exact .inl ⟨⟨a, by rwa [List.append_nil]⟩, rfl⟩
  · rintro (⟨⟨a, hx⟩, rfl⟩ | h)
    · exact .inr ⟨t, a, [], by simp, hx, (hrest a []).mpr ⟨rfl, rfl⟩⟩
    · exact .inl h

/-- A script that ends in such a line has status 0, but for an `exit`. -/
theorem runs_script_orElse_nothing :
    (script (orElse x nothing)).Runs t c ↔
      c = 0 ∧ (∃ c', Fallible.Runs x t (.ok c')) ∨ Fallible.Runs x t (.error c) := by
  rw [runs_script, runs_orElse_nothing, runs_orElse_nothing]
  simp [and_comm]

theorem runs_test_andThen {b : Bool} :
    Fallible.Runs (andThen (test b) y) t r ↔ if b then Fallible.Runs y t r else t = [] ∧ r = .ok 1 := by
  cases b <;> rfl

/-! ## Scripts without `exit` -/

/-- `x` never ends the script. -/
def Returns (x : Sh S α) : Prop := ∀ t c, ¬Fallible.Runs x t (.error c)

theorem Returns.pure (a : α) : Returns (pure a : Sh S α) := by
  intro t c h
  simp at h

theorem Returns.always (x : Prog S α) : Returns (Fallible.always x) := by
  intro t c h
  obtain ⟨a, -, h⟩ := (Fallible.runs_always).mp h
  cases h

theorem Returns.bind {β : Type} {x : Sh S α} {f : α → Sh S β} (hx : Returns x) (hf : ∀ a, Returns (f a)) :
    Returns (x >>= f) := by
  intro t c h
  rcases (Fallible.runs_bind).mp h with ⟨e, h, -⟩ | ⟨t₁, a, t₂, -, -, h⟩
  · exact hx t e h
  · exact hf a t₂ c h

theorem Returns.ite {b : Prop} [Decidable b] {x y : Sh S α} (hx : Returns x) (hy : Returns y) :
    Returns (if b then x else y) := by
  by_cases hb : b
  · rw [if_pos hb]; exact hx
  · rw [if_neg hb]; exact hy

theorem Returns.andThen (hx : Returns x) (hy : Returns y) : Returns (andThen x y) :=
  hx.bind fun _ => .ite hy (.pure _)

theorem Returns.orElse (hx : Returns x) (hy : Returns y) : Returns (orElse x y) :=
  hx.bind fun _ => .ite (.pure _) hy

end Sh
end Effect
