import MxlUtils.Lib.Fallible

/- Where a program may lead. `Leads d x s a s'` says that `x`, begun in the state `s` of
   a nondeterministic device, may return `a` and leave the device in `s'`. The rules
   follow the program, in both directions, so they tell what it can do as well as what
   it cannot. -/
namespace Effect
namespace Fallible

variable {S : Sig} {ε α β σ : Type} {d : Dev S σ} {s s' : σ} {a : α} {b : β} {x : Fallible S ε α} {f : α → Fallible S ε β}

def Leads (d : Dev S σ) (x : Fallible S ε α) (s : σ) (a : α) (s' : σ) : Prop :=
  ∃ t, Runs x t (.ok a) ∧ d.Path s t s'

@[simp] theorem leads_pure {c : α} : Leads d (pure c : Fallible S ε α) s a s' ↔ a = c ∧ s' = s := by
  constructor
  · rintro ⟨t, hrun, hpath⟩
    obtain ⟨rfl, h⟩ := (runs_pure).mp hrun
    exact ⟨Except.ok.inj h, hpath⟩
  · rintro ⟨rfl, rfl⟩
    exact ⟨[], (runs_pure).mpr ⟨rfl, rfl⟩, rfl⟩

theorem leads_bind : Leads d (x >>= f) s b s' ↔ ∃ a m, Leads d x s a m ∧ Leads d (f a) m b s' := by
  constructor
  · rintro ⟨t, hrun, hpath⟩
    obtain ⟨t₁, a, t₂, rfl, hx, hf⟩ := (runs_bind_ok).mp hrun
    obtain ⟨m, hm, hpath⟩ := (Dev.path_append).mp hpath
    exact ⟨a, m, ⟨t₁, hx, hm⟩, t₂, hf, hpath⟩
  · rintro ⟨a, m, ⟨t₁, hx, hm⟩, t₂, hf, hpath⟩
    exact ⟨t₁ ++ t₂, (runs_bind_ok).mpr ⟨t₁, a, t₂, rfl, hx, hf⟩, (Dev.path_append).mpr ⟨m, hm, hpath⟩⟩

/-- One access that cannot fail. -/
theorem leads_always {o : S.Op} {v : S.Ret o} :
    Leads d (always (Prog.op o) : Fallible S ε (S.Ret o)) s v s' ↔ d s ⟨o, v⟩ s' := by
  constructor
  · rintro ⟨t, hrun, hpath⟩
    obtain ⟨w, ⟨u, t', rfl, rfl, rfl⟩, hv⟩ := (runs_always).mp hrun
    obtain rfl := Except.ok.inj hv
    obtain ⟨m, hm, rfl⟩ := hpath
    exact hm
  · intro h
    exact ⟨[⟨o, v⟩], (runs_always).mpr ⟨v, ⟨v, [], rfl, rfl, rfl⟩, rfl⟩, s', h, rfl⟩

theorem leads_ite {c : Prop} [Decidable c] {y : Fallible S ε α} :
    Leads d (if c then x else y) s a s' ↔ if c then Leads d x s a s' else Leads d y s a s' := by
  split <;> rfl

end Fallible
end Effect
