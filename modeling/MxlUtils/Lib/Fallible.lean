import MxlUtils.Lib.Prog

/- Programs whose calls may fail. `Fallible S ε α` stops at the first failure,
   the way C code written with "if (ret < 0) goto END" does; `attempt` keeps a
   failure as a value for code that goes on after it. Each construct gets the
   shape of its runs (`runs_*`) and its value under a handler (`exec_*`), so
   that a proof about a larger program never unfolds the transformer. -/
namespace Effect

/-- A program that returns an `α` or stops with an `ε`. -/
abbrev Fallible (S : Sig) (ε α : Type) := ExceptT ε (Prog S) α

namespace Fallible

variable {S : Sig} {ε α β σ : Type}

/-- A program whose result says whether it failed. -/
def ofProg (x : Prog S (Except ε α)) : Fallible S ε α := ExceptT.mk x

/-- A program that cannot fail. -/
def always (x : Prog S α) : Fallible S ε α := ExceptT.mk (Except.ok <$> x)

/-- Run `x` and hand its failure to the code that follows. -/
def attempt (x : Fallible S ε α) : Fallible S ε (Except ε α) := always x.run

def ofExcept : Except ε α → Fallible S ε α := fun r => ExceptT.mk (.done r)

/-- `x`, with every failure replaced by `e`. -/
def failWith (e : ε) (x : Fallible S ε α) : Fallible S ε α :=
  ExceptT.mk (Except.mapError (fun _ => e) <$> x.run)

/-! ## Shape of the runs -/

/-- `x` may produce `t` and end with `r`, a value or a failure. -/
def Runs (x : Fallible S ε α) (t : Trace S) (r : Except ε α) : Prop := Prog.Runs x.run t r

/-- The failure of one part of a program is the failure of the whole. -/
theorem bind_run (x : Fallible S ε α) (f : α → Fallible S ε β) :
    (x >>= f).run = x.run >>= fun
      | .ok a => (f a).run
      | .error e => .done (.error e) := rfl

@[simp] theorem runs_pure {a : α} {t : Trace S} {r : Except ε α} :
    Runs (pure a) t r ↔ t = [] ∧ r = .ok a := Iff.rfl

@[simp] theorem runs_throw {e : ε} {t : Trace S} {r : Except ε α} :
    Runs (throw e) t r ↔ t = [] ∧ r = .error e := Iff.rfl

@[simp] theorem runs_ofExcept {x r : Except ε α} {t : Trace S} :
    Runs (ofExcept x) t r ↔ t = [] ∧ r = x := Iff.rfl

@[simp] theorem runs_ofProg {x : Prog S (Except ε α)} {t : Trace S} {r : Except ε α} :
    Runs (ofProg x) t r ↔ Prog.Runs x t r := Iff.rfl

theorem runs_always {x : Prog S α} {t : Trace S} {r : Except ε α} :
    Runs (always x) t r ↔ ∃ a, Prog.Runs x t a ∧ r = .ok a := Prog.runs_map

theorem runs_attempt {x : Fallible S ε α} {t : Trace S} {r : Except ε (Except ε α)} :
    Runs (attempt x) t r ↔ ∃ r', Runs x t r' ∧ r = .ok r' := runs_always

theorem runs_bind {x : Fallible S ε α} {f : α → Fallible S ε β} {t : Trace S} {r : Except ε β} :
    Runs (x >>= f) t r ↔
      (∃ e, Runs x t (.error e) ∧ r = .error e) ∨
      (∃ t₁ a t₂, t = t₁ ++ t₂ ∧ Runs x t₁ (.ok a) ∧ Runs (f a) t₂ r) := by
  rw [Runs, bind_run, Prog.runs_bind]
  constructor
  · rintro ⟨t₁, c, t₂, rfl, h₁, h₂⟩
    cases c with
    | error e =>
      obtain ⟨rfl, rfl⟩ := h₂
      exact .inl ⟨e, by rwa [List.append_nil], rfl⟩
    | ok a => exact .inr ⟨t₁, a, t₂, rfl, h₁, h₂⟩
  · rintro (⟨e, h, rfl⟩ | ⟨t₁, a, t₂, rfl, h₁, h₂⟩)
    · exact ⟨t, .error e, [], by simp, h, rfl, rfl⟩
    · exact ⟨t₁, .ok a, t₂, rfl, h₁, h₂⟩

theorem runs_ite {c : Prop} [Decidable c] {x y : Fallible S ε α} {t : Trace S} {r : Except ε α} :
    Runs (if c then x else y) t r ↔ if c then Runs x t r else Runs y t r := by
  split <;> rfl

/-- A run of `x >>= f` that returns a value went through both. -/
theorem runs_bind_ok {x : Fallible S ε α} {f : α → Fallible S ε β} {t : Trace S} {b : β} :
    Runs (x >>= f) t (.ok b) ↔
      ∃ t₁ a t₂, t = t₁ ++ t₂ ∧ Runs x t₁ (.ok a) ∧ Runs (f a) t₂ (.ok b) := by
  rw [runs_bind]
  constructor
  · rintro (⟨e, _, h⟩ | h)
    · cases h
    · exact h
  · exact .inr

theorem runs_map {x : Fallible S ε α} {f : α → β} {t : Trace S} {r : Except ε β} :
    Runs (f <$> x) t r ↔ ∃ c, Runs x t c ∧ r = c.map f := by
  rw [map_eq_pure_bind, runs_bind]
  constructor
  · intro h
    rcases h with ⟨e, h, rfl⟩ | ⟨t₁, a, t₂, rfl, h, rfl, rfl⟩
    · exact ⟨.error e, h, rfl⟩
    · rw [List.append_nil]
      exact ⟨.ok a, h, rfl⟩
  · intro h
    obtain ⟨c, h, rfl⟩ := h
    cases c with
    | error e => exact .inl ⟨e, h, rfl⟩
    | ok a => exact .inr ⟨t, a, [], (List.append_nil t).symm, h, rfl, rfl⟩

/-- What follows a run of the first part that is known. -/
theorem runs_bind_of_ok {x : Fallible S ε α} {f : α → Fallible S ε β} {t₀ t : Trace S} {a : α}
    {r : Except ε β} (hx : Runs x t₀ (.ok a)) : Runs (x >>= f) (t₀ ++ t) r ↔ Runs (f a) t r := by
  have hnil : t₀ ++ t = t₀ ++ t ++ [] := (List.append_nil _).symm
  rw [runs_bind]
  constructor
  · intro h
    rcases h with ⟨e, he, -⟩ | ⟨t₁, a', t₂, heq, h₁, h₂⟩
    · obtain ⟨-, hr, -⟩ := Prog.runs_append_unique hx he hnil
      cases hr
    · obtain ⟨-, hr, rfl⟩ := Prog.runs_append_unique hx h₁ heq
      cases hr
      exact h₂
  · intro h
    exact .inr ⟨t₀, a, t, rfl, hx, h⟩

theorem runs_bind_of_error {x : Fallible S ε α} {f : α → Fallible S ε β} {t₀ t : Trace S} {e : ε}
    {r : Except ε β} (hx : Runs x t₀ (.error e)) :
    Runs (x >>= f) (t₀ ++ t) r ↔ t = [] ∧ r = .error e := by
  have hnil : t₀ ++ t = t₀ ++ t ++ [] := (List.append_nil _).symm
  rw [runs_bind]
  constructor
  · intro h
    rcases h with ⟨e', he, rfl⟩ | ⟨t₁, a', t₂, heq, h₁, h₂⟩
    · obtain ⟨-, hr, ht⟩ := Prog.runs_append_unique hx he hnil
      cases hr
      exact ⟨ht, rfl⟩
    · obtain ⟨-, hr, -⟩ := Prog.runs_append_unique hx h₁ heq
      cases hr
  · intro h
    obtain ⟨rfl, rfl⟩ := h
    exact .inl ⟨e, by rwa [List.append_nil], rfl⟩

/-- `x` with its trace; its failure is a value for the code that follows. -/
def traced (x : Fallible S ε α) : Fallible S ε (Trace S × Except ε α) := always x.run.traced

theorem runs_traced {x : Fallible S ε α} {t : Trace S} {c : Except ε (Trace S × Except ε α)} :
    Runs (traced x) t c ↔ ∃ r, Runs x t r ∧ c = .ok (t, r) := by
  rw [traced, runs_always]
  constructor
  · intro h
    obtain ⟨p, hp, rfl⟩ := h
    obtain ⟨r, hr, rfl⟩ := (Prog.runs_traced).mp hp
    exact ⟨r, hr, rfl⟩
  · intro h
    obtain ⟨r, hr, rfl⟩ := h
    exact ⟨(t, r), (Prog.runs_traced).mpr ⟨r, hr, rfl⟩, rfl⟩

/-- One access whose answer is a value or a failure, by way of `g` and its inverse. -/
theorem runs_access {o : S.Op} (g : S.Ret o → Except ε α) (inv : Except ε α → S.Ret o)
    (hg : ∀ x, g (inv x) = x) (hinv : ∀ a, inv (g a) = a) {t : Trace S} {c : Except ε α} :
    Runs (ofProg (.call o fun a => .done (g a))) t c ↔ t = [⟨o, inv c⟩] := by
  constructor
  · intro h
    obtain ⟨a, _, rfl, rfl, rfl⟩ := h
    rw [hinv]
  · intro h
    exact ⟨inv c, [], h, rfl, (hg c).symm⟩

/-- Such an access and the code after it. -/
theorem runs_access_bind {o : S.Op} (g : S.Ret o → Except ε α) (inv : Except ε α → S.Ret o)
    (hg : ∀ x, g (inv x) = x) (hinv : ∀ a, inv (g a) = a) {f : α → Fallible S ε β}
    {t : Trace S} {r : Except ε β} :
    Runs (ofProg (.call o fun a => .done (g a)) >>= f) t r ↔
      (∃ e, t = [⟨o, inv (.error e)⟩] ∧ r = .error e) ∨
      (∃ v t', t = ⟨o, inv (.ok v)⟩ :: t' ∧ Runs (f v) t' r) := by
  rw [runs_bind]
  constructor
  · intro h
    rcases h with ⟨e, hx, hr⟩ | ⟨_, v, t', rfl, hx, h⟩
    · exact .inl ⟨e, (runs_access g inv hg hinv).mp hx, hr⟩
    · rw [(runs_access g inv hg hinv).mp hx]
      exact .inr ⟨v, t', rfl, h⟩
  · intro h
    rcases h with ⟨e, rfl, hr⟩ | ⟨v, t', rfl, h⟩
    · exact .inl ⟨e, (runs_access g inv hg hinv).mpr rfl, hr⟩
    · exact .inr ⟨[⟨o, inv (.ok v)⟩], v, t', rfl, (runs_access g inv hg hinv).mpr rfl, h⟩

/-- What follows an attempt sees how it ended. -/
theorem runs_attempt_bind {x : Fallible S ε α} {f : Except ε α → Fallible S ε β} {t : Trace S}
    {r : Except ε β} :
    Runs (attempt x >>= f) t r ↔ ∃ t₁ c t₂, t = t₁ ++ t₂ ∧ Runs x t₁ c ∧ Runs (f c) t₂ r := by
  rw [runs_bind]
  constructor
  · intro h
    rcases h with ⟨e, he, -⟩ | ⟨t₁, c, t₂, rfl, hx, hf⟩
    · obtain ⟨_, _, h₀⟩ := (runs_attempt).mp he
      cases h₀
    · obtain ⟨c', hx, hc⟩ := (runs_attempt).mp hx
      cases hc
      exact ⟨t₁, c, t₂, rfl, hx, hf⟩
  · intro h
    obtain ⟨t₁, c, t₂, rfl, hx, hf⟩ := h
    exact .inr ⟨t₁, c, t₂, rfl, (runs_attempt).mpr ⟨c, hx, rfl⟩, hf⟩

/-- One access that cannot fail, and the code after it. -/
theorem runs_always_bind {o : S.Op} {f : S.Ret o → Fallible S ε β} {t : Trace S}
    {r : Except ε β} :
    Runs (always (.call o .done) >>= f) t r ↔ ∃ a t', t = ⟨o, a⟩ :: t' ∧ Runs (f a) t' r := by
  rw [runs_bind]
  constructor
  · intro h
    rcases h with ⟨e, ⟨_, _, _, _, h₀⟩, _⟩ | ⟨_, v, t', rfl, ⟨a, _, rfl, rfl, hv⟩, h⟩
    · cases h₀
    · cases hv
      exact ⟨_, t', rfl, h⟩
  · intro h
    obtain ⟨a, t', rfl, h⟩ := h
    exact .inr ⟨[⟨o, a⟩], a, t', rfl, ⟨a, [], rfl, rfl, rfl⟩, h⟩

/-! ## Every call on every path -/

def All (P : S.Op → Prop) (x : Fallible S ε α) : Prop := x.run.All P

theorem All.pure {P : S.Op → Prop} (a : α) : All P (pure a : Fallible S ε α) := trivial

theorem All.throw {P : S.Op → Prop} (e : ε) : All P (throw e : Fallible S ε α) := trivial

theorem All.bind {P : S.Op → Prop} {x : Fallible S ε α} {f : α → Fallible S ε β}
    (hx : All P x) (hf : ∀ a, All P (f a)) : All P (x >>= f) := by
  rw [All, bind_run]
  refine Prog.All.bind hx fun r => ?_
  cases r with
  | ok a => exact hf a
  | error e => trivial

theorem All.ite {P : S.Op → Prop} {c : Prop} [Decidable c] {x y : Fallible S ε α}
    (hx : c → All P x) (hy : ¬c → All P y) : All P (if c then x else y) := by
  by_cases h : c
  · rw [if_pos h]; exact hx h
  · rw [if_neg h]; exact hy h

theorem All.always {P : S.Op → Prop} {x : Prog S α} (hx : x.All P) :
    All P (always x : Fallible S ε α) := by
  rw [All, Fallible.always, ExceptT.run_mk, map_eq_pure_bind]
  exact Prog.All.bind hx fun _ => trivial

theorem All.attempt {P : S.Op → Prop} {x : Fallible S ε α} (hx : All P x) : All P (attempt x) :=
  All.always hx

theorem All.failWith {P : S.Op → Prop} {x : Fallible S ε α} (hx : All P x) (e : ε) :
    All P (failWith e x) := by
  rw [All, Fallible.failWith, ExceptT.run_mk, map_eq_pure_bind]
  exact Prog.All.bind hx fun _ => trivial

/-! ## Programs that stop on what they see -/

/-- `x` comes to a result in `good` exactly when it gets no answer in `P`. -/
def GoesOn (P : Event S → Prop) (good : α → Prop) (x : Fallible S ε α) : Prop :=
  ∀ t r, Runs x t r → ((∃ a, r = .ok a ∧ good a) ↔ ∀ e ∈ t, ¬P e)

/-- `x` fails exactly when it gets an answer in `P`. -/
abbrev FailsOn (P : Event S → Prop) (x : Fallible S ε α) : Prop := GoesOn P (fun _ => True) x

section GoesOn
variable {P : Event S → Prop} {good : β → Prop}

theorem GoesOn.pure {b : β} (h : good b) : GoesOn P good (pure b : Fallible S ε β) := by
  intro t r hrun
  obtain ⟨rfl, rfl⟩ := (runs_pure).mp hrun
  simpa using h

theorem FailsOn.access {o : S.Op} {g : S.Ret o → Except ε α}
    (h : ∀ a, (g a).isOk = false ↔ P ⟨o, a⟩) :
    FailsOn P (ofProg (.call o fun a => .done (g a))) := by
  intro t r hrun
  obtain ⟨a, _, rfl, rfl, rfl⟩ := (runs_ofProg).mp hrun
  have ha := h a
  cases hg : g a <;> simpa [hg, Except.isOk, Except.toBool] using ha

theorem GoesOn.bind {x : Fallible S ε α} {f : α → Fallible S ε β} (hx : FailsOn P x)
    (hf : ∀ a, GoesOn P good (f a)) : GoesOn P good (x >>= f) := by
  intro t r h
  rcases (runs_bind).mp h with ⟨e, hrun, rfl⟩ | ⟨t₁, a, t₂, rfl, hrun, hrest⟩
  · have hno := hx t _ hrun
    simpa using hno
  · have hpre : ∀ e ∈ t₁, ¬P e := (hx t₁ _ hrun).mp ⟨a, rfl, trivial⟩
    rw [hf a t₂ r hrest]
    constructor
    · intro hpost e he
      rcases List.mem_append.mp he with he | he
      · exact hpre e he
      · exact hpost e he
    · intro hall e he
      exact hall e (List.mem_append_right _ he)

/-- A first access decides by itself: on an answer in `P` nothing good follows. -/
theorem GoesOn.access_bind {o : S.Op} {g : S.Ret o → Except ε α} {f : α → Fallible S ε β}
    (herr : ∀ a e, g a = .error e → P ⟨o, a⟩)
    (hstop : ∀ a v, g a = .ok v → P ⟨o, a⟩ → ∀ t b, Runs (f v) t (.ok b) → ¬good b)
    (hgo : ∀ a v, g a = .ok v → ¬P ⟨o, a⟩ → GoesOn P good (f v)) :
    GoesOn P good (ofProg (.call o fun a => .done (g a)) >>= f) := by
  intro t r h
  rcases (runs_bind).mp h with ⟨e, ⟨a, _, rfl, rfl, ha⟩, rfl⟩ |
    ⟨_, v, t₂, rfl, ⟨a, _, rfl, rfl, ha⟩, hrest⟩
  · have hP := herr a e ha.symm
    simpa using hP
  · by_cases hP : P ⟨o, a⟩
    · constructor
      · intro hgood
        obtain ⟨b, rfl, hb⟩ := hgood
        exact absurd hb (hstop a v ha.symm hP t₂ b hrest)
      · intro hall
        exact absurd hP (hall _ List.mem_cons_self)
    · rw [hgo a v ha.symm hP t₂ r hrest]
      simp [hP]

theorem GoesOn.ite {c : Prop} [Decidable c] {x y : Fallible S ε β}
    (hx : c → GoesOn P good x) (hy : ¬c → GoesOn P good y) :
    GoesOn P good (if c then x else y) := by
  by_cases h : c
  · rw [if_pos h]
    exact hx h
  · rw [if_neg h]
    exact hy h

theorem FailsOn.forM {ι : Type} {f : ι → Fallible S ε PUnit} (hf : ∀ i, FailsOn P (f i)) (l : List ι) :
    FailsOn P (l.forM f) := by
  induction l with
  | nil => exact GoesOn.pure trivial
  | cons i l ih => exact GoesOn.bind (hf i) fun _ => ih

/-- Two programs run one after the other, whatever comes of the first; the second one's failure
counts first. -/
theorem FailsOn.both {x y : Fallible S ε Unit} (hx : FailsOn P x) (hy : FailsOn P y) :
    FailsOn P (do
      let r ← attempt x
      let r₂ ← attempt y
      ofExcept (r₂.bind fun _ => r)) := by
  intro t r h
  obtain ⟨t₁, r₁, _, rfl, h₁, hrest⟩ := (runs_attempt_bind).mp h
  obtain ⟨t₂, r₂, _, rfl, h₂, hend⟩ := (runs_attempt_bind).mp hrest
  obtain ⟨rfl, rfl⟩ := (runs_ofExcept).mp hend
  have hx := hx t₁ r₁ h₁
  have hy := hy t₂ r₂ h₂
  cases r₁ with
  | error e =>
    obtain ⟨ev, hev, hP⟩ : ∃ e ∈ t₁, P e := by simpa using hx
    have hstop : ¬∀ e ∈ t₁ ++ (t₂ ++ []), ¬P e := fun hall =>
      hall ev (List.mem_append_left _ hev) hP
    cases r₂ <;> simpa [Except.bind] using hstop
  | ok a =>
    have hx : ∀ e ∈ t₁, ¬P e := hx.mp ⟨a, rfl, trivial⟩
    have hall : (∀ e ∈ t₁ ++ (t₂ ++ []), ¬P e) ↔ ∀ e ∈ t₂, ¬P e := by
      constructor
      · intro hall e he
        exact hall e (by simp [he])
      · intro hall e he
        rcases List.mem_append.mp he with he | he
        · exact hx e he
        · exact hall e (by simpa using he)
    rw [hall, ← hy]
    cases r₂ <;> simp [Except.bind]

theorem FailsOn.failWith {x : Fallible S ε α} (hx : FailsOn P x) (e : ε) :
    FailsOn P (failWith e x) := by
  intro t r h
  obtain ⟨r', hrun, rfl⟩ := (Prog.runs_map).mp h
  rw [← hx t r' hrun]
  cases r' <;> simp [Except.mapError]

end GoesOn

/-! ## Programs that go through an answer -/

/-- A run of `x` that succeeds got an answer in `P`. -/
def Gets (P : Event S → Prop) (x : Fallible S ε α) : Prop := ∀ t a, Runs x t (.ok a) → ∃ e ∈ t, P e

theorem Gets.first {P : Event S → Prop} {x : Fallible S ε α} {f : α → Fallible S ε β} (h : Gets P x) :
    Gets P (x >>= f) := by
  intro t b hrun
  obtain ⟨t₁, a, t₂, rfl, hx, -⟩ := (runs_bind_ok).mp hrun
  obtain ⟨e, he, hP⟩ := h t₁ a hx
  exact ⟨e, List.mem_append_left _ he, hP⟩

theorem Gets.after {P : Event S → Prop} {x : Fallible S ε α} {f : α → Fallible S ε β} (h : ∀ a, Gets P (f a)) :
    Gets P (x >>= f) := by
  intro t b hrun
  obtain ⟨t₁, a, t₂, rfl, -, hf⟩ := (runs_bind_ok).mp hrun
  obtain ⟨e, he, hP⟩ := h a t₂ b hf
  exact ⟨e, List.mem_append_right _ he, hP⟩

/-! ## How many calls a program makes -/

/-- Every run of `x` that succeeds makes `n` calls; one that fails makes no more. -/
def Makes (n : Nat) (x : Fallible S ε α) : Prop :=
  ∀ t r, Runs x t r → t.length ≤ n ∧ (r.isOk → t.length = n)

theorem Makes.pure (a : α) : Makes 0 (pure a : Fallible S ε α) := by
  intro t r h
  rw [(runs_pure.mp h).1]
  exact ⟨Nat.le_refl 0, fun _ => rfl⟩

theorem Makes.access {o : S.Op} {g : S.Ret o → Except ε α} :
    Makes 1 (ofProg (.call o fun a => .done (g a))) := by
  intro t r h
  obtain ⟨_, _, rfl, rfl, -⟩ := (runs_ofProg).mp h
  exact ⟨Nat.le_refl 1, fun _ => rfl⟩

theorem Makes.bind {n m : Nat} {x : Fallible S ε α} {f : α → Fallible S ε β} (hx : Makes n x)
    (hf : ∀ a, Makes m (f a)) : Makes (n + m) (x >>= f) := by
  intro t r h
  rcases (runs_bind).mp h with ⟨e, hrun, rfl⟩ | ⟨t₁, a, t₂, rfl, h₁, h₂⟩
  · exact ⟨Nat.le_add_right_of_le (hx t _ hrun).1, fun hok => by cases hok⟩
  · have hlen := (hx t₁ _ h₁).2 rfl
    have hrest := hf a t₂ r h₂
    rw [List.length_append, hlen]
    exact ⟨Nat.add_le_add_left hrest.1 n, fun hok => by rw [hrest.2 hok]⟩

/-- Two programs run one after the other, whatever comes of the first. -/
theorem Makes.both {n m : Nat} {x y : Fallible S ε Unit} (hx : Makes n x) (hy : Makes m y) :
    Makes (n + m) (do
      let r ← attempt x
      let r₂ ← attempt y
      ofExcept (r₂.bind fun _ => r)) := by
  intro t r h
  obtain ⟨t₁, r₁, _, rfl, h₁, hrest⟩ := (runs_attempt_bind).mp h
  obtain ⟨t₂, r₂, _, rfl, h₂, hend⟩ := (runs_attempt_bind).mp hrest
  obtain ⟨rfl, rfl⟩ := (runs_ofExcept).mp hend
  have hx := hx t₁ r₁ h₁
  have hy := hy t₂ r₂ h₂
  rw [List.append_nil, List.length_append]
  refine ⟨Nat.add_le_add hx.1 hy.1, fun hok => ?_⟩
  cases r₂ with
  | error e => cases hok
  | ok _ => rw [hx.2 hok, hy.2 rfl]

/-! ## Value under a handler -/

/-- The result and the final state of `x` under `h`. -/
def exec (h : Handler S σ) (x : Fallible S ε α) (s : σ) : Except ε α × σ := x.run.run h s

@[simp] theorem exec_pure (h : Handler S σ) (a : α) (s : σ) :
    exec h (pure a : Fallible S ε α) s = (.ok a, s) := rfl

@[simp] theorem exec_throw (h : Handler S σ) (e : ε) (s : σ) :
    exec h (throw e : Fallible S ε α) s = (.error e, s) := rfl

@[simp] theorem exec_ofExcept (h : Handler S σ) (r : Except ε α) (s : σ) :
    exec h (ofExcept r) s = (r, s) := rfl

@[simp] theorem exec_ofProg (h : Handler S σ) (x : Prog S (Except ε α)) (s : σ) :
    exec h (ofProg x) s = x.run h s := rfl

@[simp] theorem exec_always (h : Handler S σ) (x : Prog S α) (s : σ) :
    exec h (always x : Fallible S ε α) s = (.ok (x.run h s).1, (x.run h s).2) := by
  rw [exec, always, ExceptT.run_mk, map_eq_pure_bind, Prog.run_bind]
  rfl

@[simp] theorem exec_attempt (h : Handler S σ) (x : Fallible S ε α) (s : σ) :
    exec h (attempt x) s = (.ok (exec h x s).1, (exec h x s).2) := exec_always h _ s

theorem exec_bind (h : Handler S σ) (x : Fallible S ε α) (f : α → Fallible S ε β) (s : σ) :
    exec h (x >>= f) s = match exec h x s with
      | (.ok a, s') => exec h (f a) s'
      | (.error e, s') => (.error e, s') := by
  rw [exec, bind_run, Prog.run_bind, exec]
  rcases Prog.run h x.run s with ⟨a | a, s'⟩ <;> rfl

theorem exec_bind_ok {h : Handler S σ} {x : Fallible S ε α} {f : α → Fallible S ε β} {s s' : σ}
    {a : α} (hx : exec h x s = (.ok a, s')) : exec h (x >>= f) s = exec h (f a) s' := by
  rw [exec_bind, hx]

theorem exec_bind_error {h : Handler S σ} {x : Fallible S ε α} {f : α → Fallible S ε β}
    {s s' : σ} {e : ε} (hx : exec h x s = (.error e, s')) :
    exec h (x >>= f) s = (.error e, s') := by
  rw [exec_bind, hx]

@[simp] theorem exec_ite (h : Handler S σ) (c : Prop) [Decidable c] (x y : Fallible S ε α)
    (s : σ) : exec h (if c then x else y) s = if c then exec h x s else exec h y s := by
  split <;> rfl

/-! ## The same answer to every call of a kind -/

/-- A handler that answers each call the same whenever it is made. -/
def stateless (g : (o : S.Op) → S.Ret o) : Handler S Unit := fun o s => (g o, s)

/-- The result of `x` when its calls are answered by `g`. -/
def answered (g : (o : S.Op) → S.Ret o) (x : Fallible S ε α) : Except ε α := (exec (stateless g) x ()).1

section Answered
variable {g : (o : S.Op) → S.Ret o}

theorem answered_pure (a : α) : answered g (pure a : Fallible S ε α) = pure a := rfl

theorem answered_bind (x : Fallible S ε α) (f : α → Fallible S ε β) :
    answered g (x >>= f) = answered g x >>= fun a => answered g (f a) := by
  rw [answered, answered, exec_bind]
  rcases exec (stateless g) x () with ⟨e | a, -⟩ <;> rfl

theorem answered_attempt (x : Fallible S ε α) : answered g (attempt x) = pure (answered g x) := by
  rw [answered, exec_attempt]
  rfl

theorem answered_mapM {ι : Type} (f : ι → Fallible S ε α) (l : List ι) :
    answered g (l.mapM f) = l.mapM fun i => answered g (f i) := by
  induction l with
  | nil => rfl
  | cons i l ih => simp only [List.mapM_cons, answered_bind, ih, answered_pure]

theorem answered_bind_ok {x : Fallible S ε α} {f : α → Fallible S ε β} {a : α}
    (hx : answered g x = .ok a) : answered g (x >>= f) = answered g (f a) := by
  rw [answered_bind, hx]
  rfl

end Answered

/-- A list of computations succeeds when each of them does, with what each of them gives. -/
theorem mapM_eq_ok_iff {ι : Type} {f : ι → Except ε α} {g : ι → α} {l : List ι} {as : List α}
    (hg : ∀ i, (f i).isOk → f i = .ok (g i)) :
    l.mapM f = .ok as ↔ (∀ i ∈ l, (f i).isOk) ∧ as = l.map g := by
  induction l generalizing as with
  | nil =>
    constructor
    · intro h
      cases h
      exact ⟨by simp, rfl⟩
    · intro h
      rw [h.2]
      rfl
  | cons i l ih =>
    rw [List.mapM_cons, List.forall_mem_cons, List.map_cons]
    by_cases hi : (f i).isOk
    · rw [hg i hi]
      cases hl : l.mapM f with
      | error e =>
        refine iff_of_false (fun h => by cases h) fun h => ?_
        have hall := (@ih (l.map g)).mpr ⟨h.1.2, rfl⟩
        rw [hl] at hall
        cases hall
      | ok as' =>
        obtain ⟨hall, rfl⟩ := ih.mp hl
        constructor
        · intro h
          cases h
          exact ⟨⟨rfl, hall⟩, rfl⟩
        · intro h
          rw [h.2]
          rfl
    · refine iff_of_false (fun h => hi ?_) fun h => hi h.1.1
      cases hf : f i with
      | error e => rw [hf] at h; cases h
      | ok a => rfl

theorem exec_eq_iff {h : Handler S σ} {x : Fallible S ε α} {s s' : σ} {r : Except ε α} :
    exec h x s = (r, s') ↔ ∃ t, Runs x t r ∧ h.dev.Path s t s' := Prog.run_eq_iff

/-- The run whose answers are those of `g`. -/
theorem exists_runs_of_answered {g : (o : S.Op) → S.Ret o} {x : Fallible S ε α} {r : Except ε α}
    (h : answered g x = r) : ∃ t, Runs x t r ∧ ∀ e ∈ t, e.ret = g e.op := by
  obtain ⟨t, r', ht, hg⟩ := Prog.exists_runs g x.run
  have hpath : ∀ l : Trace S, (∀ e ∈ l, e.ret = g e.op) → (stateless g).dev.Path () l () := by
    intro l hl
    induction l with
    | nil => rfl
    | cons e l ih =>
      have he : e.ret = g e.op := hl e List.mem_cons_self
      refine ⟨(), ?_, ih fun e' he' => hl e' (List.mem_cons_of_mem e he')⟩
      show (g e.op, ()) = (e.ret, ())
      rw [he]
  have hexec : exec (stateless g) x () = (r', ()) := (exec_eq_iff).mpr ⟨t, ht, hpath t hg⟩
  have hr : r' = r := by
    rw [← h, answered, hexec]
  exact ⟨t, hr ▸ ht, hg⟩

end Fallible

end Effect
