import Mathlib.Algebra.Ring.Int.Defs
import Mathlib.Algebra.Ring.Nat
import Mathlib.Tactic.Common

/- Programs that talk to a device. A program is a tree of calls: at each node it
   names one operation and continues from the answer. Nothing is assumed about
   who answers, so a statement about `Runs x t a` holds for every environment:
   `t` is a list of operations with the answers they got, and `x` may produce
   it and return `a`. A deterministic environment is a `Handler`; a
   nondeterministic one is a labelled transition relation (`Dev`). Both are
   connected to `Runs` below. -/
namespace Effect

/-- The operations a program may call, and what each one answers. -/
structure Sig where
  Op : Type
  Ret : Op → Type

/-- A program over `S` that returns an `α`. -/
inductive Prog (S : Sig) (α : Type) : Type where
  | done (a : α)
  | call (o : S.Op) (k : S.Ret o → Prog S α)

/-- One operation together with the answer it got. -/
structure Event (S : Sig) where
  op : S.Op
  ret : S.Ret op

abbrev Trace (S : Sig) := List (Event S)

theorem not_mem_of_op {S : Sig} {e : Event S} {t : Trace S} (h : e.op ∉ t.map (·.op)) : e ∉ t :=
  fun hmem => h (List.mem_map_of_mem hmem)

namespace Prog

variable {S T : Sig} {α β γ σ : Type}

protected def bind : Prog S α → (α → Prog S β) → Prog S β
  | .done a, f => f a
  | .call o k, f => .call o (fun r => (k r).bind f)

instance : Monad (Prog S) where
  pure := .done
  bind := Prog.bind

/-- The program that makes one call and returns the answer. -/
def op (o : S.Op) : Prog S (S.Ret o) := .call o .done

theorem bind_assoc (x : Prog S α) (f : α → Prog S β) (g : β → Prog S γ) :
    x >>= f >>= g = x >>= fun a => f a >>= g := by
  induction x with
  | done a => rfl
  | call o k ih => exact congrArg (Prog.call o) (funext fun r => ih r)

theorem bind_done (x : Prog S α) : x >>= Prog.done = x := by
  induction x with
  | done a => rfl
  | call o k ih => exact congrArg (Prog.call o) (funext fun r => ih r)

instance : LawfulMonad (Prog S) :=
  LawfulMonad.mk' _ bind_done (fun _ _ => rfl) bind_assoc

@[simp] theorem pure_eq (a : α) : (pure a : Prog S α) = .done a := rfl

@[simp] theorem done_bind (a : α) (f : α → Prog S β) : Prog.done a >>= f = f a := rfl

@[simp] theorem call_bind (o : S.Op) (k : S.Ret o → Prog S α) (f : α → Prog S β) :
    Prog.call o k >>= f = .call o (fun r => k r >>= f) := rfl

@[simp] theorem op_bind (o : S.Op) (f : S.Ret o → Prog S β) : op o >>= f = .call o f := rfl

@[simp] theorem map_done (a : α) (f : α → β) : f <$> (Prog.done a : Prog S α) = .done (f a) := rfl

/-! ## Runs against any environment -/

/-- `x` may call the operations of `t`, get the answers of `t`, and return `b`. -/
def Runs : Prog S α → Trace S → α → Prop
  | .done a, t, b => t = [] ∧ b = a
  | .call o k, t, b => ∃ r t', t = ⟨o, r⟩ :: t' ∧ Runs (k r) t' b

@[simp] theorem runs_done {a b : α} {t : Trace S} : Runs (.done a) t b ↔ t = [] ∧ b = a := Iff.rfl

@[simp] theorem runs_call {o : S.Op} {k : S.Ret o → Prog S α} {t : Trace S} {b : α} :
    Runs (.call o k) t b ↔ ∃ r t', t = ⟨o, r⟩ :: t' ∧ Runs (k r) t' b := Iff.rfl

theorem runs_bind {x : Prog S α} {f : α → Prog S β} {t : Trace S} {b : β} :
    Runs (x >>= f) t b ↔ ∃ t₁ a t₂, t = t₁ ++ t₂ ∧ Runs x t₁ a ∧ Runs (f a) t₂ b := by
  induction x generalizing t with
  | done a =>
    constructor
    · intro h
      exact ⟨[], a, t, rfl, ⟨rfl, rfl⟩, h⟩
    · rintro ⟨t₁, a', t₂, rfl, ⟨rfl, rfl⟩, h⟩
      exact h
  | call o k ih =>
    constructor
    · rintro ⟨r, t', rfl, h⟩
      obtain ⟨t₁, a, t₂, rfl, h₁, h₂⟩ := (ih r).mp h
      exact ⟨⟨o, r⟩ :: t₁, a, t₂, rfl, ⟨r, t₁, rfl, h₁⟩, h₂⟩
    · rintro ⟨t₁, a, t₂, rfl, ⟨r, t', rfl, h₁⟩, h₂⟩
      exact ⟨r, t' ++ t₂, rfl, (ih r).mpr ⟨t', a, t₂, rfl, h₁, h₂⟩⟩

theorem runs_map {x : Prog S α} {f : α → β} {t : Trace S} {b : β} :
    Runs (f <$> x) t b ↔ ∃ a, Runs x t a ∧ b = f a := by
  rw [map_eq_pure_bind, runs_bind]
  constructor
  · rintro ⟨t₁, a, t₂, rfl, h, rfl, rfl⟩
    exact ⟨a, by simpa using h, rfl⟩
  · rintro ⟨a, h, rfl⟩
    exact ⟨t, a, [], by simp, h, rfl, rfl⟩

/-- The answers determine the run: of the traces of a program none goes on from another. -/
theorem runs_append_unique {x : Prog S α} {t t' u u' : Trace S} {a b : α} (h : Runs x t a) (h' : Runs x t' b)
    (heq : t ++ u = t' ++ u') : t = t' ∧ a = b ∧ u = u' := by
  induction x generalizing t t' with
  | done c =>
    obtain ⟨rfl, rfl⟩ := h
    obtain ⟨rfl, rfl⟩ := h'
    exact ⟨rfl, rfl, heq⟩
  | call o k ih =>
    obtain ⟨r, t₁, rfl, h₁⟩ := h
    obtain ⟨r', t₂, rfl, h₂⟩ := h'
    obtain ⟨hevent, hrest⟩ := List.cons.inj heq
    cases hevent
    obtain ⟨rfl, hab, hu⟩ := ih r h₁ h₂ hrest
    exact ⟨rfl, hab, hu⟩

theorem runs_unique {x : Prog S α} {t : Trace S} {a b : α} (h : Runs x t a) (h' : Runs x t b) : a = b :=
  (runs_append_unique h h' (rfl : t ++ [] = t ++ [])).2.1

/-- `x`, with its trace. -/
def traced : Prog S α → Prog S (Trace S × α)
  | .done a => .done ([], a)
  | .call o k => .call o fun r => (k r).traced >>= fun p => .done (⟨o, r⟩ :: p.1, p.2)

theorem runs_traced {x : Prog S α} {t : Trace S} {b : Trace S × α} :
    Runs x.traced t b ↔ ∃ a, Runs x t a ∧ b = (t, a) := by
  induction x generalizing t b with
  | done a =>
    constructor
    · rintro ⟨rfl, rfl⟩
      exact ⟨a, ⟨rfl, rfl⟩, rfl⟩
    · rintro ⟨_, ⟨rfl, rfl⟩, rfl⟩
      exact ⟨rfl, rfl⟩
  | call o k ih =>
    constructor
    · rintro ⟨r, t₀, rfl, h⟩
      obtain ⟨t₁, p, t₂, rfl, h₁, rfl, rfl⟩ := (runs_bind).mp h
      obtain ⟨a, ha, rfl⟩ := (ih r).mp h₁
      rw [List.append_nil]
      exact ⟨a, ⟨r, t₁, rfl, ha⟩, rfl⟩
    · rintro ⟨a, ⟨r, t₁, rfl, ha⟩, rfl⟩
      refine ⟨r, t₁, rfl, (runs_bind).mpr ⟨t₁, (t₁, a), [], (List.append_nil _).symm, ?_, rfl, rfl⟩⟩
      exact (ih r).mpr ⟨a, ha, rfl⟩

/-- Whatever answers are chosen, some run gets them. -/
theorem exists_runs (g : (o : S.Op) → S.Ret o) (x : Prog S α) :
    ∃ t a, Runs x t a ∧ ∀ e ∈ t, e.ret = g e.op := by
  induction x with
  | done a => exact ⟨[], a, ⟨rfl, rfl⟩, by simp⟩
  | call o k ih =>
    obtain ⟨t, a, h, hg⟩ := ih (g o)
    refine ⟨⟨o, g o⟩ :: t, a, ⟨g o, t, rfl, h⟩, ?_⟩
    intro e he
    rcases List.mem_cons.mp he with he | he
    · rw [he]
    · exact hg e he

/-! ## Every call on every path -/

/-- Every operation `x` may call, whatever the answers, satisfies `P`. -/
def All (P : S.Op → Prop) : Prog S α → Prop
  | .done _ => True
  | .call o k => P o ∧ ∀ r, (k r).All P

theorem All.bind {P : S.Op → Prop} {x : Prog S α} {f : α → Prog S β}
    (hx : x.All P) (hf : ∀ a, (f a).All P) : (x >>= f).All P := by
  induction x with
  | done a => exact hf a
  | call o k ih => exact ⟨hx.1, fun r => ih r (hx.2 r)⟩

theorem All.ite {P : S.Op → Prop} {c : Prop} [Decidable c] {x y : Prog S α}
    (hx : c → x.All P) (hy : ¬c → y.All P) : (if c then x else y).All P := by
  by_cases h : c
  · rw [if_pos h]; exact hx h
  · rw [if_neg h]; exact hy h

theorem All.mono {P Q : S.Op → Prop} {x : Prog S α} (hx : x.All P) (h : ∀ o, P o → Q o) :
    x.All Q := by
  induction x with
  | done a => trivial
  | call o k ih => exact ⟨h o hx.1, fun r => ih r (hx.2 r)⟩

theorem Runs.all {P : S.Op → Prop} {x : Prog S α} {t : Trace S} {a : α}
    (h : Runs x t a) (hx : x.All P) : ∀ e ∈ t, P e.op := by
  induction x generalizing t with
  | done b => obtain ⟨rfl, -⟩ := h; simp
  | call o k ih =>
    obtain ⟨r, t', rfl, h'⟩ := h
    intro e he
    rcases List.mem_cons.mp he with rfl | he
    · exact hx.1
    · exact ih r h' (hx.2 r) e he

/-! ## Deterministic environments -/

end Prog

/-- An environment that answers each operation from its state. -/
abbrev Handler (S : Sig) (σ : Type) := (o : S.Op) → σ → S.Ret o × σ

/-- An environment that may answer in several ways: the transitions it allows. -/
abbrev Dev (S : Sig) (σ : Type) := σ → Event S → σ → Prop

namespace Prog

variable {S T : Sig} {α β γ σ τ : Type}

def run (h : Handler S σ) : Prog S α → σ → α × σ
  | .done a, s => (a, s)
  | .call o k, s => (k (h o s).1).run h (h o s).2

@[simp] theorem run_done (h : Handler S σ) (a : α) (s : σ) : run h (.done a) s = (a, s) := rfl

@[simp] theorem run_call (h : Handler S σ) (o : S.Op) (k : S.Ret o → Prog S α) (s : σ) :
    run h (.call o k) s = run h (k (h o s).1) (h o s).2 := rfl

theorem run_bind (h : Handler S σ) (x : Prog S α) (f : α → Prog S β) (s : σ) :
    run h (x >>= f) s = run h (f (run h x s).1) (run h x s).2 := by
  induction x generalizing s with
  | done a => rfl
  | call o k ih => exact ih _ _

theorem run_ite (h : Handler S σ) (c : Prop) [Decidable c] (x y : Prog S α) (s : σ) :
    run h (if c then x else y) s = if c then run h x s else run h y s := by
  split <;> rfl

/-- What one call preserves, a run preserves. -/
theorem run_inv {h : Handler S σ} {I : σ → Prop} {P : S.Op → Prop} {x : Prog S α}
    (hx : x.All P) (step : ∀ o s, P o → I s → I (h o s).2) {s : σ} (hs : I s) :
    I (run h x s).2 := by
  induction x generalizing s with
  | done a => exact hs
  | call o k ih => exact ih _ (hx.2 _) (step o s hx.1 hs)

end Prog

/-! ## Nondeterministic environments -/

namespace Dev

variable {S : Sig} {σ : Type} {d : Dev S σ}

/-- The environment may go from `s` to `s'` while it answers as in `t`. -/
def Path (d : Dev S σ) : σ → Trace S → σ → Prop
  | s, [], s' => s' = s
  | s, e :: t, s' => ∃ m, d s e m ∧ Path d m t s'

@[simp] theorem path_nil {s s' : σ} : Path d s [] s' ↔ s' = s := Iff.rfl

@[simp] theorem path_cons {s s' : σ} {e : Event S} {t : Trace S} :
    Path d s (e :: t) s' ↔ ∃ m, d s e m ∧ Path d m t s' := Iff.rfl

theorem path_append {s s' : σ} {t₁ t₂ : Trace S} :
    Path d s (t₁ ++ t₂) s' ↔ ∃ m, Path d s t₁ m ∧ Path d m t₂ s' := by
  induction t₁ generalizing s with
  | nil => simp
  | cons e t₁ ih =>
    constructor
    · rintro ⟨m, hm, h⟩
      obtain ⟨m', h₁, h₂⟩ := ih.mp h
      exact ⟨m', ⟨m, hm, h₁⟩, h₂⟩
    · rintro ⟨m', ⟨m, hm, h₁⟩, h₂⟩
      exact ⟨m, hm, ih.mpr ⟨m', h₁, h₂⟩⟩

/-- A path of one device is a path of another that follows it step by step. -/
theorem path_map {τ : Type} {d' : Dev S τ} (f : σ → τ) (step : ∀ s e s', d s e s' → d' (f s) e (f s'))
    {s s' : σ} {t : Trace S} (h : Path d s t s') : Path d' (f s) t (f s') := by
  induction t generalizing s with
  | nil => exact congrArg f h
  | cons e t ih =>
    obtain ⟨m, hm, h⟩ := h
    exact ⟨f m, step s e m hm, ih h⟩

/-- What one transition preserves, a path preserves. -/
theorem path_inv {I : σ → Prop} (step : ∀ s e s', I s → d s e s' → I s')
    {s s' : σ} {t : Trace S} (hs : I s) (h : Path d s t s') : I s' := by
  induction t generalizing s with
  | nil => rw [(path_nil).mp h]; exact hs
  | cons e t ih =>
    obtain ⟨m, hm, h⟩ := h
    exact ih (step s e m hs hm) h

end Dev

/-- A deterministic environment as a transition relation. -/
def Handler.dev {S : Sig} {σ : Type} (h : Handler S σ) : Dev S σ :=
  fun s e s' => h e.op s = (e.ret, s')

namespace Prog

variable {S T : Sig} {α β γ σ τ : Type}

/-- The two semantics agree: the run under a handler is the one trace the handler allows. -/
theorem run_eq_iff {h : Handler S σ} {x : Prog S α} {s s' : σ} {a : α} :
    run h x s = (a, s') ↔ ∃ t, Runs x t a ∧ h.dev.Path s t s' := by
  induction x generalizing s with
  | done b =>
    constructor
    · intro hr
      cases hr
      exact ⟨[], ⟨rfl, rfl⟩, rfl⟩
    · rintro ⟨t, ⟨rfl, rfl⟩, rfl⟩
      rfl
  | call o k ih =>
    constructor
    · intro hr
      obtain ⟨t, ht, hp⟩ := (ih _).mp hr
      exact ⟨_ :: t, ⟨_, t, rfl, ht⟩, (h o s).2, rfl, hp⟩
    · rintro ⟨_, ⟨r, t', rfl, ht⟩, m, hm, hp⟩
      have hm : h o s = (r, m) := hm
      rw [run_call, hm]
      exact (ih r).mpr ⟨t', ht, hp⟩

/-! ## Implementing the operations of one program by another -/

/-- `x` with every call replaced by the program that implements it. -/
def interp (g : (o : S.Op) → Prog T (S.Ret o)) : Prog S α → Prog T α
  | .done a => .done a
  | .call o k => g o >>= fun r => (k r).interp g

theorem interp_bind (g : (o : S.Op) → Prog T (S.Ret o)) (x : Prog S α) (f : α → Prog S β) :
    (x >>= f).interp g = x.interp g >>= fun a => (f a).interp g := by
  induction x with
  | done a => rfl
  | call o k ih =>
    simp only [call_bind, interp, bind_assoc]
    exact congrArg (g o >>= ·) (funext fun r => ih r)

/-- Forward simulation. If every implementation, run against the lower device, is matched by one
transition of the upper device, then so is every run of a whole program. -/
theorem runs_interp_sim {g : (o : S.Op) → Prog T (S.Ret o)} {dl : Dev T τ} {du : Dev S σ}
    {R : τ → σ → Prop}
    (step : ∀ o l u t r l', R l u → Runs (g o) t r → dl.Path l t l' → ∃ u', du u ⟨o, r⟩ u' ∧ R l' u')
    {x : Prog S α} {t : Trace T} {a : α} {l l' : τ} {u : σ}
    (hR : R l u) (hx : Runs (x.interp g) t a) (hl : dl.Path l t l') :
    ∃ t' u', Runs x t' a ∧ du.Path u t' u' ∧ R l' u' := by
  induction x generalizing t l u with
  | done b =>
    obtain ⟨rfl, rfl⟩ := hx
    rw [Dev.path_nil] at hl
    exact ⟨[], u, ⟨rfl, rfl⟩, rfl, hl ▸ hR⟩
  | call o k ih =>
    obtain ⟨t₁, r, t₂, rfl, h₁, h₂⟩ := (runs_bind).mp hx
    obtain ⟨m, hm₁, hm₂⟩ := (Dev.path_append).mp hl
    obtain ⟨v, hv, hR'⟩ := step o l u t₁ r m hR h₁ hm₁
    obtain ⟨t', u', hrun, hpath, hend⟩ := ih r hR' h₂ hm₂
    exact ⟨⟨o, r⟩ :: t', u', ⟨r, t', rfl, hrun⟩, ⟨v, hv, hpath⟩, hend⟩

end Prog

/-! ## Two environments side by side -/

/-- The operations of both. -/
@[reducible] def Sig.sum (S T : Sig) : Sig := ⟨S.Op ⊕ T.Op, Sum.elim S.Ret T.Ret⟩

section Sum
variable {S T U : Sig} {α σ : Type}

/-- `d` answers the operations on the left; whatever happens on the right leaves its state alone. -/
def Dev.onLeft (d : Dev S σ) : Dev (S.sum T) σ
  | s, ⟨.inl o, r⟩, s' => d s ⟨o, r⟩ s'
  | s, ⟨.inr _, _⟩, s' => s' = s

/-- A program that uses the operations on the right only. -/
def Prog.inr : Prog T α → Prog (S.sum T) α
  | .done a => .done a
  | .call o k => .call (.inr o) fun r => (k r).inr

theorem Dev.onLeft_inr {d : Dev S σ} {x : Prog T α} {t : Trace (S.sum T)} {a : α} {s s' : σ}
    (hx : (Prog.inr x).Runs t a) (hd : d.onLeft.Path s t s') : s' = s := by
  induction x generalizing t s with
  | done b =>
    obtain ⟨rfl, -⟩ := hx
    exact hd
  | call o k ih =>
    obtain ⟨r, t', rfl, hx⟩ := hx
    obtain ⟨m, rfl, hd⟩ := hd
    exact ih r hx hd

/-- Each operation on the right replaced by the program that implements it. -/
def Prog.implement (g : (o : T.Op) → Prog U (T.Ret o)) :
    (o : (S.sum T).Op) → Prog (S.sum U) ((S.sum T).Ret o)
  | .inl o => .call (.inl o) .done
  | .inr o => (g o).inr

/-- The environment on the left cannot tell an operation on the right from its implementation. -/
theorem Prog.runs_implement {g : (o : T.Op) → Prog U (T.Ret o)} {d : Dev S σ} {x : Prog (S.sum T) α}
    {t : Trace (S.sum U)} {a : α} {s s' : σ} (hx : (x.interp (implement g)).Runs t a)
    (hd : d.onLeft.Path s t s') : ∃ t', x.Runs t' a ∧ d.onLeft.Path s t' s' := by
  have step : ∀ o l u t r l', l = u → (implement (S := S) g o).Runs t r → d.onLeft.Path l t l' →
      ∃ u', d.onLeft u ⟨o, r⟩ u' ∧ l' = u' := by
    intro o l u t r l' hlu hrun hpath
    subst hlu
    cases o with
    | inl o =>
      obtain ⟨r', t', rfl, rfl, rfl⟩ := hrun
      obtain ⟨m, hm, rfl⟩ := hpath
      exact ⟨l', hm, rfl⟩
    | inr o => exact ⟨l', Dev.onLeft_inr hrun hpath, rfl⟩
  obtain ⟨t', u', hrun, hpath, rfl⟩ := runs_interp_sim step rfl hx hd
  exact ⟨t', hrun, hpath⟩

theorem Dev.exists_runs_inr {d : Dev S σ} {x : Prog T α} {t : Trace T} {a : α} (h : x.Runs t a) (s : σ) :
    ∃ u, (Prog.inr x).Runs u a ∧ d.onLeft.Path s u s := by
  induction x generalizing t with
  | done b =>
    obtain ⟨-, rfl⟩ := h
    exact ⟨[], ⟨rfl, rfl⟩, rfl⟩
  | call o k ih =>
    obtain ⟨r, t', -, h⟩ := h
    obtain ⟨u, hrun, hpath⟩ := ih r h
    exact ⟨⟨.inr o, r⟩ :: u, ⟨r, u, rfl, hrun⟩, s, rfl, hpath⟩

/-- A run is one of the implementation if the answers it gets on the right are possible there. -/
theorem Prog.exists_runs_implement {g : (o : T.Op) → Prog U (T.Ret o)} {d : Dev S σ} {x : Prog (S.sum T) α}
    {t : Trace (S.sum T)} {a : α} {s s' : σ} (hx : x.Runs t a) (hd : d.onLeft.Path s t s')
    (hg : ∀ o r, ⟨.inr o, r⟩ ∈ t → ∃ u, (g o).Runs u r) :
    ∃ u, (x.interp (implement g)).Runs u a ∧ d.onLeft.Path s u s' := by
  induction x generalizing t s with
  | done b =>
    obtain ⟨rfl, rfl⟩ := hx
    exact ⟨[], ⟨rfl, rfl⟩, hd⟩
  | call o k ih =>
    obtain ⟨r, t, rfl, hx⟩ := hx
    obtain ⟨m, hm, hd⟩ := hd
    obtain ⟨u, hrun, hpath⟩ := ih r hx hd fun o r hmem => hg o r (List.mem_cons_of_mem _ hmem)
    cases o with
    | inl o => exact ⟨⟨.inl o, r⟩ :: u, ⟨r, u, rfl, hrun⟩, m, hm, hpath⟩
    | inr o =>
      obtain rfl := hm
      obtain ⟨v, hv⟩ := hg o r List.mem_cons_self
      obtain ⟨v, hv, hvpath⟩ := Dev.exists_runs_inr (d := d) hv m
      exact ⟨v ++ u, (runs_bind).mpr ⟨v, r, u, rfl, hv, hrun⟩, (Dev.path_append).mpr ⟨m, hvpath, hpath⟩⟩

end Sum

end Effect
