import MxlUtils.Lib.Fallible

/- A lock beside a device. `Sig.locking S` adds `lock` and `unlock` to the
   operations of `S`, so a program over `S` cannot touch the lock by its type.
   A run leaves a list of lock events. Two monitors read it: `balance` treats
   the lock as a counter and fails on an unlock of a free lock; `mutex` treats
   it as a non-recursive lock and fails on an acquisition while it is held.
   `locked` and `lockedExit` are the two shapes of a function that brackets its
   body with the lock: one unlocks on every way out, one lets the body leave
   without unlocking. -/
namespace Effect

inductive LockOp (Op : Type) where
  | lock
  | unlock
  | acc (o : Op)
deriving DecidableEq

/-- The operations of `S`, and those of one lock. -/
abbrev Sig.locking (S : Sig) : Sig where
  Op := LockOp S.Op
  Ret
    | .lock => Unit
    | .unlock => Unit
    | .acc o => S.Ret o

inductive LockEv where
  | acquire
  | release
deriving DecidableEq, Repr

namespace Lock

variable {S : Sig} {ε α β σ : Type}

/-- The lock event of one operation, if it is one. -/
def eventOf (e : Event S.locking) : Option LockEv :=
  match e.op with
  | .lock => some .acquire
  | .unlock => some .release
  | .acc _ => none

/-- The lock events of a run, in order. -/
def events (t : Trace S.locking) : List LockEv := t.filterMap eventOf

@[simp] theorem events_nil : events ([] : Trace S.locking) = [] := rfl

@[simp] theorem events_append (t₁ t₂ : Trace S.locking) :
    events (t₁ ++ t₂) = events t₁ ++ events t₂ := List.filterMap_append

@[simp] theorem events_lock (t : Trace S.locking) :
    events (⟨.lock, ()⟩ :: t) = .acquire :: events t := rfl

@[simp] theorem events_unlock (t : Trace S.locking) :
    events (⟨.unlock, ()⟩ :: t) = .release :: events t := rfl

/-! ## Monitors -/

/-- The lock as a counter, from `n`: `none` if a run unlocks it while it is free. -/
def balance : Nat → List LockEv → Option Nat
  | n, [] => some n
  | n, .acquire :: l => balance (n + 1) l
  | 0, .release :: _ => none
  | n + 1, .release :: l => balance n l

/-- A non-recursive lock, from `held`: `none` if a run acquires it while it is held. -/
def mutex : Bool → List LockEv → Option Bool
  | held, [] => some held
  | true, .acquire :: _ => none
  | false, .acquire :: l => mutex true l
  | _, .release :: l => mutex false l

theorem balance_append (n : Nat) (l₁ l₂ : List LockEv) :
    balance n (l₁ ++ l₂) = (balance n l₁).bind fun m => balance m l₂ := by
  induction l₁ generalizing n with
  | nil => rfl
  | cons e l₁ ih =>
    cases e with
    | acquire => exact ih (n + 1)
    | release =>
      cases n with
      | zero => rfl
      | succ n => exact ih n

theorem mutex_append (held : Bool) (l₁ l₂ : List LockEv) :
    mutex held (l₁ ++ l₂) = (mutex held l₁).bind fun b => mutex b l₂ := by
  induction l₁ generalizing held with
  | nil => rfl
  | cons e l₁ ih =>
    cases e with
    | acquire => cases held with
      | true => rfl
      | false => exact ih true
    | release => cases held <;> exact ih false

/-- One more holder below a run that never fails changes nothing but the count. -/
theorem balance_add {n m : Nat} {l : List LockEv} (h : balance n l = some m) (k : Nat) :
    balance (n + k) l = some (m + k) := by
  induction l generalizing n with
  | nil =>
    cases h
    rfl
  | cons e l ih =>
    cases e with
    | acquire =>
      rw [balance, Nat.add_right_comm]
      exact ih h
    | release =>
      cases n with
      | zero => cases h
      | succ n =>
        rw [Nat.add_right_comm, balance]
        exact ih h

/-! ## Programs that do not touch the lock -/

/-- A program over `S`, as one that could use the lock. -/
def lift : Prog S α → Prog S.locking α
  | .done a => .done a
  | .call o k => .call (.acc o) (fun r => lift (k r))

/-- An access of `S` as an event beside the lock. -/
def accEvent (e : Event S) : Event S.locking := ⟨.acc e.op, e.ret⟩

@[simp] theorem events_acc (t : Trace S) : events (t.map accEvent) = [] := by
  induction t with
  | nil => rfl
  | cons e t ih => exact ih

theorem runs_lift {x : Prog S α} {t : Trace S.locking} {a : α} :
    Prog.Runs (lift x) t a ↔ ∃ t', t = t'.map accEvent ∧ Prog.Runs x t' a := by
  induction x generalizing t with
  | done b =>
    constructor
    · rintro ⟨rfl, rfl⟩
      exact ⟨[], rfl, rfl, rfl⟩
    · rintro ⟨t', rfl, rfl, rfl⟩
      exact ⟨rfl, rfl⟩
  | call o k ih =>
    constructor
    · rintro ⟨r, t₁, rfl, h⟩
      obtain ⟨t', rfl, hk⟩ := (ih r).mp h
      exact ⟨⟨o, r⟩ :: t', rfl, r, t', rfl, hk⟩
    · rintro ⟨_, rfl, r, t', rfl, h⟩
      exact ⟨r, t'.map accEvent, rfl, (ih r).mpr ⟨t', rfl, h⟩⟩

/-- An environment for `S`, with a lock that is always granted. -/
def handler (h : Handler S σ) : Handler S.locking σ
  | .lock, s => ((), s)
  | .unlock, s => ((), s)
  | .acc o, s => h o s

theorem run_lift (h : Handler S σ) (x : Prog S α) (s : σ) :
    Prog.run (handler h) (lift x) s = Prog.run h x s := by
  induction x generalizing s with
  | done a => rfl
  | call o k ih => exact ih _ _

/-! ## Functions that bracket their body with the lock -/

/-- A body's code outside the lock, in a function that also uses the lock. -/
def outside (x : Fallible S ε α) : Fallible S.locking ε α := ExceptT.mk (lift x.run)

def lock : Fallible S.locking ε Unit := .always (.call .lock .done)

def unlock : Fallible S.locking ε Unit := .always (.call .unlock .done)

/-- `lock; ret = body; unlock; return ret`: every way out of the body unlocks. -/
def locked (body : Fallible S ε α) : Fallible S.locking ε α :=
  ExceptT.mk (.call .lock fun _ => lift body.run >>= fun r => .call .unlock fun _ => .done r)

/-- How a body is left: to the common exit, which unlocks, or by a return on the spot. -/
inductive Exit (ε α : Type) where
  | toEnd (a : α)
  | leave (e : ε)
deriving DecidableEq

/-- A locked function some of whose ways out are a plain return: these keep the lock. -/
def lockedExit (body : Fallible S ε (Exit ε α)) : Fallible S.locking ε α :=
  ExceptT.mk (.call .lock fun _ => lift body.run >>= fun
    | .ok (.leave e) => .done (.error e)
    | .ok (.toEnd a) => .call .unlock fun _ => .done (.ok a)
    | .error e => .call .unlock fun _ => .done (.error e))

/-- `lock; ret = body; unlock; return ret`, around a body that may itself use the lock. -/
def bracket (body : Fallible S.locking ε α) : Fallible S.locking ε α :=
  ExceptT.mk (.call .lock fun _ => body.run >>= fun r => .call .unlock fun _ => .done r)

theorem runs_bracket {body : Fallible S.locking ε α} {t : Trace S.locking} {r : Except ε α} :
    (bracket body).Runs t r ↔
      ∃ t', t = ⟨.lock, ()⟩ :: (t' ++ [⟨.unlock, ()⟩]) ∧ body.Runs t' r := by
  constructor
  · intro h
    obtain ⟨⟨⟩, t₀, rfl, h⟩ := h
    obtain ⟨t', r', t₂, rfl, h', ⟨⟨⟩, _, rfl, rfl, rfl⟩⟩ := (Prog.runs_bind).mp h
    exact ⟨t', rfl, h'⟩
  · intro h
    obtain ⟨t', rfl, h⟩ := h
    exact ⟨(), _, rfl, (Prog.runs_bind).mpr ⟨t', r, _, rfl, h, (), [], rfl, rfl, rfl⟩⟩

theorem locked_eq_bracket (body : Fallible S ε α) : locked body = bracket (outside body) := rfl

theorem lift_bind (x : Prog S α) (f : α → Prog S β) :
    lift (x >>= f) = lift x >>= fun a => lift (f a) := by
  induction x with
  | done a => rfl
  | call o k ih => exact congrArg (Prog.call (S := S.locking) (LockOp.acc o)) (funext fun r => ih r)

theorem outside_bind (x : Fallible S ε α) (f : α → Fallible S ε β) :
    outside (x >>= f) = outside x >>= fun a => outside (f a) := by
  have hrun : lift (x >>= f).run = lift x.run >>= fun c => lift (ExceptT.bindCont f c) := lift_bind _ _
  refine congrArg ExceptT.mk (hrun.trans ?_)
  refine congrArg (lift x.run >>= ·) (funext fun c => ?_)
  cases c <;> rfl

theorem map_locked {β : Type} (f : α → β) (body : Fallible S ε α) : f <$> locked body = locked (f <$> body) := by
  have hlift : lift (f <$> body).run = lift body.run >>= fun r => .done (f <$> r) := by
    rw [map_eq_pure_bind, Fallible.bind_run, lift_bind]
    refine congrArg (lift body.run >>= ·) (funext fun r => ?_)
    cases r <;> rfl
  have hrun : (f <$> locked body).run = (locked (f <$> body)).run := by
    rw [map_eq_pure_bind, Fallible.bind_run]
    refine congrArg (Prog.call (S := S.locking) LockOp.lock) (funext fun _ => ?_)
    rw [hlift, bind_assoc]
    refine (bind_assoc _ _ _).trans (congrArg (lift body.run >>= ·) (funext fun r => ?_))
    cases r <;> rfl
  exact hrun

theorem runs_locked {body : Fallible S ε α} {t : Trace S.locking} {r : Except ε α} :
    (locked body).Runs t r ↔
      ∃ t', t = ⟨.lock, ()⟩ :: (t'.map accEvent ++ [⟨.unlock, ()⟩]) ∧ body.Runs t' r := by
  constructor
  · rintro ⟨⟨⟩, t₀, rfl, h⟩
    obtain ⟨t₁, r', t₂, rfl, h₁, ⟨⟨⟩, _, rfl, rfl, rfl⟩⟩ := (Prog.runs_bind).mp h
    obtain ⟨t', rfl, h'⟩ := (runs_lift).mp h₁
    exact ⟨t', rfl, h'⟩
  · rintro ⟨t', rfl, h⟩
    exact ⟨(), _, rfl, (Prog.runs_bind).mpr
      ⟨_, r, _, rfl, (runs_lift).mpr ⟨t', rfl, h⟩, (), [], rfl, rfl, rfl⟩⟩

/-- What a function's caller gets back from the body's exit. -/
def Exit.result : Except ε (Exit ε α) → Except ε α
  | .ok (.leave e) => .error e
  | .ok (.toEnd a) => .ok a
  | .error e => .error e

def Exit.leaves : Except ε (Exit ε α) → Bool
  | .ok (.leave _) => true
  | _ => false

theorem runs_lockedExit {body : Fallible S ε (Exit ε α)} {t : Trace S.locking} {r : Except ε α} :
    (lockedExit body).Runs t r ↔
      ∃ t' x, body.Runs t' x ∧ r = Exit.result x ∧
        t = ⟨.lock, ()⟩ :: (t'.map accEvent ++ if Exit.leaves x then [] else [⟨.unlock, ()⟩]) := by
  constructor
  · rintro ⟨⟨⟩, t₀, rfl, h⟩
    obtain ⟨t₁, x, t₂, rfl, h₁, h₂⟩ := (Prog.runs_bind).mp h
    obtain ⟨t', rfl, h'⟩ := (runs_lift).mp h₁
    rcases x with e | a | e
    · obtain ⟨⟨⟩, _, rfl, rfl, rfl⟩ := h₂
      exact ⟨t', _, h', rfl, rfl⟩
    · obtain ⟨⟨⟩, _, rfl, rfl, rfl⟩ := h₂
      exact ⟨t', _, h', rfl, rfl⟩
    · obtain ⟨rfl, rfl⟩ := h₂
      exact ⟨t', _, h', rfl, rfl⟩
  · rintro ⟨t', x, h, rfl, rfl⟩
    refine ⟨(), _, rfl, (Prog.runs_bind).mpr ⟨_, x, _, rfl, (runs_lift).mpr ⟨t', rfl, h⟩, ?_⟩⟩
    rcases x with e | a | e
    · exact ⟨(), [], rfl, rfl, rfl⟩
    · exact ⟨(), [], rfl, rfl, rfl⟩
    · exact ⟨rfl, rfl⟩

theorem exec_locked (h : Handler S σ) (body : Fallible S ε α) (s : σ) :
    (locked body).exec (handler h) s = body.exec h s := by
  change Prog.run (handler h) (lift body.run >>= _) s = Prog.run h body.run s
  rw [Prog.run_bind, run_lift]
  rfl

theorem answered_locked (g : (o : S.Op) → S.Ret o) (body : Fallible S ε α) :
    ((locked body).exec (handler (Fallible.stateless g)) ()).1 = body.answered g :=
  congrArg Prod.fst (exec_locked _ body ())

theorem exec_outside (h : Handler S σ) (x : Fallible S ε α) (s : σ) :
    (outside x).exec (handler h) s = x.exec h s := run_lift h x.run s

theorem exec_bracket (h : Handler S σ) (body : Fallible S.locking ε α) (s : σ) :
    (bracket body).exec (handler h) s = body.exec (handler h) s := by
  change Prog.run (handler h) (body.run >>= _) s = Prog.run (handler h) body.run s
  rw [Prog.run_bind]
  rfl

theorem exec_lockedExit (h : Handler S σ) (body : Fallible S ε (Exit ε α)) (s : σ) :
    (lockedExit body).exec (handler h) s =
      (Exit.result (body.exec h s).1, (body.exec h s).2) := by
  change Prog.run (handler h) (lift body.run >>= _) s = _
  rw [Prog.run_bind, run_lift, Fallible.exec]
  rcases Prog.run h body.run s with ⟨e | a | e, s'⟩ <;> rfl

theorem runs_outside {x : Fallible S ε α} {t : Trace S.locking} {r : Except ε α} :
    (outside x).Runs t r ↔ ∃ t', t = t'.map accEvent ∧ x.Runs t' r := runs_lift

/-- The accesses of a run, without its lock events. -/
def accesses (t : Trace S.locking) : Trace S :=
  t.filterMap fun
    | ⟨.acc o, r⟩ => some ⟨o, r⟩
    | _ => none

@[simp] theorem accesses_acc (t : Trace S) : accesses (t.map accEvent) = t := by
  induction t with
  | nil => rfl
  | cons e t ih => exact congrArg (e :: ·) ih

@[simp] theorem accesses_nil : accesses ([] : Trace S.locking) = [] := rfl

@[simp] theorem accesses_append (t₁ t₂ : Trace S.locking) :
    accesses (t₁ ++ t₂) = accesses t₁ ++ accesses t₂ := List.filterMap_append

@[simp] theorem accesses_lock (t : Trace S.locking) :
    accesses (⟨.lock, ()⟩ :: t) = accesses t := rfl

@[simp] theorem accesses_unlock (t : Trace S.locking) :
    accesses (⟨.unlock, ()⟩ :: t) = accesses t := rfl

theorem accesses_bracketed (t : Trace S) :
    accesses (⟨.lock, ()⟩ :: (t.map accEvent ++ [⟨.unlock, ()⟩])) = t := by
  rw [accesses_lock, accesses_append, accesses_acc]
  exact List.append_nil t

/-- The accesses of a bracketed function are those of its body. -/
theorem Runs.accesses_locked {body : Fallible S ε α} {t : Trace S.locking} {r : Except ε α}
    (h : (locked body).Runs t r) : body.Runs (accesses t) r := by
  obtain ⟨t', rfl, h⟩ := (runs_locked).mp h
  rwa [accesses_bracketed]

/-- Whatever answers are chosen for the accesses, some run gets them. -/
theorem exists_runs (g : (o : S.Op) → S.Ret o) (x : Fallible S.locking ε α) :
    ∃ t r, x.Runs t r ∧ ∀ e ∈ accesses t, e.ret = g e.op := by
  obtain ⟨t, r, h, hans⟩ := Prog.exists_runs (S := S.locking)
    (fun | .lock => () | .unlock => () | .acc o => g o) x.run
  refine ⟨t, r, h, fun e he => ?_⟩
  obtain ⟨⟨o, a⟩, hmem, hacc⟩ := List.mem_filterMap.mp he
  cases o with
  | lock => cases hacc
  | unlock => cases hacc
  | acc o =>
    cases hacc
    exact hans _ hmem

/-- A body's run, as a run of the bracketed function. -/
theorem runs_locked_of_body {body : Fallible S ε α} {t : Trace S} {r : Except ε α}
    (h : body.Runs t r) : ∃ t', (locked body).Runs t' r ∧ accesses t' = t :=
  ⟨_, (runs_locked).mpr ⟨t, rfl, h⟩, accesses_bracketed t⟩

/-- The trace of one locked body, as that of another. -/
theorem runs_locked_of_trace {β : Type} {body : Fallible S ε α} {body' : Fallible S ε β}
    {t : Trace S.locking} {r : Except ε α} {r' : Except ε β} (h : (locked body).Runs t r) :
    (locked body').Runs t r' ↔ body'.Runs (accesses t) r' := by
  constructor
  · exact Runs.accesses_locked
  · intro hbody
    obtain ⟨t', rfl, -⟩ := (runs_locked).mp h
    rw [accesses_bracketed] at hbody
    exact (runs_locked).mpr ⟨t', rfl, hbody⟩

/-- Bodies under the lock show all their runs. -/
theorem body_runs_of_locked {body body' : Fallible S ε α}
    (h : ∀ t r, (locked body).Runs t r → (locked body').Runs t r) {t : Trace S} {r : Except ε α}
    (hbody : body.Runs t r) : body'.Runs t r := by
  obtain ⟨t', hlocked, rfl⟩ := runs_locked_of_body hbody
  exact Runs.accesses_locked (h t' r hlocked)

theorem Runs.accesses_lockedExit {body : Fallible S ε (Exit ε α)} {t : Trace S.locking}
    {r : Except ε α} (h : (lockedExit body).Runs t r) :
    ∃ x, body.Runs (accesses t) x ∧ r = Exit.result x := by
  obtain ⟨t', x, h, rfl, rfl⟩ := (runs_lockedExit).mp h
  refine ⟨x, ?_, rfl⟩
  have hx : accesses (if Exit.leaves x then [] else [(⟨.unlock, ()⟩ : Event S.locking)]) = [] := by
    split <;> rfl
  rwa [accesses_lock, accesses_append, accesses_acc, hx, List.append_nil]

/-- The lock events of a bracketed function. -/
theorem events_locked {body : Fallible S ε α} {t : Trace S.locking} {r : Except ε α}
    (h : (locked body).Runs t r) : events t = [.acquire, .release] := by
  obtain ⟨t', rfl, -⟩ := (runs_locked).mp h
  simp

/-- A function with a plain return keeps the lock when its body leaves through it. -/
theorem events_lockedExit {body : Fallible S ε (Exit ε α)} {t : Trace S.locking}
    {r : Except ε α} (h : (lockedExit body).Runs t r) :
    ∃ x, body.Runs (accesses t) x ∧
      events t = if Exit.leaves x then [.acquire] else [.acquire, .release] := by
  obtain ⟨t', x, hrun, -, rfl⟩ := (runs_lockedExit).mp h
  refine ⟨x, ?_, ?_⟩
  · cases Exit.leaves x <;> simpa using hrun
  · cases Exit.leaves x <;> simp

/-! ## Every access on every path -/

/-- Every access `x` makes beside the lock, whatever the answers, satisfies `P`. -/
def Accesses (P : S.Op → Prop) (x : Fallible S.locking ε α) : Prop :=
  ∀ t r, x.Runs t r → ∀ e ∈ accesses t, P e.op

theorem Accesses.outside {P : S.Op → Prop} {x : Fallible S ε α} (h : x.All P) :
    Accesses P (outside x) := by
  intro t r hrun
  obtain ⟨t', rfl, hx⟩ := (runs_outside).mp hrun
  rw [accesses_acc]
  exact Prog.Runs.all hx h

theorem Accesses.bracket {P : S.Op → Prop} {x : Fallible S.locking ε α} (h : Accesses P x) :
    Accesses P (bracket x) := by
  intro t r hrun
  obtain ⟨t', rfl, hx⟩ := (runs_bracket).mp hrun
  rw [accesses_lock, accesses_append]
  simpa using h t' r hx

theorem Accesses.locked {P : S.Op → Prop} {x : Fallible S ε α} (h : x.All P) :
    Accesses P (locked x) :=
  Accesses.bracket (Accesses.outside h)

theorem Accesses.bind {P : S.Op → Prop} {x : Fallible S.locking ε α} {f : α → Fallible S.locking ε β}
    (hx : Accesses P x) (hf : ∀ a, Accesses P (f a)) : Accesses P (x >>= f) := by
  intro t r hrun
  rcases (Fallible.runs_bind).mp hrun with ⟨e, h, -⟩ | ⟨t₁, a, t₂, rfl, h₁, h₂⟩
  · exact hx t _ h
  · intro e he
    rw [accesses_append, List.mem_append] at he
    exact he.elim (hx t₁ _ h₁ e) (hf a t₂ r h₂ e)

theorem Accesses.throw {P : S.Op → Prop} (e : ε) :
    Accesses P (throw e : Fallible S.locking ε α) := by
  intro t r hrun
  obtain ⟨rfl, -⟩ := (Fallible.runs_throw).mp hrun
  simp

theorem Accesses.ite {P : S.Op → Prop} {c : Prop} [Decidable c] {x y : Fallible S.locking ε α}
    (hx : c → Accesses P x) (hy : ¬c → Accesses P y) : Accesses P (if c then x else y) := by
  by_cases h : c
  · rw [if_pos h]; exact hx h
  · rw [if_neg h]; exact hy h

/-! ## Programs that stop on what they see -/

/-- `x` fails exactly when one of its accesses gets an answer in `P`. -/
def FailsOn (P : Event S → Prop) (x : Fallible S.locking ε α) : Prop :=
  ∀ t r, x.Runs t r → ((∃ a, r = .ok a) ↔ ∀ e ∈ accesses t, ¬P e)

section FailsOn
variable {P : Event S → Prop}

theorem FailsOn.pure (a : α) : FailsOn P (pure a : Fallible S.locking ε α) := by
  intro t r hrun
  obtain ⟨rfl, rfl⟩ := (Fallible.runs_pure).mp hrun
  simp

theorem FailsOn.outside {x : Fallible S ε α} (h : Fallible.FailsOn P x) : FailsOn P (outside x) := by
  intro t r hrun
  obtain ⟨t', rfl, hx⟩ := (runs_outside).mp hrun
  rw [accesses_acc, ← h t' r hx]
  simp

theorem FailsOn.bracket {x : Fallible S.locking ε α} (h : FailsOn P x) : FailsOn P (bracket x) := by
  intro t r hrun
  obtain ⟨t', rfl, hx⟩ := (runs_bracket).mp hrun
  rw [h t' r hx, accesses_lock, accesses_append]
  simp

theorem FailsOn.locked {x : Fallible S ε α} (h : Fallible.FailsOn P x) : FailsOn P (locked x) :=
  FailsOn.bracket (FailsOn.outside h)

theorem FailsOn.bind {x : Fallible S.locking ε α} {f : α → Fallible S.locking ε β} (hx : FailsOn P x)
    (hf : ∀ a, FailsOn P (f a)) : FailsOn P (x >>= f) := by
  intro t r hrun
  rcases (Fallible.runs_bind).mp hrun with ⟨e, h, rfl⟩ | ⟨t₁, a, t₂, rfl, h₁, h₂⟩
  · have hno := hx t _ h
    simpa using hno
  · have hpre := (hx t₁ _ h₁).mp ⟨a, rfl⟩
    rw [hf a t₂ r h₂, accesses_append]
    simp only [List.mem_append]
    exact ⟨fun hpost e he => he.elim (hpre e) (hpost e), fun hall e he => hall e (.inr he)⟩

end FailsOn

/-! ## Bracketed programs -/

/-- Every run takes the lock once and releases it, or does not use it. -/
def Bracketed (x : Fallible S.locking ε α) : Prop :=
  ∀ t r, x.Runs t r → events t = [] ∨ events t = [.acquire, .release]

theorem Bracketed.locked (body : Fallible S ε α) : Bracketed (locked body) := fun _ _ h =>
  .inr (events_locked h)

theorem Bracketed.throw (e : ε) : Bracketed (throw e : Fallible S.locking ε α) := by
  intro t r h
  obtain ⟨rfl, -⟩ := (Fallible.runs_throw).mp h
  exact .inl rfl

theorem Bracketed.ite {c : Prop} [Decidable c] {x y : Fallible S.locking ε α}
    (hx : Bracketed x) (hy : Bracketed y) : Bracketed (if c then x else y) := by
  split
  · exact hx
  · exact hy

/-! ## Programs that take the lock first -/

/-- The first thing `x` does is to take the lock. -/
def LocksFirst (x : Fallible S.locking ε α) : Prop :=
  ∀ t r, x.Runs t r → ∃ t', t = ⟨.lock, ()⟩ :: t'

theorem LocksFirst.bracket (body : Fallible S.locking ε α) : LocksFirst (bracket body) := by
  intro t r h
  obtain ⟨t', ht, -⟩ := (runs_bracket).mp h
  exact ⟨_, ht⟩

theorem LocksFirst.locked (body : Fallible S ε α) : LocksFirst (locked body) :=
  LocksFirst.bracket (outside body)

/-- Two functions that refuse at once under some condition, and else take the lock, refuse under the
same condition if their runs are the same. -/
theorem LocksFirst.gate_iff {c c' : Prop} [Decidable c] [Decidable c'] {x x' : Fallible S.locking ε α} {e : ε}
    (hx : LocksFirst x) (hx' : LocksFirst x')
    (h : ∀ t r, (if c then throw e else x).Runs t r ↔ (if c' then throw e else x').Runs t r) : c ↔ c' := by
  have hgate := h [] (.error e)
  by_cases hc : c <;> by_cases hc' : c' <;> simp only [hc, hc', if_true, if_false] at hgate ⊢
  · obtain ⟨t, ht⟩ := hx' [] _ (hgate.mp ⟨rfl, rfl⟩)
    cases ht
  · obtain ⟨t, ht⟩ := hx [] _ (hgate.mpr ⟨rfl, rfl⟩)
    cases ht

theorem LocksFirst.bind {x : Fallible S.locking ε α} (hx : LocksFirst x)
    (f : α → Fallible S.locking ε β) : LocksFirst (x >>= f) := by
  intro t r h
  rcases (Fallible.runs_bind).mp h with ⟨e, h, -⟩ | ⟨t₁, a, t₂, rfl, h, -⟩
  · exact hx t _ h
  · obtain ⟨t', rfl⟩ := hx t₁ _ h
    exact ⟨t' ++ t₂, rfl⟩

theorem LocksFirst.attempt {x : Fallible S.locking ε α} (hx : LocksFirst x) :
    LocksFirst x.attempt := by
  intro t r h
  obtain ⟨c, h, -⟩ := (Fallible.runs_attempt).mp h
  exact hx t c h

/-- The accesses a run makes before it takes a lock it already holds: on a non-recursive lock, the
ones it makes at all. -/
def beforeNested : Bool → Trace S.locking → Trace S
  | _, [] => []
  | true, ⟨.lock, _⟩ :: _ => []
  | false, ⟨.lock, _⟩ :: t => beforeNested true t
  | _, ⟨.unlock, _⟩ :: t => beforeNested false t
  | held, ⟨.acc o, r⟩ :: t => ⟨o, r⟩ :: beforeNested held t

theorem beforeNested_acc (held : Bool) (t₁ : Trace S) (t₂ : Trace S.locking) :
    beforeNested held (t₁.map accEvent ++ t₂) = t₁ ++ beforeNested held t₂ := by
  induction t₁ with
  | nil => rfl
  | cons e t₁ ih => cases held <;> exact congrArg (e :: ·) ih

/-- A bracketed function that goes on, after a part of its own, either to a call that takes the lock
or to its end: it takes a lock it holds exactly when that part succeeds with a `b` that nests. -/
theorem mutex_bracket {pre : Fallible S ε β} {f : β → Fallible S.locking ε α} {nests : β → Prop}
    (hlocks : ∀ b, nests b → LocksFirst (f b)) (hends : ∀ b, ¬nests b → ∃ a, f b = pure a)
    {t : Trace S.locking} {r : Except ε α} (h : (bracket (outside pre >>= f)).Runs t r) :
    ∃ c, pre.Runs (beforeNested false t) c ∧
      (mutex false (events t) = none ↔ ∃ b, c = .ok b ∧ nests b) := by
  obtain ⟨t', rfl, hbody⟩ := (runs_bracket).mp h
  rcases (Fallible.runs_bind).mp hbody with ⟨e, hout, -⟩ | ⟨_, b, t₂, rfl, hout, hnest⟩
  · obtain ⟨t₁, rfl, hpre⟩ := (runs_outside).mp hout
    refine ⟨.error e, ?_, ?_⟩
    · simpa [beforeNested, beforeNested_acc] using hpre
    · simp [mutex]
  · obtain ⟨t₁, rfl, hpre⟩ := (runs_outside).mp hout
    refine ⟨.ok b, ?_⟩
    by_cases hb : nests b
    · obtain ⟨t₃, rfl⟩ := hlocks b hb _ _ hnest
      refine ⟨?_, ?_⟩
      · simpa [beforeNested, beforeNested_acc] using hpre
      · simp [mutex, hb]
    · obtain ⟨a, ha⟩ := hends b hb
      rw [ha] at hnest
      obtain ⟨rfl, -⟩ := (Fallible.runs_pure).mp hnest
      refine ⟨?_, ?_⟩
      · simpa [beforeNested, beforeNested_acc] using hpre
      · simp [mutex, hb]

/-- The same, when the first part says by what it sees whether it goes on. -/
theorem mutex_bracket_goesOn {P : Event S → Prop} {pre : Fallible S ε β}
    {f : β → Fallible S.locking ε α} {nests : β → Prop} (hpre : pre.GoesOn P nests)
    (hlocks : ∀ b, nests b → LocksFirst (f b)) (hends : ∀ b, ¬nests b → ∃ a, f b = pure a)
    {t : Trace S.locking} {r : Except ε α} (h : (bracket (outside pre >>= f)).Runs t r) :
    mutex false (events t) ≠ none ↔ ∃ e ∈ beforeNested false t, P e := by
  obtain ⟨c, hrun, hmutex⟩ := mutex_bracket hlocks hends h
  rw [Ne, hmutex, hpre _ _ hrun]
  simp

/-- The counter after some event lists, each of which raises it by a known amount. -/
theorem balance_flatMap {ι : Type} {f : ι → List LockEv} {g : ι → Nat}
    (l : List ι) (hf : ∀ v ∈ l, ∀ n, balance n (f v) = some (n + g v)) (n : Nat) :
    balance n (l.flatMap f) = some (n + (l.map g).sum) := by
  induction l generalizing n with
  | nil => rfl
  | cons v l ih =>
    rw [List.flatMap_cons, balance_append, hf v List.mem_cons_self, Option.bind_some,
      ih (fun w hw => hf w (List.mem_cons_of_mem _ hw)), List.map_cons, List.sum_cons,
      Nat.add_assoc]

end Lock

end Effect
