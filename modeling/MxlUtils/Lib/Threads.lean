import MxlUtils.Lib.Lock

/- Several parties that share a device and its lock. A schedule lists what they do in the order
   in which it happens; the lock is granted to one of them at a time. A party makes one call
   after another, and a call takes the lock, works and releases it, or does not use it at all,
   or leaves without the release, or wants the lock again. Then a schedule is a serial execution
   of calls: no call sees another one halfway. It can be continued as long as a party has
   something left to do, but for the last two kinds of call; after one of these nobody does
   anything. -/
namespace Effect.Lock

variable {S : Sig} {ι γ : Type}

/-- What the parties do, in the order in which it happens. -/
abbrev Schedule (S : Sig) (ι : Type) := List (ι × Event S.locking)

/-- The lock is never granted while it is held. -/
def Granted (w : Schedule S ι) : Prop := mutex false (events (w.map Prod.snd)) ≠ none

/-- A trace as what party `i` does. -/
def byParty (i : ι) (t : Trace S.locking) : Schedule S ι := t.map (Prod.mk i)

/-- What the device sees. -/
def seen (w : Schedule S ι) : Trace S := accesses (w.map Prod.snd)

section ByParty
variable {i : ι} {t t' : Trace S.locking} {w w' : Schedule S ι}

@[simp] theorem map_snd_byParty : (byParty i t).map Prod.snd = t := by simp [byParty, Function.comp_def]

theorem byParty_append : byParty i (t ++ t') = byParty i t ++ byParty i t' := List.map_append

@[simp] theorem seen_append : seen (w ++ w') = seen w ++ seen w' := by simp [seen]

@[simp] theorem seen_byParty : seen (byParty i t) = accesses t := by rw [seen, map_snd_byParty]

theorem seen_flatMap {tr : γ → Trace S.locking} (order : List (ι × γ)) :
    seen (order.flatMap fun p => byParty p.1 (tr p.2)) = order.flatMap fun p => accesses (tr p.2) := by
  induction order with
  | nil => rfl
  | cons p order ih => rw [List.flatMap_cons, seen_append, seen_byParty, ih, List.flatMap_cons]

end ByParty

variable [DecidableEq ι]

/-- What one party does. -/
def own (i : ι) (w : Schedule S ι) : Trace S.locking := (w.filter (·.1 = i)).map Prod.snd

section Own
variable {i j : ι} {e : Event S.locking} {t : Trace S.locking} {w w' : Schedule S ι}

theorem own_cons : own i ((j, e) :: w) = if j = i then e :: own i w else own i w := by
  by_cases h : j = i
  · simp [own, h]
  · simp [own, h]

@[simp] theorem own_cons_self : own i ((i, e) :: w) = e :: own i w := by simp [own_cons]

theorem own_cons_of_ne (h : j ≠ i) : own i ((j, e) :: w) = own i w := by simp [own_cons, h]

@[simp] theorem own_append : own i (w ++ w') = own i w ++ own i w' := by simp [own]

@[simp] theorem own_byParty : own i (byParty i t) = t := by
  induction t with
  | nil => rfl
  | cons e t ih => exact own_cons_self.trans (congrArg (e :: ·) ih)

theorem own_byParty_of_ne (h : j ≠ i) : own i (byParty j t) = [] := by
  induction t with
  | nil => rfl
  | cons e t ih => exact (own_cons_of_ne h).trans ih

end Own

/-! ## One call -/

/-- A call with the trace `t` keeps to the lock: it does not use it, takes it and releases it at its
end, takes it and leaves without the release, or takes it and then wants it again. -/
inductive Guarded : Trace S.locking → Prop where
  | idle : Guarded []
  | released (u : Trace S) : Guarded (⟨.lock, ()⟩ :: (u.map accEvent ++ [⟨.unlock, ()⟩]))
  | kept (u : Trace S) : Guarded (⟨.lock, ()⟩ :: u.map accEvent)
  | nested (u : Trace S) (t : Trace S.locking) : Guarded (⟨.lock, ()⟩ :: (u.map accEvent ++ ⟨.lock, ()⟩ :: t))

/-- The call leaves the lock free. -/
def Frees (t : Trace S.locking) : Prop := mutex false (events t) = some false

theorem frees_nil : Frees ([] : Trace S.locking) := rfl

theorem frees_released (u : Trace S) : Frees (⟨.lock, ()⟩ :: (u.map accEvent ++ [⟨.unlock, ()⟩])) := by
  simp [Frees, mutex]

/-! ## Programs -/

section Programs
variable {ε α β : Type}

/-- Every run of `x` keeps to the lock. -/
def RunsGuarded (x : Fallible S.locking ε α) : Prop := ∀ t r, x.Runs t r → Guarded t

theorem RunsGuarded.throw (e : ε) : RunsGuarded (throw e : Fallible S.locking ε α) := by
  intro t r h
  rw [((Fallible.runs_throw).mp h).1]
  exact .idle

theorem RunsGuarded.ite {c : Prop} [Decidable c] {x y : Fallible S.locking ε α} (hx : RunsGuarded x)
    (hy : RunsGuarded y) : RunsGuarded (if c then x else y) := by
  split
  · exact hx
  · exact hy

theorem RunsGuarded.locked (body : Fallible S ε α) : RunsGuarded (locked body) := by
  intro t r h
  obtain ⟨u, rfl, -⟩ := (runs_locked).mp h
  exact .released u

theorem RunsGuarded.lockedExit (body : Fallible S ε (Exit ε α)) : RunsGuarded (lockedExit body) := by
  intro t r h
  obtain ⟨u, x, -, -, rfl⟩ := (runs_lockedExit).mp h
  cases Exit.leaves x with
  | true =>
    rw [if_pos rfl, List.append_nil]
    exact .kept u
  | false => exact .released u

/-- A bracketed function that goes on, after a part of its own, either to a call that takes the lock or to
its end. -/
theorem RunsGuarded.nesting {pre : Fallible S ε β} {f : β → Fallible S.locking ε α} {nests : β → Prop}
    (hlocks : ∀ b, nests b → LocksFirst (f b)) (hends : ∀ b, ¬nests b → ∃ a, f b = pure a) :
    RunsGuarded (bracket (outside pre >>= f)) := by
  intro t r h
  obtain ⟨t', rfl, hbody⟩ := (runs_bracket).mp h
  obtain ⟨e, hout, -⟩ | ⟨_, b, t₂, rfl, hout, hnest⟩ := (Fallible.runs_bind).mp hbody
  · obtain ⟨u, rfl, -⟩ := (runs_outside).mp hout
    exact .released u
  · obtain ⟨u, rfl, -⟩ := (runs_outside).mp hout
    by_cases hb : nests b
    · obtain ⟨t₃, rfl⟩ := hlocks b hb _ _ hnest
      rw [List.append_assoc]
      exact .nested u _
    · obtain ⟨a, ha⟩ := hends b hb
      rw [ha] at hnest
      obtain ⟨rfl, -⟩ := (Fallible.runs_pure).mp hnest
      rw [List.append_nil]
      exact .released u

/-- What is bracketed does not end with the lock held. -/
theorem mutex_bracket_ne {body : Fallible S.locking ε α} {t : Trace S.locking} {r : Except ε α}
    (h : (bracket body).Runs t r) : mutex false (events t) ≠ some true := by
  obtain ⟨t', rfl, -⟩ := (runs_bracket).mp h
  rw [events_lock, events_append, mutex, mutex_append]
  cases mutex true (events t') <;> simp [mutex]

end Programs

/-! ## Serial execution -/

section Serial
variable {tr : γ → Trace S.locking}

/-- Whole calls, one after the other, which leave the lock free: the parties have `cs` before them at first,
and `cs'` in the end. -/
inductive Served (tr : γ → Trace S.locking) : (ι → List γ) → Schedule S ι → (ι → List γ) → Prop where
  | none (cs : ι → List γ) : Served tr cs [] cs
  | call {cs cs' : ι → List γ} {w : Schedule S ι} {i : ι} {c : γ} {l : List γ} (hcall : cs i = c :: l)
      (hfree : Frees (tr c)) (hrest : Served tr (Function.update cs i l) w cs') :
      Served tr cs (byParty i (tr c) ++ w) cs'

/-- Whole calls, and then at most a part of one more. -/
inductive Serial (tr : γ → Trace S.locking) (cs : ι → List γ) : Schedule S ι → Prop where
  | between {w : Schedule S ι} {cs' : ι → List γ} (hserved : Served tr cs w cs') : Serial tr cs w
  | during {w : Schedule S ι} {cs' : ι → List γ} {i : ι} {c : γ} {l : List γ} {t : Trace S.locking}
      (hserved : Served tr cs w cs') (hcall : cs' i = c :: l) (hpart : t <+: tr c)
      (hgrant : mutex false (events t) ≠ none) : Serial tr cs (w ++ byParty i t)

theorem Serial.call {cs : ι → List γ} {w : Schedule S ι} {i : ι} {c : γ} {l : List γ} (hcall : cs i = c :: l)
    (hfree : Frees (tr c)) (hrest : Serial tr (Function.update cs i l) w) :
    Serial tr cs (byParty i (tr c) ++ w) := by
  cases hrest with
  | between hserved => exact .between (.call hcall hfree hserved)
  | during hserved hnext hpart hgrant =>
    rw [← List.append_assoc]
    exact .during (.call hcall hfree hserved) hnext hpart hgrant

/-- A party that has something to do next takes the lock. -/
theorem lock_initial (hguard : ∀ c, Guarded (tr c)) {cs : List γ} {e : Event S.locking} {t : Trace S.locking}
    (h : e :: t <+: cs.flatMap tr) : e = ⟨.lock, ()⟩ := by
  induction cs with
  | nil => cases List.prefix_nil.mp h
  | cons c cs ih =>
    rw [List.flatMap_cons] at h
    have hshape := hguard c
    generalize tr c = t' at h hshape
    cases hshape with
    | idle => exact ih h
    | released u => exact (List.cons_prefix_cons.mp h).1
    | kept u => exact (List.cons_prefix_cons.mp h).1
    | nested u t => exact (List.cons_prefix_cons.mp h).1

omit [DecidableEq ι] in
/-- While the lock is held, nobody takes it. -/
theorem not_granted_while_held (hguard : ∀ c, Guarded (tr c)) {k : ι} {cs : List γ} {e : Event S.locking}
    {t : Trace S.locking} {w : Schedule S ι} (h : e :: t <+: cs.flatMap tr) :
    mutex true (events (((k, e) :: w).map Prod.snd)) = none := by
  rw [lock_initial hguard h]
  rfl

/-- While a party holds the lock, nobody else does anything: the schedule goes on with what is left of the
party's call, and either stops there or comes to the release. -/
theorem run_while_held (hguard : ∀ c, Guarded (tr c)) {j : ι} {l : List γ} {cs : ι → List γ} {tail : Trace S.locking}
    (htail : tail = [] ∨ tail = [⟨.unlock, ()⟩] ∨ ∃ t, tail = ⟨.lock, ()⟩ :: t) {u : Trace S} {w : Schedule S ι}
    (hother : ∀ k ≠ j, own k w <+: (cs k).flatMap tr)
    (hown : own j w <+: (u.map accEvent ++ tail) ++ l.flatMap tr)
    (hgrant : mutex true (events (w.map Prod.snd)) ≠ none) :
    (∃ t, t <+: u.map accEvent ++ tail ∧ w = byParty j t) ∨
      ∃ w', tail = [⟨.unlock, ()⟩] ∧ w = byParty j (u.map accEvent ++ tail) ++ w' ∧ Granted w' := by
  induction u generalizing w with
  | nil =>
    cases w with
    | nil => exact .inl ⟨[], List.nil_prefix, rfl⟩
    | cons p w =>
      obtain ⟨k, e⟩ := p
      by_cases hk : k = j
      · subst hk
        rw [own_cons_self] at hown
        obtain rfl | rfl | ⟨t, rfl⟩ := htail
        · exact absurd (not_granted_while_held hguard hown) hgrant
        · obtain ⟨rfl, -⟩ := List.cons_prefix_cons.mp hown
          exact .inr ⟨w, rfl, rfl, hgrant⟩
        · obtain ⟨rfl, -⟩ := List.cons_prefix_cons.mp hown
          exact absurd rfl hgrant
      · have hprefix := hother k hk
        rw [own_cons_self] at hprefix
        exact absurd (not_granted_while_held hguard hprefix) hgrant
  | cons a u ih =>
    cases w with
    | nil => exact .inl ⟨[], List.nil_prefix, rfl⟩
    | cons p w =>
      obtain ⟨k, e⟩ := p
      by_cases hk : k = j
      · subst hk
        rw [own_cons_self] at hown
        obtain ⟨rfl, hrest⟩ := List.cons_prefix_cons.mp hown
        have hother' : ∀ i ≠ k, own i w <+: (cs i).flatMap tr := by
          intro i hi
          have hi' := hother i hi
          rwa [own_cons_of_ne (Ne.symm hi)] at hi'
        obtain ⟨t, ht, rfl⟩ | ⟨w', hne, rfl, hfree⟩ := ih hother' hrest hgrant
        · exact .inl ⟨accEvent a :: t, List.cons_prefix_cons.mpr ⟨rfl, ht⟩, rfl⟩
        · exact .inr ⟨w', hne, rfl, hfree⟩
      · have hprefix := hother k hk
        rw [own_cons_self] at hprefix
        exact absurd (not_granted_while_held hguard hprefix) hgrant

/-- What the parties have done is the beginning of what they have to do. -/
def Follows (tr : γ → Trace S.locking) (cs : ι → List γ) (w : Schedule S ι) : Prop :=
  ∀ i, own i w <+: (cs i).flatMap tr

theorem Follows.rest {cs : ι → List γ} {i : ι} {c : γ} {l : List γ} {w : Schedule S ι} (hcall : cs i = c :: l)
    (h : Follows tr cs (byParty i (tr c) ++ w)) : Follows tr (Function.update cs i l) w := by
  intro k
  have hk := h k
  rw [own_append] at hk
  by_cases hki : k = i
  · subst hki
    rw [own_byParty, hcall, List.flatMap_cons, List.prefix_append_right_inj] at hk
    rwa [Function.update_self]
  · rw [own_byParty_of_ne (Ne.symm hki)] at hk
    rwa [Function.update_of_ne hki]

theorem Follows.call {cs : ι → List γ} {i : ι} {c : γ} {l : List γ} {w : Schedule S ι} (hcall : cs i = c :: l)
    (h : Follows tr (Function.update cs i l) w) : Follows tr cs (byParty i (tr c) ++ w) := by
  intro k
  have hk := h k
  rw [own_append]
  by_cases hki : k = i
  · subst hki
    rw [Function.update_self] at hk
    rwa [own_byParty, hcall, List.flatMap_cons, List.prefix_append_right_inj]
  · rw [Function.update_of_ne hki] at hk
    rwa [own_byParty_of_ne (Ne.symm hki)]

/-- A schedule in which the lock is granted to one party at a time is a serial one. -/
theorem serial_of_granted (hguard : ∀ c, Guarded (tr c)) {cs : ι → List γ} {w : Schedule S ι}
    (hfollows : Follows tr cs w) (hgrant : Granted w) : Serial tr cs w := by
  induction hn : w.length using Nat.strong_induction_on generalizing w cs with
  | _ n ih =>
    cases w with
    | nil => exact .between (.none cs)
    | cons p w =>
      obtain ⟨j, e⟩ := p
      -- The calls of the party up to the one that makes this event do not use the lock.
      induction hl : cs j generalizing cs with
      | nil =>
        have hj := hfollows j
        rw [own_cons_self, hl] at hj
        cases List.prefix_nil.mp hj
      | cons c l ihl =>
        have hj := hfollows j
        rw [own_cons_self, hl, List.flatMap_cons] at hj
        have hother : ∀ k ≠ j, own k w <+: (cs k).flatMap tr := by
          intro k hk
          have hk' := hfollows k
          rwa [own_cons_of_ne (Ne.symm hk)] at hk'
        -- A call that is not whole yet, or does not give the lock back, is all there is.
        have hpart : ∀ {t : Trace S.locking}, ⟨.lock, ()⟩ :: t <+: tr c →
            mutex false (events (byParty j (⟨.lock, ()⟩ :: t) |>.map Prod.snd)) ≠ none →
            Serial tr cs (byParty j (⟨.lock, ()⟩ :: t)) := by
          intro t ht hgrant
          rw [map_snd_byParty] at hgrant
          exact .during (.none cs) hl ht hgrant
        have hshape := hguard c
        generalize htr : tr c = t at hj hshape hpart
        cases hshape with
        | idle =>
          have hrest : Serial tr (Function.update cs j l) ((j, e) :: w) := by
            apply ihl _ (Function.update_self ..)
            apply Follows.rest hl
            rwa [htr]
          have hserial := Serial.call hl (htr ▸ frees_nil) hrest
          rwa [htr] at hserial
        | released u =>
          obtain ⟨rfl, hbody⟩ := List.cons_prefix_cons.mp hj
          have hrun := run_while_held hguard (.inr (.inl rfl)) hother hbody hgrant
          obtain ⟨t, ht, rfl⟩ | ⟨w', -, rfl, hfree⟩ := hrun
          · exact hpart (List.cons_prefix_cons.mpr ⟨rfl, ht⟩) hgrant
          · have hsplit : (j, ⟨.lock, ()⟩) :: (byParty j (u.map accEvent ++ [⟨.unlock, ()⟩]) ++ w') =
                byParty j (tr c) ++ w' := by
              rw [htr]
              rfl
            rw [hsplit] at hfollows ⊢
            apply Serial.call hl (htr ▸ frees_released u)
            apply ih w'.length _ (hfollows.rest hl) hfree rfl
            rw [← hn, List.length_cons, List.length_append]
            omega
        | kept u =>
          obtain ⟨rfl, hbody⟩ := List.cons_prefix_cons.mp hj
          rw [← List.append_nil (u.map accEvent)] at hbody
          have hrun := run_while_held hguard (.inl rfl) hother hbody hgrant
          obtain ⟨t, ht, rfl⟩ | ⟨_, hne, -⟩ := hrun
          · rw [List.append_nil] at ht
            exact hpart (List.cons_prefix_cons.mpr ⟨rfl, ht⟩) hgrant
          · cases hne
        | nested u rest =>
          obtain ⟨rfl, hbody⟩ := List.cons_prefix_cons.mp hj
          have hrun := run_while_held hguard (.inr (.inr ⟨rest, rfl⟩)) hother hbody hgrant
          obtain ⟨t, ht, rfl⟩ | ⟨_, hne, -⟩ := hrun
          · exact hpart (List.cons_prefix_cons.mpr ⟨rfl, ht⟩) hgrant
          · cases hne

/-! ## What a serial execution does to the lock -/

section Lock
variable {cs cs' : ι → List γ} {w : Schedule S ι}

theorem Served.free (h : Served tr cs w cs') :
    mutex false (events (w.map Prod.snd)) = some false := by
  induction h with
  | none => rfl
  | call _ hfree _ ih =>
    rw [List.map_append, map_snd_byParty, events_append, mutex_append,
      show mutex false (events (tr _)) = some false from hfree]
    exact ih

/-- What the parties had before them is what they have done, and what they have before them now. -/
theorem Served.own_append (h : Served tr cs w cs') (k : ι) :
    (cs k).flatMap tr = own k w ++ (cs' k).flatMap tr := by
  induction h with
  | none => rfl
  | @call cs _ w i c l hcall _ _ ih =>
    rw [Lock.own_append, List.append_assoc, ← ih]
    by_cases hki : k = i
    · subst hki
      rw [own_byParty, Function.update_self, hcall, List.flatMap_cons]
    · rw [own_byParty_of_ne (Ne.symm hki), Function.update_of_ne hki, List.nil_append]

/-- The calls in the order in which they are served. -/
theorem Served.order (h : Served tr cs w cs') : ∃ order : List (ι × γ),
    w = order.flatMap (fun p => byParty p.1 (tr p.2)) ∧ (∀ p ∈ order, Frees (tr p.2)) ∧
      ∀ i, cs i = (order.filter (·.1 = i)).map Prod.snd ++ cs' i := by
  induction h with
  | none => exact ⟨[], rfl, by simp, fun _ => rfl⟩
  | @call cs _ w i c l hcall hfree _ ih =>
    obtain ⟨order, rfl, hfrees, hcalls⟩ := ih
    refine ⟨(i, c) :: order, rfl, ?_, fun k => ?_⟩
    · intro p hp
      obtain rfl | hp := List.mem_cons.mp hp
      · exact hfree
      · exact hfrees p hp
    · have hk := hcalls k
      by_cases hki : i = k
      · subst hki
        rw [Function.update_self] at hk
        simp [hcall, hk]
      · rw [Function.update_of_ne (Ne.symm hki)] at hk
        simp [hki, hk]

theorem Served.snoc {i : ι} {c : γ} {l : List γ} (h : Served tr cs w cs') (hcall : cs' i = c :: l)
    (hfree : Frees (tr c)) : Served tr cs (w ++ byParty i (tr c)) (Function.update cs' i l) := by
  induction h with
  | none cs =>
    rw [List.nil_append, ← List.append_nil (byParty i (tr c))]
    exact .call hcall hfree (.none _)
  | call hfirst hfree' _ ih =>
    rw [List.append_assoc]
    exact .call hfirst hfree' (ih hcall)

/-- After whole calls, what is granted next is what is granted with a free lock. -/
theorem Served.granted_append (h : Served tr cs w cs') (w' : Schedule S ι) :
    Granted (w ++ w') ↔ Granted w' := by
  rw [Granted, List.map_append, events_append, mutex_append, h.free]
  rfl

theorem Served.follows_append (h : Served tr cs w cs') (w' : Schedule S ι) :
    Follows tr cs (w ++ w') ↔ Follows tr cs' w' := by
  refine forall_congr' fun k => ?_
  rw [Lock.own_append, h.own_append, List.prefix_append_right_inj]

theorem follows_byParty {i : ι} {t : Trace S.locking} : Follows tr cs (byParty i t) ↔ t <+: (cs i).flatMap tr := by
  constructor
  · intro h
    have hi := h i
    rwa [own_byParty] at hi
  · intro h k
    by_cases hki : k = i
    · subst hki
      rwa [own_byParty]
    · rw [own_byParty_of_ne (Ne.symm hki)]
      exact List.nil_prefix

theorem granted_byParty {i : ι} {t : Trace S.locking} :
    Granted (byParty i t) ↔ mutex false (events t) ≠ none := by
  rw [Granted, map_snd_byParty]

/-- **Serial execution.** The schedules in which the lock is granted to one party at a time are the serial ones. -/
theorem granted_iff_serial (hguard : ∀ c, Guarded (tr c)) : Follows tr cs w ∧ Granted w ↔ Serial tr cs w := by
  constructor
  · intro h
    exact serial_of_granted hguard h.1 h.2
  · intro h
    cases h with
    | between hserved =>
      have hfollows := hserved.follows_append []
      have hgrant := hserved.granted_append []
      rw [List.append_nil] at hfollows hgrant
      exact ⟨hfollows.mpr fun _ => List.nil_prefix, hgrant.mpr (by simp [Granted, mutex])⟩
    | during hserved hcall hpart hgrant =>
      rw [hserved.follows_append, hserved.granted_append, follows_byParty, granted_byParty, hcall,
        List.flatMap_cons]
      exact ⟨hpart.trans (List.prefix_append _ _), hgrant⟩

/-- A part of a call after it has taken the lock: it is at its accesses, or at what comes after them. -/
theorem mutex_part {u : Trace S} {tail t : Trace S.locking} (h : t <+: u.map accEvent ++ tail) :
    mutex true (events t) = some true ∨ ∃ e v, e :: v <+: tail ∧ t = u.map accEvent ++ e :: v := by
  induction u generalizing t with
  | nil =>
    cases t with
    | nil => exact .inl rfl
    | cons e v => exact .inr ⟨e, v, h, rfl⟩
  | cons a u ih =>
    cases t with
    | nil => exact .inl rfl
    | cons e t =>
      obtain ⟨rfl, hrest⟩ := List.cons_prefix_cons.mp h
      obtain hheld | ⟨e, v, hv, rfl⟩ := ih hrest
      · exact .inl hheld
      · exact .inr ⟨e, v, hv, rfl⟩

/-- A part of a call that leaves the lock free is nothing, or the whole call. -/
theorem Guarded.whole {t t' : Trace S.locking} (h : Guarded t') (hpart : t <+: t') (hfree : Frees t) :
    t = [] ∨ t = t' := by
  cases t with
  | nil => exact .inl rfl
  | cons e t =>
    refine .inr ?_
    -- What comes after the accesses decides.
    cases h with
    | idle => cases List.prefix_nil.mp hpart
    | released u =>
      obtain ⟨rfl, hbody⟩ := List.cons_prefix_cons.mp hpart
      obtain hheld | ⟨e, v, hv, rfl⟩ := mutex_part hbody
      · cases hheld.symm.trans hfree
      · obtain ⟨rfl, hnil⟩ := List.cons_prefix_cons.mp hv
        rw [List.prefix_nil.mp hnil]
    | kept u =>
      rw [← List.append_nil (u.map accEvent)] at hpart
      obtain ⟨rfl, hbody⟩ := List.cons_prefix_cons.mp hpart
      obtain hheld | ⟨e, v, hv, rfl⟩ := mutex_part hbody
      · cases hheld.symm.trans hfree
      · cases List.prefix_nil.mp hv
    | nested u rest =>
      obtain ⟨rfl, hbody⟩ := List.cons_prefix_cons.mp hpart
      obtain hheld | ⟨e, v, hv, rfl⟩ := mutex_part hbody
      · cases hheld.symm.trans hfree
      · obtain ⟨rfl, -⟩ := List.cons_prefix_cons.mp hv
        have hnone : mutex true (events (u.map accEvent ++ ⟨.lock, ()⟩ :: v)) = none := by
          rw [events_append, events_acc]
          rfl
        cases hnone.symm.trans hfree

/-- While the lock is free, all calls of a serial execution are whole. -/
theorem Serial.served (hguard : ∀ c, Guarded (tr c)) (h : Serial tr cs w)
    (hfree : mutex false (events (w.map Prod.snd)) = some false) : ∃ cs', Served tr cs w cs' := by
  cases h with
  | between hserved => exact ⟨_, hserved⟩
  | @during w₁ cs' i c l t hserved hcall hpart hgrant =>
    rw [List.map_append, map_snd_byParty, events_append, mutex_append, hserved.free, Option.bind_some] at hfree
    obtain rfl | rfl := (hguard c).whole hpart hfree
    · exact ⟨cs', by simpa [byParty] using hserved⟩
    · exact ⟨_, hserved.snoc hcall hfree⟩

/-! ## Standstill -/

/-- Some party can do the next thing. -/
def Continues (tr : γ → Trace S.locking) (cs : ι → List γ) (w : Schedule S ι) : Prop :=
  ∃ i e, Follows tr cs (w ++ byParty i [e]) ∧ Granted (w ++ byParty i [e])

/-- Some party has something left to do. -/
def Unfinished (tr : γ → Trace S.locking) (cs : ι → List γ) (w : Schedule S ι) : Prop :=
  ∃ i, own i w ≠ (cs i).flatMap tr

/-- The last thing in the schedule is a call that holds the lock, and has left, or wants the lock again. -/
def EndsHeld (tr : γ → Trace S.locking) (cs : ι → List γ) (w : Schedule S ι) : Prop :=
  ∃ w₁ cs' i c l t, Served tr cs w₁ cs' ∧ cs' i = c :: l ∧ w = w₁ ++ byParty i t ∧
    mutex false (events t) = some true ∧ (t = tr c ∨ t ++ [⟨.lock, ()⟩] <+: tr c)

theorem Served.continues (hguard : ∀ c, Guarded (tr c)) (h : Served tr cs w cs') (hleft : Unfinished tr cs w) :
    Continues tr cs w := by
  obtain ⟨i, hi⟩ := hleft
  rw [h.own_append] at hi
  cases hnext : (cs' i).flatMap tr with
  | nil => simp [hnext] at hi
  | cons e t =>
    have hprefix : [e] <+: (cs' i).flatMap tr := ⟨t, hnext.symm⟩
    refine ⟨i, e, ?_, ?_⟩
    · rw [h.follows_append, follows_byParty]
      exact hprefix
    · rw [h.granted_append, granted_byParty, lock_initial hguard hprefix]
      simp [mutex]

theorem mutex_snoc_ne_none {t : Trace S.locking} {e : Event S.locking} {b : Bool}
    (ht : mutex false (events t) = some b) (he : e = ⟨.lock, ()⟩ → b = false) :
    mutex false (events (t ++ [e])) ≠ none := by
  rw [events_append, mutex_append, ht, Option.bind_some]
  obtain ⟨o, r⟩ := e
  cases o with
  | lock =>
    rw [he rfl, events_lock]
    simp [mutex]
  | unlock =>
    rw [events_unlock]
    cases b <;> simp [mutex]
  | acc o =>
    rw [show events [(⟨.acc o, r⟩ : Event S.locking)] = [] from rfl]
    simp [mutex]

/-- **Standstill.** A schedule that is not finished cannot go on exactly when its last call holds the lock, and has
left, or wants the lock again. -/
theorem not_continues_iff (hguard : ∀ c, Guarded (tr c)) (hserial : Serial tr cs w) (hleft : Unfinished tr cs w) :
    ¬Continues tr cs w ↔ EndsHeld tr cs w := by
  constructor
  · intro hstop
    cases hserial with
    | between hserved => exact absurd (hserved.continues hguard hleft) hstop
    | @during w₁ cs' i c l t hserved hcall hpart hgrant =>
      obtain ⟨b, hb⟩ := Option.ne_none_iff_exists'.mp hgrant
      obtain ⟨u, hu⟩ := hpart
      cases u with
      | nil =>
        rw [List.append_nil] at hu
        cases b with
        | true => exact ⟨w₁, cs', i, c, l, t, hserved, hcall, rfl, hb, .inl hu⟩
        | false =>
          subst hu
          exact absurd ((hserved.snoc hcall hb).continues hguard hleft) hstop
      | cons e u =>
        have hpart : t ++ [e] <+: tr c := ⟨u, by rw [List.append_assoc]; exact hu⟩
        by_cases hwants : e = ⟨.lock, ()⟩ ∧ b = true
        · obtain ⟨rfl, rfl⟩ := hwants
          exact ⟨w₁, cs', i, c, l, t, hserved, hcall, rfl, hb, .inr hpart⟩
        · -- The call itself goes on.
          refine absurd ⟨i, e, ?_, ?_⟩ hstop
          · rw [List.append_assoc, ← byParty_append, hserved.follows_append, follows_byParty, hcall,
              List.flatMap_cons]
            exact hpart.trans (List.prefix_append _ _)
          · rw [List.append_assoc, ← byParty_append, hserved.granted_append, granted_byParty]
            apply mutex_snoc_ne_none hb
            intro he
            simpa [he] using hwants
  · intro hheld hcontinues
    obtain ⟨w₁, cs', i, c, l, t, hserved, hcall, rfl, hb, hend⟩ := hheld
    obtain ⟨k, e, hfollows, hgrant⟩ := hcontinues
    rw [List.append_assoc, hserved.follows_append] at hfollows
    rw [List.append_assoc, hserved.granted_append] at hgrant
    -- Whoever is next wants the lock, which is held.
    have hlock : e = ⟨.lock, ()⟩ := by
      have hk := hfollows k
      rw [Lock.own_append, own_byParty] at hk
      by_cases hki : i = k
      · subst hki
        rw [own_byParty, hcall, List.flatMap_cons] at hk
        obtain rfl | hagain := hend
        · rw [List.prefix_append_right_inj] at hk
          exact lock_initial hguard hk
        · have hsame := List.prefix_of_prefix_length_le hk (hagain.trans (List.prefix_append _ _)) (by simp)
          rw [List.prefix_append_right_inj] at hsame
          exact (List.cons_prefix_cons.mp hsame).1
      · rw [own_byParty_of_ne hki, List.nil_append] at hk
        exact lock_initial hguard hk
    rw [Granted, List.map_append, map_snd_byParty, map_snd_byParty, events_append, mutex_append, hb, hlock] at hgrant
    exact hgrant rfl

end Lock

end Serial

end Effect.Lock
