import MxlUtils.Gphy.Mbox.Protocol
import Mathlib.Data.List.Chain

/- Sequences of mailbox calls of the polling build. Two parts of the protocol are
   facts about the trace of one call, whoever answers: the data registers are
   read after READY only, and a call fails only for a reason. The rest follows
   from `mboxSpec`: one access for each call, and what was written is read back
   as long as nothing else can have changed it. -/
namespace Gpy2xx
open Effect Effect.Fallible Bits

/-! ## The trace of one call -/

/-- What the polls of a trace answered. -/
def polls (t : RegTrace) : List (BitVec 16) :=
  t.filterMap fun
    | ⟨.mmdRead .vend1 reg, .ok w⟩ => if reg = mboxCmd then some w else none
    | _ => none

/-- A read of a data register. -/
def ReadsData (e : Event regSig) : Prop :=
  e.op = .mmdRead .vend1 mboxData ∨ e.op = .mmdRead .vend1 mboxDataHigh

/-- READY was seen since the last command. -/
def readySeen (t : RegTrace) : Bool :=
  t.foldl (fun seen e => match e with
    | ⟨.mmdWrite .vend1 reg _, _⟩ => if reg = mboxCmd then false else seen
    | ⟨.mmdRead .vend1 reg, .ok w⟩ => if reg = mboxCmd then decide (Ready w) else seen
    | _ => seen) false

/-- The data registers are read only when READY was seen for the command. -/
def ReadsAfterReady (t : RegTrace) : Prop :=
  ∀ t₁ e t₂, t = t₁ ++ e :: t₂ → ReadsData e → readySeen t₁

/-- An access of the call failed. -/
def Faulty (t : RegTrace) : Prop := ∃ e ∈ t, ¬e.op.succeeded e.ret

/-- All polls were used up and none saw READY. -/
def Exhausted (t : RegTrace) : Prop :=
  (polls t).length = maxBusyRetry ∧ ∀ w ∈ polls t, ¬Ready w

section Trace
variable {t : RegTrace} {e : Event regSig}

theorem allOk_snoc : AllOk (t ++ [e]) ↔ AllOk t ∧ e.op.succeeded e.ret := by
  simp only [AllOk, List.mem_append, List.mem_singleton]
  constructor
  · intro h
    exact ⟨fun x hx => h x (.inl hx), h e (.inr rfl)⟩
  · intro h x hx
    rcases hx with hx | hx
    · exact h.1 x hx
    · rw [hx]
      exact h.2

theorem polls_snoc : polls (t ++ [e]) = polls t ++ polls [e] := List.filterMap_append

theorem readsAfterReady_snoc (h : ReadsAfterReady t) (he : ReadsData e → readySeen t) :
    ReadsAfterReady (t ++ [e]) := by
  intro t₁ e' t₂ ht hdata
  rcases List.eq_nil_or_concat t₂ with hnil | ⟨t₃, x, hx⟩
  · rw [hnil] at ht
    obtain ⟨ht₁, he'⟩ := List.append_inj' ht rfl
    rw [← ht₁]
    rw [← List.singleton_inj.mp he'] at hdata
    exact he hdata
  · rw [hx, List.concat_eq_append, ← List.cons_append, ← List.append_assoc] at ht
    obtain ⟨ht₁, -⟩ := List.append_inj' ht rfl
    exact h t₁ e' t₃ ht₁ hdata

/-! ### What each access adds -/

theorem wp_record_write {reg : Nat} {v : BitVec 16} {Q : Except Errno Unit → RegTrace → Prop}
    (h : ∀ r, Q r (t ++ [⟨.mmdWrite .vend1 reg v, r⟩])) :
    wp Dev.record (phyWriteMmd .vend1 reg v) Q t := by
  apply wp_access
  intro r s' hs'
  rw [show s' = t ++ [⟨.mmdWrite .vend1 reg v, r⟩] from hs']
  exact h r

theorem wp_record_read {reg : Nat} {Q : Except Errno (BitVec 16) → RegTrace → Prop}
    (h : ∀ r, Q r (t ++ [⟨.mmdRead .vend1 reg, r⟩])) :
    wp Dev.record (phyReadMmd .vend1 reg) Q t := by
  apply wp_access
  intro r s' hs'
  rw [show s' = t ++ [⟨.mmdRead .vend1 reg, r⟩] from hs']
  exact h r

/-- What is known of a trace at the end of a call. -/
structure CallTrace (t : RegTrace) (r : MboxRet) : Prop where
  afterReady : ReadsAfterReady t
  ok : r.isOk → AllOk t ∧ ∃ w ∈ polls t, Ready w
  error : ¬r.isOk → Faulty t ∨ Exhausted t

/-- Before the command: no access has failed, and the command was not polled. -/
structure Preparing (t : RegTrace) : Prop where
  afterReady : ReadsAfterReady t
  allOk : AllOk t
  polls : polls t = []

/-- After the wait. -/
structure Completed (t : RegTrace) : Prop where
  afterReady : ReadsAfterReady t
  allOk : AllOk t
  polls : ∃ w ∈ polls t, Ready w
  seen : readySeen t

theorem faulty_snoc {o : RegOp} {r : o.Ret} (h : ¬o.succeeded r) : Faulty (t ++ [⟨o, r⟩]) :=
  ⟨⟨o, r⟩, List.mem_append_right _ List.mem_cons_self, h⟩

theorem Preparing.write {reg : Nat} {v : BitVec 16} (h : Preparing t) :
    Preparing (t ++ [⟨.mmdWrite .vend1 reg v, .ok ()⟩]) :=
  ⟨readsAfterReady_snoc h.afterReady (fun he => by rcases he with he | he <;> cases he),
    (allOk_snoc).mpr ⟨h.allOk, rfl⟩, by rw [polls_snoc, h.polls]; rfl⟩

/-- A write of the preparation either stops the call or leaves it preparing. -/
theorem wp_record_preparing {reg : Nat} {v : BitVec 16} {f : Unit → Api (BitVec 32)}
    (h : Preparing t) (hf : ∀ t', Preparing t' → wp Dev.record (f ()) (fun r s => CallTrace s r) t') :
    wp Dev.record (phyWriteMmd .vend1 reg v >>= f) (fun r s => CallTrace s r) t := by
  apply wp_bind
  apply wp_record_write
  intro r
  cases r with
  | ok _ => exact hf _ h.write
  | error e =>
    refine ⟨readsAfterReady_snoc h.afterReady ?_, nofun, fun _ => .inl (faulty_snoc nofun)⟩
    intro he
    rcases he with he | he <;> cases he

/-- The polls: they end with READY, with a failed access, or used up. -/
theorem wp_record_poll (n : Nat) : ∀ t, ReadsAfterReady t → AllOk t →
    (polls t).length + n = maxBusyRetry → (∀ w ∈ polls t, ¬Ready w) →
      wp Dev.record (isMboxBusy.poll n) (fun r s => ReadsAfterReady s ∧
        (r.isOk → Completed s) ∧ (¬r.isOk → Faulty s ∨ Exhausted s)) t := by
  induction n with
  | zero =>
    intro t hreads hok hlen hnot
    exact wp_throw ⟨hreads, nofun, fun _ => .inr ⟨hlen, hnot⟩⟩
  | succ n ih =>
    intro t hreads hok hlen hnot
    apply wp_bind
    apply wp_record_read
    intro r
    have hreads' : ReadsAfterReady (t ++ [⟨.mmdRead .vend1 mboxCmd, r⟩]) := by
      apply readsAfterReady_snoc hreads
      intro he
      rcases he with he | he <;> cases he
    cases r with
    | error e => exact ⟨hreads', nofun, fun _ => .inl (faulty_snoc nofun)⟩
    | ok w =>
      have hpolls : polls (t ++ [⟨.mmdRead .vend1 mboxCmd, .ok w⟩]) = polls t ++ [w] :=
        polls_snoc
      have hok' : AllOk (t ++ [⟨.mmdRead .vend1 mboxCmd, .ok w⟩]) := (allOk_snoc).mpr ⟨hok, rfl⟩
      apply wp_ite
      · intro hready
        refine wp_pure ⟨hreads', fun _ => ⟨hreads', hok', ⟨w, ?_, hready⟩, ?_⟩, nofun⟩
        · rw [hpolls]
          exact List.mem_append_right _ List.mem_cons_self
        · rw [readySeen, List.foldl_append]
          exact decide_eq_true hready
      · intro hready
        refine ih _ hreads' hok' ?_ ?_
        · rw [hpolls, List.length_append, List.length_singleton]
          omega
        · intro w' hw'
          rw [hpolls] at hw'
          rcases List.mem_append.mp hw' with hw' | hw'
          · exact hnot w' hw'
          · rw [List.mem_singleton.mp hw']
            exact hready

/-- A data register is read, and the call stops or goes on. -/
theorem wp_record_readData {reg : Nat} {f : BitVec 16 → Api (BitVec 32)} (h : Completed t)
    (hreg : reg = mboxData ∨ reg = mboxDataHigh)
    (hf : ∀ w t', Completed t' → wp Dev.record (f w) (fun r s => CallTrace s r) t') :
    wp Dev.record (phyReadMmd .vend1 reg >>= f) (fun r s => CallTrace s r) t := by
  apply wp_bind
  apply wp_record_read
  intro r
  have hreads : ReadsAfterReady (t ++ [⟨.mmdRead .vend1 reg, r⟩]) :=
    readsAfterReady_snoc h.afterReady fun _ => h.seen
  cases r with
  | error e => exact ⟨hreads, nofun, fun _ => .inl (faulty_snoc nofun)⟩
  | ok w =>
    have hne : reg ≠ mboxCmd := by
      rcases hreg with hreg | hreg <;> rw [hreg] <;> decide
    obtain ⟨w', hw', hready⟩ := h.polls
    refine hf w _ ⟨hreads, (allOk_snoc).mpr ⟨h.allOk, rfl⟩, ⟨w', ?_, hready⟩, ?_⟩
    · rw [polls_snoc]
      exact List.mem_append_left _ hw'
    · rw [readySeen, List.foldl_append]
      exact (if_neg hne).trans h.seen

theorem wp_record_pure {v : BitVec 32} (h : Completed t) :
    wp Dev.record (pure v : Api (BitVec 32)) (fun r s => CallTrace s r) t :=
  wp_pure ⟨h.afterReady, fun _ => ⟨h.allOk, h.polls⟩, fun hr => absurd rfl hr⟩

theorem wp_record_collect (op : MboxOp) (h : Completed t) :
    wp Dev.record op.collect (fun r s => CallTrace s r) t := by
  cases op with
  | read16 a => exact wp_record_readData h (.inl rfl) fun w t' h' => wp_record_pure h'
  | read32 a =>
    refine wp_record_readData h (.inl rfl) fun w t' h' => ?_
    exact wp_record_readData h' (.inr rfl) fun w' t'' h'' => wp_record_pure h''
  | write16 a v => exact wp_record_pure h
  | write32 a v => exact wp_record_pure h

theorem wp_record_rest (op : MboxOp) (h : Preparing t) :
    wp Dev.record (do mboxStart op.regaddr op.cmd; pollWait; op.collect)
      (fun r s => CallTrace s r) t := by
  rw [mboxStart, bind_assoc]
  refine wp_record_preparing h fun t₁ h₁ => ?_
  refine wp_record_preparing h₁ fun t₂ h₂ => ?_
  apply wp_bind
  apply wp_bind
  apply wp_attempt
  have hlen : (polls t₂).length + maxBusyRetry = maxBusyRetry := by
    rw [h₂.polls, List.length_nil, Nat.zero_add]
  have hnone : ∀ w ∈ polls t₂, ¬Ready w := by
    rw [h₂.polls]
    exact fun w hw => absurd hw List.not_mem_nil
  rw [isMboxBusy]
  refine wp_mono (wp_record_poll maxBusyRetry t₂ h₂.afterReady h₂.allOk hlen hnone) ?_
  intro r t₃ h₃
  cases r with
  | ok _ => exact wp_pure (wp_record_collect op (h₃.2.1 rfl))
  | error e => exact wp_throw ⟨h₃.1, fun hok => (by cases hok), fun _ => h₃.2.2 fun hok => (by cases hok)⟩

end Trace

/-- Every call reads the data registers only after READY, and fails only after a failed access or
with all polls used up. -/
theorem callTrace {op : MboxOp} {t : RegTrace} {r : MboxRet} (h : (op.impl pollWait).Runs t r) :
    CallTrace t r := by
  refine wp_record (Q := fun r s => CallTrace s r) ?_ h
  have hempty : Preparing [] := ⟨fun _ _ _ h => by simp at h, nofun, rfl⟩
  rw [op.impl_eq]
  cases op with
  | read16 a => exact wp_record_rest _ hempty
  | read32 a => exact wp_record_rest _ hempty
  | write16 a v => exact wp_record_preparing hempty fun t' h' => wp_record_rest _ h'
  | write32 a v =>
    refine wp_record_preparing hempty fun t' h' => ?_
    exact wp_record_preparing h' fun t'' h'' => wp_record_rest _ h''


/-! ## Sequences of calls -/

/-- One call of a mailbox function: its trace, and the device before and after it. -/
structure MboxCall where
  op : MboxOp
  ret : MboxRet
  trace : RegTrace
  pre : MboxState
  post : MboxState
  addr24 : op.regaddr.toNat < 2 ^ 24
  runs : (op.impl pollWait).Runs trace ret
  path : mboxDev.Path pre trace post

/-- Calls one after the other on one device. -/
structure Session where
  calls : List MboxCall
  chained : calls.IsChain fun c d => d.pre = c.post

theorem MboxCall.spec (c : MboxCall) : mboxSpec c.pre.core ⟨c.op, c.ret⟩ c.post.core :=
  impl_refines c.op c.addr24 c.pre c.trace c.ret c.post c.runs c.path

/-- A call that returned success made one access, the one asked for, and it has finished. The list
`late` is the access an earlier call left in flight, if it finished during this call. -/
def MboxCall.OneAccess (c : MboxCall) : Prop :=
  c.ret.isOk → c.post.core.pending = none ∧
    ∃ late acc, (late = [] ∨ late = c.pre.core.pending.toList) ∧
      c.post.core.performed = c.pre.core.performed ++ late ++ [acc] ∧
      acc.SameTarget c.op.access ∧ (¬c.pre.core.ReadPending → acc = c.op.access)

/-- A call fails exactly when an access failed or no poll saw READY. -/
def MboxCall.FailsForReason (c : MboxCall) : Prop :=
  ¬c.ret.isOk ↔ Faulty c.trace ∨ Exhausted c.trace

theorem MboxCore.Late.performed {c m : MboxCore} (h : c.Late m) :
    ∃ late, (late = [] ∨ late = c.pending.toList) ∧ m.performed = c.performed ++ late := by
  rcases h with h | h
  · exact ⟨[], .inl rfl, by rw [h, List.append_nil]⟩
  · refine ⟨c.pending.toList, .inr rfl, ?_⟩
    rw [h, MboxCore.finish]
    cases hp : c.pending with
    | none => exact (List.append_nil _).symm
    | some acc => rfl

theorem MboxCall.oneAccess (c : MboxCall) : c.OneAccess := by
  intro hok
  obtain ⟨m, acc, hlate, htarget, hacc, hret⟩ := c.spec
  obtain ⟨late, hl, hperformed⟩ := hlate.performed
  cases hr : c.ret with
  | error e =>
    rw [hr] at hok
    cases hok
  | ok v =>
    simp only [hr] at hret
    rw [hret.1]
    refine ⟨rfl, late, acc, hl, ?_, htarget, hacc⟩
    rw [← hperformed]
    rfl

theorem MboxCall.failsForReason (c : MboxCall) : c.FailsForReason := by
  have htrace := callTrace c.runs
  constructor
  · exact htrace.error
  · intro hreason hok
    obtain ⟨hallOk, w, hw, hready⟩ := htrace.ok hok
    rcases hreason with hfault | hexhausted
    · obtain ⟨e, he, hfault⟩ := hfault
      exact hfault (hallOk e he)
    · exact hexhausted.2 w hw hready

/-! ## What a write leaves behind -/

namespace Access
variable {a n : Nat} {m : Mem} {acc acc' : Access}

/-- The bytes an access writes: the first one, and how many. -/
def writes : Access → Option (Nat × Nat)
  | .write16 a _ => some (a, 2)
  | .write32 a _ => some (a, 4)
  | _ => none

/-- The access writes none of the `n` bytes from `a` on. -/
def Misses (a n : Nat) (acc : Access) : Prop :=
  ∀ b k, acc.writes = some (b, k) → a + n ≤ b ∨ b + k ≤ a

theorem SameTarget.writes (h : acc.SameTarget acc') : acc.writes = acc'.writes := by
  cases acc <;> cases acc' <;> first | exact congrArg (fun a => some (a, _)) h | rfl | cases h

theorem load_apply (h : acc.Misses a n) : (acc.apply m).load a n = m.load a n := by
  cases acc with
  | write16 b v => exact Mem.load_store_of_disjoint (h b 2 rfl)
  | write32 b v => exact Mem.load_store_of_disjoint (h b 4 rfl)
  | _ => rfl

end Access

namespace MboxCore
variable {c c' : MboxCore} {a n : Nat} {v : BitVec (8 * n)}

/-- The `n` bytes from `a` on are `v`, and the access in flight, if any, will not change them. -/
structure Holds (a n : Nat) (v : BitVec (8 * n)) (c : MboxCore) : Prop where
  load : c.mem.load a n = v
  pending : ∀ acc, c.pending = some acc → acc.Misses a n

theorem Holds.finish (h : c.Holds a n v) : c.finish.Holds a n v := by
  refine ⟨?_, fun acc hacc => ?_⟩
  · rw [MboxCore.finish]
    cases hp : c.pending with
    | none => exact h.load
    | some acc =>
      calc (acc.apply c.mem).load a n = c.mem.load a n := Access.load_apply (h.pending acc hp)
        _ = v := h.load
  · rw [pending_finish] at hacc
    cases hacc

theorem Holds.late (h : c.Holds a n v) (hl : c.Late c') : c'.Holds a n v := by
  rcases hl with hl | hl
  · rw [hl]
    exact h
  · rw [hl]
    exact h.finish

theorem Holds.start {acc : Access} (h : c.Holds a n v) (hacc : acc.Misses a n) :
    (c.start acc).Holds a n v :=
  ⟨h.load, fun _ hacc' => Option.some.inj hacc' ▸ hacc⟩

/-- One call that writes elsewhere. -/
theorem Holds.step {e : Event mboxSig} (h : c.Holds a n v) (hstep : mboxSpec c e c')
    (hmiss : e.op.access.Misses a n) : c'.Holds a n v := by
  obtain ⟨m, acc, hlate, htarget, -, hret⟩ := hstep
  have hm := h.late hlate
  have hstart : (m.start acc).Holds a n v := by
    apply hm.start
    intro b k hb
    exact hmiss b k (htarget.writes ▸ hb)
  cases hr : e.ret with
  | ok x =>
    simp only [hr] at hret
    rw [hret.1]
    exact hstart.finish
  | error x =>
    simp only [hr] at hret
    rcases hret with hret | hret
    · rw [hret]
      exact hm
    · exact hstart.late hret

end MboxCore

/-- Calls that write elsewhere, one after the other. -/
theorem holds_calls {a n : Nat} {v : BitVec (8 * n)} {w r : MboxCall} {l₂ l₃ : List MboxCall}
    (hchain : (w :: (l₂ ++ r :: l₃)).IsChain fun c d => d.pre = c.post)
    (hw : w.post.core.Holds a n v) (hmiss : ∀ c ∈ l₂, c.op.access.Misses a n) :
    r.pre.core.Holds a n v := by
  induction l₂ generalizing w with
  | nil =>
    rw [(List.isChain_cons_cons.mp hchain).1]
    exact hw
  | cons c l₂ ih =>
    obtain ⟨hpre, hchain⟩ := List.isChain_cons_cons.mp hchain
    refine ih hchain ?_ fun d hd => hmiss d (List.mem_cons_of_mem _ hd)
    rw [← hpre] at hw
    exact hw.step c.spec (hmiss c List.mem_cons_self)

/-- A successful write with no read in flight before it leaves its value. -/
theorem holds_write {w : MboxCall} (hok : w.ret.isOk) (hread : ¬w.pre.core.ReadPending) {a n : Nat}
    {v : BitVec (8 * n)} (hv : ∀ m, (w.op.access.apply m).load a n = v) :
    w.post.core.Holds a n v := by
  obtain ⟨m, acc, -, -, hacc, hret⟩ := w.spec
  cases hr : w.ret with
  | error e =>
    rw [hr] at hok
    cases hok
  | ok x =>
    simp only [hr] at hret
    rw [hret.1, hacc hread]
    exact ⟨hv m.mem, nofun⟩

/-- A successful read returns what is held. -/
theorem answer_of_holds {r : MboxCall} {x : BitVec 32} (hx : r.ret = .ok x) {a n : Nat}
    {v : BitVec (8 * n)} (h : r.pre.core.Holds a n v) :
    ∃ m : Mem, x = r.op.answer m ∧ m.load a n = v := by
  obtain ⟨m, acc, hlate, -, -, hret⟩ := r.spec
  simp only [hx] at hret
  exact ⟨m.mem, hret.2, (h.late hlate).load⟩

/-! ## The protocol -/

/-- No call of `l₂` asks for a write to the `n` bytes from `a` on. -/
def Untouched (a n : Nat) (l : List MboxCall) : Prop := ∀ c ∈ l, c.op.access.Misses a n

/-- A successful read returns what a successful write put there, if no read was in flight when the
write began and no call between them, successful or not, writes there. -/
structure Session.ReadsBack (S : Session) : Prop where
  word : ∀ l₁ w l₂ r l₃ a v x, S.calls = l₁ ++ w :: (l₂ ++ r :: l₃) →
    w.op = .write32 a v → w.ret.isOk → r.op = .read32 a → r.ret = .ok x →
      ¬w.pre.core.ReadPending → Untouched a.toNat 4 l₂ → x = v
  half : ∀ l₁ w l₂ r l₃ a v x, S.calls = l₁ ++ w :: (l₂ ++ r :: l₃) →
    w.op = .write16 a v → w.ret.isOk → r.op = .read16 a → r.ret = .ok x →
      ¬w.pre.core.ReadPending → Untouched a.toNat 2 l₂ → x = (v.setWidth 16 : BitVec 16).setWidth 32

/-- **Mailbox protocol.** For any timing of the device and any failed accesses. -/
theorem mailbox_protocol (S : Session) :
    (∀ c ∈ S.calls, ReadsAfterReady c.trace ∧ c.OneAccess ∧ c.FailsForReason) ∧ S.ReadsBack := by
  refine ⟨fun c _ => ⟨(callTrace c.runs).afterReady, c.oneAccess, c.failsForReason⟩, ?_, ?_⟩
  · intro l₁ w l₂ r l₃ a v x hcalls hw hok hr hx hread hmiss
    have hchain := S.chained
    rw [hcalls] at hchain
    have hpost : w.post.core.Holds a.toNat 4 v := by
      refine holds_write hok hread fun m => ?_
      rw [hw]
      exact Mem.load32_store32_same v
    obtain ⟨m, hans, hload⟩ := answer_of_holds hx (holds_calls (List.isChain_append.mp hchain).2.1 hpost hmiss)
    calc x = r.op.answer m := hans
      _ = m.load32 a.toNat := by rw [hr]; rfl
      _ = v := hload
  · intro l₁ w l₂ r l₃ a v x hcalls hw hok hr hx hread hmiss
    have hchain := S.chained
    rw [hcalls] at hchain
    have hpost : w.post.core.Holds a.toNat 2 (v.setWidth 16 : BitVec 16) := by
      refine holds_write hok hread fun m => ?_
      rw [hw]
      exact Mem.load16_store16_same _
    obtain ⟨m, hans, hload⟩ := answer_of_holds hx (holds_calls (List.isChain_append.mp hchain).2.1 hpost hmiss)
    calc x = r.op.answer m := hans
      _ = (m.load16 a.toNat).setWidth 32 := by rw [hr]; rfl
      _ = (v.setWidth 16 : BitVec 16).setWidth 32 := congrArg (BitVec.setWidth 32) hload

/-! ## Reads that return something else -/

/-- A successful read returns the value of the last successful write of the same width to the
address; `Quiet` may ask more of the calls from that write on. -/
def Session.LastWriteRead (S : Session) (Quiet : MboxCall → List MboxCall → Prop) : Prop :=
  ∀ l₁ w l₂ r l₃ a v x, S.calls = l₁ ++ w :: (l₂ ++ r :: l₃) →
    w.op = .write32 a v → w.ret.isOk → r.op = .read32 a → r.ret = .ok x →
      (∀ c ∈ l₂, c.ret.isOk → ∀ v', c.op ≠ .write32 a v') → Quiet w l₂ → x = v

theorem exists_call (op : MboxOp) (haddr : op.regaddr.toNat < 2 ^ 24) (s : MboxState)
    (script : List Moment) : ∃ c : MboxCall, c.op = op ∧
      c.ret = ((op.impl pollWait).exec scripted ⟨s, script, false⟩).1 ∧ c.pre = s ∧
        c.post = ((op.impl pollWait).exec scripted ⟨s, script, false⟩).2.mbox := by
  obtain ⟨t, hrun, hpath⟩ := exists_path_scripted (op.impl pollWait) ⟨s, script, false⟩
  exact ⟨⟨op, _, t, s, _, haddr, hrun, hpath⟩, rfl, rfl, rfl, rfl⟩

/-- An idle mailbox over zeroed memory. -/
def idleMbox : MboxState := ⟨⟨fun _ => 0, none, []⟩, 0, 0, 0, false⟩

/-- The poll after `n` accesses fails. -/
def faultAt (n : Nat) : List Moment := delay n ++ [⟨false, true⟩]

/-- The last successful write is not always what is read: a failed write may have been made, and a
read that was given up on may overwrite the data of a write. -/
theorem not_lastWriteRead :
    (¬ ∀ S : Session, S.LastWriteRead fun w _ => ¬w.pre.core.ReadPending) ∧
    (¬ ∀ S : Session, S.LastWriteRead fun _ l => Untouched 0 4 l) := by
  constructor
  · intro h
    -- write 1; write 2, whose poll fails; read
    obtain ⟨w, hwop, hwret, hwpre, hwpost⟩ :=
      exists_call (.write32 0 1) (by decide) idleMbox []
    obtain ⟨f, hfop, hfret, hfpre, hfpost⟩ :=
      exists_call (.write32 0 2) (by decide) w.post (faultAt 4)
    obtain ⟨r, hrop, hrret, hrpre, hrpost⟩ :=
      exists_call (.read32 0) (by decide) f.post []
    have hok : w.ret.isOk := by
      rw [hwret]
      rfl
    have hfail : f.ret.isOk = false := by
      rw [hfret, hwpost]
      rfl
    have hread : r.ret = .ok 2 := by
      rw [hrret, hfpost, hwpost]
      rfl
    have hchain : [w, f, r].IsChain fun c d => d.pre = c.post := by simp [hfpre, hrpre]
    have hquiet : ¬w.pre.core.ReadPending := by
      rw [hwpre]
      exact MboxCore.not_readPending_of_pending_none rfl
    have heq := h ⟨[w, f, r], hchain⟩ [] w [f] r [] 0 1 2 rfl hwop hok hrop hread
      (by simp [hfail]) hquiet
    exact absurd heq (by decide)
  · intro h
    -- a read whose poll fails; write 1, whose data the read overwrites; read
    obtain ⟨f, hfop, hfret, hfpre, hfpost⟩ :=
      exists_call (.read32 0) (by decide) idleMbox (faultAt 2)
    obtain ⟨w, hwop, hwret, hwpre, hwpost⟩ :=
      exists_call (.write32 0 1) (by decide) f.post (delay 2)
    obtain ⟨r, hrop, hrret, hrpre, hrpost⟩ :=
      exists_call (.read32 0) (by decide) w.post []
    have hok : w.ret.isOk := by
      rw [hwret, hfpost]
      rfl
    have hread : r.ret = .ok 0 := by
      rw [hrret, hwpost, hfpost]
      rfl
    have hchain : [f, w, r].IsChain fun c d => d.pre = c.post := by simp [hwpre, hrpre]
    have hnone : ∀ c ∈ ([] : List MboxCall), c.ret.isOk → ∀ v', c.op ≠ .write32 0 v' :=
      fun c hc => absurd hc List.not_mem_nil
    have hquiet : Untouched 0 4 [] := fun c hc => absurd hc List.not_mem_nil
    have heq := h ⟨[f, w, r], hchain⟩ [f] w [] r [] 0 1 0 rfl hwop hok hrop hread hnone hquiet
    exact absurd heq (by decide)

end Gpy2xx
