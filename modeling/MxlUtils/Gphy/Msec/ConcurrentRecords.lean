import MxlUtils.Gphy.Msec.Windows
import MxlUtils.Gphy.Threads

/- Threads that program transform records. Whenever the lock is free, the record of an SA is one
   that the calls on this SA alone would have left, in the order in which they were served: the
   calls that other threads make on other SAs in between do not show, whatever fails. -/
namespace Gpy2xx
open Effect Effect.Lock Bits

variable {dir : MsecDir} {phy : MsecDevice}

/-- One call of a thread that writes a record, and a run of it. -/
structure RecordThreadCall (dir : MsecDir) (phy : MsecDevice) where
  call : RecordCall
  trace : Trace regSig.locking
  run : call.Run dir phy trace

theorem RecordThreadCall.guarded (v : RecordThreadCall dir phy) : Guarded v.trace := by
  obtain ⟨call, t, h⟩ := v
  cases call with
  | config aesEncrypt inTr =>
    have hx : RunsGuarded (configTr aesEncrypt dir phy inTr) := .ite (.throw _) (.locked _)
    exact guarded_of_produces hx h
  | clear sa =>
    have hx : RunsGuarded (clearTr dir phy sa) := .ite (.throw _) (.locked _)
    exact guarded_of_produces hx h

section Devices
variable {P : Nat → Prop} {m m' n : Mem} {e : Event regSig} {t : RegTrace}

/-- The memories agree on the bytes in `P`. -/
def AgreeOn (P : Nat → Prop) (m n : Mem) : Prop := ∀ x, P x → m x = n x

theorem AgreeOn.store (h : AgreeOn P m n) (a k : Nat) (v : BitVec (8 * k)) :
    AgreeOn P (m.store a k v) (n.store a k v) := by
  intro x hx
  rw [Mem.store, Mem.store, h x hx]

/-- What a device may do, a device that agrees on some bytes may do as well, and they still agree. -/
theorem faultyDev_agree (h : AgreeOn P m n) (hstep : faultyDev m e m') :
    ∃ n', faultyDev n e n' ∧ AgreeOn P m' n' := by
  obtain ⟨o, r⟩ := e
  cases o with
  | mboxWrite32 a v =>
    cases r with
    | ok _ =>
      rw [show m' = m.store32 a v from hstep]
      exact ⟨_, rfl, h.store a 4 v⟩
    | error _ =>
      obtain rfl | rfl := (show m' = m ∨ m' = m.store32 a v from hstep)
      · exact ⟨n, .inl rfl, h⟩
      · exact ⟨_, .inr rfl, h.store a 4 v⟩
  | mboxWrite16 a v =>
    cases r with
    | ok _ =>
      rw [show m' = m.store16 a v from hstep]
      exact ⟨_, rfl, h.store a 2 v⟩
    | error _ =>
      obtain rfl | rfl := (show m' = m ∨ m' = m.store16 a v from hstep)
      · exact ⟨n, .inl rfl, h⟩
      · exact ⟨_, .inr rfl, h.store a 2 v⟩
  | _ =>
    rw [show m' = m from hstep]
    exact ⟨n, rfl, h⟩

theorem path_agree (h : AgreeOn P m n) (hpath : faultyDev.Path m t m') :
    ∃ n', faultyDev.Path n t n' ∧ AgreeOn P m' n' := by
  induction t generalizing m n with
  | nil =>
    rw [(Dev.path_nil).mp hpath]
    exact ⟨n, rfl, h⟩
  | cons e t ih =>
    obtain ⟨m₁, hstep, hpath⟩ := hpath
    obtain ⟨n₁, hstep', h₁⟩ := faultyDev_agree h hstep
    obtain ⟨n', hpath', h'⟩ := ih h₁ hpath
    exact ⟨n', ⟨n₁, hstep', hpath'⟩, h'⟩

end Devices

section Records
variable {ι : Type} {m m' n : Mem} {sa : BitVec 8}

/-- What the device sees of the calls on one SA. -/
def onSa (sa : BitVec 8) (order : List (ι × RecordThreadCall dir phy)) : RegTrace :=
  (order.filter (·.2.call.saIndex = sa)).flatMap fun p => accesses p.2.trace

/-- What the device sees of all calls. -/
def seenOf (order : List (ι × RecordThreadCall dir phy)) : RegTrace := order.flatMap fun p => accesses p.2.trace

/-- The calls on other SAs do not show in the record of an SA. -/
theorem record_of_own_path {order : List (ι × RecordThreadCall dir phy)} (h : AgreeOn (InRecord dir sa) m n)
    (hpath : faultyDev.Path m (seenOf order) m') :
    ∃ n', faultyDev.Path n (onSa sa order) n' ∧ AgreeOn (InRecord dir sa) m' n' := by
  induction order generalizing m n with
  | nil =>
    rw [(Dev.path_nil).mp hpath]
    exact ⟨n, rfl, h⟩
  | cons p order ih =>
    obtain ⟨i, v⟩ := p
    rw [seenOf, List.flatMap_cons] at hpath
    obtain ⟨m₁, hcall, hpath⟩ := (Dev.path_append).mp hpath
    by_cases hsa : v.call.saIndex = sa
    · obtain ⟨n₁, hcall', h₁⟩ := path_agree h hcall
      obtain ⟨n', hpath', h'⟩ := ih h₁ hpath
      refine ⟨n', ?_, h'⟩
      rw [onSa, List.filter_cons_of_pos (by simpa using hsa), List.flatMap_cons]
      exact (Dev.path_append).mpr ⟨n₁, hcall', hpath'⟩
    · -- A call on another SA writes its own record and the register of the handshake.
      have hframe : AgreeOn (InRecord dir sa) m₁ n := by
        intro x hx
        rw [v.call.frame v.run hcall (inFlight_record_apart hx) fun _ => records_apart (Ne.symm hsa) hx]
        exact h x hx
      obtain ⟨n', hpath', h'⟩ := ih hframe hpath
      refine ⟨n', ?_, h'⟩
      rw [onSa, List.filter_cons_of_neg (by simpa using hsa)]
      exact hpath'

variable [DecidableEq ι]

/-- In a schedule of threads that write records, the record of every SA is at every moment at which the lock is free
one that the calls on this SA alone may leave. -/
def RecordsIsolated (sessions : ι → List (RecordThreadCall dir phy)) (w : Schedule regSig ι) : Prop :=
  Follows (·.trace) sessions w → Granted w → Frees (w.map Prod.snd) →
    ∃ order : List (ι × RecordThreadCall dir phy), seen w = seenOf order ∧
      (∀ i, (order.filter (·.1 = i)).map Prod.snd <+: sessions i) ∧
      ∀ m m' sa, faultyDev.Path m (seen w) m' →
        ∃ n, faultyDev.Path m (onSa sa order) n ∧ recordAt dir n sa = recordAt dir m' sa

/-- **Records under concurrency.** For any number of threads, any calls that configure or clear records, any table
size and any failures: the record of an SA does not depend on what the threads do with other SAs. -/
theorem recordsIsolated (sessions : ι → List (RecordThreadCall dir phy)) (w : Schedule regSig ι) :
    RecordsIsolated sessions w := by
  intro hfollows hgrant hfree
  have hserial := serial_of_granted (fun v => RecordThreadCall.guarded v) hfollows hgrant
  obtain ⟨left, hserved⟩ := hserial.served (fun v => RecordThreadCall.guarded v) hfree
  obtain ⟨order, rfl, -, hcalls⟩ := hserved.order
  have hseen : seen (order.flatMap fun p => byParty p.1 p.2.trace) = seenOf order := seen_flatMap order
  refine ⟨order, hseen, fun i => ?_, fun m m' sa hpath => ?_⟩
  · rw [hcalls i]
    exact List.prefix_append _ _
  · rw [hseen] at hpath
    obtain ⟨n, hown, hagree⟩ := record_of_own_path (fun _ _ => rfl) hpath
    refine ⟨n, hown, ?_⟩
    exact Mem.loadWords_congr fun x h₁ h₂ => (hagree x ⟨h₁, h₂⟩).symm

end Records

end Gpy2xx
