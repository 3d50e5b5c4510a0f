import MxlUtils.Gphy.Mbox.Device

/- What the mailbox functions do to the device, whatever its timing. `mboxSpec` is
   the mailbox without its registers: a call makes one access, and if it succeeds
   the access has finished. `impl_refines` says that the polling build over the
   MDIO registers is an implementation of it. The one thing registers add is that
   a read the driver gave up on may still overwrite the data of the next write. -/
namespace Gpy2xx
open Effect Effect.Fallible Bits

/-! ## The mailbox without its registers -/

/-- The mailbox functions as operations of a device. -/
abbrev mboxSig : Sig := ⟨MboxOp, fun _ => MboxRet⟩

/-- The access of a command, given the data registers. -/
def MboxCmd.access (addr : Nat) (hi lo : BitVec 16) : MboxCmd → Access
  | .read => .read16 addr
  | .write => .write16 addr lo
  | .read32 => .read32 addr
  | .write32 => .write32 addr (hi ++ lo)

/-- The access a call asks for. -/
def MboxOp.access : MboxOp → Access
  | .read16 a => .read16 a.toNat
  | .write16 a v => .write16 a.toNat (v.setWidth 16)
  | .read32 a => .read32 a.toNat
  | .write32 a v => .write32 a.toNat v

/-- What a successful call returns. -/
def MboxOp.answer (m : Mem) : MboxOp → BitVec 32
  | .read16 a => (m.load16 a.toNat).setWidth 32
  | .read32 a => m.load32 a.toNat
  | _ => 0

/-- The same access up to the data written. -/
def Access.SameTarget : Access → Access → Prop
  | .read16 a, .read16 b => a = b
  | .write16 a _, .write16 b _ => a = b
  | .read32 a, .read32 b => a = b
  | .write32 a _, .write32 b _ => a = b
  | _, _ => False

/-- The access in flight may have finished. -/
def MboxCore.Late (c c' : MboxCore) : Prop := c' = c ∨ c' = c.finish

/-- One call. The data of a write is the caller's unless a read is in flight when it begins. A
failed call has made its access, or not, and left it in flight, or not. -/
def mboxSpec : Dev mboxSig MboxCore := fun c e c' =>
  ∃ m acc, c.Late m ∧ acc.SameTarget e.op.access ∧ (¬c.ReadPending → acc = e.op.access) ∧
    match e.ret with
    | .ok v => c' = (m.start acc).finish ∧ v = e.op.answer m.mem
    | .error _ => c' = m ∨ (m.start acc).Late c'

/-! ## Accesses that finish late -/

namespace MboxCore
variable {c c' c'' : MboxCore}

theorem finish_of_pending_none (h : c.pending = none) : c.finish = c := by
  rw [finish, h]

theorem pending_finish (c : MboxCore) : c.finish.pending = none := by
  rw [finish]
  cases h : c.pending with
  | none => exact h
  | some acc => rfl

theorem finish_finish (c : MboxCore) : c.finish.finish = c.finish :=
  finish_of_pending_none (pending_finish c)

theorem Late.refl (c : MboxCore) : c.Late c := .inl rfl

theorem Late.trans (h : c.Late c') (h' : c'.Late c'') : c.Late c'' := by
  rcases h with h | h
  · rw [← h]
    exact h'
  · rcases h' with h' | h'
    · exact .inr (h'.trans h)
    · rw [h, finish_finish] at h'
      exact .inr h'

theorem not_readPending_of_pending_none (h : c.pending = none) : ¬c.ReadPending := by
  intro hread
  obtain ⟨acc, hacc, -⟩ := hread
  rw [h] at hacc
  cases hacc

theorem Late.not_readPending (h : c.Late c') (hc : ¬c.ReadPending) : ¬c'.ReadPending := by
  rcases h with h | h
  · rw [h]
    exact hc
  · rw [h]
    exact not_readPending_of_pending_none (pending_finish c)

end MboxCore

namespace MboxState
variable (s : MboxState) (late : Bool)

theorem core_finish : s.finish.core = s.core.finish := by
  rw [finish]
  cases h : s.core.pending with
  | none => exact (MboxCore.finish_of_pending_none h).symm
  | some acc => rfl

theorem late_settle : s.core.Late (s.settle late).core := by
  rw [settle]
  cases late with
  | false => exact .inl rfl
  | true => exact .inr s.core_finish

theorem addrlo_settle : (s.settle late).addrlo = s.addrlo := by
  rw [settle, finish]
  cases late with
  | false => rfl
  | true => cases s.core.pending <;> rfl

/-- Only a late read changes the data registers. -/
theorem data_settle (h : ¬s.core.ReadPending) :
    (s.settle late).data = s.data ∧ (s.settle late).dataHigh = s.dataHigh := by
  rw [settle, finish]
  cases late with
  | false => exact ⟨rfl, rfl⟩
  | true =>
    cases hp : s.core.pending with
    | none => exact ⟨rfl, rfl⟩
    | some acc =>
      have hread : ¬acc.IsRead := fun hread => h ⟨acc, hp, hread⟩
      cases acc with
      | read16 a => exact absurd trivial hread
      | read32 a => exact absurd trivial hread
      | _ => exact ⟨rfl, rfl⟩

theorem settle_of_pending_none (h : s.core.pending = none) : s.settle late = s := by
  rw [settle, finish, h]
  exact ite_self s

end MboxState

/-! ## The calls against the registers -/

section Calls
variable {c : MboxCore} {s : MboxState}

theorem wp_phyWriteMmd {reg : Nat} {v : BitVec 16} {Q : Except Errno Unit → MboxState → Prop}
    (h : ∀ late, Q (.ok ()) ((s.settle late).write reg v) ∧
      (∀ e, Q (.error e) (s.settle late) ∧ Q (.error e) ((s.settle late).write reg v))) :
    wp mboxDev (phyWriteMmd .vend1 reg v) Q s := by
  apply wp_access
  intro r s' hs'
  obtain ⟨late, hs'⟩ := hs'
  cases r with
  | ok _ =>
    rw [show s' = (s.settle late).write reg v from hs']
    exact (h late).1
  | error e =>
    rcases (hs' : s' = s.settle late ∨ s' = (s.settle late).write reg v) with hs' | hs'
    · rw [hs']
      exact ((h late).2 e).1
    · rw [hs']
      exact ((h late).2 e).2

theorem wp_phyReadMmd {reg : Nat} {Q : Except Errno (BitVec 16) → MboxState → Prop}
    (h : ∀ late, (∀ w, (s.settle late).Shows reg w → Q (.ok w) (s.settle late)) ∧
      ∀ e, Q (.error e) (s.settle late)) :
    wp mboxDev (phyReadMmd .vend1 reg) Q s := by
  apply wp_access
  intro r s' hs'
  obtain ⟨late, hs'⟩ := hs'
  cases r with
  | ok w =>
    have hs' : s' = s.settle late ∧ (s.settle late).Shows reg w := hs'
    rw [hs'.1]
    exact (h late).1 w hs'.2
  | error e =>
    rw [show s' = s.settle late from hs']
    exact (h late).2 e

/-- A data register. -/
def MboxState.reg (s : MboxState) (r : Nat) : BitVec 16 :=
  if r = mboxData then s.data else s.dataHigh

/-- Since `c` the access in flight may have finished; `regs` were written to the data registers, and
are there unless a late read overwrote them. -/
structure Written (c : MboxCore) (regs : List (Nat × BitVec 16)) (s : MboxState) : Prop where
  late : c.Late s.core
  regs : ¬c.ReadPending → ∀ p ∈ regs, s.reg p.1 = p.2

theorem Written.nil (s : MboxState) : Written s.core [] s :=
  ⟨.refl _, fun _ _ h => absurd h List.not_mem_nil⟩

theorem Written.settle {regs : List (Nat × BitVec 16)} (h : Written c regs s) (late : Bool) :
    Written c regs (s.settle late) := by
  refine ⟨h.late.trans (s.late_settle late), fun hc p hp => ?_⟩
  have hdata := s.data_settle late (h.late.not_readPending hc)
  rw [← h.regs hc p hp, MboxState.reg, MboxState.reg, hdata.1, hdata.2]

/-- A data register is written. -/
theorem wp_writeData {regs : List (Nat × BitVec 16)} {reg : Nat} {v : BitVec 16}
    (h : Written c regs s) (hreg : reg = mboxData ∨ reg = mboxDataHigh)
    (hfresh : ∀ p ∈ regs, p.1 = mboxData ∧ reg = mboxDataHigh) :
    wp mboxDev (phyWriteMmd .vend1 reg v)
      (fun r s' => c.Late s'.core ∧ (r = .ok () → Written c ((reg, v) :: regs) s')) s := by
  apply wp_phyWriteMmd
  intro late
  have hsettle := h.settle late
  generalize s.settle late = m at hsettle
  have hcore : (m.write reg v).core = m.core := by
    rcases hreg with hreg | hreg <;> rw [hreg] <;> rfl
  refine ⟨⟨hcore ▸ hsettle.late, fun _ => ⟨hcore ▸ hsettle.late, fun hc p hp => ?_⟩⟩,
    fun e => ⟨⟨hsettle.late, nofun⟩, hcore ▸ hsettle.late, nofun⟩⟩
  rcases List.mem_cons.mp hp with hp | hp
  · rw [hp]
    rcases hreg with hreg | hreg <;> rw [hreg] <;> rfl
  · have hold := hsettle.regs hc p hp
    obtain ⟨hp₁, hhigh⟩ := hfresh p hp
    rw [hp₁] at hold ⊢
    rw [hhigh]
    exact hold

/-- The access that a command word starts. -/
theorem ofCmd_mboxCmdWord {regaddr : BitVec 32} (cmd : MboxCmd) (hi lo : BitVec 16)
    (h : regaddr.toNat < 2 ^ 24) :
    Access.ofCmd (mboxCmdWord regaddr cmd) hi lo (regaddr.setWidth 16) =
      cmd.access regaddr.toNat hi lo := by
  simp only [Access.ofCmd, mboxCmdWord_cmd, mboxCmdWord_addr regaddr cmd h]
  cases cmd <;> rfl

/-- Address and command: the access is started last, with the data registers as they then are. -/
theorem wp_mboxStart {regs : List (Nat × BitVec 16)} {regaddr : BitVec 32} {cmd : MboxCmd}
    (h : Written c regs s) (haddr : regaddr.toNat < 2 ^ 24) :
    wp mboxDev (mboxStart regaddr cmd) (fun r s' => ∃ m, Written c regs m ∧
      (s'.core = m.core.start (cmd.access regaddr.toNat m.dataHigh m.data) ∧ s'.ready = false ∨
        s'.core = m.core ∧ r ≠ .ok ())) s := by
  apply wp_bind
  apply wp_phyWriteMmd
  intro late₁
  have hsettle := h.settle late₁
  generalize s.settle late₁ = m₁ at hsettle
  have hwrite : Written c regs (m₁.write mboxAddrlo (regaddr.setWidth 16)) := ⟨hsettle.late, hsettle.regs⟩
  refine ⟨?_, fun e => ⟨⟨m₁, hsettle, .inr ⟨rfl, nofun⟩⟩, ⟨_, hwrite, .inr ⟨rfl, nofun⟩⟩⟩⟩
  apply wp_phyWriteMmd
  intro late₂
  have haddrlo : ((m₁.write mboxAddrlo (regaddr.setWidth 16)).settle late₂).addrlo =
      regaddr.setWidth 16 := MboxState.addrlo_settle _ late₂
  have hsettle₂ := hwrite.settle late₂
  generalize (m₁.write mboxAddrlo (regaddr.setWidth 16)).settle late₂ = m at haddrlo hsettle₂
  have hstart : (m.write mboxCmd (mboxCmdWord regaddr cmd)).core =
      m.core.start (cmd.access regaddr.toNat m.dataHigh m.data) := by
    rw [← ofCmd_mboxCmdWord cmd m.dataHigh m.data haddr, ← haddrlo]
    rfl
  exact ⟨⟨m, hsettle₂, .inl ⟨hstart, rfl⟩⟩,
    fun e => ⟨⟨m, hsettle₂, .inr ⟨rfl, nofun⟩⟩, ⟨m, hsettle₂, .inl ⟨hstart, rfl⟩⟩⟩⟩

/-- READY shows only after the access in flight has finished. -/
theorem wp_poll (hready : s.ready = false) (n : Nat) :
    ∀ m, m = s ∨ m = s.finish → wp mboxDev (isMboxBusy.poll n)
      (fun r s' => (s' = s ∨ s' = s.finish) ∧ (r = .ok () → s' = s.finish)) m := by
  induction n with
  | zero =>
    intro m hm
    exact wp_throw ⟨hm, nofun⟩
  | succ n ih =>
    intro m hm
    apply wp_bind
    apply wp_phyReadMmd
    intro late
    have hsettle : m.settle late = s ∨ m.settle late = s.finish := by
      rcases hm with hm | hm
      · rw [hm, MboxState.settle]
        cases late with
        | false => exact .inl rfl
        | true => exact .inr rfl
      · have hnone : m.core.pending = none := by
          rw [hm, MboxState.core_finish]
          exact MboxCore.pending_finish _
        rw [MboxState.settle_of_pending_none m late hnone]
        exact .inr hm
    refine ⟨fun w hw => ?_, fun e => ⟨hsettle, nofun⟩⟩
    apply wp_ite
    · intro hshown
      have hm' : (m.settle late).ready = true := (hw.1 rfl).mp hshown
      refine wp_pure ⟨hsettle, fun _ => ?_⟩
      rcases hsettle with hsettle | hsettle
      · rw [hsettle, hready] at hm'
        cases hm'
      · exact hsettle
    · intro _
      exact ih _ hsettle

theorem wp_pollWait (hready : s.ready = false) : wp mboxDev pollWait
      (fun r s' => (s' = s ∨ s' = s.finish) ∧ (r = .ok () → s' = s.finish)) s := by
  apply wp_bind
  apply wp_attempt
  rw [isMboxBusy]
  refine wp_mono (wp_poll hready maxBusyRetry s (.inl rfl)) ?_
  intro r s' h
  cases r with
  | ok _ => exact wp_pure h
  | error e => exact wp_throw ⟨h.1, nofun⟩

/-- A read of a data register when no access is in flight. -/
theorem wp_readData {reg : Nat} (h : s.core.pending = none)
    (hreg : reg = mboxData ∨ reg = mboxDataHigh) :
    wp mboxDev (phyReadMmd .vend1 reg)
      (fun r s' => s' = s ∧ ∀ w, r = .ok w → w = s.reg reg) s := by
  apply wp_phyReadMmd
  intro late
  rw [MboxState.settle_of_pending_none s late h]
  refine ⟨fun w hw => ⟨rfl, fun w' hw' => ?_⟩, fun e => ⟨rfl, nofun⟩⟩
  rw [← Except.ok.inj hw']
  rcases hreg with hreg | hreg
  · rw [hreg]
    exact (hw.2 h).1 hreg
  · rw [hreg]
    exact (hw.2 h).2 hreg

/-- What a call does after its access has finished. -/
def MboxOp.collect : MboxOp → Api (BitVec 32)
  | .read16 _ => do
    let dataLow ← phyReadMmd .vend1 mboxData
    pure (dataLow.setWidth 32)
  | .read32 _ => do
    let dataLow ← phyReadMmd .vend1 mboxData
    let dataHigh ← phyReadMmd .vend1 mboxDataHigh
    pure (dataHigh ++ dataLow)
  | _ => pure 0

theorem append_halves (v : BitVec 32) :
    ((v >>> 16).setWidth 16 : BitVec 16) ++ (v.setWidth 16 : BitVec 16) = v := by
  apply BitVec.eq_of_getLsbD_eq
  intro i hi
  rw [BitVec.getLsbD_append]
  by_cases h : i < 16
  · simp [h]
  · have hsub : 16 + (i - 16) = i := by omega
    have hlt : i - 16 < 16 := by omega
    simp [h, hsub, hlt]

theorem wp_collect {op : MboxOp} {hi lo : BitVec 16} {m : MboxCore}
    (hcore : s.core = m.start (op.cmd.access op.regaddr.toNat hi lo)) :
    wp mboxDev op.collect
      (fun r s' => s'.core = s.core.finish ∧ ∀ v, r = .ok v → v = op.answer m.mem) s.finish := by
  have hnone : s.finish.core.pending = none := by
    rw [s.core_finish]
    exact MboxCore.pending_finish _
  cases op with
  | write16 a v => exact wp_pure ⟨s.core_finish, fun v hv => (Except.ok.inj hv).symm⟩
  | write32 a v => exact wp_pure ⟨s.core_finish, fun v hv => (Except.ok.inj hv).symm⟩
  | read16 a =>
    have hdata : s.finish.data = m.mem.load16 a.toNat := by
      rw [MboxState.finish, hcore]
      rfl
    apply wp_bind
    refine wp_mono (wp_readData hnone (.inl rfl)) ?_
    intro r s' h
    rw [h.1]
    cases r with
    | error e => exact ⟨s.core_finish, nofun⟩
    | ok w =>
      refine wp_pure ⟨s.core_finish, fun v hv => ?_⟩
      rw [← Except.ok.inj hv, h.2 w rfl]
      exact congrArg (BitVec.setWidth 32) hdata
  | read32 a =>
    have hdata : s.finish.data = (m.mem.load32 a.toNat).setWidth 16 := by
      rw [MboxState.finish, hcore]
      rfl
    have hdataHigh : s.finish.dataHigh = (m.mem.load32 a.toNat >>> 16).setWidth 16 := by
      rw [MboxState.finish, hcore]
      rfl
    apply wp_bind
    refine wp_mono (wp_readData hnone (.inl rfl)) ?_
    intro r s' h
    rw [h.1]
    cases r with
    | error e => exact ⟨s.core_finish, nofun⟩
    | ok w =>
      apply wp_bind
      refine wp_mono (wp_readData hnone (.inr rfl)) ?_
      intro r' s'' h'
      rw [h'.1]
      cases r' with
      | error e => exact ⟨s.core_finish, nofun⟩
      | ok w' =>
        refine wp_pure ⟨s.core_finish, fun v hv => ?_⟩
        have hlow : w = s.finish.data := h.2 w rfl
        have hhigh : w' = s.finish.dataHigh := h'.2 w' rfl
        rw [← Except.ok.inj hv, hlow, hhigh, hdata, hdataHigh]
        exact append_halves _

/-- Address, command, wait and collection, once the data registers are written. -/
theorem wp_rest {op : MboxOp} {regs : List (Nat × BitVec 16)} (h : Written c regs s)
    (hregs : ∀ p ∈ op.out, p ∈ regs) (haddr : op.regaddr.toNat < 2 ^ 24) :
    wp mboxDev (do mboxStart op.regaddr op.cmd; pollWait; op.collect)
      (fun r s' => mboxSpec c ⟨op, r⟩ s'.core) s := by
  apply wp_bind
  refine wp_mono (wp_mboxStart h haddr) ?_
  intro r s₁ h₁
  obtain ⟨m, hm, h₁⟩ := h₁
  have htarget : (op.cmd.access op.regaddr.toNat m.dataHigh m.data).SameTarget op.access := by
    cases op <;> rfl
  -- a late read would have gone by the data registers
  have haccess : ¬c.ReadPending →
      op.cmd.access op.regaddr.toNat m.dataHigh m.data = op.access := by
    intro hc
    have hout : ∀ p ∈ op.out, m.reg p.1 = p.2 := fun p hp => hm.regs hc p (hregs p hp)
    cases op with
    | read16 a => rfl
    | read32 a => rfl
    | write16 a v =>
      have hdata : m.data = v.setWidth 16 := hout (mboxData, _) List.mem_cons_self
      exact congrArg (Access.write16 a.toNat) hdata
    | write32 a v =>
      have hdata : m.data = v.setWidth 16 := hout (mboxData, _) List.mem_cons_self
      have hhigh : m.dataHigh = (v >>> 16).setWidth 16 :=
        hout (mboxDataHigh, _) (List.mem_cons_of_mem _ List.mem_cons_self)
      show Access.write32 a.toNat (m.dataHigh ++ m.data) = .write32 a.toNat v
      rw [hdata, hhigh, append_halves]
  cases r with
  | error e =>
    refine ⟨m.core, _, hm.late, htarget, haccess, ?_⟩
    rcases h₁ with h₁ | h₁
    · exact .inr (.inl h₁.1)
    · exact .inl h₁.1
  | ok _ =>
    have h₁ := h₁.resolve_right fun h => h.2 rfl
    apply wp_bind
    refine wp_mono (wp_pollWait h₁.2) ?_
    intro r s₂ h₂
    cases r with
    | error e =>
      refine ⟨m.core, _, hm.late, htarget, haccess, .inr ?_⟩
      rw [← h₁.1]
      rcases h₂.1 with h₂ | h₂
      · exact .inl (congrArg MboxState.core h₂)
      · exact .inr ((congrArg MboxState.core h₂).trans s₁.core_finish)
    | ok _ =>
      rw [h₂.2 rfl]
      refine wp_mono (wp_collect h₁.1) ?_
      intro r s₃ h₃
      rw [h₁.1] at h₃
      refine ⟨m.core, _, hm.late, htarget, haccess, ?_⟩
      cases r with
      | ok v => exact ⟨h₃.1, h₃.2 v rfl⟩
      | error e => exact .inr (.inr h₃.1)

/-- Data registers, address, command, wait, collection. -/
theorem MboxOp.impl_eq (wait : Api Unit) (op : MboxOp) : op.impl wait =
    have rest : Api (BitVec 32) := do
      mboxStart op.regaddr op.cmd
      wait
      op.collect
    match op with
    | .write16 _ v => do
      phyWriteMmd .vend1 mboxData (v.setWidth 16)
      rest
    | .write32 _ v => do
      phyWriteMmd .vend1 mboxData (v.setWidth 16)
      phyWriteMmd .vend1 mboxDataHigh ((v >>> 16).setWidth 16)
      rest
    | _ => rest := by
  cases op with
  | read16 a => rfl
  | read32 a => rfl
  | write16 a v => simp only [impl, mboxWrite16, bind_assoc]; rfl
  | write32 a v => simp only [impl, mboxWrite32, bind_assoc]; rfl

/-- **Refinement.** Every call of the polling build, under any timing and any failed accesses, is a
step of the mailbox without registers. -/
theorem impl_refines (op : MboxOp) (haddr : op.regaddr.toNat < 2 ^ 24) (s : MboxState) :
    wp mboxDev (op.impl pollWait) (fun r s' => mboxSpec s.core ⟨op, r⟩ s'.core) s := by
  rw [op.impl_eq]
  -- a call that fails before its command has made no access
  have hfail : ∀ (e : Errno) (m : MboxState), s.core.Late m.core →
      mboxSpec s.core ⟨op, .error e⟩ m.core := by
    intro e m hm
    refine ⟨m.core, op.access, hm, ?_, fun _ => rfl, .inl rfl⟩
    cases op <;> rfl
  cases op with
  | read16 a =>
    refine wp_rest (Written.nil s) ?_ haddr
    exact fun p hp => hp
  | read32 a =>
    refine wp_rest (Written.nil s) ?_ haddr
    exact fun p hp => hp
  | write16 a v =>
    apply wp_bind
    refine wp_mono (wp_writeData (Written.nil s) (.inl rfl) nofun) ?_
    intro r m hm
    cases r with
    | error e => exact hfail e m hm.1
    | ok _ => exact wp_rest (hm.2 rfl) (fun p hp => hp) haddr
  | write32 a v =>
    apply wp_bind
    refine wp_mono (wp_writeData (Written.nil s) (.inl rfl) nofun) ?_
    intro r m hm
    cases r with
    | error e => exact hfail e m hm.1
    | ok _ =>
      apply wp_bind
      refine wp_mono (wp_writeData (hm.2 rfl) (.inr rfl) ?_) ?_
      · intro p hp
        rw [List.mem_singleton.mp hp]
        exact ⟨rfl, rfl⟩
      · intro r' m' hm'
        cases r' with
        | error e => exact hfail e m' hm'.1
        | ok _ =>
          refine wp_rest (hm'.2 rfl) ?_ haddr
          intro p hp
          exact (List.Perm.swap _ _ _).mem_iff.mp hp

end Calls

end Gpy2xx
