import MxlUtils.Gphy.Mbox.Protocol

/- The wait of the `P31G_OPT_SPEED` build: read the interrupt status until its
   mailbox bit is set. The loop tests a variable that nothing assigns, so it ends
   after one read, whatever was read; the two constants it names are not in the
   headers and are parameters here. A read then samples the data registers two
   MDIO accesses after the command, finished or not. -/
namespace Gpy2xx
open Effect Effect.Fallible Bits

/-! ## The functions -/

section Constants
-- `PHY_ISTAT_MBOX_POS` and `CONST_PHY_ISTAT_MBOX_INACTIVE`
variable (mboxPos inactive : BitVec 32)

/-- `do { ret = PHY_READ(ISTAT) } while ((_phy_istat & mask) != INACTIVE)`, at most `n` times. -/
def istatLoop (mask inactive : BitVec 32) : (n : Nat) → Api Unit
  | 0 => throw errRet
  | n + 1 => do
    let _ ← phyRead phyIstat
    -- the value read goes to `ret`; `_phy_istat` keeps its initial value
    let istat : BitVec 32 := 0
    if istat &&& mask ≠ inactive then istatLoop mask inactive n else pure ()

/-- `PHY_IMASK_MBOX_MASK` -/
def phyImaskMboxMask : BitVec 32 := 0x200

/-- The mask of the loop: the writes use the one of the interrupt mask register. -/
def MboxOp.istatMask : MboxOp → BitVec 32
  | .read16 _ | .read32 _ => mboxPos
  | .write16 _ _ | .write32 _ _ => phyImaskMboxMask

/-- A call of the `P31G_OPT_SPEED` build, its loop taken at most `n` times. -/
def MboxOp.optImpl (n : Nat) (op : MboxOp) : Api (BitVec 32) :=
  op.impl (istatLoop (op.istatMask mboxPos) inactive n)

/-- The loop is left after its first read. -/
theorem istatLoop_succ (mask : BitVec 32) (hinactive : inactive = 0) (n : Nat) :
    istatLoop mask inactive (n + 1) = (phyRead phyIstat >>= fun _ => pure ()) := by
  rw [istatLoop, hinactive]
  simp

end Constants

/-! ## A device that answers late -/

/-- A mailbox that does nothing for `n` accesses, then finishes at once. -/
def delayed (s : MboxState) (early : Bool) (n : Nat) : Scripted := ⟨s, delay n, early⟩

section Delay
variable (s : MboxState) (early : Bool) (n : Nat)

theorem exec_write_delayed (reg : Nat) (v : BitVec 16) :
    (phyWriteMmd .vend1 reg v).exec scripted (delayed s early (n + 1)) =
      (.ok (), delayed (s.write reg v) early n) := rfl

theorem exec_read_delayed (reg : Nat) :
    (phyReadMmd .vend1 reg).exec scripted (delayed s early (n + 1)) =
      (.ok (s.shown reg), delayed s
        (early || decide ((reg = mboxData ∨ reg = mboxDataHigh) ∧ s.core.pending ≠ none)) n) := rfl

theorem exec_read_prompt (reg : Nat) :
    (phyReadMmd .vend1 reg).exec scripted (delayed s early 0) =
      (.ok (s.finish.shown reg), delayed s.finish early 0) := by
  have hpending : s.finish.core.pending = none := by
    rw [s.core_finish]
    exact MboxCore.pending_finish _
  show (_, Scripted.mk _ _ (early || decide (_ ∧ s.finish.core.pending ≠ none))) = _
  simp only [hpending, ne_eq, not_true_eq_false, and_false, decide_false, Bool.or_false]
  rfl

theorem finish_finish : s.finish.finish = s.finish := by
  have hpending : s.finish.core.pending = none := by
    rw [s.core_finish]
    exact MboxCore.pending_finish _
  rw [MboxState.finish, hpending]

/-- The polls see READY as soon as the access has finished. -/
theorem exec_poll_delayed {k : Nat} (hk : k < n) (hready : s.ready = false)
    (hfinish : s.finish.ready = true) :
    (isMboxBusy.poll n).exec scripted (delayed s early k) =
      (.ok (), delayed s.finish early 0) := by
  induction n generalizing k with
  | zero => exact absurd hk (Nat.not_lt_zero k)
  | succ n ih =>
    cases k with
    | zero =>
      rw [isMboxBusy.poll, exec_bind_ok (exec_read_prompt s early mboxCmd), exec_ite, if_pos]
      · rfl
      · exact ((s.finish.shows_shown mboxCmd).1 rfl).mpr hfinish
    | succ k =>
      rw [isMboxBusy.poll, exec_bind_ok (exec_read_delayed s early k mboxCmd), exec_ite, if_neg]
      · have hcmd : decide ((mboxCmd = mboxData ∨ mboxCmd = mboxDataHigh) ∧
            s.core.pending ≠ none) = false := by simp [mboxCmd, mboxData, mboxDataHigh]
        rw [hcmd, Bool.or_false]
        exact ih (Nat.lt_of_succ_lt_succ hk)
      · intro hshown
        have := ((s.shows_shown mboxCmd).1 rfl).mp hshown
        rw [hready] at this
        cases this

theorem exec_pollWait_delayed {k : Nat} (hk : k < maxBusyRetry) (hready : s.ready = false)
    (hfinish : s.finish.ready = true) :
    pollWait.exec scripted (delayed s early k) = (.ok (), delayed s.finish early 0) := by
  have hpoll : isMboxBusy.exec scripted (delayed s early k) = (.ok (), delayed s.finish early 0) :=
    exec_poll_delayed s early maxBusyRetry hk hready hfinish
  rw [pollWait, exec_bind_ok (exec_attempt _ _ _), hpoll]
  rfl

/-- The interrupt wait spends one access. -/
theorem exec_istat_delayed {inactive : BitVec 32} (mask : BitVec 32) (hinactive : inactive = 0)
    (m k : Nat) : (istatLoop mask inactive (m + 1)).exec scripted (delayed s early k) =
      (.ok (), match k with
        | 0 => delayed s.finish early 0
        | k + 1 => delayed s early k) := by
  rw [istatLoop_succ inactive mask hinactive]
  cases k <;> rfl

end Delay

/-! ## Both builds -/

/-- The mailbox once a call has written its command. -/
def MboxOp.started (op : MboxOp) (s : MboxState) : MboxState :=
  ((op.out.foldl (fun s p => s.write p.1 p.2) s).write mboxAddrlo (op.regaddr.setWidth 16)).write
    mboxCmd (mboxCmdWord op.regaddr op.cmd)

section Builds
variable (op : MboxOp) (s : MboxState)

theorem started_pending (haddr : op.regaddr.toNat < 2 ^ 24) :
    (op.started s).core.pending = some op.access := by
  have hcmd := fun hi lo => ofCmd_mboxCmdWord op.cmd hi lo haddr
  cases op with
  | read16 a => exact congrArg some (hcmd _ _)
  | read32 a => exact congrArg some (hcmd _ _)
  | write16 a v => exact congrArg some (hcmd _ _)
  | write32 a v =>
    refine (congrArg some (hcmd _ _)).trans ?_
    exact congrArg (fun v => some (Access.write32 a.toNat v)) (append_halves v)

theorem started_finish_ready (haddr : op.regaddr.toNat < 2 ^ 24) :
    (op.started s).finish.ready = true := by
  rw [MboxState.finish, started_pending op s haddr]

/-- Up to the command, both builds do the same. -/
theorem exec_impl_delayed (wait : Api Unit) (d : Nat) :
    (op.impl wait).exec scripted (delayed s false (op.out.length + 2 + d)) =
      (do wait; op.collect).exec scripted (delayed (op.started s) false d) := by
  rw [op.impl_eq]
  cases op with
  | read16 a =>
    have hlen : (MboxOp.read16 a).out.length + 2 + d = d + 2 := Nat.add_comm _ _
    rw [hlen]
    rfl
  | read32 a =>
    have hlen : (MboxOp.read32 a).out.length + 2 + d = d + 2 := Nat.add_comm _ _
    rw [hlen]
    rfl
  | write16 a v =>
    have hlen : (MboxOp.write16 a v).out.length + 2 + d = d + 3 := Nat.add_comm _ _
    rw [hlen]
    rfl
  | write32 a v =>
    have hlen : (MboxOp.write32 a v).out.length + 2 + d = d + 4 := Nat.add_comm _ _
    rw [hlen]
    rfl

/-- The data registers are sampled after the access has finished. -/
theorem exec_collect_prompt (early : Bool) :
    (op.collect.exec scripted (delayed s early 0)).1 =
      (op.collect.exec scripted (delayed s.finish early 0)).1 ∧
    (op.collect.exec scripted (delayed s early 0)).2.early = early := by
  cases op with
  | write16 a v => exact ⟨rfl, rfl⟩
  | write32 a v => exact ⟨rfl, rfl⟩
  | read16 a =>
    simp only [MboxOp.collect, exec_bind_ok (exec_read_prompt _ _ _), finish_finish]
    exact ⟨trivial, rfl⟩
  | read32 a =>
    simp only [MboxOp.collect, exec_bind_ok (exec_read_prompt _ _ _), finish_finish]
    exact ⟨trivial, rfl⟩

end Builds

/-! ## Agreement -/

/-- On a device whose access finishes after `d` more MDIO accesses than the command, both builds
return the same, and the optimised one reads no data register early. -/
def OptAgrees (mboxPos inactive : BitVec 32) (n : Nat) (op : MboxOp) (d : Nat) : Prop :=
  ∀ s : MboxState,
    let start := delayed s false (op.out.length + 2 + d)
    ((op.optImpl mboxPos inactive n).exec scripted start).1 =
        ((op.impl pollWait).exec scripted start).1 ∧
      ((op.optImpl mboxPos inactive n).exec scripted start).2.early = false

def MboxOp.IsWrite : MboxOp → Prop
  | .write16 _ _ | .write32 _ _ => True
  | _ => False

section Agreement
variable {mboxPos inactive : BitVec 32} {op : MboxOp} {d : Nat}

theorem exec_pollImpl (haddr : op.regaddr.toNat < 2 ^ 24) (hd : d < maxBusyRetry) (s : MboxState) :
    (op.impl pollWait).exec scripted (delayed s false (op.out.length + 2 + d)) =
      op.collect.exec scripted (delayed (op.started s).finish false 0) := by
  rw [exec_impl_delayed]
  exact exec_bind_ok (exec_pollWait_delayed _ false hd rfl (started_finish_ready op s haddr))

theorem exec_optImpl (hinactive : inactive = 0) (n : Nat) (s : MboxState) :
    (op.optImpl mboxPos inactive (n + 1)).exec scripted
        (delayed s false (op.out.length + 2 + d)) =
      op.collect.exec scripted (match d with
        | 0 => delayed (op.started s).finish false 0
        | d + 1 => delayed (op.started s) false d) := by
  rw [MboxOp.optImpl, exec_impl_delayed]
  exact exec_bind_ok (exec_istat_delayed _ false _ hinactive n d)

/-- A data register that is read while the access is in flight. -/
theorem early_collect (hop : ¬op.IsWrite) {s : MboxState} (hpending : s.core.pending ≠ none)
    (k : Nat) : (op.collect.exec scripted (delayed s false (k + 1))).2.early = true := by
  have hdata : decide ((mboxData = mboxData ∨ mboxData = mboxDataHigh) ∧
      s.core.pending ≠ none) = true := by simp [hpending]
  cases op with
  | write16 a v => exact absurd trivial hop
  | write32 a v => exact absurd trivial hop
  | read16 a =>
    rw [MboxOp.collect, exec_bind_ok (exec_read_delayed s false k mboxData), hdata]
    rfl
  | read32 a =>
    rw [MboxOp.collect, exec_bind_ok (exec_read_delayed s false k mboxData), hdata]
    cases k with
    | zero =>
      rw [exec_bind_ok (exec_read_prompt s _ mboxDataHigh)]
      rfl
    | succ k =>
      rw [exec_bind_ok (exec_read_delayed s _ k mboxDataHigh)]
      rfl

/-- **Optimised wait.** Within the polling budget the builds agree exactly on writes and on devices
that finish before the second access after the command. -/
theorem optAgrees_iff (hinactive : inactive = 0) (n : Nat) (haddr : op.regaddr.toNat < 2 ^ 24)
    (hd : d < maxBusyRetry) :
    OptAgrees mboxPos inactive (n + 1) op d ↔ op.IsWrite ∨ d ≤ 1 := by
  constructor
  · intro h
    by_contra hnot
    obtain ⟨hop, hlate⟩ := not_or.mp hnot
    obtain ⟨k, rfl⟩ : ∃ k, d = k + 2 := ⟨d - 2, by omega⟩
    have hearly := (h ⟨⟨fun _ => 0, none, []⟩, 0, 0, 0, false⟩).2
    rw [exec_optImpl hinactive] at hearly
    have hpending := started_pending op ⟨⟨fun _ => 0, none, []⟩, 0, 0, 0, false⟩ haddr
    have htrue := early_collect hop (by rw [hpending]; exact Option.some_ne_none _) k
    rw [htrue] at hearly
    cases hearly
  · intro h s
    show _ ∧ _
    rw [exec_optImpl hinactive, exec_pollImpl haddr hd]
    have hprompt := exec_collect_prompt op (op.started s) false
    match d, h with
    | 0, _ => exact ⟨rfl, (exec_collect_prompt op (op.started s).finish false).2⟩
    | 1, _ => exact hprompt
    | k + 2, h =>
      have hop : op.IsWrite := h.resolve_right (by omega)
      cases op with
      | read16 a => cases hop
      | read32 a => cases hop
      | _ => exact ⟨rfl, rfl⟩

theorem optAgrees_read32_iff : OptAgrees 9 0 1 (.read32 0x1000) 3 ↔
    (MboxOp.read32 0x1000).IsWrite ∨ 3 ≤ 1 :=
  optAgrees_iff rfl 0 (by decide) (by decide)

/-- With two accesses of delay, the optimised read returns what the data registers held before. -/
theorem not_optAgrees : ¬ ∀ (mboxPos inactive : BitVec 32) (n : Nat) (op : MboxOp) (d : Nat),
    inactive = 0 → op.regaddr.toNat < 2 ^ 24 → d < maxBusyRetry →
      OptAgrees mboxPos inactive (n + 1) op d := by
  intro h
  have hsame := (h 9 0 0 (.read16 0) 2 rfl (by decide) (by decide)
    ⟨⟨fun _ => 0, none, []⟩, 7, 0, 0, false⟩).1
  have hopt : ((MboxOp.optImpl 9 0 1 (.read16 0)).exec scripted
      (delayed ⟨⟨fun _ => 0, none, []⟩, 7, 0, 0, false⟩ false 4)).1 = .ok 7 := rfl
  have hpoll : (((MboxOp.read16 0).impl pollWait).exec scripted
      (delayed ⟨⟨fun _ => 0, none, []⟩, 7, 0, 0, false⟩ false 4)).1 = .ok 0 := rfl
  have hvalue : (Except.ok 7 : MboxRet) = .ok 0 := hopt.symm.trans (hsame.trans hpoll)
  exact absurd (Except.ok.inj hvalue) (by decide)

end Agreement

end Gpy2xx
