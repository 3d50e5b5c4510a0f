import MxlUtils.Gphy.Mbox.Access

/- The mailbox hardware behind the MDIO registers. A write of the command register
   clears READY and starts an access to the 24-bit address of ADDRLO and ADDRHI;
   the access finishes after an arbitrary delay, and only then does READY show
   and do the data registers hold what was read. Any MDIO access may fail, and a
   write that fails may still have reached the register. The data registers are
   the same for both directions, so an access that the driver gave up on may
   still finish late, and a late read overwrites them. -/
namespace Gpy2xx
open Effect Bits

/-- An access of the hardware to its address space. -/
inductive Access where
  | read16 (addr : Nat)
  | write16 (addr : Nat) (val : BitVec 16)
  | read32 (addr : Nat)
  | write32 (addr : Nat) (val : BitVec 32)
  | other (cmd : BitVec 16)
deriving DecidableEq, Repr

namespace Access

/-- Memory after an access. -/
def apply (m : Mem) : Access → Mem
  | .write16 a v => m.store16 a v
  | .write32 a v => m.store32 a v
  | _ => m

/-- What an access puts in the data registers, the high one first. -/
def loads (m : Mem) (hi lo : BitVec 16) : Access → BitVec 16 × BitVec 16
  | .read16 a => (hi, m.load16 a)
  | .read32 a => ((m.load32 a >>> 16).setWidth 16, (m.load32 a).setWidth 16)
  | _ => (hi, lo)

/-- An access that will overwrite the data registers. -/
def IsRead : Access → Prop
  | .read16 _ | .read32 _ => True
  | _ => False

/-- The access a word of the command register starts. -/
def ofCmd (w hi lo addrlo : BitVec 16) : Access :=
  let cmd := mboxCmdCmd.get (w.setWidth 32)
  let addr := ((w.setWidth 8 : BitVec 8) ++ addrlo).toNat
  if cmd = MboxCmd.code .read then .read16 addr
  else if cmd = MboxCmd.code .write then .write16 addr lo
  else if cmd = MboxCmd.code .read32 then .read32 addr
  else if cmd = MboxCmd.code .write32 then .write32 addr (hi ++ lo)
  else .other w

end Access

/-- The side of the mailbox that the registers do not show. -/
structure MboxCore where
  mem : Mem
  /-- an access that was started and has not finished -/
  pending : Option Access
  /-- the finished accesses, in order -/
  performed : List Access

namespace MboxCore

/-- The access in flight finishes. -/
def finish (c : MboxCore) : MboxCore :=
  match c.pending with
  | none => c
  | some acc => ⟨acc.apply c.mem, none, c.performed ++ [acc]⟩

def start (acc : Access) (c : MboxCore) : MboxCore := { c with pending := some acc }

/-- A read is in flight. -/
def ReadPending (c : MboxCore) : Prop := ∃ acc, c.pending = some acc ∧ acc.IsRead

end MboxCore

/-- The mailbox and its registers. -/
structure MboxState where
  core : MboxCore
  data : BitVec 16
  dataHigh : BitVec 16
  addrlo : BitVec 16
  ready : Bool

namespace MboxState

/-- The access in flight finishes: READY shows, and a read fills the data registers. -/
def finish (s : MboxState) : MboxState :=
  match s.core.pending with
  | none => s
  | some acc =>
    { s with
      core := s.core.finish
      data := (acc.loads s.core.mem s.dataHigh s.data).2
      dataHigh := (acc.loads s.core.mem s.dataHigh s.data).1
      ready := true }

/-- What happens between two MDIO accesses: the access in flight may finish. -/
def settle (s : MboxState) (late : Bool) : MboxState := if late then s.finish else s

/-- An MDIO write that reaches the register. A new command replaces one in flight. -/
def write (s : MboxState) (reg : Nat) (v : BitVec 16) : MboxState :=
  if reg = mboxData then { s with data := v }
  else if reg = mboxDataHigh then { s with dataHigh := v }
  else if reg = mboxAddrlo then { s with addrlo := v }
  else if reg = mboxCmd then
    { s with core := s.core.start (.ofCmd v s.dataHigh s.data s.addrlo), ready := false }
  else s

/-- What an MDIO read may answer. The data registers hold anything while an access is in flight. -/
def Shows (s : MboxState) (reg : Nat) (w : BitVec 16) : Prop :=
  (reg = mboxCmd → (Ready w ↔ s.ready)) ∧
  (s.core.pending = none → (reg = mboxData → w = s.data) ∧ (reg = mboxDataHigh → w = s.dataHigh))

/-- One MDIO access. -/
def access (s : MboxState) (e : Event regSig) (s' : MboxState) : Prop :=
  match e with
  | ⟨.mmdWrite .vend1 reg v, .ok _⟩ => s' = s.write reg v
  | ⟨.mmdWrite .vend1 reg v, .error _⟩ => s' = s ∨ s' = s.write reg v
  | ⟨.mmdRead .vend1 reg, .ok w⟩ => s' = s ∧ s.Shows reg w
  | _ => s' = s

end MboxState

/-- The mailbox as the driver meets it. -/
def mboxDev : Dev regSig MboxState := fun s e s' => ∃ late, (s.settle late).access e s'

/-! ## A device with a script -/

/-- What the device does around one MDIO access: whether the access in flight finishes before it, and
whether it fails, without reaching the register. -/
structure Moment where
  late : Bool
  fault : Bool

/-- The device does nothing for `n` accesses; after its script it finishes at once. -/
def delay (n : Nat) : List Moment := List.replicate n ⟨false, false⟩

/-- What a register shows. -/
def MboxState.shown (s : MboxState) (reg : Nat) : BitVec 16 :=
  if reg = mboxCmd then (if s.ready then mboxCmdReadyMask else 0)
  else if reg = mboxData then s.data
  else if reg = mboxDataHigh then s.dataHigh
  else 0

/-- The mailbox bit of the interrupt status is raised exactly when READY shows. -/
def phyIstatMboxMask : BitVec 16 := 0x200

/-- A mailbox, the rest of its script, and whether a data register was read too early. -/
structure Scripted where
  mbox : MboxState
  script : List Moment
  /-- a data register was read while an access was in flight -/
  early : Bool

/-- The mailbox, following a script. -/
def scripted : Handler regSig Scripted := fun o p =>
  let now := p.script.headD ⟨true, false⟩
  let m := p.mbox.settle now.late
  match o with
  | .mmdWrite .vend1 reg v =>
    if now.fault then (.error errRet, ⟨m, p.script.tail, p.early⟩)
    else (.ok (), ⟨m.write reg v, p.script.tail, p.early⟩)
  | .mmdRead .vend1 reg =>
    let early := (reg = mboxData ∨ reg = mboxDataHigh) ∧ m.core.pending ≠ none
    if now.fault then (.error errRet, ⟨m, p.script.tail, p.early⟩)
    else (.ok (m.shown reg), ⟨m, p.script.tail, p.early || early⟩)
  | .phyRead reg =>
    (.ok (if reg = phyIstat ∧ m.ready then phyIstatMboxMask else 0), ⟨m, p.script.tail, p.early⟩)
  | o => (okAnswer o, ⟨m, p.script.tail, p.early⟩)

theorem MboxState.shows_shown (s : MboxState) (reg : Nat) : s.Shows reg (s.shown reg) := by
  refine ⟨fun hreg => ?_, fun _ => ⟨fun hreg => ?_, fun hreg => ?_⟩⟩
  · rw [hreg]
    cases h : s.ready with
    | false => simp [shown, h, Ready]
    | true => simp [shown, h, Ready, mboxCmdReadyMask]
  · rw [hreg]
    rfl
  · rw [hreg]
    rfl

/-- The scripted device does what the mailbox may do. -/
theorem mboxDev_of_scripted (p : Scripted) (e : Event regSig) (p' : Scripted)
    (h : scripted.dev p e p') : mboxDev p.mbox e p'.mbox := by
  obtain ⟨o, r⟩ := e
  refine ⟨(p.script.headD ⟨true, false⟩).late, ?_⟩
  have hstep : scripted o p = (r, p') := h
  cases o with
  | mmdWrite d reg v =>
    cases d with
    | vend1 =>
      simp only [scripted] at hstep
      split at hstep
      · cases hstep
        exact .inl rfl
      · cases hstep
        rfl
    | _ =>
      cases hstep
      rfl
  | mmdRead d reg =>
    cases d with
    | vend1 =>
      simp only [scripted] at hstep
      split at hstep
      · cases hstep
        rfl
      · cases hstep
        exact ⟨rfl, MboxState.shows_shown _ reg⟩
    | _ =>
      cases hstep
      rfl
  | _ =>
    cases hstep
    rfl

/-- A run under a script is a run against the mailbox. -/
theorem exists_path_scripted {α : Type} (x : Api α) (p : Scripted) :
    ∃ t, x.Runs t (x.exec scripted p).1 ∧ mboxDev.Path p.mbox t (x.exec scripted p).2.mbox := by
  have hexec : x.exec scripted p = ((x.exec scripted p).1, (x.exec scripted p).2) := rfl
  obtain ⟨t, hrun, hpath⟩ := (Fallible.exec_eq_iff).mp hexec
  exact ⟨t, hrun, Dev.path_map Scripted.mbox mboxDev_of_scripted hpath⟩

/-! ## The command word -/

section CmdWord
variable (regaddr : BitVec 32) (cmd : MboxCmd)

/-- The register has every bit of the command field. -/
theorem mboxCmdCmd_get_setWidth (x : BitVec 32) :
    mboxCmdCmd.get ((x.setWidth 16).setWidth 32) = mboxCmdCmd.get x := by
  have hmask : ∀ i < 32, 16 ≤ i → (0xF00 : BitVec 32).getLsbD i = false := by decide
  have hand : (x.setWidth 16).setWidth 32 &&& (0xF00 : BitVec 32) = x &&& (0xF00 : BitVec 32) := by
    apply BitVec.eq_of_getLsbD_eq
    intro i hi
    rw [BitVec.getLsbD_and, BitVec.getLsbD_and, BitVec.getLsbD_setWidth, BitVec.getLsbD_setWidth]
    by_cases hlt : i < 16
    · simp [hlt, hi]
    · rw [hmask i hi (Nat.le_of_not_lt hlt), Bool.and_false, Bool.and_false]
  exact congrArg (fun v : BitVec 32 => v >>> 8) hand

theorem mboxCmdWord_cmd : mboxCmdCmd.get ((mboxCmdWord regaddr cmd).setWidth 32) = cmd.code := by
  have hspan : mboxCmdCmd.Spans 4 := by decide
  have hcode : cmd.code.toNat < 2 ^ 4 := by cases cmd <;> decide
  rw [mboxCmdWord, mboxCmdCmd_get_setWidth, Field.get_replace hspan hcode]

theorem mboxCmdWord_addrhi :
    ((mboxCmdWord regaddr cmd).setWidth 8 : BitVec 8) = (regaddr >>> 16).setWidth 8 := by
  have hcmd : ∀ i < 8, (0xF00 : BitVec 32).getLsbD i = false := by decide
  have hhi : ∀ i < 8, (0xFF : BitVec 32).getLsbD i = true := by decide
  apply BitVec.eq_of_getLsbD_eq
  intro i hi
  have h16 : i < 16 := by omega
  have h32 : i < 32 := by omega
  simp only [mboxCmdWord, Field.replace, Field.set, mboxCmdCmd, mboxCmdAddrhi,
    BitVec.getLsbD_setWidth, BitVec.getLsbD_or, BitVec.getLsbD_and, BitVec.getLsbD_not,
    BitVec.getLsbD_shiftLeft, hcmd i hi, hhi i hi, hi, h16, h32]
  simp

/-- The command word and ADDRLO hold a 24-bit address. -/
theorem mboxCmdWord_addr (h : regaddr.toNat < 2 ^ 24) :
    (((mboxCmdWord regaddr cmd).setWidth 8 : BitVec 8) ++ (regaddr.setWidth 16 : BitVec 16)).toNat =
      regaddr.toNat := by
  rw [mboxCmdWord_addrhi, BitVec.toNat_append, BitVec.toNat_setWidth, BitVec.toNat_setWidth,
    BitVec.toNat_ushiftRight, Nat.shiftRight_eq_div_pow]
  have hhi : regaddr.toNat / 2 ^ 16 % 2 ^ 8 = regaddr.toNat / 2 ^ 16 :=
    Nat.mod_eq_of_lt (by omega)
  have hlo : regaddr.toNat % 2 ^ 16 < 2 ^ 16 := Nat.mod_lt _ (by decide)
  rw [hhi, ← Nat.shiftLeft_add_eq_or_of_lt hlo, Nat.shiftLeft_eq]
  omega

end CmdWord

end Gpy2xx
