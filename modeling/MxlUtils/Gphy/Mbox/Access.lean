import MxlUtils.Gphy.Device
import MxlUtils.Lib.Wp

/- The mailbox functions `gpy2xx_mbox_*`, over the MDIO registers of VSPEC1: data
   registers, address and command are written, the command's completion is waited
   for, and on a read the data registers are read. The four functions differ in
   the command and in the data registers. The wait is a parameter: the polling
   build waits for READY in the command register, the `P31G_OPT_SPEED` build for
   the mailbox interrupt. -/
namespace Gpy2xx
open Effect Bits

/-! ## Registers

Register numbers are the offsets of the header halved, as `PHY_READ_MMD` does. -/

/-- `VSPEC1_MBOX_DATA` -/
def mboxData : Nat := 0xA / 2
/-- `VSPEC1_MBOX_ADDRLO` -/
def mboxAddrlo : Nat := 0xC / 2
/-- `VSPEC1_MBOX_CMD` -/
def mboxCmd : Nat := 0xE / 2
/-- `VSPEC1_MBOX_DATA_HIGH` -/
def mboxDataHigh : Nat := 0x1A / 2
/-- `PHY_PHY_ISTAT` -/
def phyIstat : Nat := 0x34 / 2

def mboxCmdAddrhi : Field 32 := ⟨0xFF, 0⟩
def mboxCmdCmd : Field 32 := ⟨0xF00, 8⟩
/-- `VSPEC1_MBOX_CMD_READY_MASK` -/
def mboxCmdReadyMask : BitVec 16 := 0x8000

/-- The command register shows READY. -/
def Ready (w : BitVec 16) : Prop := w &&& mboxCmdReadyMask ≠ 0

instance (w : BitVec 16) : Decidable (Ready w) := inferInstanceAs (Decidable (_ ≠ _))

/-- The commands `CONST_VSPEC1_MBOX_CMD_CMD_*` of the register accesses. -/
inductive MboxCmd where
  | read
  | write
  | read32
  | write32
deriving DecidableEq, Repr

def MboxCmd.code : MboxCmd → BitVec 32
  | .read => 0
  | .write => 1
  | .read32 => 4
  | .write32 => 5

/-! ## The functions -/

/-- `MAX_BUSY_RETRY` -/
def maxBusyRetry : Nat := 100

/-- `__is_mbox_busy`: a failed read stops the wait; READY in the last poll still counts. -/
def isMboxBusy : Api Unit := poll maxBusyRetry
where
  poll : Nat → Api Unit
    | 0 => throw errRet
    | busyRetry + 1 => do
      let value ← phyReadMmd .vend1 mboxCmd
      if Ready value then pure () else poll busyRetry

/-- The wait of the polling build: `if (__is_mbox_busy(..) < 0) return -1`. -/
def pollWait : Api Unit := do
  match ← isMboxBusy.attempt with
  | .ok _ => pure ()
  | .error _ => throw errRet

/-- `_mbox_cmd`, as it is written to the 16-bit register. -/
def mboxCmdWord (regaddr : BitVec 32) (cmd : MboxCmd) : BitVec 16 :=
  (mboxCmdCmd.replace (mboxCmdAddrhi.replace 0 (regaddr >>> 16)) cmd.code).setWidth 16

/-- Address and command. -/
def mboxStart (regaddr : BitVec 32) (cmd : MboxCmd) : Api Unit := do
  phyWriteMmd .vend1 mboxAddrlo (regaddr.setWidth 16)
  phyWriteMmd .vend1 mboxCmd (mboxCmdWord regaddr cmd)

section Wait
variable (wait : Api Unit)

def mboxRead16 (regaddr : BitVec 32) : Api (BitVec 32) := do
  mboxStart regaddr .read
  wait
  let dataLow ← phyReadMmd .vend1 mboxData
  pure (dataLow.setWidth 32)

def mboxWrite16 (regaddr data : BitVec 32) : Api Unit := do
  phyWriteMmd .vend1 mboxData (data.setWidth 16)
  mboxStart regaddr .write
  wait

def mboxRead32 (regaddr : BitVec 32) : Api (BitVec 32) := do
  mboxStart regaddr .read32
  wait
  let dataLow ← phyReadMmd .vend1 mboxData
  let dataHigh ← phyReadMmd .vend1 mboxDataHigh
  pure (dataHigh ++ dataLow)

def mboxWrite32 (regaddr data : BitVec 32) : Api Unit := do
  phyWriteMmd .vend1 mboxData (data.setWidth 16)
  phyWriteMmd .vend1 mboxDataHigh ((data >>> 16).setWidth 16)
  mboxStart regaddr .write32
  wait

end Wait

def gpy2xxMboxRead16 : BitVec 32 → Api (BitVec 32) := mboxRead16 pollWait

def gpy2xxMboxWrite16 : BitVec 32 → BitVec 32 → Api Unit := mboxWrite16 pollWait

def gpy2xxMboxRead32 : BitVec 32 → Api (BitVec 32) := mboxRead32 pollWait

def gpy2xxMboxWrite32 : BitVec 32 → BitVec 32 → Api Unit := mboxWrite32 pollWait

/-! ## The four functions as operations -/

/-- A call of one of the mailbox functions. -/
inductive MboxOp where
  | read16 (regaddr : BitVec 32)
  | write16 (regaddr data : BitVec 32)
  | read32 (regaddr : BitVec 32)
  | write32 (regaddr data : BitVec 32)
deriving DecidableEq, Repr

/-- What a call returns: the data of a read, 0 for a write. -/
abbrev MboxRet := Except Errno (BitVec 32)

def MboxOp.regaddr : MboxOp → BitVec 32
  | .read16 a | .write16 a _ | .read32 a | .write32 a _ => a

def MboxOp.cmd : MboxOp → MboxCmd
  | .read16 _ => .read
  | .write16 _ _ => .write
  | .read32 _ => .read32
  | .write32 _ _ => .write32

/-- The function a call runs, given the wait of the build. -/
def MboxOp.impl (wait : Api Unit) : MboxOp → Api (BitVec 32)
  | .read16 a => mboxRead16 wait a
  | .write16 a v => do mboxWrite16 wait a v; pure 0
  | .read32 a => mboxRead32 wait a
  | .write32 a v => do mboxWrite32 wait a v; pure 0

/-- The data registers a call writes first. -/
def MboxOp.out : MboxOp → List (Nat × BitVec 16)
  | .write16 _ v => [(mboxData, v.setWidth 16)]
  | .write32 _ v => [(mboxData, v.setWidth 16), (mboxDataHigh, (v >>> 16).setWidth 16)]
  | _ => []

end Gpy2xx
