import MxlUtils.Gphy.Chip
import MxlUtils.Gphy.Mbox.Access

/- Fast firmware write over MDIO: enter the download mode, write pages, leave by
   a reset. The two polling loops count down and report a timeout also when the
   last read was the one that succeeded. -/
namespace Gpy2xx
open Effect Effect.Lock Bits

/-- `PHY_PHY_STAT1` -/
def phyStat1 : Nat := 0x11

/-- `MSPI_PDI_REGISTERS_MSPI_CFG` -/
def mspiCfg : Nat := 0x00D3D440

/-- The vendor register that resets the page buffer. -/
def pageCtrl : Nat := 0x0f01

/-- `FW_EXECUTED_FROM_OTP`, in the two bits of `PHY_STAT1` that say where firmware runs. -/
def execFromOtp (stat1 : BitVec 16) : Bool := stat1 >>> 2 &&& 0x3 = 1

/-- Read `MBOX_DATA_HIGH` until `done`, at most `timeout` times. -/
def pollDataHigh (done : BitVec 16 → Bool) : (timeout : Nat) → Api Unit
  | 0 => throw EIO
  | timeout + 1 => do
    let status ← phyReadMmd .vend1 mboxDataHigh
    if timeout = 0 then throw EIO
    else if done status then pure ()
    else pollDataHigh done timeout

/-- The steps of `fw_frw_init` for firmware that runs from OTP. A configuration that reads back
different leaves through `END` with the success code of the read. -/
def enterPatchMode : Api Bool := do
  phyWriteMmd .vend1 mboxCmd 0x600
  let cfg ← phyMboxHwrd mspiCfg
  phyMboxHwwr mspiCfg (cfg &&& 0xE000 ||| 0x1006)
  let cfg ← phyMboxHwrd mspiCfg
  if cfg &&& ~~~0xE000 ≠ 0x1006 then pure false
  else
    phySetMaskBits stdCtrl ctrlPd 0
    pure true

/-- `fw_frw_init` past the read of `PHY_STAT1`, up to its `END` label. -/
def frwInitBody (stat1 : BitVec 16) (timeout : BitVec 32) : Api Unit := do
  let go ← if execFromOtp stat1 then enterPatchMode else pure true
  if !go then pure ()
  else
    phyWriteMmd .vend1 mboxCmd 0x800
    if timeout = 0 then pure ()
    else pollDataHigh (fun status => status &&& 0x8000 ≠ 0) (timeout.toNat * 2)

/-- The argument checks of `fw_frw_init`: the timeout must not overflow, and on the four-port
families the address must be the master slice's. -/
def frwInitAccepts (phy : Gpy211Device) (timeout : BitVec 32) : Bool :=
  timeout ≤ 0x7FFFFFFF ∧ ((phy.family = .p34x ∨ phy.family = .p34xLgs) → phy.phyAddr % 4 = 0)

def gpy2xxFwFrwInit (phy : Gpy211Device) (timeout : BitVec 32) : Call Unit :=
  if !frwInitAccepts phy timeout then throw EINVAL
  else lockedExit do
    match ← (phyRead phyStat1).attempt with
    | .error e => pure (.leave e)
    | .ok stat1 =>
      frwInitBody stat1 timeout
      pure (.toEnd ())

/-- The 64 pairs of half-words of a page. -/
def pageHalves (buf : Bytes 256) : List (BitVec 16 × BitVec 16) :=
  List.ofFn fun i : Fin 64 =>
    (buf ⟨4 * i, by omega⟩ ++ buf ⟨4 * i + 1, by omega⟩,
      buf ⟨4 * i + 2, by omega⟩ ++ buf ⟨4 * i + 3, by omega⟩)

def writeHalves : List (BitVec 16 × BitVec 16) → Api Unit
  | [] => pure ()
  | (data, cmd) :: hs => do
    phyWriteMmd .vend1 mboxData data
    phyWriteMmd .vend1 mboxCmd cmd
    writeHalves hs

def gpy2xxFwFwrPage (buf : Bytes 256) (timeout : BitVec 32) : Call Unit :=
  if timeout > 0xFFFFFFFF / 10 then throw EINVAL
  else locked do
    let data ← phyReadMmd .vend2 pageCtrl
    let data := data &&& 0xFFFE
    phyWriteMmd .vend2 pageCtrl data
    writeHalves (pageHalves buf)
    phyWriteMmd .vend2 pageCtrl (data ||| 1)
    if timeout = 0 then pure ()
    else pollDataHigh (fun status => status = 0x8000) (timeout.toNat * 10)

def gpy2xxFwFwrStatus : Call (BitVec 16) :=
  locked do
    let status ← phyReadMmd .vend1 mboxDataHigh
    pure (status &&& 0x8000)

def gpy2xxFwFrwUninit : Call Unit := locked (phyWrite stdCtrl ctrlRst)

end Gpy2xx
