import MxlUtils.Gphy.Chip

/- Enabling the PTP block and reading its configuration back. Most accesses go
   through the slave MDIO. `gpy2xx_ptp_enable` and `gpy2xx_ptp_getcfg` call
   functions that take the lock, public ones and static ones, while they hold it
   themselves. -/
namespace Gpy2xx
open Effect Effect.Lock Bits

/-! ## Registers -/

/-- Offsets from `gmacf_base_addr`, `GMACF_MAC_*`. -/
def timestampControlL : Nat := 0x1600
def timestampControlH : Nat := 0x1604
def subSecondIncrementL : Nat := 0x1608
def subSecondIncrementH : Nat := 0x160C
def timestampAddendL : Nat := 0x1630
def timestampAddendH : Nat := 0x1634

/-- `GMACF_MAC_TIMESTAMP_CONTROL_L_TSADDREG_POS` -/
def tsaddregPos : Nat := 5

/-- `foc_updt`, fine or coarse update -/
def focUpdtPos : Nat := 1

/-- Offsets from `pm_base_addr`, `PM_PDI_*`. -/
def pmGmacCfg : Nat := 0x4
def pmGmaclCfg : Nat := 0x8
def pmTsCfg : Nat := 0x58
def pmGmacPtpCfg : Nat := 0x60
def pmTxOstCfg : Nat := 0xB8

/-- `PM_PDI_GMAC_CFG_GMAC_PTP_DET_POS` and the same bit of `PM_PDI_GMACL_CFG`. -/
def ptpDetPos : Nat := 5

/-- `XGMAC_MAC_TIMESTAMP_CONTROL_L` or `GMACL_MAC_TIMESTAMP_CONTROL_L` -/
def liteTimestampControlL (family : Family) : Nat := if family = .p34x then 0x1A00 else 0x1600

/-! ## Waiting for a register -/

/-- An `int` result as the `u32` the busy test looks at: a failed read shows the bits of its code. -/
def returnedWord : Except Errno (BitVec 16) → BitVec 32
  | .ok v => v.setWidth 32
  | .error e => .ofInt 32 e.code

/-- The busy loop with `busyRetry` reads left: the last value of the bit and the reads left then. -/
def pollBusy (reg bit : Nat) : (busyRetry : Nat) → Api (Bool × Nat)
  | 0 => pure (true, 0)
  | busyRetry + 1 => do
    let ret ← (smdioReadAt reg).attempt
    if (returnedWord ret).getLsbD bit then pollBusy reg bit busyRetry
    else pure (false, busyRetry + 1)

/-- `__is_rw_done`, with `MAX_RW_RETRY` -/
def isRwDone (reg bit : Nat) : Api Unit := do
  let (value, busyRetry) ← pollBusy reg bit 100
  if !value && busyRetry == 0 then throw errRet else pure ()

/-- The wait makes no other access than reads of its register. -/
theorem all_isRwDone {P : RegOp → Prop} {reg bit : Nat} (hread : P (.smdioRead (smdioReg reg))) :
    (isRwDone reg bit).All P := by
  have hpoll : ∀ n, (pollBusy reg bit n).All P := by
    intro n
    induction n with
    | zero => exact Fallible.All.pure _
    | succ n ih =>
      refine Fallible.All.bind (Fallible.All.attempt ⟨hread, fun _ => trivial⟩) fun _ => ?_
      exact Fallible.All.ite (fun _ => ih) fun _ => Fallible.All.pure _
  exact Fallible.All.bind (hpoll 100) fun _ =>
    Fallible.All.ite (fun _ => Fallible.All.throw _) fun _ => Fallible.All.pure _

/-! ## Clock and correction -/

/-- `_gpy2xx_ptp_set_osctime`: the four half-words of the correction. -/
def ptpSetOsctime (phy : Gpy211Device) (ostCtime : BitVec 64) : Api Unit := do
  smdioWriteAt (phy.pmBaseAddr + pmTxOstCfg) (ostCtime.extractLsb' 0 16)
  smdioWriteAt (phy.pmBaseAddr + pmTxOstCfg + 4) (ostCtime.extractLsb' 16 16)
  smdioWriteAt (phy.pmBaseAddr + pmTxOstCfg + 8) (ostCtime.extractLsb' 32 16)
  smdioWriteAt (phy.pmBaseAddr + pmTxOstCfg + 12) (ostCtime.extractLsb' 48 16)

/-- `_gpy2xx_ptp_get_osctime` -/
def ptpGetOsctime (phy : Gpy211Device) : Api (BitVec 64) := do
  let w₀ ← smdioReadAt (phy.pmBaseAddr + pmTxOstCfg)
  let w₁ ← smdioReadAt (phy.pmBaseAddr + pmTxOstCfg + 4)
  let w₂ ← smdioReadAt (phy.pmBaseAddr + pmTxOstCfg + 8)
  let w₃ ← smdioReadAt (phy.pmBaseAddr + pmTxOstCfg + 12)
  pure (w₃ ++ w₂ ++ w₁ ++ w₀)

/-- Whole nanoseconds of one cycle of the PTP clock, as a byte. -/
def subSec (ptpClock : BitVec 32) : BitVec 8 := .ofNat 8 (1000000000 / ptpClock.toNat)

/-- The rest of a cycle, rounded up to a thousandth of a nanosecond, in 256ths. -/
def subNsec (ptpClock : BitVec 32) : BitVec 8 :=
  .ofNat 8 ((1000000000 % ptpClock.toNat * 1000 / ptpClock.toNat + 1) * 256 / 1000)

/-- `_gpy2xx_ptp_set_ssecinc` -/
def ptpSetSsecinc (phy : Gpy211Device) : Api Unit :=
  if phy.ptpClock = 0 then throw errRet
  else do
    smdioWriteAt (phy.gmacfBaseAddr + subSecondIncrementH) ((subSec phy.ptpClock).setWidth 16)
    smdioWriteAt (phy.gmacfBaseAddr + subSecondIncrementL) ((subNsec phy.ptpClock).setWidth 16 <<< 8)

/-- `2^32` times the update frequency, half the clock, over the clock. -/
def defaultAddend (ptpClock : BitVec 32) : BitVec 32 :=
  .ofNat 32 (2 ^ 32 * (ptpClock.toNat / 2) / ptpClock.toNat)

/-- The part of `_gpy2xx_ptp_set_addend` after its checks. -/
def writeAddend (phy : Gpy211Device) (addend : BitVec 32) : Api Unit := do
  isRwDone (phy.gmacfBaseAddr + timestampControlL) tsaddregPos
  smdioWriteAt (phy.gmacfBaseAddr + timestampAddendL) (addend.extractLsb' 0 16)
  smdioWriteAt (phy.gmacfBaseAddr + timestampAddendH) (addend.extractLsb' 16 16)
  smdioSetBit (phy.gmacfBaseAddr + timestampControlL) tsaddregPos
  isRwDone (phy.gmacfBaseAddr + timestampControlL) tsaddregPos

/-- `_gpy2xx_ptp_set_addend`: with coarse updates or no addend it returns the value it read, which
is no error. -/
def ptpSetAddend (phy : Gpy211Device) (addend : BitVec 32) : Api Unit := do
  let tscLow ← smdioReadAt (phy.gmacfBaseAddr + timestampControlL)
  if !tscLow.getLsbD focUpdtPos || addend == 0 then pure ()
  else writeAddend phy addend

/-! ## Timestamp control -/

/-- `struct gpy2xx_ts_ctrl` -/
structure TsCtrl where
  tsEvtmsgEn : BitVec 1
  tsMasterEn : BitVec 1
  snapType : BitVec 2

def gpy2xxPtpSetTsctrl (phy : Gpy211Device) (tsCfg : TsCtrl) : Call Unit :=
  locked do
    let low ← smdioReadAt (phy.gmacfBaseAddr + timestampControlL)
    smdioWriteAt (phy.gmacfBaseAddr + timestampControlL) (replaceFields low [
      (⟨0x4000, 14⟩, tsCfg.tsEvtmsgEn.setWidth 16), (⟨0x8000, 15⟩, tsCfg.tsMasterEn.setWidth 16)])
    let high ← smdioReadAt (phy.gmacfBaseAddr + timestampControlH)
    smdioWriteAt (phy.gmacfBaseAddr + timestampControlH) (replaceFields high [
      (⟨0x3, 0⟩, tsCfg.snapType.setWidth 16), (⟨0x100, 8⟩, 1)])

/-- `_gpy2xx_ptp_get_tsctrl`, a static function that takes the lock. -/
def ptpGetTsctrl (phy : Gpy211Device) : Call TsCtrl :=
  locked do
    let low ← smdioReadAt (phy.gmacfBaseAddr + timestampControlL)
    let high ← smdioReadAt (phy.gmacfBaseAddr + timestampControlH)
    pure ⟨low.extractLsb' 14 1, low.extractLsb' 15 1, high.extractLsb' 0 2⟩

/-! ## PPS and PTO -/

/-- `struct gpy2xx_pps_ctrl`, but for the pin the getter does not set; the control word is raw. -/
structure PpsCtrl where
  ppsctrlLow : BitVec 16
  nsecTgttime : BitVec 32
  secTgttime : BitVec 32
  pps0Interal : BitVec 32
  pps0Width : BitVec 32

/-- Units of the clock, one less than counted, in nanoseconds; the sum is taken in 32 bits. -/
def unitsToNanosec (ptpClock units : BitVec 32) : BitVec 32 :=
  .ofNat 32 ((units + 1).toNat * 1000000000 / ptpClock.toNat)

def gpy2xxPtpGetPpsctrl (phy : Gpy211Device) : Call PpsCtrl :=
  locked do
    let ppsctrlLow ← smdioReadAt (phy.gmacfBaseAddr + 0x16E0)
    let secTtLow ← smdioReadAt (phy.gmacfBaseAddr + 0x1700)
    let secTtHi ← smdioReadAt (phy.gmacfBaseAddr + 0x1704)
    let nsecTtLow ← smdioReadAt (phy.gmacfBaseAddr + 0x1708)
    let nsecTtHi ← smdioReadAt (phy.gmacfBaseAddr + 0x170C)
    let unitsIntLow ← smdioReadAt (phy.gmacfBaseAddr + 0x1710)
    let unitsIntHi ← smdioReadAt (phy.gmacfBaseAddr + 0x1714)
    let unitsWidLow ← smdioReadAt (phy.gmacfBaseAddr + 0x1718)
    let unitsWidHi ← smdioReadAt (phy.gmacfBaseAddr + 0x171C)
    pure {
      ppsctrlLow := ppsctrlLow
      nsecTgttime := nsecTtHi ++ nsecTtLow
      secTgttime := secTtHi ++ secTtLow
      pps0Interal := unitsToNanosec phy.ptpClock (unitsIntHi ++ unitsIntLow)
      pps0Width := unitsToNanosec phy.ptpClock (unitsWidHi ++ unitsWidLow) }

/-- `struct gpy2xx_pto_ctrl`, its words raw. -/
structure PtoCtrl where
  ptoctrlLow : BitVec 16
  sportId : List (BitVec 16)
  logmLvlLow : BitVec 16
  logmLvlHi : BitVec 16

/-- `_gpy2xx_ptp_get_ptoctrl`, a static function that takes the lock. Negating a negative interval
twice leaves it as it is. -/
def ptpGetPtoctrl (phy : Gpy211Device) : Call PtoCtrl :=
  locked do
    let ptoctrlLow ← smdioReadAt (phy.gmacfBaseAddr + 0x1780)
    let sportId ← (List.range 5).mapM fun i => smdioReadAt (phy.gmacfBaseAddr + 0x1788 + i * 4)
    let logmLvlLow ← smdioReadAt (phy.gmacfBaseAddr + 0x17A0)
    let logmLvlHi ← smdioReadAt (phy.gmacfBaseAddr + 0x17A4)
    pure ⟨ptoctrlLow, sportId, logmLvlLow, logmLvlHi⟩

/-- `struct gpy2xx_pto_ctrl` as a caller fills it in, its control word raw. The intervals are signed. -/
structure PtoConfig where
  ptoctrlLow : BitVec 16
  sportId : Vector (BitVec 8) 10
  logSyncInterval : BitVec 8
  drToSyncRatio : BitVec 3
  reserved : BitVec 5
  reserved2 : BitVec 8
  logMinPdrInterval : BitVec 8

/-- `PTP_LOG_SYNC_INTVL_MIN` to `PTP_LOG_SYNC_INTVL_MAX`; those of the other interval are the same. -/
def logIntervalInRange (interval : BitVec 8) : Bool :=
  !(decide (interval.toInt < -15) || decide (interval.toInt > 15))

/-- The ratio is at most `PTP_DR_TO_SYNC_RATIO_MAX`. -/
def ptoAccepts (ptoCtrl : PtoConfig) : Bool :=
  logIntervalInRange ptoCtrl.logSyncInterval && !decide (ptoCtrl.drToSyncRatio.toNat > 5) &&
    logIntervalInRange ptoCtrl.logMinPdrInterval

/-- `(~(-interval)) + 1`, where the interval is negative. -/
def twosComplement (interval : BitVec 8) : BitVec 8 :=
  if interval.toInt < 0 then ~~~(-interval) + 1 else interval

/-- A half-word of the identity: its bytes are copied, and the first is the low one. -/
def sportHalfword (sportId : Vector (BitVec 8) 10) (i : Fin 5) : BitVec 16 :=
  sportId[2 * i.val + 1] ++ sportId[2 * i.val]

def PtoConfig.rawLogmLvlLow (ptoCtrl : PtoConfig) : BitVec 16 :=
  ptoCtrl.reserved ++ ptoCtrl.drToSyncRatio ++ twosComplement ptoCtrl.logSyncInterval

def PtoConfig.rawLogmLvlHi (ptoCtrl : PtoConfig) : BitVec 16 :=
  twosComplement ptoCtrl.logMinPdrInterval ++ ptoCtrl.reserved2

def gpy2xxPtpSetPtoctrl (phy : Gpy211Device) (ptoCtrl : PtoConfig) : Call Unit :=
  if !ptoAccepts ptoCtrl then throw EINVAL
  else locked do
    smdioWriteAt (phy.gmacfBaseAddr + 0x1780) ptoCtrl.ptoctrlLow
    (List.finRange 5).forM fun i =>
      smdioWriteAt (phy.gmacfBaseAddr + 0x1788 + i * 4) (sportHalfword ptoCtrl.sportId i)
    smdioWriteAt (phy.gmacfBaseAddr + 0x17A0) ptoCtrl.rawLogmLvlLow
    smdioWriteAt (phy.gmacfBaseAddr + 0x17A4) ptoCtrl.rawLogmLvlHi

/-! ## Shared buffers -/

/-- `struct bm_cfg` -/
structure BmCfg where
  sb0Start : BitVec 16
  sb0End : BitVec 16
  sb0PktThresh : BitVec 16
  sb1Start : BitVec 16
  sb1End : BitVec 16
  sb1PktThresh : BitVec 16

def gpy2xxGmacxBmCfg (phy : Gpy211Device) (bmcfg : BmCfg) : Call Unit :=
  locked do
    phyMboxHwwr (phy.pmBaseAddr + 0xEC) bmcfg.sb0Start
    phyMboxHwwr (phy.pmBaseAddr + 0xF4) bmcfg.sb0End
    phyMboxHwwr (phy.pmBaseAddr + 0x11C) bmcfg.sb0PktThresh
    phyMboxHwwr (phy.pmBaseAddr + 0xF0) bmcfg.sb1Start
    phyMboxHwwr (phy.pmBaseAddr + 0xF8) bmcfg.sb1End
    phyMboxHwwr (phy.pmBaseAddr + 0x120) bmcfg.sb1PktThresh

def gpy2xxGmacxBmGet (phy : Gpy211Device) : Call BmCfg :=
  locked do
    let sb0Start ← phyMboxHwrd (phy.pmBaseAddr + 0xEC)
    let sb0End ← phyMboxHwrd (phy.pmBaseAddr + 0xF4)
    let sb0PktThresh ← phyMboxHwrd (phy.pmBaseAddr + 0x11C)
    let sb1Start ← phyMboxHwrd (phy.pmBaseAddr + 0xF0)
    let sb1End ← phyMboxHwrd (phy.pmBaseAddr + 0xF8)
    let sb1PktThresh ← phyMboxHwrd (phy.pmBaseAddr + 0x120)
    pure ⟨sb0Start, sb0End, sb0PktThresh, sb1Start, sb1End, sb1PktThresh⟩

/-! ## Enabling and reading back -/

/-- `struct gpy211_ptp_ctrl` -/
structure PtpCtrl where
  txTsPhy : BitVec 1
  rxTsPhy : BitVec 1
  txPtpOff : BitVec 14
  txPtpTpt : BitVec 2
  tsOstcEn : BitVec 1
  txOstCorr : BitVec 64

/-- Detection of PTP packets: both bits are set before either result is looked at. -/
def enablePtpDetection (phy : Gpy211Device) : Api Unit := do
  let ret ← (smdioSetBit (phy.pmBaseAddr + pmGmacCfg) ptpDetPos).attempt
  let ret2 ← (smdioSetBit (phy.pmBaseAddr + pmGmaclCfg) ptpDetPos).attempt
  .ofExcept (ret2.bind fun _ => ret)

/-- The timestamp configuration word; its reserved bits are what the stack held. -/
def tsCfgWord (stack : BitVec 16) (ptpCfg : PtpCtrl) : BitVec 16 :=
  replaceFields stack [
    (⟨0x1, 0⟩, 1), (⟨0x4, 2⟩, 1), (⟨0x10, 4⟩, 1), (⟨0x20, 5⟩, 1), (⟨0x40, 6⟩, 1), (⟨0x80, 7⟩, 1),
    (⟨0x2, 1⟩, ptpCfg.tsOstcEn.setWidth 16), (⟨0x100, 8⟩, ptpCfg.txTsPhy.setWidth 16),
    (⟨0x200, 9⟩, ptpCfg.rxTsPhy.setWidth 16)]

/-- One-step mode has a correction. -/
def setCorrection (phy : Gpy211Device) (ptpCfg : PtpCtrl) : Api Unit :=
  if ptpCfg.tsOstcEn = 1 then ptpSetOsctime phy ptpCfg.txOstCorr else pure ()

/-- What `gpy2xx_ptp_enable` does up to `_gpy2xx_ptp_set_ssecinc`. -/
def enableTimestamps (phy : Gpy211Device) (stack : BitVec 16) (ptpCfg : PtpCtrl) : Api Unit := do
  enablePtpDetection phy
  smdioWriteAt (phy.pmBaseAddr + pmTsCfg) (tsCfgWord stack ptpCfg)
  smdioWriteAt (phy.pmBaseAddr + pmGmacPtpCfg) (ptpCfg.txPtpTpt ++ ptpCfg.txPtpOff)
  setCorrection phy ptpCfg
  smdioWriteAt (phy.gmacfBaseAddr + timestampControlL) 0x3E03
  smdioWriteAt (phy.gmaclBaseAddr + liteTimestampControlL phy.family) 0x3C01
  ptpSetSsecinc phy

/-- What `gpy2xx_ptp_enable` does before its first public call. -/
def startPtp (phy : Gpy211Device) (stack : BitVec 16) (ptpCfg : PtpCtrl) : Api Unit := do
  enableTimestamps phy stack ptpCfg
  ptpSetAddend phy (defaultAddend phy.ptpClock)

/-- From the first public call on. -/
def configureTimestamps (phy : Gpy211Device) : Call Unit := do
  gpy2xxPtpSetTsctrl phy ⟨0, 0, 1⟩
  let bmCfg ← gpy2xxGmacxBmGet phy
  gpy2xxGmacxBmCfg phy { bmCfg with sb0PktThresh := 0x100, sb1PktThresh := 0x100 }

/-- The one-step method needs a known transport; a two-bit field above 0 is one. -/
def ptpEnableAccepts (ptpCfg : PtpCtrl) : Bool := ptpCfg.tsOstcEn == 0 || ptpCfg.txPtpTpt != 0

def gpy2xxPtpEnable (phy : Gpy211Device) (stack : BitVec 16) (ptpCfg : PtpCtrl) : Call Unit :=
  if !ptpEnableAccepts ptpCfg then throw EINVAL
  else bracket (outside (startPtp phy stack ptpCfg) >>= fun _ => configureTimestamps phy)

/-- `struct gpy211_ptp_cfg`; the correction is read in one-step mode only. -/
structure PtpCfg where
  txTsPhy : BitVec 1
  rxTsPhy : BitVec 1
  txPtpOff : BitVec 14
  txPtpTpt : BitVec 2
  tsOstcEn : BitVec 1
  txOstCorr : Option (BitVec 64)
  tsCtrl : TsCtrl
  ppsCtrl : PpsCtrl
  ptoCtrl : PtoCtrl

/-- What `gpy2xx_ptp_getcfg` reads before it calls the getters. -/
def readPtpCtrl (phy : Gpy211Device) : Api (BitVec 16 × BitVec 16 × Option (BitVec 64)) := do
  let rawPtpCfg ← smdioReadAt (phy.pmBaseAddr + pmGmacPtpCfg)
  let rawTsCfg ← smdioReadAt (phy.pmBaseAddr + pmTsCfg)
  if rawTsCfg.getLsbD 1 then do
    let txOstCorr ← ptpGetOsctime phy
    pure (rawPtpCfg, rawTsCfg, some txOstCorr)
  else pure (rawPtpCfg, rawTsCfg, none)

/-- The getters, each of which takes the lock. -/
def readPtpBlocks (phy : Gpy211Device) (raw : BitVec 16 × BitVec 16 × Option (BitVec 64)) :
    Call PtpCfg := do
  let tsCtrl ← ptpGetTsctrl phy
  let ppsCtrl ← gpy2xxPtpGetPpsctrl phy
  let ptoCtrl ← ptpGetPtoctrl phy
  pure {
    txTsPhy := raw.2.1.extractLsb' 8 1
    rxTsPhy := raw.2.1.extractLsb' 9 1
    txPtpOff := raw.1.extractLsb' 0 14
    txPtpTpt := raw.1.extractLsb' 14 2
    tsOstcEn := raw.2.1.extractLsb' 1 1
    txOstCorr := raw.2.2
    tsCtrl := tsCtrl
    ppsCtrl := ppsCtrl
    ptoCtrl := ptoCtrl }

def gpy2xxPtpGetcfg (phy : Gpy211Device) : Call PtpCfg :=
  bracket (outside (readPtpCtrl phy) >>= readPtpBlocks phy)

/-- A device with a PTP clock. -/
def ptpPhy (ptpClock : BitVec 32) : Gpy211Device :=
  ⟨⟨0⟩, .p31g, 0, false, ptpClock, 0xD30000, 0xD32000, 0xD38000⟩

end Gpy2xx
