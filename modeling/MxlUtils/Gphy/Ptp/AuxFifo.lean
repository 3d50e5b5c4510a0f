import MxlUtils.Gphy.Chip

/- The auxiliary snapshot FIFO of the PTP block. `ptp_resetauxfifo` combines
   register values with `||` and `&&` where a mask is meant, so both of its writes
   are constants, and it returns on the spot when the second write fails. -/
namespace Gpy2xx
open Effect Effect.Lock Bits

/-- `GMACF_MAC_TIMESTAMP_STATUS_L`, `_H` -/
def timestampStatusL : Nat := 0x1640
def timestampStatusH : Nat := 0x1644

/-- `GMACF_MAC_AUXILIARY_CONTROL_L` -/
def auxiliaryControlL : Nat := 0x1680

/-- `GMACF_MAC_AUXILIARY_TIMESTAMP_*` -/
def auxTimestampNanosecondsL : Nat := 0x1690
def auxTimestampNanosecondsH : Nat := 0x1694
def auxTimestampSecondsL : Nat := 0x1698
def auxTimestampSecondsH : Nat := 0x169C

def auxControlAtsen0 : Field 16 := ⟨0x10, 4⟩

/-- `SLICE_CGU_PDI_SYNCE_CONF` and `CGU_PDI_SYNCE_CONF`, with their `INTIMER_SEL` fields. -/
def synceConf (family : Family) : Nat × Field 16 :=
  if family = .p34x then (0x00A49000 + 0x4, ⟨0x18, 3⟩) else (0x00D29000 + 0x4, ⟨0x30, 4⟩)

/-- `struct gpy211_aux_cfg` -/
structure AuxCfg where
  auxEnable : BitVec 16
  auxTriggerPort : BitVec 16

/-- `struct timespec64` -/
structure Timespec64 where
  tvSec : BitVec 64
  tvNsec : BitVec 64

/-- `struct gpy211_aux_fifo_stat` -/
structure AuxFifoStat where
  ovfl : BitVec 16
  fillLvl : BitVec 16

def gpy2xxPtpAuxCfg (phy : Gpy211Device) (auxCfg : AuxCfg) : Call Unit :=
  if phy.family ≠ .p31g ∧ phy.family ≠ .p34x then throw EINVAL
  else if auxCfg.auxEnable > 1 then throw EINVAL
  else if auxCfg.auxTriggerPort > 3 then throw EINVAL
  else locked do
    phyMboxHwwr (phy.gmacfBaseAddr + auxiliaryControlL) (auxControlAtsen0.replace 0 auxCfg.auxEnable)
    let (addr, intimerSel) := synceConf phy.family
    let conf ← phyMboxHwrd addr
    phyMboxHwwr addr (intimerSel.replace conf auxCfg.auxTriggerPort)

/-- One snapshot, from four half-words. -/
def gpy2xxPtpGetauxts (phy : Gpy211Device) : Call Timespec64 :=
  locked do
    let _ ← phyMboxHwrd (phy.gmacfBaseAddr + timestampStatusL)
    let secL ← smdioReadAt (phy.gmacfBaseAddr + auxTimestampSecondsL)
    let secH ← smdioReadAt (phy.gmacfBaseAddr + auxTimestampSecondsH)
    let nsecL ← smdioReadAt (phy.gmacfBaseAddr + auxTimestampNanosecondsL)
    let nsecH ← smdioReadAt (phy.gmacfBaseAddr + auxTimestampNanosecondsH)
    pure {
      tvSec := secL.setWidth 64 ||| secH.setWidth 64 <<< 16
      tvNsec := nsecL.setWidth 64 ||| (nsecH &&& 0x7FFF).setWidth 64 <<< 16 }

def gpy2xxPtpAuxfifostat (phy : Gpy211Device) : Call AuxFifoStat :=
  locked do
    let data0 ← phyMboxHwrd (phy.gmacfBaseAddr + timestampStatusL)
    let data1 ← phyMboxHwrd (phy.gmacfBaseAddr + timestampStatusH)
    pure { ovfl := data0 &&& 0x1, fillLvl := (data1 &&& 0x3E00) >>> 9 }

/-- `_data0 || GMACF_MAC_AUXILIARY_CONTROL_L_ATSFC_MASK` -/
def resetFifoWord : BitVec 16 := 1

/-- `_data0 && ~GMACF_MAC_AUXILIARY_CONTROL_L_ATSFC_MASK`, with `ATSEN0` set. -/
def reenableWord : BitVec 16 := auxControlAtsen0.replace 1 1

def gpy2xxPtpResetauxfifo (phy : Gpy211Device) : Call Unit :=
  lockedExit do
    let _ ← phyMboxHwrd (phy.gmacfBaseAddr + auxiliaryControlL)
    phyMboxHwwr (phy.gmacfBaseAddr + auxiliaryControlL) resetFifoWord
    match ← (phyMboxHwwr (phy.gmacfBaseAddr + auxiliaryControlL) reenableWord).attempt with
    | .error e => pure (.leave e)
    | .ok _ => pure (.toEnd ())

end Gpy2xx
