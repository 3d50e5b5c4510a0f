import MxlUtils.Gphy.Link

/- The status of the twisted-pair side. Where negotiation is on, speed and duplex
   are those of the vendor's status register and the partner's modes are collected
   from three standard ones. Where they are forced, they are read from the PMA
   control register when its speed bits say "see the speed selection", and from the
   standard control register otherwise. -/
namespace Gpy2xx
open Effect Effect.Lock Bits

/-! ## Registers -/

def stdAnLpa : Nat := 5
def stdGstat : Nat := 10
def phyMiistat : Nat := 0x18

/-- `ANEG_STAT` and `ANEG_MGBT_AN_STA`, in the MMD of auto-negotiation. -/
def anegStat : Nat := 1
def anegMgbtAnSta : Nat := 0x21

/-- `STD_STAT_LS_MASK` -/
def statLs : BitVec 16 := 0x4

/-- Fields of `PHY_MIISTAT`. -/
def miistatSpeed : Field 16 := ⟨0x7, 0⟩
def miistatDpx : Field 16 := ⟨0x8, 3⟩

/-- Fields of `PMA_CTRL1`. -/
def pmaSpeedSel : Field 16 := ⟨0x3C, 2⟩
def pmaSsm : Field 16 := ⟨0x40, 6⟩
def pmaSsl : Field 16 := ⟨0x2000, 13⟩

/-- The speed bits of `STD_CTRL`. -/
def stdSsm : Field 16 := ⟨0x40, 6⟩
def stdSsl : Field 16 := ⟨0x2000, 13⟩

/-- `SPEED_UNKNOWN`, `DUPLEX_INVALID` -/
def speedUnknown : Int := -1
def duplexInvalid : Int := 0xFF

/-- `LINK_MODE_Autoneg_BIT` as a set of modes. -/
def supportedAutoneg : BitVec 64 := 1 <<< 6

/-! ## Negotiated -/

/-- The modes whose bits are on in a register, added to `modes`. -/
def withModes (bits : List (BitVec 16 × LinkMode)) (val : BitVec 16) (modes : BitVec 64) :
    BitVec 64 :=
  bits.foldl (fun modes m => if val &&& m.1 ≠ 0 then modes ||| 1 <<< m.2.bit else modes) modes

/-- `__gpy211_read_status_mg` -/
def readStatusMg (link : LinkStatus) : Api LinkStatus :=
  if !link.supported.getLsbD LinkMode.t2500Full.bit && !link.supported.getLsbD LinkMode.t5000Full.bit
  then pure link
  else do
    let stat ← phyReadMmd .an anegStat
    if stat &&& 0x20 = 0 then pure link
    else do
      let sta ← phyReadMmd .an anegMgbtAnSta
      pure { link with lpAdvertising := withModes [(0x8, .t2500Fr), (0x10, .t5000Fr),
        (0x20, .t2500Full), (0x40, .t5000Full)] sta link.lpAdvertising }

/-- `__gpy211_read_status_g` -/
def readStatusG (link : LinkStatus) : Api LinkStatus :=
  if !link.supported.getLsbD LinkMode.t1000Half.bit && !link.supported.getLsbD LinkMode.t1000Full.bit
  then pure link
  else do
    let gstat ← phyRead stdGstat
    pure { link with
      lpAdvertising := withModes [(0x400, .t1000Half), (0x800, .t1000Full)] gstat link.lpAdvertising }

/-- What the partner's ability register adds: its modes, and how it pauses. -/
def withPartner (link : LinkStatus) (lpa : BitVec 16) : LinkStatus :=
  { link with
    lpAdvertising := withModes [(0x1 <<< 5, .t10Half), (0x2 <<< 5, .t10Full), (0x4 <<< 5, .t100Half),
      (0x8 <<< 5, .t100Full), (0x20 <<< 5, .pause), (0x40 <<< 5, .asymPause)] lpa
      (if lpa &&& 0x4000 ≠ 0 then link.lpAdvertising ||| supportedAutoneg else link.lpAdvertising)
    pause := if lpa &&& 0x20 <<< 5 ≠ 0 then 1 else link.pause
    asymPause := if lpa &&& 0x40 <<< 5 ≠ 0 then 1 else link.asymPause }

/-- The speeds the vendor's status register can tell; at any other value the speed stays. -/
def withMiistatSpeed (link : LinkStatus) (miistat : BitVec 16) : Int :=
  match (miistatSpeed.get miistat).toNat with
  | 0 => 10
  | 1 => 100
  | 2 => 1000
  | 4 => 2500
  | _ => link.speed

def readNegotiated (link : LinkStatus) : Api LinkStatus := do
  let link ← readStatusMg link
  let link ← readStatusG link
  let lpa ← phyRead stdAnLpa
  let link := withPartner link lpa
  let miistat ← phyRead phyMiistat
  pure { link with
    speed := withMiistatSpeed link miistat
    duplex := if miistatDpx.get miistat = 1 then 1 else 0 }

/-! ## Forced -/

/-- The speed bits of `PMA_CTRL1`, SSL below SSM; 3 is the speed selection. -/
def pmaSpeedIndex (pma : BitVec 16) : BitVec 16 := pmaSsl.get pma ||| pmaSsm.get pma <<< 1

/-- The speed selection above 1 Gbps; other values say nothing. -/
def withPmaSpeed (link : LinkStatus) (pma : BitVec 16) : LinkStatus :=
  match (pmaSpeedSel.get pma).toNat with
  | 7 => { link with speed := 5000, duplex := 1 }
  | 6 => { link with speed := 2500, duplex := 1 }
  | _ => link

/-- The speed bits of `STD_CTRL`, SSL below SSM. -/
def stdSpeedIndex (ctrl : BitVec 16) : BitVec 16 := stdSsl.get ctrl ||| stdSsm.get ctrl <<< 1

/-- Speed and duplex up to 1 Gbps. -/
def withCtrlSpeed (link : LinkStatus) (ctrl : BitVec 16) : LinkStatus :=
  { link with
    duplex := if ctrl &&& ctrlDplx ≠ 0 then 1 else 0
    speed := match (stdSpeedIndex ctrl).toNat with
      | 0 => 10
      | 1 => 100
      | 2 => 1000
      | _ => link.speed }

def readForced (link : LinkStatus) : Api LinkStatus := do
  let pma ← phyReadMmd .pmapmd pmaCtrl1
  if pmaSpeedIndex pma = 3 then pure (withPmaSpeed link pma)
  else do
    let ctrl ← phyRead stdCtrl
    pure (withCtrlSpeed link ctrl)

/-! ## Status -/

/-- `__gpy211_update_link`, and what the status is before it is found. -/
def unknownStatus (link : LinkStatus) (stat : BitVec 16) : LinkStatus :=
  { link with
    link := if stat &&& statLs = 0 then 0 else 1
    speed := speedUnknown
    duplex := duplexInvalid
    lpAdvertising := 0
    pause := 0
    asymPause := 0 }

/-- `__gpy211_read_status` -/
def readStatus (link : LinkStatus) : Api LinkStatus := do
  let stat ← phyRead stdStat
  if link.autoneg ≠ 0 then readNegotiated (unknownStatus link stat)
  else readForced (unknownStatus link stat)

def gpy2xxReadStatus (link : LinkStatus) : Call LinkStatus := locked (readStatus link)

end Gpy2xx
