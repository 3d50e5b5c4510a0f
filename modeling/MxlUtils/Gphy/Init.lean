import MxlUtils.Gphy.Sgmii.Control
import MxlUtils.Gphy.Msec.EngineInit
import MxlUtils.Gphy.Fw

/- Initialisation and soft reset. `config_init` only reads: it checks the identity
   of the PHY, finds out its family and what it supports, and takes the state of
   the link from the registers. It runs once; a PHY that has been initialised
   keeps what it found. -/
namespace Gpy2xx
open Effect Effect.Lock Bits

def EACCES : Errno := ⟨-13, by decide⟩

/-! ## Registers -/

def stdPhyid1 : Nat := 2
def stdPhyid2 : Nat := 3
def stdXstat : Nat := 0xF
def phyImask : Nat := 0x19
def phyFwv : Nat := 0x1E

/-- `PMA_SPEED_ABILITY`, in the MMD of the PMA. -/
def pmaSpeedAbility : Nat := 4

/-- The family register, in the second vendor MMD. -/
def familyReg : Nat := 0xFF0

/-! ## Identity -/

/-- The organisation's identifier. -/
def gphyOui : BitVec 32 := 0x984FEE

/-- `(wd1 << 6) | (wd2 >> 10)` -/
def ouiWord (wd1 wd2 : BitVec 16) : BitVec 32 := wd1.setWidth 32 <<< 6 ||| (wd2 >>> 10).setWidth 32

/-- The nibbles of the low three bytes, swapped. -/
def swapNibbles (v : BitVec 32) : BitVec 32 :=
  (List.range 3).foldl (fun oui c =>
    let byte := v >>> (8 * c) &&& 0xFF
    oui ||| ((byte &&& 0x0F) <<< 4 ||| (byte &&& 0xF0) >>> 4) <<< (8 * c)) 0

/-- The bits of the low six nibbles, each nibble back to front. -/
def swapBits (v : BitVec 32) : BitVec 32 :=
  (List.range 6).foldl (fun oui c =>
    let nibble := v >>> (4 * c) &&& 0xF
    oui ||| ((nibble &&& 1) <<< 3 ||| (nibble &&& 8) >>> 3 ||| (nibble &&& 2) <<< 1 |||
      (nibble &&& 4) >>> 1) <<< (4 * c)) 0

/-- Firmware up to 0x0744 has the identifier in another order. -/
def ouiOf (word : BitVec 32) : BitVec 32 :=
  if word ||| 0x800000 ≠ gphyOui then swapBits (swapNibbles word) else word ||| 0x800000

/-- `struct gpy211_id`, as far as it is read from the PHY. -/
structure DeviceId where
  oui : BitVec 32
  modelNo : BitVec 8
  revision : BitVec 8
  fwMajor : BitVec 8
  fwMinor : BitVec 8
  fwRelease : Bool
  fwMemory : BitVec 2
  family : Family

/-- The second identification word, which `synce_supported` looks at again, and the identity but
for the family. -/
def readIdentity : Api (BitVec 16 × (Family → DeviceId)) := do
  let wd1 ← phyRead stdPhyid1
  let wd2 ← phyRead stdPhyid2
  if ouiOf (ouiWord wd1 wd2) ≠ gphyOui then throw ENXIO
  else do
    let fwv ← phyRead phyFwv
    let stat1 ← phyRead phyStat1
    pure (wd2, fun family => {
      oui := gphyOui
      modelNo := (wd2.extractLsb' 4 6).setWidth 8
      revision := (wd2.extractLsb' 0 4).setWidth 8
      fwMajor := (fwv.extractLsb' 8 7).setWidth 8
      fwMinor := fwv.extractLsb' 0 8
      fwRelease := fwv.getLsbD 15
      fwMemory := stat1.extractLsb' 2 2
      family := family })

/-- `ID_P31G`, `ID_P34X`, `ID_P34X_LGS` -/
def familyOf (val : BitVec 16) : Family :=
  match (val &&& 0x0F).toNat with
  | 0x0 => .p31g
  | 0x8 => .p34x
  | 0xE => .p34xLgs
  | _ => .other ((val &&& 0x0F).setWidth 8)

/-- The family, where one variant counts as the other. -/
def readFamily : Api Family := do
  let val ← phyReadMmd .vend2 familyReg
  pure (if familyOf val = .p34xLgs then .p34x else familyOf val)

/-- Whether SyncE is supported, for the family and model in the PHY's own structure. -/
def synceSupported (family : Family) (modelNo : BitVec 8) (wd2 : BitVec 16) : Api Bool :=
  match family with
  | .p31g => pure (modelNo.getLsbD 4)
  | .p34x =>
    if wd2 = 0xDC00 then pure true
    else pure ((wd2 == 0xDE41 || wd2 == 0xDEC1 || wd2 == 0xDE81) && modelNo.getLsbD 3)
  | _ => throw EINVAL

/-! ## Abilities -/

/-- Both engines have the same number of security associations. -/
def readNrOfSas : Api (BitVec 8) := do
  let ing ← (phyMboxRead (eip160Config .ingress)).failWith EACCES
  let egr ← (phyMboxRead (eip160Config .egress)).failWith EACCES
  if egr.setWidth 8 ≠ ing.setWidth 8 then throw EIO else pure (ing.setWidth 8)

/-- The MACsec ability, with the number of associations where there is one. -/
def readMacsecSupported : Api (Option (BitVec 8)) := do
  let stat ← phyReadMmd .vend1 sgmiiStat
  if stat.getLsbD 15 then do
    let nrOfSas ← readNrOfSas
    pure (some nrOfSas)
  else pure none

/-- The gigabit modes, where the status register has an extension. -/
def readSupportedG (stat : BitVec 16) (modes : BitVec 64) : Api (BitVec 64) :=
  if stat &&& statExt ≠ 0 then do
    let xstat ← phyRead stdXstat
    pure (withModes [(0x2000, .t1000Full)] xstat modes)
  else pure modes

/-- `__gpy211_read_supported` -/
def readSupported : Api (BitVec 64) := do
  let ability ← phyReadMmd .pmapmd pmaSpeedAbility
  let modes := withModes [(0x4000, .t5000Full), (0x2000, .t2500Full)] ability
    (1 <<< LinkMode.pause.bit ||| 1 <<< LinkMode.asymPause.bit)
  let stat ← phyRead stdStat
  let modes := if stat &&& 0x8 ≠ 0 then modes ||| supportedAutoneg else modes
  readSupportedG stat (withModes [(0x4000, .t100Full), (0x2000, .t100Half), (0x1000, .t10Full),
    (0x800, .t10Half)] stat modes)

def readAdvertisingG (modes : BitVec 64) : Api (BitVec 64) := do
  let stat ← phyRead stdStat
  if stat &&& statExt ≠ 0 then do
    let gctrl ← phyRead stdGctrl
    pure (withModes [(0x100, .t1000Half), (0x200, .t1000Full)] gctrl modes)
  else pure modes

/-- `__gpy211_read_advertising` -/
def readAdvertising : Api (BitVec 64) := do
  let adv ← phyRead stdAnAdv
  let modes := withModes [(0x1 <<< 5, .t10Half), (0x2 <<< 5, .t10Full), (0x4 <<< 5, .t100Half),
    (0x8 <<< 5, .t100Full), (0x20 <<< 5, .pause), (0x40 <<< 5, .asymPause)] adv 0
  let stat ← phyReadMmd .an anegStat
  let modes := if stat &&& 0x8 ≠ 0 then modes ||| supportedAutoneg else modes
  let modes ← readAdvertisingG modes
  let mgbt ← phyReadMmd .an anegMgbtAnCtrl
  pure (withModes [(0x80, .t2500Full), (0x100, .t5000Full), (0x20, .t2500Fr), (0x40, .t5000Fr)] mgbt
    modes)

/-! ## Initialisation -/

/-- What `config_init` finds. -/
structure DeviceInit where
  id : DeviceId
  gmacfBaseAddr : Nat
  gmaclBaseAddr : Nat
  pmBaseAddr : Nat
  synceSupported : Bool
  nrOfSas : Option (BitVec 8)
  link : LinkStatus

/-- The link settings that are read: whether negotiation is on, and the modes; `link` is what the
structure held before. -/
def initLink (link : LinkStatus) : Api LinkStatus := do
  let ctrl ← phyRead stdCtrl
  let link := { link with autoneg := if ctrl &&& ctrlAnen = 0 then 0 else 1 }
  let supported ← readSupported
  let advertising ← readAdvertising
  readStatus { link with supported := supported, advertising := advertising }

/-- `__gpy211_config_init`. Where the data is shared, `own` is the family and the model in the PHY's
own structure, which is the one the SyncE check looks at. -/
def configInit (own : Option (Family × BitVec 8)) (link : LinkStatus) : Api DeviceInit := do
  let (wd2, id) ← readIdentity
  let family ← readFamily
  let synce ← synceSupported (own.getD (family, (id family).modelNo)).1
    (own.getD (family, (id family).modelNo)).2 wd2
  let nrOfSas ← readMacsecSupported
  let link ← initLink link
  pure {
    id := id family
    gmacfBaseAddr := if family = .p34x then 0xA32000 else 0xD30000
    gmaclBaseAddr := if family = .p34x then 0xA30000 else 0xD32000
    pmBaseAddr := if family = .p34x then 0xA38000 else 0xD38000
    synceSupported := synce
    nrOfSas := nrOfSas
    link := link }

/-- `__gpy211_init`, unless `priv_data` says that it has been done. -/
def initOnce (privData : Bool) (own : Option (Family × BitVec 8)) (link : LinkStatus) :
    Api (Option DeviceInit) :=
  if privData then pure none else some <$> configInit own link

/-- The mailbox interrupt is enabled in either case. -/
def gpy2xxInit (privData : Bool) (own : Option (Family × BitVec 8)) (link : LinkStatus) :
    Call (Option DeviceInit) :=
  locked do
    let init ← initOnce privData own link
    phySetBits phyImask 0x200
    pure init

/-- Success sets `link.autoneg`: the reset leaves negotiation on. -/
def gpy2xxSoftReset (link : Link) : Call Link :=
  locked do
    phySetBits stdCtrl ctrlRst
    pure { link with autoneg := 1 }

end Gpy2xx
