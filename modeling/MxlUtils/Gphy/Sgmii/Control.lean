import MxlUtils.Gphy.Status

/- The SGMII side. One vendor register holds the configuration direction, the
   negotiation mode and a forced speed; four routines read it, change some fields
   and write it back. `sgmii_config_aneg` chooses among them, and `sgmii_read_status`
   decodes the register again. -/
namespace Gpy2xx
open Effect Effect.Lock Bits

/-! ## Registers -/

/-- `VSPEC1_SGMII_CTRL` and `VSPEC1_SGMII_STAT`, in the first vendor MMD. -/
def sgmiiCtrl : Nat := 8
def sgmiiStat : Nat := 9

/-- Fields of `VSPEC1_SGMII_CTRL`. -/
def sgmiiAnmode : Field 16 := ⟨0x3, 0⟩
def sgmiiCfgdir : Field 16 := ⟨0x4, 2⟩
def sgmiiFixed2g5 : Field 16 := ⟨0x20, 5⟩
def sgmiiSsm : Field 16 := ⟨0x40, 6⟩
def sgmiiEeeCap : Field 16 := ⟨0x80, 7⟩
def sgmiiDplx : Field 16 := ⟨0x100, 8⟩
def sgmiiAnrs : Field 16 := ⟨0x200, 9⟩
def sgmiiAnen : Field 16 := ⟨0x1000, 12⟩
def sgmiiSsl : Field 16 := ⟨0x2000, 13⟩

/-- Fields of `VSPEC1_SGMII_STAT`. -/
def sgmiiDr : Field 16 := ⟨0x3, 0⟩
def sgmiiLs : Field 16 := ⟨0x4, 2⟩
def sgmiiAnab : Field 16 := ⟨0x8, 3⟩

/-! ## Settings -/

/-- `enum gpy211_sgmii_linkcfg_dir`, and the values outside it. -/
inductive LinkcfgDir where
  | tpi
  | sgmii
  | other (v : BitVec 32)
deriving DecidableEq, Repr

/-- `enum gpy211_sgmii_aneg_mode`, and the values outside it. -/
inductive SgmiiAnegMode where
  | bx1000
  | ciscoPhy
  | ciscoMac
  | other (v : BitVec 32)
deriving DecidableEq, Repr

/-- `struct gpy211_sgmii` -/
structure Sgmii where
  linkcfgDir : LinkcfgDir
  anegMode : SgmiiAnegMode
  link : LinkStatus
  eeeEnable : Int

def LinkcfgDir.named : LinkcfgDir → Bool
  | .other _ => false
  | _ => true

def SgmiiAnegMode.named : SgmiiAnegMode → Bool
  | .other _ => false
  | _ => true

/-- The checks `gpy2xx_sgmii_config_aneg` makes before it takes the lock. -/
def sgmiiAccepts (sgmii : Sgmii) : Bool := sgmii.linkcfgDir.named && sgmii.anegMode.named

/-! ## The routines that share the control register -/

/-- Read the control register and write what `f` makes of it. -/
def updateSgmiiCtrl (f : BitVec 16 → BitVec 16) : Api Unit := do
  let ctrl ← phyReadMmd .vend1 sgmiiCtrl
  phyWriteMmd .vend1 sgmiiCtrl (f ctrl)

/-- Negotiation on, and restarted. -/
def sgmiiRestarted (ctrl : BitVec 16) : BitVec 16 := replaceFields ctrl [(sgmiiAnen, 1), (sgmiiAnrs, 1)]

/-- `__gpy211_sgmii_restart_aneg`; success sets `link.autoneg` of the shared data. -/
def sgmiiRestartAneg (link : Link) : Api Link := do
  updateSgmiiCtrl sgmiiRestarted
  pure { link with autoneg := 1 }

def gpy2xxSgmiiRestartAneg (link : Link) : Call Link := locked (sgmiiRestartAneg link)

def withLinkcfgdir (dir : LinkcfgDir) (ctrl : BitVec 16) : BitVec 16 :=
  if dir = .sgmii then sgmiiCfgdir.replace ctrl 1 else sgmiiCfgdir.replace ctrl 0

/-- `__gpy211_sgmii_linkcfgdir_set` -/
def sgmiiLinkcfgdirSet (sgmii : Sgmii) : Api Unit := updateSgmiiCtrl (withLinkcfgdir sgmii.linkcfgDir)

/-- The bits SSM and SSL of a forced speed; any other speed gets those of 1 Gbps. -/
def sgmiiSpeedBits (speed : Int) : BitVec 16 × BitVec 16 :=
  if speed = 2500 then (1, 1)
  else if speed = 100 then (0, 1)
  else if speed = 10 then (0, 0)
  else (1, 0)

/-- Speed and duplex, which are programmed unless the side follows the twisted pair. -/
def withForcedSpeed (link : LinkStatus) (ctrl : BitVec 16) : BitVec 16 :=
  replaceFields ctrl [(sgmiiSsm, (sgmiiSpeedBits link.speed).1),
    (sgmiiSsl, (sgmiiSpeedBits link.speed).2), (sgmiiDplx, if link.duplex = 1 then 1 else 0)]

/-- Negotiation off, and the forced settings; the restart bit is written back as it was read. -/
def sgmiiForced (sgmii : Sgmii) (ctrl : BitVec 16) : BitVec 16 :=
  let ctrl := sgmiiAnen.replace ctrl 0
  let ctrl := if sgmii.linkcfgDir ≠ .tpi then withForcedSpeed sgmii.link ctrl else ctrl
  sgmiiFixed2g5.replace ctrl (.ofInt 16 sgmii.link.fixed2g5)

/-- `__gpy211_sgmii_setup_forced` -/
def sgmiiSetupForced (sgmii : Sgmii) : Api Unit := updateSgmiiCtrl (sgmiiForced sgmii)

def SgmiiAnegMode.anmode : SgmiiAnegMode → BitVec 16
  | .bx1000 => 1
  | .ciscoMac => 3
  | _ => 2

/-- The fields `__gpy211_sgmii_config_advert` programs, as a mask, and their values. -/
def sgmiiAdvMask : BitVec 16 := sgmiiAnmode.mask ||| sgmiiEeeCap.mask

def sgmiiAdvSet (sgmii : Sgmii) : BitVec 16 :=
  fieldWord [(sgmiiAnmode, sgmii.anegMode.anmode), (sgmiiEeeCap, if sgmii.eeeEnable ≠ 0 then 1 else 0)]

def withAdvert (sgmii : Sgmii) (ctrl : BitVec 16) : BitVec 16 :=
  ctrl &&& ~~~sgmiiAdvMask ||| sgmiiAdvSet sgmii

/-- `__gpy211_sgmii_config_advert`: whether it changed the register. -/
def sgmiiConfigAdvert (sgmii : Sgmii) : Api Bool := do
  let ctrl ← phyReadMmd .vend1 sgmiiCtrl
  if ctrl &&& sgmiiAdvMask = sgmiiAdvSet sgmii then pure false
  else do
    phyWriteMmd .vend1 sgmiiCtrl (withAdvert sgmii ctrl)
    pure true

/-- After a `config_advert` that changed nothing: no restart while one is pending. -/
def sgmiiRestartUnlessPending (link : Link) : Api Link := do
  let ctrl ← phyReadMmd .vend1 sgmiiCtrl
  if sgmiiAnrs.get ctrl ≠ 1 then sgmiiRestartAneg link else pure link

/-- `config_aneg` with negotiation requested. -/
def sgmiiNegotiate (link : Link) (sgmii : Sgmii) : Api Link := do
  let changed ← sgmiiConfigAdvert sgmii
  if changed then sgmiiRestartAneg link else sgmiiRestartUnlessPending link

/-- `config_aneg` with a forced speed. -/
def sgmiiForce (link : Link) (sgmii : Sgmii) : Api Link := do
  sgmiiSetupForced sgmii
  pure link

/-- `__gpy211_sgmii_config_aneg`, with the link settings of the shared data it leaves behind. -/
def sgmiiConfigAneg (link : Link) (sgmii : Sgmii) : Api Link := do
  sgmiiLinkcfgdirSet sgmii
  if sgmii.link.autoneg = 0 then sgmiiForce link sgmii else sgmiiNegotiate link sgmii

def gpy2xxSgmiiConfigAneg (link : Link) (sgmii : Sgmii) : Call Link :=
  if !sgmiiAccepts sgmii then throw EINVAL else locked (sgmiiConfigAneg link sgmii)

section Fields
variable {f : Field 16} {ctrl : BitVec 16}

theorem get_withLinkcfgdir {c : BitVec 16} {d : LinkcfgDir}
    (h : f.mask &&& sgmiiCfgdir.mask = 0#16) : f.get (withLinkcfgdir d c) = f.get c := by
  unfold withLinkcfgdir
  split
  · exact Field.get_replace_of_disjoint h
  · exact Field.get_replace_of_disjoint h

/-- The advertised fields do not overlap the direction. -/
theorem withLinkcfgdir_and_advMask (dir : LinkcfgDir) (ctrl : BitVec 16) :
    withLinkcfgdir dir ctrl &&& sgmiiAdvMask = ctrl &&& sgmiiAdvMask := by
  unfold withLinkcfgdir
  split <;> exact Field.replace_and_of_disjoint (by decide)

theorem anen_sgmiiRestarted : sgmiiAnen.get (sgmiiRestarted ctrl) = 1 :=
  get_replaceFields_bit (by decide) (by decide) (by simp; decide)

theorem anrs_sgmiiRestarted : sgmiiAnrs.get (sgmiiRestarted ctrl) = 1 :=
  get_replaceFields_skip fun _ => get_replaceFields_bit (by decide) (by decide) (by simp)

end Fields

/-! ## Status -/

/-- `speed[]`, by the two or three bits of a register. -/
def sgmiiSpeed (i : BitVec 16) : Int :=
  [10, 100, 1000, 2500, 2500, speedUnknown, speedUnknown, speedUnknown].getD i.toNat speedUnknown

/-- `mode[]`, by the field of the control register. -/
def sgmiiMode (i : BitVec 16) : SgmiiAnegMode :=
  [.ciscoPhy, .bx1000, .ciscoPhy, .ciscoMac].getD i.toNat .ciscoPhy

/-- Energy-efficient Ethernet is looked at in one mode only. -/
def reportedEee (mode : SgmiiAnegMode) (ctrl : BitVec 16) : Int :=
  if mode = .ciscoPhy then (if sgmiiEeeCap.get ctrl = 1 then 1 else 0) else 0

/-- What the control register and the link bit say, with the speed still unknown. -/
def sgmiiDecoded (sgmii : Sgmii) (ctrl stat : BitVec 16) : Sgmii where
  linkcfgDir := if sgmiiCfgdir.get ctrl = 0 then .tpi else .sgmii
  anegMode := sgmiiMode (sgmiiAnmode.get ctrl)
  eeeEnable := reportedEee (sgmiiMode (sgmiiAnmode.get ctrl)) ctrl
  link := { sgmii.link with
    link := if sgmiiLs.get stat = 1 then 1 else 0
    autoneg := if sgmiiAnen.get ctrl = 0 then 0 else 1
    fixed2g5 := (sgmiiFixed2g5.get ctrl).toNat
    speed := speedUnknown
    supported := 0 }

/-- The speed bits of a forced configuration: SSL below SSM. -/
def sgmiiForcedIndex (ctrl : BitVec 16) : BitVec 16 := sgmiiSsl.get ctrl ||| sgmiiSsm.get ctrl <<< 1

/-- The speed of the twisted pair; 3 stands for a negotiation that has not finished. -/
def miistatSpeedOf (miistat : BitVec 16) : Int :=
  let speed := sgmiiSpeed (miistatSpeed.get miistat)
  if speed = 3 then speedUnknown else speed

/-- Speed and duplex. A speed that is negotiated comes with no duplex. -/
def sgmiiReadSpeed (sgmii : Sgmii) (ctrl stat : BitVec 16) : Api LinkStatus :=
  if sgmii.link.autoneg ≠ 0 then pure { sgmii.link with speed := sgmiiSpeed (sgmiiDr.get stat) }
  else if sgmii.linkcfgDir = .tpi then do
    let miistat ← phyRead phyMiistat
    pure { sgmii.link with
      speed := miistatSpeedOf miistat
      duplex := if miistatDpx.get miistat = 1 then 1 else 0 }
  else pure { sgmii.link with
    speed := sgmiiSpeed (sgmiiForcedIndex ctrl)
    duplex := if sgmiiDplx.get ctrl = 0 then 0 else 1 }

/-- `__gpy211_sgmii_read_status`: the structure it fills, and the supported modes of the shared
data. -/
def sgmiiReadStatus (supported : BitVec 64) (sgmii : Sgmii) : Api (Sgmii × BitVec 64) := do
  let ctrl ← phyReadMmd .vend1 sgmiiCtrl
  let stat ← phyReadMmd .vend1 sgmiiStat
  let sgmii := sgmiiDecoded sgmii ctrl stat
  let link ← sgmiiReadSpeed sgmii ctrl stat
  pure ({ sgmii with link := link },
    if sgmiiAnab.get stat = 1 then supported ||| supportedAutoneg else supported)

def gpy2xxSgmiiReadStatus (supported : BitVec 64) (sgmii : Sgmii) : Call (Sgmii × BitVec 64) :=
  locked (sgmiiReadStatus supported sgmii)

end Gpy2xx
