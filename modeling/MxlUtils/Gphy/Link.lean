import MxlUtils.Gphy.Chip

/- Auto-negotiation and forced speed of the twisted-pair side, from the standard
   registers. `config_advert` programs the advertisement registers and says
   whether it changed one, `setup_forced` switches negotiation off, `restart_aneg`
   switches it on and restarts it, and `config_aneg` chooses among them. The link
   settings are those of the shared data where a device has some. -/
namespace Gpy2xx
open Effect Effect.Lock Bits

/-! ## Registers -/

def stdStat : Nat := 1
def stdAnAdv : Nat := 4
def stdGctrl : Nat := 9
def phyCtl1 : Nat := 0x13

/-- `ANEG_MGBT_AN_CTRL`, in the MMD of auto-negotiation. -/
def anegMgbtAnCtrl : Nat := 0x20

/-- `PMA_CTRL1`, `PMA_CTL2`, in the MMD of the PMA. -/
def pmaCtrl1 : Nat := 0
def pmaCtl2 : Nat := 7

/-- `STD_STAT_EXT_MASK` -/
def statExt : BitVec 16 := 0x100

/-- `STD_GCTRL_MSEN` and `STD_GCTRL_MS`, the manual master/slave configuration. -/
def gctrlMsen : Field 16 := ⟨0x1000, 12⟩
def gctrlMs : Field 16 := ⟨0x800, 11⟩

/-! ## Settings -/

/-- The link modes `config_advert` looks at, in `enum link_mode`. -/
inductive LinkMode where
  | t10Half
  | t10Full
  | t100Half
  | t100Full
  | t1000Half
  | t1000Full
  | pause
  | asymPause
  | t2500Full
  | t5000Full
  | t2500Fr
  | t5000Fr
deriving DecidableEq, Repr

/-- `LINK_MODE_*_BIT` -/
def LinkMode.bit : LinkMode → Nat
  | .t10Half => 0
  | .t10Full => 1
  | .t100Half => 2
  | .t100Full => 3
  | .t1000Half => 4
  | .t1000Full => 5
  | .pause => 13
  | .asymPause => 14
  | .t2500Full => 47
  | .t5000Full => 48
  | .t2500Fr => 49
  | .t5000Fr => 50

/-- `struct gpy211_link`, its settings. -/
structure Link where
  speed : Int
  duplex : Int
  pause : Int
  asymPause : Int
  supported : BitVec 64
  advertising : BitVec 64
  autoneg : Int

/-- `struct gpy211_link`: the settings, and what the status functions add to them. -/
structure LinkStatus extends Link where
  fixed2g5 : Int
  link : Int
  lpAdvertising : BitVec 64

/-- `link.advertising &= link.supported` -/
def Link.narrowed (link : Link) : Link := { link with advertising := link.advertising &&& link.supported }

/-! ## Advertisement -/

/-- `old` without the bits of `mask`, and with those of the modes that are advertised. -/
def advertised (modes : BitVec 64) (mask : BitVec 16) (bits : List (LinkMode × BitVec 16))
    (old : BitVec 16) : BitVec 16 :=
  bits.foldl (fun adv m => if modes.getLsbD m.1.bit then adv ||| m.2 else adv) (old &&& ~~~mask)

/-- `STD_AN_ADV_TAF`, the technology ability field. -/
def anAdvOf (modes : BitVec 64) : BitVec 16 → BitVec 16 :=
  advertised modes 0xFE0 [(.t10Half, 0x1 <<< 5), (.t10Full, 0x2 <<< 5), (.t100Half, 0x4 <<< 5),
    (.t100Full, 0x8 <<< 5), (.pause, 0x20 <<< 5), (.asymPause, 0x40 <<< 5)]

def gctrlOf (modes : BitVec 64) : BitVec 16 → BitVec 16 :=
  advertised modes 0x300 [(.t1000Half, 0x100), (.t1000Full, 0x200)]

def mgbtOf (modes : BitVec 64) : BitVec 16 → BitVec 16 :=
  advertised modes 0x1E0 [(.t2500Full, 0x80), (.t5000Full, 0x100), (.t2500Fr, 0x20), (.t5000Fr, 0x40)]

/-- The manual master/slave bits, cleared. -/
def msCleared (gctrl : BitVec 16) : BitVec 16 := replaceFields gctrl [(gctrlMsen, 0), (gctrlMs, 0)]

def clearMs : Api Unit := do
  let gctrl ← phyRead stdGctrl
  phyWrite stdGctrl (msCleared gctrl)

/-- Read a register, write it back if `f` changes it, and say whether it did. -/
def updateChanged (reg : Nat) (f : BitVec 16 → BitVec 16) : Api Bool := do
  let oldadv ← phyRead reg
  if f oldadv ≠ oldadv then do
    phyWrite reg (f oldadv)
    pure true
  else pure false

/-- The 1000BASE-T part, where the status register has an extension. -/
def updateGctrl (modes : BitVec 64) : Api Bool := do
  let status ← phyRead stdStat
  if status &&& statExt ≠ 0 then updateChanged stdGctrl (gctrlOf modes) else pure false

/-- The multi-gigabit part, and the result of `config_advert`: when the write fails, that is the
value it tried to write. -/
def updateMgbt (modes : BitVec 64) (changed : Bool) : Api Nat := do
  let oldadv ← phyReadMmd .an anegMgbtAnCtrl
  if mgbtOf modes oldadv ≠ oldadv then do
    let ret ← (phyWriteMmd .an anegMgbtAnCtrl (mgbtOf modes oldadv)).attempt
    match ret with
    | .error _ => pure (mgbtOf modes oldadv).toNat
    | .ok _ => pure 1
  else pure changed.toNat

/-- `__gpy211_config_advert`, with the modes it narrows the settings to. -/
def configAdvert (link : Link) : Api Nat := do
  clearMs
  let modes := link.narrowed.advertising
  let changedAdv ← updateChanged stdAnAdv (anAdvOf modes)
  let changedGctrl ← updateGctrl modes
  updateMgbt modes (changedAdv || changedGctrl)

def gpy2xxConfigAdvert (link : Link) : Call Nat := locked (configAdvert link)

/-! ## Forced speed -/

/-- The checks on speed and duplex; 255 is `DUPLEX_INVALID`. -/
def forcedAccepts (link : Link) : Bool :=
  link.speed != -1 && link.duplex != 0xFF && link.speed ≤ 5000 &&
    (link.speed ≤ 100 || link.duplex == 1)

/-- The pause bits: set in the ability field, cleared at the place they have inside it. -/
def forcedAnAdv (link : Link) (anAdv : BitVec 16) : BitVec 16 :=
  let anAdv := if link.pause ≠ 0 then anAdv ||| 0x20 <<< 5 else anAdv &&& ~~~0x20
  if link.asymPause ≠ 0 then anAdv ||| 0x40 <<< 5 else anAdv &&& ~~~0x40

/-- The speed bits up to 1 Gbps; other speeds get this far and are rejected here. -/
def forcedSpeedBits (speed : Int) : Option (BitVec 16) :=
  if speed = 10 then some 0
  else if speed = 100 then some ctrlSsl
  else if speed = 1000 then some ctrlSsm
  else none

def forceUpTo1000 (link : Link) (ctrl : BitVec 16) : Api Unit :=
  match forcedSpeedBits link.speed with
  | none => throw EINVAL
  | some bits =>
    let ctrl := ctrl &&& (ctrlLb ||| ctrlIsol ||| ctrlPd) ||| bits
    phyWrite stdCtrl (if link.duplex = 1 then ctrl ||| ctrlDplx else ctrl)

/-- `PMA_CTRL1` and `PMA_CTL2` for 5 Gbps, or 2.5 Gbps for any other speed above 1 Gbps. -/
def forcedPma (link : Link) (pma1 pma2 : BitVec 16) : BitVec 16 × BitVec 16 :=
  let pma1 := pma1 &&& ~~~0x3C &&& ~~~0x40 &&& ~~~0x2000 ||| 0x40 ||| 0x2000
  let pma2 := pma2 &&& ~~~0x3F
  if link.supported.getLsbD LinkMode.t5000Full.bit ∧ link.speed = 5000 then
    (pma1 ||| 7 <<< 2, pma2 ||| 0x31)
  else (pma1 ||| 6 <<< 2, pma2 ||| 0x30)

def forceAbove1000 (link : Link) (ctrl : BitVec 16) : Api Unit := do
  phyWrite stdCtrl
    (ctrl &&& (ctrlSsm ||| ctrlSsl ||| ctrlLb ||| ctrlIsol ||| ctrlPd) ||| ctrlDplx)
  let pma1 ← phyReadMmd .pmapmd pmaCtrl1
  let pma2 ← phyReadMmd .pmapmd pmaCtl2
  phyWriteMmd .pmapmd pmaCtrl1 (forcedPma link pma1 pma2).1
  phyWriteMmd .pmapmd pmaCtl2 (forcedPma link pma1 pma2).2

def forceSpeed (link : Link) (ctrl : BitVec 16) : Api Unit :=
  if link.speed ≤ 1000 then forceUpTo1000 link ctrl else forceAbove1000 link ctrl

/-- Manual master/slave configuration, as `phy->mstr_slave` says. -/
def msForced (mstrSlave : BitVec 8) (gctrl : BitVec 16) : BitVec 16 :=
  replaceFields gctrl [(gctrlMsen, 1), (gctrlMs, mstrSlave.setWidth 16)]

/-- `__gpy211_setup_forced` -/
def setupForced (link : Link) (mstrSlave : BitVec 8) : Api Unit :=
  if !forcedAccepts link then throw EINVAL
  else do
    let anAdv ← phyRead stdAnAdv
    phyWrite stdAnAdv (forcedAnAdv link anAdv)
    let ctrl ← phyRead stdCtrl
    forceSpeed link ctrl
    let gctrl ← phyRead stdGctrl
    phyWrite stdGctrl (msForced mstrSlave gctrl)

/-- `link.autoneg` is cleared whatever comes of it. -/
def gpy2xxSetupForced (link : Link) (mstrSlave : BitVec 8) : Call Unit :=
  locked (setupForced { link with autoneg := 0 } mstrSlave)

/-! ## Restart -/

/-- Negotiation enabled and restarted, the PHY not isolated. -/
def restarted (ctrl : BitVec 16) : BitVec 16 := (ctrl ||| ctrlAnen ||| ctrlAnrs) &&& ~~~ctrlIsol

/-- `__gpy211_restart_aneg`; success sets `link.autoneg`. -/
def restartAneg (link : Link) : Api Link := do
  let ctrl ← phyRead stdCtrl
  phyWrite stdCtrl (restarted ctrl)
  pure { link with autoneg := 1 }

def gpy2xxRestartAneg (link : Link) : Call Link := locked (restartAneg link)

/-- Negotiation is enabled and the PHY is not isolated. -/
def negotiates (ctrl : BitVec 16) : Bool := ctrl &&& ctrlAnen != 0 && ctrl &&& ctrlIsol == 0

/-- `config_aneg` after a `config_advert` that returned 0. -/
def restartIfOff (link : Link) : Api Link := do
  let ctrl ← phyRead stdCtrl
  if negotiates ctrl then pure link else restartAneg link

/-- The body of `gpy2xx_config_aneg`: the link settings it leaves behind. -/
def configAneg (link : Link) (mstrSlave : BitVec 8) : Api Link :=
  if link.autoneg = 0 then do
    setupForced link mstrSlave
    pure link
  else do
    let ret ← configAdvert link
    if ret > 0 then restartAneg link.narrowed else restartIfOff link.narrowed

def gpy2xxConfigAneg (link : Link) (mstrSlave : BitVec 8) : Call Link :=
  locked (configAneg link mstrSlave)

/-! ## Test loops -/

/-- `enum gpy211_test_loop` -/
inductive TestLoop where
  | off
  | netl
  | fetl
  | echo
  | rjtl
  | felts
  | netli
  | other (v : BitVec 32)
deriving DecidableEq, Repr

def TestLoop.code : TestLoop → BitVec 32
  | .off => 0
  | .netl => 1
  | .fetl => 2
  | .echo => 3
  | .rjtl => 4
  | .felts => 5
  | .netli => 8
  | .other v => v

/-- `PHY_CTL1_TLOOP` -/
def ctl1Tloop : Field 16 := ⟨0xE000, 13⟩

/-- What `gpy2xx_loopback_cfg` does itself: true if negotiation is to be restarted. -/
def setTestLoop (tloop : TestLoop) : Api Bool :=
  if tloop.code = TestLoop.netli.code then do
    phySetMaskBits stdCtrl 0 ctrlLb
    pure false
  else do
    phySetMaskBits stdCtrl ctrlLb 0
    phySetMaskBits phyCtl1 ctl1Tloop.mask (ctl1Tloop.set (tloop.code.setWidth 16))
    pure true

/-- The result of the restart is not looked at; what stays of it is `link`. -/
def restartAfterLoop (link : Link) : Bool → Call Link
  | false => pure link
  | true => do
    let ret ← (gpy2xxRestartAneg link).attempt
    match ret with
    | .ok link => pure link
    | .error _ => pure link

def gpy2xxLoopbackCfg (link : Link) (tloop : TestLoop) : Call Link :=
  if tloop.code > TestLoop.netli.code then throw EINVAL
  else bracket (outside (setTestLoop tloop) >>= restartAfterLoop link)

end Gpy2xx
