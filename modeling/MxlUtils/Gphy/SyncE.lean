import MxlUtils.Gphy.Link
import MxlUtils.Gphy.Ptp.AuxFifo
import MxlUtils.Gphy.Ptp.Pps

/- Synchronous Ethernet. A configuration is spread over the negotiation, power
   management, GPIO, clock and master/slave registers. The clock register names
   the GPC of a master only: a slave's is cleared there, with the mask of one
   family on both, and that is where `gpy2xx_synce_get` looks. -/
namespace Gpy2xx
open Effect Effect.Fallible Effect.Lock Bits

/-! ## Registers -/

/-- `VSPEC1_PM_CTRL` and its fields. -/
def pmCtrl : Nat := 0xC
def pmCtrlSynceEn : Field 16 := ⟨0x10, 4⟩
def pmCtrlSynceClk : Field 16 := ⟨0x60, 5⟩

/-- `ANEG_MGBT_AN_CTRL_AB_2G5BT_MASK` -/
def mgbtAb2g5bt : BitVec 16 := 0x80

/-- `GPIO_DIR`, `GPIO_ALTSEL0`, `GPIO_ALTSEL1` -/
def gpioDir : Nat := 0xD3CE08
def gpioAltsel0 : Nat := 0xD3CE0C
def gpioAltsel1 : Nat := 0xD3CE10

/-- `CGU_PDI_SYNCE_CONF_SCLK_SEL`, and the field of the family. -/
def cguSclkSel : Field 16 := ⟨0x3, 0⟩
def sclkSel (family : Family) : Field 16 := if family = .p34x then ⟨0x7, 0⟩ else cguSclkSel

/-- `CGU_PDI_GPC0_OUT_CONF` or `CGU_PDI_GPC0_CONF`, and what follows for the other GPCs. -/
def gpcConf (family : Family) (gpcSel : BitVec 32) : Nat :=
  (if family = .p34x then 0xD29000 else 0xD29008) + (gpcSel.toNat - 1) * 4

/-- `CGU_PDI_GPC1_CONF_SEL` -/
def gpcConfSel : Field 16 := ⟨0x7, 0⟩

/-- `enum gpy211_synce_master_mode` -/
def synceSlave : BitVec 32 := 0
def synceMaster : BitVec 32 := 1

/-- `enum gpy211_data_rate` -/
def synce1g : BitVec 32 := 0
def synce2g5 : BitVec 32 := 1

/-- `struct gpy211_synce`. An enumeration holds whatever the caller puts there. -/
@[ext] structure Synce where
  synceEnable : BitVec 8
  synceRefclk : BitVec 32
  masterSel : BitVec 32
  dataRate : BitVec 32
  gpcSel : BitVec 32
deriving DecidableEq

/-- The device, with what initialisation found out about SyncE. -/
structure SynceDevice extends Gpy211Device where
  synceSupported : Bool

/-! ## Setting the configuration -/

/-- The checks: of the enable flag and the master mode there is none. -/
def synceAccepts (family : Family) (synce : Synce) : Prop :=
  synce.synceRefclk.toNat ≤ 2 ∧ synce.dataRate.toNat ≤ 1 ∧
    gpcMin family ≤ synce.gpcSel.toNat ∧ synce.gpcSel.toNat ≤ 3

instance (family : Family) (synce : Synce) : Decidable (synceAccepts family synce) :=
  inferInstanceAs (Decidable (_ ∧ _))

def setDataRate (synce : Synce) : Api Unit :=
  if synce.dataRate = synce1g then phySetMaskMmdBits .an anegMgbtAnCtrl mgbtAb2g5bt 0
  else phySetMaskMmdBits .an anegMgbtAnCtrl 0 mgbtAb2g5bt

/-- `VSPEC1_PM_CTRL` with the flag and the clock. -/
def pmWord (synce : Synce) (ctrl : BitVec 16) : BitVec 16 :=
  replaceFields ctrl [(pmCtrlSynceEn, synce.synceEnable.setWidth 16),
    (pmCtrlSynceClk, synce.synceRefclk.setWidth 16)]

def setPm (synce : Synce) : Api Unit := do
  let ctrl ← phyReadMmd .vend1 pmCtrl
  phyWriteMmd .vend1 pmCtrl (pmWord synce ctrl)

/-- The bit of the pin in a GPIO register: an input for a master. -/
def dirWord (family : Family) (synce : Synce) (dir : BitVec 16) : BitVec 16 :=
  let pin := 1#16 <<< gpcPin family synce.gpcSel
  if synce.masterSel = synceMaster then dir &&& ~~~pin else dir ||| pin

def altsel0Word (family : Family) (synce : Synce) (altsel0 : BitVec 16) : BitVec 16 :=
  let pin := 1#16 <<< gpcPin family synce.gpcSel
  if family = .p31g then altsel0 &&& ~~~pin else altsel0 ||| pin

def altsel1Word (family : Family) (synce : Synce) (altsel1 : BitVec 16) : BitVec 16 :=
  altsel1 ||| 1#16 <<< gpcPin family synce.gpcSel

def routeSynce (family : Family) (synce : Synce) : Api Unit := do
  let dir ← phyMboxHwrd gpioDir
  let altsel0 ← phyMboxHwrd gpioAltsel0
  let altsel1 ← phyMboxHwrd gpioAltsel1
  phyMboxHwwr gpioDir (dirWord family synce dir)
  phyMboxHwwr gpioAltsel0 (altsel0Word family synce altsel0)
  phyMboxHwwr gpioAltsel1 (altsel1Word family synce altsel1)

/-- The clock of a master comes from its GPC. Any other mode clears the field, under the mask that
P34X does not have. -/
def synceConfWord (family : Family) (synce : Synce) (conf : BitVec 16) : BitVec 16 :=
  if synce.masterSel = synceMaster then (sclkSel family).replace conf (synce.gpcSel.setWidth 16)
  else cguSclkSel.replace conf 0

def setSclk (family : Family) (synce : Synce) : Api Unit := do
  let conf ← phyMboxHwrd (synceConf family).1
  phyMboxHwwr (synceConf family).1 (synceConfWord family synce conf)

/-- The GPC of a slave is driven by the PHY. -/
def setGpcConf (family : Family) (synce : Synce) : Api Unit :=
  if synce.masterSel = synceSlave then do
    let sel ← phyMboxHwrd (gpcConf family synce.gpcSel)
    phyMboxHwwr (gpcConf family synce.gpcSel) (gpcConfSel.replace sel 0)
  else pure ()

/-- `STD_GCTRL` with the master mode, set by hand. -/
def msWord (synce : Synce) (gctrl : BitVec 16) : BitVec 16 :=
  replaceFields gctrl [(gctrlMsen, 1), (gctrlMs, synce.masterSel.setWidth 16)]

def setMs (synce : Synce) : Api Unit := do
  let gctrl ← phyRead stdGctrl
  phyWrite stdGctrl (msWord synce gctrl)

/-- Under the lock; the link settings are those of the restart. -/
def setSynce (family : Family) (link : Link) (synce : Synce) : Api Link := do
  setDataRate synce
  setPm synce
  routeSynce family synce
  setSclk family synce
  setGpcConf family synce
  setMs synce
  restartAneg link

def gpy2xxSynceCfg (phy : SynceDevice) (link : Link) (synce : Synce) : Call Link :=
  if phy.synceSupported = false then throw EINVAL
  else if ¬synceAccepts phy.family synce then throw EINVAL
  else locked (setSynce phy.family link synce)

/-! ## Getting it -/

def readSynce (family : Family) : Api Synce := do
  let ctrl ← phyReadMmd .vend1 pmCtrl
  let gctrl ← phyRead stdGctrl
  let mgbt ← phyReadMmd .an anegMgbtAnCtrl
  let conf ← phyMboxHwrd (synceConf family).1
  pure {
    synceEnable := (pmCtrlSynceEn.get ctrl).setWidth 8
    synceRefclk := (pmCtrlSynceClk.get ctrl).setWidth 32
    masterSel := (gctrlMs.get gctrl).setWidth 32
    dataRate := if mgbt &&& mgbtAb2g5bt > 0 then synce2g5 else synce1g
    gpcSel := ((sclkSel family).get conf).setWidth 32 }

def gpy2xxSynceGet (phy : SynceDevice) : Call Synce :=
  if phy.synceSupported = false then throw EINVAL else locked (readSynce phy.family)

/-! ## The calls on registers that are memory -/

section Exec
variable {phy : SynceDevice} {family : Family} {link : Link} {synce : Synce} {s : Regs}

/-- The mailbox after the GPIO registers are written. -/
def afterRoute (family : Family) (synce : Synce) (m : Mem) : Mem :=
  ((m.store16 gpioDir (dirWord family synce (m.load16 gpioDir))).store16 gpioAltsel0
    (altsel0Word family synce (m.load16 gpioAltsel0))).store16 gpioAltsel1
    (altsel1Word family synce (m.load16 gpioAltsel1))

def afterSclk (family : Family) (synce : Synce) (m : Mem) : Mem :=
  m.store16 (synceConf family).1 (synceConfWord family synce (m.load16 (synceConf family).1))

def afterGpcConf (family : Family) (synce : Synce) (m : Mem) : Mem :=
  if synce.masterSel = synceSlave then
    m.store16 (gpcConf family synce.gpcSel) (gpcConfSel.replace (m.load16 (gpcConf family synce.gpcSel)) 0)
  else m

/-- The multi-gigabit register after the rate is set. -/
def mgbtWord (synce : Synce) (mgbt : BitVec 16) : BitVec 16 :=
  if synce.dataRate = synce1g then mgbt &&& ~~~mgbtAb2g5bt else mgbt ||| mgbtAb2g5bt

/-- The registers after an accepted call. -/
def afterSynce (family : Family) (synce : Synce) (s : Regs) : Regs := { s with
  phy := writes s.phy [(stdGctrl, msWord synce (s.phy stdGctrl)), (stdCtrl, restarted (s.phy stdCtrl))]
  mmd := writes s.mmd
    [(.an, Function.update (s.mmd .an) anegMgbtAnCtrl (mgbtWord synce (s.mmd .an anegMgbtAnCtrl))),
      (.vend1, Function.update (s.mmd .vend1) pmCtrl (pmWord synce (s.mmd .vend1 pmCtrl)))]
  mbox := afterGpcConf family synce (afterSclk family synce (afterRoute family synce s.mbox)) }

theorem exec_setDataRate : (setDataRate synce).exec memHandler s = (.ok (), { s with
    mmd := Function.update s.mmd .an
      (Function.update (s.mmd .an) anegMgbtAnCtrl (mgbtWord synce (s.mmd .an anegMgbtAnCtrl))) }) := by
  rw [setDataRate, exec_ite, mgbtWord]
  by_cases hrate : synce.dataRate = synce1g
  · rw [if_pos hrate, if_pos hrate, exec_phySetMaskMmdBits]
    simp
  · rw [if_neg hrate, if_neg hrate, exec_phySetMaskMmdBits_zero]

theorem exec_routeSynce : (routeSynce family synce).exec memHandler s =
    (.ok (), { s with mbox := afterRoute family synce s.mbox }) := by
  simp [routeSynce, exec_bind, afterRoute]

theorem exec_setGpcConf : (setGpcConf family synce).exec memHandler s =
    (.ok (), { s with mbox := afterGpcConf family synce s.mbox }) := by
  rw [setGpcConf, exec_ite, afterGpcConf]
  by_cases hslave : synce.masterSel = synceSlave
  · rw [if_pos hslave, if_pos hslave]
    simp [exec_bind]
  · rw [if_neg hslave, if_neg hslave]
    rfl

theorem exec_setMs : (setMs synce).exec memHandler s =
    (.ok (), { s with phy := Function.update s.phy stdGctrl (msWord synce (s.phy stdGctrl)) }) := rfl

theorem exec_restartAneg : (restartAneg link).exec memHandler s = (.ok { link with autoneg := 1 },
    { s with phy := Function.update s.phy stdCtrl (restarted (s.phy stdCtrl)) }) := rfl

theorem exec_setSynce : (setSynce family link synce).exec memHandler s =
    (.ok { link with autoneg := 1 }, afterSynce family synce s) := by
  simp [setSynce, exec_bind, exec_setDataRate, setPm, exec_routeSynce, setSclk, exec_setGpcConf,
    exec_setMs, exec_restartAneg, afterSynce, afterSclk, writes, stdCtrl, stdGctrl]

theorem exec_gpy2xxSynceCfg : (gpy2xxSynceCfg phy link synce).exec lockedMem s =
    if phy.synceSupported = true ∧ synceAccepts phy.family synce then
      (.ok { link with autoneg := 1 }, afterSynce phy.family synce s)
    else (.error EINVAL, s) := by
  rw [gpy2xxSynceCfg]
  by_cases hsup : phy.synceSupported = true
  · by_cases hacc : synceAccepts phy.family synce
    · rw [if_neg (by simp [hsup]), if_neg (not_not.mpr hacc), exec_locked, exec_setSynce,
        if_pos ⟨hsup, hacc⟩]
    · rw [if_neg (by simp [hsup]), if_pos hacc, if_neg fun h => hacc h.2]
      rfl
  · rw [if_pos (by simpa using hsup), if_neg fun h => hsup h.1]
    rfl

/-- What the registers show. -/
def shownSynce (family : Family) (s : Regs) : Synce where
  synceEnable := (pmCtrlSynceEn.get (s.mmd .vend1 pmCtrl)).setWidth 8
  synceRefclk := (pmCtrlSynceClk.get (s.mmd .vend1 pmCtrl)).setWidth 32
  masterSel := (gctrlMs.get (s.phy stdGctrl)).setWidth 32
  dataRate := if s.mmd .an anegMgbtAnCtrl &&& mgbtAb2g5bt > 0 then synce2g5 else synce1g
  gpcSel := ((sclkSel family).get (s.mbox.load16 (synceConf family).1)).setWidth 32

theorem exec_gpy2xxSynceGet (hsup : phy.synceSupported = true) :
    (gpy2xxSynceGet phy).exec lockedMem s = (.ok (shownSynce phy.family s), s) := by
  rw [gpy2xxSynceGet, if_neg (by simp [hsup]), exec_locked]
  rfl

end Exec

/-! ## What a call leaves -/

section After
variable {family : Family} {synce : Synce} {s : Regs} {m : Mem}

theorem load16_afterRoute (addr : Nat) (h : addr + 2 ≤ gpioDir ∨ gpioAltsel1 + 2 ≤ addr) :
    (afterRoute family synce m).load16 addr = m.load16 addr := by
  have hdir : gpioDir = 0xD3CE08 := rfl
  have halt0 : gpioAltsel0 = 0xD3CE0C := rfl
  have halt1 : gpioAltsel1 = 0xD3CE10 := rfl
  rw [afterRoute, Mem.load16_store16_of_disjoint (by omega), Mem.load16_store16_of_disjoint (by omega),
    Mem.load16_store16_of_disjoint (by omega)]

/-- The GPC registers of the family are apart from its clock register and from the GPIO registers. -/
theorem gpcConf_bounds (hacc : synceAccepts family synce) :
    gpcConf family synce.gpcSel + 2 ≤ gpioDir ∧
      ((synceConf family).1 + 2 ≤ gpcConf family synce.gpcSel ∨
        gpcConf family synce.gpcSel + 2 ≤ (synceConf family).1) := by
  have hgpc := hacc.2.2
  have hdir : gpioDir = 0xD3CE08 := rfl
  rw [gpcMin] at hgpc
  rw [gpcConf, synceConf]
  split at hgpc <;> simp [*] <;> omega

theorem synceConf_bound (family : Family) : (synceConf family).1 + 2 ≤ gpioDir := by
  rw [synceConf]
  split <;> decide

/-- The clock register holds what was put there, whatever was written after it. -/
theorem load16_synceConf_after (hacc : synceAccepts family synce) :
    (afterSynce family synce s).mbox.load16 (synceConf family).1 =
      synceConfWord family synce (s.mbox.load16 (synceConf family).1) := by
  have hsclk : (afterSclk family synce (afterRoute family synce s.mbox)).load16 (synceConf family).1 =
      synceConfWord family synce (s.mbox.load16 (synceConf family).1) := by
    rw [afterSclk, Mem.load16_store16_same, load16_afterRoute _ (.inl (synceConf_bound family))]
  rw [afterSynce, ← hsclk, afterGpcConf]
  by_cases hslave : synce.masterSel = synceSlave
  · simp only [hslave, if_true]
    exact Mem.load16_store16_of_disjoint (gpcConf_bounds hacc).2
  · simp only [hslave, if_false]

/-- A GPIO register is not written after `routeSynce`. -/
theorem load16_gpio_after (hacc : synceAccepts family synce) {addr : Nat} (h : gpioDir ≤ addr) :
    (afterSynce family synce s).mbox.load16 addr = (afterRoute family synce s.mbox).load16 addr := by
  have hsclk : (afterSclk family synce (afterRoute family synce s.mbox)).load16 addr =
      (afterRoute family synce s.mbox).load16 addr := by
    have hbound := synceConf_bound family
    rw [afterSclk, Mem.load16_store16_of_disjoint (by omega)]
  have hbound := (gpcConf_bounds hacc).1
  rw [afterSynce, ← hsclk, afterGpcConf]
  by_cases hslave : synce.masterSel = synceSlave
  · simp only [hslave, if_true]
    exact Mem.load16_store16_of_disjoint (by omega)
  · simp only [hslave, if_false]

/-! ### The GPIO registers -/

/-- Only the bit at `pin` differs. -/
def OnlyPin (pin : Nat) (old new : BitVec 16) : Prop := ∀ i, i ≠ pin → new.getLsbD i = old.getLsbD i

theorem onlyPin_set (pin : Nat) (old : BitVec 16) : OnlyPin pin old (old ||| 1#16 <<< pin) :=
  fun _ hi => getLsbD_setBit_of_ne hi

theorem onlyPin_clear (pin : Nat) (old : BitVec 16) : OnlyPin pin old (old &&& ~~~(1#16 <<< pin)) :=
  fun _ hi => getLsbD_clearBit_of_ne hi

/-- In the direction and alternate-function registers only the pin of the GPC changes. -/
theorem onlyPin_afterSynce (hacc : synceAccepts family synce) {addr : Nat}
    (h : addr = gpioDir ∨ addr = gpioAltsel0 ∨ addr = gpioAltsel1) :
    OnlyPin (gpcPin family synce.gpcSel) (s.mbox.load16 addr)
      ((afterSynce family synce s).mbox.load16 addr) := by
  have hdir : gpioDir = 0xD3CE08 := rfl
  have halt0 : gpioAltsel0 = 0xD3CE0C := rfl
  have halt1 : gpioAltsel1 = 0xD3CE10 := rfl
  rw [load16_gpio_after hacc (by omega), afterRoute]
  rcases h with h | h | h
  · rw [h, Mem.load16_store16_of_disjoint (by omega), Mem.load16_store16_of_disjoint (by omega),
      Mem.load16_store16_same, dirWord]
    split
    · exact onlyPin_clear _ _
    · exact onlyPin_set _ _
  · rw [h, Mem.load16_store16_of_disjoint (by omega), Mem.load16_store16_same, altsel0Word]
    split
    · exact onlyPin_clear _ _
    · exact onlyPin_set _ _
  · rw [h, Mem.load16_store16_same]
    exact onlyPin_set _ _

/-! ### The fields -/

theorem shown_synceEnable : (shownSynce family (afterSynce family synce s)).synceEnable =
    synce.synceEnable &&& 1 := by
  have hget : ∀ ctrl, pmCtrlSynceEn.get (pmWord synce ctrl) = synce.synceEnable.setWidth 16 &&& 1#16 :=
    fun ctrl => @get_replaceFields_low _ 1 pmCtrlSynceEn ctrl _ _ (by decide)
      (by simp [pmCtrlSynceEn, pmCtrlSynceClk])
  simp [shownSynce, afterSynce, writes, hget]

theorem shown_synceRefclk (hacc : synceAccepts family synce) :
    (shownSynce family (afterSynce family synce s)).synceRefclk = synce.synceRefclk := by
  have hclk := hacc.1
  have hlt : (synce.synceRefclk.setWidth 16).toNat < 2 ^ 2 := by
    rw [BitVec.toNat_setWidth]
    omega
  have hget : ∀ ctrl, pmCtrlSynceClk.get (pmWord synce ctrl) = synce.synceRefclk.setWidth 16 :=
    fun _ => get_replaceFields_skip fun _ => get_replaceFields_cons (by decide) hlt (by simp)
  simp only [shownSynce, afterSynce, writes, List.foldl_cons, List.foldl_nil, Function.update_self, hget]
  exact setWidth_setWidth_of_lt (by omega)

theorem shown_masterSel : (shownSynce family (afterSynce family synce s)).masterSel =
    synce.masterSel &&& 1 := by
  have hget : ∀ gctrl, gctrlMs.get (msWord synce gctrl) = synce.masterSel.setWidth 16 &&& 1#16 :=
    fun _ => get_replaceFields_skip fun word =>
      @get_replaceFields_low _ 1 gctrlMs word _ [] (by decide) (by simp)
  have hgctrl : (afterSynce family synce s).phy stdGctrl = msWord synce (s.phy stdGctrl) := by
    simp [afterSynce, writes, stdGctrl, stdCtrl]
  rw [shownSynce, hgctrl, hget]
  apply BitVec.eq_of_getLsbD_eq
  intro i hi
  by_cases hlow : i = 0
  · simp [hlow]
  · simp [BitVec.getLsbD_one, hlow]

theorem shown_dataRate (hacc : synceAccepts family synce) :
    (shownSynce family (afterSynce family synce s)).dataRate = synce.dataRate := by
  have hmgbt : (afterSynce family synce s).mmd .an anegMgbtAnCtrl =
      mgbtWord synce (s.mmd .an anegMgbtAnCtrl) := by
    simp [afterSynce, writes]
  simp only [shownSynce, hmgbt, mgbtWord]
  by_cases hrate : synce.dataRate = synce1g
  · rw [if_pos hrate, BitVec.and_assoc, BitVec.and_comm (~~~mgbtAb2g5bt), BitVec.and_not_self]
    simp [hrate]
  · have hone : synce.dataRate = synce2g5 := by
      have hne : synce.dataRate.toNat ≠ 0 := fun h => hrate (BitVec.eq_of_toNat_eq h)
      have hle := hacc.2.1
      exact BitVec.eq_of_toNat_eq (show synce.dataRate.toNat = 1 by omega)
    rw [if_neg hrate, BitVec.and_or_distrib_right, BitVec.and_self]
    have habsorb : s.mmd .an anegMgbtAnCtrl &&& mgbtAb2g5bt ||| mgbtAb2g5bt = mgbtAb2g5bt := by
      apply BitVec.eq_of_getLsbD_eq
      intro i _
      rw [BitVec.getLsbD_or, BitVec.getLsbD_and]
      cases mgbtAb2g5bt.getLsbD i <;> simp
    rw [habsorb, if_pos (by decide), hone]

/-- The GPC of a master is shown. Any other mode clears the two bits that every GPC has one of. -/
theorem shown_gpcSel (hacc : synceAccepts family synce) :
    (shownSynce family (afterSynce family synce s)).gpcSel = synce.gpcSel ↔
      synce.masterSel = synceMaster := by
  have hshown : (shownSynce family (afterSynce family synce s)).gpcSel = ((sclkSel family).get
      (synceConfWord family synce (s.mbox.load16 (synceConf family).1))).setWidth 32 := by
    rw [shownSynce, load16_synceConf_after hacc]
  have hle := hacc.2.2.2
  have hpos : 0 < synce.gpcSel.toNat := by
    have hmin := hacc.2.2.1
    rw [gpcMin] at hmin
    split at hmin <;> omega
  rw [hshown]
  constructor
  · intro hsel
    by_contra hmode
    have hlow : ∀ conf, (sclkSel family).get conf &&& 3 = cguSclkSel.get conf := by
      intro conf
      rw [sclkSel]
      split
      · simp only [Field.get, cguSclkSel, BitVec.ushiftRight_zero, BitVec.and_assoc]
        rfl
      · simp only [Field.get, cguSclkSel, BitVec.ushiftRight_zero, BitVec.and_assoc]
        rfl
    have hzero : cguSclkSel.get (synceConfWord family synce (s.mbox.load16 (synceConf family).1)) = 0 := by
      rw [synceConfWord, if_neg hmode]
      exact Field.get_replace (show Field.Spans cguSclkSel 2 by decide) (by decide)
    have hbits : synce.gpcSel &&& 3 = 0 := by
      calc synce.gpcSel &&& 3
          = ((sclkSel family).get (synceConfWord family synce _) &&& 3).setWidth 32 := by
            rw [← hsel, BitVec.setWidth_and]
            rfl
        _ = 0 := by rw [hlow, hzero]; rfl
    have hmod : synce.gpcSel.toNat % 2 ^ 2 = 0 := by
      rw [← Nat.and_two_pow_sub_one_eq_mod]
      exact congrArg BitVec.toNat hbits
    omega
  · intro hmode
    have hlt : (synce.gpcSel.setWidth 16).toNat < 2 ^ 2 := by
      rw [BitVec.toNat_setWidth]
      omega
    rw [synceConfWord, if_pos hmode]
    have hget : ∀ conf, (sclkSel family).get ((sclkSel family).replace conf (synce.gpcSel.setWidth 16)) =
        synce.gpcSel.setWidth 16 := by
      intro conf
      rw [sclkSel]
      split
      · exact Field.get_replace (show Field.Spans ⟨0x7, 0⟩ 3 by decide) (by omega)
      · exact Field.get_replace (show Field.Spans cguSclkSel 2 by decide) hlt
    rw [hget]
    exact setWidth_setWidth_of_lt (by omega)

end After

/-! ## The round trip -/

section RoundTrip
variable {phy : SynceDevice} {link : Link} {synce : Synce} {s : Regs}

/-- The registers after a call. -/
def afterSynceCfg (phy : SynceDevice) (link : Link) (synce : Synce) (s : Regs) : Regs :=
  ((gpy2xxSynceCfg phy link synce).exec lockedMem s).2

/-- The call succeeds. -/
def SynceAccepted (phy : SynceDevice) (link : Link) (synce : Synce) (s : Regs) : Prop :=
  ((gpy2xxSynceCfg phy link synce).exec lockedMem s).1.isOk = true

/-- The configuration is read back. -/
def SynceReadBack (phy : SynceDevice) (link : Link) (synce : Synce) (s : Regs) : Prop :=
  ((gpy2xxSynceGet phy).exec lockedMem (afterSynceCfg phy link synce s)).1 = .ok synce

theorem synceAccepted_iff : SynceAccepted phy link synce s ↔
    phy.synceSupported = true ∧ synceAccepts phy.family synce := by
  rw [SynceAccepted, exec_gpy2xxSynceCfg]
  by_cases h : phy.synceSupported = true ∧ synceAccepts phy.family synce
  · rw [if_pos h]
    exact ⟨fun _ => h, fun _ => rfl⟩
  · rw [if_neg h]
    exact ⟨fun hok => (by cases hok), fun hacc => absurd hacc h⟩

theorem le_one_iff_and_one {v : BitVec 8} : v &&& 1 = v ↔ v ≤ 1 := by
  have hmod : (v &&& 1).toNat = v.toNat % 2 ^ 1 := Nat.and_two_pow_sub_one_eq_mod v.toNat 1
  rw [← BitVec.toNat_inj, hmod, BitVec.le_def]
  have hone : (1 : BitVec 8).toNat = 1 := rfl
  omega

/-- **The SyncE configuration.** An accepted configuration is read back if and only if it is that of
a master and its flag is 0 or 1; in the direction and alternate-function registers it changes only
the bit of its own pin. -/
theorem synce_read_back_iff (phy : SynceDevice) (link : Link) (synce : Synce) (s : Regs)
    (hacc : SynceAccepted phy link synce s) :
    (SynceReadBack phy link synce s ↔ synce.masterSel = synceMaster ∧ synce.synceEnable ≤ 1) ∧
    ∀ addr, addr = gpioDir ∨ addr = gpioAltsel0 ∨ addr = gpioAltsel1 →
      OnlyPin (gpcPin phy.family synce.gpcSel) (s.mbox.load16 addr)
        ((afterSynceCfg phy link synce s).mbox.load16 addr) := by
  obtain ⟨hsup, haccepts⟩ := (synceAccepted_iff).mp hacc
  have hafter : afterSynceCfg phy link synce s = afterSynce phy.family synce s := by
    rw [afterSynceCfg, exec_gpy2xxSynceCfg, if_pos ⟨hsup, haccepts⟩]
  refine ⟨?_, fun addr haddr => ?_⟩
  · have hshown : SynceReadBack phy link synce s ↔
        shownSynce phy.family (afterSynce phy.family synce s) = synce := by
      rw [SynceReadBack, hafter, exec_gpy2xxSynceGet hsup]
      exact ⟨Except.ok.inj, congrArg Except.ok⟩
    rw [hshown]
    constructor
    · intro heq
      have hmode : synce.masterSel = synceMaster := (shown_gpcSel haccepts).mp (congrArg Synce.gpcSel heq)
      have hflag : synce.synceEnable &&& 1 = synce.synceEnable :=
        shown_synceEnable.symm.trans (congrArg Synce.synceEnable heq)
      exact ⟨hmode, (le_one_iff_and_one).mp hflag⟩
    · intro h
      have hmode : synce.masterSel &&& 1 = synce.masterSel := by
        rw [h.1]
        rfl
      calc shownSynce phy.family (afterSynce phy.family synce s)
          = ⟨synce.synceEnable, synce.synceRefclk, synce.masterSel, synce.dataRate, synce.gpcSel⟩ :=
            Synce.ext (shown_synceEnable.trans (le_one_iff_and_one.mpr h.2)) (shown_synceRefclk haccepts)
              (shown_masterSel.trans hmode) (shown_dataRate haccepts) ((shown_gpcSel haccepts).mpr h.1)
        _ = synce := rfl
  · rw [hafter]
    exact onlyPin_afterSynce haccepts haddr

end RoundTrip

/-- A quad PHY at address 0 that has SyncE, and its link. -/
def synceQuad : SynceDevice := ⟨⟨⟨0⟩, .p34x, 0, false, 0, 0, 0, 0⟩, true⟩
def idleLink : Link := ⟨0, 0, 0, 0, 0, 0, 0⟩

/-- SyncE at 2.5 Gbps with GPC1, as a master and as a slave. -/
def masterSynce : Synce := ⟨1, 2, synceMaster, synce2g5, 2⟩
def slaveSynce : Synce := ⟨1, 2, synceSlave, synce2g5, 2⟩

/-- Every accepted configuration is read back. -/
def SynceRoundTrips (phy : SynceDevice) : Prop :=
  ∀ link synce s, SynceAccepted phy link synce s → SynceReadBack phy link synce s

theorem synceReadBack_masterSynce : SynceReadBack synceQuad idleLink masterSynce (zeroRegs true) :=
  (synce_read_back_iff synceQuad idleLink masterSynce (zeroRegs true)
    (synceAccepted_iff.mpr ⟨rfl, by decide⟩)).1.mpr (by decide)

/-- The slave's GPC is not read back. -/
theorem not_synceRoundTrips : ¬SynceRoundTrips synceQuad := by
  intro h
  have hacc : synceAccepts .p34x slaveSynce := by decide
  have hback := h idleLink slaveSynce (zeroRegs true) (synceAccepted_iff.mpr ⟨rfl, hacc⟩)
  rw [SynceReadBack, afterSynceCfg, exec_gpy2xxSynceCfg, if_pos ⟨rfl, hacc⟩, exec_gpy2xxSynceGet rfl] at hback
  have hsel := (shown_gpcSel hacc).mp (congrArg Synce.gpcSel (Except.ok.inj hback))
  exact absurd hsel (by decide)

end Gpy2xx
