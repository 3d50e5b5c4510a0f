import MxlUtils.Gphy.Msec.EngineConfig

/- Initialisation of a MACsec engine, `gpy2xx_msec_init_ing_dev` and
   `gpy2xx_msec_init_egr_dev`, and `gpy2xx_macsec_enable`, which runs both. An init
   call detects the engine and reads its number of SAs, then configures it through
   the public configuration calls, all of it between its own lock and unlock. -/
namespace Gpy2xx
open Effect Effect.Lock Bits

/-! ## Detection -/

/-- `EIPI_EIP_160S_I_32_SYSTEM_CONTROL_MODULE_BASE` and the egress base. -/
def systemControlBase : MsecDir → Nat
  | .ingress => 0x00B0FC00
  | .egress => 0x00B2FC00

def eip160Config2 (dir : MsecDir) : Nat := systemControlBase dir + 0x3F4
def eip160Config (dir : MsecDir) : Nat := systemControlBase dir + 0x3F8
def eip160Version (dir : MsecDir) : Nat := systemControlBase dir + 0x3FC

/-- `EIPI_EIP160_EIP62_EIP62_REGISTERS_MODULE_BASE` and the egress base. -/
def eip62Base : MsecDir → Nat
  | .ingress => 0x00B0F400
  | .egress => 0x00B2F400

def eip62ContextCtrl (dir : MsecDir) : Nat := eip62Base dir + 0x8
def eip62SeqNumThreshold (dir : MsecDir) : Nat := eip62Base dir + 0x20
def eip62ContextUpdCtrl (dir : MsecDir) : Nat := eip62Base dir + 0x30
def eip62Version (dir : MsecDir) : Nat := eip62Base dir + 0x3FC

/-- `(_data & 0xFFFFu) == EIP160_NR_CNR` -/
def isEip160 (version : BitVec 32) : Bool := version &&& 0xFFFF == 0x5FA0

/-- `(_data & 0xFFFFu) == EIP62_NR_CNR` -/
def isEip62 (version : BitVec 32) : Bool := version &&& 0xFFFF == 0xC13E

/-- `ingress_only`, `egress_only` of `struct eip160_config2` -/
def onlyBit : MsecDir → Nat
  | .ingress => 24
  | .egress => 25

def eip160Pattern : BitVec 32 := 0xfedcba98
def eip62Pattern : BitVec 32 := 0x89abcdef

/-- The read-and-write test, without the reset after it. -/
def testWord (addr : Nat) (pattern : BitVec 32) : Api Unit := do
  phyMboxWrite addr pattern
  readExpecting addr (· == pattern)

/-- The checks after the version of the EIP-160. -/
def checkEip160 (dir : MsecDir) : Api Unit := do
  readExpecting (eip160Config2 dir) (·.getLsbD (onlyBit dir))
  testWord (trPage0Base dir) eip160Pattern

def detectIngEip160 : Api Unit := do
  readExpecting (eip160Version .ingress) isEip160
  checkEip160 .ingress
  (phyMboxWrite (trPage0Base .ingress) 0).failWith errRet

/-- Egress takes the label for any other version without setting an error. -/
def detectEgrEip160 : Api Unit := do
  let version ← phyMboxRead (eip160Version .egress)
  if isEip160 version then do
    checkEip160 .egress
    phyMboxWrite (trPage0Base .egress) 0
  else pure ()

def detectEip160 : MsecDir → Api Unit
  | .ingress => detectIngEip160
  | .egress => detectEgrEip160

def detectEip62 (dir : MsecDir) : Api Unit := do
  readExpecting (eip62Version dir) isEip62
  testWord (eip62SeqNumThreshold dir) eip62Pattern
  phyMboxWrite (eip62SeqNumThreshold dir) 0

/-! ## Clearing and waiting -/

/-- Only the first word of each record is cleared. -/
def clearTrRam (dir : MsecDir) (nrOfSas : BitVec 8) : Api Unit :=
  (List.range nrOfSas.toNat).forM fun i => phyMboxWrite (trWriteAddr dir (.ofNat 8 i)) 0

def configCtxSize (dir : MsecDir) : Api Unit := do
  let ctxCtrl ← phyMboxRead (eip62ContextCtrl dir)
  phyMboxWrite (eip62ContextCtrl dir) (Field.replace ⟨0x1F, 0⟩ ctxCtrl (.ofNat 32 (maxTrSizeWords dir)))

def configCtxUpd (dir : MsecDir) : Api Unit := phyMboxWrite (eip62ContextUpdCtrl dir) 0x3

/-- `COUNT_SUMMARY_SAx` for every SA. -/
def clearPsaSumm (dir : MsecDir) (nrOfSas : BitVec 8) : Api Unit :=
  mboxWriteWords (statControlBase dir + 0x100) (List.replicate nrOfSas.toNat (saCntMask dir))

/-- Up to `n` reads until `reset_all` is clear; running out of them is no error. -/
def waitResetAll (dir : MsecDir) : (n : Nat) → Api Unit
  | 0 => pure ()
  | n + 1 => do
    let sync ← phyMboxRead (countControlReg dir)
    if sync.getLsbD 0 then waitResetAll dir n else pure ()

/-- `_gpy2xx_msec_check_*_dev_sync_status`, with `EIP160_MAX_SYNC_RETRY_COUNT` -/
def checkDevSyncStatus (dir : MsecDir) : Api Unit := waitResetAll dir 100

/-! ## The calls -/

/-- What an init call does before its first public call: the number of SAs, if the engine is
there. -/
def openEngine (dir : MsecDir) : Api (BitVec 8) := do
  detectEip160 dir
  detectEip62 dir
  let config ← phyMboxRead (eip160Config dir)
  let nrOfSas := config.setWidth 8
  clearTrRam dir nrOfSas
  pure nrOfSas

def initCountControl : CountControl where
  resetAll := 0
  debugAccess := 0
  saturateCntrs := 1
  autoCntrReset := 1
  resetSummary := 0

def initMiscControl (dir : MsecDir) : MiscControl where
  mcLatencyFix := match dir with
    | .ingress => 128
    | .egress => 0
  staticBypass := 0
  nmMacsecEn := 1
  validateFrames := .strict
  sectagAfterVlan := 1

def initNonmatchFca : MsecDir → SaNonmatchFca
  | .ingress => ⟨.allTagged, .drop, .control, 0, .dropAsCrc⟩
  | .egress => ⟨.allTagged, .drop, .common, 0, .dropAsInternal⟩

def initStatsSummary : StatsSummary := ⟨fun _ => 0xFFFFFFFF, 0xFFFFFFFF⟩

def initCountIncen : MsecDir → CountIncen
  | .ingress => ⟨0x7FF, 0, 0x3FFF⟩
  | .egress => ⟨0xF, 0, 0x1F⟩

/-- `_gpy2xx_msec_config_ing_cc_ctrl`; egress has no such step. -/
def configCcCtrl : MsecDir → Call Unit
  | .ingress => gpy2xxMsecConfigIngCcCtrl ⟨1, 1, 0⟩
  | .egress => pure ()

def clearStatsSumm : MsecDir → MsecDevice → Call Unit
  | .ingress, phy => gpy2xxMsecClearIngStatsSumm phy initStatsSummary
  | .egress, phy => gpy2xxMsecClearEgrStatsSumm phy initStatsSummary

/-- From the first public call on; `nrOfSas` is the new `phy->nr_of_sas`, which is returned. -/
def configureEngine (dir : MsecDir) (nrOfSas : BitVec 8) : Call (BitVec 8) := do
  configCountCtrl dir initCountControl
  configCountCtrl dir { initCountControl with resetAll := 1 }
  outside (configCtxSize dir)
  configMiscCtrl dir (initMiscControl dir)
  outside (configCtxUpd dir)
  configSaNm dir .ncp (initNonmatchFca dir)
  configSaNm dir .cp (initNonmatchFca dir)
  configCcCtrl dir
  clearStatsSumm dir ⟨nrOfSas⟩
  outside (clearPsaSumm dir nrOfSas)
  outside (checkDevSyncStatus dir)
  configCountIncen dir (initCountIncen dir)
  pure nrOfSas

def initDev (dir : MsecDir) (phy : Gpy211Device) : Call (BitVec 8) :=
  if !phy.macsecSupported then throw EINVAL
  else bracket (outside (openEngine dir) >>= configureEngine dir)

def gpy2xxMsecInitIngDev : Gpy211Device → Call (BitVec 8) := initDev .ingress

def gpy2xxMsecInitEgrDev : Gpy211Device → Call (BitVec 8) := initDev .egress

/-- `struct gpy211_macsec` -/
structure Gpy211Macsec where
  dropOnCrcErr : BitVec 8
  dropOnPktErr : BitVec 8
  dropOnSecFail : BitVec 8
  classDrop : BitVec 8

/-- `PM_PDI_CFG_GMAC_BYP` or `PM_PDI_CFG_GMACL_BYP`: traffic bypasses the GMACs. -/
def gmacBypassed (pmPdiCfg : BitVec 16) : Bool := pmPdiCfg.getLsbD 0 || pmPdiCfg.getLsbD 1

def pmPdiCfgOf (msecCfg : Gpy211Macsec) (pmPdiCfg : BitVec 16) : BitVec 16 :=
  replaceFields pmPdiCfg [
    (⟨0x4, 2⟩, 0), (⟨0x8, 3⟩, 0), (⟨0x10, 4⟩, 0),
    (⟨0x20, 5⟩, msecCfg.dropOnCrcErr.setWidth 16), (⟨0x40, 6⟩, msecCfg.dropOnPktErr.setWidth 16),
    (⟨0x80, 7⟩, msecCfg.dropOnSecFail.setWidth 16), (⟨0x100, 8⟩, msecCfg.classDrop.setWidth 16)]

/-- The MACsec path taken into use: neither bypassed nor in reset, padding and CRC by the MACs. -/
def enableMacsecPath (phy : Gpy211Device) (msecCfg : Gpy211Macsec) (pmPdiCfg : BitVec 16) :
    Api Unit := do
  phyMboxHwwr (phy.pmBaseAddr + 0x0) (pmPdiCfgOf msecCfg pmPdiCfg)
  let pmGmacfCfg ← phyMboxHwrd (phy.pmBaseAddr + 0x4)
  phyMboxHwwr (phy.pmBaseAddr + 0x4) (Field.replace ⟨0x3, 0⟩ pmGmacfCfg 0)
  let macCfgH ← phyMboxHwrd (phy.gmacfBaseAddr + 0x4)
  phyMboxHwwr (phy.gmacfBaseAddr + 0x4) (replaceFields macCfgH [(⟨0x10, 4⟩, 1), (⟨0x20, 5⟩, 1)])

/-- What `gpy2xx_macsec_enable` does before it initialises the engines; false is a bypass, on which
it takes the label without setting an error. -/
def openMacsecPath (phy : Gpy211Device) (msecCfg : Gpy211Macsec) : Api Bool := do
  let pmPdiCfg ← phyMboxHwrd (phy.pmBaseAddr + 0x0)
  if gmacBypassed pmPdiCfg then pure false
  else do
    enableMacsecPath phy msecCfg pmPdiCfg
    pure true

def initEngines (phy : Gpy211Device) : Bool → Call Unit
  | false => pure ()
  | true => do
    let _ ← gpy2xxMsecInitIngDev phy
    let _ ← gpy2xxMsecInitEgrDev phy

def gpy2xxMacsecEnable (phy : Gpy211Device) (msecCfg : Gpy211Macsec) : Call Unit :=
  if !phy.macsecSupported then throw EINVAL
  else bracket (outside (openMacsecPath phy msecCfg) >>= initEngines phy)

/-! ## What stops an initialisation -/

/-- The answers a detection accepts from the identity registers and the tested words. The version
of the egress EIP-160 is not among them: any value goes on. -/
def expectedAnswer (dir : MsecDir) (a : Nat) : Option (BitVec 32 → Bool) :=
  if a = eip160Config2 dir then some (·.getLsbD (onlyBit dir))
  else if a = trPage0Base dir then some (· == eip160Pattern)
  else if a = eip62Version dir then some isEip62
  else if a = eip62SeqNumThreshold dir then some (· == eip62Pattern)
  else if dir = .ingress ∧ a = eip160Version dir then some isEip160
  else none

/-- An answer that ends the detection: a failed access, or another value than the expected one. -/
def engineRefuses (dir : MsecDir) : Event regSig → Bool
  | ⟨.mboxRead32 a, .ok v⟩ => (expectedAnswer dir a).any fun good => !good v
  | e => refused e

section Refusals
variable {dir : MsecDir} {a : Nat}

theorem failsOn_expected {good : BitVec 32 → Bool} (h : expectedAnswer dir a = some good) :
    Fallible.FailsOn (fun e => engineRefuses dir e) (readExpecting a good) := by
  refine Fallible.GoesOn.access_bind (S := regSig) (o := .mboxRead32 a) (g := id) ?_ ?_ ?_
  · intro c e hc
    obtain rfl : c = .error e := hc
    rfl
  · intro c v hc hP t b hrun
    obtain rfl : c = .ok v := hc
    have hbad : good v = false := by simpa [engineRefuses, h] using hP
    rw [hbad] at hrun
    cases hrun.2
  · intro c v hc hP
    obtain rfl : c = .ok v := hc
    have hgood : good v = true := by simpa [engineRefuses, h] using hP
    rw [if_pos hgood]
    exact Fallible.GoesOn.pure trivial

theorem failsOn_unchecked (h : expectedAnswer dir a = none) :
    Fallible.FailsOn (fun e => engineRefuses dir e) (phyMboxRead a) :=
  Fallible.FailsOn.access fun c => by
    cases c <;> simp [engineRefuses, h, refused, RegOp.succeeded, Except.isOk, Except.toBool]

theorem failsOn_write {v : BitVec 32} :
    Fallible.FailsOn (fun e => engineRefuses dir e) (phyMboxWrite a v) :=
  Fallible.FailsOn.access fun c => by
    cases c <;> simp [engineRefuses, refused, RegOp.succeeded, Except.isOk, Except.toBool]

theorem failsOn_testWord {pattern : BitVec 32} (h : expectedAnswer dir a = some (· == pattern)) :
    Fallible.FailsOn (fun e => engineRefuses dir e) (testWord a pattern) :=
  Fallible.GoesOn.bind failsOn_write fun _ => failsOn_expected h

theorem failsOn_checkEip160 :
    Fallible.FailsOn (fun e => engineRefuses dir e) (checkEip160 dir) := by
  have hconfig2 : expectedAnswer dir (eip160Config2 dir) = some (·.getLsbD (onlyBit dir)) := by
    cases dir <;> rfl
  have htest : expectedAnswer dir (trPage0Base dir) = some (· == eip160Pattern) := by
    cases dir <;> rfl
  exact Fallible.GoesOn.bind (failsOn_expected hconfig2) fun _ => failsOn_testWord htest

theorem failsOn_detectEip160 :
    Fallible.FailsOn (fun e => engineRefuses dir e) (detectEip160 dir) := by
  cases dir with
  | ingress =>
    have hversion : expectedAnswer .ingress (eip160Version .ingress) = some isEip160 := rfl
    exact Fallible.GoesOn.bind (failsOn_expected hversion) fun _ =>
      Fallible.GoesOn.bind failsOn_checkEip160 fun _ => failsOn_write.failWith errRet
  | egress =>
    -- another version skips the checks, it does not end the initialisation
    refine Fallible.GoesOn.bind (failsOn_unchecked rfl) fun version => ?_
    refine Fallible.GoesOn.ite (fun _ => ?_) fun _ => Fallible.GoesOn.pure trivial
    exact Fallible.GoesOn.bind failsOn_checkEip160 fun _ => failsOn_write

theorem failsOn_detectEip62 :
    Fallible.FailsOn (fun e => engineRefuses dir e) (detectEip62 dir) := by
  have hversion : expectedAnswer dir (eip62Version dir) = some isEip62 := by
    cases dir <;> rfl
  have htest : expectedAnswer dir (eip62SeqNumThreshold dir) = some (· == eip62Pattern) := by
    cases dir <;> rfl
  exact Fallible.GoesOn.bind (failsOn_expected hversion) fun _ =>
    Fallible.GoesOn.bind (failsOn_testWord htest) fun _ => failsOn_write

/-- An engine that refuses nothing is opened, and no other. -/
theorem failsOn_openEngine :
    Fallible.FailsOn (fun e => engineRefuses dir e) (openEngine dir) := by
  have hconfig : expectedAnswer dir (eip160Config dir) = none := by
    cases dir <;> rfl
  exact Fallible.GoesOn.bind failsOn_detectEip160 fun _ =>
    Fallible.GoesOn.bind failsOn_detectEip62 fun _ =>
      Fallible.GoesOn.bind (failsOn_unchecked hconfig) fun _ =>
        Fallible.GoesOn.bind (Fallible.FailsOn.forM (fun _ => failsOn_write) _) fun _ =>
          Fallible.GoesOn.pure trivial

end Refusals

/-- The answers that keep `macsec_enable` from initialising the engines: a failed access, or a bypass
in the first register it reads. -/
def pathStops : RegTrace → Bool
  | ⟨.mboxRead16 _, .ok pmPdiCfg⟩ :: acc => gmacBypassed pmPdiCfg || acc.any refused
  | acc => acc.any refused

theorem failsOn_enableMacsecPath {phy : Gpy211Device} {msecCfg : Gpy211Macsec} {v : BitVec 16} :
    Fallible.FailsOn (fun e => refused e) (enableMacsecPath phy msecCfg v) :=
  Fallible.GoesOn.bind failsOn_phyMboxHwwr fun _ =>
    Fallible.GoesOn.bind failsOn_phyMboxHwrd fun _ =>
      Fallible.GoesOn.bind failsOn_phyMboxHwwr fun _ =>
        Fallible.GoesOn.bind failsOn_phyMboxHwrd fun _ => failsOn_phyMboxHwwr

/-- The path is opened by the runs that `pathStops` does not stop. -/
theorem openMacsecPath_true_iff {phy : Gpy211Device} {msecCfg : Gpy211Macsec} {acc : RegTrace}
    {c : Except Errno Bool} (h : (openMacsecPath phy msecCfg).Runs acc c) :
    (∃ b, c = .ok b ∧ b = true) ↔ pathStops acc = false := by
  rcases (runs_phyMboxHwrd_bind).mp h with ⟨e, rfl, rfl⟩ | ⟨v, acc', rfl, hrest⟩
  · simp [pathStops, refused, RegOp.succeeded, Except.isOk, Except.toBool]
  · cases hbypass : gmacBypassed v with
    | true =>
      rw [if_pos hbypass] at hrest
      rw [(Fallible.runs_pure.mp hrest).2]
      simp [pathStops, hbypass]
    | false =>
      rw [if_neg (by simp [hbypass])] at hrest
      have hgo : Fallible.GoesOn (fun e => refused e) (· = true)
          (enableMacsecPath phy msecCfg v >>= fun _ => pure true) :=
        Fallible.GoesOn.bind failsOn_enableMacsecPath fun _ => Fallible.GoesOn.pure rfl
      rw [hgo acc' c hrest]
      simp [pathStops, hbypass]

end Gpy2xx
