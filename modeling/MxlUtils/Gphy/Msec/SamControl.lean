import MxlUtils.Gphy.Msec.SamRule
import MxlUtils.Gphy.Chip

/- The SAM calls beside the rules: the flow control action of an entry, and the
   enable flags of the entries, written as one word each (`eex`, `eef`) or through
   the control register (`eec`). Every one of them rejects its arguments before it
   takes the lock, or leaves through the label that unlocks. -/
namespace Gpy2xx
open Effect Effect.Lock Bits
open Bits.Mem (rawWords)

/-! ## Flow control actions -/

/-- `enum sam_fca_ft` -/
inductive SamFcaFt where
  | bypass
  | drop
  | ingress
  | egress
  | other (v : BitVec 32)
deriving DecidableEq, Repr

def SamFcaFt.code : SamFcaFt → BitVec 32
  | .bypass => 0
  | .drop => 1
  | .ingress => 2
  | .egress => 3
  | .other v => v

/-- `enum sam_fca_dpt` -/
inductive SamFcaDpt where
  | common
  | res
  | control
  | uncontrol
  | other (v : BitVec 32)
deriving DecidableEq, Repr

def SamFcaDpt.code : SamFcaDpt → BitVec 32
  | .common => 0
  | .res => 1
  | .control => 2
  | .uncontrol => 3
  | .other v => v

/-- `enum sam_fca_dat` -/
inductive SamFcaDat where
  | dropAsCrc
  | dropAsBadPkt
  | dropAsInternal
  | noDrop
  | other (v : BitVec 32)
deriving DecidableEq, Repr

def SamFcaDat.code : SamFcaDat → BitVec 32
  | .dropAsCrc => 0
  | .dropAsBadPkt => 1
  | .dropAsInternal => 2
  | .noDrop => 3
  | .other v => v

/-- `enum sam_fca_fvt` -/
inductive SamFcaFvt where
  | dis
  | check
  | strict
  | res
  | other (v : BitVec 32)
deriving DecidableEq, Repr

def SamFcaFvt.code : SamFcaFvt → BitVec 32
  | .dis => 0
  | .check => 1
  | .strict => 2
  | .res => 3
  | .other v => v

/-- `struct sa_match_fca`; `replayProtect` is in a union with `protect_frame`. -/
structure SaMatchFca where
  flowIndex : BitVec 8
  flowType : SamFcaFt
  destPort : SamFcaDpt
  dropNonReserved : BitVec 8
  flowCryptAuth : BitVec 8
  dropAction : SamFcaDat
  saIndex : BitVec 8
  replayProtect : BitVec 8
  saInUse : BitVec 8
  includeSci : BitVec 8
  validateFrames : SamFcaFvt
  useEs : BitVec 8
  useScb : BitVec 8
  tagBypassSize : BitVec 8
  saIndexUpdate : BitVec 8
  confOffset : BitVec 8
  confProtect : BitVec 8
  cryptAuthBypassLen : BitVec 8

/-- `EIPI_EIP_160S_I_32_FLOW_CONTROL_PAGE0_MODULE_BASE` and the egress base. -/
def flowControlPage0Base : MsecDir → Nat
  | .ingress => 0x00B07000
  | .egress => 0x00B27000

/-- `IE_MAX_SAM_FCA_BYTES` -/
def maxSamFcaBytes : Nat := 4

/-- The address of an action, for `config`, `get` and `clear` alike: the whole index times the
size. -/
def samFcaAddr (dir : MsecDir) (flowIndex : BitVec 8) : Nat :=
  flowControlPage0Base dir + pageOffset flowIndex + flowIndex.toNat * maxSamFcaBytes

/-- `EIPI_CRYPT_AUTH_CTRL`, `EIPE_CRYPT_AUTH_CTRL` -/
def cryptAuthCtrl : MsecDir → Nat
  | .ingress => 0x00B07900 + 0x84
  | .egress => 0x00B27900 + 0x84

/-- The range checks of `config_*_sam_fca`. -/
def samFcaInRange (dir : MsecDir) (fca : SaMatchFca) : Bool :=
  fca.flowType.code ≤ SamFcaFt.egress.code && fca.destPort.code ≤ SamFcaDpt.uncontrol.code &&
  fca.flowCryptAuth ≤ 1 && fca.dropAction.code ≤ SamFcaDat.noDrop.code &&
  fca.replayProtect ≤ 1 && fca.saInUse ≤ 1 &&
  match dir with
  | .ingress => fca.dropNonReserved ≤ 1 && fca.validateFrames.code ≤ SamFcaFvt.strict.code
  | .egress =>
    fca.includeSci ≤ 1 && fca.useEs ≤ 1 && fca.useScb ≤ 1 && fca.tagBypassSize ≤ 1 &&
    fca.saIndexUpdate ≤ 1 && fca.confOffset ≤ 1 && fca.confProtect ≤ 1

/-- `_flow_ctrl` -/
def buildSamFca (dir : MsecDir) (fca : SaMatchFca) : BitVec 32 :=
  match dir with
  | .ingress => fieldWord [
      (⟨0x3, 0⟩, fca.flowType.code), (⟨0xC, 2⟩, fca.destPort.code),
      (⟨0x10, 4⟩, fca.dropNonReserved.setWidth 32), (⟨0x20, 5⟩, fca.flowCryptAuth.setWidth 32),
      (⟨0xC0, 6⟩, fca.dropAction.code), (⟨0x1F00, 8⟩, fca.saIndex.setWidth 32),
      (⟨0x10000, 16⟩, fca.replayProtect.setWidth 32), (⟨0x20000, 17⟩, fca.saInUse.setWidth 32),
      (⟨0x180000, 19⟩, fca.validateFrames.code)]
  | .egress => fieldWord [
      (⟨0x3, 0⟩, fca.flowType.code), (⟨0xC, 2⟩, fca.destPort.code),
      (⟨0x20, 5⟩, fca.flowCryptAuth.setWidth 32), (⟨0xC0, 6⟩, fca.dropAction.code),
      (⟨0x1F00, 8⟩, fca.saIndex.setWidth 32), (⟨0x10000, 16⟩, fca.replayProtect.setWidth 32),
      (⟨0x20000, 17⟩, fca.saInUse.setWidth 32), (⟨0x40000, 18⟩, fca.includeSci.setWidth 32),
      (⟨0x80000, 19⟩, fca.useEs.setWidth 32), (⟨0x100000, 20⟩, fca.useScb.setWidth 32),
      (⟨0x600000, 21⟩, fca.tagBypassSize.setWidth 32),
      (⟨0x800000, 23⟩, fca.saIndexUpdate.setWidth 32),
      (⟨0x7F000000, 24⟩, fca.confOffset.setWidth 32),
      (⟨0x80000000, 31⟩, fca.confProtect.setWidth 32)]

def configSamFca (dir : MsecDir) (phy : MsecDevice) (fca : SaMatchFca) : Call Unit :=
  if fca.flowIndex ≥ phy.nrOfSas then throw EINVAL
  else if !samFcaInRange dir fca then throw EINVAL
  else locked do
    phyMboxWrite (samFcaAddr dir fca.flowIndex) (buildSamFca dir fca)
    if fca.flowType.code = SamFcaFt.bypass.code ∧ fca.flowCryptAuth = 1 then
      phyMboxWrite (cryptAuthCtrl dir) (fca.cryptAuthBypassLen.setWidth 32)
    else pure ()

def gpy2xxMsecConfigIngSamFca : MsecDevice → SaMatchFca → Call Unit := configSamFca .ingress

def gpy2xxMsecConfigEgrSamFca : MsecDevice → SaMatchFca → Call Unit := configSamFca .egress

/-- The action of an entry and, when it has one, its crypt-authenticate word. -/
def getSamFca (dir : MsecDir) (phy : MsecDevice) (flowIndex : BitVec 8) :
    Call (BitVec 32 × Option (BitVec 32)) :=
  if flowIndex ≥ phy.nrOfSas then throw EINVAL
  else locked do
    let fca ← phyMboxRead (samFcaAddr dir flowIndex)
    -- the bit fields `flow_type` and `flow_crypt_auth` of the word just read
    if fca &&& 0x3 = 0 ∧ fca &&& 0x20 ≠ 0 then
      let cac ← phyMboxRead (cryptAuthCtrl dir)
      pure (fca, some cac)
    else pure (fca, none)

def gpy2xxMsecGetIngSamFca : MsecDevice → BitVec 8 → Call (BitVec 32 × Option (BitVec 32)) :=
  getSamFca .ingress

def gpy2xxMsecGetEgrSamFca : MsecDevice → BitVec 8 → Call (BitVec 32 × Option (BitVec 32)) :=
  getSamFca .egress

def clearSamFca (dir : MsecDir) (phy : MsecDevice) (flowIndex : BitVec 8) : Call Unit :=
  if flowIndex ≥ phy.nrOfSas then throw EINVAL
  else locked do
    isSamInFlightSafe dir
    phyMboxWrite (samFcaAddr dir flowIndex) 0

def gpy2xxMsecClearIngSamFca : MsecDevice → BitVec 8 → Call Unit := clearSamFca .ingress

def gpy2xxMsecClearEgrSamFca : MsecDevice → BitVec 8 → Call Unit := clearSamFca .egress

/-! ## Entry enable flags -/

/-- `EIPI_EIP_160S_I_32_SAM_ENABLE_CTRL_MODULE_BASE` and the egress base. -/
def samEnableCtrlBase : MsecDir → Nat
  | .ingress => 0x00B06000
  | .egress => 0x00B26000

/-- `enum sam_eex_type` -/
inductive SamEexType where
  | enable
  | toggle
  | set
  | clear
  | other (v : BitVec 32)
deriving DecidableEq, Repr

/-- `struct raw_sam_ee`: one flag for each of the `MACSEC_MAX_SA_RULES` rules. -/
structure RawSamEe where
  eexType : SamEexType
  rawSamEe : Words 1

/-- The register an `eex` call writes; both directions use the `EIPI_` offsets. -/
def samEexOffset : SamEexType → Option Nat
  | .enable => some 0x0
  | .toggle => some 0x40
  | .set => some 0x80
  | .clear => some 0xC0
  | .other _ => none

/-- The flag words the loops cover: `nr_of_sas / 32`, up to the size of the array. -/
def samEeWords (phy : MsecDevice) : Nat := min (phy.nrOfSas.toNat / 32) 1

def configSamEex (dir : MsecDir) (phy : MsecDevice) (inEe : RawSamEe) : Call Unit :=
  match samEexOffset inEe.eexType with
  | none => throw EINVAL
  | some offset => locked do
    mboxWriteWords (samEnableCtrlBase dir + offset)
      ((List.ofFn inEe.rawSamEe).take (samEeWords phy))

def gpy2xxMsecConfigIngSamEex : MsecDevice → RawSamEe → Call Unit := configSamEex .ingress

def gpy2xxMsecConfigEgrSamEex : MsecDevice → RawSamEe → Call Unit := configSamEex .egress

def getSamEef (dir : MsecDir) (phy : MsecDevice) : Call (Nat → BitVec 32) :=
  locked do
    let ws ← mboxReadWords (samEnableCtrlBase dir) (samEeWords phy)
    pure (rawWords ws)

def gpy2xxMsecGetIngSamEef : MsecDevice → Call (Nat → BitVec 32) := getSamEef .ingress

def gpy2xxMsecGetEgrSamEef : MsecDevice → Call (Nat → BitVec 32) := getSamEef .egress

/-- `struct sam_ee_ctrl` -/
structure SamEeCtrl where
  samIndexSet : BitVec 8
  setEnable : BitVec 8
  setAll : BitVec 8
  samIndexClear : BitVec 8
  clearEnable : BitVec 8
  clearAll : BitVec 8

/-- `_eec_data` -/
def buildSamEec (c : SamEeCtrl) : BitVec 32 :=
  fieldWord [(⟨0x1F, 0⟩, c.samIndexSet.setWidth 32), (⟨0x4000, 14⟩, c.setEnable.setWidth 32),
    (⟨0x8000, 15⟩, c.setAll.setWidth 32), (⟨0x1F0000, 16⟩, c.samIndexClear.setWidth 32),
    (⟨0x40000000, 30⟩, c.clearEnable.setWidth 32), (⟨0x80000000, 31⟩, c.clearAll.setWidth 32)]

def configSamEec (dir : MsecDir) (c : SamEeCtrl) : Call Unit :=
  if c.setEnable ≠ 0 ∧ c.clearEnable ≠ 0 ∧ c.samIndexSet = c.samIndexClear then throw EINVAL
  else locked (phyMboxWrite (samEnableCtrlBase dir + 0x100) (buildSamEec c))

def gpy2xxMsecConfigIngSamEec : SamEeCtrl → Call Unit := configSamEec .ingress

def gpy2xxMsecConfigEgrSamEec : SamEeCtrl → Call Unit := configSamEec .egress

end Gpy2xx
