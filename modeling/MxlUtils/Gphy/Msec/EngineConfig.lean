import MxlUtils.Gphy.Msec.SamControl

/- The configuration calls of the MACsec engine: counter control and increment
   enables, the miscellaneous control word, the actions for packets no SA matches,
   the consistency-check control of the ingress engine and the clearing of the
   summary words. Each checks its arguments, takes the lock and writes. The two
   directions share a body where they differ in bases and field masks only. -/
namespace Gpy2xx
open Effect Effect.Lock Bits

/-! ## Counters -/

/-- `EIPI_EIP_160S_I_32_STAT_CONTROL_MODULE_BASE` and the egress base. -/
def statControlBase : MsecDir → Nat
  | .ingress => 0x00B0C800
  | .egress => 0x00B2C800

/-- `EIPI_COUNT_CONTROL`, `EIPE_COUNT_CONTROL` -/
def countControlReg (dir : MsecDir) : Nat := statControlBase dir + 0x10

/-- `struct count_control` -/
structure CountControl where
  resetAll : BitVec 8
  debugAccess : BitVec 8
  saturateCntrs : BitVec 8
  autoCntrReset : BitVec 8
  resetSummary : BitVec 8

/-- `config_*_count_ctrl`; egress uses the `EIPI_` fields. -/
def configCountCtrl (dir : MsecDir) (c : CountControl) : Call Unit :=
  if c.resetAll > 1 ∨ c.saturateCntrs > 1 ∨ c.autoCntrReset > 1 ∨ c.resetSummary > 1 ∨
      c.debugAccess > 1 then throw EINVAL
  else locked do
    phyMboxWrite (countControlReg dir) (fieldWord [
      (⟨0x1, 0⟩, c.resetAll.setWidth 32), (⟨0x2, 1⟩, c.debugAccess.setWidth 32),
      (⟨0x4, 2⟩, c.saturateCntrs.setWidth 32), (⟨0x8, 3⟩, c.autoCntrReset.setWidth 32),
      (⟨0x10, 4⟩, c.resetSummary.setWidth 32)])

def gpy2xxMsecConfigIngCountCtrl : CountControl → Call Unit := configCountCtrl .ingress

def gpy2xxMsecConfigEgrCountCtrl : CountControl → Call Unit := configCountCtrl .egress

/-- `struct count_incen` -/
structure CountIncen where
  saIncEn : BitVec 16
  vlanIncEn : BitVec 16
  globalIncEn : BitVec 16

/-- `COUNT_INCEN1_SA_INCREMENT_ENABLE`, also the mask of the counters of one SA. -/
def saCntMask : MsecDir → BitVec 32
  | .ingress => 0x7FF
  | .egress => 0xF

/-- `COUNT_INCEN2_GLOBAL_INCREMENT_ENABLE` -/
def globalCntMask : MsecDir → BitVec 32
  | .ingress => 0x3FFF
  | .egress => 0x1F

def configCountIncen (dir : MsecDir) (c : CountIncen) : Call Unit :=
  locked do
    phyMboxWrite (statControlBase dir + 0x14) (fieldWord [
      (⟨saCntMask dir, 0⟩, c.saIncEn.setWidth 32), (⟨0x1F0000, 16⟩, c.vlanIncEn.setWidth 32)])
    phyMboxWrite (statControlBase dir + 0x18) (fieldWord [
      (⟨globalCntMask dir, 0⟩, c.globalIncEn.setWidth 32)])

def gpy2xxMsecConfigIngCountIncen : CountIncen → Call Unit := configCountIncen .ingress

def gpy2xxMsecConfigEgrCountIncen : CountIncen → Call Unit := configCountIncen .egress

/-- `struct stats_summary` -/
structure StatsSummary where
  psaSumWord : Words 1
  glbSummWord : BitVec 32

/-- `COUNT_SUMMARY_PSA1`, as many words as the SAs need. -/
def writePsaSummary (dir : MsecDir) (phy : MsecDevice) (s : StatsSummary) : Api Unit :=
  mboxWriteWords (statControlBase dir + 0x50) ((List.ofFn s.psaSumWord).take (samEeWords phy))

/-- `COUNT_SUMMARY_GL` -/
def writeGlobalSummary (dir : MsecDir) (s : StatsSummary) : Api Unit :=
  phyMboxWrite (statControlBase dir + 0x40) s.glbSummWord

def gpy2xxMsecClearIngStatsSumm (phy : MsecDevice) (s : StatsSummary) : Call Unit :=
  locked do
    writePsaSummary .ingress phy s
    writeGlobalSummary .ingress s

/-- The egress call writes the two summaries in the other order. -/
def gpy2xxMsecClearEgrStatsSumm (phy : MsecDevice) (s : StatsSummary) : Call Unit :=
  locked do
    writeGlobalSummary .egress s
    writePsaSummary .egress phy s

/-! ## Miscellaneous control -/

/-- `EIPI_EIP_160S_I_32_CLASSIFIER_VARIOUS_CONTROL_REGS_MODULE_BASE` and the egress base. -/
def classifierCtrlBase : MsecDir → Nat
  | .ingress => 0x00B07900
  | .egress => 0x00B27900

/-- `struct misc_control` -/
structure MiscControl where
  mcLatencyFix : BitVec 16
  staticBypass : BitVec 8
  nmMacsecEn : BitVec 8
  validateFrames : SamFcaFvt
  sectagAfterVlan : BitVec 8

/-- The record size in the control word. -/
def xformRecSize : MsecDir → BitVec 32
  | .ingress => 1
  | .egress => 2

def configMiscCtrl (dir : MsecDir) (c : MiscControl) : Call Unit :=
  if c.staticBypass > 1 ∨ c.nmMacsecEn > 1 ∨ c.validateFrames.code > SamFcaFvt.strict.code ∨
      c.sectagAfterVlan > 1 then throw EINVAL
  else locked do
    phyMboxWrite (classifierCtrlBase dir + 0x7C) (fieldWord [
      (⟨0xFF, 0⟩, c.mcLatencyFix.setWidth 32), (⟨0x100, 8⟩, c.staticBypass.setWidth 32),
      (⟨0x200, 9⟩, c.nmMacsecEn.setWidth 32), (⟨0xC00, 10⟩, c.validateFrames.code),
      (⟨0x1000, 12⟩, c.sectagAfterVlan.setWidth 32), (⟨0x3000000, 24⟩, xformRecSize dir)])

def gpy2xxMsecConfigIngMiscCtrl : MiscControl → Call Unit := configMiscCtrl .ingress

def gpy2xxMsecConfigEgrMiscCtrl : MiscControl → Call Unit := configMiscCtrl .egress

/-! ## Packets no SA matches -/

/-- `enum sa_nm_secy_pt` -/
inductive SaNmSecyPt where
  | untagged
  | tagged
  | badTagged
  | kayTagged
  | allTagged
  | other (v : BitVec 32)
deriving DecidableEq, Repr

/-- `enum sa_nm_fca_ft` -/
inductive SaNmFcaFt where
  | bypass
  | drop
  | other (v : BitVec 32)
deriving DecidableEq, Repr

def SaNmFcaFt.code : SaNmFcaFt → BitVec 32
  | .bypass => 0
  | .drop => 1
  | .other v => v

/-- `struct sa_nonmatch_fca`; its ports and drop actions have the values of the SAM ones. -/
structure SaNonmatchFca where
  pktType : SaNmSecyPt
  flowType : SaNmFcaFt
  destPort : SamFcaDpt
  dropNonReserved : BitVec 8
  dropAction : SamFcaDat

/-- The packet groups a call configures, each one byte of the register. -/
def SaNmSecyPt.groups : SaNmSecyPt → Option (List Nat)
  | .untagged => some [0]
  | .tagged => some [1]
  | .badTagged => some [2]
  | .kayTagged => some [3]
  | .allTagged => some [0, 1, 2, 3]
  | .other _ => none

/-- The fields of group `i`; only ingress has `DROP_NON_RESERVED`. -/
def saNmFields (dir : MsecDir) (c : SaNonmatchFca) (i : Nat) : List (Field 32 × BitVec 32) :=
  [(⟨0x1 <<< (8 * i), 8 * i⟩, c.flowType.code), (⟨0xC <<< (8 * i), 8 * i + 2⟩, c.destPort.code)] ++
  (match dir with
    | .ingress => [(⟨0x10 <<< (8 * i), 8 * i + 4⟩, c.dropNonReserved.setWidth 32)]
    | .egress => []) ++
  [(⟨0xC0 <<< (8 * i), 8 * i + 6⟩, c.dropAction.code)]

/-- The range checks; egress does not look at `drop_non_reserved`. -/
def saNmInRange (dir : MsecDir) (c : SaNonmatchFca) : Bool :=
  c.flowType.code ≤ SaNmFcaFt.drop.code && c.destPort.code ≤ SamFcaDpt.uncontrol.code &&
  c.dropAction.code ≤ SamFcaDat.noDrop.code &&
  match dir with
  | .ingress => c.dropNonReserved ≤ 1
  | .egress => true

/-- The two registers, `SAM_NM_FLOW_NCP` and `SAM_NM_FLOW_CP`. -/
inductive SaNmReg where
  | ncp
  | cp
deriving DecidableEq, Repr

def saNmAddr (dir : MsecDir) : SaNmReg → Nat
  | .ncp => classifierCtrlBase dir + 0x44
  | .cp => classifierCtrlBase dir + 0x48

def configSaNm (dir : MsecDir) (reg : SaNmReg) (c : SaNonmatchFca) : Call Unit :=
  match c.pktType.groups with
  | none => throw EINVAL
  | some groups =>
    if !saNmInRange dir c then throw EINVAL
    else locked do
      let nm ← phyMboxRead (saNmAddr dir reg)
      phyMboxWrite (saNmAddr dir reg) (replaceFields nm (groups.flatMap (saNmFields dir c)))

def gpy2xxMsecConfigIngSaNmNcp : SaNonmatchFca → Call Unit := configSaNm .ingress .ncp

def gpy2xxMsecConfigEgrSaNmNcp : SaNonmatchFca → Call Unit := configSaNm .egress .ncp

def gpy2xxMsecConfigIngSaNmCp : SaNonmatchFca → Call Unit := configSaNm .ingress .cp

def gpy2xxMsecConfigEgrSaNmCp : SaNonmatchFca → Call Unit := configSaNm .egress .cp

/-! ## Consistency checks -/

/-- `struct ing_cc_ctrl` -/
structure IngCcCtrl where
  nmAct : BitVec 8
  nmCtrlAct : BitVec 8
  cpEtypeMaxLen : BitVec 16

def gpy2xxMsecConfigIngCcCtrl (c : IngCcCtrl) : Call Unit :=
  if c.nmAct > 1 ∨ c.nmCtrlAct > 1 then throw EINVAL
  else locked do
    phyMboxWrite (0x00B0E800 + 0x40) (fieldWord [
      (⟨0x4000, 14⟩, c.nmCtrlAct.setWidth 32), (⟨0x8000, 15⟩, c.nmAct.setWidth 32)])
    phyMboxWrite (0x00B0E800 + 0x44) (fieldWord [(⟨0xFFFF0000, 16⟩, c.cpEtypeMaxLen.setWidth 32)])

end Gpy2xx
