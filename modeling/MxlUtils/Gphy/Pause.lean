import MxlUtils.Gphy.Ptp.Rate
import Mathlib.Data.Fin.VecNotation

/- Flow control of the GMAC-Lite. The setter spreads a configuration over eight
   registers of two blocks; the getter reads each of them back, but makes the bytes
   of the MAC address from what the reads return, which is 0, and not from the words
   they read. -/
namespace Gpy2xx
open Effect Effect.Fallible Effect.Lock Bits

/-! ## Registers -/

/-- `PM_PDI_GMACL_CFG_GMACL_FLW_CTRL` -/
def gmaclFlwCtrl : Field 16 := ⟨0x8, 3⟩

/-- The fields of `GMACL_MAC_Q0_TX_FLOW_CTRL_L`. -/
def fcbBpa : Field 16 := ⟨0x1, 0⟩
def txTfe : Field 16 := ⟨0x2, 1⟩
def txPlt : Field 16 := ⟨0x70, 4⟩
def txDzpq : Field 16 := ⟨0x80, 7⟩

/-- `struct pause_cfg` -/
@[ext] structure PauseCfg where
  flowCtrlBusy : BitVec 8
  pmGmaclFc : BitVec 8
  txFlowCtrl : BitVec 8
  disZquantaPause : BitVec 8
  pauseTime : BitVec 16
  txFcMac : Bytes 6
  pauseLowThresh : BitVec 32
  pauseAssertThresh : BitVec 16
  pauseDeassertThresh : BitVec 16

section Registers
variable (phy : Gpy211Device)

def gmaclCfgReg : Nat := phy.pmBaseAddr + pmGmaclCfg
def pauseThres : Nat := phy.pmBaseAddr + 0x1B4
def pauseDeassertThres : Nat := phy.pmBaseAddr + 0x1B8
def q0TxFlowCtrlL : Nat := phy.gmaclBaseAddr + 0xE0
def q0TxFlowCtrlH : Nat := phy.gmaclBaseAddr + 0xE4
def macAddress0HighL : Nat := phy.gmaclBaseAddr + 0x600
def macAddress0LowL : Nat := phy.gmaclBaseAddr + 0x608
def macAddress0LowH : Nat := phy.gmaclBaseAddr + 0x60C

/-- The eight registers, in the order in which they are written. -/
def pauseRegs : List Nat := [gmaclCfgReg phy, q0TxFlowCtrlL phy, q0TxFlowCtrlH phy, macAddress0HighL phy,
  macAddress0LowL phy, macAddress0LowH phy, pauseThres phy, pauseDeassertThres phy]

end Registers

/-! ## The calls -/

def pmWordOf (pcfg : PauseCfg) (gmaclPcfg : BitVec 16) : BitVec 16 :=
  gmaclFlwCtrl.replace gmaclPcfg (pcfg.pmGmaclFc.setWidth 16)

def fctrlFields (pcfg : PauseCfg) : List (Field 16 × BitVec 16) :=
  [(fcbBpa, pcfg.flowCtrlBusy.setWidth 16), (txTfe, pcfg.txFlowCtrl.setWidth 16),
    (txPlt, pcfg.pauseLowThresh.setWidth 16), (txDzpq, pcfg.disZquantaPause.setWidth 16)]

def gpy2xxGmaclPauseCfg (phy : Gpy211Device) (pcfg : PauseCfg) : Call Unit :=
  locked do
    let gmaclPcfg ← phyMboxHwrd (gmaclCfgReg phy)
    phyMboxHwwr (gmaclCfgReg phy) (pmWordOf pcfg gmaclPcfg)
    let fctrl ← phyMboxHwrd (q0TxFlowCtrlL phy)
    phyMboxHwwr (q0TxFlowCtrlL phy) (replaceFields fctrl (fctrlFields pcfg))
    phyMboxHwwr (q0TxFlowCtrlH phy) pcfg.pauseTime
    phyMboxHwwr (macAddress0HighL phy) (pcfg.txFcMac 4 ++ pcfg.txFcMac 5)
    phyMboxHwwr (macAddress0LowL phy) (pcfg.txFcMac 2 ++ pcfg.txFcMac 3)
    phyMboxHwwr (macAddress0LowH phy) (pcfg.txFcMac 0 ++ pcfg.txFcMac 1)
    phyMboxHwwr (pauseThres phy) pcfg.pauseAssertThresh
    phyMboxHwwr (pauseDeassertThres phy) pcfg.pauseDeassertThresh

/-- What `gpy2xx_mbox_read16` returns when it succeeds; the word is in `*data`. -/
def mboxReadRet : BitVec 32 := 0

/-- `(ret >> 8) & 0xFF` and `(ret >> 0) & 0xFF`, for the three reads of the address. -/
def macOfRets (lowH lowL highL : BitVec 32) : Bytes 6 :=
  ![(lowH >>> 8).setWidth 8, lowH.setWidth 8, (lowL >>> 8).setWidth 8, lowL.setWidth 8,
    (highL >>> 8).setWidth 8, highL.setWidth 8]

def gpy2xxGmaclPauseGet (phy : Gpy211Device) : Call PauseCfg :=
  locked do
    let gmaclPcfg ← phyMboxHwrd (gmaclCfgReg phy)
    let fctrl ← phyMboxHwrd (q0TxFlowCtrlL phy)
    let time ← phyMboxHwrd (q0TxFlowCtrlH phy)
    -- the three words are read, and not used
    let _ ← phyMboxHwrd (macAddress0HighL phy)
    let _ ← phyMboxHwrd (macAddress0LowL phy)
    let _ ← phyMboxHwrd (macAddress0LowH phy)
    let assert ← phyMboxHwrd (pauseThres phy)
    let deassert ← phyMboxHwrd (pauseDeassertThres phy)
    pure {
      flowCtrlBusy := (fcbBpa.get fctrl).setWidth 8
      pmGmaclFc := (gmaclFlwCtrl.get gmaclPcfg).setWidth 8
      txFlowCtrl := (txTfe.get fctrl).setWidth 8
      disZquantaPause := (txDzpq.get fctrl).setWidth 8
      pauseTime := time
      txFcMac := macOfRets mboxReadRet mboxReadRet mboxReadRet
      pauseLowThresh := (txPlt.get fctrl).setWidth 32
      pauseAssertThresh := assert
      pauseDeassertThresh := deassert }

/-! ## The calls on registers that are memory -/

section Exec
variable {phy : Gpy211Device} {pcfg : PauseCfg} {s : Regs}

/-- The half-words that are stored. -/
def pauseWrites (phy : Gpy211Device) (pcfg : PauseCfg) (m : Mem) : List (Nat × BitVec 16) :=
  [(gmaclCfgReg phy, pmWordOf pcfg (m.load16 (gmaclCfgReg phy))),
    (q0TxFlowCtrlL phy, replaceFields (m.load16 (q0TxFlowCtrlL phy)) (fctrlFields pcfg)),
    (q0TxFlowCtrlH phy, pcfg.pauseTime), (macAddress0HighL phy, pcfg.txFcMac 4 ++ pcfg.txFcMac 5),
    (macAddress0LowL phy, pcfg.txFcMac 2 ++ pcfg.txFcMac 3),
    (macAddress0LowH phy, pcfg.txFcMac 0 ++ pcfg.txFcMac 1),
    (pauseThres phy, pcfg.pauseAssertThresh), (pauseDeassertThres phy, pcfg.pauseDeassertThresh)]

theorem pairwise_pauseRegs (hbases : KnownBases phy) : (pauseRegs phy).Pairwise Mem.Apart := by
  rw [pauseRegs, gmaclCfgReg, pmGmaclCfg, pauseThres, pauseDeassertThres, q0TxFlowCtrlL, q0TxFlowCtrlH,
    macAddress0HighL, macAddress0LowL, macAddress0LowH]
  rcases hbases with ⟨-, -, hgmacl, hpm⟩ | ⟨-, -, hgmacl, hpm⟩
  · rw [hgmacl, hpm]
    decide
  · rw [hgmacl, hpm]
    decide

theorem exec_gpy2xxGmaclPauseCfg (hbases : KnownBases phy) :
    (gpy2xxGmaclPauseCfg phy pcfg).exec lockedMem s =
      (.ok (), { s with mbox := s.mbox.stores16 (pauseWrites phy pcfg s.mbox) }) := by
  have hpair := pairwise_pauseRegs hbases
  have hfctrl : ∀ v, (s.mbox.store16 (gmaclCfgReg phy) v).load16 (q0TxFlowCtrlL phy) =
      s.mbox.load16 (q0TxFlowCtrlL phy) := fun v =>
    Mem.load16_store16_of_disjoint ((List.pairwise_cons.mp hpair).1 _ List.mem_cons_self).symm
  rw [gpy2xxGmaclPauseCfg, exec_locked]
  simp [exec_bind, hfctrl, Mem.stores16, pauseWrites]

/-- What the registers show. -/
def shownPause (phy : Gpy211Device) (m : Mem) : PauseCfg where
  flowCtrlBusy := (fcbBpa.get (m.load16 (q0TxFlowCtrlL phy))).setWidth 8
  pmGmaclFc := (gmaclFlwCtrl.get (m.load16 (gmaclCfgReg phy))).setWidth 8
  txFlowCtrl := (txTfe.get (m.load16 (q0TxFlowCtrlL phy))).setWidth 8
  disZquantaPause := (txDzpq.get (m.load16 (q0TxFlowCtrlL phy))).setWidth 8
  pauseTime := m.load16 (q0TxFlowCtrlH phy)
  txFcMac := macOfRets mboxReadRet mboxReadRet mboxReadRet
  pauseLowThresh := (txPlt.get (m.load16 (q0TxFlowCtrlL phy))).setWidth 32
  pauseAssertThresh := m.load16 (pauseThres phy)
  pauseDeassertThresh := m.load16 (pauseDeassertThres phy)

theorem exec_gpy2xxGmaclPauseGet :
    (gpy2xxGmaclPauseGet phy).exec lockedMem s = (.ok (shownPause phy s.mbox), s) := rfl

/-- Each register holds what is stored there. -/
theorem load16_pauseWrites (hbases : KnownBases phy) {m : Mem} {a : Nat} {v : BitVec 16}
    (h : (a, v) ∈ pauseWrites phy pcfg m) : (m.stores16 (pauseWrites phy pcfg m)).load16 a = v :=
  Mem.load16_stores16_of_mem (pairwise_pauseRegs hbases) h

/-- The fields of a configuration that have no more bits than their registers, and the address whose
bytes are all 0. -/
structure PauseCfg.Fits (pcfg : PauseCfg) : Prop where
  flowCtrlBusy : pcfg.flowCtrlBusy.toNat < 2 ^ 1
  pmGmaclFc : pcfg.pmGmaclFc.toNat < 2 ^ 1
  txFlowCtrl : pcfg.txFlowCtrl.toNat < 2 ^ 1
  disZquantaPause : pcfg.disZquantaPause.toNat < 2 ^ 1
  pauseLowThresh : pcfg.pauseLowThresh.toNat < 2 ^ 3
  txFcMac : pcfg.txFcMac = fun _ => 0

theorem macOfRets_zero : macOfRets mboxReadRet mboxReadRet mboxReadRet = fun _ => 0 := by
  funext i
  revert i
  decide

/-- The four fields of the flow control register. -/
theorem get_fctrlFields (word : BitVec 16) :
    fcbBpa.get (replaceFields word (fctrlFields pcfg)) = pcfg.flowCtrlBusy.setWidth 16 &&& 1#16 ∧
    txTfe.get (replaceFields word (fctrlFields pcfg)) = pcfg.txFlowCtrl.setWidth 16 &&& 1#16 ∧
    txPlt.get (replaceFields word (fctrlFields pcfg)) = pcfg.pauseLowThresh.setWidth 16 &&& 7#16 ∧
    txDzpq.get (replaceFields word (fctrlFields pcfg)) = pcfg.disZquantaPause.setWidth 16 &&& 1#16 := by
  refine ⟨?_, ?_, ?_, ?_⟩
  · exact @get_replaceFields_low _ 1 fcbBpa _ _ _ (by decide) (by simp [fcbBpa, txTfe, txPlt, txDzpq])
  · exact get_replaceFields_skip fun word =>
      @get_replaceFields_low _ 1 txTfe word _ _ (by decide) (by simp [txTfe, txPlt, txDzpq])
  · exact get_replaceFields_skip fun _ => get_replaceFields_skip fun word =>
      @get_replaceFields_low _ 3 txPlt word _ _ (by decide) (by simp [txPlt, txDzpq])
  · exact get_replaceFields_skip fun _ => get_replaceFields_skip fun _ => get_replaceFields_skip fun word =>
      @get_replaceFields_low _ 1 txDzpq word _ [] (by decide) (by simp)

/-- What is shown of a configuration that has been set. -/
theorem shownPause_eq_iff (hbases : KnownBases phy) {m : Mem} :
    shownPause phy (m.stores16 (pauseWrites phy pcfg m)) = pcfg ↔ pcfg.Fits := by
  have hfctrl : (m.stores16 (pauseWrites phy pcfg m)).load16 (q0TxFlowCtrlL phy) =
      replaceFields (m.load16 (q0TxFlowCtrlL phy)) (fctrlFields pcfg) :=
    load16_pauseWrites hbases (by simp [pauseWrites])
  have hcfg : (m.stores16 (pauseWrites phy pcfg m)).load16 (gmaclCfgReg phy) =
      pmWordOf pcfg (m.load16 (gmaclCfgReg phy)) := load16_pauseWrites hbases (by simp [pauseWrites])
  have htime : (m.stores16 (pauseWrites phy pcfg m)).load16 (q0TxFlowCtrlH phy) = pcfg.pauseTime :=
    load16_pauseWrites hbases (by simp [pauseWrites])
  have hassert : (m.stores16 (pauseWrites phy pcfg m)).load16 (pauseThres phy) = pcfg.pauseAssertThresh :=
    load16_pauseWrites hbases (by simp [pauseWrites])
  have hdeassert : (m.stores16 (pauseWrites phy pcfg m)).load16 (pauseDeassertThres phy) =
      pcfg.pauseDeassertThresh := load16_pauseWrites hbases (by simp [pauseWrites])
  have hpm : gmaclFlwCtrl.get (pmWordOf pcfg (m.load16 (gmaclCfgReg phy))) =
      pcfg.pmGmaclFc.setWidth 16 &&& 1#16 :=
    Field.get_replace_low (show gmaclFlwCtrl.Spans 1 by decide)
  obtain ⟨hbusy, htfe, hplt, hdzpq⟩ := @get_fctrlFields pcfg (m.load16 (q0TxFlowCtrlL phy))
  have hflag : ∀ v : BitVec 8, (v.setWidth 16 &&& 1#16).setWidth 8 = v ↔ v.toNat < 2 ^ 1 := fun v =>
    setWidth_low_eq_self_iff (show 1 ≤ 16 by omega)
  have hthresh : ∀ v : BitVec 32, (v.setWidth 16 &&& 7#16).setWidth 32 = v ↔ v.toNat < 2 ^ 3 := fun v =>
    setWidth_low_eq_self_iff (show 3 ≤ 16 by omega)
  rw [PauseCfg.ext_iff, shownPause, hfctrl, hcfg, htime, hassert, hdeassert, hpm, hbusy, htfe, hplt, hdzpq,
    macOfRets_zero]
  simp only [hflag, hthresh, true_and, and_true]
  constructor
  · intro h
    exact ⟨h.1, h.2.1, h.2.2.1, h.2.2.2.1, h.2.2.2.2.2, h.2.2.2.2.1.symm⟩
  · intro h
    exact ⟨h.flowCtrlBusy, h.pmGmaclFc, h.txFlowCtrl, h.disZquantaPause, h.txFcMac.symm, h.pauseLowThresh⟩

end Exec

/-! ## The round trip -/

/-- The registers after a call. -/
def afterPauseCfg (phy : Gpy211Device) (pcfg : PauseCfg) (s : Regs) : Regs :=
  ((gpy2xxGmaclPauseCfg phy pcfg).exec lockedMem s).2

/-- The configuration is read back. -/
def PauseReadBack (phy : Gpy211Device) (pcfg : PauseCfg) (s : Regs) : Prop :=
  ((gpy2xxGmaclPauseGet phy).exec lockedMem (afterPauseCfg phy pcfg s)).1 = .ok pcfg

/-- The fields beside those of the configuration, and every other register, are as before. -/
structure PauseFrame (phy : Gpy211Device) (s s' : Regs) : Prop where
  gmaclCfg : s'.mbox.load16 (gmaclCfgReg phy) &&& ~~~0x8 = s.mbox.load16 (gmaclCfgReg phy) &&& ~~~0x8
  fctrl : s'.mbox.load16 (q0TxFlowCtrlL phy) &&& ~~~0xF3 = s.mbox.load16 (q0TxFlowCtrlL phy) &&& ~~~0xF3
  bytes : ∀ x, (∀ b ∈ pauseRegs phy, x < b ∨ b + 2 ≤ x) → s'.mbox x = s.mbox x
  others : { s' with mbox := s.mbox } = s

theorem pauseFrame_after {phy : Gpy211Device} (hbases : KnownBases phy) (pcfg : PauseCfg) (s : Regs) :
    PauseFrame phy s (afterPauseCfg phy pcfg s) := by
  rw [afterPauseCfg, exec_gpy2xxGmaclPauseCfg hbases]
  have hkept : ∀ word : BitVec 16, replaceFields word (fctrlFields pcfg) &&& ~~~0xF3 = word &&& ~~~0xF3 := by
    intro word
    have hget := @get_replaceFields_of_apart _ ⟨~~~0xF3, 0⟩ word (fctrlFields pcfg)
      (by simp [fctrlFields, fcbBpa, txTfe, txPlt, txDzpq])
    simpa [Field.get] using hget
  refine ⟨?_, ?_, fun x hx => Mem.stores16_apply_of_apart hx, rfl⟩
  · rw [show (s.mbox.stores16 (pauseWrites phy pcfg s.mbox)).load16 (gmaclCfgReg phy) = _ from
      load16_pauseWrites hbases List.mem_cons_self]
    exact Field.replace_and_of_disjoint (by decide)
  · rw [show (s.mbox.stores16 (pauseWrites phy pcfg s.mbox)).load16 (q0TxFlowCtrlL phy) = _ from
      load16_pauseWrites hbases (List.mem_cons_of_mem _ List.mem_cons_self)]
    exact hkept _

/-- **The pause configuration.** It is read back if and only if its fields fit and its address is all
zeros; and the call changes nothing beside its fields. -/
theorem pause_read_back_iff (phy : Gpy211Device) (hbases : KnownBases phy) (pcfg : PauseCfg) (s : Regs) :
    (PauseReadBack phy pcfg s ↔ pcfg.Fits) ∧ PauseFrame phy s (afterPauseCfg phy pcfg s) := by
  refine ⟨?_, pauseFrame_after hbases pcfg s⟩
  rw [PauseReadBack, afterPauseCfg, exec_gpy2xxGmaclPauseCfg hbases, exec_gpy2xxGmaclPauseGet,
    ← shownPause_eq_iff hbases (m := s.mbox)]
  exact ⟨Except.ok.inj, congrArg Except.ok⟩

/-- A configuration with an address, and the same one without. -/
def pauseWith (mac : Bytes 6) : PauseCfg := ⟨0, 1, 1, 0, 0xFFFF, mac, 3, 0x100, 0x80⟩

/-- Every configuration is read back. -/
def PauseRoundTrips (phy : Gpy211Device) : Prop := ∀ pcfg s, PauseReadBack phy pcfg s

theorem pauseReadBack_zeroMac :
    PauseReadBack (ptpPhy 406250000) (pauseWith fun _ => 0) (zeroRegs true) :=
  ((pause_read_back_iff (ptpPhy 406250000) knownBases_ptpPhy (pauseWith fun _ => 0) (zeroRegs true)).1).mpr
    ⟨by decide, by decide, by decide, by decide, by decide, rfl⟩

/-- The address 01:02:03:04:05:06 is not. -/
theorem not_pauseRoundTrips : ¬PauseRoundTrips (ptpPhy 406250000) := by
  intro h
  have hback := h (pauseWith ![1, 2, 3, 4, 5, 6]) (zeroRegs true)
  rw [PauseReadBack, afterPauseCfg, exec_gpy2xxGmaclPauseCfg knownBases_ptpPhy,
    exec_gpy2xxGmaclPauseGet] at hback
  have hmac := congrArg (fun pcfg => pcfg.txFcMac 0) (Except.ok.inj hback)
  exact absurd hmac (by decide)

end Gpy2xx
