import MxlUtils.Gphy.Ptp.Rate

/- What `gpy2xx_ptp_getcfg` reports after a run of configuration calls. The
   registers are memory, and what `getcfg` shows of them is a function of them.
   Every accepted call puts its own values where the getter looks and leaves what
   the other calls put alone, but for `gpy2xx_ptp_enable`, which also resets the
   timestamp control. The correction is kept and shown in one-step mode only. -/
namespace Gpy2xx
open Effect Effect.Fallible Effect.Lock Bits

/-! ## What the registers show -/

/-- The fields of the raw words, as the getter leaves them. -/
def PtoCtrl.logSyncInterval (ptoCtrl : PtoCtrl) : BitVec 8 :=
  twosComplement (ptoCtrl.logmLvlLow.extractLsb' 0 8)

def PtoCtrl.drToSyncRatio (ptoCtrl : PtoCtrl) : BitVec 3 := ptoCtrl.logmLvlLow.extractLsb' 8 3

def PtoCtrl.logMinPdrInterval (ptoCtrl : PtoCtrl) : BitVec 8 :=
  twosComplement (ptoCtrl.logmLvlHi.extractLsb' 8 8)

/-- The bytes of the half-words, the low one first. -/
def PtoCtrl.sportBytes (ptoCtrl : PtoCtrl) : List (BitVec 8) :=
  ptoCtrl.sportId.flatMap fun w => [w.extractLsb' 0 8, w.extractLsb' 8 8]

section View
variable (phy : Gpy211Device) (regs : Nat → BitVec 16)

/-- The registers at the three bases. -/
def gmacfReg (offset : Nat) : BitVec 16 := regs (smdioReg (phy.gmacfBaseAddr + offset))
def pmReg (offset : Nat) : BitVec 16 := regs (smdioReg (phy.pmBaseAddr + offset))

/-- The correction, if the mode is one-step. -/
def shownCorrection : Option (BitVec 64) :=
  if (pmReg phy regs pmTsCfg).getLsbD 1 then
    some (pmReg phy regs (pmTxOstCfg + 12) ++ pmReg phy regs (pmTxOstCfg + 8) ++
      pmReg phy regs (pmTxOstCfg + 4) ++ pmReg phy regs pmTxOstCfg)
  else none

def shownTsCtrl : TsCtrl where
  tsEvtmsgEn := (gmacfReg phy regs timestampControlL).extractLsb' 14 1
  tsMasterEn := (gmacfReg phy regs timestampControlL).extractLsb' 15 1
  snapType := (gmacfReg phy regs timestampControlH).extractLsb' 0 2

def shownPpsCtrl : PpsCtrl where
  ppsctrlLow := gmacfReg phy regs 0x16E0
  nsecTgttime := gmacfReg phy regs 0x170C ++ gmacfReg phy regs 0x1708
  secTgttime := gmacfReg phy regs 0x1704 ++ gmacfReg phy regs 0x1700
  pps0Interal :=
    unitsToNanosec phy.ptpClock (gmacfReg phy regs 0x1714 ++ gmacfReg phy regs 0x1710)
  pps0Width := unitsToNanosec phy.ptpClock (gmacfReg phy regs 0x171C ++ gmacfReg phy regs 0x1718)

def shownPtoCtrl : PtoCtrl where
  ptoctrlLow := gmacfReg phy regs 0x1780
  sportId := (List.range 5).map fun i => gmacfReg phy regs (0x1788 + i * 4)
  logmLvlLow := gmacfReg phy regs 0x17A0
  logmLvlHi := gmacfReg phy regs 0x17A4

/-- All that `getcfg` reports. -/
def shownPtpCfg : PtpCfg where
  txTsPhy := (pmReg phy regs pmTsCfg).extractLsb' 8 1
  rxTsPhy := (pmReg phy regs pmTsCfg).extractLsb' 9 1
  txPtpOff := (pmReg phy regs pmGmacPtpCfg).extractLsb' 0 14
  txPtpTpt := (pmReg phy regs pmGmacPtpCfg).extractLsb' 14 2
  tsOstcEn := (pmReg phy regs pmTsCfg).extractLsb' 1 1
  txOstCorr := shownCorrection phy regs
  tsCtrl := shownTsCtrl phy regs
  ppsCtrl := shownPpsCtrl phy regs
  ptoCtrl := shownPtoCtrl phy regs

variable (s : Regs)

theorem exec_readPtpCtrl : (readPtpCtrl phy).exec memHandler s =
    (.ok (pmReg phy s.smdio pmGmacPtpCfg, pmReg phy s.smdio pmTsCfg, shownCorrection phy s.smdio), s) := by
  have hread : ∀ addr, (smdioReadAt addr).exec memHandler s = (.ok (s.smdio (smdioReg addr)), s) :=
    fun _ => rfl
  rw [readPtpCtrl, exec_bind_ok (hread _), exec_bind_ok (hread _)]
  unfold shownCorrection
  by_cases hone : (pmReg phy s.smdio pmTsCfg).getLsbD 1
  · rw [if_pos hone]
    refine (congrArg (exec memHandler · s) (if_pos hone)).trans ?_
    rfl
  · rw [if_neg hone]
    refine (congrArg (exec memHandler · s) (if_neg hone)).trans ?_
    rfl

theorem exec_gpy2xxPtpGetPpsctrl : (gpy2xxPtpGetPpsctrl phy).exec (handler memHandler) s =
    (.ok (shownPpsCtrl phy s.smdio), s) := rfl

theorem exec_gpy2xxPtpGetcfg : (gpy2xxPtpGetcfg phy).exec (handler memHandler) s =
    (.ok (shownPtpCfg phy s.smdio), s) := by
  have hread : (outside (readPtpCtrl phy)).exec (handler memHandler) s = _ :=
    (exec_outside memHandler _ s).trans (exec_readPtpCtrl phy s)
  rw [gpy2xxPtpGetcfg, exec_bracket, exec_bind_ok hread]
  rfl

end View

/-! ## What a call writes -/

/-- The access succeeds and its writes are `l`. -/
def Writes {α : Type} (x : Api α) (s : Regs) (l : List (Nat × BitVec 16)) (a : α) : Prop :=
  x.exec memHandler s = (.ok a, { s with smdio := writes s.smdio l })

section Calls
variable {phy : Gpy211Device} {s : Regs}

theorem Writes.bind {α β : Type} {x : Api α} {f : α → Api β} {l₁ l₂ : List (Nat × BitVec 16)} {a : α}
    {b : β} (hx : Writes x s l₁ a) (hf : Writes (f a) { s with smdio := writes s.smdio l₁ } l₂ b) :
    Writes (x >>= f) s (l₁ ++ l₂) b := by
  unfold Writes
  rw [exec_bind_ok hx, writes_append]
  exact hf

theorem Writes.of_pos {α : Type} {c : Prop} [Decidable c] {x y : Api α} {l : List (Nat × BitVec 16)}
    {a : α} (hc : c) (hx : Writes x s l a) : Writes (if c then x else y) s l a := by rwa [if_pos hc]

theorem Writes.of_neg {α : Type} {c : Prop} [Decidable c] {x y : Api α} {l : List (Nat × BitVec 16)}
    {a : α} (hc : ¬c) (hy : Writes y s l a) : Writes (if c then x else y) s l a := by rwa [if_neg hc]

/-- What is not a write, before the rest. -/
theorem Writes.silent_bind {α β : Type} {x : Api α} {f : α → Api β} {l : List (Nat × BitVec 16)} {a : α}
    {b : β} (hx : Writes x s [] a) (hf : Writes (f a) s l b) : Writes (x >>= f) s l b := hx.bind hf

/-- One read, before the rest. -/
theorem Writes.read_bind {β : Type} {addr : Nat} {f : BitVec 16 → Api β} {l : List (Nat × BitVec 16)}
    {b : β} (hf : Writes (f (s.smdio (smdioReg addr))) s l b) : Writes (smdioReadAt addr >>= f) s l b := hf

/-- One write, before the rest. -/
theorem Writes.write_bind {β : Type} {addr : Nat} {v : BitVec 16} {f : Unit → Api β}
    {l : List (Nat × BitVec 16)} {b : β}
    (hf : Writes (f ()) { s with smdio := Function.update s.smdio (smdioReg addr) v } l b) :
    Writes (smdioWriteAt addr v >>= f) s ((smdioReg addr, v) :: l) b := hf

theorem exec_pollBusy (reg bit n : Nat) : ∃ r : Bool × Nat,
    (pollBusy reg bit n).exec memHandler s = (.ok r, s) ∧ (r.1 = false → 0 < r.2) := by
  induction n with
  | zero => exact ⟨(true, 0), rfl, fun h => nomatch h⟩
  | succ n ih =>
    have hread : ((smdioReadAt reg).attempt).exec memHandler s =
        (.ok (.ok (s.smdio (smdioReg reg))), s) := rfl
    rw [pollBusy, exec_bind_ok hread]
    by_cases hbusy : (returnedWord (.ok (s.smdio (smdioReg reg)))).getLsbD bit
    · rw [if_pos hbusy]
      exact ih
    · rw [if_neg hbusy]
      exact ⟨(false, n + 1), rfl, fun _ => Nat.succ_pos n⟩

/-- A register that is memory is done, or stays busy until the wait gives up; both count as done. -/
theorem writes_isRwDone (reg bit : Nat) : Writes (isRwDone reg bit) s [] () := by
  obtain ⟨⟨busy, left⟩, hpoll, hleft⟩ := @exec_pollBusy s reg bit 100
  have hdone : ¬(!busy && left == 0) = true := by
    cases busy with
    | true => simp
    | false =>
      have hpos : 0 < left := hleft rfl
      simp
      omega
  have hpure : Writes (pure ()) s [] () := rfl
  have hrest : Writes (if !busy && left == 0 then throw errRet else pure ()) s [] () :=
    Writes.of_neg hdone hpure
  unfold Writes
  rw [isRwDone, exec_bind_ok hpoll]
  exact hrest

theorem writes_smdioWriteAt (addr : Nat) (v : BitVec 16) :
    Writes (smdioWriteAt addr v) s [(smdioReg addr, v)] () := rfl

theorem writes_smdioSetBit (addr pos : Nat) :
    Writes (smdioSetBit addr pos) s [(smdioReg addr, s.smdio (smdioReg addr) ||| 1 <<< pos)] () := rfl

theorem writes_writeAddend (addend : BitVec 32) : ∃ v, Writes (writeAddend phy addend) s [
    (addendLowReg phy, addend.extractLsb' 0 16), (addendHighReg phy, addend.extractLsb' 16 16),
    (smdioReg (phy.gmacfBaseAddr + timestampControlL), v)] () := by
  refine ⟨_, (writes_isRwDone _ _).silent_bind (Writes.write_bind (Writes.write_bind
    ((writes_smdioSetBit _ _).bind (writes_isRwDone _ _))))⟩

theorem writes_ptpSetAddend (addend : BitVec 32) : ∃ l, Writes (ptpSetAddend phy addend) s l () ∧
    ∀ reg ∈ l.map Prod.fst, reg ∈ [addendLowReg phy, addendHighReg phy,
      smdioReg (phy.gmacfBaseAddr + timestampControlL)] := by
  have hread : Writes (smdioReadAt (phy.gmacfBaseAddr + timestampControlL)) s []
      (s.smdio (smdioReg (phy.gmacfBaseAddr + timestampControlL))) := rfl
  by_cases hskip : (!(s.smdio (smdioReg (phy.gmacfBaseAddr + timestampControlL))).getLsbD focUpdtPos ||
      addend == 0) = true
  · have hnothing : Writes (pure ()) s [] () := rfl
    exact ⟨[], hread.silent_bind (hnothing.of_pos hskip), fun _ h => nomatch h⟩
  · obtain ⟨v, hwrite⟩ := @writes_writeAddend phy s addend
    exact ⟨_, hread.silent_bind (hwrite.of_neg hskip), fun reg h => h⟩

/-- The writes of one-step mode. -/
def correctionWrites (phy : Gpy211Device) (ptpCfg : PtpCtrl) : List (Nat × BitVec 16) :=
  if ptpCfg.tsOstcEn = 1 then [
    (smdioReg (phy.pmBaseAddr + pmTxOstCfg), ptpCfg.txOstCorr.extractLsb' 0 16),
    (smdioReg (phy.pmBaseAddr + pmTxOstCfg + 4), ptpCfg.txOstCorr.extractLsb' 16 16),
    (smdioReg (phy.pmBaseAddr + pmTxOstCfg + 8), ptpCfg.txOstCorr.extractLsb' 32 16),
    (smdioReg (phy.pmBaseAddr + pmTxOstCfg + 12), ptpCfg.txOstCorr.extractLsb' 48 16)]
  else []

theorem writes_setCorrection (ptpCfg : PtpCtrl) :
    Writes (setCorrection phy ptpCfg) s (correctionWrites phy ptpCfg) () := by
  unfold setCorrection correctionWrites
  by_cases hone : ptpCfg.tsOstcEn = 1
  · rw [if_pos hone, if_pos hone]
    exact Writes.write_bind (Writes.write_bind (Writes.write_bind (writes_smdioWriteAt _ _)))
  · rw [if_neg hone, if_neg hone]
    rfl

theorem writes_ptpSetSsecinc (hclock : phy.ptpClock ≠ 0) : Writes (ptpSetSsecinc phy) s [
    (ssincReg phy, (subSec phy.ptpClock).setWidth 16),
    (snsincReg phy, (subNsec phy.ptpClock).setWidth 16 <<< 8)] () := by
  unfold ptpSetSsecinc
  exact Writes.of_neg hclock (Writes.write_bind (writes_smdioWriteAt _ _))

theorem writes_enablePtpDetection : ∃ v v₂, Writes (enablePtpDetection phy) s [
    (smdioReg (phy.pmBaseAddr + pmGmacCfg), v), (smdioReg (phy.pmBaseAddr + pmGmaclCfg), v₂)] () :=
  ⟨_, _, rfl⟩

/-- Everything `ptp_enable` writes, but for the addend and the timestamp control. -/
def enableWrites (phy : Gpy211Device) (stack : BitVec 16) (ptpCfg : PtpCtrl) (v v₂ : BitVec 16) :
    List (Nat × BitVec 16) := [
  (smdioReg (phy.pmBaseAddr + pmGmacCfg), v), (smdioReg (phy.pmBaseAddr + pmGmaclCfg), v₂),
  (smdioReg (phy.pmBaseAddr + pmTsCfg), tsCfgWord stack ptpCfg),
  (smdioReg (phy.pmBaseAddr + pmGmacPtpCfg), ptpCfg.txPtpTpt ++ ptpCfg.txPtpOff)] ++
  (correctionWrites phy ptpCfg ++ [
  (smdioReg (phy.gmacfBaseAddr + timestampControlL), 0x3E03),
  (smdioReg (phy.gmaclBaseAddr + liteTimestampControlL phy.family), 0x3C01),
  (ssincReg phy, (subSec phy.ptpClock).setWidth 16),
  (snsincReg phy, (subNsec phy.ptpClock).setWidth 16 <<< 8)])

theorem writes_enableTimestamps (hclock : phy.ptpClock ≠ 0) (stack : BitVec 16) (ptpCfg : PtpCtrl) :
    ∃ v v₂, Writes (enableTimestamps phy stack ptpCfg) s (enableWrites phy stack ptpCfg v v₂) () := by
  obtain ⟨v, v₂, hdetect⟩ := @writes_enablePtpDetection phy s
  refine ⟨v, v₂, hdetect.bind (Writes.write_bind (Writes.write_bind ?_))⟩
  refine (writes_setCorrection ptpCfg).bind (Writes.write_bind (Writes.write_bind ?_))
  exact writes_ptpSetSsecinc hclock

/-- The words `set_tsctrl` makes of what the two registers hold. -/
def tsctrlLow (tsCfg : TsCtrl) (low : BitVec 16) : BitVec 16 := replaceFields low [
  (⟨0x4000, 14⟩, tsCfg.tsEvtmsgEn.setWidth 16), (⟨0x8000, 15⟩, tsCfg.tsMasterEn.setWidth 16)]

def tsctrlHigh (tsCfg : TsCtrl) (high : BitVec 16) : BitVec 16 :=
  replaceFields high [(⟨0x3, 0⟩, tsCfg.snapType.setWidth 16), (⟨0x100, 8⟩, 1)]

def tsctrlWrites (phy : Gpy211Device) (tsCfg : TsCtrl) (low high : BitVec 16) : List (Nat × BitVec 16) := [
  (smdioReg (phy.gmacfBaseAddr + timestampControlL), tsctrlLow tsCfg low),
  (smdioReg (phy.gmacfBaseAddr + timestampControlH), tsctrlHigh tsCfg high)]

theorem exec_gpy2xxPtpSetTsctrl (tsCfg : TsCtrl) : ∃ low high,
    (gpy2xxPtpSetTsctrl phy tsCfg).exec (handler memHandler) s =
      (.ok (), { s with smdio := writes s.smdio (tsctrlWrites phy tsCfg low high) }) := by
  unfold gpy2xxPtpSetTsctrl
  rw [exec_locked]
  exact ⟨_, _, Writes.read_bind (Writes.write_bind (Writes.read_bind (writes_smdioWriteAt _ _)))⟩

/-- The writes of `set_ptoctrl`. -/
def ptoctrlWrites (phy : Gpy211Device) (ptoCtrl : PtoConfig) : List (Nat × BitVec 16) :=
  (smdioReg (phy.gmacfBaseAddr + 0x1780), ptoCtrl.ptoctrlLow) ::
  (List.finRange 5).map (fun i =>
    (smdioReg (phy.gmacfBaseAddr + 0x1788 + i.val * 4), sportHalfword ptoCtrl.sportId i)) ++
  [(smdioReg (phy.gmacfBaseAddr + 0x17A0), ptoCtrl.rawLogmLvlLow),
    (smdioReg (phy.gmacfBaseAddr + 0x17A4), ptoCtrl.rawLogmLvlHi)]

/-- A loop of writes, by induction on what it goes over. -/
theorem writes_forM {ι : Type} (addr : ι → Nat) (v : ι → BitVec 16) (is : List ι) :
    Writes (is.forM fun i => smdioWriteAt (addr i) (v i)) s
      (is.map fun i => (smdioReg (addr i), v i)) () := by
  induction is generalizing s with
  | nil => rfl
  | cons i is ih => exact Writes.write_bind ih

theorem exec_gpy2xxPtpSetPtoctrl {ptoCtrl : PtoConfig} (haccepts : ptoAccepts ptoCtrl) :
    (gpy2xxPtpSetPtoctrl phy ptoCtrl).exec (handler memHandler) s =
      (.ok (), { s with smdio := writes s.smdio (ptoctrlWrites phy ptoCtrl) }) := by
  have hopen : ¬(!ptoAccepts ptoCtrl) = true := by simp [haccepts]
  rw [gpy2xxPtpSetPtoctrl, if_neg hopen, exec_locked]
  exact Writes.write_bind ((writes_forM _ _ _).bind (Writes.write_bind (writes_smdioWriteAt _ _)))

theorem exec_configureTimestamps : ∃ s' low high,
    (configureTimestamps phy).exec (handler memHandler) s = (.ok (), s') ∧
      s'.smdio = writes s.smdio (tsctrlWrites phy ⟨0, 0, 1⟩ low high) := by
  obtain ⟨low, high, hexec⟩ := @exec_gpy2xxPtpSetTsctrl phy s ⟨0, 0, 1⟩
  rw [configureTimestamps, exec_bind_ok hexec]
  exact ⟨_, low, high, rfl, rfl⟩

theorem exec_gpy2xxPtpEnable {stack : BitVec 16} {ptpCfg : PtpCtrl} (haccepts : ptpEnableAccepts ptpCfg)
    (hclock : phy.ptpClock ≠ 0) : ∃ s' v v₂ l low high,
    (gpy2xxPtpEnable phy stack ptpCfg).exec (handler memHandler) s = (.ok (), s') ∧
    (∀ reg ∈ l.map Prod.fst, reg ∈ [addendLowReg phy, addendHighReg phy,
      smdioReg (phy.gmacfBaseAddr + timestampControlL)]) ∧
    s'.smdio = writes s.smdio
      (enableWrites phy stack ptpCfg v v₂ ++ l ++ tsctrlWrites phy ⟨0, 0, 1⟩ low high) := by
  have hopen : ¬(!ptpEnableAccepts ptpCfg) = true := by simp [haccepts]
  obtain ⟨v, v₂, henable⟩ := @writes_enableTimestamps phy s hclock stack ptpCfg
  obtain ⟨l, haddend, hkeys⟩ := @writes_ptpSetAddend phy
    { s with smdio := writes s.smdio (enableWrites phy stack ptpCfg v v₂) } (defaultAddend phy.ptpClock)
  have hstart : Writes (startPtp phy stack ptpCfg) s (enableWrites phy stack ptpCfg v v₂ ++ l) () :=
    henable.bind haddend
  have houtside := (exec_outside memHandler _ s).trans hstart
  obtain ⟨s', low, high, hexec, hsmdio⟩ := @exec_configureTimestamps phy
    { s with smdio := writes s.smdio (enableWrites phy stack ptpCfg v v₂ ++ l) }
  refine ⟨s', v, v₂, l, low, high, ?_, hkeys, ?_⟩
  · rw [gpy2xxPtpEnable, if_neg hopen, exec_bracket, exec_bind_ok houtside]
    exact hexec
  · exact hsmdio.trans (writes_append).symm

/-! ## Where the writes are -/

theorem pmReg_ne_gmacfReg (hbases : KnownBases phy) {p g : Nat} (hp : p < 0x1000) (hg : g < 0x2000) :
    smdioReg (phy.pmBaseAddr + p) ≠ smdioReg (phy.gmacfBaseAddr + g) := by
  unfold smdioReg
  rcases hbases with ⟨-, hf, -, hpm⟩ | ⟨-, hf, -, hpm⟩
  · rw [hf, hpm]
    omega
  · rw [hf, hpm]
    omega

/-- The offsets from the full GMAC that the getter of the offload control reads. -/
def ptoOffsets : List Nat := [0x1780, 0x1788, 0x178C, 0x1790, 0x1794, 0x1798, 0x17A0, 0x17A4]

/-- They are behind those of the timestamp control and of the clock. -/
theorem le_of_mem_ptoOffsets {o : Nat} (ho : o ∈ ptoOffsets) : 0x1780 ≤ o ∧ o < 0x1800 := by
  have hall : ∀ o ∈ ptoOffsets, 0x1780 ≤ o ∧ o < 0x1800 := by decide
  exact hall o ho

theorem ptoReg_ne {o g : Nat} (ho : o ∈ ptoOffsets) (hg : g < 0x1700) :
    smdioReg (phy.gmacfBaseAddr + o) ≠ smdioReg (phy.gmacfBaseAddr + g) := by
  have hrange := le_of_mem_ptoOffsets ho
  exact (smdioReg_ne (by omega) (by omega)).symm

/-- The keys of `enableWrites`. -/
def enableKeys (phy : Gpy211Device) (ptpCfg : PtpCtrl) : List Nat := [
  smdioReg (phy.pmBaseAddr + pmGmacCfg), smdioReg (phy.pmBaseAddr + pmGmaclCfg),
  smdioReg (phy.pmBaseAddr + pmTsCfg), smdioReg (phy.pmBaseAddr + pmGmacPtpCfg)] ++
  ((correctionWrites phy ptpCfg).map Prod.fst ++ [
  smdioReg (phy.gmacfBaseAddr + timestampControlL),
  smdioReg (phy.gmaclBaseAddr + liteTimestampControlL phy.family), ssincReg phy, snsincReg phy])

theorem keys_enableWrites (stack : BitVec 16) (ptpCfg : PtpCtrl) (v v₂ : BitVec 16) :
    (enableWrites phy stack ptpCfg v v₂).map Prod.fst = enableKeys phy ptpCfg := by
  unfold enableWrites enableKeys
  rw [List.map_append, List.map_append]
  rfl

theorem keys_correctionWrites (ptpCfg : PtpCtrl) : (correctionWrites phy ptpCfg).map Prod.fst =
    if ptpCfg.tsOstcEn = 1 then [smdioReg (phy.pmBaseAddr + pmTxOstCfg),
      smdioReg (phy.pmBaseAddr + pmTxOstCfg + 4), smdioReg (phy.pmBaseAddr + pmTxOstCfg + 8),
      smdioReg (phy.pmBaseAddr + pmTxOstCfg + 12)] else [] := by
  unfold correctionWrites
  split
  · rfl
  · rfl

/-- None of them is written twice, nor one that the getter of the offload control reads. -/
theorem nodup_enableKeys (hbases : KnownBases phy) (ptpCfg : PtpCtrl) :
    (ptoOffsets.map (fun o => smdioReg (phy.gmacfBaseAddr + o)) ++ enableKeys phy ptpCfg).Nodup := by
  unfold enableKeys ssincReg snsincReg liteTimestampControlL
  rw [keys_correctionWrites]
  rcases hbases with ⟨hfamily, hf, hl, hpm⟩ | ⟨hfamily, hf, hl, hpm⟩
  · rw [hf, hl, hpm, if_pos hfamily]
    split <;> decide
  · rw [hf, hl, hpm, if_neg hfamily]
    split <;> decide

theorem ptoReg_notMem_enableKeys (hbases : KnownBases phy) (ptpCfg : PtpCtrl) {o : Nat}
    (ho : o ∈ ptoOffsets) : smdioReg (phy.gmacfBaseAddr + o) ∉ enableKeys phy ptpCfg := by
  intro hmem
  have hapart := (List.nodup_append.mp (nodup_enableKeys hbases ptpCfg)).2.2
  exact hapart _ (List.mem_map.mpr ⟨o, ho, rfl⟩) _ hmem rfl

/-- The registers of the addend and of the timestamp control. -/
def clockRegs (phy : Gpy211Device) : List Nat := [addendLowReg phy, addendHighReg phy,
  smdioReg (phy.gmacfBaseAddr + timestampControlL), smdioReg (phy.gmacfBaseAddr + timestampControlH)]

theorem pmReg_notMem_clockRegs (hbases : KnownBases phy) {o : Nat} (ho : o < 0x1000) :
    smdioReg (phy.pmBaseAddr + o) ∉ clockRegs phy := by
  have hne : ∀ g < 0x2000, smdioReg (phy.pmBaseAddr + o) ≠ smdioReg (phy.gmacfBaseAddr + g) :=
    fun g hg => pmReg_ne_gmacfReg hbases ho hg
  simp only [clockRegs, addendLowReg, addendHighReg, List.mem_cons, List.not_mem_nil, or_false, not_or]
  exact ⟨hne _ (by decide), hne _ (by decide), hne _ (by decide), hne _ (by decide)⟩

theorem ptoReg_notMem_clockRegs {o : Nat} (ho : o ∈ ptoOffsets) :
    smdioReg (phy.gmacfBaseAddr + o) ∉ clockRegs phy := by
  have hne : ∀ g < 0x1700, smdioReg (phy.gmacfBaseAddr + o) ≠ smdioReg (phy.gmacfBaseAddr + g) :=
    fun g hg => ptoReg_ne ho hg
  simp only [clockRegs, addendLowReg, addendHighReg, List.mem_cons, List.not_mem_nil, or_false, not_or]
  exact ⟨hne _ (by decide), hne _ (by decide), hne _ (by decide), hne _ (by decide)⟩

theorem mem_clockRegs_of_tsctrlWrites {tsCfg : TsCtrl} {low high : BitVec 16} {reg : Nat}
    (h : reg ∈ (tsctrlWrites phy tsCfg low high).map Prod.fst) : reg ∈ clockRegs phy := by
  simp only [tsctrlWrites, List.map_cons, List.map_nil, List.mem_cons, List.not_mem_nil, or_false] at h
  simp only [clockRegs, List.mem_cons, List.not_mem_nil, or_false]
  exact Or.inr (Or.inr h)

/-! ## What a call configures -/

theorem nodup_tsctrlWrites (tsCfg : TsCtrl) (low high : BitVec 16) :
    ((tsctrlWrites phy tsCfg low high).map Prod.fst).Nodup := by
  have hne : smdioReg (phy.gmacfBaseAddr + timestampControlL) ≠
      smdioReg (phy.gmacfBaseAddr + timestampControlH) := smdioReg_ne (by decide) (by decide)
  simpa [tsctrlWrites] using hne

/-- After the writes of `set_tsctrl` the getter shows what was set. -/
theorem shownTsCtrl_tsctrlWrites (regs : Nat → BitVec 16) (tsCfg : TsCtrl) (low high : BitVec 16) :
    shownTsCtrl phy (writes regs (tsctrlWrites phy tsCfg low high)) = tsCfg := by
  have hlow := @writes_of_mem _ _ _ regs _ _ _ (@nodup_tsctrlWrites phy tsCfg low high)
    List.mem_cons_self
  have hhigh := @writes_of_mem _ _ _ regs _ _ _ (@nodup_tsctrlWrites phy tsCfg low high)
    (List.mem_cons_of_mem _ List.mem_cons_self)
  unfold shownTsCtrl gmacfReg
  rw [hlow, hhigh]
  have hone : ∀ v : BitVec 1, (v.setWidth 16).toNat < 2 ^ 1 := by decide
  have htwo : ∀ v : BitVec 2, (v.setWidth 16).toNat < 2 ^ 2 := by decide
  have hevtmsg : (⟨0x4000, 14⟩ : Field 16).get (tsctrlLow tsCfg low) = tsCfg.tsEvtmsgEn.setWidth 16 :=
    get_replaceFields_bit (by decide) (hone _) (by simp)
  have hmaster : (⟨0x8000, 15⟩ : Field 16).get (tsctrlLow tsCfg low) = tsCfg.tsMasterEn.setWidth 16 :=
    get_replaceFields_skip fun _ => get_replaceFields_bit (by decide) (hone _) (by simp)
  have hsnap : (⟨0x3, 0⟩ : Field 16).get (tsctrlHigh tsCfg high) = tsCfg.snapType.setWidth 16 :=
    get_replaceFields_cons (by decide) (htwo _) (by simp)
  have hevtmsg := Field.extract_of_get (show Field.Spans _ 1 by decide) hevtmsg
  have hmaster := Field.extract_of_get (show Field.Spans _ 1 by decide) hmaster
  have hsnap := Field.extract_of_get (show Field.Spans _ 2 by decide) hsnap
  rw [hevtmsg, hmaster, hsnap]

/-- The getter of the offload control looks at these offsets only. -/
theorem shownPtoCtrl_congr {regs regs' : Nat → BitVec 16}
    (h : ∀ o ∈ ptoOffsets, gmacfReg phy regs' o = gmacfReg phy regs o) :
    shownPtoCtrl phy regs' = shownPtoCtrl phy regs := by
  have hsport : (List.range 5).map (fun i => gmacfReg phy regs' (0x1788 + i * 4)) =
      (List.range 5).map (fun i => gmacfReg phy regs (0x1788 + i * 4)) := by
    have hin : ∀ i ∈ List.range 5, 0x1788 + i * 4 ∈ ptoOffsets := by decide
    exact List.map_congr_left fun i hi => h _ (hin i hi)
  unfold shownPtoCtrl
  rw [hsport, h 0x1780 (by decide), h 0x17A0 (by decide), h 0x17A4 (by decide)]

/-- And the getter of the timestamp control at these two. -/
theorem shownTsCtrl_congr {regs regs' : Nat → BitVec 16}
    (hlow : gmacfReg phy regs' timestampControlL = gmacfReg phy regs timestampControlL)
    (hhigh : gmacfReg phy regs' timestampControlH = gmacfReg phy regs timestampControlH) :
    shownTsCtrl phy regs' = shownTsCtrl phy regs := by
  unfold shownTsCtrl
  rw [hlow, hhigh]

/-! ## Reports -/

/-- What the getter shows of the values given to `set_ptoctrl`. -/
structure ReportsPto (shown : PtoCtrl) (ptoCtrl : PtoConfig) : Prop where
  ptoctrlLow : shown.ptoctrlLow = ptoCtrl.ptoctrlLow
  sportBytes : shown.sportBytes = ptoCtrl.sportId.toList
  logSyncInterval : shown.logSyncInterval.toInt = ptoCtrl.logSyncInterval.toInt
  drToSyncRatio : shown.drToSyncRatio = ptoCtrl.drToSyncRatio
  logMinPdrInterval : shown.logMinPdrInterval.toInt = ptoCtrl.logMinPdrInterval.toInt

/-- What `getcfg` shows of the values given to `ptp_enable`: the correction in one-step mode only. -/
structure ReportsCtrl (shown : PtpCfg) (ptpCfg : PtpCtrl) : Prop where
  txTsPhy : shown.txTsPhy = ptpCfg.txTsPhy
  rxTsPhy : shown.rxTsPhy = ptpCfg.rxTsPhy
  txPtpOff : shown.txPtpOff = ptpCfg.txPtpOff
  txPtpTpt : shown.txPtpTpt = ptpCfg.txPtpTpt
  tsOstcEn : shown.tsOstcEn = ptpCfg.tsOstcEn
  txOstCorr : shown.txOstCorr = if ptpCfg.tsOstcEn = 1 then some ptpCfg.txOstCorr else none

/-- Negating a negative interval twice leaves it as it is. -/
theorem twosComplement_eq : ∀ interval : BitVec 8, twosComplement interval = interval := by decide

/-- The bytes of the half-words are those of the identity. -/
theorem bytes_sportHalfword (sportId : Vector (BitVec 8) 10) :
    ((List.finRange 5).map (sportHalfword sportId)).flatMap
      (fun w => [w.extractLsb' 0 8, w.extractLsb' 8 8]) = sportId.toList := by
  have hbytes : ∀ i : Fin 5, [(sportHalfword sportId i).extractLsb' 0 8,
      (sportHalfword sportId i).extractLsb' 8 8] = [sportId[2 * i.val], sportId[2 * i.val + 1]] := by
    intro i
    rw [sportHalfword, BitVec.extractLsb'_append_eq_left, BitVec.extractLsb'_append_eq_right]
  have hlist : sportId.toList = List.ofFn fun i : Fin 10 => sportId[i.val] := by
    refine List.ext_getElem (by simp) fun i _ _ => ?_
    rw [List.getElem_ofFn, Vector.getElem_toList]
  rw [List.flatMap_map, hlist]
  simp only [hbytes]
  rfl

theorem keys_ptoctrlWrites (ptoCtrl : PtoConfig) : (ptoctrlWrites phy ptoCtrl).map Prod.fst =
    ptoOffsets.map fun o => smdioReg (phy.gmacfBaseAddr + o) := by
  have hall : List.finRange 5 = [0, 1, 2, 3, 4] := rfl
  rw [ptoctrlWrites, hall, ptoOffsets]
  simp only [Nat.add_assoc]
  rfl

theorem reportsPto_ptoctrlWrites (hbases : KnownBases phy) (regs : Nat → BitVec 16)
    (ptoCtrl : PtoConfig) :
    ReportsPto (shownPtoCtrl phy (writes regs (ptoctrlWrites phy ptoCtrl))) ptoCtrl := by
  have hnodup : ((ptoctrlWrites phy ptoCtrl).map Prod.fst).Nodup := by
    rw [keys_ptoctrlWrites]
    exact (List.nodup_append.mp (nodup_enableKeys hbases ⟨0, 0, 0, 0, 0, 0⟩)).1
  have hread : ∀ reg v, (reg, v) ∈ ptoctrlWrites phy ptoCtrl →
      writes regs (ptoctrlWrites phy ptoCtrl) reg = v := fun _ _ h => writes_of_mem hnodup h
  have hlow := hread _ _ (show (smdioReg (phy.gmacfBaseAddr + 0x17A0), ptoCtrl.rawLogmLvlLow) ∈ _ by
    simp [ptoctrlWrites])
  have hhigh := hread _ _ (show (smdioReg (phy.gmacfBaseAddr + 0x17A4), ptoCtrl.rawLogmLvlHi) ∈ _ by
    simp [ptoctrlWrites])
  have hsport : ∀ i : Fin 5, gmacfReg phy (writes regs (ptoctrlWrites phy ptoCtrl)) (0x1788 + i.val * 4) =
      sportHalfword ptoCtrl.sportId i := by
    intro i
    rw [gmacfReg, ← Nat.add_assoc]
    apply hread
    exact List.mem_append_left _ (List.mem_cons_of_mem _ (List.mem_map.mpr ⟨i, List.mem_finRange i, rfl⟩))
  constructor
  · exact hread _ _ (by simp [ptoctrlWrites])
  · rw [← bytes_sportHalfword ptoCtrl.sportId]
    have hwords : (shownPtoCtrl phy (writes regs (ptoctrlWrites phy ptoCtrl))).sportId =
        (List.finRange 5).map (sportHalfword ptoCtrl.sportId) := by
      calc (shownPtoCtrl phy (writes regs (ptoctrlWrites phy ptoCtrl))).sportId
          = (List.finRange 5).map fun i =>
              gmacfReg phy (writes regs (ptoctrlWrites phy ptoCtrl)) (0x1788 + i.val * 4) := rfl
        _ = (List.finRange 5).map (sportHalfword ptoCtrl.sportId) :=
          List.map_congr_left fun i _ => hsport i
    rw [PtoCtrl.sportBytes, hwords]
  · rw [PtoCtrl.logSyncInterval, twosComplement_eq]
    refine congrArg BitVec.toInt ((congrArg (BitVec.extractLsb' 0 8) hlow).trans ?_)
    rw [PtoConfig.rawLogmLvlLow, BitVec.extractLsb'_append_eq_right, twosComplement_eq]
  · refine (congrArg (BitVec.extractLsb' 8 3) hlow).trans ?_
    rw [PtoConfig.rawLogmLvlLow, BitVec.extractLsb'_append_eq_of_le (by decide)]
    exact BitVec.extractLsb'_append_eq_right
  · rw [PtoCtrl.logMinPdrInterval, twosComplement_eq]
    refine congrArg BitVec.toInt ((congrArg (BitVec.extractLsb' 8 8) hhigh).trans ?_)
    rw [PtoConfig.rawLogmLvlHi, BitVec.extractLsb'_append_eq_left, twosComplement_eq]

/-- The fields of the timestamp configuration word. -/
theorem tsCfgWord_fields (stack : BitVec 16) (ptpCfg : PtpCtrl) :
    (tsCfgWord stack ptpCfg).extractLsb' 1 1 = ptpCfg.tsOstcEn ∧
    (tsCfgWord stack ptpCfg).extractLsb' 8 1 = ptpCfg.txTsPhy ∧
    (tsCfgWord stack ptpCfg).extractLsb' 9 1 = ptpCfg.rxTsPhy := by
  have hone : ∀ v : BitVec 1, (v.setWidth 16).toNat < 2 ^ 1 := by decide
  have hostc : (⟨0x2, 1⟩ : Field 16).get (tsCfgWord stack ptpCfg) = ptpCfg.tsOstcEn.setWidth 16 :=
    get_replaceFields_skip fun _ => get_replaceFields_skip fun _ => get_replaceFields_skip fun _ =>
      get_replaceFields_skip fun _ => get_replaceFields_skip fun _ => get_replaceFields_skip fun _ =>
      get_replaceFields_bit (by decide) (hone _) (by simp)
  have htx : (⟨0x100, 8⟩ : Field 16).get (tsCfgWord stack ptpCfg) = ptpCfg.txTsPhy.setWidth 16 :=
    get_replaceFields_skip fun _ => get_replaceFields_skip fun _ => get_replaceFields_skip fun _ =>
      get_replaceFields_skip fun _ => get_replaceFields_skip fun _ => get_replaceFields_skip fun _ =>
      get_replaceFields_skip fun _ => get_replaceFields_bit (by decide) (hone _) (by simp)
  have hrx : (⟨0x200, 9⟩ : Field 16).get (tsCfgWord stack ptpCfg) = ptpCfg.rxTsPhy.setWidth 16 :=
    get_replaceFields_skip fun _ => get_replaceFields_skip fun _ => get_replaceFields_skip fun _ =>
      get_replaceFields_skip fun _ => get_replaceFields_skip fun _ => get_replaceFields_skip fun _ =>
      get_replaceFields_skip fun _ => get_replaceFields_skip fun _ =>
      get_replaceFields_bit (by decide) (hone _) (by simp)
  exact ⟨Field.extract_of_get (by decide) hostc, Field.extract_of_get (by decide) htx,
    Field.extract_of_get (by decide) hrx⟩

theorem bit_cases : ∀ v : BitVec 1, v = 0 ∨ v = 1 := by decide

theorem correction_halves (corr : BitVec 64) : corr.extractLsb' 48 16 ++ corr.extractLsb' 32 16 ++
    corr.extractLsb' 16 16 ++ corr.extractLsb' 0 16 = corr := by
  have hjoin : ∀ start len len₂, corr.extractLsb' (start + len) len₂ ++ corr.extractLsb' start len =
      corr.extractLsb' start (len₂ + len) :=
    fun _ _ _ => BitVec.extractLsb'_append_extractLsb'_eq_extractLsb' rfl
  rw [hjoin 32 16 16, hjoin 16 16 32, hjoin 0 16 48]
  exact BitVec.extractLsb'_eq_self

/-- The registers of the PM that `ptp_enable` writes, after its writes and those of the clock. -/
theorem reportsCtrl_enableWrites (hbases : KnownBases phy) {regs : Nat → BitVec 16} {stack : BitVec 16}
    {ptpCfg : PtpCtrl} {v v₂ : BitVec 16}
    (h : ∀ o < 0x1000, pmReg phy regs o =
      writes s.smdio (enableWrites phy stack ptpCfg v v₂) (smdioReg (phy.pmBaseAddr + o))) :
    ReportsCtrl (shownPtpCfg phy regs) ptpCfg := by
  have hnodup : ((enableWrites phy stack ptpCfg v v₂).map Prod.fst).Nodup := by
    rw [keys_enableWrites]
    exact (List.nodup_append.mp (nodup_enableKeys hbases ptpCfg)).2.1
  have hread : ∀ o < 0x1000, ∀ w, (smdioReg (phy.pmBaseAddr + o), w) ∈ enableWrites phy stack ptpCfg v v₂ →
      pmReg phy regs o = w := fun o ho w hmem => (h o ho).trans (writes_of_mem hnodup hmem)
  have htsCfg := hread pmTsCfg (by decide) (tsCfgWord stack ptpCfg) (by simp [enableWrites])
  have hptpCfg := hread pmGmacPtpCfg (by decide) (ptpCfg.txPtpTpt ++ ptpCfg.txPtpOff)
    (by simp [enableWrites])
  obtain ⟨hostc, htx, hrx⟩ := tsCfgWord_fields stack ptpCfg
  constructor
  · exact (congrArg (BitVec.extractLsb' 8 1) htsCfg).trans htx
  · exact (congrArg (BitVec.extractLsb' 9 1) htsCfg).trans hrx
  · exact (congrArg (BitVec.extractLsb' 0 14) hptpCfg).trans BitVec.extractLsb'_append_eq_right
  · exact (congrArg (BitVec.extractLsb' 14 2) hptpCfg).trans BitVec.extractLsb'_append_eq_left
  · exact (congrArg (BitVec.extractLsb' 1 1) htsCfg).trans hostc
  · have hbit : (tsCfgWord stack ptpCfg).getLsbD 1 = ptpCfg.tsOstcEn.getLsbD 0 := by
      rw [← hostc]
      simp
    show shownCorrection phy regs = _
    rw [shownCorrection, htsCfg, hbit]
    rcases (show ptpCfg.tsOstcEn = 0 ∨ ptpCfg.tsOstcEn = 1 from bit_cases _) with hzero | hone
    · rw [hzero]
      rfl
    · have hcorr : ∀ o < 0x1000, ∀ w, (smdioReg (phy.pmBaseAddr + o), w) ∈ correctionWrites phy ptpCfg →
          pmReg phy regs o = w := fun o ho w hmem =>
        hread o ho w (List.mem_append_right _ (List.mem_append_left _ hmem))
      rw [correctionWrites, if_pos hone] at hcorr
      rw [if_pos hone, hone, if_pos (by decide)]
      rw [hcorr (pmTxOstCfg + 12) (by decide) (ptpCfg.txOstCorr.extractLsb' 48 16) (by simp [Nat.add_assoc])]
      rw [hcorr (pmTxOstCfg + 8) (by decide) (ptpCfg.txOstCorr.extractLsb' 32 16) (by simp [Nat.add_assoc])]
      rw [hcorr (pmTxOstCfg + 4) (by decide) (ptpCfg.txOstCorr.extractLsb' 16 16) (by simp [Nat.add_assoc])]
      rw [hcorr pmTxOstCfg (by decide) (ptpCfg.txOstCorr.extractLsb' 0 16) (by simp)]
      rw [correction_halves]

/-- The registers of the PM decide what is shown of `ptp_enable`. -/
theorem reportsCtrl_congr {regs regs' : Nat → BitVec 16} {ptpCfg : PtpCtrl}
    (h : ∀ o < 0x1000, pmReg phy regs' o = pmReg phy regs o)
    (hreports : ReportsCtrl (shownPtpCfg phy regs) ptpCfg) : ReportsCtrl (shownPtpCfg phy regs') ptpCfg := by
  have hts := h pmTsCfg (by decide)
  have hptp := h pmGmacPtpCfg (by decide)
  have hcorr : shownCorrection phy regs' = shownCorrection phy regs := by
    unfold shownCorrection
    rw [hts, h (pmTxOstCfg + 12) (by decide), h (pmTxOstCfg + 8) (by decide),
      h (pmTxOstCfg + 4) (by decide), h pmTxOstCfg (by decide)]
  constructor
  · exact (congrArg (BitVec.extractLsb' 8 1) hts).trans hreports.txTsPhy
  · exact (congrArg (BitVec.extractLsb' 9 1) hts).trans hreports.rxTsPhy
  · exact (congrArg (BitVec.extractLsb' 0 14) hptp).trans hreports.txPtpOff
  · exact (congrArg (BitVec.extractLsb' 14 2) hptp).trans hreports.txPtpTpt
  · exact (congrArg (BitVec.extractLsb' 1 1) hts).trans hreports.tsOstcEn
  · exact hcorr.trans hreports.txOstCorr

end Calls

/-! ## Runs of configuration calls -/

/-- A configuration call; `ptp_enable` finds something on the stack. -/
inductive PtpCall where
  | enable (stack : BitVec 16) (ptpCfg : PtpCtrl)
  | setTsctrl (tsCfg : TsCtrl)
  | setPtoctrl (ptoCtrl : PtoConfig)

def PtpCall.call (phy : Gpy211Device) : PtpCall → Call Unit
  | .enable stack ptpCfg => gpy2xxPtpEnable phy stack ptpCfg
  | .setTsctrl tsCfg => gpy2xxPtpSetTsctrl phy tsCfg
  | .setPtoctrl ptoCtrl => gpy2xxPtpSetPtoctrl phy ptoCtrl

/-- What has been configured so far, if anything. -/
structure PtpSettings where
  ptpCtrl : Option PtpCtrl
  tsCtrl : Option TsCtrl
  ptoCtrl : Option PtoConfig

/-- A call replaces its own part. Enabling sets the snapshot type to 1 and clears the two flags. -/
def PtpSettings.after (settings : PtpSettings) : PtpCall → PtpSettings
  | .enable _ ptpCfg => { settings with ptpCtrl := some ptpCfg, tsCtrl := some ⟨0, 0, 1⟩ }
  | .setTsctrl tsCfg => { settings with tsCtrl := some tsCfg }
  | .setPtoctrl ptoCtrl => { settings with ptoCtrl := some ptoCtrl }

/-- What a run of calls has configured. -/
def settingsOf (calls : List PtpCall) : PtpSettings := calls.foldl PtpSettings.after ⟨none, none, none⟩

/-- All that has been configured is shown. -/
structure Reports (shown : PtpCfg) (settings : PtpSettings) : Prop where
  ptpCtrl : ∀ ptpCfg, settings.ptpCtrl = some ptpCfg → ReportsCtrl shown ptpCfg
  tsCtrl : ∀ tsCfg, settings.tsCtrl = some tsCfg → shown.tsCtrl = tsCfg
  ptoCtrl : ∀ ptoCtrl, settings.ptoCtrl = some ptoCtrl → ReportsPto shown.ptoCtrl ptoCtrl

/-- A run of calls, every one of them accepted. -/
def Accepted (phy : Gpy211Device) : List PtpCall → Regs → Regs → Prop
  | [], s, s' => s' = s
  | c :: calls, s, s' => ∃ s₁, (c.call phy).exec (handler memHandler) s = (.ok (), s₁) ∧
      Accepted phy calls s₁ s'

section Runs
variable {phy : Gpy211Device} {s s' : Regs} {settings : PtpSettings}

/-- Before the first call there is nothing to show. -/
theorem reports_nothing (shown : PtpCfg) : Reports shown ⟨none, none, none⟩ := by
  constructor <;> intro _ hnone <;> cases hnone

/-- Without a clock there is no increment. -/
theorem exec_enableTimestamps_noClock (hclock : phy.ptpClock = 0) (stack : BitVec 16)
    (ptpCfg : PtpCtrl) :
    ∃ s', (enableTimestamps phy stack ptpCfg).exec memHandler s = (.error errRet, s') := by
  have hnone : ptpSetSsecinc phy = throw errRet := if_pos hclock
  unfold enableTimestamps
  rw [hnone]
  by_cases hone : ptpCfg.tsOstcEn = 1
  · have hcorr : setCorrection phy ptpCfg = ptpSetOsctime phy ptpCfg.txOstCorr := if_pos hone
    rw [hcorr]
    exact ⟨_, rfl⟩
  · have hcorr : setCorrection phy ptpCfg = pure () := if_neg hone
    rw [hcorr]
    exact ⟨_, rfl⟩

/-- What an accepted `ptp_enable` was given. -/
theorem accepts_of_exec_enable {stack : BitVec 16} {ptpCfg : PtpCtrl}
    (h : (gpy2xxPtpEnable phy stack ptpCfg).exec (handler memHandler) s = (.ok (), s')) :
    ptpEnableAccepts ptpCfg = true ∧ phy.ptpClock ≠ 0 := by
  have haccepts : ptpEnableAccepts ptpCfg = true := by
    by_cases haccepts : ptpEnableAccepts ptpCfg = true
    · exact haccepts
    · rw [gpy2xxPtpEnable, if_pos (by simp [haccepts])] at h
      cases h
  refine ⟨haccepts, fun hclock => ?_⟩
  obtain ⟨s₁, hexec⟩ := @exec_enableTimestamps_noClock phy s hclock stack ptpCfg
  have hstart : (outside (startPtp phy stack ptpCfg)).exec (handler memHandler) s =
      (.error errRet, s₁) := (exec_outside _ _ _).trans (exec_bind_error hexec)
  rw [gpy2xxPtpEnable, if_neg (by simp [haccepts]), exec_bracket, exec_bind_error hstart] at h
  cases h

theorem accepts_of_exec_setPtoctrl {ptoCtrl : PtoConfig}
    (h : (gpy2xxPtpSetPtoctrl phy ptoCtrl).exec (handler memHandler) s = (.ok (), s')) :
    ptoAccepts ptoCtrl = true := by
  by_cases haccepts : ptoAccepts ptoCtrl = true
  · exact haccepts
  · rw [gpy2xxPtpSetPtoctrl, if_pos (by simp [haccepts])] at h
    cases h

/-- `ptp_enable` shows its own part and the timestamp control it sets, and keeps the offload control. -/
theorem reports_enable (hbases : KnownBases phy) {stack : BitVec 16} {ptpCfg : PtpCtrl}
    (hreports : Reports (shownPtpCfg phy s.smdio) settings)
    (h : (gpy2xxPtpEnable phy stack ptpCfg).exec (handler memHandler) s = (.ok (), s')) :
    Reports (shownPtpCfg phy s'.smdio) (settings.after (.enable stack ptpCfg)) := by
  obtain ⟨haccepts, hclock⟩ := accepts_of_exec_enable h
  obtain ⟨s₁, v, v₂, l, low, high, hexec, hkeys, hsmdio⟩ := exec_gpy2xxPtpEnable haccepts hclock
  cases hexec.symm.trans h
  have hclockRegs : ∀ reg ∈ (l ++ tsctrlWrites phy ⟨0, 0, 1⟩ low high).map Prod.fst,
      reg ∈ clockRegs phy := by
    intro reg hreg
    rw [List.map_append] at hreg
    rcases List.mem_append.mp hreg with haddend | htsctrl
    · exact List.mem_append_left [_] (hkeys reg haddend)
    · exact mem_clockRegs_of_tsctrlWrites htsctrl
  constructor
  · rintro _ ⟨⟩
    have hpm : ∀ o < 0x1000, pmReg phy s'.smdio o =
        writes s.smdio (enableWrites phy stack ptpCfg v v₂) (smdioReg (phy.pmBaseAddr + o)) := by
      intro o ho
      rw [pmReg, hsmdio, List.append_assoc, writes_append]
      exact writes_of_notMem fun hmem => pmReg_notMem_clockRegs hbases ho (hclockRegs _ hmem)
    exact reportsCtrl_enableWrites hbases hpm
  · rintro _ ⟨⟩
    show shownTsCtrl phy s'.smdio = _
    rw [hsmdio, writes_append]
    exact shownTsCtrl_tsctrlWrites _ _ _ _
  · intro ptoCtrl hpto
    have hkept : shownPtoCtrl phy s'.smdio = shownPtoCtrl phy s.smdio := by
      refine shownPtoCtrl_congr fun o ho => ?_
      rw [gmacfReg, hsmdio, List.append_assoc, writes_append,
        writes_of_notMem fun hmem => ptoReg_notMem_clockRegs ho (hclockRegs _ hmem)]
      apply writes_of_notMem
      rw [keys_enableWrites]
      exact ptoReg_notMem_enableKeys hbases ptpCfg ho
    show ReportsPto (shownPtoCtrl phy s'.smdio) ptoCtrl
    rw [hkept]
    exact hreports.ptoCtrl ptoCtrl hpto

theorem reports_setTsctrl (hbases : KnownBases phy) {tsCfg : TsCtrl}
    (hreports : Reports (shownPtpCfg phy s.smdio) settings)
    (h : (gpy2xxPtpSetTsctrl phy tsCfg).exec (handler memHandler) s = (.ok (), s')) :
    Reports (shownPtpCfg phy s'.smdio) (settings.after (.setTsctrl tsCfg)) := by
  obtain ⟨low, high, hexec⟩ := @exec_gpy2xxPtpSetTsctrl phy s tsCfg
  cases hexec.symm.trans h
  constructor
  · intro ptpCfg hptp
    refine reportsCtrl_congr (fun o ho => ?_) (hreports.ptpCtrl ptpCfg hptp)
    exact writes_of_notMem fun hmem =>
      pmReg_notMem_clockRegs hbases ho (mem_clockRegs_of_tsctrlWrites hmem)
  · rintro _ ⟨⟩
    exact shownTsCtrl_tsctrlWrites _ _ _ _
  · intro ptoCtrl hpto
    have hkept : shownPtoCtrl phy (writes s.smdio (tsctrlWrites phy tsCfg low high)) =
        shownPtoCtrl phy s.smdio := shownPtoCtrl_congr fun o ho =>
      writes_of_notMem fun hmem => ptoReg_notMem_clockRegs ho (mem_clockRegs_of_tsctrlWrites hmem)
    show ReportsPto (shownPtoCtrl phy (writes s.smdio (tsctrlWrites phy tsCfg low high))) ptoCtrl
    rw [hkept]
    exact hreports.ptoCtrl ptoCtrl hpto

theorem reports_setPtoctrl (hbases : KnownBases phy) {ptoCtrl : PtoConfig}
    (hreports : Reports (shownPtpCfg phy s.smdio) settings)
    (h : (gpy2xxPtpSetPtoctrl phy ptoCtrl).exec (handler memHandler) s = (.ok (), s')) :
    Reports (shownPtpCfg phy s'.smdio) (settings.after (.setPtoctrl ptoCtrl)) := by
  have hexec := @exec_gpy2xxPtpSetPtoctrl phy s ptoCtrl (accepts_of_exec_setPtoctrl h)
  cases hexec.symm.trans h
  constructor
  · intro ptpCfg hptp
    refine reportsCtrl_congr (fun o ho => writes_of_notMem fun hmem => ?_) (hreports.ptpCtrl ptpCfg hptp)
    rw [keys_ptoctrlWrites] at hmem
    obtain ⟨g, hg, heq⟩ := List.mem_map.mp hmem
    have hrange := le_of_mem_ptoOffsets hg
    exact pmReg_ne_gmacfReg hbases ho (by omega) heq.symm
  · intro tsCfg hts
    have hapart : ∀ g < 0x1700, smdioReg (phy.gmacfBaseAddr + g) ∉
        (ptoctrlWrites phy ptoCtrl).map Prod.fst := by
      intro g hg hmem
      rw [keys_ptoctrlWrites] at hmem
      obtain ⟨o, ho, heq⟩ := List.mem_map.mp hmem
      exact ptoReg_ne ho hg heq
    have hkept : shownTsCtrl phy (writes s.smdio (ptoctrlWrites phy ptoCtrl)) =
        shownTsCtrl phy s.smdio :=
      shownTsCtrl_congr (writes_of_notMem (hapart _ (by decide)))
        (writes_of_notMem (hapart _ (by decide)))
    exact hkept.trans (hreports.tsCtrl tsCfg hts)
  · rintro _ ⟨⟩
    exact reportsPto_ptoctrlWrites hbases _ _

theorem reports_step (hbases : KnownBases phy) {c : PtpCall}
    (hreports : Reports (shownPtpCfg phy s.smdio) settings)
    (h : (c.call phy).exec (handler memHandler) s = (.ok (), s')) :
    Reports (shownPtpCfg phy s'.smdio) (settings.after c) := by
  cases c with
  | enable stack ptpCfg => exact reports_enable hbases hreports h
  | setTsctrl tsCfg => exact reports_setTsctrl hbases hreports h
  | setPtoctrl ptoCtrl => exact reports_setPtoctrl hbases hreports h

/-- So what a run has configured is shown after it, by induction on the run. -/
theorem reports_run (hbases : KnownBases phy) {calls : List PtpCall}
    (hreports : Reports (shownPtpCfg phy s.smdio) settings) (h : Accepted phy calls s s') :
    Reports (shownPtpCfg phy s'.smdio) (calls.foldl PtpSettings.after settings) := by
  induction calls generalizing s settings with
  | nil =>
    subst h
    exact hreports
  | cons c calls ih =>
    obtain ⟨s₁, hexec, hrest⟩ := h
    exact ih (reports_step hbases hreports hexec) hrest

/-- The round trip: from every register state, after a run of accepted calls `getcfg` reports what
the last calls set. -/
theorem getcfg_reports_settings (hbases : KnownBases phy) {calls : List PtpCall}
    (h : Accepted phy calls s s') : ∃ shown,
    (gpy2xxPtpGetcfg phy).exec (handler memHandler) s' = (.ok shown, s') ∧
      Reports shown (settingsOf calls) := by
  exact ⟨_, exec_gpy2xxPtpGetcfg phy s', reports_run hbases (reports_nothing _) h⟩

end Runs

/-- The round trip of one configuration, with its correction in both modes. -/
def PtpRoundTrips (phy : Gpy211Device) (stack : BitVec 16) (ptpCfg : PtpCtrl) (tsCfg : TsCtrl)
    (ptoCtrl : PtoConfig) : Prop :=
  ∀ s s', Accepted phy [.enable stack ptpCfg, .setTsctrl tsCfg, .setPtoctrl ptoCtrl] s s' →
    ∃ shown, (gpy2xxPtpGetcfg phy).exec (handler memHandler) s' = (.ok shown, s') ∧
      shown.txTsPhy = ptpCfg.txTsPhy ∧ shown.rxTsPhy = ptpCfg.rxTsPhy ∧
      shown.txPtpOff = ptpCfg.txPtpOff ∧ shown.txPtpTpt = ptpCfg.txPtpTpt ∧
      shown.tsOstcEn = ptpCfg.tsOstcEn ∧ shown.txOstCorr = some ptpCfg.txOstCorr ∧
      shown.tsCtrl = tsCfg ∧ ReportsPto shown.ptoCtrl ptoCtrl

/-- An offload control with an identity and a negative interval. -/
def samplePto : PtoConfig :=
  ⟨0x1, #v[0, 1, 2, 3, 4, 5, 6, 7, 8, 9], -3, 2, 0, 0, 4⟩

/-- A run that configures everything, with a negative correction in one-step mode. -/
theorem accepted_oneStepRun : ∃ s', Accepted (ptpPhy 406250000)
    [.enable 0 ⟨1, 1, 100, 2, 1, -20⟩, .setTsctrl ⟨1, 0, 3⟩, .setPtoctrl samplePto] (zeroRegs true) s' :=
  ⟨_, _, rfl, _, rfl, _, rfl, rfl⟩

theorem reports_oneStepRun : ∃ s' shown,
    (gpy2xxPtpGetcfg (ptpPhy 406250000)).exec (handler memHandler) s' = (.ok shown, s') ∧
      Reports shown (settingsOf
        [.enable 0 ⟨1, 1, 100, 2, 1, -20⟩, .setTsctrl ⟨1, 0, 3⟩, .setPtoctrl samplePto]) := by
  obtain ⟨s', haccepted⟩ := accepted_oneStepRun
  exact ⟨s', getcfg_reports_settings knownBases_ptpPhy haccepted⟩

/-- In two-step mode the correction is neither written nor read. -/
theorem not_ptpRoundTrips_twoStep :
    ¬PtpRoundTrips (ptpPhy 406250000) 0 ⟨0, 0, 0, 0, 0, 5⟩ ⟨0, 0, 0⟩ samplePto := by
  intro h
  have haccepted : ∃ s', Accepted (ptpPhy 406250000)
      [.enable 0 ⟨0, 0, 0, 0, 0, 5⟩, .setTsctrl ⟨0, 0, 0⟩, .setPtoctrl samplePto] (zeroRegs true) s' :=
    ⟨_, _, rfl, _, rfl, _, rfl, rfl⟩
  obtain ⟨s', haccepted⟩ := haccepted
  obtain ⟨shown, hexec, -, -, -, -, -, hcorr, -, -⟩ := h _ s' haccepted
  cases (exec_gpy2xxPtpGetcfg _ s').symm.trans hexec
  have hreports := reports_run knownBases_ptpPhy (reports_nothing _) haccepted
  cases (hreports.ptpCtrl _ rfl).txOstCorr.symm.trans hcorr

end Gpy2xx
