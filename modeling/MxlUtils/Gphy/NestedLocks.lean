import MxlUtils.Gphy.LockDiscipline
import MxlUtils.Gphy.Msec.EngineInit
import MxlUtils.Gphy.Ptp.Control
import MxlUtils.Gphy.Link

/- Self-deadlock: `phy->lock` is not recursive, and six public functions call a
   function that takes it while they hold it: the two initialisations of the MACsec
   engines, `macsec_enable` over them, `loopback_cfg`, `ptp_enable` and
   `ptp_getcfg`. `ApiInvocation.free_iff` says which of their runs stay free of a
   second acquisition: those that end before the first nested call. Every other
   public function takes the lock at most once. -/
namespace Gpy2xx
open Effect Effect.Lock Bits

/-! ## The public functions -/

/-- The shape of a public function that calls none that takes the lock, once its arguments are
checked: rejected, run without the lock or run between lock and unlock. -/
inductive Flat : Call Unit → Prop where
  | reject (e : Errno) : Flat (throw e)
  | unlocked (body : Api Unit) : Flat (outside body)
  | locked (body : Api Unit) : Flat (locked body)

/-- The public functions. -/
inductive ApiCall where
  | discipline (c : LockCall)
  | countCtrl (dir : MsecDir) (c : CountControl)
  | countIncen (dir : MsecDir) (c : CountIncen)
  | clearStatsSumm (dir : MsecDir) (s : StatsSummary)
  | miscCtrl (dir : MsecDir) (c : MiscControl)
  | saNm (dir : MsecDir) (reg : SaNmReg) (c : SaNonmatchFca)
  | ingCcCtrl (c : IngCcCtrl)
  | ptpSetTsctrl (tsCfg : TsCtrl)
  | ptpGetPpsctrl
  | gmacxBmCfg (bmcfg : BmCfg)
  | gmacxBmGet
  | configAdvert (link : Link)
  | setupForced (link : Link) (mstrSlave : BitVec 8)
  | restartAneg (link : Link)
  | configAneg (link : Link) (mstrSlave : BitVec 8)
  | flat (x : Call Unit) (h : Flat x)
  | initDev (dir : MsecDir)
  | macsecEnable (msecCfg : Gpy211Macsec)
  | loopbackCfg (link : Link) (tloop : TestLoop)
  | ptpEnable (stack : BitVec 16) (ptpCfg : PtpCtrl)
  | ptpGetcfg

/-- The trace `t` is one the call may produce. -/
def ApiCall.Runs (aesEncrypt : AesEncrypt) (phy : Gpy211Device) (t : Trace regSig.locking) :
    ApiCall → Prop
  | .discipline c => c.Runs aesEncrypt phy t
  | .countCtrl .ingress c => Produces (gpy2xxMsecConfigIngCountCtrl c) t
  | .countCtrl .egress c => Produces (gpy2xxMsecConfigEgrCountCtrl c) t
  | .countIncen .ingress c => Produces (gpy2xxMsecConfigIngCountIncen c) t
  | .countIncen .egress c => Produces (gpy2xxMsecConfigEgrCountIncen c) t
  | .clearStatsSumm .ingress s => Produces (gpy2xxMsecClearIngStatsSumm phy.toMsecDevice s) t
  | .clearStatsSumm .egress s => Produces (gpy2xxMsecClearEgrStatsSumm phy.toMsecDevice s) t
  | .miscCtrl .ingress c => Produces (gpy2xxMsecConfigIngMiscCtrl c) t
  | .miscCtrl .egress c => Produces (gpy2xxMsecConfigEgrMiscCtrl c) t
  | .saNm .ingress .ncp c => Produces (gpy2xxMsecConfigIngSaNmNcp c) t
  | .saNm .ingress .cp c => Produces (gpy2xxMsecConfigIngSaNmCp c) t
  | .saNm .egress .ncp c => Produces (gpy2xxMsecConfigEgrSaNmNcp c) t
  | .saNm .egress .cp c => Produces (gpy2xxMsecConfigEgrSaNmCp c) t
  | .ingCcCtrl c => Produces (gpy2xxMsecConfigIngCcCtrl c) t
  | .ptpSetTsctrl tsCfg => Produces (gpy2xxPtpSetTsctrl phy tsCfg) t
  | .ptpGetPpsctrl => Produces (gpy2xxPtpGetPpsctrl phy) t
  | .gmacxBmCfg bmcfg => Produces (gpy2xxGmacxBmCfg phy bmcfg) t
  | .gmacxBmGet => Produces (gpy2xxGmacxBmGet phy) t
  | .configAdvert link => Produces (gpy2xxConfigAdvert link) t
  | .setupForced link mstrSlave => Produces (gpy2xxSetupForced link mstrSlave) t
  | .restartAneg link => Produces (gpy2xxRestartAneg link) t
  | .configAneg link mstrSlave => Produces (gpy2xxConfigAneg link mstrSlave) t
  | .flat x _ => Produces x t
  | .initDev .ingress => Produces (gpy2xxMsecInitIngDev phy) t
  | .initDev .egress => Produces (gpy2xxMsecInitEgrDev phy) t
  | .macsecEnable msecCfg => Produces (gpy2xxMacsecEnable phy msecCfg) t
  | .loopbackCfg link tloop => Produces (gpy2xxLoopbackCfg link tloop) t
  | .ptpEnable stack ptpCfg => Produces (gpy2xxPtpEnable phy stack ptpCfg) t
  | .ptpGetcfg => Produces (gpy2xxPtpGetcfg phy) t

/-- A call on a device and a run of it. -/
structure ApiInvocation (aesEncrypt : AesEncrypt) where
  phy : Gpy211Device
  call : ApiCall
  trace : Trace regSig.locking
  runs : call.Runs aesEncrypt phy trace

/-! ## When a call ends before it nests -/

/-- The accesses of `ptp_enable` before it sets the addend; one-step mode adds the correction. -/
def accessesBeforeAddend (ptpCfg : PtpCtrl) : Nat := if ptpCfg.tsOstcEn = 1 then 14 else 10

def isSmdioWrite : RegOp → Bool
  | .smdioWrite _ _ => true
  | _ => false

/-- The failures that end `_gpy2xx_ptp_set_addend`: those of a write and, while `strict`, of a read;
that is its first read and the one after the high half of the addend. The reads of the busy wait may
fail. -/
def addendStops (phy : Gpy211Device) : (strict : Bool) → RegTrace → Bool
  | _, [] => false
  | strict, e :: acc =>
    (refused e && (strict || isSmdioWrite e.op)) ||
      addendStops phy
        (match e.op with
          | .smdioWrite reg _ => reg == smdioReg (phy.gmacfBaseAddr + timestampAddendH)
          | _ => false) acc

/-- Whether the arguments and the answers to the accesses `acc` lead a call past its nested calls:
out by a rejection, by a failed access or, for the engines, by what their registers say. -/
def ApiCall.endsBeforeNesting (phy : Gpy211Device) : ApiCall → RegTrace → Bool
  | .initDev dir, acc => !phy.macsecSupported || acc.any (engineRefuses dir)
  | .macsecEnable _, acc => !phy.macsecSupported || pathStops acc
  | .loopbackCfg _ tloop, acc => tloop.code ≥ TestLoop.netli.code || acc.any refused
  | .ptpEnable _ ptpCfg, acc =>
    !ptpEnableAccepts ptpCfg || phy.ptpClock == 0 ||
      (acc.take (accessesBeforeAddend ptpCfg)).any refused ||
      addendStops phy true (acc.drop (accessesBeforeAddend ptpCfg))
  | .ptpGetcfg, acc => acc.any refused
  | _, _ => true

/-! ## Calls that take the lock at most once -/

section Calls
variable {aesEncrypt : AesEncrypt} {phy : Gpy211Device} {t : Trace regSig.locking}

theorem mutex_of_bracketed {α : Type} {x : Call α} (hx : Bracketed x) (h : Produces x t) :
    mutex false (events t) ≠ none := (raises_of_bracketed hx h).mutex_ne_none

theorem Flat.bracketed {x : Call Unit} (h : Flat x) : Bracketed x := by
  cases h with
  | reject e => exact .throw e
  | unlocked body =>
    intro t r hrun
    obtain ⟨t', rfl, -⟩ := (runs_outside).mp hrun
    exact .inl (events_acc t')
  | locked body => exact .locked body

/-! ## Initialisation of the engines -/

theorem locksFirst_countCtrl {dir : MsecDir} {f : Unit → Call (BitVec 8)} :
    LocksFirst (configCountCtrl dir initCountControl >>= f) := by
  have hlocked : LocksFirst (configCountCtrl dir initCountControl) := by
    rw [configCountCtrl, if_neg (by decide)]
    exact .locked _
  exact hlocked.bind f

/-- An accepted initialisation nests exactly when the engine refuses nothing. -/
theorem mutex_initDev {dir : MsecDir} (h : Produces (initDev dir phy) t) :
    mutex false (events t) ≠ none ↔
      (!phy.macsecSupported || (beforeNested false t).any (engineRefuses dir)) = true := by
  obtain ⟨r, h⟩ := h
  rw [initDev, Fallible.runs_ite] at h
  cases hsupp : phy.macsecSupported with
  | false =>
    rw [if_pos (by simp [hsupp])] at h
    simpa using (raises_throw h).mutex_ne_none
  | true =>
    rw [if_neg (by simp [hsupp])] at h
    have hnest := mutex_bracket_goesOn failsOn_openEngine (fun _ _ => locksFirst_countCtrl)
      (fun _ hb => absurd trivial hb) h
    rw [hnest]
    simp

theorem locksFirst_initDev {dir : MsecDir} (hsupp : phy.macsecSupported = true) :
    LocksFirst (initDev dir phy) := by
  rw [initDev, if_neg (by simp [hsupp])]
  exact .bracket _

theorem mutex_macsecEnable {msecCfg : Gpy211Macsec} (h : Produces (gpy2xxMacsecEnable phy msecCfg) t) :
    mutex false (events t) ≠ none ↔
      (!phy.macsecSupported || pathStops (beforeNested false t)) = true := by
  obtain ⟨r, h⟩ := h
  rw [gpy2xxMacsecEnable, Fallible.runs_ite] at h
  cases hsupp : phy.macsecSupported with
  | false =>
    rw [if_pos (by simp [hsupp])] at h
    simpa using (raises_throw h).mutex_ne_none
  | true =>
    rw [if_neg (by simp [hsupp])] at h
    have hlocks : ∀ b, b = true → LocksFirst (initEngines phy b) := by
      intro b hb
      rw [hb]
      exact (locksFirst_initDev hsupp).bind _
    have hends : ∀ b, ¬b = true → ∃ a, initEngines phy b = pure a := by
      intro b hb
      rw [Bool.not_eq_true] at hb
      exact ⟨(), by rw [hb]; rfl⟩
    obtain ⟨c, hpre, hmutex⟩ := mutex_bracket hlocks hends h
    rw [Ne, hmutex, openMacsecPath_true_iff hpre]
    simp

/-! ## Test loops -/

theorem goesOn_setTestLoop {tloop : TestLoop} (h : tloop.code ≠ TestLoop.netli.code) :
    Fallible.GoesOn (fun e => refused e) (· = true) (setTestLoop tloop) := by
  have hset : ∀ reg mask bits,
      Fallible.FailsOn (fun e => refused e) (phySetMaskBits reg mask bits) := fun _ _ _ =>
    Fallible.GoesOn.bind failsOn_phyRead fun _ => failsOn_phyWrite
  rw [setTestLoop, if_neg h]
  exact Fallible.GoesOn.bind (hset _ _ _) fun _ =>
    Fallible.GoesOn.bind (hset _ _ _) fun _ => Fallible.GoesOn.pure rfl

/-- The loop of the network interface is the one that does not restart negotiation. -/
theorem setTestLoop_netli {tloop : TestLoop} {acc : RegTrace} {c : Except Errno Bool}
    (hcode : tloop.code = TestLoop.netli.code) (h : (setTestLoop tloop).Runs acc c) :
    c ≠ .ok true := by
  rw [setTestLoop, if_pos hcode] at h
  rcases (Fallible.runs_bind).mp h with ⟨e, -, rfl⟩ | ⟨_, _, _, -, -, hend⟩
  · simp
  · rw [(Fallible.runs_pure.mp hend).2]
    simp

theorem mutex_loopbackCfg {link : Link} {tloop : TestLoop}
    (h : Produces (gpy2xxLoopbackCfg link tloop) t) :
    mutex false (events t) ≠ none ↔
      (tloop.code ≥ TestLoop.netli.code || (beforeNested false t).any refused) = true := by
  obtain ⟨r, h⟩ := h
  rw [gpy2xxLoopbackCfg, Fallible.runs_ite] at h
  by_cases hrange : tloop.code > TestLoop.netli.code
  · rw [if_pos hrange] at h
    have hge : TestLoop.netli.code ≤ tloop.code := BitVec.le_of_lt hrange
    simpa [hge] using (raises_throw h).mutex_ne_none
  · rw [if_neg hrange] at h
    have hlocks : ∀ b, b = true → LocksFirst (restartAfterLoop link b) := by
      intro b hb
      rw [hb]
      exact (LocksFirst.locked _).attempt.bind _
    have hends : ∀ b, ¬b = true → ∃ a, restartAfterLoop link b = pure a := by
      intro b hb
      rw [Bool.not_eq_true] at hb
      exact ⟨link, by rw [hb]; rfl⟩
    obtain ⟨c, hpre, hmutex⟩ := mutex_bracket hlocks hends h
    rw [Ne, hmutex]
    by_cases hnetli : tloop.code = TestLoop.netli.code
    · have hc := setTestLoop_netli hnetli hpre
      simp [hnetli, hc]
    · have hlt : ¬TestLoop.netli.code ≤ tloop.code := fun hge =>
        hnetli (BitVec.le_antisymm (BitVec.not_lt.mp hrange) hge)
      rw [goesOn_setTestLoop hnetli _ _ hpre]
      simp [hlt]

/-! ## PTP -/

theorem failsOn_readPtpCtrl : Fallible.FailsOn (fun e => refused e) (readPtpCtrl phy) := by
  refine Fallible.GoesOn.bind failsOn_smdioRead fun _ =>
    Fallible.GoesOn.bind failsOn_smdioRead fun raw => ?_
  refine Fallible.GoesOn.ite (fun _ => ?_) fun _ => Fallible.GoesOn.pure trivial
  have hosctime : Fallible.FailsOn (fun e => refused e) (ptpGetOsctime phy) :=
    Fallible.GoesOn.bind failsOn_smdioRead fun _ => Fallible.GoesOn.bind failsOn_smdioRead fun _ =>
      Fallible.GoesOn.bind failsOn_smdioRead fun _ =>
        Fallible.GoesOn.bind failsOn_smdioRead fun _ => Fallible.GoesOn.pure trivial
  exact Fallible.GoesOn.bind hosctime fun _ => Fallible.GoesOn.pure trivial

theorem mutex_ptpGetcfg (h : Produces (gpy2xxPtpGetcfg phy) t) :
    mutex false (events t) ≠ none ↔ (beforeNested false t).any refused = true := by
  obtain ⟨r, h⟩ := h
  have hnest := mutex_bracket_goesOn failsOn_readPtpCtrl
    (fun raw _ => LocksFirst.bind (.locked _) _) (fun _ hb => absurd trivial hb) h
  rw [hnest]
  simp

theorem failsOn_smdioSetBit {addr pos : Nat} :
    Fallible.FailsOn (fun e => refused e) (smdioSetBit addr pos) :=
  Fallible.GoesOn.bind failsOn_smdioRead fun _ => failsOn_smdioWrite

theorem failsOn_enableTimestamps {stack : BitVec 16} {ptpCfg : PtpCtrl} (hclk : phy.ptpClock ≠ 0) :
    Fallible.FailsOn (fun e => refused e) (enableTimestamps phy stack ptpCfg) := by
  have hdetect : Fallible.FailsOn (fun e => refused e) (enablePtpDetection phy) :=
    Fallible.FailsOn.both failsOn_smdioSetBit failsOn_smdioSetBit
  have hosctime : Fallible.FailsOn (fun e => refused e) (ptpSetOsctime phy ptpCfg.txOstCorr) :=
    Fallible.GoesOn.bind failsOn_smdioWrite fun _ => Fallible.GoesOn.bind failsOn_smdioWrite fun _ =>
      Fallible.GoesOn.bind failsOn_smdioWrite fun _ => failsOn_smdioWrite
  have hssecinc : Fallible.FailsOn (fun e => refused e) (ptpSetSsecinc phy) := by
    rw [ptpSetSsecinc, if_neg hclk]
    exact Fallible.GoesOn.bind failsOn_smdioWrite fun _ => failsOn_smdioWrite
  have hcorrection : Fallible.FailsOn (fun e => refused e) (setCorrection phy ptpCfg) :=
    Fallible.GoesOn.ite (fun _ => hosctime) fun _ => Fallible.GoesOn.pure trivial
  exact Fallible.GoesOn.bind hdetect fun _ => Fallible.GoesOn.bind failsOn_smdioWrite fun _ =>
    Fallible.GoesOn.bind failsOn_smdioWrite fun _ => Fallible.GoesOn.bind hcorrection fun _ =>
      Fallible.GoesOn.bind failsOn_smdioWrite fun _ =>
        Fallible.GoesOn.bind failsOn_smdioWrite fun _ => hssecinc

theorem makes_enablePtpDetection : Fallible.Makes 4 (enablePtpDetection phy) := by
  have hset : ∀ addr pos, Fallible.Makes 2 (smdioSetBit addr pos) := fun _ _ =>
    Fallible.Makes.bind makes_smdioRead fun _ => makes_smdioWrite
  exact Fallible.Makes.both (hset _ _) (hset _ _)

/-- A successful run up to the addend makes as many accesses as `accessesBeforeAddend` says. -/
theorem makes_enableTimestamps {stack : BitVec 16} {ptpCfg : PtpCtrl} (hclk : phy.ptpClock ≠ 0) :
    Fallible.Makes (accessesBeforeAddend ptpCfg) (enableTimestamps phy stack ptpCfg) := by
  have hosctime : Fallible.Makes 4 (ptpSetOsctime phy ptpCfg.txOstCorr) :=
    Fallible.Makes.bind (n := 1) (m := 3) makes_smdioWrite fun _ =>
      Fallible.Makes.bind (n := 1) (m := 2) makes_smdioWrite fun _ =>
        Fallible.Makes.bind (n := 1) (m := 1) makes_smdioWrite fun _ => makes_smdioWrite
  have hcorrection : Fallible.Makes (accessesBeforeAddend ptpCfg - 10) (setCorrection phy ptpCfg) := by
    by_cases hostc : ptpCfg.tsOstcEn = 1
    · rw [setCorrection, accessesBeforeAddend, if_pos hostc, if_pos hostc]
      exact hosctime
    · rw [setCorrection, accessesBeforeAddend, if_neg hostc, if_neg hostc]
      exact Fallible.Makes.pure ()
  have hssecinc : Fallible.Makes 2 (ptpSetSsecinc phy) := by
    rw [ptpSetSsecinc, if_neg hclk]
    exact Fallible.Makes.bind makes_smdioWrite fun _ => makes_smdioWrite
  have hall : Fallible.Makes (4 + (1 + (1 + ((accessesBeforeAddend ptpCfg - 10) + (1 + (1 + 2))))))
      (enableTimestamps phy stack ptpCfg) :=
    Fallible.Makes.bind makes_enablePtpDetection fun _ =>
      Fallible.Makes.bind makes_smdioWrite fun _ => Fallible.Makes.bind makes_smdioWrite fun _ =>
        Fallible.Makes.bind hcorrection fun _ => Fallible.Makes.bind makes_smdioWrite fun _ =>
          Fallible.Makes.bind makes_smdioWrite fun _ => hssecinc
  have hcount : accessesBeforeAddend ptpCfg =
      4 + (1 + (1 + ((accessesBeforeAddend ptpCfg - 10) + (1 + (1 + 2))))) := by
    unfold accessesBeforeAddend
    split <;> omega
  rwa [hcount]

/-- The busy wait reads its register and ends well, busy or not. -/
theorem runs_pollBusy {reg bit n : Nat} {acc : RegTrace} {c : Except Errno (Bool × Nat)}
    (h : (pollBusy reg bit n).Runs acc c) :
    (∃ value left, c = .ok (value, left) ∧ (value = true ∨ left > 0)) ∧
      ∀ e ∈ acc, isSmdioWrite e.op = false := by
  induction n generalizing acc with
  | zero =>
    obtain ⟨rfl, rfl⟩ := h
    exact ⟨⟨true, 0, rfl, .inl rfl⟩, by simp⟩
  | succ n ih =>
    obtain ⟨acc₁, ret, acc₂, rfl, hread, hrest⟩ := (Fallible.runs_attempt_bind).mp h
    rw [(runs_smdioRead).mp hread]
    rw [Fallible.runs_ite] at hrest
    split at hrest
    · obtain ⟨hc, hreads⟩ := ih hrest
      refine ⟨hc, fun e he => ?_⟩
      rcases List.mem_cons.mp he with rfl | he
      · rfl
      · exact hreads e he
    · obtain ⟨rfl, rfl⟩ := hrest
      exact ⟨⟨false, n + 1, rfl, .inr n.succ_pos⟩, by simp [isSmdioWrite]⟩

theorem runs_isRwDone {reg bit : Nat} {acc : RegTrace} {c : Except Errno Unit}
    (h : (isRwDone reg bit).Runs acc c) :
    c = .ok () ∧ ∀ e ∈ acc, isSmdioWrite e.op = false := by
  rcases (Fallible.runs_bind).mp h with ⟨e, hpoll, -⟩ | ⟨acc₁, ⟨value, left⟩, acc₂, rfl, hpoll, hend⟩
  · obtain ⟨⟨_, _, hc, -⟩, -⟩ := runs_pollBusy hpoll
    cases hc
  · obtain ⟨⟨value', left', hc, hleft⟩, hreads⟩ := runs_pollBusy hpoll
    obtain ⟨rfl, rfl⟩ : value = value' ∧ left = left' := by simpa using hc
    have hdone : ¬(!value && left == 0) = true := by
      rcases hleft with rfl | hpos
      · simp
      · simp [Nat.ne_of_gt hpos]
    simp only [if_neg hdone] at hend
    obtain ⟨rfl, rfl⟩ := hend
    exact ⟨rfl, by simpa using hreads⟩

/-- Reads that are not looked at closely do not stop the addend. -/
theorem addendStops_reads {acc rest : RegTrace} (h : ∀ e ∈ acc, isSmdioWrite e.op = false) :
    addendStops phy false (acc ++ rest) = addendStops phy false rest := by
  induction acc with
  | nil => rfl
  | cons e acc ih =>
    have he := h e List.mem_cons_self
    rw [List.cons_append, addendStops, he, Bool.or_false, Bool.and_false, Bool.false_or]
    rw [← ih fun e he => h e (List.mem_cons_of_mem _ he)]
    obtain ⟨op, ret⟩ := e
    cases op <;> first | rfl | cases he

theorem ne_addendH (phy : Gpy211Device) : (smdioReg (phy.gmacfBaseAddr + timestampControlL) ==
    smdioReg (phy.gmacfBaseAddr + timestampAddendH)) = false := by
  rw [beq_eq_false_iff_ne]
  simp only [smdioReg, timestampControlL, timestampAddendH]
  omega

/-- The end of the addend: the bit that hands it to the device, and the wait for it. -/
theorem ok_handAddend_iff {acc : RegTrace} {c : Except Errno Unit}
    (h : (smdioSetBit (phy.gmacfBaseAddr + timestampControlL) tsaddregPos >>= fun _ =>
      isRwDone (phy.gmacfBaseAddr + timestampControlL) tsaddregPos).Runs acc c) :
    c = .ok () ↔ addendStops phy true acc = false := by
  rw [smdioSetBit, bind_assoc] at h
  rcases (runs_smdioRead_bind).mp h with ⟨e, rfl, rfl⟩ | ⟨v, acc₁, rfl, hrest⟩
  · simp [addendStops, refused, RegOp.succeeded, Except.isOk, Except.toBool]
  · rcases (runs_smdioWrite_bind).mp hrest with ⟨e, rfl, rfl⟩ | ⟨_, acc₂, rfl, hwait⟩
    · simp [addendStops, refused, RegOp.succeeded, Except.isOk, Except.toBool, isSmdioWrite]
    · obtain ⟨rfl, hreads⟩ := runs_isRwDone hwait
      have hstop : addendStops phy false acc₂ = false := by
        have hskip : addendStops phy false (acc₂ ++ []) = addendStops phy false [] :=
          addendStops_reads hreads
        rwa [List.append_nil] at hskip
      simp only [addendStops, ne_addendH, hstop]
      simp [refused, RegOp.succeeded, Except.isOk, Except.toBool]

/-- The addend is set exactly by the runs that `addendStops` does not stop. -/
theorem ok_ptpSetAddend_iff {addend : BitVec 32} {acc : RegTrace} {c : Except Errno Unit}
    (h : (ptpSetAddend phy addend).Runs acc c) : c = .ok () ↔ addendStops phy true acc = false := by
  rcases (runs_smdioRead_bind).mp h with ⟨e, rfl, rfl⟩ | ⟨tscLow, acc₁, rfl, hrest⟩
  · simp [addendStops, refused, RegOp.succeeded, Except.isOk, Except.toBool]
  · rw [Fallible.runs_ite] at hrest
    split at hrest
    · obtain ⟨rfl, rfl⟩ := hrest
      simp [addendStops, refused, RegOp.succeeded, Except.isOk, Except.toBool]
    · rcases (Fallible.runs_bind).mp hrest with ⟨e, hwait, -⟩ | ⟨accw, _, acc₂, rfl, hwait, hwrites⟩
      · cases (runs_isRwDone hwait).1
      · have hskip : addendStops phy false (accw ++ acc₂) = addendStops phy false acc₂ :=
          addendStops_reads (runs_isRwDone hwait).2
        rcases (runs_smdioWrite_bind).mp hwrites with ⟨e, rfl, rfl⟩ | ⟨_, acc₃, rfl, hhigh⟩
        · simp [addendStops, hskip, refused, RegOp.succeeded, Except.isOk, Except.toBool,
            isSmdioWrite]
        · rcases (runs_smdioWrite_bind).mp hhigh with ⟨e, rfl, rfl⟩ | ⟨_, acc₄, rfl, hend⟩
          · simp [addendStops, hskip, refused, RegOp.succeeded, Except.isOk, Except.toBool,
              isSmdioWrite]
          · rw [ok_handAddend_iff hend]
            simp [addendStops, hskip, refused, RegOp.succeeded, Except.isOk, Except.toBool]

/-- Without a clock the sub-second increment is an error. -/
theorem enableTimestamps_ne_ok {stack : BitVec 16} {ptpCfg : PtpCtrl} (hclk : phy.ptpClock = 0)
    {acc : RegTrace} : ¬(enableTimestamps phy stack ptpCfg).Runs acc (.ok ()) := by
  intro h
  obtain ⟨_, _, _, -, -, h⟩ := (Fallible.runs_bind_ok).mp h
  obtain ⟨_, _, _, -, -, h⟩ := (Fallible.runs_bind_ok).mp h
  obtain ⟨_, _, _, -, -, h⟩ := (Fallible.runs_bind_ok).mp h
  obtain ⟨_, _, _, -, -, h⟩ := (Fallible.runs_bind_ok).mp h
  obtain ⟨_, _, _, -, -, h⟩ := (Fallible.runs_bind_ok).mp h
  obtain ⟨_, _, _, -, -, h⟩ := (Fallible.runs_bind_ok).mp h
  rw [ptpSetSsecinc, if_pos hclk] at h
  cases (Fallible.runs_throw.mp h).2

/-- `ptp_enable` gets to its first public call with a clock, when none of the accesses before the
addend fails and the addend is set. -/
theorem ok_startPtp_iff {stack : BitVec 16} {ptpCfg : PtpCtrl} {acc : RegTrace}
    {c : Except Errno Unit} (h : (startPtp phy stack ptpCfg).Runs acc c) :
    c = .ok () ↔ (phy.ptpClock == 0 || (acc.take (accessesBeforeAddend ptpCfg)).any refused ||
      addendStops phy true (acc.drop (accessesBeforeAddend ptpCfg))) = false := by
  by_cases hclk : phy.ptpClock = 0
  · rcases (Fallible.runs_bind).mp h with ⟨e, -, rfl⟩ | ⟨_, _, _, -, hts, -⟩
    · simp [hclk]
    · exact absurd hts (enableTimestamps_ne_ok hclk)
  · have hfails : Fallible.FailsOn (fun e => refused e) (enableTimestamps phy stack ptpCfg) :=
      failsOn_enableTimestamps hclk
    have hmakes : Fallible.Makes (accessesBeforeAddend ptpCfg) (enableTimestamps phy stack ptpCfg) :=
      makes_enableTimestamps hclk
    rcases (Fallible.runs_bind).mp h with ⟨e, hts, rfl⟩ | ⟨acc₁, _, acc₂, rfl, hts, hadd⟩
    · obtain ⟨ev, hev, href⟩ : ∃ e ∈ acc, refused e = true := by simpa using hfails acc _ hts
      have hall : acc.take (accessesBeforeAddend ptpCfg) = acc :=
        List.take_of_length_le (hmakes acc _ hts).1
      have hany : acc.any refused = true := List.any_eq_true.mpr ⟨ev, hev, href⟩
      simp [hall, hany]
    · have hlen : acc₁.length = accessesBeforeAddend ptpCfg := (hmakes acc₁ _ hts).2 rfl
      have hno : ∀ e ∈ acc₁, ¬refused e = true := (hfails acc₁ _ hts).mp ⟨_, rfl, trivial⟩
      have hany : acc₁.any refused = false := by simpa using hno
      have hclk : (phy.ptpClock == 0) = false := by simpa using hclk
      rw [ok_ptpSetAddend_iff hadd, ← hlen, List.take_left, List.drop_left, hany, hclk]
      simp

theorem mutex_ptpEnable {stack : BitVec 16} {ptpCfg : PtpCtrl}
    (h : Produces (gpy2xxPtpEnable phy stack ptpCfg) t) :
    mutex false (events t) ≠ none ↔
      ApiCall.endsBeforeNesting phy (.ptpEnable stack ptpCfg) (beforeNested false t) = true := by
  obtain ⟨r, h⟩ := h
  rw [gpy2xxPtpEnable, Fallible.runs_ite] at h
  cases haccepts : ptpEnableAccepts ptpCfg with
  | false =>
    rw [if_pos (by simp [haccepts])] at h
    simpa [ApiCall.endsBeforeNesting, haccepts] using (raises_throw h).mutex_ne_none
  | true =>
    rw [if_neg (by simp [haccepts])] at h
    have hlocks : ∀ b : Unit, True → LocksFirst (configureTimestamps phy) := fun _ _ =>
      LocksFirst.bind (.locked _) _
    obtain ⟨c, hpre, hmutex⟩ := mutex_bracket hlocks (fun _ hb => absurd trivial hb) h
    have hcond : ApiCall.endsBeforeNesting phy (.ptpEnable stack ptpCfg) (beforeNested false t) =
        (phy.ptpClock == 0 ||
          ((beforeNested false t).take (accessesBeforeAddend ptpCfg)).any refused ||
          addendStops phy true ((beforeNested false t).drop (accessesBeforeAddend ptpCfg))) := by
      simp [ApiCall.endsBeforeNesting, haccepts]
    have hok : (∃ b, c = .ok b ∧ True) ↔ c = .ok () :=
      ⟨fun ⟨_, hc, _⟩ => hc, fun hc => ⟨(), hc, trivial⟩⟩
    rw [Ne, hmutex, hcond, hok, ok_startPtp_iff hpre, Bool.not_eq_false]

end Calls

/-! ## The result -/

/-- A run acquires a lock it already holds exactly when its call is one of the six that nest and
nothing ends it before its first nested call. -/
theorem ApiInvocation.free_iff {aesEncrypt : AesEncrypt} (v : ApiInvocation aesEncrypt) :
    mutex false (events v.trace) ≠ none ↔
      v.call.endsBeforeNesting v.phy (beforeNested false v.trace) = true := by
  obtain ⟨phy, call, t, h⟩ := v
  show mutex false (events t) ≠ none ↔ call.endsBeforeNesting phy (beforeNested false t) = true
  -- every call but the six is at most one acquisition
  have flat : ∀ {α : Type} {x : Call α}, Bracketed x → Produces x t →
      (mutex false (events t) ≠ none ↔ true = true) := fun hx h =>
    iff_of_true (mutex_of_bracketed hx h) rfl
  cases call with
  | discipline c => exact iff_of_true (raises_call h).mutex_ne_none rfl
  | countCtrl dir c =>
    have hb : Bracketed (configCountCtrl dir c) := .ite (.throw _) (.locked _)
    cases dir <;> exact flat hb h
  | countIncen dir c =>
    have hb : Bracketed (configCountIncen dir c) := .locked _
    cases dir <;> exact flat hb h
  | clearStatsSumm dir s => cases dir <;> exact flat (.locked _) h
  | miscCtrl dir c =>
    have hb : Bracketed (configMiscCtrl dir c) := .ite (.throw _) (.locked _)
    cases dir <;> exact flat hb h
  | saNm dir reg c =>
    have hb : Bracketed (configSaNm dir reg c) := by
      rw [configSaNm]
      cases c.pktType.groups with
      | none => exact .throw _
      | some groups => exact .ite (.throw _) (.locked _)
    cases dir <;> cases reg <;> exact flat hb h
  | ingCcCtrl c =>
    have hb : Bracketed (gpy2xxMsecConfigIngCcCtrl c) := .ite (.throw _) (.locked _)
    exact flat hb h
  | ptpSetTsctrl tsCfg => exact flat (.locked _) h
  | ptpGetPpsctrl => exact flat (.locked _) h
  | gmacxBmCfg bmcfg => exact flat (.locked _) h
  | gmacxBmGet => exact flat (.locked _) h
  | configAdvert link => exact flat (.locked _) h
  | setupForced link mstrSlave => exact flat (.locked _) h
  | restartAneg link => exact flat (.locked _) h
  | configAneg link mstrSlave => exact flat (.locked _) h
  | flat x hx => exact flat hx.bracketed h
  | initDev dir =>
    cases dir with
    | ingress => exact mutex_initDev h
    | egress => exact mutex_initDev h
  | macsecEnable msecCfg => exact mutex_macsecEnable h
  | loopbackCfg link tloop => exact mutex_loopbackCfg h
  | ptpEnable stack ptpCfg => exact mutex_ptpEnable h
  | ptpGetcfg => exact mutex_ptpGetcfg h

/-- `loopback_cfg` with every access succeeding: the restart takes the lock again. -/
theorem not_loopbackCfg_free :
    ∃ (link : Link) (t : Trace regSig.locking),
      (∃ r, (gpy2xxLoopbackCfg link .off).Runs t r) ∧ AllOk (accesses t) ∧
        mutex false (events t) = none :=
  ⟨⟨10, 1, 0, 0, 0, 0, 1⟩,
    [⟨.lock, ()⟩, ⟨.acc (.phyRead stdCtrl), .ok 0⟩, ⟨.acc (.phyWrite stdCtrl 0), .ok ()⟩,
      ⟨.acc (.phyRead phyCtl1), .ok 0⟩, ⟨.acc (.phyWrite phyCtl1 0), .ok ()⟩,
      ⟨.lock, ()⟩, ⟨.acc (.phyRead stdCtrl), .ok 0⟩, ⟨.acc (.phyWrite stdCtrl 0x1200), .ok ()⟩,
      ⟨.unlock, ()⟩, ⟨.unlock, ()⟩],
    ⟨_, (), _, rfl, .ok 0, _, rfl, .ok (), _, rfl, .ok 0, _, rfl, .ok (), _, rfl, (), _, rfl,
      .ok 0, _, rfl, .ok (), _, rfl, (), _, rfl, (), _, rfl, rfl, rfl⟩, by decide, rfl⟩

end Gpy2xx
