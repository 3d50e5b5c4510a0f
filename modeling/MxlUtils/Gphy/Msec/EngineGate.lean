import MxlUtils.Gphy.Msec.EngineInit

/- What an initialisation that succeeds says about the engine. Each direction has its own
   functions that detect the two blocks of the engine, EIP-160 and EIP-62; their checks
   correspond, and `Accepts` says which results of them end in success. The second part
   is about whole runs of an init call. -/
namespace Gpy2xx
open Effect Effect.Lock Bits

/-! ## Checks and their results -/

/-- The steps of a detection, in order. -/
inductive DetectStep where
  | eip160Version
  | eip160Config2
  | eip160TestWrite
  | eip160Test
  | eip160Reset
  | eip62Version
  | eip62TestWrite
  | eip62Test
  | eip62Reset
deriving DecidableEq, Repr

/-- How a step ended: its access failed, it did not find the value it expects, or it passed. -/
inductive CheckResult where
  | failed
  | mismatch
  | passed
deriving DecidableEq, Repr

/-- The step that reads a register, and the values it expects. -/
def readStep (dir : MsecDir) (a : Nat) : Option (DetectStep × (BitVec 32 → Bool)) :=
  if a = eip160Version dir then some (.eip160Version, isEip160)
  else if a = eip160Config2 dir then some (.eip160Config2, (·.getLsbD (onlyBit dir)))
  else if a = trPage0Base dir then some (.eip160Test, (· == eip160Pattern))
  else if a = eip62Version dir then some (.eip62Version, isEip62)
  else if a = eip62SeqNumThreshold dir then some (.eip62Test, (· == eip62Pattern))
  else none

/-- The step that writes a word to a register. -/
def writeStep (dir : MsecDir) (a : Nat) (w : BitVec 32) : Option DetectStep :=
  if a = trPage0Base dir then some (if w = 0 then .eip160Reset else .eip160TestWrite)
  else if a = eip62SeqNumThreshold dir then some (if w = 0 then .eip62Reset else .eip62TestWrite)
  else none

/-- The step an access belongs to, and how it ended. -/
def verdict (dir : MsecDir) : Event regSig → Option (DetectStep × CheckResult)
  | ⟨.mboxRead32 a, .ok v⟩ => (readStep dir a).map fun step => (step.1, if step.2 v then .passed else .mismatch)
  | ⟨.mboxRead32 a, .error _⟩ => (readStep dir a).map fun step => (step.1, .failed)
  | ⟨.mboxWrite32 a w, .ok _⟩ => (writeStep dir a w).map fun step => (step, .passed)
  | ⟨.mboxWrite32 a w, .error _⟩ => (writeStep dir a w).map fun step => (step, .failed)
  | _ => none

/-- In the run the steps end as `res` says. -/
def Results (dir : MsecDir) (res : DetectStep → CheckResult) (t : RegTrace) : Prop :=
  ∀ e ∈ t, ∀ step c, verdict dir e = some (step, c) → res step = c

/-- Two detections accept the same results. -/
def AcceptSame (res : DetectStep → CheckResult) (ingress egress : Api Unit) : Prop :=
  ∀ t r t' r', ingress.Runs t r → egress.Runs t' r' → Results .ingress res t → Results .egress res t' →
    ((∃ u, r = .ok u) ↔ ∃ u, r' = .ok u)

/-! ## What a detection accepts -/

/-- A run in which the steps end as `res` says succeeds exactly if those in `steps` have passed. -/
def Accepts (dir : MsecDir) (steps : List DetectStep) (x : Api Unit) : Prop :=
  ∀ res t r, x.Runs t r → Results dir res t → ((∃ u, r = .ok u) ↔ ∀ step ∈ steps, res step = .passed)

section Accepts
variable {dir : MsecDir} {res : DetectStep → CheckResult} {t t' : RegTrace} {steps steps' : List DetectStep}
  {x : Api Unit} {step : DetectStep} {a : Nat}

theorem Results.mono (h : Results dir res t') (hsub : t ⊆ t') : Results dir res t := fun e he => h e (hsub he)

theorem Accepts.read {good : BitVec 32 → Bool} (h : readStep dir a = some (step, good)) :
    Accepts dir [step] (readExpecting a good) := by
  intro res t r hrun hres
  rcases (runs_phyMboxRead_bind).mp hrun with ⟨e, rfl, rfl⟩ | ⟨v, t', rfl, hrest⟩
  · have hfailed := hres _ List.mem_cons_self step .failed (by simp [verdict, h])
    simp [hfailed]
  · have hv := hres _ List.mem_cons_self step (if good v then .passed else .mismatch) (by simp [verdict, h])
    cases hgood : good v with
    | true =>
      rw [if_pos hgood] at hrest
      rw [(Fallible.runs_pure.mp hrest).2]
      simp [hv, hgood]
    | false =>
      rw [if_neg (by simp [hgood])] at hrest
      rw [(Fallible.runs_throw.mp hrest).2]
      simp [hv, hgood]

theorem Accepts.write {w : BitVec 32} (h : writeStep dir a w = some step) :
    Accepts dir [step] (phyMboxWrite a w) := by
  intro res t r hrun hres
  obtain ⟨c, _, rfl, rfl, rfl⟩ := hrun
  cases r with
  | error e =>
    have hfailed := hres _ List.mem_cons_self step .failed (by simp [verdict, h])
    simp [hfailed]
  | ok u =>
    have hpassed := hres _ List.mem_cons_self step .passed (by simp [verdict, h])
    simp [hpassed]

theorem Accepts.failWith (h : Accepts dir steps x) (e : Errno) : Accepts dir steps (x.failWith e) := by
  intro res t r hrun hres
  obtain ⟨r', hrun', rfl⟩ := (Prog.runs_map).mp hrun
  rw [← h res t r' hrun' hres]
  cases r' <;> simp [Except.mapError]

theorem Accepts.bind {f : Unit → Api Unit} (hx : Accepts dir steps x) (hf : ∀ u, Accepts dir steps' (f u)) :
    Accepts dir (steps ++ steps') (x >>= f) := by
  intro res t r hrun hres
  simp only [List.mem_append]
  rcases (Fallible.runs_bind).mp hrun with ⟨e, hfirst, rfl⟩ | ⟨t₁, u, t₂, rfl, hfirst, hrest⟩
  · have hno := hx res t _ hfirst hres
    have hnot : ¬∀ s ∈ steps, res s = .passed := fun hall => by simpa using hno.mpr hall
    exact ⟨fun hok => by simp at hok, fun hall => absurd (fun s hs => hall s (.inl hs)) hnot⟩
  · have hpre := (hx res t₁ _ hfirst (hres.mono (List.subset_append_left _ _))).mp ⟨u, rfl⟩
    rw [hf u res t₂ r hrest (hres.mono (List.subset_append_right _ _))]
    exact ⟨fun hpost s hs => hs.elim (hpre s) (hpost s), fun hall s hs => hall s (.inr hs)⟩

end Accepts

def eip160Steps : List DetectStep := [.eip160Config2, .eip160TestWrite, .eip160Test]

section Detect
variable {dir : MsecDir} {res : DetectStep → CheckResult}

theorem accepts_checkEip160 : Accepts dir eip160Steps (checkEip160 dir) := by
  have hconfig : readStep dir (eip160Config2 dir) = some (.eip160Config2, (·.getLsbD (onlyBit dir))) := by
    cases dir <;> rfl
  have hwrite : writeStep dir (trPage0Base dir) eip160Pattern = some .eip160TestWrite := by
    cases dir <;> rfl
  have hread : readStep dir (trPage0Base dir) = some (.eip160Test, (· == eip160Pattern)) := by
    cases dir <;> rfl
  exact Accepts.bind (Accepts.read hconfig) fun _ => Accepts.bind (Accepts.write hwrite) fun _ => Accepts.read hread

theorem writeStep_reset : writeStep dir (trPage0Base dir) 0 = some .eip160Reset := by
  cases dir <;> rfl

theorem accepts_detectIngEip160 :
    Accepts .ingress (.eip160Version :: (eip160Steps ++ [.eip160Reset])) detectIngEip160 :=
  Accepts.bind (Accepts.read rfl) fun _ =>
    Accepts.bind accepts_checkEip160 fun _ => (Accepts.write writeStep_reset).failWith errRet

theorem accepts_detectEip62 :
    Accepts dir [.eip62Version, .eip62TestWrite, .eip62Test, .eip62Reset] (detectEip62 dir) := by
  have hversion : readStep dir (eip62Version dir) = some (.eip62Version, isEip62) := by
    cases dir <;> rfl
  have hwrite : writeStep dir (eip62SeqNumThreshold dir) eip62Pattern = some .eip62TestWrite := by
    cases dir <;> rfl
  have hread : readStep dir (eip62SeqNumThreshold dir) = some (.eip62Test, (· == eip62Pattern)) := by
    cases dir <;> rfl
  have hreset : writeStep dir (eip62SeqNumThreshold dir) 0 = some .eip62Reset := by
    cases dir <;> rfl
  exact Accepts.bind (Accepts.read hversion) fun _ =>
    Accepts.bind (Accepts.bind (Accepts.write hwrite) fun _ => Accepts.read hread) fun _ => Accepts.write hreset

/-- The egress detection accepts a wrong version too, and then makes no other check. -/
theorem accepts_detectEgrEip160 {t : RegTrace} {r : Except Errno Unit} (h : detectEgrEip160.Runs t r)
    (hres : Results .egress res t) : (∃ u, r = .ok u) ↔ res .eip160Version = .mismatch ∨
      ∀ step ∈ .eip160Version :: (eip160Steps ++ [.eip160Reset]), res step = .passed := by
  have hstep : readStep .egress (eip160Version .egress) = some (.eip160Version, isEip160) := rfl
  rcases (runs_phyMboxRead_bind).mp h with ⟨e, rfl, rfl⟩ | ⟨v, t', rfl, hrest⟩
  · have hfailed := hres _ List.mem_cons_self .eip160Version .failed (by simp [verdict, hstep])
    simp [hfailed]
  · have hv := hres _ List.mem_cons_self .eip160Version (if isEip160 v then .passed else .mismatch)
      (by simp [verdict, hstep])
    cases hversion : isEip160 v with
    | true =>
      rw [if_pos hversion] at hrest
      have haccepts : Accepts .egress (eip160Steps ++ [.eip160Reset]) _ :=
        Accepts.bind accepts_checkEip160 fun _ => Accepts.write writeStep_reset
      rw [haccepts res t' r hrest (hres.mono (List.subset_cons_self _ _))]
      simp [hv, hversion]
    | false =>
      rw [if_neg (by simp [hversion])] at hrest
      rw [(Fallible.runs_pure.mp hrest).2]
      simp [hv, hversion]

end Detect

/-! ## The two directions -/

theorem acceptSame_eip62 (res : DetectStep → CheckResult) :
    AcceptSame res (detectEip62 .ingress) (detectEip62 .egress) := by
  intro t r t' r' h h' hres hres'
  rw [accepts_detectEip62 res t r h hres, accepts_detectEip62 res t' r' h' hres']

/-- The two directions differ on a wrong version of the EIP-160. -/
theorem acceptSame_eip160_iff (res : DetectStep → CheckResult) :
    AcceptSame res detectIngEip160 detectEgrEip160 ↔ res .eip160Version ≠ .mismatch := by
  constructor
  · intro h hmismatch
    have hing : detectIngEip160.Runs [⟨.mboxRead32 (eip160Version .ingress), .ok 0⟩] (.error errRet) :=
      (Fallible.runs_bind).mpr (.inl ⟨errRet, (runs_phyMboxRead_bind).mpr (.inr ⟨0, [], rfl, rfl, rfl⟩), rfl⟩)
    have hegr : detectEgrEip160.Runs [⟨.mboxRead32 (eip160Version .egress), .ok 0⟩] (.ok ()) :=
      (runs_phyMboxRead_bind).mpr (.inr ⟨0, [], rfl, rfl, rfl⟩)
    have hverdict : ∀ dir, Results dir res [⟨.mboxRead32 (eip160Version dir), .ok 0⟩] := by
      intro dir e he step c hc
      rw [List.mem_singleton.mp he] at hc
      have hstep : readStep dir (eip160Version dir) = some (.eip160Version, isEip160) := by
        cases dir <;> rfl
      have hpair : some (DetectStep.eip160Version, CheckResult.mismatch) = some (step, c) := by
        rw [← hc, verdict, hstep]
        rfl
      obtain ⟨rfl, rfl⟩ := Prod.mk.inj (Option.some.inj hpair)
      exact hmismatch
    obtain ⟨u, hu⟩ := (h _ _ _ _ hing hegr (hverdict .ingress) (hverdict .egress)).mpr ⟨(), rfl⟩
    cases hu
  · intro hne t r t' r' h h' hres hres'
    rw [accepts_detectIngEip160 res t r h hres, accepts_detectEgrEip160 h' hres', or_iff_right hne]

/-! ## Whole initialisations -/

/-- The registers an initialisation checks, with the answers it should go on with. -/
def identityChecks (dir : MsecDir) : List (Nat × (BitVec 32 → Bool)) := [
  (eip160Version dir, isEip160), (eip160Config2 dir, (·.getLsbD (onlyBit dir))),
  (trPage0Base dir, (· == eip160Pattern)), (eip62Version dir, isEip62),
  (eip62SeqNumThreshold dir, (· == eip62Pattern))]

/-- All answers of a register are expected ones. -/
def AnswersOnly (acc : RegTrace) (a : Nat) (good : BitVec 32 → Bool) : Prop :=
  ∀ v, ⟨.mboxRead32 a, .ok v⟩ ∈ acc → good v

/-- The device has reported that the reset of its counters is done. -/
def Synchronised (dir : MsecDir) (acc : RegTrace) : Prop :=
  ∃ v, ⟨.mboxRead32 (countControlReg dir), .ok v⟩ ∈ acc ∧ v.getLsbD 0 = false

/-- What a result that is not negative says. -/
structure InitGated (dir : MsecDir) (acc : RegTrace) (r : Except Errno (BitVec 8)) : Prop where
  checks : (∃ n, r = .ok n) → ∀ check ∈ identityChecks dir,
    (∃ v, ⟨.mboxRead32 check.1, .ok v⟩ ∈ acc ∧ check.2 v) ∧ AnswersOnly acc check.1 check.2
  accesses : (∃ n, r = .ok n) → AllOk acc
  synchronised : (∃ n, r = .ok n) → Synchronised dir acc

section Configure
variable {dir : MsecDir} {nrOfSas : BitVec 8}

theorem failsOn_writeWords (a : Nat) (ws : List (BitVec 32)) :
    Fallible.FailsOn (fun e => engineRefuses dir e) (mboxWriteWords a ws) := by
  induction ws generalizing a with
  | nil => exact Fallible.GoesOn.pure trivial
  | cons w ws ih => exact Fallible.GoesOn.bind failsOn_write fun _ => ih _

theorem failsOn_waitResetAll (n : Nat) : Fallible.FailsOn (fun e => engineRefuses dir e) (waitResetAll dir n) := by
  have hunchecked : expectedAnswer dir (countControlReg dir) = none := by
    cases dir <;> rfl
  induction n with
  | zero => exact Fallible.GoesOn.pure trivial
  | succ n ih =>
    exact Fallible.GoesOn.bind (failsOn_unchecked hunchecked) fun _ =>
      Fallible.GoesOn.ite (fun _ => ih) fun _ => Fallible.GoesOn.pure trivial

theorem failsOn_configCountCtrl {c : CountControl}
    (h : ¬(c.resetAll > 1 ∨ c.saturateCntrs > 1 ∨ c.autoCntrReset > 1 ∨ c.resetSummary > 1 ∨ c.debugAccess > 1)) :
    FailsOn (fun e => engineRefuses dir e) (configCountCtrl dir c) := by
  rw [configCountCtrl, if_neg h]
  exact FailsOn.locked failsOn_write

theorem failsOn_configCtxSize : Fallible.FailsOn (fun e => engineRefuses dir e) (configCtxSize dir) := by
  have hunchecked : expectedAnswer dir (eip62ContextCtrl dir) = none := by
    cases dir <;> rfl
  exact Fallible.GoesOn.bind (failsOn_unchecked hunchecked) fun _ => failsOn_write

theorem failsOn_configMiscCtrl :
    FailsOn (fun e => engineRefuses dir e) (configMiscCtrl dir (initMiscControl dir)) := by
  rw [configMiscCtrl, if_neg (by cases dir <;> decide)]
  exact FailsOn.locked failsOn_write

theorem failsOn_configSaNm (reg : SaNmReg) :
    FailsOn (fun e => engineRefuses dir e) (configSaNm dir reg (initNonmatchFca dir)) := by
  have hunchecked : expectedAnswer dir (saNmAddr dir reg) = none := by
    cases dir <;> cases reg <;> rfl
  have hgroups : (initNonmatchFca dir).pktType.groups = some [0, 1, 2, 3] := by
    cases dir <;> rfl
  rw [configSaNm, hgroups]
  simp only
  rw [if_neg (by cases dir <;> decide)]
  exact FailsOn.locked (Fallible.GoesOn.bind (failsOn_unchecked hunchecked) fun _ => failsOn_write)

theorem failsOn_configCcCtrl : FailsOn (fun e => engineRefuses dir e) (configCcCtrl dir) := by
  cases dir with
  | ingress =>
    rw [configCcCtrl, gpy2xxMsecConfigIngCcCtrl, if_neg (by decide)]
    exact FailsOn.locked (Fallible.GoesOn.bind failsOn_write fun _ => failsOn_write)
  | egress => exact FailsOn.pure _

theorem failsOn_clearStatsSumm {phy : MsecDevice} :
    FailsOn (fun e => engineRefuses dir e) (clearStatsSumm dir phy) := by
  cases dir with
  | ingress => exact FailsOn.locked (Fallible.GoesOn.bind (failsOn_writeWords _ _) fun _ => failsOn_write)
  | egress => exact FailsOn.locked (Fallible.GoesOn.bind failsOn_write fun _ => failsOn_writeWords _ _)

theorem failsOn_configCountIncen {c : CountIncen} :
    FailsOn (fun e => engineRefuses dir e) (configCountIncen dir c) :=
  FailsOn.locked (Fallible.GoesOn.bind failsOn_write fun _ => failsOn_write)

/-- The configuration fails on a failed access only. -/
theorem failsOn_configureEngine : FailsOn (fun e => engineRefuses dir e) (configureEngine dir nrOfSas) :=
  FailsOn.bind (failsOn_configCountCtrl (by decide)) fun _ =>
  FailsOn.bind (failsOn_configCountCtrl (by decide)) fun _ =>
  FailsOn.bind (FailsOn.outside failsOn_configCtxSize) fun _ =>
  FailsOn.bind failsOn_configMiscCtrl fun _ =>
  FailsOn.bind (FailsOn.outside failsOn_write) fun _ =>
  FailsOn.bind (failsOn_configSaNm .ncp) fun _ =>
  FailsOn.bind (failsOn_configSaNm .cp) fun _ =>
  FailsOn.bind failsOn_configCcCtrl fun _ =>
  FailsOn.bind failsOn_clearStatsSumm fun _ =>
  FailsOn.bind (FailsOn.outside (failsOn_writeWords _ _)) fun _ =>
  FailsOn.bind (FailsOn.outside (failsOn_waitResetAll 100)) fun _ =>
  FailsOn.bind failsOn_configCountIncen fun _ => FailsOn.pure _

end Configure

section Init
variable {dir : MsecDir} {phy : Gpy211Device} {t : Trace regSig.locking} {r : Except Errno (BitVec 8)} {a : Nat}
  {good : BitVec 32 → Bool}

/-- A register has been read, with an expected answer. -/
def Answered (check : Nat × (BitVec 32 → Bool)) (e : Event regSig) : Prop :=
  ∃ v, e = ⟨.mboxRead32 check.1, .ok v⟩ ∧ check.2 v

theorem gets_readExpecting : Fallible.Gets (Answered (a, good)) (readExpecting a good) := by
  intro t u hrun
  rcases (runs_phyMboxRead_bind).mp hrun with ⟨e, -, hr⟩ | ⟨v, t', rfl, hrest⟩
  · cases hr
  · cases hgood : good v with
    | true => exact ⟨_, List.mem_cons_self, v, rfl, hgood⟩
    | false =>
      rw [if_neg (by simp [hgood])] at hrest
      cases (Fallible.runs_throw.mp hrest).2

theorem gets_checkEip160 : Fallible.Gets (Answered (eip160Config2 dir, (·.getLsbD (onlyBit dir)))) (checkEip160 dir) ∧
    Fallible.Gets (Answered (trPage0Base dir, (· == eip160Pattern))) (checkEip160 dir) :=
  ⟨Fallible.Gets.first gets_readExpecting,
    Fallible.Gets.after fun _ => Fallible.Gets.after fun _ => gets_readExpecting⟩

/-- A detection of the EIP-160 that does not meet a wrong version makes its checks. -/
theorem answered_detectEip160 {acc : RegTrace} {u : Unit} (h : (detectEip160 dir).Runs acc (.ok u))
    (hversion : AnswersOnly acc (eip160Version dir) isEip160) :
    ∀ check ∈ (identityChecks dir).take 3, ∃ e ∈ acc, Answered check e := by
  obtain ⟨hconfig, htest⟩ := @gets_checkEip160 dir
  have hall : (∃ e ∈ acc, Answered (eip160Version dir, isEip160) e) ∧
      (∃ e ∈ acc, Answered (eip160Config2 dir, (·.getLsbD (onlyBit dir))) e) ∧
      ∃ e ∈ acc, Answered (trPage0Base dir, (· == eip160Pattern)) e := by
    cases dir with
    | ingress =>
      exact ⟨Fallible.Gets.first gets_readExpecting acc u h,
        Fallible.Gets.after (fun _ => Fallible.Gets.first hconfig) acc u h,
        Fallible.Gets.after (fun _ => Fallible.Gets.first htest) acc u h⟩
    | egress =>
      rcases (runs_phyMboxRead_bind).mp h with ⟨e, -, hr⟩ | ⟨v, t', rfl, hrest⟩
      · cases hr
      · have hgood := hversion v List.mem_cons_self
        rw [if_pos hgood] at hrest
        obtain ⟨e, he, hec⟩ := Fallible.Gets.first hconfig t' u hrest
        obtain ⟨e', he', het⟩ := Fallible.Gets.first htest t' u hrest
        exact ⟨⟨_, List.mem_cons_self, v, rfl, hgood⟩, ⟨e, List.mem_cons_of_mem _ he, hec⟩,
          e', List.mem_cons_of_mem _ he', het⟩
  obtain ⟨hver, hcfg, htst⟩ := hall
  simpa [identityChecks] using ⟨hver, hcfg, htst⟩

/-- The same for a whole detection, up to the configuration of the engine. -/
theorem answered_openEngine {acc : RegTrace} {n : BitVec 8} (h : (openEngine dir).Runs acc (.ok n))
    (hversion : AnswersOnly acc (eip160Version dir) isEip160) :
    ∀ check ∈ identityChecks dir, ∃ e ∈ acc, Answered check e := by
  obtain ⟨t₁, u, t₂, rfl, hdetect, hrest⟩ := (Fallible.runs_bind_ok).mp h
  have heip160 := answered_detectEip160 hdetect fun v hv => hversion v (List.mem_append_left _ hv)
  have hid : Fallible.Gets (Answered (eip62Version dir, isEip62)) (detectEip62 dir) :=
    Fallible.Gets.first gets_readExpecting
  have htest : Fallible.Gets (Answered (eip62SeqNumThreshold dir, (· == eip62Pattern))) (detectEip62 dir) :=
    Fallible.Gets.after fun _ => Fallible.Gets.first (Fallible.Gets.after fun _ => gets_readExpecting)
  obtain ⟨e₁, he₁, hans₁⟩ := Fallible.Gets.first hid t₂ n hrest
  obtain ⟨e₂, he₂, hans₂⟩ := Fallible.Gets.first htest t₂ n hrest
  have hsplit : identityChecks dir = (identityChecks dir).take 3 ++
      [(eip62Version dir, isEip62), (eip62SeqNumThreshold dir, (· == eip62Pattern))] := rfl
  intro check hcheck
  rw [hsplit] at hcheck
  rcases List.mem_append.mp hcheck with hcheck | hcheck
  · obtain ⟨e, he, hans⟩ := heip160 check hcheck
    exact ⟨e, List.mem_append_left _ he, hans⟩
  · rcases List.mem_cons.mp hcheck with rfl | hcheck
    · exact ⟨e₁, List.mem_append_right _ he₁, hans₁⟩
    · rw [List.mem_singleton.mp hcheck]
      exact ⟨e₂, List.mem_append_right _ he₂, hans₂⟩

/-- A run that succeeds opened the engine and met nothing that it refuses. -/
theorem init_ok_iff (h : (initDev dir phy).Runs t r) :
    (∃ n, r = .ok n) ↔ phy.macsecSupported ∧ ∀ e ∈ accesses t, ¬engineRefuses dir e := by
  rw [initDev] at h
  cases hsupported : phy.macsecSupported with
  | false =>
    rw [if_pos (by simp [hsupported])] at h
    rw [(Fallible.runs_throw.mp h).2]
    simp
  | true =>
    rw [if_neg (by simp [hsupported])] at h
    have hfails : FailsOn (fun e => engineRefuses dir e) (bracket (outside (openEngine dir) >>= configureEngine dir)) :=
      FailsOn.bracket (FailsOn.bind (FailsOn.outside failsOn_openEngine) fun _ => failsOn_configureEngine)
    rw [hfails t r h]
    simp

theorem opens_of_ok {n : BitVec 8} (h : (initDev dir phy).Runs t (.ok n)) :
    ∃ acc acc' n', accesses t = acc ++ acc' ∧ (openEngine dir).Runs acc (.ok n') := by
  rw [initDev, Fallible.runs_ite] at h
  cases hsupported : phy.macsecSupported with
  | false =>
    rw [if_pos (by simp [hsupported])] at h
    cases (Fallible.runs_throw.mp h).2
  | true =>
    rw [if_neg (by simp [hsupported])] at h
    obtain ⟨t', rfl, hbody⟩ := (runs_bracket).mp h
    obtain ⟨t₁, n', t₂, rfl, hopen, -⟩ := (Fallible.runs_bind_ok).mp hbody
    obtain ⟨acc, rfl, hrun⟩ := (runs_outside).mp hopen
    refine ⟨acc, accesses t₂, n', ?_, hrun⟩
    rw [accesses_lock, accesses_append, accesses_append, accesses_acc]
    exact List.append_nil _

theorem succeeded_of_accepted {e : Event regSig} (h : ¬engineRefuses dir e) : e.op.succeeded e.ret := by
  obtain ⟨o, c⟩ := e
  cases o with
  | mboxRead32 a =>
    cases c with
    | ok v => rfl
    | error e => exact absurd rfl h
  | _ => simpa [engineRefuses, refused] using h

/-- What is expected of the checked registers; of the EIP-160's version on ingress only. -/
theorem expectedAnswer_of_mem {check : Nat × (BitVec 32 → Bool)} (h : check ∈ identityChecks dir)
    (hne : dir = .egress → check ≠ (eip160Version dir, isEip160)) : expectedAnswer dir check.1 = some check.2 := by
  simp only [identityChecks, List.mem_cons, List.not_mem_nil, or_false] at h
  cases dir with
  | ingress => rcases h with rfl | rfl | rfl | rfl | rfl <;> rfl
  | egress =>
    rcases h with rfl | rfl | rfl | rfl | rfl
    · exact absurd rfl (hne rfl)
    all_goals rfl

/-- **Initialisation.** A result that is not negative says that the engine is there and ready, exactly in
the runs where an access fails or a check refuses, or where the version is right and the reset of the
counters is seen to end. -/
theorem initGated_iff (h : (initDev dir phy).Runs t r) : InitGated dir (accesses t) r ↔
    phy.macsecSupported = false ∨ (∃ e ∈ accesses t, engineRefuses dir e) ∨
      AnswersOnly (accesses t) (eip160Version dir) isEip160 ∧ Synchronised dir (accesses t) := by
  have hok := init_ok_iff h
  constructor
  · intro hgated
    by_cases hr : ∃ n, r = .ok n
    · exact .inr (.inr ⟨(hgated.checks hr _ List.mem_cons_self).2, hgated.synchronised hr⟩)
    · rw [hok, not_and, Classical.not_forall] at hr
      cases hsupported : phy.macsecSupported with
      | false => exact .inl rfl
      | true =>
        obtain ⟨e, he⟩ := hr hsupported
        refine .inr (.inl ⟨e, ?_⟩)
        simpa using he
  · intro hcond
    have hgo : (∃ n, r = .ok n) → (∀ e ∈ accesses t, ¬engineRefuses dir e) ∧
        AnswersOnly (accesses t) (eip160Version dir) isEip160 ∧ Synchronised dir (accesses t) := by
      intro hr
      obtain ⟨hsupported, hnone⟩ := hok.mp hr
      refine ⟨hnone, ?_⟩
      rcases hcond with hno | ⟨e, he, hrefuses⟩ | hready
      · rw [hno] at hsupported
        cases hsupported
      · exact absurd hrefuses (hnone e he)
      · exact hready
    refine ⟨fun hr check hcheck => ?_, fun hr e he => succeeded_of_accepted ((hgo hr).1 e he),
      fun hr => (hgo hr).2.2⟩
    obtain ⟨hnone, hversion, -⟩ := hgo hr
    refine ⟨?_, fun v hv => ?_⟩
    · obtain ⟨n, rfl⟩ := hr
      obtain ⟨acc, acc', n', hacc, hopen⟩ := opens_of_ok h
      rw [hacc] at hversion ⊢
      obtain ⟨e, he, v, rfl, hgood⟩ := answered_openEngine hopen
        (fun v hv => hversion v (List.mem_append_left _ hv)) check hcheck
      exact ⟨v, List.mem_append_left _ he, hgood⟩
    · by_cases hver : check = (eip160Version dir, isEip160)
      · rw [hver] at hv ⊢
        exact hversion v hv
      · have hexpected := expectedAnswer_of_mem hcheck fun _ => hver
        have hanswer := hnone _ hv
        simpa [engineRefuses, hexpected] using hanswer

end Init

/-- What an initialisation and its detections promise holds but for two kinds of answers: a wrong version of
the EIP-160 on egress, and counters whose reset is not seen to end. -/
theorem detection_gates_iff {dir : MsecDir} {phy : Gpy211Device} {t : Trace regSig.locking}
    {r : Except Errno (BitVec 8)} (h : (initDev dir phy).Runs t r) (res : DetectStep → CheckResult) :
    (InitGated dir (accesses t) r ↔ phy.macsecSupported = false ∨ (∃ e ∈ accesses t, engineRefuses dir e) ∨
      AnswersOnly (accesses t) (eip160Version dir) isEip160 ∧ Synchronised dir (accesses t)) ∧
    (AcceptSame res detectIngEip160 detectEgrEip160 ↔ res .eip160Version ≠ .mismatch) ∧
    AcceptSame res (detectEip62 .ingress) (detectEip62 .egress) :=
  ⟨initGated_iff h, acceptSame_eip160_iff res, acceptSame_eip62 res⟩

/-- A device with MACsec. -/
def msecDevice : Gpy211Device :=
  { nrOfSas := 32, family := .p31g, phyAddr := 0, macsecSupported := true, ptpClock := 0,
    gmacfBaseAddr := 0, gmaclBaseAddr := 0, pmBaseAddr := 0 }

/-- The first access of an initialisation fails. -/
theorem detection_gates_first_failed :
    InitGated .egress [⟨.mboxRead32 (eip160Version .egress), .error errRet⟩] (.error errRet) := by
  have hread : detectEgrEip160.Runs [⟨.mboxRead32 (eip160Version .egress), .error errRet⟩] (.error errRet) :=
    (runs_phyMboxRead_bind).mpr (.inl ⟨errRet, rfl, rfl⟩)
  have hopen : (openEngine .egress).Runs [⟨.mboxRead32 (eip160Version .egress), .error errRet⟩] (.error errRet) :=
    (Fallible.runs_bind).mpr (.inl ⟨errRet, hread, rfl⟩)
  have hrun : (initDev .egress msecDevice).Runs
      (⟨.lock, ()⟩ :: ([⟨.acc (.mboxRead32 (eip160Version .egress)), .error errRet⟩] ++ [⟨.unlock, ()⟩])) (.error errRet) :=
    (runs_bracket).mpr ⟨_, rfl, (Fallible.runs_bind).mpr (.inl ⟨errRet, (runs_outside).mpr ⟨_, rfl, hopen⟩, rfl⟩)⟩
  exact (detection_gates_iff hrun fun _ => .passed).1.mpr (.inr (.inl ⟨_, List.mem_cons_self, rfl⟩))

/-- The answers of an egress engine that is sound but for the version of its EIP-160. -/
def wrongVersion (a : Nat) : BitVec 32 :=
  if a = eip160Config2 .egress then 0x2000000
  else if a = trPage0Base .egress then eip160Pattern
  else if a = eip62Version .egress then 0xC13E
  else if a = eip62SeqNumThreshold .egress then eip62Pattern
  else 0

def wrongVersionAnswer : (o : RegOp) → o.Ret
  | .mboxRead32 a => .ok (wrongVersion a)
  | o => okAnswer o

theorem not_refuses_wrongVersion (o : RegOp) : ¬engineRefuses .egress ⟨o, wrongVersionAnswer o⟩ := by
  cases o with
  | mboxRead32 a =>
    simp only [engineRefuses, wrongVersionAnswer, expectedAnswer, wrongVersion, reduceCtorEq, false_and, if_false]
    split_ifs <;> decide
  | _ => simp [engineRefuses, refused, wrongVersionAnswer, succeeded_okAnswer]

/-- An engine with another version than the expected one is taken into use. -/
theorem egress_wrong_version_accepted : ¬∀ dir phy t r, (initDev dir phy).Runs t r → InitGated dir (accesses t) r := by
  intro h
  obtain ⟨t, r, hrun, hans⟩ := Lock.exists_runs wrongVersionAnswer (initDev .egress msecDevice)
  have hok : ∃ n, r = .ok n := by
    refine (init_ok_iff hrun).mpr ⟨rfl, fun e he => ?_⟩
    obtain ⟨o, c⟩ := e
    obtain rfl : c = wrongVersionAnswer o := hans _ he
    exact not_refuses_wrongVersion o
  obtain ⟨⟨v, hv, hgood⟩, -⟩ := (h _ _ t r hrun).checks hok _ List.mem_cons_self
  have hanswer : (.ok v : Except Errno (BitVec 32)) = .ok (wrongVersion (eip160Version .egress)) := hans _ hv
  obtain rfl := Except.ok.inj hanswer
  exact absurd hgood (by decide)

end Gpy2xx
