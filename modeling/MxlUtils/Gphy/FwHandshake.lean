import MxlUtils.Gphy.Fw

/- The handshake of the fast firmware write. Both of its waits tell from the retry
   counter whether the status word was seen, so that a word seen at the last poll
   counts as a timeout. Starting the download leaves with success when the interface
   reads back different; writing a page takes a status word for completion only when
   no other bit of it is set. -/
namespace Gpy2xx
open Effect Effect.Fallible Effect.Lock

/-! ## What the device answers -/

/-- The completion bit of a status word. -/
def statusDone : BitVec 16 := 0x8000

def ShowsDone (v : BitVec 16) : Prop := v &&& statusDone ≠ 0

instance (v : BitVec 16) : Decidable (ShowsDone v) := inferInstanceAs (Decidable (_ ≠ _))

/-- The answers to the reads of the status word, in order. -/
def statusAnswers (t : RegTrace) : List (Except Errno (BitVec 16)) := t.filterMap fun
  | ⟨.mmdRead devad reg, a⟩ => if devad = .vend1 ∧ reg = mboxDataHigh then some a else none
  | _ => none

/-- The answers to the reads of the interface's configuration. -/
def mspiAnswers (t : RegTrace) : List (Except Errno (BitVec 16)) := t.filterMap fun
  | ⟨.mboxRead16 addr, a⟩ => if addr = mspiCfg then some a else none
  | _ => none

/-- Completion is observed in a poll. -/
def DoneObserved (t : RegTrace) : Prop := ∃ v, .ok v ∈ statusAnswers t ∧ ShowsDone v

/-- The poll after `n` others shows completion. -/
def DoneAt (n : Nat) (t : RegTrace) : Prop := ∃ v, (statusAnswers t)[n]? = some (.ok v) ∧ ShowsDone v

/-- The configuration reads back different from what was written. -/
def MspiMismatch (t : RegTrace) : Prop := ∃ v, (mspiAnswers t)[1]? = some (.ok v) ∧ v &&& ~~~0xE000 ≠ 0x1006

/-- The start succeeds exactly when nothing failed, nothing differed and completion was observed. -/
def InitExact (t : RegTrace) (r : Except Errno Unit) : Prop :=
  r = .ok () ↔ AllOk t ∧ ¬MspiMismatch t ∧ DoneObserved t

/-- An event, with every bit of a status word cleared but the completion bit. -/
def onlyDone : Event regSig → Event regSig
  | ⟨.mmdRead .vend1 reg, .ok v⟩ =>
    ⟨.mmdRead .vend1 reg, .ok (if reg = mboxDataHigh then v &&& statusDone else v)⟩
  | e => e

/-- A page is written as it is where the other bits of every status word are 0. -/
def PageUniform (buf : Bytes 256) (timeout : BitVec 32) (t : RegTrace) (r : Except Errno Unit) : Prop :=
  ∃ t', (gpy2xxFwFwrPage buf timeout).Runs t' r ∧ accesses t' = t.map onlyDone

/-- One of the first `n` polls shows completion and other bits. -/
def DoneAmongOthers (n : Nat) (t : RegTrace) : Prop :=
  ∃ i < n, ∃ v, (statusAnswers t)[i]? = some (.ok v) ∧ ShowsDone v ∧ v ≠ statusDone

/-! ## Polling -/

section Polling
variable {done : BitVec 16 → Bool} {n : Nat} {t : RegTrace} {r : Except Errno Unit} {v : BitVec 16}

/-- A poll, and what follows it. -/
theorem runs_pollDataHigh_succ : (pollDataHigh done (n + 1)).Runs t r ↔
    (∃ e, t = [⟨.mmdRead .vend1 mboxDataHigh, .error e⟩] ∧ r = .error e) ∨
    ∃ v t', t = ⟨.mmdRead .vend1 mboxDataHigh, .ok v⟩ :: t' ∧
      if n = 0 then t' = [] ∧ r = .error EIO
      else if done v then t' = [] ∧ r = .ok () else (pollDataHigh done n).Runs t' r := by
  rw [pollDataHigh, runs_phyReadMmd_bind]
  refine or_congr_right (exists₂_congr fun v t' => and_congr_right fun _ => ?_)
  split
  · exact runs_throw
  · split
    · exact runs_pure
    · exact Iff.rfl

/-- What follows a poll that was answered. -/
theorem runs_pollDataHigh_cons :
    (pollDataHigh done (n + 1)).Runs (⟨.mmdRead .vend1 mboxDataHigh, .ok v⟩ :: t) r ↔
      if n = 0 then t = [] ∧ r = .error EIO
      else if done v then t = [] ∧ r = .ok () else (pollDataHigh done n).Runs t r := by
  rw [runs_pollDataHigh_succ]
  constructor
  · intro h
    rcases h with ⟨e, heq, -⟩ | ⟨v', t', heq, h⟩
    · cases heq
    · cases heq
      exact h
  · intro h
    exact .inr ⟨v, t, rfl, h⟩

theorem statusAnswers_poll {a : Except Errno (BitVec 16)} :
    statusAnswers (⟨.mmdRead .vend1 mboxDataHigh, a⟩ :: t) = a :: statusAnswers t := rfl

theorem doneObserved_cons :
    DoneObserved (⟨.mmdRead .vend1 mboxDataHigh, .ok v⟩ :: t) ↔ ShowsDone v ∨ DoneObserved t := by
  simp [DoneObserved, statusAnswers_poll, or_and_right, exists_or]

/-- A wait by the completion bit is right exactly when the last poll does not show it. -/
theorem poll_exact_iff (h : (pollDataHigh (fun status => status &&& statusDone ≠ 0) (n + 1)).Runs t r) :
    (r = .ok () ↔ AllOk t ∧ DoneObserved t) ↔ ¬DoneAt n t := by
  induction n generalizing t with
  | zero =>
    rcases (runs_pollDataHigh_succ).mp h with ⟨e, rfl, rfl⟩ | ⟨v, t', rfl, rfl, rfl⟩
    · simp [DoneAt, DoneObserved, statusAnswers]
    · simp [DoneAt, DoneObserved, statusAnswers, AllOk, RegOp.succeeded, Except.isOk,
        Except.toBool]
  | succ n ih =>
    rcases (runs_pollDataHigh_succ).mp h with ⟨e, rfl, rfl⟩ | ⟨v, t', rfl, hrest⟩
    · simp [DoneAt, DoneObserved, statusAnswers]
    · have hok : RegOp.succeeded (.mmdRead .vend1 mboxDataHigh) (.ok v) = true := rfl
      rw [allOk_cons, doneObserved_cons]
      by_cases hdone : ShowsDone v
      · -- completion at once, with polls to go
        rw [if_neg (Nat.succ_ne_zero n), if_pos (show decide (v &&& statusDone ≠ 0) = true from decide_eq_true hdone)] at hrest
        obtain ⟨rfl, rfl⟩ := hrest
        simp [hdone, hok, AllOk, DoneAt, statusAnswers]
      · rw [if_neg (Nat.succ_ne_zero n), if_neg (by simpa [ShowsDone] using hdone)] at hrest
        rw [show DoneAt (n + 1) (_ :: t') ↔ DoneAt n t' from Iff.rfl, ← ih hrest]
        simp [hdone, hok]

theorem doneAmongOthers_cons :
    DoneAmongOthers (n + 1) (⟨.mmdRead .vend1 mboxDataHigh, .ok v⟩ :: t) ↔
      (ShowsDone v ∧ v ≠ statusDone) ∨ DoneAmongOthers n t := by
  constructor
  · intro h
    obtain ⟨i, hi, u, hu, hdone⟩ := h
    cases i with
    | zero =>
      cases hu
      exact .inl hdone
    | succ i => exact .inr ⟨i, Nat.lt_of_succ_lt_succ hi, u, hu, hdone⟩
  · intro h
    rcases h with hdone | ⟨i, hi, u, hu, hdone⟩
    · exact ⟨0, Nat.succ_pos n, v, rfl, hdone⟩
    · exact ⟨i + 1, Nat.succ_lt_succ hi, u, hu, hdone⟩

theorem not_doneAmongOthers_zero : ¬DoneAmongOthers 0 t := fun ⟨_, hi, _⟩ => Nat.not_lt_zero _ hi

/-- The completion bit alone is the word that the wait is for, or 0. -/
theorem and_statusDone_cases (v : BitVec 16) :
    (ShowsDone v ∧ v &&& statusDone = statusDone) ∨ (¬ShowsDone v ∧ v &&& statusDone = 0) := by
  have hand : v &&& statusDone = if v.getLsbD 15 then statusDone else 0 := BitVec.and_twoPow v 15
  rw [ShowsDone, hand]
  cases v.getLsbD 15 with
  | true => exact .inl ⟨by decide, rfl⟩
  | false => exact .inr ⟨by decide, rfl⟩

/-- A wait for the very word is the same with the other bits cleared exactly when no poll before the last
shows completion among other bits. -/
theorem poll_uniform_iff (h : (pollDataHigh (fun status => status = statusDone) (n + 1)).Runs t r) :
    (pollDataHigh (fun status => status = statusDone) (n + 1)).Runs (t.map onlyDone) r ↔
      ¬DoneAmongOthers n t := by
  induction n generalizing t with
  | zero =>
    refine iff_of_true ?_ not_doneAmongOthers_zero
    rw [runs_pollDataHigh_succ]
    rcases (runs_pollDataHigh_succ).mp h with ⟨e, rfl, rfl⟩ | ⟨v, t', rfl, rfl, rfl⟩
    · exact .inl ⟨e, rfl, rfl⟩
    · exact .inr ⟨v &&& statusDone, [], rfl, rfl, rfl⟩
  | succ n ih =>
    rcases (runs_pollDataHigh_succ).mp h with ⟨e, rfl, rfl⟩ | ⟨v, t', rfl, hrest⟩
    · refine iff_of_true (runs_pollDataHigh_succ.mpr (.inl ⟨e, rfl, rfl⟩)) fun ⟨i, _, u, hu, _⟩ => ?_
      rcases i with _ | i
      · cases hu
      · cases hu
    · have hmap : (⟨.mmdRead .vend1 mboxDataHigh, .ok v⟩ :: t' : RegTrace).map onlyDone =
        ⟨.mmdRead .vend1 mboxDataHigh, .ok (v &&& statusDone)⟩ :: t'.map onlyDone := rfl
      rw [hmap, runs_pollDataHigh_cons, doneAmongOthers_cons, if_neg (Nat.succ_ne_zero n)]
      rw [if_neg (Nat.succ_ne_zero n)] at hrest
      by_cases hword : v = statusDone
      · -- completion, and no other bit
        rw [if_pos (decide_eq_true hword)] at hrest
        obtain ⟨rfl, rfl⟩ := hrest
        rw [if_pos (decide_eq_true (by rw [hword]; rfl))]
        refine iff_of_true ⟨rfl, rfl⟩ fun hothers => ?_
        rcases hothers with hothers | ⟨i, _, u, hu, _⟩
        · exact hothers.2 hword
        · cases hu
      · rw [if_neg (by simpa using hword)] at hrest
        rcases and_statusDone_cases v with ⟨hdone, hand⟩ | ⟨hnot, hand⟩
        · -- the other bits make the call go on polling
          rw [if_pos (decide_eq_true hand)]
          refine iff_of_false (fun hstop => ?_) fun h => h (.inl ⟨hdone, hword⟩)
          rw [List.map_eq_nil_iff.mp hstop.1] at hrest
          rcases (runs_pollDataHigh_succ).mp hrest with ⟨e, heq, -⟩ | ⟨u, t₂, heq, -⟩
          · cases heq
          · cases heq
        · rw [if_neg (by rw [hand]; decide), ih hrest]
          simp [hnot]

end Polling

/-! ## The steps before the wait -/

/-- An access that is not a poll. -/
def notPoll (o : RegOp) : Prop := o ≠ .mmdRead .vend1 mboxDataHigh

section Steps
variable {t : RegTrace} {α : Type}

theorem statusAnswers_append (t t' : RegTrace) : statusAnswers (t ++ t') = statusAnswers t ++ statusAnswers t' :=
  List.filterMap_append

theorem mspiAnswers_append (t t' : RegTrace) : mspiAnswers (t ++ t') = mspiAnswers t ++ mspiAnswers t' :=
  List.filterMap_append

theorem statusAnswers_of_notPoll (h : ∀ e ∈ t, notPoll e.op) : statusAnswers t = [] := by
  rw [statusAnswers, List.filterMap_eq_nil_iff]
  intro e he
  have hnot := h e he
  obtain ⟨o, a⟩ := e
  cases o with
  | mmdRead devad reg =>
    refine if_neg fun hpoll => hnot ?_
    rw [hpoll.1, hpoll.2]
  | _ => rfl

theorem onlyDone_of_notPoll {e : Event regSig} (h : notPoll e.op) : onlyDone e = e := by
  obtain ⟨o, a⟩ := e
  cases o with
  | mmdRead devad reg =>
    cases devad with
    | vend1 =>
      cases a with
      | error e => rfl
      | ok v =>
        have hreg : reg ≠ mboxDataHigh := fun heq => h (by rw [heq])
        rw [onlyDone, if_neg hreg]
    | _ => rfl
  | _ => rfl

theorem map_onlyDone_of_notPoll (h : ∀ e ∈ t, notPoll e.op) : t.map onlyDone = t :=
  (List.map_congr_left fun e he => onlyDone_of_notPoll (h e he)).trans (List.map_id t)

/-- The steps of `fw_fwr_page` before the wait. -/
def fwrSteps (buf : Bytes 256) : Api Unit := do
  let data ← phyReadMmd .vend2 pageCtrl
  phyWriteMmd .vend2 pageCtrl (data &&& 0xFFFE)
  writeHalves (pageHalves buf)
  phyWriteMmd .vend2 pageCtrl (data &&& 0xFFFE ||| 1)

theorem all_writeHalves (hs : List (BitVec 16 × BitVec 16)) : (writeHalves hs).All notPoll := by
  induction hs with
  | nil => exact All.pure _
  | cons h hs ih =>
    refine All.bind ⟨nofun, fun _ => trivial⟩ fun _ => ?_
    exact All.bind ⟨nofun, fun _ => trivial⟩ fun _ => ih

theorem all_fwrSteps (buf : Bytes 256) : (fwrSteps buf).All notPoll := by
  refine All.bind ⟨nofun, fun _ => trivial⟩ fun data => ?_
  refine All.bind ⟨nofun, fun _ => trivial⟩ fun _ => ?_
  refine All.bind (all_writeHalves _) fun _ => ?_
  exact ⟨nofun, fun _ => trivial⟩

end Steps

/-- Steps that do not poll, and a wait by the very word. -/
theorem steps_uniform_iff {x : Api Unit} {n : Nat} {t : RegTrace} {r : Except Errno Unit} (hx : x.All notPoll)
    (h : (x >>= fun _ => pollDataHigh (fun status => status = statusDone) (n + 1)).Runs t r) :
    (x >>= fun _ => pollDataHigh (fun status => status = statusDone) (n + 1)).Runs (t.map onlyDone) r ↔
      ¬DoneAmongOthers n t := by
  rcases (runs_bind).mp h with ⟨e, hsteps, rfl⟩ | ⟨t₁, _, t₂, rfl, hsteps, hpoll⟩
  · have hnot := Prog.Runs.all hsteps hx
    rw [map_onlyDone_of_notPoll hnot]
    refine iff_of_true h fun ⟨_, _, _, hv, _⟩ => ?_
    rw [statusAnswers_of_notPoll hnot] at hv
    cases hv
  · have hnot := Prog.Runs.all hsteps hx
    have hothers : DoneAmongOthers n (t₁ ++ t₂) ↔ DoneAmongOthers n t₂ := by
      rw [DoneAmongOthers, statusAnswers_append, statusAnswers_of_notPoll hnot]
      rfl
    rw [List.map_append, map_onlyDone_of_notPoll hnot, runs_bind_of_ok hsteps, hothers]
    exact poll_uniform_iff hpoll

/-- In every run a page is written as where the other bits of the status words are 0 exactly when no poll
before the last one shows completion among other bits. -/
theorem pageUniform_iff {buf : Bytes 256} {timeout : BitVec 32} {t : Trace regSig.locking}
    {r : Except Errno Unit} (h : (gpy2xxFwFwrPage buf timeout).Runs t r) (htimeout : 0 < timeout) :
    PageUniform buf timeout (accesses t) r ↔ ¬DoneAmongOthers (timeout.toNat * 10 - 1) (accesses t) := by
  have hpos : 0 < timeout.toNat := htimeout
  have hzero : timeout ≠ 0 := fun h => by simp [h] at hpos
  obtain ⟨n, hn⟩ : ∃ n, timeout.toNat * 10 = n + 1 := ⟨timeout.toNat * 10 - 1, by omega⟩
  rw [hn, Nat.add_sub_cancel]
  unfold PageUniform
  unfold gpy2xxFwFwrPage at h ⊢
  by_cases hlong : timeout > 0xFFFFFFFF / 10
  · rw [if_pos hlong] at h ⊢
    obtain ⟨rfl, rfl⟩ := (runs_throw).mp h
    refine iff_of_true ⟨[], (runs_throw).mpr ⟨rfl, rfl⟩, rfl⟩ fun ⟨_, _, _, hv, _⟩ => ?_
    cases hv
  · rw [if_neg hlong] at h ⊢
    have hbody : (do
        let data ← phyReadMmd .vend2 pageCtrl
        let data := data &&& 0xFFFE
        phyWriteMmd .vend2 pageCtrl data
        writeHalves (pageHalves buf)
        phyWriteMmd .vend2 pageCtrl (data ||| 1)
        if timeout = 0 then pure ()
        else pollDataHigh (fun status => status = 0x8000) (timeout.toNat * 10)) =
        fwrSteps buf >>= fun _ => pollDataHigh (fun status => status = statusDone) (n + 1) := by
      simp only [fwrSteps, bind_assoc, if_neg hzero, hn]
      rfl
    rw [hbody] at h ⊢
    rw [← steps_uniform_iff (all_fwrSteps buf) (Runs.accesses_locked h)]
    constructor
    · intro huniform
      obtain ⟨t', hrun, heq⟩ := huniform
      exact heq ▸ Runs.accesses_locked hrun
    · exact runs_locked_of_body

/-! ## The start of the download -/

/-- The steps of `fw_frw_init` before the wait, after the read of `PHY_STAT1`; false where the interface
reads back different. -/
def frwSteps (stat1 : BitVec 16) : Api Bool :=
  (if execFromOtp stat1 then enterPatchMode else pure true) >>= fun go =>
    if !go then pure false
    else do
      phyWriteMmd .vend1 mboxCmd 0x800
      pure true

/-- What the steps come to: they go on to the wait, or leave with success though the interface reads back
different, or one of their accesses fails. -/
inductive StepsEnd (t : RegTrace) : Except Errno Bool → Prop where
  | go (hok : AllOk t) (hmspi : ¬MspiMismatch t) : StepsEnd t (.ok true)
  | differs (hok : AllOk t) (hmspi : MspiMismatch t) : StepsEnd t (.ok false)
  | failed {e : Errno} (hok : ¬AllOk t) (hmspi : ¬MspiMismatch t) : StepsEnd t (.error e)

section Start
variable {t : RegTrace} {stat1 : BitVec 16}

theorem all_enterPatchMode : enterPatchMode.All notPoll := by
  refine All.bind ⟨nofun, fun _ => trivial⟩ fun _ => ?_
  refine All.bind ⟨nofun, fun _ => trivial⟩ fun _ => ?_
  refine All.bind ⟨nofun, fun _ => trivial⟩ fun _ => ?_
  refine All.bind ⟨nofun, fun _ => trivial⟩ fun _ => ?_
  refine All.ite (fun _ => All.pure _) fun _ => ?_
  refine All.bind (All.bind ⟨nofun, fun _ => trivial⟩ fun _ => ⟨nofun, fun _ => trivial⟩) fun _ => All.pure _

theorem all_frwSteps : (frwSteps stat1).All notPoll := by
  have hgo : (if execFromOtp stat1 then enterPatchMode else pure true : Api Bool).All notPoll :=
    All.ite (fun _ => all_enterPatchMode) fun _ => All.pure _
  refine All.bind hgo fun go => ?_
  refine All.ite (fun _ => All.pure _) fun _ => ?_
  exact All.bind ⟨nofun, fun _ => trivial⟩ fun _ => All.pure _

theorem failsOn_enterPatchMode : FailsOn (fun e => refused e) enterPatchMode := by
  refine GoesOn.bind failsOn_phyWriteMmd fun _ => GoesOn.bind failsOn_phyMboxHwrd fun _ => ?_
  refine GoesOn.bind failsOn_phyMboxHwwr fun _ => GoesOn.bind failsOn_phyMboxHwrd fun _ => ?_
  refine GoesOn.ite (fun _ => GoesOn.pure trivial) fun _ => ?_
  refine GoesOn.bind (GoesOn.bind failsOn_phyRead fun _ => failsOn_phyWrite) fun _ => GoesOn.pure trivial

theorem stepsEnd_enterPatchMode {c : Except Errno Bool} (h : enterPatchMode.Runs t c) : StepsEnd t c := by
  have hok := allOk_iff_of_failsOn failsOn_enterPatchMode h
  rcases (runs_phyWriteMmd_bind).mp h with ⟨e, rfl, rfl⟩ | ⟨_, t₁, rfl, h₁⟩
  · exact .failed (fun hall => Bool.false_ne_true (hok.mp hall)) (by simp [MspiMismatch, mspiAnswers])
  rcases (runs_phyMboxHwrd_bind).mp h₁ with ⟨e, rfl, rfl⟩ | ⟨cfg, t₂, rfl, h₂⟩
  · exact .failed (fun hall => Bool.false_ne_true (hok.mp hall)) (by simp [MspiMismatch, mspiAnswers])
  rcases (runs_phyMboxHwwr_bind).mp h₂ with ⟨e, rfl, rfl⟩ | ⟨_, t₃, rfl, h₃⟩
  · exact .failed (fun hall => Bool.false_ne_true (hok.mp hall)) (by simp [MspiMismatch, mspiAnswers])
  rcases (runs_phyMboxHwrd_bind).mp h₃ with ⟨e, rfl, rfl⟩ | ⟨back, t₄, rfl, h₄⟩
  · exact .failed (fun hall => Bool.false_ne_true (hok.mp hall)) (by simp [MspiMismatch, mspiAnswers])
  -- the second read decides
  have hmspi : ∀ t', MspiMismatch (⟨.mmdWrite .vend1 mboxCmd 0x600, .ok ()⟩ ::
      ⟨.mboxRead16 mspiCfg, .ok cfg⟩ :: ⟨.mboxWrite16 mspiCfg (cfg &&& 0xE000 ||| 0x1006), .ok ()⟩ ::
      ⟨.mboxRead16 mspiCfg, .ok back⟩ :: t') ↔ back &&& ~~~0xE000 ≠ 0x1006 := fun t' => by
    constructor
    · intro h
      obtain ⟨v, hv, hne⟩ := h
      cases hv
      exact hne
    · intro h
      exact ⟨back, rfl, h⟩
  by_cases hback : back &&& ~~~0xE000 ≠ 0x1006
  · rw [if_pos hback] at h₄
    obtain ⟨rfl, rfl⟩ := h₄
    exact .differs (hok.mpr rfl) ((hmspi []).mpr hback)
  · rw [if_neg hback] at h₄
    rcases (runs_bind).mp h₄ with ⟨e, -, rfl⟩ | ⟨t₅, _, _, rfl, -, rfl, rfl⟩
    · exact .failed (fun hall => Bool.false_ne_true (hok.mp hall)) fun h => hback ((hmspi t₄).mp h)
    · exact .go (hok.mpr rfl) fun h => hback ((hmspi _).mp h)

theorem stepsEnd_frwSteps {c : Except Errno Bool} (h : (frwSteps stat1).Runs t c) : StepsEnd t c := by
  have hnil : StepsEnd [] (.ok true) := .go (fun _ he => by cases he) fun ⟨_, hv, _⟩ => by cases hv
  have hgo : ∀ {t' c'}, (if execFromOtp stat1 then enterPatchMode else pure true : Api Bool).Runs t' c' →
      StepsEnd t' c' := fun {t' c'} h => by
    by_cases hotp : execFromOtp stat1
    · rw [if_pos hotp] at h
      exact stepsEnd_enterPatchMode h
    · rw [if_neg hotp] at h
      obtain ⟨rfl, rfl⟩ := h
      exact hnil
  rcases (runs_bind).mp h with ⟨e, hpre, rfl⟩ | ⟨t₁, go, t₂, rfl, hpre, hrest⟩
  · exact hgo hpre
  · cases hgo hpre with
    | differs hok hmspi =>
      obtain ⟨rfl, rfl⟩ := hrest
      rw [List.append_nil]
      exact .differs hok hmspi
    | go hok hmspi =>
      have hrest : (phyWriteMmd .vend1 mboxCmd 0x800 >>= fun _ => pure true : Api Bool).Runs t₂ c := hrest
      have hnone : mspiAnswers t₂ = [] := by
        rcases (runs_phyWriteMmd_bind).mp hrest with ⟨e, rfl, rfl⟩ | ⟨_, _, rfl, rfl, rfl⟩
        · rfl
        · rfl
      have hkept : MspiMismatch (t₁ ++ t₂) ↔ MspiMismatch t₁ := by
        rw [MspiMismatch, mspiAnswers_append, hnone, List.append_nil]
        rfl
      have hall := @allOk_append_iff t₁ t₂ hok
      rcases (runs_phyWriteMmd_bind).mp hrest with ⟨e, rfl, rfl⟩ | ⟨_, _, rfl, rfl, rfl⟩
      · exact .failed (by rw [hall]; simp [AllOk, RegOp.succeeded, Except.isOk, Except.toBool]) (by rwa [hkept])
      · exact .go (by rw [hall]; simp [AllOk, RegOp.succeeded, Except.isOk, Except.toBool]) (by rwa [hkept])

/-- The whole of it after the read of `PHY_STAT1`, with a wait. -/
theorem frwInitBody_eq {timeout : BitVec 32} {n : Nat} (hzero : timeout ≠ 0) (hn : timeout.toNat * 2 = n + 1) :
    frwInitBody stat1 timeout = frwSteps stat1 >>= fun go =>
      if go then pollDataHigh (fun status => status &&& statusDone ≠ 0) (n + 1) else pure () := by
  have hstep : (phyWriteMmd .vend1 mboxCmd 0x800 >>= fun _ =>
      pollDataHigh (fun status => status &&& statusDone ≠ 0) (n + 1)) =
      ((phyWriteMmd .vend1 mboxCmd 0x800 >>= fun _ => pure true) >>= fun go =>
        if go then pollDataHigh (fun status => status &&& statusDone ≠ 0) (n + 1) else pure () : Api Unit) := by
    rw [bind_assoc]
    rfl
  unfold frwInitBody frwSteps
  rw [if_neg hzero, hn, bind_assoc]
  split
  · refine congrArg (enterPatchMode >>= ·) (funext fun go => ?_)
    cases go with
    | true => exact hstep
    | false => rfl
  · exact hstep

theorem all_pollDataHigh (done : BitVec 16 → Bool) (n : Nat) :
    (pollDataHigh done n).All fun o => o = RegOp.mmdRead .vend1 mboxDataHigh := by
  induction n with
  | zero => exact All.throw _
  | succ n ih =>
    refine All.bind ⟨rfl, fun _ => trivial⟩ fun _ => ?_
    exact All.ite (fun _ => All.throw _) fun _ => All.ite (fun _ => All.pure _) fun _ => ih

/-- Without a poll only an error is right. -/
theorem initExact_of_error {e : Errno} (hstatus : statusAnswers t = []) (hmspi : ¬MspiMismatch t) (n : Nat) :
    InitExact t (.error e) ↔ ¬MspiMismatch t ∧ ¬DoneAt n t := by
  have hnone : ¬DoneObserved t := fun ⟨v, hv, _⟩ => by simp [hstatus] at hv
  refine iff_of_true ?_ ⟨hmspi, fun ⟨v, hv, _⟩ => by simp [hstatus] at hv⟩
  exact iff_of_false (fun h => by cases h) fun h => hnone h.2.2

/-- After `PHY_STAT1` is read. -/
theorem initExact_frwInitBody {timeout : BitVec 32} {n : Nat} {r : Except Errno Unit}
    (h : (frwInitBody stat1 timeout).Runs t r) (hzero : timeout ≠ 0) (hn : timeout.toNat * 2 = n + 1) :
    InitExact t r ↔ ¬MspiMismatch t ∧ ¬DoneAt n t := by
  rw [frwInitBody_eq hzero hn] at h
  rcases (runs_bind).mp h with ⟨e, hsteps, rfl⟩ | ⟨t₁, go, t₂, rfl, hsteps, hrest⟩
  · have hstatus := statusAnswers_of_notPoll (Prog.Runs.all hsteps all_frwSteps)
    cases stepsEnd_frwSteps hsteps with
    | failed _ hmspi => exact initExact_of_error hstatus hmspi n
  · have hstatus := statusAnswers_of_notPoll (Prog.Runs.all hsteps all_frwSteps)
    cases stepsEnd_frwSteps hsteps with
    | differs hok hmspi =>
      obtain ⟨rfl, rfl⟩ := hrest
      rw [List.append_nil]
      exact iff_of_false (fun hexact => (hexact.mp rfl).2.1 hmspi) fun h => h.1 hmspi
    | go hok hmspi =>
      have hpoll : (pollDataHigh (fun status => status &&& statusDone ≠ 0) (n + 1)).Runs t₂ r := hrest
      have hnone : mspiAnswers t₂ = [] := List.filterMap_eq_nil_iff.mpr fun e he => by
        have hop := Prog.Runs.all hpoll (all_pollDataHigh _ _) e he
        obtain ⟨o, a⟩ := e
        cases hop
        rfl
      have hkept : MspiMismatch (t₁ ++ t₂) ↔ MspiMismatch t₁ := by
        rw [MspiMismatch, MspiMismatch, mspiAnswers_append, hnone, List.append_nil]
      have hstatus : statusAnswers (t₁ ++ t₂) = statusAnswers t₂ := by
        rw [statusAnswers_append, hstatus, List.nil_append]
      have hexact := poll_exact_iff hpoll
      simp only [InitExact, DoneObserved, DoneAt, hstatus, hkept, hmspi, allOk_append_iff hok, not_false_eq_true,
        true_and]
      exact hexact

/-- In every run with a wait the start succeeds as it should exactly when the interface does not read back
different and completion does not first show at the last poll. -/
theorem initExact_iff {phy : Gpy211Device} {timeout : BitVec 32} {t : Trace regSig.locking}
    {r : Except Errno Unit} (h : (gpy2xxFwFrwInit phy timeout).Runs t r) (htimeout : 0 < timeout) :
    InitExact (accesses t) r ↔
      ¬MspiMismatch (accesses t) ∧ ¬DoneAt (timeout.toNat * 2 - 1) (accesses t) := by
  have hpos : 0 < timeout.toNat := htimeout
  have hzero : timeout ≠ 0 := fun h => by simp [h] at hpos
  obtain ⟨n, hn⟩ : ∃ n, timeout.toNat * 2 = n + 1 := ⟨timeout.toNat * 2 - 1, by omega⟩
  rw [hn, Nat.add_sub_cancel]
  unfold gpy2xxFwFrwInit at h
  by_cases haccepts : frwInitAccepts phy timeout
  · rw [if_neg (by simpa using haccepts)] at h
    obtain ⟨x, hbody, rfl⟩ := Runs.accesses_lockedExit h
    obtain ⟨_, c, t₂, hacc, hread, hrest⟩ := (runs_attempt_bind).mp hbody
    rw [hacc, (runs_phyRead).mp hread]
    cases c with
    | error e =>
      obtain ⟨rfl, rfl⟩ := hrest
      exact initExact_of_error rfl (fun ⟨_, hv, _⟩ => by cases hv) n
    | ok stat1 =>
      -- the read changes nothing of what is looked at
      have hcons : ∀ r : Except Errno Unit, InitExact ([⟨.phyRead phyStat1, .ok stat1⟩] ++ t₂) r ↔ InitExact t₂ r :=
        fun r => iff_congr Iff.rfl (and_congr_left' (allOk_cons.trans (and_iff_right rfl)))
      rcases (runs_bind).mp hrest with ⟨e, hfails, rfl⟩ | ⟨t₃, _, _, rfl, hdone, rfl, rfl⟩
      · exact (hcons _).trans (initExact_frwInitBody hfails hzero hn)
      · rw [List.append_nil] at hcons ⊢
        exact (hcons _).trans (initExact_frwInitBody hdone hzero hn)
  · rw [if_pos (by simpa using haccepts)] at h
    obtain ⟨rfl, rfl⟩ := (runs_throw).mp h
    exact initExact_of_error rfl (fun ⟨_, hv, _⟩ => by cases hv) n

end Start

/-! ## Both calls -/

/-- In every run of the two calls, with any answers, the start is exact and a page is written the same
whatever the other bits are, exactly when the interface does not read back different, completion does not
first show at the last poll of the start, and no poll of the page before the last one shows it among other
bits. -/
theorem handshake_iff {phy : Gpy211Device} {buf : Bytes 256} {timeout timeout' : BitVec 32}
    {t t' : Trace regSig.locking} {r r' : Except Errno Unit} (htimeout : 0 < timeout)
    (htimeout' : 0 < timeout') (h : (gpy2xxFwFrwInit phy timeout).Runs t r)
    (h' : (gpy2xxFwFwrPage buf timeout').Runs t' r') :
    (InitExact (accesses t) r ∧ PageUniform buf timeout' (accesses t') r') ↔
      (¬MspiMismatch (accesses t) ∧ ¬DoneAt (timeout.toNat * 2 - 1) (accesses t)) ∧
        ¬DoneAmongOthers (timeout'.toNat * 10 - 1) (accesses t') :=
  and_congr (initExact_iff h htimeout) (pageUniform_iff h' htimeout')

def fwPhy : Gpy211Device := ⟨⟨0⟩, .p31g, 0, false, 0, 0xD30000, 0xD32000, 0xD38000⟩

/-- Firmware that does not run from OTP, and a timeout of 1: the device's answers to the two polls. -/
def startRun (polls : RegTrace) : Trace regSig.locking :=
  ⟨.lock, ()⟩ :: ((⟨.phyRead phyStat1, .ok 0⟩ :: ⟨.mmdWrite .vend1 mboxCmd 0x800, .ok ()⟩ :: polls).map accEvent ++
    [⟨.unlock, ()⟩])

def pollOf (v : BitVec 16) : Event regSig := ⟨.mmdRead .vend1 mboxDataHigh, .ok v⟩

/-- The first poll shows completion; the first access for the page fails. -/
theorem handshake_firstPoll :
    InitExact (accesses (startRun [pollOf 0x8000])) (.ok ()) ∧
      PageUniform (fun _ => 0) 1 [⟨.mmdRead .vend2 pageCtrl, .error EIO⟩] (.error EIO) :=
  (@handshake_iff (fwPhy) (fun _ => 0) 1 1 (startRun [pollOf 0x8000])
    [⟨.lock, ()⟩, ⟨.acc (.mmdRead .vend2 pageCtrl), .error EIO⟩, ⟨.unlock, ()⟩] (.ok ()) (.error EIO)
    (by decide) (by decide)
    ⟨(), _, rfl, .ok 0, _, rfl, .ok (), _, rfl, .ok 0x8000, _, rfl, (), _, rfl, rfl, rfl⟩
    ⟨(), _, rfl, .error EIO, _, rfl, (), _, rfl, rfl, rfl⟩).mpr
    ⟨⟨fun ⟨_, hv, _⟩ => (by cases hv), fun ⟨_, hv, _⟩ => (by cases hv)⟩,
      fun ⟨_, _, _, hv, _⟩ => (by cases hv)⟩

/-- The last of the two polls shows completion, and the start reports a timeout. -/
theorem not_initExact_lastPoll :
    (gpy2xxFwFrwInit fwPhy 1).Runs (startRun [pollOf 0, pollOf 0x8000]) (.error EIO) ∧
      ¬InitExact (accesses (startRun [pollOf 0, pollOf 0x8000])) (.error EIO) := by
  refine ⟨⟨(), _, rfl, .ok 0, _, rfl, .ok (), _, rfl, .ok 0, _, rfl, .ok 0x8000, _, rfl, (), _, rfl, rfl, rfl⟩,
    fun h => ?_⟩
  have hok := h.mpr ⟨by decide, fun ⟨_, hv, _⟩ => (by cases hv), 0x8000, by decide, by decide⟩
  cases hok

end Gpy2xx
