import MxlUtils.Lib.Threads
import MxlUtils.Gphy.NestedLocks

/- Threads that share a PHY. Each makes one public call after another, with any arguments and any
   answers of the device, and `phy->lock` is granted to one of them at a time. Whatever the
   interleaving, the device sees whole calls, one after the other. The threads come to a standstill
   exactly when a call that leaks the lock has returned, or a call that nests comes to its nested
   call: after that no thread makes another access. -/
namespace Gpy2xx
open Effect Effect.Lock Bits

variable {aesEncrypt : AesEncrypt} {phy : Gpy211Device} {t : Trace regSig.locking}

/-! ## Calls -/

/-- The call makes no access without the lock. -/
def ApiCall.UsesLock : ApiCall → Prop
  | .flat x _ => (∃ e, x = throw e) ∨ ∃ body, x = locked body
  | _ => True

/-- One public call of a thread that makes its accesses under the lock. -/
structure ThreadCall (aesEncrypt : AesEncrypt) extends ApiInvocation aesEncrypt where
  usesLock : call.UsesLock

/-- The call returns with the lock held, as C arguments and answers have it. -/
def ApiInvocation.leaks (v : ApiInvocation aesEncrypt) : Bool :=
  match v.call with
  | .discipline c => Gpy2xx.leaks v.phy c (accesses v.trace)
  | _ => false

/-- The call takes the lock again while it holds it. -/
def ApiInvocation.nests (v : ApiInvocation aesEncrypt) : Bool :=
  !v.call.endsBeforeNesting v.phy (beforeNested false v.trace)

theorem guarded_of_produces {α : Type} {x : Call α} (hx : RunsGuarded x) (h : Produces x t) : Guarded t := by
  obtain ⟨r, h⟩ := h
  exact hx t r h

theorem guarded_lockCall {c : LockCall} (h : c.Runs aesEncrypt phy t) : Guarded t := by
  cases c with
  | configTr dir inTr =>
    have hx : RunsGuarded (configTr aesEncrypt dir phy.toMsecDevice inTr) := .ite (.throw _) (.locked _)
    cases dir <;> exact guarded_of_produces hx h
  | updateEgrSaCw inTr =>
    have hx : RunsGuarded (gpy2xxMsecUpdateEgrSaCw phy.toMsecDevice inTr) := .ite (.throw _) (.lockedExit _)
    exact guarded_of_produces hx h
  | getTr dir sa =>
    have hx : RunsGuarded (getTr dir phy.toMsecDevice sa) := .ite (.throw _) (.locked _)
    cases dir <;> exact guarded_of_produces hx h
  | getPn dir sa =>
    have hx : RunsGuarded (getPn dir phy.toMsecDevice sa) := .ite (.throw _) (.lockedExit _)
    cases dir <;> exact guarded_of_produces hx h
  | clearTr dir sa =>
    have hx : RunsGuarded (clearTr dir phy.toMsecDevice sa) := .ite (.throw _) (.locked _)
    cases dir <;> exact guarded_of_produces hx h
  | configSamRule dir inSam =>
    have hx : RunsGuarded (configSamRule dir phy.toMsecDevice inSam) := .ite (.throw _) (.locked _)
    cases dir <;> exact guarded_of_produces hx h
  | getSamRule dir i =>
    have hx : RunsGuarded (getSamRule dir phy.toMsecDevice i) := .ite (.throw _) (.locked _)
    cases dir <;> exact guarded_of_produces hx h
  | clearSamRule dir i =>
    have hx : RunsGuarded (clearSamRule dir phy.toMsecDevice i) := .ite (.throw _) (.locked _)
    cases dir <;> exact guarded_of_produces hx h
  | configSamFca dir fca =>
    have hx : RunsGuarded (configSamFca dir phy.toMsecDevice fca) :=
      .ite (.throw _) (.ite (.throw _) (.locked _))
    cases dir <;> exact guarded_of_produces hx h
  | getSamFca dir i =>
    have hx : RunsGuarded (getSamFca dir phy.toMsecDevice i) := .ite (.throw _) (.locked _)
    cases dir <;> exact guarded_of_produces hx h
  | clearSamFca dir i =>
    have hx : RunsGuarded (clearSamFca dir phy.toMsecDevice i) := .ite (.throw _) (.locked _)
    cases dir <;> exact guarded_of_produces hx h
  | configSamEex dir ee =>
    have hx : RunsGuarded (configSamEex dir phy.toMsecDevice ee) := by
      rw [configSamEex]
      cases samEexOffset ee.eexType with
      | none => exact .throw _
      | some offset => exact .locked _
    cases dir <;> exact guarded_of_produces hx h
  | getSamEef dir =>
    have hx : RunsGuarded (getSamEef dir phy.toMsecDevice) := .locked _
    cases dir <;> exact guarded_of_produces hx h
  | configSamEec dir eeCtrl =>
    have hx : RunsGuarded (configSamEec dir eeCtrl) := .ite (.throw _) (.locked _)
    cases dir <;> exact guarded_of_produces hx h
  | fwFrwInit timeout =>
    have hx : RunsGuarded (gpy2xxFwFrwInit phy timeout) := .ite (.throw _) (.lockedExit _)
    exact guarded_of_produces hx h
  | fwFwrPage buf timeout =>
    have hx : RunsGuarded (gpy2xxFwFwrPage buf timeout) := .ite (.throw _) (.locked _)
    exact guarded_of_produces hx h
  | fwFwrStatus => exact guarded_of_produces (.locked _) h
  | fwFrwUninit => exact guarded_of_produces (.locked _) h
  | ptpAuxCfg auxCfg =>
    have hx : RunsGuarded (gpy2xxPtpAuxCfg phy auxCfg) :=
      .ite (.throw _) (.ite (.throw _) (.ite (.throw _) (.locked _)))
    exact guarded_of_produces hx h
  | ptpGetauxts => exact guarded_of_produces (.locked _) h
  | ptpAuxfifostat => exact guarded_of_produces (.locked _) h
  | ptpResetauxfifo => exact guarded_of_produces (.lockedExit _) h

/-- The call keeps to the lock and does not return with it held. -/
structure Returning {α : Type} (x : Call α) : Prop where
  guarded : RunsGuarded x
  returns : ∀ t r, x.Runs t r → mutex false (events t) ≠ some true

section Returning
variable {α β : Type}

theorem Returning.throw (e : Errno) : Returning (throw e : Call α) where
  guarded := .throw e
  returns := by
    intro t r h
    rw [((Fallible.runs_throw).mp h).1]
    simp [mutex]

theorem Returning.bracket {body : Call α} (h : RunsGuarded (bracket body)) : Returning (bracket body) where
  guarded := h
  returns := fun _ _ hrun => mutex_bracket_ne hrun

theorem Returning.locked (body : Api α) : Returning (locked body) := .bracket (.locked body)

theorem Returning.ite {c : Prop} [Decidable c] {x y : Call α} (hx : Returning x) (hy : Returning y) :
    Returning (if c then x else y) := by
  split
  · exact hx
  · exact hy

theorem Returning.nesting {pre : Api β} {f : β → Call α} {nests : β → Prop}
    (hlocks : ∀ b, nests b → LocksFirst (f b)) (hends : ∀ b, ¬nests b → ∃ a, f b = pure a) :
    Returning (Lock.bracket (outside pre >>= f)) := .bracket (.nesting hlocks hends)

/-- A call that nests whenever it gets that far. -/
theorem Returning.nestingAlways {pre : Api β} {f : β → Call α} (hlocks : ∀ b, LocksFirst (f b)) :
    Returning (Lock.bracket (outside pre >>= f)) :=
  .nesting (fun b _ => hlocks b) fun _ hb => absurd trivial hb

theorem Returning.of_produces {x : Call α} (hx : Returning x) (h : Produces x t) :
    Guarded t ∧ mutex false (events t) ≠ some true := by
  obtain ⟨r, h⟩ := h
  exact ⟨hx.guarded t r h, hx.returns t r h⟩

end Returning

theorem returning_initDev {dir : MsecDir} : Returning (initDev dir phy) := by
  apply Returning.ite (.throw _)
  exact .nestingAlways fun _ => locksFirst_countCtrl

theorem returning_macsecEnable {msecCfg : Gpy211Macsec} : Returning (gpy2xxMacsecEnable phy msecCfg) := by
  rw [gpy2xxMacsecEnable]
  cases hsupp : phy.macsecSupported with
  | false => exact .throw _
  | true =>
    apply @Returning.nesting _ _ _ _ (· = true)
    · intro b hb
      rw [hb]
      exact (locksFirst_initDev hsupp).bind _
    · intro b hb
      rw [Bool.not_eq_true] at hb
      exact ⟨(), by rw [hb]; rfl⟩

theorem returning_loopbackCfg {link : Link} {tloop : TestLoop} : Returning (gpy2xxLoopbackCfg link tloop) := by
  apply Returning.ite (.throw _)
  apply @Returning.nesting _ _ _ _ (· = true)
  · intro b hb
    rw [hb]
    exact (LocksFirst.locked _).attempt.bind _
  · intro b hb
    rw [Bool.not_eq_true] at hb
    exact ⟨link, by rw [hb]; rfl⟩

theorem returning_ptpEnable {stack : BitVec 16} {ptpCfg : PtpCtrl} :
    Returning (gpy2xxPtpEnable phy stack ptpCfg) := by
  apply Returning.ite (.throw _)
  exact .nestingAlways fun _ => LocksFirst.bind (.locked _) _

theorem returning_ptpGetcfg : Returning (gpy2xxPtpGetcfg phy) :=
  .nestingAlways fun _ => LocksFirst.bind (.locked _) _

theorem returning_saNm {dir : MsecDir} {reg : SaNmReg} {c : SaNonmatchFca} : Returning (configSaNm dir reg c) := by
  rw [configSaNm]
  cases c.pktType.groups with
  | none => exact .throw _
  | some groups => exact .ite (.throw _) (.locked _)

/-- What a call that is not one of `LockCall` does to the lock. -/
theorem returning_apiCall {c : ApiCall} (huses : c.UsesLock) (hc : ∀ c', c ≠ .discipline c')
    (h : c.Runs aesEncrypt phy t) : Guarded t ∧ mutex false (events t) ≠ some true := by
  cases c with
  | discipline c => exact absurd rfl (hc c)
  | countCtrl dir c =>
    have hx : Returning (configCountCtrl dir c) := .ite (.throw _) (.locked _)
    cases dir <;> exact hx.of_produces h
  | countIncen dir c =>
    have hx : Returning (configCountIncen dir c) := .locked _
    cases dir <;> exact hx.of_produces h
  | clearStatsSumm dir s => cases dir <;> exact (Returning.locked _).of_produces h
  | miscCtrl dir c =>
    have hx : Returning (configMiscCtrl dir c) := .ite (.throw _) (.locked _)
    cases dir <;> exact hx.of_produces h
  | saNm dir reg c =>
    have hx : Returning (configSaNm dir reg c) := returning_saNm
    cases dir <;> cases reg <;> exact hx.of_produces h
  | ingCcCtrl c =>
    have hx : Returning (gpy2xxMsecConfigIngCcCtrl c) := .ite (.throw _) (.locked _)
    exact hx.of_produces h
  | ptpSetTsctrl tsCfg => exact (Returning.locked _).of_produces h
  | ptpGetPpsctrl => exact (Returning.locked _).of_produces h
  | gmacxBmCfg bmcfg => exact (Returning.locked _).of_produces h
  | gmacxBmGet => exact (Returning.locked _).of_produces h
  | configAdvert link => exact (Returning.locked _).of_produces h
  | setupForced link mstrSlave => exact (Returning.locked _).of_produces h
  | restartAneg link => exact (Returning.locked _).of_produces h
  | configAneg link mstrSlave => exact (Returning.locked _).of_produces h
  | flat x hx =>
    obtain ⟨e, rfl⟩ | ⟨body, rfl⟩ := huses
    · exact (Returning.throw e).of_produces h
    · exact (Returning.locked body).of_produces h
  | initDev dir =>
    have hx : Returning (initDev dir phy) := returning_initDev
    cases dir <;> exact hx.of_produces h
  | macsecEnable msecCfg => exact returning_macsecEnable.of_produces h
  | loopbackCfg link tloop => exact returning_loopbackCfg.of_produces h
  | ptpEnable stack ptpCfg => exact returning_ptpEnable.of_produces h
  | ptpGetcfg => exact returning_ptpGetcfg.of_produces h

theorem ThreadCall.guarded (v : ThreadCall aesEncrypt) : Guarded v.trace := by
  obtain ⟨⟨phy, call, t, h⟩, huses⟩ := v
  cases call with
  | discipline c => exact guarded_lockCall h
  | _ => exact (returning_apiCall huses (by simp) h).1

/-- A call returns with the lock held exactly when it leaks. -/
theorem ThreadCall.mutex_true_iff (v : ThreadCall aesEncrypt) :
    mutex false (events v.trace) = some true ↔ v.leaks = true := by
  obtain ⟨⟨phy, call, t, h⟩, huses⟩ := v
  cases call with
  | discipline c =>
    show mutex false (events t) = some true ↔ leaks phy c (accesses t) = true
    obtain ⟨hleak, hev⟩ | ⟨hleak, hev | hev⟩ := raises_call h
    · rw [hev, hleak]
      simp [mutex]
    · rw [hev, hleak]
      simp [mutex]
    · rw [hev, hleak]
      simp [mutex]
  | _ => exact iff_of_false (returning_apiCall huses (by simp) h).2 (by simp [ApiInvocation.leaks])

/-- A call takes the lock it holds exactly when it nests. -/
theorem ThreadCall.mutex_none_iff (v : ThreadCall aesEncrypt) :
    mutex false (events v.trace) = none ↔ v.nests = true := by
  have hfree := v.free_iff
  rw [ApiInvocation.nests, Bool.not_eq_true', ← Bool.not_eq_true, ← hfree, not_not]

/-! ## Threads -/

section Threads
variable {ι : Type} [DecidableEq ι] {sessions : ι → List (ThreadCall aesEncrypt)} {w : Schedule regSig ι}

/-- The threads may do what is in the schedule: each goes through its calls, and the lock is granted to one
of them at a time. -/
def Possible (sessions : ι → List (ThreadCall aesEncrypt)) (w : Schedule regSig ι) : Prop :=
  Follows (·.trace) sessions w ∧ Granted w

/-- No thread can do the next thing. -/
def Standstill (sessions : ι → List (ThreadCall aesEncrypt)) (w : Schedule regSig ι) : Prop :=
  Possible sessions w ∧ ¬Continues (·.trace) sessions w

/-- After some whole calls, one that leaks has returned, or one that nests has come to its nested call. -/
def HeldForGood (sessions : ι → List (ThreadCall aesEncrypt)) (w : Schedule regSig ι) : Prop :=
  ∃ w₁ left i v l, Served (·.trace) sessions w₁ left ∧ left i = v :: l ∧
    ((v.leaks = true ∧ w = w₁ ++ byParty i v.trace) ∨
      (v.nests = true ∧ ∃ t, w = w₁ ++ byParty i t ∧ t ++ [⟨.lock, ()⟩] <+: v.trace ∧
        mutex false (events t) = some true))

theorem serial_iff : Possible sessions w ↔ Serial (·.trace) sessions w := granted_iff_serial fun v => v.guarded

theorem endsHeld_iff : EndsHeld (·.trace) sessions w ↔ HeldForGood sessions w := by
  constructor
  · intro h
    obtain ⟨w₁, left, i, v, l, t, hserved, hcall, rfl, hheld, hend⟩ := h
    refine ⟨w₁, left, i, v, l, hserved, hcall, ?_⟩
    obtain rfl | hagain := hend
    · exact .inl ⟨v.mutex_true_iff.mp hheld, rfl⟩
    · refine .inr ⟨v.mutex_none_iff.mp ?_, t, rfl, hagain, hheld⟩
      -- The rest of the call begins with the lock, which is held.
      obtain ⟨u, hu⟩ := hagain
      have hu : t ++ [⟨.lock, ()⟩] ++ u = v.trace := hu
      rw [← hu, List.append_assoc, events_append, mutex_append, hheld]
      rfl
  · intro h
    obtain ⟨w₁, left, i, v, l, hserved, hcall, ⟨hleaks, rfl⟩ | ⟨-, t, rfl, hagain, hheld⟩⟩ := h
    · exact ⟨w₁, left, i, v, l, v.trace, hserved, hcall, rfl, v.mutex_true_iff.mpr hleaks, .inl rfl⟩
    · exact ⟨w₁, left, i, v, l, t, hserved, hcall, rfl, hheld, .inr hagain⟩

theorem possible_of_endsHeld (h : EndsHeld (·.trace) sessions w) : Possible sessions w := by
  obtain ⟨w₁, left, i, v, l, t, hserved, hcall, rfl, hheld, hend⟩ := h
  apply serial_iff.mpr
  refine .during hserved hcall ?_ (by simp [hheld])
  obtain rfl | hagain := hend
  · exact List.prefix_rfl
  · exact (List.prefix_append _ _).trans hagain

/-- What is whole cannot go on. -/
theorem not_continues_of_finished (hfinished : ¬Unfinished (·.trace) sessions w) :
    ¬Continues (·.trace) sessions w := by
  intro h
  obtain ⟨i, e, hfollows, -⟩ := h
  have hi := (hfollows i).length_le
  have hwhole : own i w = (sessions i).flatMap (·.trace) := by
    by_contra hne
    exact hfinished ⟨i, hne⟩
  rw [own_append, own_byParty, hwhole, List.length_append, List.length_singleton] at hi
  omega

/-- **Threads are served one call at a time.** For any number of threads, any calls and any answers of the
device: the schedules the lock allows are those that run whole calls, one after the other, and then a part of
one more. -/
theorem possible_iff_serial : Possible sessions w ↔ Serial (·.trace) sessions w :=
  serial_iff

/-- **Standstill.** The threads stop exactly when all their calls are done, or the lock is held for good: by a call
that leaked it, or by a call that came to its nested call. -/
theorem standstill_iff : Standstill sessions w ↔
    (Possible sessions w ∧ ¬Unfinished (·.trace) sessions w) ∨ HeldForGood sessions w := by
  constructor
  · intro h
    by_cases hleft : Unfinished (·.trace) sessions w
    · have hheld := (not_continues_iff (fun v => v.guarded) (serial_iff.mp h.1) hleft).mp h.2
      exact .inr (endsHeld_iff.mp hheld)
    · exact .inl ⟨h.1, hleft⟩
  · intro h
    obtain ⟨hpossible, hfinished⟩ | hheld := h
    · exact ⟨hpossible, not_continues_of_finished hfinished⟩
    · have hends := endsHeld_iff.mpr hheld
      have hpossible := possible_of_endsHeld hends
      by_cases hleft : Unfinished (·.trace) sessions w
      · exact ⟨hpossible, (not_continues_iff (fun v => v.guarded) (serial_iff.mp hpossible) hleft).mpr hends⟩
      · exact ⟨hpossible, not_continues_of_finished hleft⟩

end Threads

end Gpy2xx
