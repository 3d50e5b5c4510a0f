import MxlUtils.Gphy.Msec.SamControl
import MxlUtils.Gphy.Fw
import MxlUtils.Gphy.Ptp.AuxFifo

/- Lock balance over sessions. A session is any list of calls, each with any run
   of it, so every answer and failure of every access is covered. All calls but
   four leave the lock as they found it; the four leave it held when they take one
   of their plain returns (`Invocation.leaks`). The counter at the end of a session
   is the number of these calls. -/
namespace Gpy2xx
open Effect Effect.Lock Bits

/-- The public calls that take `phy->lock`: transform records, packet numbers, SA control words,
SAM, firmware write and the auxiliary FIFO. -/
inductive LockCall where
  | configTr (dir : MsecDir) (inTr : TransformRec)
  | updateEgrSaCw (inTr : TransformRec)
  | getTr (dir : MsecDir) (saIndex : BitVec 8)
  | getPn (dir : MsecDir) (saIndex : BitVec 8)
  | clearTr (dir : MsecDir) (saIndex : BitVec 8)
  | configSamRule (dir : MsecDir) (inSam : SaMatchParam)
  | getSamRule (dir : MsecDir) (ruleIndex : BitVec 8)
  | clearSamRule (dir : MsecDir) (ruleIndex : BitVec 8)
  | configSamFca (dir : MsecDir) (fca : SaMatchFca)
  | getSamFca (dir : MsecDir) (flowIndex : BitVec 8)
  | clearSamFca (dir : MsecDir) (flowIndex : BitVec 8)
  | configSamEex (dir : MsecDir) (inEe : RawSamEe)
  | getSamEef (dir : MsecDir)
  | configSamEec (dir : MsecDir) (eeCtrl : SamEeCtrl)
  | fwFrwInit (timeout : BitVec 32)
  | fwFwrPage (buf : Bytes 256) (timeout : BitVec 32)
  | fwFwrStatus
  | fwFrwUninit
  | ptpAuxCfg (auxCfg : AuxCfg)
  | ptpGetauxts
  | ptpAuxfifostat
  | ptpResetauxfifo

/-- `x` may produce the trace `t`, whatever it returns. -/
def Produces {α : Type} (x : Call α) (t : Trace regSig.locking) : Prop := ∃ r, x.Runs t r

/-- The trace `t` is one the call may produce. -/
def LockCall.Runs (aesEncrypt : AesEncrypt) (phy : Gpy211Device) (t : Trace regSig.locking) :
    LockCall → Prop
  | .configTr .ingress inTr => Produces (gpy2xxMsecConfigIngTr aesEncrypt phy.toMsecDevice inTr) t
  | .configTr .egress inTr => Produces (gpy2xxMsecConfigEgrTr aesEncrypt phy.toMsecDevice inTr) t
  | .updateEgrSaCw inTr => Produces (gpy2xxMsecUpdateEgrSaCw phy.toMsecDevice inTr) t
  | .getTr .ingress sa => Produces (gpy2xxMsecGetIngTr phy.toMsecDevice sa) t
  | .getTr .egress sa => Produces (gpy2xxMsecGetEgrTr phy.toMsecDevice sa) t
  | .getPn .ingress sa => Produces (gpy2xxMsecGetIngPn phy.toMsecDevice sa) t
  | .getPn .egress sa => Produces (gpy2xxMsecGetEgrPn phy.toMsecDevice sa) t
  | .clearTr .ingress sa => Produces (gpy2xxMsecClearIngTr phy.toMsecDevice sa) t
  | .clearTr .egress sa => Produces (gpy2xxMsecClearEgrTr phy.toMsecDevice sa) t
  | .configSamRule .ingress inSam => Produces (gpy2xxMsecConfigIngSamRule phy.toMsecDevice inSam) t
  | .configSamRule .egress inSam => Produces (gpy2xxMsecConfigEgrSamRule phy.toMsecDevice inSam) t
  | .getSamRule .ingress i => Produces (gpy2xxMsecGetIngSamRule phy.toMsecDevice i) t
  | .getSamRule .egress i => Produces (gpy2xxMsecGetEgrSamRule phy.toMsecDevice i) t
  | .clearSamRule .ingress i => Produces (gpy2xxMsecClearIngSamRule phy.toMsecDevice i) t
  | .clearSamRule .egress i => Produces (gpy2xxMsecClearEgrSamRule phy.toMsecDevice i) t
  | .configSamFca .ingress fca => Produces (gpy2xxMsecConfigIngSamFca phy.toMsecDevice fca) t
  | .configSamFca .egress fca => Produces (gpy2xxMsecConfigEgrSamFca phy.toMsecDevice fca) t
  | .getSamFca .ingress i => Produces (gpy2xxMsecGetIngSamFca phy.toMsecDevice i) t
  | .getSamFca .egress i => Produces (gpy2xxMsecGetEgrSamFca phy.toMsecDevice i) t
  | .clearSamFca .ingress i => Produces (gpy2xxMsecClearIngSamFca phy.toMsecDevice i) t
  | .clearSamFca .egress i => Produces (gpy2xxMsecClearEgrSamFca phy.toMsecDevice i) t
  | .configSamEex .ingress ee => Produces (gpy2xxMsecConfigIngSamEex phy.toMsecDevice ee) t
  | .configSamEex .egress ee => Produces (gpy2xxMsecConfigEgrSamEex phy.toMsecDevice ee) t
  | .getSamEef .ingress => Produces (gpy2xxMsecGetIngSamEef phy.toMsecDevice) t
  | .getSamEef .egress => Produces (gpy2xxMsecGetEgrSamEef phy.toMsecDevice) t
  | .configSamEec .ingress c => Produces (gpy2xxMsecConfigIngSamEec c) t
  | .configSamEec .egress c => Produces (gpy2xxMsecConfigEgrSamEec c) t
  | .fwFrwInit timeout => Produces (gpy2xxFwFrwInit phy timeout) t
  | .fwFwrPage buf timeout => Produces (gpy2xxFwFwrPage buf timeout) t
  | .fwFwrStatus => Produces gpy2xxFwFwrStatus t
  | .fwFrwUninit => Produces gpy2xxFwFrwUninit t
  | .ptpAuxCfg auxCfg => Produces (gpy2xxPtpAuxCfg phy auxCfg) t
  | .ptpGetauxts => Produces (gpy2xxPtpGetauxts phy) t
  | .ptpAuxfifostat => Produces (gpy2xxPtpAuxfifostat phy) t
  | .ptpResetauxfifo => Produces (gpy2xxPtpResetauxfifo phy) t

/-- One call of a session, on the device as it is then, and a run of it. -/
structure Invocation (aesEncrypt : AesEncrypt) where
  phy : Gpy211Device
  call : LockCall
  trace : Trace regSig.locking
  runs : call.Runs aesEncrypt phy trace

/-- Whether the arguments and the answers to the accesses lead to a plain return past the unlock:
`update_egr_sa_cw` for a suite or a sequence type it does not know, `get_*_pn` for a control word
that names no layout, `fw_frw_init` when its first read fails, `ptp_resetauxfifo` when its last
write fails. -/
def leaks (phy : Gpy211Device) : LockCall → RegTrace → Bool
  | .updateEgrSaCw inTr, _ => inTr.saIndex < phy.nrOfSas && (saUpdWord inTr.ccw).isNone
  | .getPn _ sa, ⟨.mboxRead32 _, .ok ccw⟩ :: _ => sa < phy.nrOfSas && (snWord ccw).isNone
  | .fwFrwInit timeout, ⟨.phyRead _, .error _⟩ :: _ => frwInitAccepts phy timeout
  | .ptpResetauxfifo, [_, _, ⟨.mboxWrite16 _ _, .error _⟩] => true
  | _, _ => false

def Invocation.leaks {aesEncrypt : AesEncrypt} (v : Invocation aesEncrypt) : Bool :=
  Gpy2xx.leaks v.phy v.call (accesses v.trace)

/-- The lock events of a session. -/
def lockEvents {aesEncrypt : AesEncrypt} (session : List (Invocation aesEncrypt)) : List LockEv :=
  session.flatMap fun v => events v.trace

/-! ## Each call -/

section Calls
variable {aesEncrypt : AesEncrypt} {phy : Gpy211Device} {t : Trace regSig.locking}

/-- What a call does to the lock, when `leak` says whether it keeps it: it takes it at most once. -/
def Raises (t : Trace regSig.locking) (leak : Bool) : Prop :=
  (leak = true ∧ events t = [.acquire]) ∨
    (leak = false ∧ (events t = [] ∨ events t = [.acquire, .release]))

theorem Raises.balance {leak : Bool} (h : Raises t leak) (n : Nat) :
    balance n (events t) = some (n + if leak then 1 else 0) := by
  rcases h with ⟨rfl, h⟩ | ⟨rfl, h | h⟩ <;> rw [h] <;> rfl

theorem Raises.mutex_ne_none {leak : Bool} (h : Raises t leak) :
    mutex false (events t) ≠ none := by
  rcases h with ⟨-, h⟩ | ⟨-, h | h⟩ <;> rw [h] <;> simp [mutex]

theorem raises_of_bracketed {α : Type} {x : Call α} (hx : Bracketed x) (h : Produces x t) :
    Raises t false := by
  obtain ⟨r, h⟩ := h
  exact .inr ⟨rfl, hx t r h⟩

/-- A call whose body leaves without the unlock exactly when `f` says so, from the accesses. -/
theorem raises_lockedExit {α : Type} {body : Api (Exit Errno α)} {f : RegTrace → Bool}
    (hf : ∀ acc x, body.Runs acc x → Exit.leaves x = f acc) {r : Except Errno α}
    (h : (lockedExit body).Runs t r) : Raises t (f (accesses t)) := by
  obtain ⟨x, hbody, hev⟩ := events_lockedExit h
  rw [hf _ _ hbody] at hev
  cases hleak : f (accesses t) with
  | true => exact .inl ⟨rfl, by rw [hev, hleak]; rfl⟩
  | false => exact .inr ⟨rfl, .inr (by rw [hev, hleak]; rfl)⟩

theorem raises_throw {α : Type} {e : Errno} {r : Except Errno α}
    (h : (throw e : Call α).Runs t r) : Raises t false := by
  obtain ⟨rfl, -⟩ := (Fallible.runs_throw).mp h
  exact .inr ⟨rfl, .inl rfl⟩

/-- `update_egr_sa_cw` leaks on a suite or a sequence type it does not know. -/
theorem raises_updateEgrSaCw {inTr : TransformRec}
    (h : Produces (gpy2xxMsecUpdateEgrSaCw phy.toMsecDevice inTr) t) :
    Raises t (leaks phy (.updateEgrSaCw inTr) (accesses t)) := by
  obtain ⟨r, h⟩ := h
  rw [gpy2xxMsecUpdateEgrSaCw, Fallible.runs_ite] at h
  by_cases hsa : inTr.saIndex ≥ phy.nrOfSas
  · rw [if_pos hsa] at h
    simpa [leaks, BitVec.not_lt.mpr hsa] using raises_throw h
  · rw [if_neg hsa] at h
    refine raises_lockedExit (f := leaks phy (.updateEgrSaCw inTr)) (fun acc x hbody => ?_) h
    cases hw : saUpdWord inTr.ccw with
    | none =>
      rw [hw] at hbody
      obtain ⟨-, rfl⟩ := (Fallible.runs_pure).mp hbody
      simp [leaks, hw, BitVec.not_le.mp hsa, Exit.leaves]
    | some k =>
      rw [hw] at hbody
      rcases (runs_phyMboxWrite_bind).mp hbody with ⟨e, -, rfl⟩ | ⟨_, _, -, hend⟩
      · simp [leaks, hw, Exit.leaves]
      · obtain ⟨-, rfl⟩ := (Fallible.runs_pure).mp hend
        simp [leaks, hw, Exit.leaves]

/-- `get_*_pn` leaks on a control word that names no layout. -/
theorem raises_getPn {dir : MsecDir} {sa : BitVec 8}
    (h : Produces (getPn dir phy.toMsecDevice sa) t) :
    Raises t (leaks phy (.getPn dir sa) (accesses t)) := by
  obtain ⟨r, h⟩ := h
  rw [getPn, Fallible.runs_ite] at h
  by_cases hsa : sa ≥ phy.nrOfSas
  · rw [if_pos hsa] at h
    have hacc := (Fallible.runs_throw.mp h).1
    rw [hacc, accesses_nil]
    exact hacc ▸ raises_throw h
  · rw [if_neg hsa] at h
    refine raises_lockedExit (f := leaks phy (.getPn dir sa)) (fun acc x hbody => ?_) h
    rcases (runs_phyMboxRead_bind).mp hbody with ⟨e, rfl, rfl⟩ | ⟨ccw, acc', rfl, hrest⟩
    · rfl
    · have hleak : leaks phy (.getPn dir sa)
          (⟨.mboxRead32 (trReadAddr dir sa), .ok ccw⟩ :: acc') = (snWord ccw).isNone := by
        simp [leaks, BitVec.not_le.mp hsa]
      rw [hleak]
      cases hk : snWord ccw with
      | none =>
        rw [hk] at hrest
        rw [(Fallible.runs_pure.mp hrest).2]
        rfl
      | some k =>
        rw [hk] at hrest
        -- no way out of the reads of the number is a plain return
        rcases (runs_phyMboxRead_bind).mp hrest with ⟨e, -, rfl⟩ | ⟨sn0, _, -, hrest⟩
        · rfl
        · rw [Fallible.runs_ite] at hrest
          split at hrest
          · rcases (runs_phyMboxRead_bind).mp hrest with ⟨e, -, rfl⟩ | ⟨sn1, _, -, hend⟩
            · rfl
            · rw [(Fallible.runs_pure.mp hend).2]
              rfl
          · rw [(Fallible.runs_pure.mp hrest).2]
            rfl

/-- `fw_frw_init` leaks when the read of `PHY_STAT1` fails. -/
theorem raises_fwFrwInit {timeout : BitVec 32} (h : Produces (gpy2xxFwFrwInit phy timeout) t) :
    Raises t (leaks phy (.fwFrwInit timeout) (accesses t)) := by
  obtain ⟨r, h⟩ := h
  rw [gpy2xxFwFrwInit, Fallible.runs_ite] at h
  by_cases harg : frwInitAccepts phy timeout
  · simp only [harg, Bool.not_true, Bool.false_eq_true, if_false] at h
    refine raises_lockedExit (f := leaks phy (.fwFrwInit timeout)) (fun acc x hbody => ?_) h
    obtain ⟨_, res, _, rfl, hread, hrest⟩ := (Fallible.runs_attempt_bind).mp hbody
    rw [(runs_phyRead).mp hread]
    cases res with
    | error e =>
      rw [(Fallible.runs_pure.mp hrest).2]
      exact harg.symm
    | ok stat1 =>
      rcases (Fallible.runs_bind).mp hrest with ⟨e, -, rfl⟩ | ⟨_, _, _, -, -, hend⟩
      · rfl
      · rw [(Fallible.runs_pure.mp hend).2]
        rfl
  · simp only [harg, Bool.not_false, if_true] at h
    have hacc := (Fallible.runs_throw.mp h).1
    rw [hacc, accesses_nil]
    exact hacc ▸ raises_throw h

/-- `ptp_resetauxfifo` leaks when its second write fails. -/
theorem raises_ptpResetauxfifo (h : Produces (gpy2xxPtpResetauxfifo phy) t) :
    Raises t (leaks phy .ptpResetauxfifo (accesses t)) := by
  obtain ⟨r, h⟩ := h
  refine raises_lockedExit (f := leaks phy .ptpResetauxfifo) (fun acc x hbody => ?_) h
  rcases (runs_phyMboxHwrd_bind).mp hbody with ⟨e, rfl, rfl⟩ | ⟨v, acc₁, rfl, hrest⟩
  · rfl
  · rcases (runs_phyMboxHwwr_bind).mp hrest with ⟨e, rfl, rfl⟩ | ⟨_, acc₂, rfl, hlast⟩
    · rfl
    · obtain ⟨_, res, _, rfl, hwrite, hend⟩ := (Fallible.runs_attempt_bind).mp hlast
      rw [(runs_phyMboxHwwr).mp hwrite]
      cases res with
      | error e =>
        obtain ⟨rfl, rfl⟩ := (Fallible.runs_pure).mp hend
        rfl
      | ok _ =>
        obtain ⟨rfl, rfl⟩ := (Fallible.runs_pure).mp hend
        rfl

/-- What every call does to the lock: a call that does not leak leaves it as it was. -/
theorem raises_call {c : LockCall} (h : c.Runs aesEncrypt phy t) :
    Raises t (leaks phy c (accesses t)) := by
  cases c with
  | configTr dir inTr =>
    have hb : Bracketed (configTr aesEncrypt dir phy.toMsecDevice inTr) :=
      .ite (.throw _) (.locked _)
    cases dir <;> exact raises_of_bracketed hb h
  | updateEgrSaCw inTr => exact raises_updateEgrSaCw h
  | getTr dir sa =>
    have hb : Bracketed (getTr dir phy.toMsecDevice sa) := .ite (.throw _) (.locked _)
    cases dir <;> exact raises_of_bracketed hb h
  | getPn dir sa =>
    cases dir with
    | ingress => exact raises_getPn h
    | egress => exact raises_getPn h
  | clearTr dir sa =>
    have hb : Bracketed (clearTr dir phy.toMsecDevice sa) := .ite (.throw _) (.locked _)
    cases dir <;> exact raises_of_bracketed hb h
  | configSamRule dir inSam =>
    have hb : Bracketed (configSamRule dir phy.toMsecDevice inSam) := .ite (.throw _) (.locked _)
    cases dir <;> exact raises_of_bracketed hb h
  | getSamRule dir i =>
    have hb : Bracketed (getSamRule dir phy.toMsecDevice i) := .ite (.throw _) (.locked _)
    cases dir <;> exact raises_of_bracketed hb h
  | clearSamRule dir i =>
    have hb : Bracketed (clearSamRule dir phy.toMsecDevice i) := .ite (.throw _) (.locked _)
    cases dir <;> exact raises_of_bracketed hb h
  | configSamFca dir fca =>
    have hb : Bracketed (configSamFca dir phy.toMsecDevice fca) :=
      .ite (.throw _) (.ite (.throw _) (.locked _))
    cases dir <;> exact raises_of_bracketed hb h
  | getSamFca dir i =>
    have hb : Bracketed (getSamFca dir phy.toMsecDevice i) := .ite (.throw _) (.locked _)
    cases dir <;> exact raises_of_bracketed hb h
  | clearSamFca dir i =>
    have hb : Bracketed (clearSamFca dir phy.toMsecDevice i) := .ite (.throw _) (.locked _)
    cases dir <;> exact raises_of_bracketed hb h
  | configSamEex dir ee =>
    have hb : Bracketed (configSamEex dir phy.toMsecDevice ee) := by
      rw [configSamEex]
      cases samEexOffset ee.eexType with
      | none => exact .throw _
      | some offset => exact .locked _
    cases dir <;> exact raises_of_bracketed hb h
  | getSamEef dir =>
    have hb : Bracketed (getSamEef dir phy.toMsecDevice) := .locked _
    cases dir <;> exact raises_of_bracketed hb h
  | configSamEec dir eeCtrl =>
    have hb : Bracketed (configSamEec dir eeCtrl) := .ite (.throw _) (.locked _)
    cases dir <;> exact raises_of_bracketed hb h
  | fwFrwInit timeout => exact raises_fwFrwInit h
  | fwFwrPage buf timeout =>
    have hb : Bracketed (gpy2xxFwFwrPage buf timeout) := .ite (.throw _) (.locked _)
    exact raises_of_bracketed hb h
  | fwFwrStatus => exact raises_of_bracketed (.locked _) h
  | fwFrwUninit => exact raises_of_bracketed (.locked _) h
  | ptpAuxCfg auxCfg =>
    have hb : Bracketed (gpy2xxPtpAuxCfg phy auxCfg) :=
      .ite (.throw _) (.ite (.throw _) (.ite (.throw _) (.locked _)))
    exact raises_of_bracketed hb h
  | ptpGetauxts => exact raises_of_bracketed (.locked _) h
  | ptpAuxfifostat => exact raises_of_bracketed (.locked _) h
  | ptpResetauxfifo => exact raises_ptpResetauxfifo h

end Calls

/-! ## Sessions -/

/-- After a session the lock is held once for each call that leaked, and no call unlocked it while
it was free. -/
theorem balance_session {aesEncrypt : AesEncrypt} (session : List (Invocation aesEncrypt)) :
    balance 0 (lockEvents session) =
      some ((session.map fun v => if v.leaks then 1 else 0).sum) := by
  rw [lockEvents, balance_flatMap session fun v _ => (raises_call v.runs).balance, Nat.zero_add]
  rfl

/-- Lock balance: a session ends with the lock free, never having unlocked it while it was free,
exactly when none of its calls takes a plain return past the unlock. -/
theorem session_balanced_iff {aesEncrypt : AesEncrypt} (session : List (Invocation aesEncrypt)) :
    balance 0 (lockEvents session) = some 0 ↔ ∀ v ∈ session, v.leaks = false := by
  rw [balance_session, Option.some_inj, List.sum_eq_zero_iff_forall_eq_nat]
  constructor
  · intro h v hv
    have hzero := h _ (List.mem_map_of_mem hv)
    by_cases hleak : v.leaks
    · simp [hleak] at hzero
    · simpa using hleak
  · intro h n hn
    obtain ⟨v, hv, rfl⟩ := List.mem_map.mp hn
    simp [h v hv]

/-- One failed read of `PHY_STAT1` and `fw_frw_init` returns with the lock held. -/
theorem not_fwFrwInit_balanced :
    ∃ (phy : Gpy211Device) (t : Trace regSig.locking),
      (gpy2xxFwFrwInit phy 0).Runs t (.error EIO) ∧ balance 0 (events t) = some 1 :=
  ⟨{ nrOfSas := 32, family := .p31g, phyAddr := 0, macsecSupported := true, ptpClock := 0
     gmacfBaseAddr := 0, gmaclBaseAddr := 0, pmBaseAddr := 0 },
    [⟨.lock, ()⟩, ⟨.acc (.phyRead phyStat1), .error EIO⟩],
    ⟨(), _, rfl, .error EIO, [], rfl, rfl, rfl⟩, rfl⟩

end Gpy2xx
