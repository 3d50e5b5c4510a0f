import MxlUtils.Gphy.Msec.EngineInit
import MxlUtils.Lib.Polling

/- The waits of the MACsec engine. Waiting for the packets in flight takes the last of its polls
   for a failure whatever it read, and the wait for the counters to be reset returns what its
   last read returned, also when its budget is used up. `waitsRight_iff` says on which devices
   both results are right. -/
namespace Gpy2xx
open Effect Effect.Fallible Bits Polling

/-- A device that answers writes with `written` and its reads through the mailbox with `answers`,
one after the other; the state is the number of the read. -/
def mboxPresents (written : Except Errno Unit) (answers : Nat → Except Errno (BitVec 32)) :
    Handler regSig Nat
  | .mboxRead32 _, k => (answers k, k + 1)
  | .phyRead _, k | .mmdRead _ _, k | .smdioRead _, k | .mboxRead16 _, k => (.ok 0, k)
  | .phyWrite _ _, k | .mmdWrite _ _ _, k | .smdioWrite _ _, k | .mboxWrite16 _ _, k
  | .mboxWrite32 _ _, k => (written, k)
  | .osAlloc, k => (true, k)
  | .rand, k => (0, k)

/-! ## What a poll shows -/

/-- The count of packets in flight that use old entries is zero. -/
def ShowsDrained (answer : Except Errno (BitVec 32)) : Prop :=
  ∃ v, answer = .ok v ∧ v &&& samInFlightUnsafeMask = 0

/-- The counters are reset. -/
def ShowsSynced (answer : Except Errno (BitVec 32)) : Prop :=
  ∃ v, answer = .ok v ∧ v.getLsbD 0 = false

/-- The read fails, or it shows that the wait is over. -/
def EndsWait (shows : Except Errno (BitVec 32) → Prop) (answer : Except Errno (BitVec 32)) : Prop :=
  shows answer ∨ ∃ e, answer = .error e

section InFlight
variable {dir : MsecDir} {written : Except Errno Unit} {answers : Nat → Except Errno (BitVec 32)}

theorem exec_poll_succ (k n : Nat) :
    (isSamInFlightSafe.poll dir (n + 1)).exec (mboxPresents written answers) k =
      match answers k with
      | .error e => (.error e, k + 1)
      | .ok v =>
        if n = 0 then (.error errRet, k + 1)
        else if v &&& samInFlightUnsafeMask ≠ 0 then
          (isSamInFlightSafe.poll dir n).exec (mboxPresents written answers) (k + 1)
        else (.ok (), k + 1) := by
  have hread : (phyMboxRead (samInFlight dir)).exec (mboxPresents written answers) k =
      (answers k, k + 1) := rfl
  rw [isSamInFlightSafe.poll, exec_bind, hread]
  cases answers k with
  | error e => rfl
  | ok v => simp only [exec_ite, exec_throw, exec_pure]

/-- The poll the wait stops at decides: it is safe if the count was drained and there was budget
for another poll. -/
theorem exec_poll_first {k n i : Nat}
    (h : First (fun j => EndsWait ShowsDrained (answers (k + j))) (n + 1) i) :
    ∃ c, (isSamInFlightSafe.poll dir (n + 1)).exec (mboxPresents written answers) k = (c, k + i + 1) ∧
      (c = .ok () ↔ i < n ∧ ShowsDrained (answers (k + i))) := by
  induction n generalizing k i with
  | zero =>
    obtain rfl : i = 0 := by have := h.lt; omega
    rw [exec_poll_succ]
    cases answers k with
    | error e => exact ⟨_, rfl, by simp⟩
    | ok v => exact ⟨_, rfl, by simp⟩
  | succ n ih =>
    rw [exec_poll_succ]
    rcases h.cases with ⟨rfl, hends⟩ | ⟨j, rfl, hgoes, hrest⟩
    · cases hk : answers k with
      | error e => exact ⟨_, rfl, by simp [ShowsDrained, hk]⟩
      | ok v =>
        have hdrained : v &&& samInFlightUnsafeMask = 0 := by
          simpa [EndsWait, ShowsDrained, hk] using hends
        exact ⟨.ok (), by simp [hdrained], by simp [ShowsDrained, hk, hdrained]⟩
    · have hshift : First (fun i => EndsWait ShowsDrained (answers (k + 1 + i))) (n + 1) j := by
        simpa only [Nat.add_assoc, Nat.add_comm 1] using hrest
      obtain ⟨c, hexec, hc⟩ := ih hshift
      cases hk : answers k with
      | error e => exact absurd (Or.inr ⟨e, hk⟩) hgoes
      | ok v =>
        have hunsafe : v &&& samInFlightUnsafeMask ≠ 0 := by
          intro hzero
          exact hgoes (Or.inl ⟨v, hk, hzero⟩)
        refine ⟨c, ?_, ?_⟩
        · simp only [Nat.succ_ne_zero, if_false, if_pos hunsafe, hexec]
          congr 1
          omega
        · rw [hc, Nat.add_lt_add_iff_right, show k + (j + 1) = k + 1 + j by omega]

theorem exec_poll_none {k n : Nat} (h : ∀ j < n + 1, ¬ EndsWait ShowsDrained (answers (k + j))) :
    (isSamInFlightSafe.poll dir (n + 1)).exec (mboxPresents written answers) k =
      (.error errRet, k + n + 1) := by
  induction n generalizing k with
  | zero =>
    rw [exec_poll_succ]
    cases hk : answers k with
    | error e => exact absurd (Or.inr ⟨e, hk⟩) (h 0 (Nat.succ_pos 0))
    | ok v => rfl
  | succ n ih =>
    have hrest : ∀ j < n + 1, ¬ EndsWait ShowsDrained (answers (k + 1 + j)) := by
      intro j hj
      have := h (j + 1) (Nat.succ_lt_succ hj)
      rwa [show k + (j + 1) = k + 1 + j by omega] at this
    rw [exec_poll_succ]
    cases hk : answers k with
    | error e => exact absurd (Or.inr ⟨e, hk⟩) (h 0 (Nat.succ_pos _))
    | ok v =>
      have hunsafe : v &&& samInFlightUnsafeMask ≠ 0 := by
        intro hzero
        exact h 0 (Nat.succ_pos _) (Or.inl ⟨v, hk, hzero⟩)
      simp only [Nat.succ_ne_zero, if_false, if_pos hunsafe, ih hrest]
      congr 1
      omega

end InFlight

section Sync
variable {dir : MsecDir} {written : Except Errno Unit} {answers : Nat → Except Errno (BitVec 32)}

theorem exec_waitResetAll_succ (k n : Nat) :
    (waitResetAll dir (n + 1)).exec (mboxPresents written answers) k =
      match answers k with
      | .error e => (.error e, k + 1)
      | .ok v =>
        if v.getLsbD 0 then (waitResetAll dir n).exec (mboxPresents written answers) (k + 1)
        else (.ok (), k + 1) := by
  have hread : (phyMboxRead (countControlReg dir)).exec (mboxPresents written answers) k =
      (answers k, k + 1) := rfl
  rw [waitResetAll, exec_bind, hread]
  cases answers k with
  | error e => rfl
  | ok v => simp only [exec_ite, exec_pure]

theorem exec_waitResetAll_first {k n i : Nat}
    (h : First (fun j => EndsWait ShowsSynced (answers (k + j))) n i) :
    ∃ c, (waitResetAll dir n).exec (mboxPresents written answers) k = (c, k + i + 1) ∧
      (c = .ok () ↔ ShowsSynced (answers (k + i))) := by
  induction n generalizing k i with
  | zero => exact absurd h.lt (Nat.not_lt_zero i)
  | succ n ih =>
    rw [exec_waitResetAll_succ]
    rcases h.cases with ⟨rfl, hends⟩ | ⟨j, rfl, hgoes, hrest⟩
    · cases hk : answers k with
      | error e => exact ⟨_, rfl, by simp [ShowsSynced]⟩
      | ok v =>
        have hsynced : v.getLsbD 0 = false := by
          simpa [EndsWait, ShowsSynced, hk] using hends
        exact ⟨.ok (), by simp only [hsynced]; rfl, iff_of_true rfl ⟨v, rfl, hsynced⟩⟩
    · have hshift : First (fun i => EndsWait ShowsSynced (answers (k + 1 + i))) n j := by
        simpa only [Nat.add_assoc, Nat.add_comm 1] using hrest
      obtain ⟨c, hexec, hc⟩ := ih hshift
      cases hk : answers k with
      | error e => exact absurd (Or.inr ⟨e, hk⟩) hgoes
      | ok v =>
        have hset : v.getLsbD 0 = true := by
          rw [← Bool.not_eq_false]
          intro hclear
          exact hgoes (Or.inl ⟨v, hk, hclear⟩)
        refine ⟨c, ?_, ?_⟩
        · simp only [hset, if_true, hexec]
          congr 1
          omega
        · rw [hc, show k + (j + 1) = k + 1 + j by omega]

/-- A device that is never synchronised is no error. -/
theorem exec_waitResetAll_none {k n : Nat} (h : ∀ j < n, ¬ EndsWait ShowsSynced (answers (k + j))) :
    (waitResetAll dir n).exec (mboxPresents written answers) k = (.ok (), k + n) := by
  induction n generalizing k with
  | zero => rfl
  | succ n ih =>
    have hrest : ∀ j < n, ¬ EndsWait ShowsSynced (answers (k + 1 + j)) := by
      intro j hj
      have := h (j + 1) (Nat.succ_lt_succ hj)
      rwa [show k + (j + 1) = k + 1 + j by omega] at this
    rw [exec_waitResetAll_succ]
    cases hk : answers k with
    | error e => exact absurd (Or.inr ⟨e, hk⟩) (h 0 (Nat.succ_pos n))
    | ok v =>
      have hset : v.getLsbD 0 = true := by
        rw [← Bool.not_eq_false]
        intro hclear
        exact h 0 (Nat.succ_pos n) (Or.inl ⟨v, hk, hclear⟩)
      simp only [hset, if_true, ih hrest]
      congr 1
      omega

end Sync

/-! ## What the waits are for -/

/-- Waiting for the packets in flight is safe exactly if one of its polls showed the count drained,
and the wait for the engine succeeds exactly if one of its polls showed the counters reset. -/
structure WaitsRight (dir : MsecDir) (written : Except Errno Unit)
    (answers : Nat → Except Errno (BitVec 32)) : Prop where
  inFlight : ∀ c polls,
    (isSamInFlightSafe dir).exec (mboxPresents written answers) 0 = (c, polls) →
      (c = .ok () ↔ ∃ i < polls, ShowsDrained (answers i))
  sync : ∀ c polls,
    (checkDevSyncStatus dir).exec (mboxPresents written answers) 0 = (c, polls) →
      (c = .ok () ↔ ∃ i < polls, ShowsSynced (answers i))

/-- It is the last poll of the budget that is the first to show the count drained. -/
def DrainsLast (written : Except Errno Unit) (answers : Nat → Except Errno (BitVec 32)) : Prop :=
  written = .ok () ∧ First (fun j => EndsWait ShowsDrained (answers j)) 10 9 ∧ ShowsDrained (answers 9)

/-- The wait for the engine ends within its budget, with a failed read or the counters reset. -/
def SyncEnds (answers : Nat → Except Errno (BitVec 32)) : Prop :=
  ∃ i < 100, EndsWait ShowsSynced (answers i)

section Right
variable {dir : MsecDir} {written : Except Errno Unit} {answers : Nat → Except Errno (BitVec 32)}

/-- Among the polls up to the one that ends the wait only that one can show what is waited for. -/
theorem exists_shows_iff {shows : Except Errno (BitVec 32) → Prop} {n i : Nat}
    (h : First (fun j => EndsWait shows (answers j)) n i) :
    (∃ j < i + 1, shows (answers j)) ↔ shows (answers i) := by
  constructor
  · rintro ⟨j, hj, hshows⟩
    obtain rfl := h.eq_of_lt_succ hj (Or.inl hshows)
    exact hshows
  · intro hshows
    exact ⟨i, Nat.lt_succ_self i, hshows⟩

/-- The wait for the packets in flight is wrong only if the last poll is the first good one. -/
theorem inFlight_iff : (∀ c polls,
    (isSamInFlightSafe dir).exec (mboxPresents written answers) 0 = (c, polls) →
      (c = .ok () ↔ ∃ i < polls, ShowsDrained (answers i))) ↔ ¬ DrainsLast written answers := by
  cases hw : written with
  | error e =>
    -- the wait is never begun
    refine iff_of_true ?_ fun h => by cases h.1
    intro c polls hexec
    have hfail : (isSamInFlightSafe dir).exec (mboxPresents (.error e) answers) 0 = (.error e, 0) := rfl
    obtain ⟨rfl, rfl⟩ := Prod.mk.inj (hexec.symm.trans hfail)
    simp
  | ok u =>
    have hwait : (isSamInFlightSafe dir).exec (mboxPresents (.ok u) answers) 0 =
        (isSamInFlightSafe.poll dir 10).exec (mboxPresents (.ok u) answers) 0 := rfl
    rw [hwait]
    rcases exists_first_or (fun j => EndsWait ShowsDrained (answers j)) 10 with ⟨i, hi⟩ | hnone
    · have hi' : First (fun j => EndsWait ShowsDrained (answers (0 + j))) 10 i := by simpa using hi
      obtain ⟨c, hexec, hc⟩ := @exec_poll_first dir (.ok u) answers 0 9 i hi'
      rw [Nat.zero_add] at hexec hc
      have hright : (∀ c' polls, (isSamInFlightSafe.poll dir 10).exec
          (mboxPresents (.ok u) answers) 0 = (c', polls) →
            (c' = .ok () ↔ ∃ i < polls, ShowsDrained (answers i))) ↔
          (i < 9 ∧ ShowsDrained (answers i) ↔ ShowsDrained (answers i)) := by
        rw [← hc, ← exists_shows_iff hi]
        constructor
        · intro h
          exact h c (i + 1) hexec
        · intro h c' polls hexec'
          obtain ⟨rfl, rfl⟩ := Prod.mk.inj (hexec'.symm.trans hexec)
          exact h
      rw [hright]
      constructor
      · rintro h ⟨-, hlast, hdrained⟩
        obtain rfl := hlast.unique hi
        exact absurd (h.mpr hdrained).1 (Nat.lt_irrefl 9)
      · intro hnot
        refine ⟨And.right, fun hdrained => ⟨?_, hdrained⟩⟩
        by_contra hge
        obtain rfl : i = 9 := by have := hi.lt; omega
        exact hnot ⟨rfl, hi, hdrained⟩
    · have hexec := @exec_poll_none dir (.ok u) answers 0 9 (by simpa using hnone)
      refine iff_of_true ?_ fun h => hnone 9 (by omega) h.2.1.holds
      intro c polls hexec'
      obtain ⟨rfl, rfl⟩ := Prod.mk.inj (hexec'.symm.trans hexec)
      refine iff_of_false nofun ?_
      rintro ⟨j, hj, hdrained⟩
      exact hnone j (by omega) (Or.inl hdrained)

/-- The wait for the engine is wrong only if it sees neither the counters reset nor a failure. -/
theorem sync_iff : (∀ c polls,
    (checkDevSyncStatus dir).exec (mboxPresents written answers) 0 = (c, polls) →
      (c = .ok () ↔ ∃ i < polls, ShowsSynced (answers i))) ↔ SyncEnds answers := by
  rcases exists_first_or (fun j => EndsWait ShowsSynced (answers j)) 100 with ⟨i, hi⟩ | hnone
  · have hi' : First (fun j => EndsWait ShowsSynced (answers (0 + j))) 100 i := by simpa using hi
    obtain ⟨c, hexec, hc⟩ := @exec_waitResetAll_first dir written answers 0 100 i hi'
    rw [Nat.zero_add] at hexec hc
    refine iff_of_true ?_ ⟨i, hi.lt, hi.holds⟩
    intro c' polls hexec'
    obtain ⟨rfl, rfl⟩ := Prod.mk.inj (hexec'.symm.trans hexec)
    rw [hc, exists_shows_iff hi]
  · have hexec := @exec_waitResetAll_none dir written answers 0 100 (by simpa using hnone)
    refine iff_of_false ?_ fun ⟨i, hi, hends⟩ => hnone i hi hends
    intro h
    obtain ⟨j, hj, hsynced⟩ := (h _ _ hexec).mp rfl
    exact hnone j (by omega) (Or.inl hsynced)

/-- Both waits are right exactly if the count is not first seen drained by the last poll and the
engine answers within the budget. -/
theorem waitsRight_iff :
    WaitsRight dir written answers ↔ ¬ DrainsLast written answers ∧ SyncEnds answers := by
  rw [← @inFlight_iff dir written answers, ← @sync_iff dir written answers]
  exact ⟨fun h => ⟨h.inFlight, h.sync⟩, fun h => ⟨h.1, h.2⟩⟩

/-- Nine polls find a packet in flight, the tenth none. -/
theorem not_waitsRight_lastPoll :
    ¬ WaitsRight .ingress (.ok ()) (fun i => .ok (if i = 9 then 0 else 1)) := by
  intro h
  have hlast : ShowsDrained (.ok (if 9 = 9 then 0 else 1)) := ⟨0, rfl, rfl⟩
  have hbefore : ∀ j < 9, ¬ EndsWait ShowsDrained (.ok (if j = 9 then 0 else 1)) := by
    intro j hj
    rw [if_neg (Nat.ne_of_lt hj)]
    rintro (⟨v, hv, hzero⟩ | ⟨e, he⟩)
    · cases hv
      exact absurd hzero (by decide)
    · cases he
  exact (inFlight_iff).mp h.inFlight ⟨rfl, ⟨by decide, Or.inl hlast, hbefore⟩, hlast⟩

end Right

end Gpy2xx
