import MxlUtils.Gphy.Chip

/- Cable diagnostics. Each pair has up to five echoes, a state word with the distance
   and a peak each, and three crosstalk values. A state word of 0 ends the pair's
   list. A state word that cannot be read does not: the call goes on and decodes the
   negative return value in its place. -/
namespace Gpy2xx
open Effect Effect.Fallible Effect.Lock

/-! ## The call -/

/-- `enum gpy211_cdiag_state` -/
def cdiagOpen : BitVec 8 := 2
def cdiagShort : BitVec 8 := 4
def cdiagMatched : BitVec 8 := 8

/-- `struct gpy211_cdiag_sum` -/
structure CdiagSum where
  distance : BitVec 8
  state : BitVec 8
  peak : BitVec 16
deriving DecidableEq

/-- `struct gpy211_cdiag_pair`. `results` has the first `num_valid_result` entries of the array; the
others are zero. -/
structure CdiagPair where
  results : List CdiagSum
  xcPwr : List (BitVec 16)
deriving DecidableEq

def CdiagPair.numValidResult (pair : CdiagPair) : Nat := pair.results.length

/-- The registers of pair `idx` in `MDIO_MMD_VEND2`: state words, peaks, crosstalk. -/
def cdiagBase (idx : Nat) : Nat := 0x400 + 0x8 * idx
def cdiagStateReg (idx j : Nat) : Nat := cdiagBase idx + j
def cdiagPeakReg (idx j : Nat) : Nat := cdiagBase idx + j + 0x20
def cdiagXcReg (idx j : Nat) : Nat := cdiagBase idx + j + 5

/-- The `int` that a read returns. -/
def readRet : Except Errno (BitVec 16) → BitVec 32
  | .ok v => v.setWidth 32
  | .error e => BitVec.ofInt 32 e.code

/-- The state bits of `ret >> 8`; the bit of a reflection is not reported. -/
def cdiagState (ret : BitVec 32) : BitVec 8 :=
  (if ret &&& 0x02 ≠ 0 then cdiagOpen else 0) |||
  (if ret &&& 0x04 ≠ 0 then cdiagShort else 0) |||
  (if ret &&& 0x08 ≠ 0 then cdiagMatched else 0)

def cdiagSum (ret : BitVec 32) (peak : BitVec 16) : CdiagSum where
  distance := (ret &&& 0xff).setWidth 8
  state := cdiagState (ret.sshiftRight 8)
  peak := peak

/-- The loop over the echoes, with `n` to go from `j` on. -/
def cdiagResults (idx : Nat) : (j n : Nat) → Api (List CdiagSum)
  | _, 0 => pure []
  | j, n + 1 => do
    let ret ← (phyReadMmd .vend2 (cdiagStateReg idx j)).attempt
    if ret = .ok 0 then pure []
    else
      let peak ← phyReadMmd .vend2 (cdiagPeakReg idx j)
      let results ← cdiagResults idx (j + 1) n
      pure (cdiagSum (readRet ret) peak :: results)

def gpy211CdiagGetPair (idx : Nat) : Api CdiagPair := do
  let results ← cdiagResults idx 0 5
  let xcPwr ← (List.range 3).mapM fun j => phyReadMmd .vend2 (cdiagXcReg idx j)
  pure ⟨results, xcPwr⟩

def gpy2xxCdiagRead : Call (List CdiagPair) :=
  locked ((List.range 4).mapM gpy211CdiagGetPair)

/-! ## A report that is decoded from what was read -/

/-- A device whose registers hold something or cannot be read. -/
def vend2Answers (regs : Nat → Except Errno (BitVec 16)) : (o : RegOp) → o.Ret
  | .mmdRead _ reg => regs reg
  | o => okAnswer o

/-- What the call returns. -/
def cdiagResult (regs : Nat → Except Errno (BitVec 16)) : Except Errno (List CdiagPair) :=
  (gpy2xxCdiagRead.exec (handler (stateless (vend2Answers regs))) ()).1

/-- The echoes of a pair, when the registers hold `word`: up to the first state word of 0. -/
def echoes (word : Nat → BitVec 16) (idx : Nat) : List Nat :=
  (List.range 5).takeWhile fun j => word (cdiagStateReg idx j) ≠ 0

/-- The pair's own words, decoded. -/
def decodePair (word : Nat → BitVec 16) (idx : Nat) : CdiagPair where
  results := (echoes word idx).map fun j =>
    cdiagSum ((word (cdiagStateReg idx j)).setWidth 32) (word (cdiagPeakReg idx j))
  xcPwr := (List.range 3).map fun j => word (cdiagXcReg idx j)

/-- The registers that a pair's report is put together from. -/
def contributing (word : Nat → BitVec 16) (idx : Nat) : List Nat :=
  (echoes word idx).map (cdiagStateReg idx) ++ (echoes word idx).map (cdiagPeakReg idx) ++
    (List.range 3).map (cdiagXcReg idx)

/-- A report is decoded from words that were read. -/
def CdiagSound (regs : Nat → Except Errno (BitVec 16)) : Prop :=
  ∀ report, cdiagResult regs = .ok report → ∃ word : Nat → BitVec 16,
    (∀ idx < 4, ∀ reg ∈ contributing word idx, regs reg = .ok (word reg)) ∧
    report = (List.range 4).map (decodePair word)

/-- The echo's state word is read: none before it was 0. -/
def EchoReached (regs : Nat → Except Errno (BitVec 16)) (idx j : Nat) : Prop :=
  ∀ i < j, regs (cdiagStateReg idx i) ≠ .ok 0

/-- A state word that is read cannot be read. -/
def StateRefused (regs : Nat → Except Errno (BitVec 16)) : Prop :=
  ∃ idx < 4, ∃ j < 5, EchoReached regs idx j ∧ (regs (cdiagStateReg idx j)).isOk = false

/-- Another word that is read cannot be read. -/
def OtherRefused (regs : Nat → Except Errno (BitVec 16)) : Prop :=
  ∃ idx < 4, (∃ j < 5, EchoReached regs idx (j + 1) ∧ (regs (cdiagPeakReg idx j)).isOk = false) ∨
    ∃ j < 3, (regs (cdiagXcReg idx j)).isOk = false

/-! ## The call on a device -/

/-- The echoes whose state word is read and is not 0. -/
def readEchoes (regs : Nat → Except Errno (BitVec 16)) (idx : Nat) : List Nat :=
  (List.range 5).takeWhile fun j => regs (cdiagStateReg idx j) ≠ .ok 0

/-- One echo, decoded whether or not its state word was read. -/
def echoOf (regs : Nat → Except Errno (BitVec 16)) (idx j : Nat) : Except Errno CdiagSum := do
  let peak ← regs (cdiagPeakReg idx j)
  pure (cdiagSum (readRet (regs (cdiagStateReg idx j))) peak)

def pairResult (regs : Nat → Except Errno (BitVec 16)) (idx : Nat) : Except Errno CdiagPair := do
  let results ← (readEchoes regs idx).mapM (echoOf regs idx)
  let xcPwr ← (List.range 3).mapM fun j => regs (cdiagXcReg idx j)
  pure ⟨results, xcPwr⟩

section Runs
variable {regs : Nat → Except Errno (BitVec 16)} {idx : Nat}

theorem answered_phyReadMmd {reg : Nat} :
    answered (vend2Answers regs) (phyReadMmd .vend2 reg) = regs reg := rfl

theorem answered_cdiagResults (j n : Nat) : answered (vend2Answers regs) (cdiagResults idx j n) =
    ((List.range' j n).takeWhile fun i => regs (cdiagStateReg idx i) ≠ .ok 0).mapM (echoOf regs idx) := by
  induction n generalizing j with
  | zero => rfl
  | succ n ih =>
    rw [cdiagResults, answered_bind, answered_attempt, pure_bind, answered_phyReadMmd, List.range'_succ]
    by_cases hzero : regs (cdiagStateReg idx j) = .ok 0
    · rw [if_pos hzero, List.takeWhile_cons_of_neg (by simp [hzero])]
      rfl
    · rw [if_neg hzero, List.takeWhile_cons_of_pos (by simpa using hzero)]
      simp only [answered_bind, answered_phyReadMmd, ih, answered_pure, List.mapM_cons, echoOf, bind_assoc,
        pure_bind]

theorem cdiagResult_eq : cdiagResult regs = (List.range 4).mapM (pairResult regs) := by
  have hpair : ∀ idx, answered (vend2Answers regs) (gpy211CdiagGetPair idx) = pairResult regs idx := fun idx => by
    simp only [gpy211CdiagGetPair, answered_bind, answered_cdiagResults, answered_mapM, answered_phyReadMmd,
      answered_pure]
    rfl
  rw [cdiagResult, gpy2xxCdiagRead, answered_locked, answered_mapM]
  simp only [hpair]

/-- The first elements of a range are a range. -/
theorem takeWhile_range (p : Nat → Bool) (n : Nat) :
    (List.range n).takeWhile p = List.range ((List.range n).takeWhile p).length := by
  have hprefix := List.prefix_iff_eq_take.mp (List.takeWhile_prefix p (l := List.range n))
  have hlen := (List.takeWhile_prefix p (l := List.range n)).length_le
  rw [List.length_range] at hlen
  calc (List.range n).takeWhile p
      = (List.range n).take ((List.range n).takeWhile p).length := hprefix
    _ = List.range ((List.range n).takeWhile p).length := by rw [List.take_range, Nat.min_eq_left hlen]

theorem mem_takeWhile_range' {p : Nat → Bool} {s n j : Nat} :
    j ∈ (List.range' s n).takeWhile p ↔ s ≤ j ∧ j < s + n ∧ ∀ i, s ≤ i → i ≤ j → p i := by
  induction n generalizing s with
  | zero => simp; omega
  | succ n ih =>
    rw [List.range'_succ]
    by_cases hs : p s
    · rw [List.takeWhile_cons_of_pos hs, List.mem_cons, ih]
      constructor
      · intro h
        rcases h with rfl | ⟨hlow, hhigh, hall⟩
        · exact ⟨le_rfl, by omega, fun i hi hij => (by omega : i = j) ▸ hs⟩
        · refine ⟨by omega, by omega, fun i hi hij => ?_⟩
          rcases Nat.eq_or_lt_of_le hi with rfl | hlt
          · exact hs
          · exact hall i hlt hij
      · intro h
        obtain ⟨hlow, hhigh, hall⟩ := h
        rcases Nat.eq_or_lt_of_le hlow with rfl | hlt
        · exact .inl rfl
        · exact .inr ⟨hlt, by omega, fun i hi hij => hall i (by omega) hij⟩
    · rw [List.takeWhile_cons_of_neg hs]
      refine iff_of_false (List.not_mem_nil) fun h => ?_
      exact hs (h.2.2 s le_rfl h.1)

theorem mem_readEchoes {j : Nat} : j ∈ readEchoes regs idx ↔ j < 5 ∧ EchoReached regs idx (j + 1) := by
  rw [readEchoes, List.range_eq_range', mem_takeWhile_range']
  simp [EchoReached, Nat.lt_succ_iff]

theorem mem_echoes {word : Nat → BitVec 16} {j : Nat} :
    j ∈ echoes word idx ↔ j < 5 ∧ ∀ i ≤ j, word (cdiagStateReg idx i) ≠ 0 := by
  rw [echoes, List.range_eq_range', mem_takeWhile_range']
  simp

/-- Echoes are numbered from 0 on, so that lists with the same ones are the same. -/
theorem readEchoes_eq_echoes {word : Nat → BitVec 16}
    (h : ∀ j, j ∈ readEchoes regs idx ↔ j ∈ echoes word idx) : readEchoes regs idx = echoes word idx := by
  rw [readEchoes, takeWhile_range, ← readEchoes, echoes, takeWhile_range, ← echoes] at h ⊢
  simp only [List.mem_range] at h
  have hle := (h (readEchoes regs idx).length).not
  have hge := (h (echoes word idx).length).not
  congr 1
  omega

/-! ## What is decoded -/

/-- What the registers that can be read hold. -/
def wordOf (regs : Nat → Except Errno (BitVec 16)) (reg : Nat) : BitVec 16 :=
  match regs reg with
  | .ok v => v
  | .error _ => 0

theorem eq_ok_wordOf {reg : Nat} (h : (regs reg).isOk) : regs reg = .ok (wordOf regs reg) := by
  unfold wordOf
  cases hreg : regs reg with
  | ok v => rfl
  | error e => rw [hreg] at h; cases h

/-- The other words that the pair's report needs. -/
def OthersRead (regs : Nat → Except Errno (BitVec 16)) (idx : Nat) : Prop :=
  (∀ j ∈ readEchoes regs idx, (regs (cdiagPeakReg idx j)).isOk) ∧
    ∀ j < 3, (regs (cdiagXcReg idx j)).isOk

/-- What is reported of the pair. -/
def reportedPair (regs : Nat → Except Errno (BitVec 16)) (idx : Nat) : CdiagPair where
  results := (readEchoes regs idx).map fun j =>
    cdiagSum (readRet (regs (cdiagStateReg idx j))) (wordOf regs (cdiagPeakReg idx j))
  xcPwr := (List.range 3).map fun j => wordOf regs (cdiagXcReg idx j)

theorem isOk_echoOf {j : Nat} : (echoOf regs idx j).isOk = (regs (cdiagPeakReg idx j)).isOk := by
  unfold echoOf
  cases regs (cdiagPeakReg idx j) with
  | error e => rfl
  | ok v => rfl

theorem echoOf_eq {j : Nat} (h : (echoOf regs idx j).isOk) : echoOf regs idx j =
    .ok (cdiagSum (readRet (regs (cdiagStateReg idx j))) (wordOf regs (cdiagPeakReg idx j))) := by
  rw [isOk_echoOf] at h
  rw [echoOf, eq_ok_wordOf h]
  rfl

/-- A pair is reported exactly when its peaks and its crosstalk values are read. -/
theorem pairResult_eq_ok_iff {pair : CdiagPair} :
    pairResult regs idx = .ok pair ↔ OthersRead regs idx ∧ pair = reportedPair regs idx := by
  have hresults : ∀ results, (readEchoes regs idx).mapM (echoOf regs idx) = .ok results ↔
      (∀ j ∈ readEchoes regs idx, (regs (cdiagPeakReg idx j)).isOk) ∧
        results = (reportedPair regs idx).results := fun results => by
    simp only [← isOk_echoOf]
    exact mapM_eq_ok_iff fun j => echoOf_eq
  have hxcPwr : ∀ xcPwr, ((List.range 3).mapM fun j => regs (cdiagXcReg idx j)) = .ok xcPwr ↔
      (∀ j < 3, (regs (cdiagXcReg idx j)).isOk) ∧ xcPwr = (reportedPair regs idx).xcPwr := fun xcPwr => by
    simp only [← List.mem_range]
    exact mapM_eq_ok_iff fun j => eq_ok_wordOf
  unfold pairResult
  cases hres : (readEchoes regs idx).mapM (echoOf regs idx) with
  | error e =>
    refine iff_of_false (fun h => by cases h) fun h => ?_
    rw [(hresults _).mpr ⟨h.1.1, rfl⟩] at hres
    cases hres
  | ok results =>
    obtain ⟨hpeaks, rfl⟩ := (hresults results).mp hres
    cases hxc : (List.range 3).mapM fun j => regs (cdiagXcReg idx j) with
    | error e =>
      refine iff_of_false (fun h => by cases h) fun h => ?_
      rw [(hxcPwr _).mpr ⟨h.1.2, rfl⟩] at hxc
      cases hxc
    | ok xcPwr =>
      obtain ⟨hxcs, rfl⟩ := (hxcPwr xcPwr).mp hxc
      constructor
      · intro h
        cases h
        exact ⟨⟨hpeaks, hxcs⟩, rfl⟩
      · intro h
        rw [h.2]
        rfl

theorem cdiagResult_eq_ok_iff {report : List CdiagPair} : cdiagResult regs = .ok report ↔
    (∀ idx < 4, OthersRead regs idx) ∧ report = (List.range 4).map (reportedPair regs) := by
  have hpair : ∀ idx, (pairResult regs idx).isOk ↔ OthersRead regs idx := fun idx => by
    constructor
    · intro h
      cases hres : pairResult regs idx with
      | error e => rw [hres] at h; cases h
      | ok pair => exact (pairResult_eq_ok_iff.mp hres).1
    · intro h
      rw [(pairResult_eq_ok_iff).mpr ⟨h, rfl⟩]
      rfl
  rw [cdiagResult_eq, mapM_eq_ok_iff fun idx h => (pairResult_eq_ok_iff).mpr ⟨(hpair idx).mp h, rfl⟩]
  simp only [hpair, List.mem_range]

theorem othersRead_iff : (∀ idx < 4, OthersRead regs idx) ↔ ¬OtherRefused regs := by
  simp only [OtherRefused, OthersRead, mem_readEchoes]
  constructor
  · intro h hrefused
    obtain ⟨idx, hidx, hecho | hxc⟩ := hrefused
    · obtain ⟨j, hj, hreached, hpeak⟩ := hecho
      rw [(h idx hidx).1 j ⟨hj, hreached⟩] at hpeak
      cases hpeak
    · obtain ⟨j, hj, hxc⟩ := hxc
      rw [(h idx hidx).2 j hj] at hxc
      cases hxc
  · intro h idx hidx
    refine ⟨fun j hj => ?_, fun j hj => ?_⟩
    · by_contra hpeak
      exact h ⟨idx, hidx, .inl ⟨j, hj.1, hj.2, by simpa using hpeak⟩⟩
    · by_contra hxc
      exact h ⟨idx, hidx, .inr ⟨j, hj, by simpa using hxc⟩⟩

/-- Where no state word is refused, what is reported of a pair is what was read. -/
theorem reportedPair_eq (hstates : ∀ j < 5, EchoReached regs idx j → (regs (cdiagStateReg idx j)).isOk)
    (hothers : OthersRead regs idx) : reportedPair regs idx = decodePair (wordOf regs) idx ∧
      ∀ reg ∈ contributing (wordOf regs) idx, regs reg = .ok (wordOf regs reg) := by
  have hread : ∀ j ∈ readEchoes regs idx, ∀ i ≤ j,
      regs (cdiagStateReg idx i) = .ok (wordOf regs (cdiagStateReg idx i)) := fun j hj i hij => by
    obtain ⟨hlt, hreached⟩ := (mem_readEchoes).mp hj
    exact eq_ok_wordOf (hstates i (by omega) fun k hk => hreached k (by omega))
  have hechoes : readEchoes regs idx = echoes (wordOf regs) idx := by
    refine readEchoes_eq_echoes fun j => ?_
    rw [mem_echoes]
    constructor
    · intro hj
      obtain ⟨hlt, hreached⟩ := (mem_readEchoes).mp hj
      refine ⟨hlt, fun i hij hzero => hreached i (by omega) ?_⟩
      rw [hread j hj i hij, hzero]
    · intro hj
      obtain ⟨hlt, hwords⟩ := hj
      refine (mem_readEchoes).mpr ⟨hlt, fun i hi hzero => hwords i (by omega) ?_⟩
      rw [wordOf, hzero]
  constructor
  · rw [reportedPair, decodePair, ← hechoes]
    congr 1
    refine List.map_congr_left fun j hj => ?_
    rw [hread j hj j le_rfl]
    rfl
  · intro reg hreg
    simp only [contributing, ← hechoes, List.mem_append, List.mem_map, List.mem_range] at hreg
    rcases hreg with (⟨j, hj, rfl⟩ | ⟨j, hj, rfl⟩) | ⟨j, hj, rfl⟩
    · exact hread j hj j le_rfl
    · exact eq_ok_wordOf (hothers.1 j hj)
    · exact eq_ok_wordOf (hothers.2 j hj)

/-- For every device and every pattern of failures the report is decoded from words that were read exactly
when no state word is refused, or the call fails at another one. -/
theorem cdiagSound_iff : CdiagSound regs ↔ OtherRefused regs ∨ ¬StateRefused regs := by
  constructor
  · intro h
    by_contra hcon
    simp only [not_or, not_not, ← othersRead_iff] at hcon
    obtain ⟨hothers, idx, hidx, j, hj, hreached, hrefused⟩ := hcon
    obtain ⟨word, hwords, hreport⟩ := h _ (cdiagResult_eq_ok_iff.mpr ⟨hothers, rfl⟩)
    -- the report has an entry for the refused word, so that `word` has one there too
    have hpair : reportedPair regs idx = decodePair word idx :=
      List.map_inj_left.mp hreport idx (List.mem_range.mpr hidx)
    have hlen : (readEchoes regs idx).length = (echoes word idx).length := by
      simpa [reportedPair, decodePair, CdiagPair.numValidResult] using congrArg CdiagPair.numValidResult hpair
    have hmem : j ∈ readEchoes regs idx := by
      refine (mem_readEchoes).mpr ⟨hj, fun i hi hzero => ?_⟩
      rcases Nat.lt_succ_iff_lt_or_eq.mp hi with hlt | rfl
      · exact hreached i hlt hzero
      · rw [hzero] at hrefused
        cases hrefused
    have hecho : j ∈ echoes word idx := by
      rw [readEchoes, takeWhile_range, ← readEchoes, hlen] at hmem
      rwa [echoes, takeWhile_range, ← echoes]
    have hread := hwords idx hidx (cdiagStateReg idx j)
      (List.mem_append_left _ (List.mem_append_left _ (List.mem_map_of_mem hecho)))
    rw [hread] at hrefused
    cases hrefused
  · intro h report hok
    obtain ⟨hothers, rfl⟩ := (cdiagResult_eq_ok_iff).mp hok
    have hstates : ¬StateRefused regs := h.resolve_left (othersRead_iff.mp hothers)
    have hpair : ∀ idx < 4, reportedPair regs idx = decodePair (wordOf regs) idx ∧
        ∀ reg ∈ contributing (wordOf regs) idx, regs reg = .ok (wordOf regs reg) := fun idx hidx => by
      refine reportedPair_eq (fun j hj hreached => ?_) (hothers idx hidx)
      by_contra hrefused
      exact hstates ⟨idx, hidx, j, hj, hreached, by simpa using hrefused⟩
    exact ⟨wordOf regs, fun idx hidx => (hpair idx hidx).2,
      List.map_congr_left fun idx hidx => (hpair idx (List.mem_range.mp hidx)).1⟩

end Runs

/-- The first state word cannot be read, and all others are 0. -/
def firstStateRefused : Nat → Except Errno (BitVec 16) := fun reg => if reg = 0x400 then .error EIO else .ok 0

/-- The return value -5 is reported as an echo at 251 meters, open, short and matched. -/
theorem not_cdiagSound_firstStateRefused : ¬CdiagSound firstStateRefused := by
  intro h
  have hok : cdiagResult firstStateRefused = .ok
      [⟨[⟨251, 14, 0⟩], [0, 0, 0]⟩, ⟨[], [0, 0, 0]⟩, ⟨[], [0, 0, 0]⟩, ⟨[], [0, 0, 0]⟩] := by decide
  obtain ⟨word, hwords, hreport⟩ := h _ hok
  have hpair : [⟨251, 14, 0⟩] = (decodePair word 0).results := by
    have hhead : _ :: _ = decodePair word 0 :: _ := hreport
    exact congrArg CdiagPair.results (List.cons.inj hhead).1
  have hecho : 0 ∈ echoes word 0 := by
    refine (mem_echoes).mpr ⟨by decide, fun i hi hzero => ?_⟩
    obtain rfl : i = 0 := by omega
    have hnone : echoes word 0 = [] := by simp [echoes, List.range_succ_eq_map, hzero]
    rw [decodePair, hnone] at hpair
    cases hpair
  have hread := hwords 0 (by decide) 0x400 (by simp [contributing, hecho, cdiagStateReg, cdiagBase])
  cases hread

end Gpy2xx
