import MxlUtils.Gphy.Msec.TransformRecord

/- The packet number of a transform record, from the parameters to the device and
   back. The getter finds it through the control word on the device, so the round
   trip rests on the control word naming the layout it came with
   (`snWord_popCcw`, `sn64_popCcw`). Ingress records must not start at number 0:
   the builder puts 1 in the low word when it is 0, and for the XPN suites does so
   without looking at the high word. -/
namespace Gpy2xx
open Effect Effect.Lock Bits
open Bits.Mem (rawWords)

/-- The two suites with 64-bit packet numbers. -/
def isXpn (ca : CryptoAlgorithm) : Bool := ca = .gcmAesXpn128 ∨ ca = .gcmAesXpn256

/-! ## The calls on registers that are memory -/

section Exec
variable {aesEncrypt : AesEncrypt} {dir : MsecDir} {phy : MsecDevice} {inTr : TransformRec}
variable {sa : BitVec 8}

/-- The registers after `config_*_tr`. -/
def afterConfigTr (aesEncrypt : AesEncrypt) (dir : MsecDir) (inTr : TransformRec) (s : Regs) :
    Regs :=
  match popCcw dir inTr.ccw with
  | .error _ => s
  | .ok ccw =>
    if s.heapOk then
      { s with
        mbox := s.mbox.storeWords (trWriteAddr dir inTr.saIndex)
          (buildTr dir ccw (ctxIdOf (s.rng 0) inTr.saIndex) (fillTr aesEncrypt inTr))
        rng := fun n => s.rng (n + 1) }
    else s

theorem exec_configTrBody (s : Regs) :
    ((configTrBody aesEncrypt dir inTr).exec memHandler s).2 =
      afterConfigTr aesEncrypt dir inTr s := by
  rw [configTrBody, afterConfigTr]
  cases popCcw dir inTr.ccw with
  | error e => rfl
  | ok ccw =>
    rw [Fallible.exec_bind_ok (Fallible.exec_ofExcept _ _ _),
      Fallible.exec_bind_ok (exec_osAlloc _)]
    by_cases hheap : s.heapOk
    · simp only [hheap, if_true, Bool.not_true, Bool.false_eq_true, if_false]
      rw [Fallible.exec_bind_ok (exec_rand _), exec_mboxWriteWords]
      simp only [hheap]
    · simp [hheap]

/-- `config_*_tr` with an index in range returns 0, and leaves these registers. -/
theorem exec_configTr (hsa : inTr.saIndex < phy.nrOfSas) (s : Regs) :
    (configTr aesEncrypt dir phy inTr).exec lockedMem s =
      (.ok (configTrParams aesEncrypt dir inTr), afterConfigTr aesEncrypt dir inTr s) := by
  rw [configTr, if_neg (BitVec.not_le.mpr hsa), exec_locked,
    Fallible.exec_bind_ok (Fallible.exec_attempt _ _ _), exec_configTrBody]
  rfl

theorem exec_getTr (hsa : sa < phy.nrOfSas) (s : Regs) :
    (getTr dir phy sa).exec lockedMem s =
      (.ok (rawWords (s.mbox.loadWords (trReadAddr dir sa) (maxTrSizeWords dir))), s) := by
  rw [getTr, if_neg (BitVec.not_le.mpr hsa), exec_locked,
    Fallible.exec_bind_ok (exec_mboxReadWords _ _ _)]
  rfl

/-- `get_*_pn` on a record whose control word names a layout. -/
theorem exec_getPn (hsa : sa < phy.nrOfSas) (s : Regs) {k : Nat}
    (hk : snWord (s.mbox.load32 (trReadAddr dir sa)) = some k) :
    ((getPn dir phy sa).exec lockedMem s).1 =
      .ok (if sn64 (s.mbox.load32 (trReadAddr dir sa)) then
        (s.mbox.load32 (trReadAddr dir sa + 4 * k)).setWidth 64 |||
          (s.mbox.load32 (trReadAddr dir sa + 4 * k + 4)).setWidth 64 <<< 32
        else (s.mbox.load32 (trReadAddr dir sa + 4 * k)).setWidth 64) := by
  rw [getPn, if_neg (BitVec.not_le.mpr hsa), exec_lockedExit,
    Fallible.exec_bind_ok (exec_phyMboxRead _ _), hk]
  show Exit.result (Fallible.exec memHandler _ s).1 = _
  rw [Fallible.exec_bind_ok (exec_phyMboxRead _ _), Fallible.exec_ite]
  split_ifs
  · rw [Fallible.exec_bind_ok (exec_phyMboxRead _ _)]
    rfl
  · rfl

/-- `get_*_pn` on a record whose control word names no layout. -/
theorem exec_getPn_none (hsa : sa < phy.nrOfSas) (s : Regs)
    (hk : snWord (s.mbox.load32 (trReadAddr dir sa)) = none) :
    ((getPn dir phy sa).exec lockedMem s).1 = .error EINVAL := by
  rw [getPn, if_neg (BitVec.not_le.mpr hsa), exec_lockedExit,
    Fallible.exec_bind_ok (exec_phyMboxRead _ _), hk]
  rfl

end Exec

/-! ## The control word names the layout -/

/-- An association number is one of four values. -/
theorem an_cases {an : BitVec 8} (h : an.toNat < 4) : an = 0 ∨ an = 1 ∨ an = 2 ∨ an = 3 := by
  have hcases : an.toNat = 0 ∨ an.toNat = 1 ∨ an.toNat = 2 ∨ an.toNat = 3 := by omega
  rcases hcases with h | h | h | h
  · exact .inl (BitVec.eq_of_toNat_eq h)
  · exact .inr (.inl (BitVec.eq_of_toNat_eq h))
  · exact .inr (.inr (.inl (BitVec.eq_of_toNat_eq h)))
  · exact .inr (.inr (.inr (BitVec.eq_of_toNat_eq h)))

/-- What the fields of a control word say about a suite and an association number. -/
structure NamesSuite (dir : MsecDir) (c : CtxCtrlWord) (ccw : BitVec 32) : Prop where
  ca : ccwCa.get ccw = if isKey128 c.caType then 5 else 7
  sn : ccwSn.get ccw = if isXpn c.caType then 2 else 1
  an : dir = .egress → ccwAn.get ccw = c.an.setWidth 32

/-- The control word of every record names its suite, and on egress its association number. -/
theorem namesSuite_popCcw {dir : MsecDir} {c : CtxCtrlWord} {ccw : BitVec 32}
    (h : popCcw dir c = .ok ccw) : NamesSuite dir c ccw := by
  obtain ⟨ca, an, sn⟩ := c
  cases dir with
  | ingress =>
    cases ca with
    | other v => cases h
    | _ =>
      cases h
      exact ⟨rfl, rfl, nofun⟩
  | egress =>
    rw [popCcw] at h
    cases ca with
    | other v => cases h
    | _ =>
      simp only [defCcw] at h
      split at h
      · next han =>
        cases h
        rcases an_cases han with rfl | rfl | rfl | rfl <;>
          exact ⟨rfl, rfl, fun _ => rfl⟩
      · cases h

theorem snWord_popCcw {dir : MsecDir} {c : CtxCtrlWord} {ccw : BitVec 32}
    (h : popCcw dir c = .ok ccw) : snWord ccw = some (if isKey128 c.caType then 10 else 14) := by
  rw [snWord, (namesSuite_popCcw h).ca]
  split_ifs <;> first | rfl | contradiction

theorem sn64_popCcw {dir : MsecDir} {c : CtxCtrlWord} {ccw : BitVec 32}
    (h : popCcw dir c = .ok ccw) : sn64 ccw = isXpn c.caType := by
  rw [sn64, (namesSuite_popCcw h).sn]
  cases isXpn c.caType <;> rfl

/-! ## The sequence words of a record -/

/-- The low sequence word a record is built with. -/
def seqLow (dir : MsecDir) (pn : PnReplayCheck) : BitVec 32 :=
  match dir with
  | .ingress => ingSeq0 pn
  | .egress => pn.seq0

section Words
variable (dir : MsecDir) (ccw ctxId : BitVec 32) (tr : TransformRec)

theorem buildTr_zero : rawWords (buildTr dir ccw ctxId tr) 0 = ccw := by
  cases dir with
  | ingress =>
    rw [buildTr, buildIngTr]
    split_ifs <;> rfl
  | egress =>
    rw [buildTr, buildEgrTr]
    split_ifs <;> rfl

theorem buildTr_seqLow : rawWords (buildTr dir ccw ctxId tr)
    (if isKey128 tr.ccw.caType then 10 else 14) = seqLow dir tr.pnRc := by
  cases dir with
  | ingress =>
    rw [buildTr, buildIngTr]
    split_ifs <;> rfl
  | egress =>
    rw [buildTr, buildEgrTr]
    split_ifs <;> rfl

theorem buildTr_seqHigh (h : tr.ccw.snType ≠ .sn32Bit) : rawWords (buildTr dir ccw ctxId tr)
    ((if isKey128 tr.ccw.caType then 10 else 14) + 1) = tr.pnRc.seq1 := by
  cases dir with
  | ingress =>
    rw [buildTr, buildIngTr]
    split_ifs <;> rfl
  | egress =>
    rw [buildTr, buildEgrTr]
    split_ifs <;> rfl

end Words

/-! ## Round trip -/

/-- The next packet number the parameters give: 64 bits for an XPN suite, else 32. -/
def configuredPn (tr : TransformRec) : BitVec 64 :=
  if isXpn tr.ccw.caType then
    tr.pnRc.seq0.setWidth 64 ||| tr.pnRc.seq1.setWidth 64 <<< 32
  else tr.pnRc.seq0.setWidth 64

/-- The packet number to come back: an ingress record may not start at 0. -/
def expectedPn (dir : MsecDir) (tr : TransformRec) : BitVec 64 :=
  if dir = .ingress ∧ configuredPn tr = 0 then 1 else configuredPn tr

/-- Whatever the registers held before, the getter returns the packet number just configured. -/
def PnRoundTrip (aesEncrypt : AesEncrypt) (dir : MsecDir) (phy : MsecDevice) (inTr : TransformRec)
    (heapOk : Bool) : Prop :=
  ∀ s : Regs, s.heapOk = heapOk →
    ((getPn dir phy inTr.saIndex).exec lockedMem
      ((configTr aesEncrypt dir phy inTr).exec lockedMem s).2).1 = .ok (expectedPn dir inTr)

/-- The builder's substitution changes the low half of a number that is not zero as a whole. -/
def LowHalfLost (dir : MsecDir) (tr : TransformRec) : Prop :=
  dir = .ingress ∧ isXpn tr.ccw.caType ∧ tr.pnRc.seq0 = 0 ∧ tr.pnRc.seq1 ≠ 0

section RoundTrip
variable {aesEncrypt : AesEncrypt} {dir : MsecDir} {phy : MsecDevice} {inTr : TransformRec}

/-- The number the device holds after a record was written. -/
def storedPn (dir : MsecDir) (tr : TransformRec) : BitVec 64 :=
  if isXpn tr.ccw.caType then
    (seqLow dir tr.pnRc).setWidth 64 ||| tr.pnRc.seq1.setWidth 64 <<< 32
  else (seqLow dir tr.pnRc).setWidth 64

theorem snTypeOf_of_isXpn {ca : CryptoAlgorithm} (h : isXpn ca) : snTypeOf ca ≠ .sn32Bit := by
  cases ca with
  | gcmAes128 => cases h
  | gcmAes256 => cases h
  | other v => cases h
  | _ => decide

/-- What the getter returns once a record was written. -/
theorem getPn_afterConfigTr {ccw : BitVec 32} (hsa : inTr.saIndex < phy.nrOfSas)
    (hlow : inTr.saIndex.toNat < 128) (hccw : popCcw dir inTr.ccw = .ok ccw) {s : Regs}
    (hheap : s.heapOk) :
    ((getPn dir phy inTr.saIndex).exec lockedMem (afterConfigTr aesEncrypt dir inTr s)).1 =
      .ok (storedPn dir inTr) := by
  have hread := (trReadAddr_eq_trWriteAddr_iff dir inTr.saIndex).mpr hlow
  have hn : 20 ≤ maxTrSizeWords dir := by cases dir <;> decide
  have hmbox : (afterConfigTr aesEncrypt dir inTr s).mbox =
      s.mbox.storeWords (trWriteAddr dir inTr.saIndex)
        (buildTr dir ccw (ctxIdOf (s.rng 0) inTr.saIndex) (fillTr aesEncrypt inTr)) := by
    rw [afterConfigTr, hccw]
    simp [hheap]
  have hword : ∀ k < 20, (afterConfigTr aesEncrypt dir inTr s).mbox.load32
      (trReadAddr dir inTr.saIndex + 4 * k) =
        rawWords (buildTr dir ccw (ctxIdOf (s.rng 0) inTr.saIndex) (fillTr aesEncrypt inTr)) k := by
    intro k hk
    rw [hmbox, hread, Mem.load32_storeWords_eq]
    rw [length_buildTr]
    omega
  have hword0 := hword 0 (by decide)
  rw [buildTr_zero, Nat.mul_zero, Nat.add_zero] at hword0
  have hk : (if isKey128 inTr.ccw.caType then 10 else 14) + 1 < 20 := by split_ifs <;> decide
  have hlowWord := hword (if isKey128 inTr.ccw.caType then 10 else 14) (Nat.lt_of_succ_lt hk)
  have hhighWord := hword _ hk
  rw [show isKey128 inTr.ccw.caType = isKey128 (fillTr aesEncrypt inTr).ccw.caType from rfl,
    buildTr_seqLow] at hlowWord
  have hsn := snWord_popCcw hccw
  rw [← hword0] at hsn
  rw [exec_getPn hsa _ hsn, hword0, sn64_popCcw hccw, storedPn]
  rw [show isKey128 inTr.ccw.caType = isKey128 (fillTr aesEncrypt inTr).ccw.caType from rfl,
    hlowWord]
  by_cases hxpn : isXpn inTr.ccw.caType
  · have hsnType : (fillTr aesEncrypt inTr).ccw.snType ≠ .sn32Bit := snTypeOf_of_isXpn hxpn
    rw [show isKey128 inTr.ccw.caType = isKey128 (fillTr aesEncrypt inTr).ccw.caType from rfl,
      buildTr_seqHigh _ _ _ _ hsnType, Nat.mul_add, ← Nat.add_assoc] at hhighWord
    rw [if_pos hxpn, if_pos hxpn, show 4 = 4 * 1 from rfl, hhighWord]
    rfl
  · rw [if_neg hxpn, if_neg hxpn]
    rfl

/-! Both halves are read off a 64-bit number. -/

theorem low_of_pair (lo hi : BitVec 32) :
    (lo.setWidth 64 ||| hi.setWidth 64 <<< 32 : BitVec 64).setWidth 32 = lo := by
  apply BitVec.eq_of_getLsbD_eq
  intro i hi
  simp [hi]

theorem high_of_pair (lo hi : BitVec 32) :
    ((lo.setWidth 64 ||| hi.setWidth 64 <<< 32 : BitVec 64) >>> 32).setWidth 32 = hi := by
  apply BitVec.eq_of_getLsbD_eq
  intro i hi
  have hbit : 32 + i < 64 := by omega
  simp [hi, hbit]

theorem low_of_single (lo : BitVec 32) : (lo.setWidth 64 : BitVec 64).setWidth 32 = lo := by
  apply BitVec.eq_of_getLsbD_eq
  intro i hi
  simp [hi]

/-- A number is zero as a whole when the halves in use are. -/
theorem configuredPn_eq_zero_iff (tr : TransformRec) :
    configuredPn tr = 0 ↔ tr.pnRc.seq0 = 0 ∧ (isXpn tr.ccw.caType → tr.pnRc.seq1 = 0) := by
  rw [configuredPn]
  constructor
  · intro h
    by_cases hxpn : isXpn tr.ccw.caType
    · rw [if_pos hxpn] at h
      have hlow := low_of_pair tr.pnRc.seq0 tr.pnRc.seq1
      have hhigh := high_of_pair tr.pnRc.seq0 tr.pnRc.seq1
      rw [h] at hlow hhigh
      exact ⟨hlow.symm, fun _ => hhigh.symm⟩
    · rw [if_neg hxpn] at h
      have hlow := low_of_single tr.pnRc.seq0
      rw [h] at hlow
      exact ⟨hlow.symm, fun hx => absurd hx hxpn⟩
  · intro h
    rw [h.1]
    split_ifs with hxpn
    · rw [h.2 hxpn]
      rfl
    · rfl

/-- What is stored is what should be, except for a lost low half. -/
theorem storedPn_eq_expectedPn_iff (dir : MsecDir) (tr : TransformRec) :
    storedPn dir tr = expectedPn dir tr ↔ ¬LowHalfLost dir tr := by
  cases dir with
  | egress =>
    have hexpected : expectedPn .egress tr = configuredPn tr := if_neg fun h => nomatch h.1
    rw [hexpected]
    exact iff_of_true rfl fun h => nomatch h.1
  | ingress =>
    simp only [storedPn, expectedPn, LowHalfLost, seqLow, ingSeq0, true_and,
      configuredPn_eq_zero_iff]
    by_cases hseq0 : tr.pnRc.seq0 = 0#32
    · by_cases hxpn : isXpn tr.ccw.caType
      · by_cases hseq1 : tr.pnRc.seq1 = 0
        · simp [hseq0, hxpn, hseq1]
        · refine iff_of_false (fun h => ?_) fun h => h ⟨hxpn, hseq0, hseq1⟩
          have hlow := congrArg (BitVec.setWidth 32) h
          simp only [hseq0, hxpn, hseq1, configuredPn, if_true, if_false, and_false,
            forall_const, low_of_pair] at hlow
          cases hlow
      · simp [hseq0, hxpn]
    · simp [hseq0, configuredPn]

/-- The getter finds no layout in registers that hold zero. -/
theorem snWord_zeroRegs (heapOk : Bool) (a : Nat) :
    snWord ((zeroRegs heapOk).mbox.load32 a) = none := by
  have hzero : (zeroRegs heapOk).mbox.load32 a = 0 := by
    apply BitVec.eq_of_getLsbD_eq
    intro i hi
    rw [Mem.load32, Mem.load_bit hi]
    simp [zeroRegs]
  rw [hzero]
  rfl

theorem not_pnRoundTrip_of_unwritten {heapOk : Bool} (hsa : inTr.saIndex < phy.nrOfSas)
    (h : afterConfigTr aesEncrypt dir inTr (zeroRegs heapOk) = zeroRegs heapOk) :
    ¬PnRoundTrip aesEncrypt dir phy inTr heapOk := by
  intro hround
  have hpn := hround (zeroRegs heapOk) rfl
  rw [exec_configTr hsa, h, exec_getPn_none hsa _ (snWord_zeroRegs heapOk _)] at hpn
  cases hpn

/-- The packet number comes back unless nothing was written, although the call returned 0, or the
number is one whose low half the ingress builder replaces. -/
theorem pnRoundTrip_iff {heapOk : Bool} (hsa : inTr.saIndex < phy.nrOfSas)
    (hlow : inTr.saIndex.toNat < 128) (hca : ∀ v, inTr.ccw.caType ≠ .other v) :
    PnRoundTrip aesEncrypt dir phy inTr heapOk ↔
      heapOk ∧ (dir = .egress → inTr.ccw.an.toNat < 4) ∧ ¬LowHalfLost dir inTr := by
  by_cases hheap : heapOk
  · by_cases han : dir = .egress → inTr.ccw.an.toNat < 4
    · obtain ⟨ccw, hccw⟩ := (popCcw_ok_iff).mpr ⟨hca, han⟩
      have hpn : ∀ s : Regs, s.heapOk = heapOk → ((getPn dir phy inTr.saIndex).exec lockedMem
          ((configTr aesEncrypt dir phy inTr).exec lockedMem s).2).1 =
            .ok (storedPn dir inTr) := by
        intro s hs
        rw [exec_configTr hsa]
        exact getPn_afterConfigTr hsa hlow hccw (hs.trans hheap)
      rw [← storedPn_eq_expectedPn_iff]
      constructor
      · intro hround
        have h := hround (zeroRegs heapOk) rfl
        rw [hpn _ rfl] at h
        exact ⟨hheap, han, Except.ok.inj h⟩
      · intro h s hs
        rw [hpn s hs, h.2.2]
    · refine iff_of_false (not_pnRoundTrip_of_unwritten hsa ?_) fun h => han h.2.1
      have hccw : ∀ ccw, popCcw dir inTr.ccw ≠ .ok ccw := fun ccw hccw =>
        han (popCcw_ok_iff.mp ⟨ccw, hccw⟩).2
      rw [afterConfigTr]
      cases h : popCcw dir inTr.ccw with
      | error e => rfl
      | ok ccw => exact absurd h (hccw ccw)
  · refine iff_of_false (not_pnRoundTrip_of_unwritten hsa ?_) fun h => hheap h.1
    rw [afterConfigTr]
    cases popCcw dir inTr.ccw with
    | error e => rfl
    | ok ccw => exact if_neg hheap

end RoundTrip

/-- An ingress record of an XPN suite that starts at packet number 2^32. -/
def xpnTr : TransformRec where
  saIndex := 0
  ccw := ⟨.gcmAesXpn128, 0, .sn64Bit⟩
  cp := ⟨fun _ => 0, fun _ => 0, fun _ => 0, ⟨fun _ => 0, fun _ => 0⟩⟩
  pnRc := ⟨0, 1, 0⟩
  saUpdate := ⟨0, 0, 0, 0, 0⟩

theorem pnRoundTrip_xpnTr_iff :
    PnRoundTrip (fun _ _ _ => 0) .egress ⟨1⟩ xpnTr true ↔
      true ∧ ((MsecDir.egress = .egress) → xpnTr.ccw.an.toNat < 4) ∧ ¬LowHalfLost .egress xpnTr :=
  pnRoundTrip_iff (by decide) (by decide) (fun _ => nofun)

/-- The ingress getter returns 2^32 + 1 for it. -/
theorem not_pnRoundTrip_xpnTr : ¬ ∀ (aesEncrypt : AesEncrypt) (dir : MsecDir) (phy : MsecDevice)
    (inTr : TransformRec), inTr.saIndex < phy.nrOfSas → inTr.saIndex.toNat < 128 →
      (∀ v, inTr.ccw.caType ≠ .other v) → (dir = .egress → inTr.ccw.an.toNat < 4) →
        PnRoundTrip aesEncrypt dir phy inTr true := by
  intro h
  have hround := h (fun _ _ _ => 0) .ingress ⟨1⟩ xpnTr (by decide) (by decide) (fun _ => nofun)
    nofun (zeroRegs true) rfl
  have hccw : popCcw .ingress xpnTr.ccw = .ok 0xE24BA0EF := rfl
  rw [exec_configTr (by decide), getPn_afterConfigTr (by decide) (by decide) hccw rfl] at hround
  have hlost := (storedPn_eq_expectedPn_iff .ingress xpnTr).mp (Except.ok.inj hround)
  exact hlost ⟨rfl, rfl, rfl, by decide⟩

end Gpy2xx
