import MxlUtils.Gphy.Msec.PacketNumber
import Mathlib.Data.Fin.VecNotation
import Mathlib.Data.List.OfFn

/- What a transform record says once it is on the device. `view` reads the members
   of one layout, `decodeTr` picks the layout of a suite, and `specTr` is the
   content the parameters ask for, in terms of bytes and fields. The sequence
   words of `specTr` are a parameter: an ingress record gets 1 for a number that
   is zero as a whole. -/
namespace Gpy2xx
open Effect Effect.Lock Bits
open Bits.Mem (rawWords)

/-! ## Views of a record -/

/-- The five fields of the SA-update word. -/
structure SaUpdateView where
  saIndex : BitVec 32
  saExpiredIrq : BitVec 32
  saIndexValid : BitVec 32
  flowIndex : BitVec 32
  saIndUpdateEn : BitVec 32

/-- The content of a record. A member that its layout lacks is `none`. -/
@[ext] structure TrView where
  /-- the algorithm and sequence-number fields of the control word -/
  ca : BitVec 32
  sn : BitVec 32
  an : Option (BitVec 32)
  /-- the low byte of the context id -/
  ctxSa : BitVec 8
  key : List (BitVec 8)
  hkey : Bytes 16
  seq : List (BitVec 32)
  window : Option (BitVec 32)
  iv : Option (Bytes 8)
  salt : Option (Bytes 12)
  saUpdate : Option SaUpdateView
  reserved : List (BitVec 32)

def saUpdateView (w : BitVec 32) : SaUpdateView where
  saIndex := saUpdateSaIndex.get w
  saExpiredIrq := saUpdateSaExpiredIrq.get w
  saIndexValid := saUpdateSaIndexValid.get w
  flowIndex := saUpdateFlowIndex.get w
  saIndUpdateEn := saUpdateSaIndexUpdateEn.get w

def IngTr32bpn.view {n : Nat} (s : IngTr32bpn n) : TrView where
  ca := ccwCa.get s.ccw
  sn := ccwSn.get s.ccw
  an := none
  ctxSa := leByte s.ctxId 0
  key := List.ofFn (leBytes s.key)
  hkey := leBytes s.hkey
  seq := [s.seq]
  window := some s.mask
  iv := some (leBytes (n := 2) ![s.iv0, s.iv1])
  salt := none
  saUpdate := none
  reserved := List.ofFn s.res0

def IngTr64bpn.view {n : Nat} (s : IngTr64bpn n) : TrView where
  ca := ccwCa.get s.ccw
  sn := ccwSn.get s.ccw
  an := none
  ctxSa := leByte s.ctxId 0
  key := List.ofFn (leBytes s.key)
  hkey := leBytes s.hkey
  seq := [s.seq0, s.seq1]
  window := some s.mask
  iv := none
  salt := some (leBytes (n := 3) ![s.iv0, s.iv1, s.iv2])
  saUpdate := none
  reserved := List.ofFn s.res

def EgrTr32bpn.view {n : Nat} (s : EgrTr32bpn n) : TrView where
  ca := ccwCa.get s.ccw
  sn := ccwSn.get s.ccw
  an := some (ccwAn.get s.ccw)
  ctxSa := leByte s.ctxId 0
  key := List.ofFn (leBytes s.key)
  hkey := leBytes s.hkey
  seq := [s.seq]
  window := none
  iv := some (leBytes (n := 2) ![s.iv0, s.iv1])
  salt := none
  saUpdate := some (saUpdateView s.saUpdCtrl)
  reserved := List.ofFn s.res0 ++ List.ofFn s.res1

def EgrTr64bpn.view {n : Nat} (s : EgrTr64bpn n) : TrView where
  ca := ccwCa.get s.ccw
  sn := ccwSn.get s.ccw
  an := some (ccwAn.get s.ccw)
  ctxSa := leByte s.ctxId 0
  key := List.ofFn (leBytes s.key)
  hkey := leBytes s.hkey
  seq := [s.seq0, s.seq1]
  window := none
  iv := some (leBytes (n := 2) ![s.iv0, s.iv1])
  salt := some (leBytes (n := 3) ![s.is0, s.is1, s.is2])
  saUpdate := some (saUpdateView s.saUpdCtrl)
  reserved := [s.res0, s.res1] ++ List.ofFn s.res2

/-- Key words of a suite. -/
def nrOfKeyWords (ca : CryptoAlgorithm) : Nat := if isKey128 ca then 4 else 8

/-- The raw words by the layout of a direction and a suite. -/
def decodeTr (dir : MsecDir) (ca : CryptoAlgorithm) (raw : Nat → BitVec 32) : TrView :=
  match dir with
  | .ingress =>
    if isXpn ca then (IngTr64bpn.overlay (nrOfKeyWords ca) raw).view
    else (IngTr32bpn.overlay (nrOfKeyWords ca) raw).view
  | .egress =>
    if isXpn ca then (EgrTr64bpn.overlay (nrOfKeyWords ca) raw).view
    else (EgrTr32bpn.overlay (nrOfKeyWords ca) raw).view

/-! ## The content asked for -/

/-- `CA` of the control word: AES-CTR with a 128-bit or a 256-bit key. -/
def suiteCa (ca : CryptoAlgorithm) : BitVec 32 := if isKey128 ca then 5 else 7

/-- `SN` of the control word: a 32-bit or a 64-bit number. -/
def suiteSn (ca : CryptoAlgorithm) : BitVec 32 := if isXpn ca then 2 else 1

/-- The salt, its first four bytes xored with the short SCI. -/
def saltBytes (c : CtxSalt) : Bytes 12 := fun i =>
  if h : i.val < 4 then c.salt i ^^^ c.sSci ⟨i, h⟩ else c.salt i

/-- Words a layout reserves. -/
def nrOfReserved (dir : MsecDir) (ca : CryptoAlgorithm) : Nat :=
  match dir with
  | .ingress => if isXpn ca then 8 - nrOfKeyWords ca else 10 - nrOfKeyWords ca
  | .egress => if isXpn ca then 10 - nrOfKeyWords ca else 14 - nrOfKeyWords ca

/-- The record for some parameters, with sequence words `seq`. -/
def specTr (aesEncrypt : AesEncrypt) (dir : MsecDir) (tr : TransformRec)
    (seq : List (BitVec 32)) : TrView where
  ca := suiteCa tr.ccw.caType
  sn := suiteSn tr.ccw.caType
  an := if dir = .egress then some (tr.ccw.an.setWidth 32) else none
  ctxSa := tr.saIndex
  key := (List.ofFn tr.cp.key).take (keyLen tr.ccw.caType)
  hkey := aesEncrypt (fun _ => 0) ((List.ofFn tr.cp.key).take (keyLen tr.ccw.caType))
  seq := seq
  window :=
    if dir = .ingress then
      some (if isXpn tr.ccw.caType then BitVec.ofNat 32 (min tr.pnRc.mask.toNat (2 ^ 30)) else tr.pnRc.mask)
    else none
  iv := if isXpn tr.ccw.caType ∧ dir = .ingress then none else some tr.cp.sci
  salt := if isXpn tr.ccw.caType then some (saltBytes tr.cp.cSalt) else none
  saUpdate :=
    if dir = .egress then
      some {
        saIndex := tr.saUpdate.saIndex.setWidth 32
        saExpiredIrq := tr.saUpdate.saExpiredIrq.setWidth 32
        saIndexValid := tr.saUpdate.saIndexValid.setWidth 32
        flowIndex := tr.saUpdate.flowIndex.setWidth 32
        saIndUpdateEn := tr.saUpdate.saIndUpdateEn.setWidth 32 }
    else none
  reserved := List.replicate (nrOfReserved dir tr.ccw.caType) 0

/-- The sequence words of the parameters. -/
def givenSeq (tr : TransformRec) : List (BitVec 32) :=
  if isXpn tr.ccw.caType then [tr.pnRc.seq0, tr.pnRc.seq1] else [tr.pnRc.seq0]

/-- The sequence words a record is to hold: 1 on ingress for a number that is zero as a whole. -/
def expectedSeq (dir : MsecDir) (tr : TransformRec) : List (BitVec 32) :=
  if dir = .ingress ∧ configuredPn tr = 0 then
    if isXpn tr.ccw.caType then [1, 0] else [1]
  else givenSeq tr

/-- SA-update fields within the widths of their register fields. -/
structure SaUpdateFits (u : SaUpdateCtrl) : Prop where
  saIndex : u.saIndex.toNat < 2 ^ 14
  saExpiredIrq : u.saExpiredIrq.toNat < 2 ^ 1
  saIndexValid : u.saIndexValid.toNat < 2 ^ 1
  flowIndex : u.flowIndex.toNat < 2 ^ 15
  saIndUpdateEn : u.saIndUpdateEn.toNat < 2 ^ 1

/-! ## Each member -/

section Members
variable (cp : CryptoParams)

theorem leBytes_popHkey : leBytes (popHkey cp) = cp.hkey := leBytes_leWords (n := 4) cp.hkey

theorem leBytes_popIv : leBytes (n := 2) ![popIv cp 0, popIv cp 1] = cp.sci := by
  have hwords : ![popIv cp 0, popIv cp 1] = popIv cp := by
    funext i
    match i with
    | 0 => rfl
    | 1 => rfl
  rw [hwords]
  exact leBytes_leWords (n := 2) cp.sci

theorem leWord_xor (a₀ a₁ a₂ a₃ b₀ b₁ b₂ b₃ : BitVec 8) :
    leWord a₀ a₁ a₂ a₃ ^^^ leWord b₀ b₁ b₂ b₃ =
      leWord (a₀ ^^^ b₀) (a₁ ^^^ b₁) (a₂ ^^^ b₂) (a₃ ^^^ b₃) := by
  simp only [leWord]
  rw [BitVec.xor_append, BitVec.xor_append, BitVec.xor_append]

theorem leBytes_popCsalt :
    leBytes (n := 3) ![popCsalt cp 0, popCsalt cp 1, popCsalt cp 2] = saltBytes cp.cSalt := by
  have hwords : ![popCsalt cp 0, popCsalt cp 1, popCsalt cp 2] =
      leWords (n := 3) (saltBytes cp.cSalt) := by
    funext i
    match i with
    | 0 => exact leWord_xor _ _ _ _ _ _ _ _
    | 1 => rfl
    | 2 => rfl
  rw [hwords]
  exact leBytes_leWords (n := 3) _

/-- The key words of a suite are the first key bytes. -/
theorem leBytes_keyWords (n : Nat) (h : n ≤ 8) :
    List.ofFn (leBytes (keyWords cp n h)) = (List.ofFn cp.key).take (4 * n) := by
  apply List.ext_getElem
  · simp only [List.length_ofFn, List.length_take]
    omega
  · intro i hi hi'
    rw [List.getElem_take, List.getElem_ofFn, List.getElem_ofFn]
    rw [List.length_ofFn] at hi
    exact congrFun (leBytes_leWords (n := 8) cp.key) ⟨i, by omega⟩

theorem leByte_ctxIdOf (rnd : BitVec 32) (sa : BitVec 8) : leByte (ctxIdOf rnd sa) 0 = sa := by
  apply BitVec.eq_of_getLsbD_eq
  intro i hi
  have hmask : ∀ j < 8, (~~~(0x000000FF : BitVec 32)).getLsbD j = false := by decide
  have hi32 : i < 32 := by omega
  rw [leByte, BitVec.getLsbD_extractLsb', ctxIdOf, Nat.mul_zero, Nat.zero_add, BitVec.getLsbD_or,
    BitVec.getLsbD_and, hmask i hi, BitVec.getLsbD_setWidth]
  simp [hi, hi32]

theorem ingXpnMask_eq (pn : PnReplayCheck) :
    ingXpnMask pn = BitVec.ofNat 32 (min pn.mask.toNat (2 ^ 30)) := by
  rw [ingXpnMask]
  split_ifs with h
  · have hlt : 2 ^ 30 ≤ pn.mask.toNat := Nat.le_of_lt h
    rw [Nat.min_eq_right hlt]
    rfl
  · have hle : pn.mask.toNat ≤ 2 ^ 30 := Nat.le_of_not_lt h
    rw [Nat.min_eq_left hle, BitVec.ofNat_toNat, BitVec.setWidth_eq]

theorem saUpdateView_popSaUpdCtrl {u : SaUpdateCtrl} (h : SaUpdateFits u) :
    saUpdateView (popSaUpdCtrl u) =
      { saIndex := u.saIndex.setWidth 32
        saExpiredIrq := u.saExpiredIrq.setWidth 32
        saIndexValid := u.saIndexValid.setWidth 32
        flowIndex := u.flowIndex.setWidth 32
        saIndUpdateEn := u.saIndUpdateEn.setWidth 32 } := by
  have hwidth : ∀ {k len : Nat} {v : BitVec k}, k ≤ 32 → v.toNat < 2 ^ len →
      (v.setWidth 32).toNat < 2 ^ len := by
    intro k len v hk hv
    rw [BitVec.toNat_setWidth]
    exact Nat.lt_of_le_of_lt (Nat.mod_le _ _) hv
  have hidx : saUpdateSaIndex.Spans 14 := by decide
  have hirq : saUpdateSaExpiredIrq.Spans 1 := by decide
  have hvalid : saUpdateSaIndexValid.Spans 1 := by decide
  have hflow : saUpdateFlowIndex.Spans 15 := by decide
  have hen : saUpdateSaIndexUpdateEn.Spans 1 := by decide
  -- a later field is not in the bits of an earlier one
  simp (disch := decide) only [saUpdateView, popSaUpdCtrl, Field.get_replace_of_disjoint]
  rw [Field.get_replace hidx (hwidth (by decide) h.saIndex),
    Field.get_replace hirq (hwidth (by decide) h.saExpiredIrq),
    Field.get_replace hvalid (hwidth (by decide) h.saIndexValid),
    Field.get_replace hflow (hwidth (by decide) h.flowIndex),
    Field.get_replace hen (hwidth (by decide) h.saIndUpdateEn)]

end Members

/-! ## A built record -/

theorem nrOfKeyWords_le (ca : CryptoAlgorithm) : nrOfKeyWords ca ≤ 8 := by
  rw [nrOfKeyWords]
  split_ifs <;> decide

theorem four_mul_nrOfKeyWords (ca : CryptoAlgorithm) : 4 * nrOfKeyWords ca = keyLen ca := by
  rw [nrOfKeyWords, keyLen]
  split_ifs <;> rfl

section Built
variable {aesEncrypt : AesEncrypt} {tr : TransformRec} (ccw ctxId : BitVec 32)

theorem caType_fillTr : (fillTr aesEncrypt tr).ccw.caType = tr.ccw.caType := rfl

theorem snType_fillTr (hca : ∀ v, tr.ccw.caType ≠ .other v) :
    (fillTr aesEncrypt tr).ccw.snType = .sn32Bit ↔ isXpn tr.ccw.caType = false := by
  show snTypeOf tr.ccw.caType = .sn32Bit ↔ _
  cases h : tr.ccw.caType with
  | other v => exact absurd h (hca v)
  | _ => decide

theorem buildIngTr_words (hca : ∀ v, tr.ccw.caType ≠ .other v) :
    buildIngTr ccw ctxId (fillTr aesEncrypt tr) =
      if isXpn tr.ccw.caType then
        (buildIngTr64bpn ccw ctxId (fillTr aesEncrypt tr) _ (nrOfKeyWords_le tr.ccw.caType)).words
      else
        (buildIngTr32bpn ccw ctxId (fillTr aesEncrypt tr) _
          (nrOfKeyWords_le tr.ccw.caType)).words := by
  simp only [buildIngTr, caType_fillTr, snType_fillTr hca]
  cases h : tr.ccw.caType with
  | other v => exact absurd h (hca v)
  | _ => rfl

theorem buildEgrTr_words (hca : ∀ v, tr.ccw.caType ≠ .other v) :
    buildEgrTr ccw ctxId (fillTr aesEncrypt tr) =
      if isXpn tr.ccw.caType then
        (buildEgrTr64bpn ccw ctxId (fillTr aesEncrypt tr) _ (nrOfKeyWords_le tr.ccw.caType)).words
      else
        (buildEgrTr32bpn ccw ctxId (fillTr aesEncrypt tr) _
          (nrOfKeyWords_le tr.ccw.caType)).words := by
  simp only [buildEgrTr, caType_fillTr, snType_fillTr hca]
  cases h : tr.ccw.caType with
  | other v => exact absurd h (hca v)
  | _ => rfl

/-- The sequence words a record is built with. -/
def builtSeq (dir : MsecDir) (tr : TransformRec) : List (BitVec 32) :=
  if isXpn tr.ccw.caType then [seqLow dir tr.pnRc, tr.pnRc.seq1] else [seqLow dir tr.pnRc]

/-- Two reserved words and a reserved tail. -/
theorem reserved_append {n : Nat} (m : Nat) (h : n ≤ m) :
    [0, 0] ++ List.ofFn (fun _ : Fin (m - n) => (0 : BitVec 32)) =
      List.replicate (m + 2 - n) 0 := by
  have hlen : m + 2 - n = (m - n) + 2 := by omega
  rw [List.ofFn_const, hlen]
  rfl

/-- A record, decoded by the layout of its suite. -/
theorem decodeTr_buildTr {dir : MsecDir} {ccw rnd : BitVec 32}
    (hccw : popCcw dir tr.ccw = .ok ccw) (hupd : dir = .egress → SaUpdateFits tr.saUpdate) :
    decodeTr dir tr.ccw.caType
        (rawWords (buildTr dir ccw (ctxIdOf rnd tr.saIndex) (fillTr aesEncrypt tr))) =
      specTr aesEncrypt dir tr (builtSeq dir tr) := by
  have hca := (popCcw_ok_iff.mp ⟨ccw, hccw⟩).1
  obtain ⟨hCa, hSn, hAn⟩ := namesSuite_popCcw hccw
  have hkey := (leBytes_keyWords tr.cp _ (nrOfKeyWords_le tr.ccw.caType)).trans
    (congrArg (List.take · (List.ofFn tr.cp.key)) (four_mul_nrOfKeyWords tr.ccw.caType))
  have hhkey := leBytes_popHkey (fillTr aesEncrypt tr).cp
  have hsa := leByte_ctxIdOf rnd tr.saIndex
  have hiv := congrArg some (leBytes_popIv tr.cp)
  have hsalt := congrArg some (leBytes_popCsalt tr.cp)
  cases dir with
  | ingress =>
    rw [buildTr, buildIngTr_words _ _ hca]
    by_cases hxpn : isXpn tr.ccw.caType
    · simp only [hxpn, if_true, decodeTr, specTr, builtSeq, nrOfReserved]
      rw [← List.append_nil (IngTr64bpn.words _), IngTr64bpn.overlay_words]
      have hmask := congrArg some (ingXpnMask_eq tr.pnRc)
      refine TrView.ext hCa hSn rfl hsa hkey hhkey rfl hmask rfl hsalt rfl ?_
      exact List.ofFn_const _ _
    · simp only [hxpn, Bool.false_eq_true, if_false, decodeTr, specTr, builtSeq, nrOfReserved]
      rw [← List.append_nil (IngTr32bpn.words _), IngTr32bpn.overlay_words]
      refine TrView.ext hCa hSn rfl hsa hkey hhkey rfl rfl hiv rfl rfl ?_
      exact List.ofFn_const _ _
  | egress =>
    have hAn := congrArg some (hAn rfl)
    have hupd := congrArg some (saUpdateView_popSaUpdCtrl (hupd rfl))
    rw [buildTr, buildEgrTr_words _ _ hca]
    by_cases hxpn : isXpn tr.ccw.caType
    · simp only [hxpn, if_true, decodeTr, specTr, builtSeq, nrOfReserved]
      rw [← List.append_nil (EgrTr64bpn.words _), EgrTr64bpn.overlay_words]
      refine TrView.ext hCa hSn hAn hsa hkey hhkey rfl rfl hiv hsalt hupd ?_
      exact reserved_append 8 (nrOfKeyWords_le _)
    · simp only [hxpn, Bool.false_eq_true, if_false, decodeTr, specTr, builtSeq, nrOfReserved]
      rw [← List.append_nil (EgrTr32bpn.words _), EgrTr32bpn.overlay_words]
      refine TrView.ext hCa hSn hAn hsa hkey hhkey rfl rfl hiv rfl hupd ?_
      exact reserved_append 12 (Nat.le_trans (nrOfKeyWords_le _) (by decide))

end Built

/-! ## Configured, then read back -/

section ReadBack
variable {aesEncrypt : AesEncrypt} {dir : MsecDir} {phy : MsecDevice} {inTr : TransformRec}

/-- The raw words `get_*_tr` returns for the record `config_*_tr` has just been given. -/
def readBack (aesEncrypt : AesEncrypt) (dir : MsecDir) (phy : MsecDevice) (inTr : TransformRec)
    (s : Regs) : Except Errno (Nat → BitVec 32) :=
  ((getTr dir phy inTr.saIndex).exec lockedMem
    ((configTr aesEncrypt dir phy inTr).exec lockedMem s).2).1

theorem readBack_eq {ccw : BitVec 32} (hsa : inTr.saIndex < phy.nrOfSas)
    (hlow : inTr.saIndex.toNat < 128) (hccw : popCcw dir inTr.ccw = .ok ccw) {s : Regs}
    (hheap : s.heapOk) :
    readBack aesEncrypt dir phy inTr s = .ok (rawWords
      (buildTr dir ccw (ctxIdOf (s.rng 0) inTr.saIndex) (fillTr aesEncrypt inTr))) := by
  have hlen := length_buildTr dir ccw (ctxIdOf (s.rng 0) inTr.saIndex) (fillTr aesEncrypt inTr)
  rw [readBack, exec_configTr hsa, exec_getTr hsa, afterConfigTr, hccw,
    (trReadAddr_eq_trWriteAddr_iff dir inTr.saIndex).mpr hlow]
  simp only [hheap, if_true]
  rw [← hlen, Mem.loadWords_storeWords]

theorem builtSeq_eq (h : ¬LowHalfLost dir inTr) : builtSeq dir inTr = expectedSeq dir inTr := by
  simp only [builtSeq, expectedSeq, givenSeq, configuredPn_eq_zero_iff]
  cases dir with
  | egress => simp [seqLow]
  | ingress =>
    simp only [seqLow, ingSeq0, true_and]
    by_cases hseq0 : inTr.pnRc.seq0 = 0#32
    · by_cases hxpn : isXpn inTr.ccw.caType
      · have hseq1 : inTr.pnRc.seq1 = 0#32 := by
          by_contra hne
          exact h ⟨rfl, hxpn, hseq0, hne⟩
        simp [hseq0, hxpn, hseq1]
      · simp [hseq0, hxpn]
    · simp [hseq0]

/-- **Transform-record content.** What is read back decodes to the parameters; an ingress record
whose packet number is zero as a whole holds 1. -/
theorem decodeTr_readBack (hsa : inTr.saIndex < phy.nrOfSas) (hlow : inTr.saIndex.toNat < 128)
    (hca : ∀ v, inTr.ccw.caType ≠ .other v) (han : inTr.ccw.an.toNat < 4)
    (hupd : SaUpdateFits inTr.saUpdate) (hseq : ¬LowHalfLost dir inTr) {s : Regs}
    (hheap : s.heapOk) :
    ∃ raw, readBack aesEncrypt dir phy inTr s = .ok raw ∧
      decodeTr dir inTr.ccw.caType raw = specTr aesEncrypt dir inTr (expectedSeq dir inTr) := by
  obtain ⟨ccw, hccw⟩ := (popCcw_ok_iff).mpr ⟨hca, fun _ => han⟩
  refine ⟨_, readBack_eq hsa hlow hccw hheap, ?_⟩
  rw [decodeTr_buildTr hccw fun _ => hupd, builtSeq_eq hseq]

/-- An egress record of SA 5 with a 256-bit XPN suite. -/
def egrXpnTr : TransformRec :=
  { xpnTr with saIndex := 5, ccw := ⟨.gcmAesXpn256, 3, .sn64Bit⟩, saUpdate := ⟨7, 1, 1, 9, 1⟩ }

theorem decodeTr_readBack_egrXpnTr :
    ∃ raw, readBack (fun _ _ _ => 0) .egress ⟨64⟩ egrXpnTr (zeroRegs true) = .ok raw ∧
      decodeTr .egress egrXpnTr.ccw.caType raw =
        specTr (fun _ _ _ => 0) .egress egrXpnTr (expectedSeq .egress egrXpnTr) := by
  have hsa : egrXpnTr.saIndex < (⟨64⟩ : MsecDevice).nrOfSas := by decide
  have hlow : egrXpnTr.saIndex.toNat < 128 := by decide
  have hca : ∀ v, egrXpnTr.ccw.caType ≠ .other v := fun _ => nofun
  have han : egrXpnTr.ccw.an.toNat < 4 := by decide
  have hupd : SaUpdateFits egrXpnTr.saUpdate :=
    ⟨by decide, by decide, by decide, by decide, by decide⟩
  have hseq : ¬LowHalfLost .egress egrXpnTr := fun h => nomatch h.1
  exact decodeTr_readBack hsa hlow hca han hupd hseq rfl

end ReadBack

/-- An ingress record with packet number 0. -/
def zeroPnTr : TransformRec := { xpnTr with ccw := ⟨.gcmAes128, 0, .sn32Bit⟩ }

/-- The sequence word of an ingress record is not 0 when the parameters say 0. -/
theorem not_decodeTr_givenSeq : ¬ ∀ (aesEncrypt : AesEncrypt) (dir : MsecDir) (phy : MsecDevice)
    (inTr : TransformRec), inTr.saIndex < phy.nrOfSas → inTr.saIndex.toNat < 128 →
      (∀ v, inTr.ccw.caType ≠ .other v) → inTr.ccw.an.toNat < 4 → SaUpdateFits inTr.saUpdate →
        ∀ s : Regs, s.heapOk → ∃ raw, readBack aesEncrypt dir phy inTr s = .ok raw ∧
          decodeTr dir inTr.ccw.caType raw = specTr aesEncrypt dir inTr (givenSeq inTr) := by
  intro h
  obtain ⟨raw, hraw, hdecode⟩ := h (fun _ _ _ => 0) .ingress ⟨1⟩ zeroPnTr (by decide) (by decide)
    (fun _ => nofun) (by decide) ⟨by decide, by decide, by decide, by decide, by decide⟩
    (zeroRegs true) rfl
  have hccw : popCcw .ingress zeroPnTr.ccw = .ok 0xD24BE06F := rfl
  rw [readBack_eq (by decide) (by decide) hccw rfl] at hraw
  rw [← Except.ok.inj hraw, decodeTr_buildTr hccw nofun] at hdecode
  have hseq : builtSeq .ingress zeroPnTr = givenSeq zeroPnTr := congrArg TrView.seq hdecode
  exact absurd hseq (by decide)

end Gpy2xx
