import MxlUtils.Gphy.Msec.Content

/- Which parameters reach a transform record. Two parameter sets that agree on what their
   suite and direction use lead to the same runs of `config_*_tr`, up to the random part of
   the context id. -/
namespace Gpy2xx
open Effect Effect.Lock Bits

/-- Two parameter sets agree on what the suite and the direction use. -/
structure AgreeOnRelevant (dir : MsecDir) (inTr inTr' : TransformRec) : Prop where
  saIndex : inTr.saIndex = inTr'.saIndex
  caType : inTr.ccw.caType = inTr'.ccw.caType
  key : ∀ i : Fin 32, i.val < keyLen inTr.ccw.caType → inTr.cp.key i = inTr'.cp.key i
  sci : ¬(dir = .ingress ∧ isXpn inTr.ccw.caType) → inTr.cp.sci = inTr'.cp.sci
  cSalt : isXpn inTr.ccw.caType → inTr.cp.cSalt = inTr'.cp.cSalt
  seq0 : inTr.pnRc.seq0 = inTr'.pnRc.seq0
  seq1 : isXpn inTr.ccw.caType → inTr.pnRc.seq1 = inTr'.pnRc.seq1
  mask : dir = .ingress → inTr.pnRc.mask = inTr'.pnRc.mask
  an : dir = .egress → inTr.ccw.an = inTr'.ccw.an
  saUpdate : dir = .egress → inTr.saUpdate = inTr'.saUpdate

/-- An access of a run, with `rnd` as the random word. -/
def withRandom (dir : MsecDir) (saIndex : BitVec 8) (rnd : BitVec 32) : Event regSig → Event regSig
  | ⟨.rand, _⟩ => ⟨.rand, rnd⟩
  | ⟨.mboxWrite32 a w, r⟩ =>
    if a = trWriteAddr dir saIndex + 4 then ⟨.mboxWrite32 a (ctxIdOf rnd saIndex), r⟩ else ⟨.mboxWrite32 a w, r⟩
  | e => e

/-- What `config_*_tr` does with one parameter set it does with the other, whatever the random words. -/
def SameWrites (aesEncrypt : AesEncrypt) (dir : MsecDir) (phy : MsecDevice) (inTr inTr' : TransformRec) : Prop :=
  ∀ rnd t r, (configTr aesEncrypt dir phy inTr).Runs t r →
    ∃ t' r', (configTr aesEncrypt dir phy inTr').Runs t' r' ∧
      accesses t' = (accesses t).map (withRandom dir inTr.saIndex rnd)

/-! ## Records -/

section Records
variable {aesEncrypt : AesEncrypt} {dir : MsecDir} {inTr inTr' : TransformRec} {ccw ctxId : BitVec 32}

theorem leWords_congr {n m : Nat} {b b' : Bytes (4 * n)} (h : ∀ i : Fin (4 * n), i.val < 4 * m → b i = b' i) {i : Fin n}
    (hi : i.val < m) : leWords b i = leWords b' i := by
  rw [leWords, leWords, h _ (by simp only; omega), h _ (by simp only; omega), h _ (by simp only; omega),
    h _ (by simp only; omega)]

/-- The key words of a record come from the bytes of its suite. -/
theorem keyWords_congr (h : AgreeOnRelevant dir inTr inTr') (hle : nrOfKeyWords inTr.ccw.caType ≤ 8) :
    keyWords inTr.cp (nrOfKeyWords inTr.ccw.caType) hle = keyWords inTr'.cp (nrOfKeyWords inTr.ccw.caType) hle := by
  funext i
  refine leWords_congr (fun j hj => h.key j ?_) i.isLt
  rwa [four_mul_nrOfKeyWords] at hj

/-- So does the key that the hash key is derived from. -/
theorem take_key_congr (h : AgreeOnRelevant dir inTr inTr') :
    (List.ofFn inTr.cp.key).take (keyLen inTr.ccw.caType) = (List.ofFn inTr'.cp.key).take (keyLen inTr.ccw.caType) := by
  apply List.ext_getElem
  · simp
  · intro i hi hi'
    rw [List.length_take] at hi
    simp only [List.getElem_take, List.getElem_ofFn]
    exact h.key _ (by simp only; omega)

theorem popHkey_congr (h : AgreeOnRelevant dir inTr inTr') :
    popHkey (fillTr aesEncrypt inTr).cp = popHkey (fillTr aesEncrypt inTr').cp := by
  simp only [popHkey, fillTr]
  rw [take_key_congr h, h.caType]

section Builders
variable {tr tr' : TransformRec} {n : Nat} {hn : n ≤ 8}

theorem ingTr32bpn_congr (hkey : keyWords tr.cp n hn = keyWords tr'.cp n hn)
    (hhkey : popHkey tr.cp = popHkey tr'.cp) (hseq0 : tr.pnRc.seq0 = tr'.pnRc.seq0)
    (hmask : tr.pnRc.mask = tr'.pnRc.mask) (hsci : tr.cp.sci = tr'.cp.sci) :
    (buildIngTr32bpn ccw ctxId tr n hn).words = (buildIngTr32bpn ccw ctxId tr' n hn).words := by
  simp only [buildIngTr32bpn, ingSeq0, popIv, hkey, hhkey, hseq0, hmask, hsci]

theorem ingTr64bpn_congr (hkey : keyWords tr.cp n hn = keyWords tr'.cp n hn)
    (hhkey : popHkey tr.cp = popHkey tr'.cp) (hseq0 : tr.pnRc.seq0 = tr'.pnRc.seq0)
    (hseq1 : tr.pnRc.seq1 = tr'.pnRc.seq1) (hmask : tr.pnRc.mask = tr'.pnRc.mask)
    (hsalt : tr.cp.cSalt = tr'.cp.cSalt) :
    (buildIngTr64bpn ccw ctxId tr n hn).words = (buildIngTr64bpn ccw ctxId tr' n hn).words := by
  simp only [buildIngTr64bpn, ingSeq0, ingXpnMask, popCsalt, hkey, hhkey, hseq0, hseq1, hmask, hsalt]

theorem egrTr32bpn_congr (hkey : keyWords tr.cp n hn = keyWords tr'.cp n hn)
    (hhkey : popHkey tr.cp = popHkey tr'.cp) (hseq0 : tr.pnRc.seq0 = tr'.pnRc.seq0)
    (hsci : tr.cp.sci = tr'.cp.sci) (hupd : tr.saUpdate = tr'.saUpdate) :
    (buildEgrTr32bpn ccw ctxId tr n hn).words = (buildEgrTr32bpn ccw ctxId tr' n hn).words := by
  simp only [buildEgrTr32bpn, popIv, hkey, hhkey, hseq0, hsci, hupd]

theorem egrTr64bpn_congr (hkey : keyWords tr.cp n hn = keyWords tr'.cp n hn)
    (hhkey : popHkey tr.cp = popHkey tr'.cp) (hseq0 : tr.pnRc.seq0 = tr'.pnRc.seq0)
    (hseq1 : tr.pnRc.seq1 = tr'.pnRc.seq1) (hsalt : tr.cp.cSalt = tr'.cp.cSalt)
    (hsci : tr.cp.sci = tr'.cp.sci) (hupd : tr.saUpdate = tr'.saUpdate) :
    (buildEgrTr64bpn ccw ctxId tr n hn).words = (buildEgrTr64bpn ccw ctxId tr' n hn).words := by
  simp only [buildEgrTr64bpn, popIv, popCsalt, hkey, hhkey, hseq0, hseq1, hsalt, hsci, hupd]

end Builders

/-- Both parameter sets give the same record. -/
theorem buildTr_congr (h : AgreeOnRelevant dir inTr inTr') (hca : ∀ v, inTr.ccw.caType ≠ .other v) :
    buildTr dir ccw ctxId (fillTr aesEncrypt inTr) = buildTr dir ccw ctxId (fillTr aesEncrypt inTr') := by
  have hca' : ∀ v, inTr'.ccw.caType ≠ .other v := h.caType ▸ hca
  have hkey := keyWords_congr h (nrOfKeyWords_le _)
  have hhkey : popHkey (fillTr aesEncrypt inTr).cp = popHkey (fillTr aesEncrypt inTr').cp := popHkey_congr h
  cases dir with
  | ingress =>
    rw [buildTr, buildIngTr_words ccw ctxId hca, buildIngTr_words ccw ctxId hca', ← h.caType]
    by_cases hxpn : isXpn inTr.ccw.caType
    · rw [if_pos hxpn, if_pos hxpn]
      exact ingTr64bpn_congr hkey hhkey h.seq0 (h.seq1 hxpn) (h.mask rfl) (h.cSalt hxpn)
    · rw [if_neg hxpn, if_neg hxpn]
      exact ingTr32bpn_congr hkey hhkey h.seq0 (h.mask rfl) (h.sci fun hboth => hxpn hboth.2)
  | egress =>
    have hsci := h.sci fun hboth => by cases hboth.1
    rw [buildTr, buildEgrTr_words ccw ctxId hca, buildEgrTr_words ccw ctxId hca', ← h.caType]
    by_cases hxpn : isXpn inTr.ccw.caType
    · rw [if_pos hxpn, if_pos hxpn]
      exact egrTr64bpn_congr hkey hhkey h.seq0 (h.seq1 hxpn) (h.cSalt hxpn) hsci (h.saUpdate rfl)
    · rw [if_neg hxpn, if_neg hxpn]
      exact egrTr32bpn_congr hkey hhkey h.seq0 hsci (h.saUpdate rfl)

end Records

/-! ## Runs -/

section Runs
variable {aesEncrypt : AesEncrypt} {dir : MsecDir} {phy : MsecDevice} {inTr inTr' : TransformRec}

theorem popCcw_congr (h : AgreeOnRelevant dir inTr inTr') : popCcw dir inTr.ccw = popCcw dir inTr'.ccw := by
  rw [popCcw, popCcw, h.caType]
  cases dir with
  | ingress => rfl
  | egress => rw [h.an rfl]

/-- The two calls have the same body. -/
theorem configTrBody_congr (h : AgreeOnRelevant dir inTr inTr') :
    configTrBody aesEncrypt dir inTr = configTrBody aesEncrypt dir inTr' := by
  rw [configTrBody, configTrBody, ← popCcw_congr h, ← h.saIndex]
  cases hccw : popCcw dir inTr.ccw with
  | error e => rfl
  | ok ccw =>
    have hca := (popCcw_ok_iff.mp ⟨ccw, hccw⟩).1
    simp only [buildTr_congr h hca]

/-- The context id is the second word of a record, and the only one that it reaches. -/
theorem buildTr_ctxId (ccw ctxId : BitVec 32) (tr : TransformRec) :
    buildTr dir ccw ctxId tr = ccw :: ctxId :: (buildTr dir ccw 0 tr).drop 2 := by
  cases dir with
  | ingress =>
    simp only [buildTr, buildIngTr]
    split_ifs <;> rfl
  | egress =>
    simp only [buildTr, buildEgrTr]
    split_ifs <;> rfl

/-- Another random word leads to the same run, but for the context id. -/
theorem runs_withRandom {ccw rnd' : BitVec 32} {t : RegTrace} {r : Except Errno Unit} (rnd : BitVec 32)
    (h : (mboxWriteWords (trWriteAddr dir inTr.saIndex)
      (buildTr dir ccw (ctxIdOf rnd' inTr.saIndex) (fillTr aesEncrypt inTr))).Runs t r) :
    (mboxWriteWords (trWriteAddr dir inTr.saIndex)
      (buildTr dir ccw (ctxIdOf rnd inTr.saIndex) (fillTr aesEncrypt inTr))).Runs
        (t.map (withRandom dir inTr.saIndex rnd)) r := by
  rw [buildTr_ctxId] at h ⊢
  generalize (buildTr dir ccw 0 (fillTr aesEncrypt inTr)).drop 2 = rest at h ⊢
  have hfirst : trWriteAddr dir inTr.saIndex ≠ trWriteAddr dir inTr.saIndex + 4 := by omega
  rcases (runs_phyMboxWrite_bind).mp h with ⟨e, rfl, rfl⟩ | ⟨u, t₁, rfl, h₁⟩
  · refine (runs_phyMboxWrite_bind).mpr (.inl ⟨e, ?_, rfl⟩)
    simp [withRandom, hfirst]
  · refine (runs_phyMboxWrite_bind).mpr (.inr ⟨u, t₁.map (withRandom dir inTr.saIndex rnd), ?_, ?_⟩)
    · simp [withRandom, hfirst]
    · rcases (runs_phyMboxWrite_bind).mp h₁ with ⟨e, rfl, rfl⟩ | ⟨u', t₂, rfl, h₂⟩
      · exact (runs_phyMboxWrite_bind).mpr (.inl ⟨e, by simp [withRandom], rfl⟩)
      · refine (runs_phyMboxWrite_bind).mpr (.inr ⟨u', t₂.map (withRandom dir inTr.saIndex rnd), ?_, ?_⟩)
        · simp [withRandom]
        · -- the words behind the context id have other addresses
          have hrest : (mboxWriteWords (trWriteAddr dir inTr.saIndex + 4 + 4) rest).All fun (o : RegOp) =>
              ∃ b w, o = .mboxWrite32 b w ∧ b ≠ trWriteAddr dir inTr.saIndex + 4 :=
            all_mboxWriteWords fun b hb w _ => by
              obtain ⟨k, -, rfl⟩ := (mem_tableAddrs).mp hb
              exact ⟨_, w, rfl, by omega⟩
          have hkeep : ∀ e ∈ t₂, withRandom dir inTr.saIndex rnd e = e := by
            intro e he
            obtain ⟨o, c⟩ := e
            obtain ⟨b, w, rfl, hb⟩ := Prog.Runs.all h₂ hrest _ he
            simp [withRandom, hb]
          rwa [List.map_congr_left hkeep, List.map_id']

theorem runs_configTrBody_withRandom {t : RegTrace} {r : Except Errno Unit} (rnd : BitVec 32)
    (h : (configTrBody aesEncrypt dir inTr).Runs t r) :
    (configTrBody aesEncrypt dir inTr).Runs (t.map (withRandom dir inTr.saIndex rnd)) r := by
  rcases runs_configTrBody h with ⟨e, -, rfl, -⟩ | ⟨ccw, -, rfl, -⟩ | ⟨ccw, rnd', t', hccw, rfl, hw⟩
  · exact h
  · exact h
  · refine (Fallible.runs_bind).mpr (.inr ⟨[], ccw, _, rfl, (Fallible.runs_ofExcept).mpr ⟨rfl, hccw.symm⟩, ?_⟩)
    exact (runs_osAlloc_bind).mpr ⟨true, _, rfl, (runs_rand_bind).mpr ⟨rnd, _, rfl, runs_withRandom rnd hw⟩⟩

end Runs

/-- **Relevant parameters.** Fields that the suite and the direction do not use have no effect on the
registers: `hkey`, `sn_type`, key bytes past the suite's, and the rest. -/
theorem sameWrites_of_agree (aesEncrypt : AesEncrypt) (dir : MsecDir) (phy : MsecDevice) (inTr inTr' : TransformRec)
    (h : AgreeOnRelevant dir inTr inTr') : SameWrites aesEncrypt dir phy inTr inTr' := by
  intro rnd t r hrun
  rcases runs_configTr hrun with ⟨hge, rfl, -⟩ | ⟨hlt, -, r₁, hbody⟩
  · refine ⟨[], .error EINVAL, ?_, rfl⟩
    rw [configTr, if_pos (h.saIndex ▸ hge)]
    exact ⟨rfl, rfl⟩
  · have hother := runs_configTrBody_withRandom rnd hbody
    rw [configTrBody_congr h] at hother
    obtain ⟨t', hlocked, hacc⟩ := runs_locked_of_body (Fallible.runs_attempt_bind.mpr
      ⟨_, r₁, [], (List.append_nil _).symm, hother, (Fallible.runs_pure).mpr ⟨rfl, rfl⟩⟩ :
      ((configTrBody aesEncrypt dir inTr').attempt >>= fun _ => pure (configTrParams aesEncrypt dir inTr')).Runs _ _)
    refine ⟨t', .ok (configTrParams aesEncrypt dir inTr'), ?_, hacc⟩
    rw [configTr, if_neg (h.saIndex ▸ BitVec.not_le.mpr hlt)]
    exact hlocked

/-- Two ingress XPN parameter sets that differ in the fields the suite does not use. -/
def xpnTr' : TransformRec :=
  { xpnTr with
    ccw := { xpnTr.ccw with an := 3, snType := .sn32Bit }
    cp := { xpnTr.cp with hkey := fun _ => 0xFF, sci := fun _ => 0xAA }
    saUpdate := ⟨7, 1, 1, 9, 1⟩ }

/-- AES-128 of the zero block under the zero key. -/
def aesZeroKey : AesEncrypt := fun _ _ =>
  ![0x66, 0xE9, 0x4B, 0xD4, 0xEF, 0x8A, 0x2C, 0x3B, 0x88, 0x4C, 0xFA, 0x59, 0xCA, 0x34, 0x2B, 0x2E]

theorem sameWrites_xpnTr : SameWrites aesZeroKey .ingress ⟨32⟩ xpnTr xpnTr' :=
  sameWrites_of_agree aesZeroKey .ingress ⟨32⟩ xpnTr xpnTr'
    ⟨rfl, rfl, fun _ _ => rfl, fun h => absurd ⟨rfl, rfl⟩ h, fun _ => rfl, rfl, fun _ => rfl, fun _ => rfl,
      nofun, nofun⟩

end Gpy2xx
