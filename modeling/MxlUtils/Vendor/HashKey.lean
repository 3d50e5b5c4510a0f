import MxlUtils.Gphy.Msec.SaUpdate
import MxlUtils.Vendor.AesCipher

/- The hash key of a transform record. GCM authenticates with the encryption of the zero block;
   the API computes it with `AES_Encrypt` from the key bytes of the suite and stores it in the
   record beside the key. Both are still in the copy of the record that goes back to the heap. -/
namespace Gpy2xx
open Effect Effect.Lock Bits
open Bits.Mem (rawWords)

/-- `AES_Encrypt` as the API calls it: into a buffer that holds `output`, with a schedule on the stack. -/
def userAes (output : Bytes 16) (stack : Aes.Schedule) : AesEncrypt := fun input key =>
  Aes.AESEncrypt input output stack (fun i => key.getD i 0) key.length

/-- The key bytes of the suite. -/
def suiteKey (tr : TransformRec) : List (BitVec 8) := (List.ofFn tr.cp.key).take (keyLen tr.ccw.caType)

/-- The zero block, encrypted with the key of the suite. -/
def zeroEncrypted (tr : TransformRec) : Bytes 16 :=
  Rijndael.encrypt Aes.box (keyLen tr.ccw.caType / 4) (fun i => (suiteKey tr).getD i 0) fun _ => 0

theorem userAes_suiteKey (output : Bytes 16) (stack : Aes.Schedule) (tr : TransformRec) :
    userAes output stack (fun _ => 0) (suiteKey tr) = zeroEncrypted tr := by
  have hlen : (suiteKey tr).length = keyLen tr.ccw.caType := by
    rw [suiteKey, List.length_take, List.length_ofFn, keyLen]
    split_ifs <;> rfl
  have hvalid : keyLen tr.ccw.caType ∈ [16, 24, 32] := by
    rw [keyLen]
    split_ifs <;> decide
  rw [userAes, hlen, Aes.AESEncrypt_of_length _ _ _ _ hvalid, zeroEncrypted]

section Configured
variable {output : Bytes 16} {stack : Aes.Schedule} {dir : MsecDir} {phy : MsecDevice} {inTr : TransformRec}

/-- The keys of a record do not depend on its other fields. -/
theorem keys_decodeTr_buildTr {aesEncrypt : AesEncrypt} {ccw ctxId : BitVec 32}
    (hca : ∀ v, inTr.ccw.caType ≠ .other v) :
    (decodeTr dir inTr.ccw.caType (rawWords (buildTr dir ccw ctxId (fillTr aesEncrypt inTr)))).key = suiteKey inTr ∧
    (decodeTr dir inTr.ccw.caType (rawWords (buildTr dir ccw ctxId (fillTr aesEncrypt inTr)))).hkey =
      aesEncrypt (fun _ => 0) (suiteKey inTr) := by
  have hkey := (leBytes_keyWords inTr.cp _ (nrOfKeyWords_le inTr.ccw.caType)).trans
    (congrArg (List.take · (List.ofFn inTr.cp.key)) (four_mul_nrOfKeyWords inTr.ccw.caType))
  have hhkey := leBytes_popHkey (fillTr aesEncrypt inTr).cp
  cases dir with
  | ingress =>
    rw [buildTr, buildIngTr_words _ _ hca]
    by_cases hxpn : isXpn inTr.ccw.caType
    · simp only [hxpn, if_true, decodeTr]
      rw [← List.append_nil (IngTr64bpn.words _), IngTr64bpn.overlay_words]
      exact ⟨hkey, hhkey⟩
    · simp only [hxpn, Bool.false_eq_true, if_false, decodeTr]
      rw [← List.append_nil (IngTr32bpn.words _), IngTr32bpn.overlay_words]
      exact ⟨hkey, hhkey⟩
  | egress =>
    rw [buildTr, buildEgrTr_words _ _ hca]
    by_cases hxpn : isXpn inTr.ccw.caType
    · simp only [hxpn, if_true, decodeTr]
      rw [← List.append_nil (EgrTr64bpn.words _), EgrTr64bpn.overlay_words]
      exact ⟨hkey, hhkey⟩
    · simp only [hxpn, Bool.false_eq_true, if_false, decodeTr]
      rw [← List.append_nil (EgrTr32bpn.words _), EgrTr32bpn.overlay_words]
      exact ⟨hkey, hhkey⟩

/-- **The hash key.** For every SA, both directions and every prior content of the registers: a record that is built
holds the key bytes of its suite and, as its hash key, the zero block encrypted with them as in FIPS 197, and the
caller gets the same hash key. Otherwise the registers stay as they are. -/
theorem hashKey_configured (output : Bytes 16) (stack : Aes.Schedule) (dir : MsecDir) (phy : MsecDevice)
    (inTr : TransformRec) (s : Regs) :
    (Built dir phy inTr s →
      (storedRecord dir inTr ((configTr (userAes output stack) dir phy inTr).exec lockedMem s).2).key = suiteKey inTr ∧
      (storedRecord dir inTr ((configTr (userAes output stack) dir phy inTr).exec lockedMem s).2).hkey = zeroEncrypted inTr ∧
      ∃ params, ((configTr (userAes output stack) dir phy inTr).exec lockedMem s).1 = .ok params ∧
        params.cp.hkey = zeroEncrypted inTr) ∧
    (¬Built dir phy inTr s → ((configTr (userAes output stack) dir phy inTr).exec lockedMem s).2 = s) := by
  constructor
  · intro h
    obtain ⟨ccw, hccw⟩ := popCcw_ok_iff.mpr ⟨h.suite, h.an⟩
    have hlen := length_buildTr dir ccw (ctxIdOf (s.rng 0) inTr.saIndex) (fillTr (userAes output stack) inTr)
    obtain ⟨hkey, hhkey⟩ :=
      @keys_decodeTr_buildTr dir inTr (userAes output stack) ccw (ctxIdOf (s.rng 0) inTr.saIndex) h.suite
    rw [userAes_suiteKey] at hhkey
    rw [exec_configTr h.sa, afterConfigTr, hccw]
    simp only [h.heap, if_true, storedRecord]
    rw [← hlen, Mem.loadWords_storeWords]
    refine ⟨hkey, hhkey, configTrParams (userAes output stack) dir inTr, rfl, ?_⟩
    rw [configTrParams, hccw]
    exact userAes_suiteKey output stack inTr
  · intro h
    by_cases hsa : inTr.saIndex < phy.nrOfSas
    · rw [exec_configTr hsa, afterConfigTr]
      cases hccw : popCcw dir inTr.ccw with
      | error e => rfl
      | ok ccw =>
        obtain ⟨hsuite, han⟩ := popCcw_ok_iff.mp ⟨ccw, hccw⟩
        have hheap : ¬s.heapOk = true := fun hheap => h ⟨hsa, hsuite, han, hheap⟩
        exact if_neg hheap
    · rw [configTr, if_pos (BitVec.not_lt.mp hsa)]
      rfl

end Configured

/-! ## The freed record -/

/-- The record on the heap after `memset(_tr, 0, sizeof(*_tr))`; `_tr` points to words, so the size is that of one. -/
def scrubbed (tr : List (BitVec 32)) : List (BitVec 32) := tr.set 0 0

/-- `config_*_tr` up to `END`, with the record that is freed there. -/
def freedTr (aesEncrypt : AesEncrypt) (dir : MsecDir) (inTr : TransformRec) : Api (Option (List (BitVec 32))) :=
  match popCcw dir inTr.ccw with
  | .error _ => pure none
  | .ok ccw => do
    let tr ← osAlloc
    if !tr then pure none
    else do
      let rnd ← rand
      let record := buildTr dir ccw (ctxIdOf rnd inTr.saIndex) (fillTr aesEncrypt inTr)
      let _ ← (mboxWriteWords (trWriteAddr dir inTr.saIndex) record).attempt
      pure (some (scrubbed record))

section Freed
variable {aesEncrypt : AesEncrypt} {dir : MsecDir} {inTr : TransformRec} {t : RegTrace}

/-- Whether the record is freed depends on the control word and the allocation only; the writes may fail. -/
theorem runs_freedTr {r : Except Errno (Option (List (BitVec 32)))} : (freedTr aesEncrypt dir inTr).Runs t r ↔
    (∃ e, popCcw dir inTr.ccw = .error e ∧ t = [] ∧ r = .ok none) ∨
    (∃ ccw, popCcw dir inTr.ccw = .ok ccw ∧ t = [⟨.osAlloc, false⟩] ∧ r = .ok none) ∨
    (∃ ccw rnd t' w, popCcw dir inTr.ccw = .ok ccw ∧ t = ⟨.osAlloc, true⟩ :: ⟨.rand, rnd⟩ :: t' ∧
      (mboxWriteWords (trWriteAddr dir inTr.saIndex)
        (buildTr dir ccw (ctxIdOf rnd inTr.saIndex) (fillTr aesEncrypt inTr))).Runs t' w ∧
      r = .ok (some (scrubbed (buildTr dir ccw (ctxIdOf rnd inTr.saIndex) (fillTr aesEncrypt inTr))))) := by
  rw [freedTr]
  cases hccw : popCcw dir inTr.ccw with
  | error e => simp [Fallible.runs_pure]
  | ok ccw =>
    simp only [runs_osAlloc_bind]
    constructor
    · intro h
      obtain ⟨b, t₁, rfl, h⟩ := h
      cases b with
      | false =>
        obtain ⟨rfl, rfl⟩ := Fallible.runs_pure.mp h
        exact .inr (.inl ⟨ccw, rfl, rfl, rfl⟩)
      | true =>
        obtain ⟨rnd, t₂, rfl, hwrites⟩ := runs_rand_bind.mp h
        obtain ⟨t₃, w, t₄, rfl, hw, hend⟩ := Fallible.runs_attempt_bind.mp hwrites
        obtain ⟨rfl, rfl⟩ := Fallible.runs_pure.mp hend
        refine .inr (.inr ⟨ccw, rnd, t₃, w, rfl, ?_, hw, rfl⟩)
        rw [List.append_nil]
    · intro h
      obtain ⟨e, he, -⟩ | ⟨_, -, rfl, rfl⟩ | ⟨ccw', rnd, t', w, hccw', rfl, hw, rfl⟩ := h
      · cases he
      · exact ⟨false, [], rfl, Fallible.runs_pure.mpr ⟨rfl, rfl⟩⟩
      · cases hccw'
        refine ⟨true, _, rfl, runs_rand_bind.mpr ⟨rnd, t', rfl, ?_⟩⟩
        exact Fallible.runs_attempt_bind.mpr ⟨t', w, [], (List.append_nil t').symm, hw, rfl, rfl⟩

/-- The same accesses as those of the call. -/
theorem runs_freedTr_iff : (∃ r, (configTrBody aesEncrypt dir inTr).Runs t r) ↔
    ∃ freed, (freedTr aesEncrypt dir inTr).Runs t (.ok freed) := by
  constructor
  · intro h
    obtain ⟨r, h⟩ := h
    obtain ⟨e, he, rfl, -⟩ | ⟨ccw, hccw, rfl, -⟩ | ⟨ccw, rnd, t', hccw, rfl, hw⟩ := runs_configTrBody h
    · exact ⟨none, runs_freedTr.mpr (.inl ⟨e, he, rfl, rfl⟩)⟩
    · exact ⟨none, runs_freedTr.mpr (.inr (.inl ⟨ccw, hccw, rfl, rfl⟩))⟩
    · exact ⟨_, runs_freedTr.mpr (.inr (.inr ⟨ccw, rnd, t', r, hccw, rfl, hw, rfl⟩))⟩
  · intro h
    obtain ⟨freed, h⟩ := h
    rw [configTrBody]
    obtain ⟨e, he, rfl, -⟩ | ⟨ccw, hccw, rfl, -⟩ | ⟨ccw, rnd, t', w, hccw, rfl, hw, -⟩ := runs_freedTr.mp h
    · exact ⟨.error e, Fallible.runs_bind.mpr (.inl ⟨e, Fallible.runs_ofExcept.mpr ⟨rfl, he.symm⟩, rfl⟩)⟩
    · refine ⟨.error ENOMEM, Fallible.runs_bind.mpr (.inr ⟨[], ccw, _, rfl, ⟨rfl, hccw.symm⟩, ?_⟩)⟩
      exact runs_osAlloc_bind.mpr ⟨false, [], rfl, rfl, rfl⟩
    · refine ⟨w, Fallible.runs_bind.mpr (.inr ⟨[], ccw, _, rfl, ⟨rfl, hccw.symm⟩, ?_⟩)⟩
      exact runs_osAlloc_bind.mpr ⟨true, _, rfl, runs_rand_bind.mpr ⟨rnd, t', rfl, hw⟩⟩

/-- The keys lie behind the first two words. -/
theorem keys_decodeTr_congr {ca : CryptoAlgorithm} {raw raw' : Nat → BitVec 32} (h : ∀ i, 2 ≤ i → raw i = raw' i) :
    (decodeTr dir ca raw).key = (decodeTr dir ca raw').key ∧
    (decodeTr dir ca raw).hkey = (decodeTr dir ca raw').hkey := by
  have hkey : ∀ i, raw (i + 2) = raw' (i + 2) := fun i => h _ (Nat.le_add_left 2 i)
  cases dir with
  | ingress =>
    rw [decodeTr, decodeTr]
    split <;> exact ⟨by simp only [IngTr64bpn.view, IngTr32bpn.view, IngTr64bpn.overlay, IngTr32bpn.overlay, hkey],
      by simp only [IngTr64bpn.view, IngTr32bpn.view, IngTr64bpn.overlay, IngTr32bpn.overlay, hkey]⟩
  | egress =>
    rw [decodeTr, decodeTr]
    split <;> exact ⟨by simp only [EgrTr64bpn.view, EgrTr32bpn.view, EgrTr64bpn.overlay, EgrTr32bpn.overlay, hkey],
      by simp only [EgrTr64bpn.view, EgrTr32bpn.view, EgrTr64bpn.overlay, EgrTr32bpn.overlay, hkey]⟩

theorem rawWords_scrubbed {tr : List (BitVec 32)} {i : Nat} (h : 2 ≤ i) :
    rawWords (scrubbed tr) i = rawWords tr i := by
  rw [rawWords, rawWords, scrubbed, List.getD_eq_getElem?_getD, List.getElem?_set_ne (by omega),
    List.getD_eq_getElem?_getD]

/-- **The keys on the heap.** For every SA, both directions and every run, whatever was refused and wherever the
writes stopped: where a record was allocated, it goes back to the heap with the key of its suite and the hash key
as they were, and with all other words but the first. -/
theorem keysLeft (output : Bytes 16) (stack : Aes.Schedule) (dir : MsecDir) (inTr : TransformRec) (t : RegTrace) :
    ((∃ r, (configTrBody (userAes output stack) dir inTr).Runs t r) ↔
      ∃ freed, (freedTr (userAes output stack) dir inTr).Runs t (.ok freed)) ∧
    ∀ freed, (freedTr (userAes output stack) dir inTr).Runs t (.ok freed) →
      (freed.isSome ↔ ⟨.osAlloc, true⟩ ∈ t) ∧
      ∀ tr ∈ freed, (decodeTr dir inTr.ccw.caType (rawWords tr)).key = suiteKey inTr ∧
        (decodeTr dir inTr.ccw.caType (rawWords tr)).hkey = zeroEncrypted inTr := by
  refine ⟨runs_freedTr_iff, fun freed h => ?_⟩
  obtain ⟨e, -, rfl, hnone⟩ | ⟨ccw, -, rfl, hnone⟩ | ⟨ccw, rnd, t', w, hccw, rfl, -, hsome⟩ := runs_freedTr.mp h
  · cases hnone
    simp
  · cases hnone
    simp
  · cases hsome
    refine ⟨by simp, fun tr htr => ?_⟩
    cases htr
    obtain ⟨hsuite, -⟩ := popCcw_ok_iff.mp ⟨ccw, hccw⟩
    obtain ⟨hkey, hhkey⟩ :=
      @keys_decodeTr_buildTr dir inTr (userAes output stack) ccw (ctxIdOf rnd inTr.saIndex) hsuite
    obtain ⟨hkept, hkept'⟩ := @keys_decodeTr_congr dir inTr.ccw.caType _ _ fun i hi =>
      @rawWords_scrubbed (buildTr dir ccw (ctxIdOf rnd inTr.saIndex) (fillTr (userAes output stack) inTr)) i hi
    rw [userAes_suiteKey] at hhkey
    exact ⟨hkept.trans hkey, hkept'.trans hhkey⟩

end Freed

end Gpy2xx
