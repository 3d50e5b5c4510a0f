import MxlUtils.Gphy.Msec.Layout

/- The transform-record calls. The ingress and the egress function of each pair
   differ in the table base, the record size and the record builder, so each pair
   is one body over the direction. `config_*_tr` ends in `unlock; ret = 0`: past
   the index check it returns 0 whatever its body returned. `update_egr_sa_cw`
   and `get_*_pn` return from inside the locked region for some words. -/
namespace Gpy2xx
open Effect Effect.Lock Bits
open Bits.Mem (rawWords)

/-! ## Registers -/

/-- `EIP_160S_IG_TR_PAGE0_BASE`, `EIP_160S_EG_TR_PAGE0_BASE`; the page-0 offset is 0. -/
def trPage0Base : MsecDir → Nat
  | .ingress => 0x00B00000
  | .egress => 0x00B20000

/-- `ING_MAX_TR_SIZE_WORDS`, `EGR_MAX_TR_SIZE_WORDS` -/
def maxTrSizeWords : MsecDir → Nat
  | .ingress => 20
  | .egress => 24

/-- `ING_MAX_TR_SIZE_BYTES`, `EGR_MAX_TR_SIZE_BYTES` -/
def maxTrSizeBytes (dir : MsecDir) : Nat := maxTrSizeWords dir * 4

/-- `(sa_index > 127) ? 0x10000 : 0` -/
def pageOffset (index : BitVec 8) : Nat := if index.toNat > 127 then 0x10000 else 0

/-- The record address of `config_*_tr` and `clear_*_tr`: the whole index times the size. -/
def trWriteAddr (dir : MsecDir) (saIndex : BitVec 8) : Nat :=
  trPage0Base dir + pageOffset saIndex + saIndex.toNat * maxTrSizeBytes dir

/-- The record address of `get_*_tr`, `get_*_pn` and `update_egr_sa_cw`: the index modulo 128. -/
def trReadAddr (dir : MsecDir) (saIndex : BitVec 8) : Nat :=
  trPage0Base dir + pageOffset saIndex + saIndex.toNat % 128 * maxTrSizeBytes dir

/-- `EIPI_SAM_IN_FLIGHT` and `EIPE_SAM_IN_FLIGHT`, module base and offset 0x104. -/
def samInFlight : MsecDir → Nat
  | .ingress => 0x00B06000 + 0x104
  | .egress => 0x00B26000 + 0x104

def samInFlightUnsafeMask : BitVec 32 := 0x3F
def samInFlightLoadUnsafeMask : BitVec 32 := 0x80000000

/-- `IN_FLIGHT_BUSY_RETRY` -/
def inFlightBusyRetry : Nat := 10

def ccwSn : Field 32 := ⟨0x30000000, 28⟩
def ccwAn : Field 32 := ⟨0x0C000000, 26⟩
def ccwCa : Field 32 := ⟨0x000E0000, 17⟩

def saUpdateSaIndex : Field 32 := ⟨0x00003FFF, 0⟩
def saUpdateSaExpiredIrq : Field 32 := ⟨0x00004000, 14⟩
def saUpdateSaIndexValid : Field 32 := ⟨0x00008000, 15⟩
def saUpdateFlowIndex : Field 32 := ⟨0x7FFF0000, 16⟩
def saUpdateSaIndexUpdateEn : Field 32 := ⟨0x80000000, 31⟩

/-! ## Building a record -/

/-- The default control words `ING_*_DEF_CCW` and `EGR_*_DEF_CCW`. -/
def defCcw : MsecDir → CryptoAlgorithm → Option (BitVec 32)
  | .ingress, .gcmAes128 => some 0xD24BE06F
  | .ingress, .gcmAesXpn128 => some 0xE24BA0EF
  | .ingress, .gcmAes256 => some 0xD24FE06F
  | .ingress, .gcmAesXpn256 => some 0xE24FA0EF
  | .egress, .gcmAes128 => some 0x924BE066
  | .egress, .gcmAesXpn128 => some 0xA24BE066
  | .egress, .gcmAes256 => some 0x924FE066
  | .egress, .gcmAesXpn256 => some 0xA24FE066
  | _, .other _ => none

/-- `MACSEC_MAX_AN` -/
def macsecMaxAn : Nat := 4

def popCcw (dir : MsecDir) (ccw : CtxCtrlWord) : Except Errno (BitVec 32) :=
  match defCcw dir ccw.caType with
  | none => .error errRet
  | some w =>
    match dir with
    | .ingress => .ok w
    | .egress =>
      if ccw.an.toNat < macsecMaxAn then .ok (w ||| (ccw.an.setWidth 32 <<< ccwAn.pos))
      else .error errRet

def popKey (cp : CryptoParams) : Words 8 := leWords (n := 8) cp.key

def popHkey (cp : CryptoParams) : Words 4 := leWords (n := 4) cp.hkey

def popIv (cp : CryptoParams) : Words 2 := leWords (n := 2) cp.sci

/-- The salt, its first word xored with the short SCI. -/
def popCsalt (cp : CryptoParams) : Words 3 := fun i =>
  let sSci := leWord (cp.cSalt.sSci 0) (cp.cSalt.sSci 1) (cp.cSalt.sSci 2) (cp.cSalt.sSci 3)
  if i = 0 then leWords (n := 3) cp.cSalt.salt 0 ^^^ sSci else leWords (n := 3) cp.cSalt.salt i

def popSaUpdCtrl (u : SaUpdateCtrl) : BitVec 32 :=
  let w := saUpdateSaIndex.replace 0 (u.saIndex.setWidth 32)
  let w := saUpdateSaExpiredIrq.replace w (u.saExpiredIrq.setWidth 32)
  let w := saUpdateSaIndexValid.replace w (u.saIndexValid.setWidth 32)
  let w := saUpdateFlowIndex.replace w (u.flowIndex.setWidth 32)
  saUpdateSaIndexUpdateEn.replace w (u.saIndUpdateEn.setWidth 32)

/-- `in_tr->ccw.sn_type` as `config_*_tr` sets it from the suite. -/
def snTypeOf : CryptoAlgorithm → SeqType
  | .gcmAes128 | .gcmAes256 => .sn32Bit
  | _ => .sn64Bit

/-- `(ca_type == GCM_AES_128) || (ca_type == GCM_AES_XPN_128)` -/
def isKey128 (ca : CryptoAlgorithm) : Bool := ca = .gcmAes128 ∨ ca = .gcmAesXpn128

/-- Key bytes of the suite. -/
def keyLen (ca : CryptoAlgorithm) : Nat := if isKey128 ca then 16 else 32

/-- Four random bytes over the SA index. -/
def ctxIdOf (rnd : BitVec 32) (saIndex : BitVec 8) : BitVec 32 :=
  rnd &&& ~~~0x000000FF ||| saIndex.setWidth 32

/-- `AES_Encrypt(input, key, key_len)`, given the `key_len` bytes it reads of the key. -/
abbrev AesEncrypt := Bytes 16 → List (BitVec 8) → Bytes 16

/-- What `config_*_tr` changes in `in_tr` once the control word is built. -/
def fillTr (aesEncrypt : AesEncrypt) (inTr : TransformRec) : TransformRec :=
  { inTr with
    ccw := { inTr.ccw with snType := snTypeOf inTr.ccw.caType }
    cp := { inTr.cp with
      hkey := aesEncrypt (fun _ => 0) ((List.ofFn inTr.cp.key).take (keyLen inTr.ccw.caType)) } }

/-- `seq0` of an ingress record: "Must be 1 for Ingress". -/
def ingSeq0 (pn : PnReplayCheck) : BitVec 32 := if pn.seq0 ≠ 0 then pn.seq0 else 1

/-- The replay window of an XPN suite, cut to 2^30. -/
def ingXpnMask (pn : PnReplayCheck) : BitVec 32 :=
  if pn.mask > 0x40000000 then 0x40000000 else pn.mask

/-- The first `n` of the eight key words. -/
def keyWords (cp : CryptoParams) (n : Nat) (h : n ≤ 8) : Words n := fun i => popKey cp (i.castLE h)

def buildIngTr32bpn (ccw ctxId : BitVec 32) (tr : TransformRec) (n : Nat) (h : n ≤ 8) :
    IngTr32bpn n where
  ccw := ccw
  ctxId := ctxId
  key := keyWords tr.cp n h
  hkey := popHkey tr.cp
  seq := ingSeq0 tr.pnRc
  mask := tr.pnRc.mask
  iv0 := popIv tr.cp 0
  iv1 := popIv tr.cp 1
  res0 _ := 0

def buildIngTr64bpn (ccw ctxId : BitVec 32) (tr : TransformRec) (n : Nat) (h : n ≤ 8) :
    IngTr64bpn n where
  ccw := ccw
  ctxId := ctxId
  key := keyWords tr.cp n h
  hkey := popHkey tr.cp
  seq0 := ingSeq0 tr.pnRc
  seq1 := tr.pnRc.seq1
  mask := ingXpnMask tr.pnRc
  iv0 := popCsalt tr.cp 0
  iv1 := popCsalt tr.cp 1
  iv2 := popCsalt tr.cp 2
  res _ := 0

def buildEgrTr32bpn (ccw ctxId : BitVec 32) (tr : TransformRec) (n : Nat) (h : n ≤ 8) :
    EgrTr32bpn n where
  ccw := ccw
  ctxId := ctxId
  key := keyWords tr.cp n h
  hkey := popHkey tr.cp
  seq := tr.pnRc.seq0
  iv0 := popIv tr.cp 0
  iv1 := popIv tr.cp 1
  res0 _ := 0
  saUpdCtrl := popSaUpdCtrl tr.saUpdate
  res1 _ := 0

def buildEgrTr64bpn (ccw ctxId : BitVec 32) (tr : TransformRec) (n : Nat) (h : n ≤ 8) :
    EgrTr64bpn n where
  ccw := ccw
  ctxId := ctxId
  key := keyWords tr.cp n h
  hkey := popHkey tr.cp
  seq0 := tr.pnRc.seq0
  seq1 := tr.pnRc.seq1
  res0 := 0
  is0 := popCsalt tr.cp 0
  is1 := popCsalt tr.cp 1
  is2 := popCsalt tr.cp 2
  iv0 := popIv tr.cp 0
  iv1 := popIv tr.cp 1
  res1 := 0
  saUpdCtrl := popSaUpdCtrl tr.saUpdate
  res2 _ := 0

/-- The words `_tr[0..]` of an ingress record. -/
def buildIngTr (ccw ctxId : BitVec 32) (tr : TransformRec) : List (BitVec 32) :=
  if isKey128 tr.ccw.caType then
    if tr.ccw.snType = .sn32Bit then (buildIngTr32bpn ccw ctxId tr 4 (by decide)).words
    else (buildIngTr64bpn ccw ctxId tr 4 (by decide)).words
  else
    if tr.ccw.snType = .sn32Bit then (buildIngTr32bpn ccw ctxId tr 8 (by decide)).words
    else (buildIngTr64bpn ccw ctxId tr 8 (by decide)).words

/-- The words `_tr[0..]` of an egress record. -/
def buildEgrTr (ccw ctxId : BitVec 32) (tr : TransformRec) : List (BitVec 32) :=
  if isKey128 tr.ccw.caType then
    if tr.ccw.snType = .sn32Bit then (buildEgrTr32bpn ccw ctxId tr 4 (by decide)).words
    else (buildEgrTr64bpn ccw ctxId tr 4 (by decide)).words
  else
    if tr.ccw.snType = .sn32Bit then (buildEgrTr32bpn ccw ctxId tr 8 (by decide)).words
    else (buildEgrTr64bpn ccw ctxId tr 8 (by decide)).words

def buildTr : MsecDir → BitVec 32 → BitVec 32 → TransformRec → List (BitVec 32)
  | .ingress => buildIngTr
  | .egress => buildEgrTr

/-! ## The calls -/

/-- Wait until no packet in flight uses the old SAM entries. The last of the retries counts as a
failure whatever it read. -/
def isSamInFlightSafe (dir : MsecDir) : Api Unit := do
  phyMboxWrite (samInFlight dir) samInFlightLoadUnsafeMask
  poll inFlightBusyRetry
where
  poll : Nat → Api Unit
    | 0 => throw errRet
    | busyRetry + 1 => do
      let data ← phyMboxRead (samInFlight dir)
      if busyRetry = 0 then throw errRet
      else if data &&& samInFlightUnsafeMask ≠ 0 then poll busyRetry
      else pure ()

/-- The body of `config_*_tr`, up to its `END` label. -/
def configTrBody (aesEncrypt : AesEncrypt) (dir : MsecDir) (inTr : TransformRec) : Api Unit := do
  let ccw ← .ofExcept (popCcw dir inTr.ccw)
  let tr ← osAlloc
  if !tr then throw ENOMEM
  else
    let rnd ← rand
    mboxWriteWords (trWriteAddr dir inTr.saIndex)
      (buildTr dir ccw (ctxIdOf rnd inTr.saIndex) (fillTr aesEncrypt inTr))

/-- `in_tr` after the call. -/
def configTrParams (aesEncrypt : AesEncrypt) (dir : MsecDir) (inTr : TransformRec) :
    TransformRec :=
  match popCcw dir inTr.ccw with
  | .ok _ => fillTr aesEncrypt inTr
  | .error _ => inTr

def configTr (aesEncrypt : AesEncrypt) (dir : MsecDir) (phy : MsecDevice) (inTr : TransformRec) :
    Call TransformRec :=
  if inTr.saIndex ≥ phy.nrOfSas then throw EINVAL
  else locked do
    -- `ret` is overwritten with 0 at the end, so a failure of the body is dropped here
    let _ ← (configTrBody aesEncrypt dir inTr).attempt
    pure (configTrParams aesEncrypt dir inTr)

def gpy2xxMsecConfigIngTr (aesEncrypt : AesEncrypt) : MsecDevice → TransformRec → Call TransformRec :=
  configTr aesEncrypt .ingress

def gpy2xxMsecConfigEgrTr (aesEncrypt : AesEncrypt) : MsecDevice → TransformRec → Call TransformRec :=
  configTr aesEncrypt .egress

/-- The record word `update_egr_sa_cw` writes, from the suite and the caller's `sn_type`. -/
def saUpdWord (ccw : CtxCtrlWord) : Option Nat :=
  match ccw.caType, ccw.snType with
  | .gcmAes128, .sn32Bit | .gcmAesXpn128, .sn32Bit => some 15
  | .gcmAes128, .sn64Bit | .gcmAesXpn128, .sn64Bit => some 19
  | .gcmAes256, .sn32Bit | .gcmAesXpn256, .sn32Bit => some 19
  | .gcmAes256, .sn64Bit | .gcmAesXpn256, .sn64Bit => some 23
  | _, _ => none

def gpy2xxMsecUpdateEgrSaCw (phy : MsecDevice) (inTr : TransformRec) : Call Unit :=
  if inTr.saIndex ≥ phy.nrOfSas then throw EINVAL
  else lockedExit (match saUpdWord inTr.ccw with
    | none => pure (.leave EINVAL)
    | some k => do
      phyMboxWrite (trReadAddr .egress inTr.saIndex + 4 * k) (popSaUpdCtrl inTr.saUpdate)
      pure (.toEnd ()))

/-- The raw record, zero past the words the hardware holds. -/
def getTr (dir : MsecDir) (phy : MsecDevice) (saIndex : BitVec 8) : Call (Nat → BitVec 32) :=
  if saIndex ≥ phy.nrOfSas then throw EINVAL
  else locked do
    let ws ← mboxReadWords (trReadAddr dir saIndex) (maxTrSizeWords dir)
    pure (rawWords ws)

def gpy2xxMsecGetIngTr : MsecDevice → BitVec 8 → Call (Nat → BitVec 32) := getTr .ingress

def gpy2xxMsecGetEgrTr : MsecDevice → BitVec 8 → Call (Nat → BitVec 32) := getTr .egress

/-- The word of the sequence number, from the cipher field of a control word. -/
def snWord (ccw : BitVec 32) : Option Nat :=
  if ccwCa.get ccw = 5 then some 10
  else if ccwCa.get ccw = 7 then some 14
  else none

/-- `SN_64_BIT` in the sequence-number field of a control word. -/
def sn64 (ccw : BitVec 32) : Bool := ccwSn.get ccw = 2

/-- The packet number, its layout taken from the control word on the device. -/
def getPn (dir : MsecDir) (phy : MsecDevice) (saIndex : BitVec 8) : Call (BitVec 64) :=
  if saIndex ≥ phy.nrOfSas then throw EINVAL
  else lockedExit do
    let ccw ← phyMboxRead (trReadAddr dir saIndex)
    match snWord ccw with
    | none => pure (.leave EINVAL)
    | some k =>
      let sn0 ← phyMboxRead (trReadAddr dir saIndex + 4 * k)
      if sn64 ccw then
        let sn1 ← phyMboxRead (trReadAddr dir saIndex + 4 * k + 4)
        pure (.toEnd (sn0.setWidth 64 ||| sn1.setWidth 64 <<< 32))
      else pure (.toEnd (sn0.setWidth 64))

def gpy2xxMsecGetIngPn : MsecDevice → BitVec 8 → Call (BitVec 64) := getPn .ingress

def gpy2xxMsecGetEgrPn : MsecDevice → BitVec 8 → Call (BitVec 64) := getPn .egress

def clearTr (dir : MsecDir) (phy : MsecDevice) (saIndex : BitVec 8) : Call Unit :=
  if saIndex ≥ phy.nrOfSas then throw EINVAL
  else locked do
    isSamInFlightSafe dir
    let tr ← osAlloc
    if !tr then throw ENOMEM
    else mboxWriteWords (trWriteAddr dir saIndex) (List.replicate (maxTrSizeWords dir) 0)

def gpy2xxMsecClearIngTr : MsecDevice → BitVec 8 → Call Unit := clearTr .ingress

def gpy2xxMsecClearEgrTr : MsecDevice → BitVec 8 → Call Unit := clearTr .egress

/-! ## Runs of the calls -/

/-- An access of the SAM in-flight handshake, or none of the mailbox. -/
def Handshake (dir : MsecDir) (o : RegOp) : Prop :=
  o.mboxAddr = none ∨ o.mboxAddr = some (samInFlight dir)

theorem all_isSamInFlightSafe (dir : MsecDir) :
    (isSamInFlightSafe dir).All (Handshake dir) := by
  have hpoll : ∀ n, (isSamInFlightSafe.poll dir n).All (Handshake dir) := by
    intro n
    induction n with
    | zero => exact Fallible.All.throw _
    | succ n ih =>
      refine Fallible.All.bind ⟨.inr rfl, fun _ => trivial⟩ fun data => ?_
      refine Fallible.All.ite (fun _ => Fallible.All.throw _) fun _ => ?_
      exact Fallible.All.ite (fun _ => ih) fun _ => Fallible.All.pure _
  exact Fallible.All.bind ⟨.inr rfl, fun _ => trivial⟩ fun _ => hpoll _

/-- What the body of `config_*_tr` does: it stops before it has a record, or it writes one. -/
theorem runs_configTrBody {aesEncrypt : AesEncrypt} {dir : MsecDir} {inTr : TransformRec}
    {t : RegTrace} {r : Except Errno Unit} (h : (configTrBody aesEncrypt dir inTr).Runs t r) :
    (∃ e, popCcw dir inTr.ccw = .error e ∧ t = [] ∧ r = .error e) ∨
    (∃ ccw, popCcw dir inTr.ccw = .ok ccw ∧ t = [⟨.osAlloc, false⟩] ∧ r = .error ENOMEM) ∨
    (∃ ccw rnd t', popCcw dir inTr.ccw = .ok ccw ∧ t = [⟨.osAlloc, true⟩, ⟨.rand, rnd⟩] ++ t' ∧
      (mboxWriteWords (trWriteAddr dir inTr.saIndex)
        (buildTr dir ccw (ctxIdOf rnd inTr.saIndex) (fillTr aesEncrypt inTr))).Runs t' r) := by
  rcases (Fallible.runs_bind).mp h with ⟨e, he, hr⟩ | ⟨t₀, ccw, t₁, rfl, hccw, h⟩
  · obtain ⟨ht, he⟩ := (Fallible.runs_ofExcept).mp he
    exact .inl ⟨e, he.symm, ht, hr⟩
  · obtain ⟨ht, hccw⟩ := (Fallible.runs_ofExcept).mp hccw
    rw [ht, List.nil_append]
    obtain ⟨b, t₂, rfl, hb⟩ := (runs_osAlloc_bind).mp h
    cases b with
    | false =>
      obtain ⟨ht, hr⟩ := (Fallible.runs_throw).mp hb
      exact .inr (.inl ⟨ccw, hccw.symm, by rw [ht], hr⟩)
    | true =>
      obtain ⟨rnd, t', rfl, hw⟩ := (runs_rand_bind).mp hb
      exact .inr (.inr ⟨ccw, rnd, t', hccw.symm, rfl, hw⟩)

/-- `config_*_tr` rejects an index outside the table; else it runs its body and returns 0. -/
theorem runs_configTr {aesEncrypt : AesEncrypt} {dir : MsecDir} {phy : MsecDevice}
    {inTr : TransformRec} {t : Trace regSig.locking} {r : Except Errno TransformRec}
    (h : (configTr aesEncrypt dir phy inTr).Runs t r) :
    (inTr.saIndex ≥ phy.nrOfSas ∧ t = [] ∧ r = .error EINVAL) ∨
    (inTr.saIndex < phy.nrOfSas ∧ r = .ok (configTrParams aesEncrypt dir inTr) ∧
      ∃ r', (configTrBody aesEncrypt dir inTr).Runs (accesses t) r') := by
  rw [configTr, Fallible.runs_ite] at h
  by_cases hsa : inTr.saIndex ≥ phy.nrOfSas
  · rw [if_pos hsa] at h
    exact .inl ⟨hsa, h.1, h.2⟩
  · rw [if_neg hsa] at h
    rcases (Fallible.runs_bind).mp (Lock.Runs.accesses_locked h) with ⟨e, he, _⟩ | ⟨t₁, x, t₂, ht, hx, hend⟩
    · obtain ⟨_, _, h₀⟩ := (Fallible.runs_attempt).mp he
      cases h₀
    · obtain ⟨r', hr', _⟩ := (Fallible.runs_attempt).mp hx
      obtain ⟨rfl, hr⟩ := hend
      rw [List.append_nil] at ht
      exact .inr ⟨BitVec.not_le.mp hsa, hr, r', ht ▸ hr'⟩

/-- `clear_*_tr` rejects an index outside the table; else it does the handshake, and then perhaps
writes zeros over the record. -/
theorem runs_clearTr {dir : MsecDir} {phy : MsecDevice} {sa : BitVec 8}
    {t : Trace regSig.locking} {r : Except Errno Unit} (h : (clearTr dir phy sa).Runs t r) :
    (sa ≥ phy.nrOfSas ∧ t = []) ∨
    (sa < phy.nrOfSas ∧ ((∀ e ∈ accesses t, Handshake dir e.op) ∨
      (∃ t₁ t₂, accesses t = t₁ ++ t₂ ∧ (∀ e ∈ t₁, Handshake dir e.op) ∧
        (mboxWriteWords (trWriteAddr dir sa) (List.replicate (maxTrSizeWords dir) 0)).Runs t₂ r))) := by
  rw [clearTr, Fallible.runs_ite] at h
  by_cases hsa : sa ≥ phy.nrOfSas
  · rw [if_pos hsa] at h
    exact .inl ⟨hsa, h.1⟩
  · rw [if_neg hsa] at h
    refine .inr ⟨BitVec.not_le.mp hsa, ?_⟩
    rcases (Fallible.runs_bind).mp (Lock.Runs.accesses_locked h) with
      ⟨e, he, _⟩ | ⟨t₁, _, t₂, ht, hsafe, h⟩
    · exact .inl (Prog.Runs.all he (all_isSamInFlightSafe dir))
    · have h₁ := Prog.Runs.all hsafe (all_isSamInFlightSafe dir)
      obtain ⟨b, t₃, rfl, hb⟩ := (runs_osAlloc_bind).mp h
      have hpre : ∀ e ∈ t₁ ++ [⟨.osAlloc, b⟩], Handshake dir e.op := by
        intro e he
        rcases List.mem_append.mp he with he | he
        · exact h₁ e he
        · rw [List.mem_singleton.mp he]
          exact .inl rfl
      cases b with
      | false =>
        obtain ⟨rfl, -⟩ := (Fallible.runs_throw).mp hb
        exact .inl (ht ▸ hpre)
      | true => exact .inr ⟨_, t₃, by rw [ht, List.append_assoc]; rfl, hpre, hb⟩

/-! ## Shape of a record -/

/-- The control word can be built for the four suites, on egress with an association number. -/
theorem popCcw_ok_iff {dir : MsecDir} {c : CtxCtrlWord} :
    (∃ ccw, popCcw dir c = .ok ccw) ↔
      (∀ v, c.caType ≠ .other v) ∧ (dir = .egress → c.an.toNat < 4) := by
  obtain ⟨ca, an, sn⟩ := c
  cases dir with
  | ingress => cases ca <;> simp [popCcw, defCcw]
  | egress =>
    by_cases han : an.toNat < 4
    · cases ca <;> simp [popCcw, defCcw, macsecMaxAn, han]
    · cases ca <;> simp [popCcw, defCcw, macsecMaxAn, han]

/-- Every record fills the hardware's record exactly. -/
theorem length_buildTr (dir : MsecDir) (ccw ctxId : BitVec 32) (tr : TransformRec) :
    (buildTr dir ccw ctxId tr).length = maxTrSizeWords dir := by
  cases dir with
  | ingress =>
    rw [buildTr, buildIngTr]
    split_ifs
    · exact IngTr32bpn.length_words _ (by decide)
    · exact IngTr64bpn.length_words _ (by decide)
    · exact IngTr32bpn.length_words _ (by decide)
    · exact IngTr64bpn.length_words _ (by decide)
  | egress =>
    rw [buildTr, buildEgrTr]
    split_ifs
    · exact EgrTr32bpn.length_words _ (by decide)
    · exact EgrTr64bpn.length_words _ (by decide)
    · exact EgrTr32bpn.length_words _ (by decide)
    · exact EgrTr64bpn.length_words _ (by decide)

/-- Writers and readers agree on the lower half of the table only. -/
theorem trReadAddr_eq_trWriteAddr_iff (dir : MsecDir) (sa : BitVec 8) :
    trReadAddr dir sa = trWriteAddr dir sa ↔ sa.toNat < 128 := by
  have hsa := sa.isLt
  rw [trReadAddr, trWriteAddr]
  cases dir with
  | ingress =>
    simp only [maxTrSizeBytes, maxTrSizeWords]
    omega
  | egress =>
    simp only [maxTrSizeBytes, maxTrSizeWords]
    omega

end Gpy2xx
