import MxlUtils.Gphy.Msec.EngineInit
import MxlUtils.Lib.History

/- Thresholds. The counters have one for frames and one for octets, the sequence
   numbers one for each width; a threshold of 64 bits is in two registers. A get
   function shows what was configured last, whatever else has been configured since. -/
namespace Gpy2xx
open Effect Effect.Lock Bits

/-! ## The calls -/

/-- `(low) | ((u64)high << 32)` -/
def joinThresh (low high : BitVec 32) : BitVec 64 := low.setWidth 64 ||| high.setWidth 64 <<< 32

def lowThresh (v : BitVec 64) : BitVec 32 := (v &&& 0xFFFFFFFF).setWidth 32
def highThresh (v : BitVec 64) : BitVec 32 := (v >>> 32).setWidth 32

/-- `COUNT_FRAME_THR1`, `COUNT_FRAME_THR2`, `COUNT_OCTET_THR1`, `COUNT_OCTET_THR2` -/
def countFrameThr1 (dir : MsecDir) : Nat := statControlBase dir + 0x20
def countFrameThr2 (dir : MsecDir) : Nat := statControlBase dir + 0x24
def countOctetThr1 (dir : MsecDir) : Nat := statControlBase dir + 0x30
def countOctetThr2 (dir : MsecDir) : Nat := statControlBase dir + 0x34

/-- `EIP62_SEQ_NUM_THRESHOLD64_LO`, `EIP62_SEQ_NUM_THRESHOLD64_HI` -/
def eip62SeqNumThreshold64Lo (dir : MsecDir) : Nat := eip62Base dir + 0x24
def eip62SeqNumThreshold64Hi (dir : MsecDir) : Nat := eip62Base dir + 0x28

/-- `struct frame_octet_thr` -/
structure FrameOctetThr where
  frameThreshold : BitVec 64
  octetThreshold : BitVec 64

/-- `struct seq_num_thr` -/
structure SeqNumThr where
  snType : SeqType
  snThreshold : BitVec 64

def configCountThresh (dir : MsecDir) (cntThr : FrameOctetThr) : Call Unit :=
  locked do
    phyMboxWrite (countFrameThr1 dir) (lowThresh cntThr.frameThreshold)
    phyMboxWrite (countFrameThr2 dir) (highThresh cntThr.frameThreshold)
    phyMboxWrite (countOctetThr1 dir) (lowThresh cntThr.octetThreshold)
    phyMboxWrite (countOctetThr2 dir) (highThresh cntThr.octetThreshold)

def gpy2xxMsecConfigIngCountThresh : FrameOctetThr → Call Unit := configCountThresh .ingress

def gpy2xxMsecConfigEgrCountThresh : FrameOctetThr → Call Unit := configCountThresh .egress

def getCountThresh (dir : MsecDir) : Call FrameOctetThr :=
  locked do
    let frameLow ← phyMboxRead (countFrameThr1 dir)
    let frameHigh ← phyMboxRead (countFrameThr2 dir)
    let octetLow ← phyMboxRead (countOctetThr1 dir)
    let octetHigh ← phyMboxRead (countOctetThr2 dir)
    pure ⟨joinThresh frameLow frameHigh, joinThresh octetLow octetHigh⟩

def gpy2xxMsecGetIngCountThresh : Call FrameOctetThr := getCountThresh .ingress

def gpy2xxMsecGetEgrCountThresh : Call FrameOctetThr := getCountThresh .egress

def configSnThresh (dir : MsecDir) (snThr : SeqNumThr) : Call Unit :=
  match snThr.snType with
  | .sn32Bit => locked (phyMboxWrite (eip62SeqNumThreshold dir) (lowThresh snThr.snThreshold))
  | .sn64Bit => locked do
    phyMboxWrite (eip62SeqNumThreshold64Lo dir) (lowThresh snThr.snThreshold)
    phyMboxWrite (eip62SeqNumThreshold64Hi dir) (highThresh snThr.snThreshold)
  | .other _ => throw EINVAL

def gpy2xxMsecConfigIngSnThresh : SeqNumThr → Call Unit := configSnThresh .ingress

def gpy2xxMsecConfigEgrSnThresh : SeqNumThr → Call Unit := configSnThresh .egress

def getSnThresh (dir : MsecDir) (snType : SeqType) : Call SeqNumThr :=
  match snType with
  | .sn32Bit => locked do
    let low ← phyMboxRead (eip62SeqNumThreshold dir)
    pure ⟨.sn32Bit, low.setWidth 64⟩
  | .sn64Bit => locked do
    let low ← phyMboxRead (eip62SeqNumThreshold64Lo dir)
    let high ← phyMboxRead (eip62SeqNumThreshold64Hi dir)
    pure ⟨.sn64Bit, joinThresh low high⟩
  | .other _ => throw EINVAL

def gpy2xxMsecGetIngSnThresh : SeqType → Call SeqNumThr := getSnThresh .ingress

def gpy2xxMsecGetEgrSnThresh : SeqType → Call SeqNumThr := getSnThresh .egress

/-! ## Sessions of calls -/

/-- The thresholds of the device. -/
inductive Threshold where
  | frame (dir : MsecDir)
  | octet (dir : MsecDir)
  | sn32 (dir : MsecDir)
  | sn64 (dir : MsecDir)
deriving DecidableEq

/-- What the get function for a threshold returns for it. -/
def Threshold.get : Threshold → Call (BitVec 64)
  | .frame dir => (·.frameThreshold) <$> getCountThresh dir
  | .octet dir => (·.octetThreshold) <$> getCountThresh dir
  | .sn32 dir => (·.snThreshold) <$> getSnThresh dir .sn32Bit
  | .sn64 dir => (·.snThreshold) <$> getSnThresh dir .sn64Bit

inductive ThreshCall where
  | count (dir : MsecDir) (cntThr : FrameOctetThr)
  | sn (dir : MsecDir) (snThr : SeqNumThr)

def ThreshCall.call : ThreshCall → Call Unit
  | .count dir cntThr => configCountThresh dir cntThr
  | .sn dir snThr => configSnThresh dir snThr

/-- The value that a call gives a threshold, if it is about this one. -/
def ThreshCall.sets (th : Threshold) : ThreshCall → Option (BitVec 64)
  | .count dir cntThr =>
    if th = .frame dir then some cntThr.frameThreshold
    else if th = .octet dir then some cntThr.octetThreshold
    else none
  | .sn dir snThr =>
    match snThr.snType with
    | .sn32Bit => if th = .sn32 dir then some snThr.snThreshold else none
    | .sn64Bit => if th = .sn64 dir then some snThr.snThreshold else none
    | .other _ => none

/-- The registers after a call, where every access succeeds. -/
def threshAfter (regs : Regs) (c : ThreshCall) : Regs := (c.call.exec lockedMem regs).2

/-- What a get function returns for a threshold. -/
def Threshold.shown (th : Threshold) (regs : Regs) : Except Errno (BitVec 64) := (th.get.exec lockedMem regs).1

/-- A get function returns what the last call for its threshold set, and calls for others change nothing;
`stored` is what becomes of a value. -/
structure ThreshRoundTrip (stored : Threshold → BitVec 64 → BitVec 64) : Prop where
  last : ∀ (th : Threshold) (calls : List ThreshCall) (regs : Regs) (v : BitVec 64), History.lastSet (ThreshCall.sets th) none calls = some v →
    th.shown (calls.foldl threshAfter regs) = .ok (stored th v)
  kept : ∀ (th : Threshold) (calls : List ThreshCall) (regs : Regs), (∀ c ∈ calls, ThreshCall.sets th c = none) →
    th.shown (calls.foldl threshAfter regs) = th.shown regs

/-- A threshold of 32 bits has the low word of the value. -/
def Threshold.stored : Threshold → BitVec 64 → BitVec 64
  | .sn32 _, v => v &&& 0xFFFFFFFF
  | .frame _, v | .octet _, v | .sn64 _, v => v

/-! ## What one call leaves -/

section Words
variable {v : BitVec 64}

theorem joinThresh_low_high (v : BitVec 64) : joinThresh (lowThresh v) (highThresh v) = v := by
  apply BitVec.eq_of_getLsbD_eq
  intro i hi
  have hmask : (0xFFFFFFFF : BitVec 64) = BitVec.ofNat 64 (2 ^ 32 - 1) := rfl
  rw [joinThresh, lowThresh, highThresh, hmask]
  simp only [BitVec.getLsbD_or, BitVec.getLsbD_setWidth, BitVec.getLsbD_and, BitVec.getLsbD_ofNat,
    Nat.testBit_two_pow_sub_one, BitVec.getLsbD_shiftLeft, BitVec.getLsbD_ushiftRight]
  by_cases hlow : i < 32
  · simp [hlow, hi]
  · have hback : 32 + (i - 32) = i := by omega
    simp [hlow, hi, hback, show i - 32 < 64 by omega, show i - 32 < 32 by omega]

theorem setWidth_lowThresh (v : BitVec 64) : (lowThresh v).setWidth 64 = v &&& 0xFFFFFFFF := by
  have hmask : (0xFFFFFFFF : BitVec 64) = BitVec.ofNat 64 (2 ^ 32 - 1) := rfl
  rw [lowThresh, hmask]
  apply setWidth_setWidth_of_lt
  rw [toNat_and_low]
  exact Nat.mod_lt _ (by decide)

end Words

/-- The value in the registers of a threshold. -/
def Threshold.value (m : Mem) : Threshold → BitVec 64
  | .frame dir => joinThresh (m.load32 (countFrameThr1 dir)) (m.load32 (countFrameThr2 dir))
  | .octet dir => joinThresh (m.load32 (countOctetThr1 dir)) (m.load32 (countOctetThr2 dir))
  | .sn32 dir => (m.load32 (eip62SeqNumThreshold dir)).setWidth 64
  | .sn64 dir => joinThresh (m.load32 (eip62SeqNumThreshold64Lo dir)) (m.load32 (eip62SeqNumThreshold64Hi dir))

theorem shown_eq (th : Threshold) (regs : Regs) : th.shown regs = .ok (th.value regs.mbox) := by
  cases th <;> rfl

/-- The words that a call writes. -/
def ThreshCall.words : ThreshCall → List (Nat × BitVec 32)
  | .count dir cntThr => [(countFrameThr1 dir, lowThresh cntThr.frameThreshold),
      (countFrameThr2 dir, highThresh cntThr.frameThreshold), (countOctetThr1 dir, lowThresh cntThr.octetThreshold),
      (countOctetThr2 dir, highThresh cntThr.octetThreshold)]
  | .sn dir snThr =>
    match snThr.snType with
    | .sn32Bit => [(eip62SeqNumThreshold dir, lowThresh snThr.snThreshold)]
    | .sn64Bit => [(eip62SeqNumThreshold64Lo dir, lowThresh snThr.snThreshold),
        (eip62SeqNumThreshold64Hi dir, highThresh snThr.snThreshold)]
    | .other _ => []

theorem mbox_threshAfter (regs : Regs) (c : ThreshCall) :
    (threshAfter regs c).mbox = c.words.foldl (fun m w => m.store32 w.1 w.2) regs.mbox := by
  cases c with
  | count dir cntThr => rfl
  | sn dir snThr =>
    obtain ⟨snType, v⟩ := snThr
    cases snType <;> rfl

/-- A call leaves its value in the registers of its thresholds, and those of the others as they were. -/
theorem value_threshAfter (th : Threshold) (c : ThreshCall) (regs : Regs) :
    th.value (threshAfter regs c).mbox = ((c.sets th).map th.stored).getD (th.value regs.mbox) := by
  rw [mbox_threshAfter]
  cases c with
  | count dir cntThr =>
    cases th <;> rename_i dir' <;> cases dir <;> cases dir' <;>
      simp [ThreshCall.words, ThreshCall.sets, Threshold.value, Threshold.stored, countFrameThr1, countFrameThr2,
        countOctetThr1, countOctetThr2, eip62SeqNumThreshold, eip62SeqNumThreshold64Lo, eip62SeqNumThreshold64Hi,
        statControlBase, eip62Base, Mem.load32_store32_of_disjoint, joinThresh_low_high]
  | sn dir snThr =>
    obtain ⟨snType, v⟩ := snThr
    cases th <;> rename_i dir' <;> cases dir <;> cases dir' <;> cases snType <;>
      simp [ThreshCall.words, ThreshCall.sets, Threshold.value, Threshold.stored, countFrameThr1, countFrameThr2,
        countOctetThr1, countOctetThr2, eip62SeqNumThreshold, eip62SeqNumThreshold64Lo, eip62SeqNumThreshold64Hi,
        statControlBase, eip62Base, Mem.load32_store32_of_disjoint, joinThresh_low_high, setWidth_lowThresh]

theorem faithful_thresh (th : Threshold) :
    History.Faithful (ThreshCall.sets th) threshAfter (fun v regs => th.value regs.mbox = th.stored v) where
  set := fun hset => by rw [value_threshAfter, hset]; rfl
  keep := fun hset hshows => by rw [value_threshAfter, hset]; exact hshows

/-- Every threshold is read back as it was configured last. -/
theorem thresholds_roundTrip : ThreshRoundTrip Threshold.stored where
  last th calls regs v hlast := by
    rw [shown_eq]
    exact congrArg Except.ok ((faithful_thresh th).lastSet (fun b hb => by cases hb) hlast)
  kept th calls regs hnone := by
    induction calls generalizing regs with
    | nil => rfl
    | cons c calls ih =>
      have hthis : th.shown (threshAfter regs c) = th.shown regs := by
        rw [shown_eq, shown_eq, value_threshAfter, hnone c List.mem_cons_self]
        rfl
      exact (ih (threshAfter regs c) fun c' hc' => hnone c' (List.mem_cons_of_mem c hc')).trans hthis

/-- A value of 33 bits, for the threshold of 32. -/
theorem threshold_cut : ¬ThreshRoundTrip fun _ v => v := by
  intro h
  have hlast := h.last (.sn32 .ingress) [.sn .ingress ⟨.sn32Bit, 0x100000000⟩] (zeroRegs true) _ rfl
  rw [shown_eq] at hlast
  exact absurd hlast (by decide +kernel)

end Gpy2xx
