import MxlUtils.Gphy.Msec.EngineConfig

/- Calls that carry a bitmap with a flag for each SA between a buffer of the caller and
   the registers of the engine. The words of the buffer that a call touches are part of
   its trace, beside its register accesses. A buffer has `MACSEC_MAX_SA_RULES / 32` words;
   the loops go over `nr_of_sas / 32` of them and stop at the buffer's end. -/
namespace Gpy2xx
open Effect Effect.Lock Bits

/-! ## Programs that use the caller's buffer -/

/-- An access to a word, counted from the beginning of the buffer. -/
inductive BufOp where
  | load (i : Nat)
  | store (i : Nat) (w : BitVec 32)
deriving DecidableEq, Repr

@[reducible] def BufOp.Ret : BufOp → Type
  | .load _ => BitVec 32
  | .store _ _ => Unit

@[reducible] def bitmapSig : Sig := regSig.sum ⟨BufOp, BufOp.Ret⟩

abbrev BitmapApi := Fallible bitmapSig Errno

namespace Bitmap

def mboxWrite (addr : Nat) (w : BitVec 32) : BitmapApi Unit :=
  .ofProg (.call (.inl (.mboxWrite32 addr w)) .done)

def mboxRead (addr : Nat) : BitmapApi (BitVec 32) := .ofProg (.call (.inl (.mboxRead32 addr)) .done)

def load (i : Nat) : BitmapApi (BitVec 32) := .always (.call (.inr (.load i)) .done)

def store (i : Nat) (w : BitVec 32) : BitmapApi Unit := .always (.call (.inr (.store i w)) .done)

/-- `MACSEC_MAX_SA_RULES / 32` -/
def maxWords : Nat := 32 / 32

/-- `IE_MAX_SAM_SIZE_BYTES` -/
def ieMaxSamSizeBytes : Nat := maxSamSizeWords * 4

/-- The loop of the calls that write: rounds left, and the word of this round. -/
def writeWords (addr : Nat) : (n i : Nat) → BitmapApi Unit
  | 0, _ => pure ()
  | n + 1, i =>
    if i = maxWords then pure ()
    else do
      let w ← load i
      mboxWrite (addr + 4 * i) w
      writeWords addr n (i + 1)

/-- The loop of the calls that read. -/
def readWords (addr : Nat) : (n i : Nat) → BitmapApi Unit
  | 0, _ => pure ()
  | n + 1, i =>
    if i = maxWords then pure ()
    else do
      let w ← mboxRead (addr + 4 * i)
      store i w
      readWords addr n (i + 1)

/-- `memset` with zero, of `n` words. -/
def clearWords : (n : Nat) → BitmapApi Unit
  | 0 => pure ()
  | n + 1 => do
    clearWords n
    store n 0

/-- `nr_of_sas / 32` -/
def rounds (phy : MsecDevice) : Nat := phy.nrOfSas.toNat / 32

end Bitmap

/-! ## The calls, between the lock and the unlock -/

open Bitmap

/-- The body of `config_*_sam_eex` behind the check of the type. -/
def samEexBody (dir : MsecDir) (phy : MsecDevice) (offset : Nat) : BitmapApi Unit :=
  writeWords (samEnableCtrlBase dir + offset) (rounds phy) 0

def samEefBody (dir : MsecDir) (phy : MsecDevice) : BitmapApi Unit := do
  clearWords (ieMaxSamSizeBytes / 2 / 4)
  readWords (samEnableCtrlBase dir) (rounds phy) 0

/-- `COUNT_SUMMARY_PSA1`, `COUNT_SUMMARY_GL` -/
def countSummaryPsa (dir : MsecDir) : Nat := statControlBase dir + 0x50
def countSummaryGl (dir : MsecDir) : Nat := statControlBase dir + 0x40

/-- The egress calls handle the global word first. -/
def clearStatsSummBody (dir : MsecDir) (phy : MsecDevice) (glbSummWord : BitVec 32) : BitmapApi Unit :=
  match dir with
  | .ingress => do
    writeWords (countSummaryPsa dir) (rounds phy) 0
    mboxWrite (countSummaryGl dir) glbSummWord
  | .egress => do
    mboxWrite (countSummaryGl dir) glbSummWord
    writeWords (countSummaryPsa dir) (rounds phy) 0

/-- The global word is returned. -/
def getStatsSummBody (dir : MsecDir) (phy : MsecDevice) : BitmapApi (BitVec 32) :=
  match dir with
  | .ingress => do
    readWords (countSummaryPsa dir) (rounds phy) 0
    mboxRead (countSummaryGl dir)
  | .egress => do
    let glbSummWord ← mboxRead (countSummaryGl dir)
    readWords (countSummaryPsa dir) (rounds phy) 0
    pure glbSummWord

/-- `EIPI_IG_CC_ENABLE1`; the rounds of these calls are counted in SAs too. -/
def igCcEnable : Nat := 0x00B0E800

def configIngCcEefBody (phy : MsecDevice) : BitmapApi Unit := writeWords igCcEnable (rounds phy) 0

def getIngCcEefBody (phy : MsecDevice) : BitmapApi Unit := readWords igCcEnable (rounds phy) 0

/-- `EIPE_SA_PN_THR_SUMMARY1` and `EIPE_SA_EXP_SUMMARY1`, of the egress engine only. -/
def saPnThrSummary : Nat := 0x00B2F000
def saExpSummary : Nat := classifierCtrlBase .egress + 0x100

/-- `ret` is `-EINVAL` until the first access. -/
def clearEgrSummBody (addr : Nat) (phy : MsecDevice) : BitmapApi Unit :=
  if rounds phy = 0 then throw EINVAL else writeWords addr (rounds phy) 0

def getEgrSummBody (addr : Nat) (phy : MsecDevice) : BitmapApi Unit :=
  if rounds phy = 0 then throw EINVAL else readWords addr (rounds phy) 0

/-- The calls, with what they are given beside the buffer. -/
inductive BitmapCall where
  | configSamEex (dir : MsecDir) (eexType : SamEexType)
  | getSamEef (dir : MsecDir)
  | clearStatsSumm (dir : MsecDir) (glbSummWord : BitVec 32)
  | getStatsSumm (dir : MsecDir)
  | configIngCcEef
  | getIngCcEef
  | clearSaPnThrSumm
  | getSaPnThrSumm
  | clearEgrSaExpSumm
  | getEgrSaExpSumm

namespace BitmapCall

def body (phy : MsecDevice) : BitmapCall → BitmapApi Unit
  | configSamEex dir eexType =>
    match samEexOffset eexType with
    | none => throw EINVAL
    | some offset => samEexBody dir phy offset
  | getSamEef dir => samEefBody dir phy
  | clearStatsSumm dir glbSummWord => clearStatsSummBody dir phy glbSummWord
  | getStatsSumm dir => do
    let _ ← getStatsSummBody dir phy
    pure ()
  | configIngCcEef => configIngCcEefBody phy
  | getIngCcEef => getIngCcEefBody phy
  | clearSaPnThrSumm => clearEgrSummBody saPnThrSummary phy
  | getSaPnThrSumm => getEgrSummBody saPnThrSummary phy
  | clearEgrSaExpSumm => clearEgrSummBody saExpSummary phy
  | getEgrSaExpSumm => getEgrSummBody saExpSummary phy

/-! ## What a call should do -/

/-- The first register of the bitmap, in the direction of the call; `none` for a type it refuses. -/
def bitmapReg : BitmapCall → Option Nat
  | configSamEex dir eexType => (samEexOffset eexType).map (samEnableCtrlBase dir + ·)
  | getSamEef dir => some (samEnableCtrlBase dir)
  | clearStatsSumm dir _ | getStatsSumm dir => some (countSummaryPsa dir)
  | configIngCcEef | getIngCcEef => some igCcEnable
  | clearSaPnThrSumm | getSaPnThrSumm => some saPnThrSummary
  | clearEgrSaExpSumm | getEgrSaExpSumm => some saExpSummary

/-- The global word of a statistics summary. -/
def globalReg : BitmapCall → Option Nat
  | clearStatsSumm dir _ | getStatsSumm dir => some (countSummaryGl dir)
  | _ => none

/-- The registers of a call: a word of the bitmap for each 32 SAs, and the global word. -/
def regs (phy : MsecDevice) (c : BitmapCall) : List Nat :=
  (match c.bitmapReg with
    | some a => tableAddrs a ((phy.nrOfSas.toNat + 31) / 32)
    | none => []) ++ c.globalReg.toList

end BitmapCall

/-- Word `i` of the buffer went to register `addr`, or came from there. -/
def Transfers (t : Trace bitmapSig) (addr i : Nat) : Prop :=
  (∃ w, ⟨.inr (.load i), w⟩ ∈ t ∧ ⟨.inl (.mboxWrite32 addr w), .ok ()⟩ ∈ t) ∨
    ∃ w, ⟨.inl (.mboxRead32 addr), .ok w⟩ ∈ t ∧ ⟨.inr (.store i w), ()⟩ ∈ t

/-- No register access of the run failed. -/
def RegsOk (t : Trace bitmapSig) : Prop :=
  ∀ o r, (⟨.inl o, r⟩ : Event bitmapSig) ∈ t → o.succeeded r

/-- The register of an access. -/
def BitmapInside (regs : List Nat) : bitmapSig.Op → Prop
  | .inl o => ∀ a, o.mboxAddr = some a → a ∈ regs
  | .inr (.load i) | .inr (.store i _) => i < maxWords

/-- A call carries a word for every SA, and stays in its registers and in the buffer. -/
structure BitmapExact (phy : MsecDevice) (c : BitmapCall) : Prop where
  covers : ∀ a, c.bitmapReg = some a → ∀ t r, (c.body phy).Runs t r → RegsOk t →
    ∀ sa < phy.nrOfSas.toNat, Transfers t (a + 4 * (sa / 32)) (sa / 32)
  inside : ∀ t r, (c.body phy).Runs t r → ∀ e ∈ t, BitmapInside (c.regs phy) e.op

/-! ## The buffer as data

With the contents of the buffer given as data, the calls are those over the registers alone. -/

section Buffer
variable {α β : Type} {buf : Nat → BitVec 32} {addr n i : Nat}

/-- Loads are answered from `buf`. -/
def fromBuffer (buf : Nat → BitVec 32) : (o : bitmapSig.Op) → Prog regSig (bitmapSig.Ret o)
  | .inl o => .call o .done
  | .inr (.load i) => .done (buf i)
  | .inr (.store _ _) => .done ()

def onRegs (buf : Nat → BitVec 32) (x : BitmapApi α) : Api α := ExceptT.mk (x.run.interp (fromBuffer buf))

theorem onRegs_bind (x : BitmapApi α) (f : α → BitmapApi β) :
    onRegs buf (x >>= f) = onRegs buf x >>= fun a => onRegs buf (f a) := by
  refine ExceptT.ext ?_
  rw [onRegs, ExceptT.run_mk, Fallible.bind_run, Prog.interp_bind, Fallible.bind_run]
  refine congrArg _ (funext fun c => ?_)
  cases c <;> rfl

theorem onRegs_writeWords (hi : i ≤ maxWords) : onRegs buf (writeWords addr n i) =
    mboxWriteWords (addr + 4 * i) ((List.range' i (min n (maxWords - i))).map buf) := by
  induction n generalizing i with
  | zero => rw [Nat.zero_min]; rfl
  | succ n ih =>
    rw [writeWords]
    by_cases hend : i = maxWords
    · rw [if_pos hend, hend, Nat.sub_self, Nat.min_zero]
      rfl
    · have hlt : i < maxWords := Nat.lt_of_le_of_ne hi hend
      have hround : min (n + 1) (maxWords - i) = min n (maxWords - (i + 1)) + 1 := by omega
      rw [if_neg hend, onRegs_bind, hround, List.range'_succ, List.map_cons, mboxWriteWords]
      show onRegs buf (mboxWrite (addr + 4 * i) (buf i) >>= _) = _
      rw [onRegs_bind]
      refine congrArg _ (funext fun _ => ?_)
      rw [ih hlt]
      rfl

theorem onRegs_readWords (hi : i ≤ maxWords) : onRegs buf (readWords addr n i) =
    mboxReadWords (addr + 4 * i) (min n (maxWords - i)) >>= fun _ => pure () := by
  induction n generalizing i with
  | zero => rw [Nat.zero_min]; rfl
  | succ n ih =>
    rw [readWords]
    by_cases hend : i = maxWords
    · rw [if_pos hend, hend, Nat.sub_self, Nat.min_zero]
      rfl
    · have hlt : i < maxWords := Nat.lt_of_le_of_ne hi hend
      have hround : min (n + 1) (maxWords - i) = min n (maxWords - (i + 1)) + 1 := by omega
      rw [if_neg hend, onRegs_bind, hround, mboxReadWords, bind_assoc]
      refine congrArg _ (funext fun w => ?_)
      show onRegs buf (readWords addr n (i + 1)) = _
      rw [ih hlt, bind_assoc]
      rfl

theorem words_eq {phy : MsecDevice} {ws : Words 1} (hbuf : buf 0 = ws 0) :
    (List.range' 0 (min (rounds phy) (maxWords - 0))).map buf = (List.ofFn ws).take (samEeWords phy) := by
  have hcount : min (rounds phy) (maxWords - 0) = samEeWords phy := rfl
  have hle : samEeWords phy ≤ 1 := Nat.min_le_right _ _
  rw [hcount]
  by_cases hzero : samEeWords phy = 0
  · simp [hzero]
  · have hone : samEeWords phy = 1 := by omega
    simp [hone, List.ofFn_succ, hbuf]

section Calls
variable {dir : MsecDir} {phy : MsecDevice}

theorem configSamEex_eq {inEe : RawSamEe} {offset : Nat} (h : samEexOffset inEe.eexType = some offset)
    (hbuf : buf 0 = inEe.rawSamEe 0) :
    configSamEex dir phy inEe = locked (onRegs buf (samEexBody dir phy offset)) := by
  rw [configSamEex, h, samEexBody, onRegs_writeWords (Nat.zero_le _), words_eq hbuf]
  rfl

theorem writePsaSummary_eq {s : StatsSummary} (hbuf : buf 0 = s.psaSumWord 0) :
    writePsaSummary dir phy s = onRegs buf (writeWords (countSummaryPsa dir) (rounds phy) 0) := by
  rw [onRegs_writeWords (Nat.zero_le _), words_eq hbuf]
  rfl

theorem clearIngStatsSumm_eq {s : StatsSummary} (hbuf : buf 0 = s.psaSumWord 0) :
    gpy2xxMsecClearIngStatsSumm phy s = locked (onRegs buf (clearStatsSummBody .ingress phy s.glbSummWord)) := by
  rw [gpy2xxMsecClearIngStatsSumm, writePsaSummary_eq hbuf, clearStatsSummBody, onRegs_bind]
  rfl

theorem clearEgrStatsSumm_eq {s : StatsSummary} (hbuf : buf 0 = s.psaSumWord 0) :
    gpy2xxMsecClearEgrStatsSumm phy s = locked (onRegs buf (clearStatsSummBody .egress phy s.glbSummWord)) := by
  rw [gpy2xxMsecClearEgrStatsSumm, writePsaSummary_eq hbuf, clearStatsSummBody, onRegs_bind]
  rfl

theorem onRegs_clearWords : onRegs buf (clearWords n) = pure () := by
  induction n with
  | zero => rfl
  | succ n ih => rw [clearWords, onRegs_bind, ih]; rfl

/-- `get_*_sam_eef` reads the words that `getSamEef` returns. -/
theorem onRegs_samEefBody : onRegs buf (samEefBody dir phy) =
    mboxReadWords (samEnableCtrlBase dir) (samEeWords phy) >>= fun _ => pure () := by
  rw [samEefBody, onRegs_bind, onRegs_clearWords, pure_bind, onRegs_readWords (Nat.zero_le _)]
  rfl

end Calls

end Buffer

/-! ## The loops -/

section Loops
variable {P : bitmapSig.Op → Prop} {addr n i : Nat} {t t' : Trace bitmapSig} {r : Except Errno Unit}

theorem all_writeWords (hload : ∀ j, j < i + n → j < maxWords → P (.inr (.load j)))
    (hwrite : ∀ j w, j < i + n → j < maxWords → P (.inl (.mboxWrite32 (addr + 4 * j) w))) (hi : i ≤ maxWords) :
    (writeWords addr n i).All P := by
  induction n generalizing i with
  | zero => exact Fallible.All.pure _
  | succ n ih =>
    refine Fallible.All.ite (fun _ => Fallible.All.pure _) fun hne => ?_
    have hlt : i < maxWords := Nat.lt_of_le_of_ne hi hne
    have hround : i < i + (n + 1) := by omega
    refine Fallible.All.bind (Fallible.All.always ⟨hload i hround hlt, fun _ => trivial⟩) fun w => ?_
    refine Fallible.All.bind ⟨hwrite i w hround hlt, fun _ => trivial⟩ fun _ => ih ?_ ?_ hlt
    · intro j hj
      exact hload j (by omega)
    · intro j w hj
      exact hwrite j w (by omega)

theorem all_readWords (hread : ∀ j, j < i + n → j < maxWords → P (.inl (.mboxRead32 (addr + 4 * j))))
    (hstore : ∀ j w, j < i + n → j < maxWords → P (.inr (.store j w))) (hi : i ≤ maxWords) :
    (readWords addr n i).All P := by
  induction n generalizing i with
  | zero => exact Fallible.All.pure _
  | succ n ih =>
    refine Fallible.All.ite (fun _ => Fallible.All.pure _) fun hne => ?_
    have hlt : i < maxWords := Nat.lt_of_le_of_ne hi hne
    have hround : i < i + (n + 1) := by omega
    refine Fallible.All.bind ⟨hread i hround hlt, fun _ => trivial⟩ fun w => ?_
    refine Fallible.All.bind (Fallible.All.always ⟨hstore i w hround hlt, fun _ => trivial⟩) fun _ => ih ?_ ?_ hlt
    · intro j hj
      exact hread j (by omega)
    · intro j w hj
      exact hstore j w (by omega)

theorem Transfers.mono {a : Nat} (h : Transfers t a i) (hsub : t ⊆ t') : Transfers t' a i := by
  rcases h with ⟨w, hload, hwrite⟩ | ⟨w, hread, hstore⟩
  · exact .inl ⟨w, hsub hload, hsub hwrite⟩
  · exact .inr ⟨w, hsub hread, hsub hstore⟩

theorem RegsOk.mono (h : RegsOk t') (hsub : t ⊆ t') : RegsOk t := fun o r he => h o r (hsub he)

theorem subset_round (e e' : Event bitmapSig) : t ⊆ e :: e' :: t := fun _ h =>
  List.mem_cons_of_mem _ (List.mem_cons_of_mem _ h)

theorem runs_load_bind {β : Type} {f : BitVec 32 → BitmapApi β} {r : Except Errno β} :
    (load i >>= f).Runs t r ↔ ∃ w t', t = ⟨.inr (.load i), w⟩ :: t' ∧ (f w).Runs t' r :=
  Fallible.runs_always_bind (S := bitmapSig) (o := .inr (.load i))

theorem runs_store_bind {β : Type} {w : BitVec 32} {f : Unit → BitmapApi β} {r : Except Errno β} :
    (store i w >>= f).Runs t r ↔ ∃ u t', t = ⟨.inr (.store i w), u⟩ :: t' ∧ (f u).Runs t' r :=
  Fallible.runs_always_bind (S := bitmapSig) (o := .inr (.store i w))

theorem runs_write_bind {β : Type} {w : BitVec 32} {f : Unit → BitmapApi β} {r : Except Errno β} :
    (mboxWrite addr w >>= f).Runs t r ↔
      (∃ e, t = [⟨.inl (.mboxWrite32 addr w), .error e⟩] ∧ r = .error e) ∨
      (∃ v t', t = ⟨.inl (.mboxWrite32 addr w), .ok v⟩ :: t' ∧ (f v).Runs t' r) :=
  Fallible.runs_access_bind (S := bitmapSig) (o := .inl (.mboxWrite32 addr w)) id id (fun _ => rfl) fun _ => rfl

theorem runs_read_bind {β : Type} {f : BitVec 32 → BitmapApi β} {r : Except Errno β} :
    (mboxRead addr >>= f).Runs t r ↔
      (∃ e, t = [⟨.inl (.mboxRead32 addr), .error e⟩] ∧ r = .error e) ∨
      (∃ v t', t = ⟨.inl (.mboxRead32 addr), .ok v⟩ :: t' ∧ (f v).Runs t' r) :=
  Fallible.runs_access_bind (S := bitmapSig) (o := .inl (.mboxRead32 addr)) id id (fun _ => rfl) fun _ => rfl

/-- A loop whose accesses succeed carries the words of its rounds, up to the end of the buffer. -/
theorem transfers_writeWords (h : (writeWords addr n i).Runs t r) (hok : RegsOk t) {j : Nat} (hij : i ≤ j)
    (hj : j < i + n) (hmax : j < maxWords) : Transfers t (addr + 4 * j) j := by
  induction n generalizing i t with
  | zero => omega
  | succ n ih =>
    rw [writeWords, if_neg (by omega)] at h
    obtain ⟨w, t₁, rfl, hwrite⟩ := (runs_load_bind).mp h
    rcases (runs_write_bind).mp hwrite with ⟨e, rfl, -⟩ | ⟨u, t₂, rfl, hrest⟩
    · cases hok _ _ (List.mem_cons_of_mem _ List.mem_cons_self)
    · by_cases hthis : j = i
      · rw [hthis]
        exact .inl ⟨w, List.mem_cons_self, List.mem_cons_of_mem _ List.mem_cons_self⟩
      · exact (ih hrest (hok.mono (subset_round _ _)) (by omega) (by omega)).mono (subset_round _ _)

theorem transfers_readWords (h : (readWords addr n i).Runs t r) (hok : RegsOk t) {j : Nat} (hij : i ≤ j)
    (hj : j < i + n) (hmax : j < maxWords) : Transfers t (addr + 4 * j) j := by
  induction n generalizing i t with
  | zero => omega
  | succ n ih =>
    rw [readWords, if_neg (by omega)] at h
    rcases (runs_read_bind).mp h with ⟨e, rfl, -⟩ | ⟨w, t₁, rfl, hstore⟩
    · cases hok _ _ List.mem_cons_self
    · obtain ⟨u, t₂, rfl, hrest⟩ := (runs_store_bind).mp hstore
      by_cases hthis : j = i
      · rw [hthis]
        exact .inr ⟨w, List.mem_cons_self, List.mem_cons_of_mem _ List.mem_cons_self⟩
      · exact (ih hrest (hok.mono (subset_round _ _)) (by omega) (by omega)).mono (subset_round _ _)

/-- Every word of the cleared stretch is stored to. -/
theorem stores_clearWords (h : (clearWords n).Runs t r) :
    r = .ok () ∧ ∀ j < n, ⟨.inr (.store j 0), ()⟩ ∈ t := by
  induction n generalizing t r with
  | zero =>
    obtain ⟨-, rfl⟩ := (Fallible.runs_pure).mp h
    exact ⟨rfl, fun j hj => by omega⟩
  | succ n ih =>
    rcases (Fallible.runs_bind).mp h with ⟨e, herr, -⟩ | ⟨t₁, u, t₂, rfl, hfirst, hlast⟩
    · cases (ih herr).1
    · obtain ⟨a, ⟨_, _, rfl, rfl, rfl⟩, rfl⟩ := (Fallible.runs_always).mp hlast
      refine ⟨rfl, fun j hj => ?_⟩
      by_cases hthis : j = n
      · rw [hthis]
        exact List.mem_append_right _ List.mem_cons_self
      · exact List.mem_append_left _ ((ih hfirst).2 j (by omega))

end Loops

/-! ## The calls -/

section Calls
variable {phy : MsecDevice} {c : BitmapCall} {t : Trace bitmapSig} {r : Except Errno Unit} {α β : Type}

/-- What a call touches: its registers, and the words of the buffer that its rounds are about. -/
def BitmapTouch (phy : MsecDevice) (regs : List Nat) : bitmapSig.Op → Prop
  | .inl o => ∀ a, o.mboxAddr = some a → a ∈ regs
  | .inr (.load i) | .inr (.store i _) => i < rounds phy ∧ i < maxWords

theorem touch_writeWords {addr : Nat} {regs : List Nat}
    (h : ∀ a ∈ tableAddrs addr ((phy.nrOfSas.toNat + 31) / 32), a ∈ regs) :
    (writeWords addr (rounds phy) 0).All (BitmapTouch phy regs) := by
  refine all_writeWords (fun j hj hmax => ⟨by omega, hmax⟩) (fun j w hj _ a ha => ?_) (Nat.zero_le _)
  obtain rfl := Option.some.inj ha
  rw [rounds] at hj
  exact h _ (mem_tableAddrs.mpr ⟨j, by omega, rfl⟩)

theorem touch_readWords {addr : Nat} {regs : List Nat}
    (h : ∀ a ∈ tableAddrs addr ((phy.nrOfSas.toNat + 31) / 32), a ∈ regs) :
    (readWords addr (rounds phy) 0).All (BitmapTouch phy regs) := by
  refine all_readWords (fun j hj _ a ha => ?_) (fun j w hj hmax => ⟨by omega, hmax⟩) (Nat.zero_le _)
  obtain rfl := Option.some.inj ha
  rw [rounds] at hj
  exact h _ (mem_tableAddrs.mpr ⟨j, by omega, rfl⟩)

theorem touch_access {o : RegOp} {g : o.Ret → Except Errno α} {regs : List Nat} {a : Nat}
    (ha : o.mboxAddr = some a) (h : a ∈ regs) :
    (Fallible.ofProg (.call (.inl o) fun v => .done (g v)) : BitmapApi α).All (BitmapTouch phy regs) := by
  refine ⟨fun b hb => ?_, fun _ => trivial⟩
  obtain rfl := Option.some.inj (ha.symm.trans hb)
  exact h

/-- Every call but the reads of the enable flags keeps to the words of its rounds. -/
theorem touch_body (h : ∀ dir, c ≠ .getSamEef dir) : (c.body phy).All (BitmapTouch phy (c.regs phy)) := by
  have hbitmap : ∀ a, c.bitmapReg = some a → ∀ b ∈ tableAddrs a ((phy.nrOfSas.toNat + 31) / 32), b ∈ c.regs phy := by
    intro a ha b hb
    rw [BitmapCall.regs, ha]
    exact List.mem_append_left _ hb
  have hsumm : ∀ addr, c.bitmapReg = some addr →
      (clearEgrSummBody addr phy).All (BitmapTouch phy (c.regs phy)) ∧
        (getEgrSummBody addr phy).All (BitmapTouch phy (c.regs phy)) := fun addr haddr =>
    ⟨Fallible.All.ite (fun _ => Fallible.All.throw _) fun _ => touch_writeWords (hbitmap addr haddr),
      Fallible.All.ite (fun _ => Fallible.All.throw _) fun _ => touch_readWords (hbitmap addr haddr)⟩
  cases c with
  | configSamEex dir eexType =>
    rw [BitmapCall.body]
    cases hoffset : samEexOffset eexType with
    | none => exact Fallible.All.throw _
    | some offset => exact touch_writeWords (hbitmap _ (congrArg (Option.map _) hoffset))
  | getSamEef dir => exact absurd rfl (h dir)
  | clearStatsSumm dir glbSummWord =>
    have hgl : countSummaryGl dir ∈ (BitmapCall.clearStatsSumm dir glbSummWord).regs phy :=
      List.mem_append_right _ List.mem_cons_self
    have hloop := touch_writeWords (hbitmap _ rfl)
    cases dir with
    | ingress => exact Fallible.All.bind hloop fun _ => touch_access rfl hgl
    | egress => exact Fallible.All.bind (touch_access rfl hgl) fun _ => hloop
  | getStatsSumm dir =>
    have hgl : countSummaryGl dir ∈ (BitmapCall.getStatsSumm dir).regs phy :=
      List.mem_append_right _ List.mem_cons_self
    have hloop := touch_readWords (hbitmap _ rfl)
    refine Fallible.All.bind ?_ fun _ => Fallible.All.pure _
    cases dir with
    | ingress => exact Fallible.All.bind hloop fun _ => touch_access rfl hgl
    | egress =>
      exact Fallible.All.bind (touch_access rfl hgl) fun _ => Fallible.All.bind hloop fun _ => Fallible.All.pure _
  | configIngCcEef => exact touch_writeWords (hbitmap _ rfl)
  | getIngCcEef => exact touch_readWords (hbitmap _ rfl)
  | clearSaPnThrSumm => exact (hsumm _ rfl).1
  | getSaPnThrSumm => exact (hsumm _ rfl).2
  | clearEgrSaExpSumm => exact (hsumm _ rfl).1
  | getEgrSaExpSumm => exact (hsumm _ rfl).2

/-- The accesses of a program that succeed carry a word of the buffer. -/
def Carries (addr i : Nat) (x : BitmapApi α) : Prop := ∀ t r, x.Runs t r → RegsOk t → Transfers t addr i

theorem Carries.first {addr i : Nat} {x : BitmapApi α} {f : α → BitmapApi β} (h : Carries addr i x) :
    Carries addr i (x >>= f) := by
  intro t r hrun hok
  rcases (Fallible.runs_bind).mp hrun with ⟨e, hx, -⟩ | ⟨t₁, a, t₂, rfl, hx, -⟩
  · exact h t _ hx hok
  · have hsub : t₁ ⊆ t₁ ++ t₂ := List.subset_append_left _ _
    exact (h t₁ _ hx (hok.mono hsub)).mono hsub

theorem Carries.after_write {addr i a : Nat} {w : BitVec 32} {f : Unit → BitmapApi β}
    (h : Carries addr i (f ())) : Carries addr i (mboxWrite a w >>= f) := by
  intro t r hrun hok
  rcases (runs_write_bind).mp hrun with ⟨e, rfl, -⟩ | ⟨u, t', rfl, hrest⟩
  · cases hok _ _ List.mem_cons_self
  · have hsub := List.subset_cons_self (⟨.inl (.mboxWrite32 a w), .ok u⟩ : Event bitmapSig) t'
    exact (h t' r hrest (hok.mono hsub)).mono hsub

theorem Carries.after_read {addr i a : Nat} {f : BitVec 32 → BitmapApi β}
    (h : ∀ w, Carries addr i (f w)) : Carries addr i (mboxRead a >>= f) := by
  intro t r hrun hok
  rcases (runs_read_bind).mp hrun with ⟨e, rfl, -⟩ | ⟨w, t', rfl, hrest⟩
  · cases hok _ _ List.mem_cons_self
  · have hsub := List.subset_cons_self (⟨.inl (.mboxRead32 a), .ok w⟩ : Event bitmapSig) t'
    exact (h w t' r hrest (hok.mono hsub)).mono hsub

/-- A word of the rounds is carried. -/
theorem carries_body {a i : Nat} (ha : c.bitmapReg = some a) (h : ∀ dir, c ≠ .getSamEef dir) (hi : i < rounds phy)
    (hmax : i < maxWords) : Carries (a + 4 * i) i (c.body phy) := by
  have hwrite : ∀ addr, Carries (addr + 4 * i) i (writeWords addr (rounds phy) 0) := fun addr t r hrun hok =>
    transfers_writeWords hrun hok (Nat.zero_le i) (by omega) hmax
  have hread : ∀ addr, Carries (addr + 4 * i) i (readWords addr (rounds phy) 0) := fun addr t r hrun hok =>
    transfers_readWords hrun hok (Nat.zero_le i) (by omega) hmax
  have hsome : rounds phy ≠ 0 := by omega
  cases c with
  | configSamEex dir eexType =>
    obtain ⟨offset, hoffset, rfl⟩ := Option.map_eq_some_iff.mp ha
    rw [BitmapCall.body, hoffset]
    exact hwrite _
  | getSamEef dir => exact absurd rfl (h dir)
  | clearStatsSumm dir glbSummWord =>
    obtain rfl := Option.some.inj ha
    cases dir with
    | ingress => exact (hwrite _).first
    | egress => exact Carries.after_write (hwrite _)
  | getStatsSumm dir =>
    obtain rfl := Option.some.inj ha
    refine Carries.first ?_
    cases dir with
    | ingress => exact (hread _).first
    | egress => exact Carries.after_read fun _ => (hread _).first
  | configIngCcEef =>
    obtain rfl := Option.some.inj ha
    exact hwrite _
  | getIngCcEef =>
    obtain rfl := Option.some.inj ha
    exact hread _
  | clearSaPnThrSumm | clearEgrSaExpSumm =>
    obtain rfl := Option.some.inj ha
    rw [BitmapCall.body, clearEgrSummBody, if_neg hsome]
    exact hwrite _
  | getSaPnThrSumm | getEgrSaExpSumm =>
    obtain rfl := Option.some.inj ha
    rw [BitmapCall.body, getEgrSummBody, if_neg hsome]
    exact hread _

end Calls

/-- Every register access succeeds, and the buffer holds zeros. -/
def bitmapAnswer : (o : bitmapSig.Op) → bitmapSig.Ret o
  | .inl o => okAnswer o
  | .inr (.load _) => (0 : BitVec 32)
  | .inr (.store _ _) => ()

theorem exists_regsOk_run (x : BitmapApi Unit) : ∃ t r, x.Runs t r ∧ RegsOk t := by
  obtain ⟨t, r, hrun, hans⟩ := Prog.exists_runs bitmapAnswer x.run
  refine ⟨t, r, hrun, fun o v hmem => ?_⟩
  have hv : v = okAnswer o := hans _ hmem
  rw [hv]
  exact succeeded_okAnswer o

/-- **SA bitmaps.** A call carries every flag of the table and stays in the caller's buffer exactly for
tables of 32 SAs; the calls that read the enable flags clear eight words of a buffer of one. -/
theorem bitmapExact_iff (phy : MsecDevice) (c : BitmapCall) :
    BitmapExact phy c ↔ (∀ dir, c ≠ .getSamEef dir) ∧ (c.bitmapReg = none ∨ phy.nrOfSas = 0 ∨ phy.nrOfSas = 32) := by
  obtain ⟨t, r, hrun, hok⟩ := exists_regsOk_run (c.body phy)
  have hwords : maxWords = 1 := rfl
  constructor
  · intro h
    have hnot : ∀ dir, c ≠ .getSamEef dir := by
      rintro dir rfl
      have hinside := h.inside t r hrun
      rcases (Fallible.runs_bind).mp hrun with ⟨e, hclear, -⟩ | ⟨t₁, u, t₂, rfl, hclear, -⟩
      · cases (stores_clearWords hclear).1
      · have hstore := (stores_clearWords hclear).2 7 (by decide)
        have hlt : 7 < maxWords := hinside _ (List.mem_append_left _ hstore)
        omega
    refine ⟨hnot, ?_⟩
    cases hreg : c.bitmapReg with
    | none => exact .inl rfl
    | some a =>
      by_cases hzero : phy.nrOfSas = 0
      · exact .inr (.inl hzero)
      · -- the word of the last SA belongs to a round only if there are 32
        have hpos : phy.nrOfSas.toNat ≠ 0 := fun h0 => hzero (BitVec.eq_of_toNat_eq h0)
        have htouch := Prog.Runs.all hrun (touch_body hnot)
        have hword : (phy.nrOfSas.toNat - 1) / 32 < rounds phy ∧ (phy.nrOfSas.toNat - 1) / 32 < maxWords := by
          rcases h.covers a hreg t r hrun hok (phy.nrOfSas.toNat - 1) (by omega) with ⟨w, hload, -⟩ | ⟨w, -, hstore⟩
          · exact htouch _ hload
          · exact htouch _ hstore
        rw [rounds] at hword
        refine .inr (.inr (BitVec.eq_of_toNat_eq ?_))
        have h32 : (32 : BitVec 8).toNat = 32 := rfl
        omega
  · intro h
    obtain ⟨hnot, hsize⟩ := h
    refine ⟨fun a ha t r hrun hok sa hsa => ?_, fun t r hrun e he => ?_⟩
    · have h32 : phy.nrOfSas.toNat = 32 := by
        rcases hsize with hnone | hzero | hall
        · cases ha.symm.trans hnone
        · rw [hzero] at hsa
          cases hsa
        · rw [hall]
          rfl
      have hword : sa / 32 = 0 := by omega
      rw [hword]
      have hround : 0 < rounds phy := by
        rw [rounds, h32]
        omega
      exact carries_body ha hnot hround (by omega) t r hrun hok
    · have htouch := Prog.Runs.all hrun (touch_body hnot) e he
      cases hop : e.op with
      | inl o =>
        rw [hop] at htouch
        exact htouch
      | inr b =>
        rw [hop] at htouch
        cases b with
        | load i => exact htouch.2
        | store i w => exact htouch.2

/-- For a table of 16 SAs no flag is written. -/
theorem bitmap_small_table_missed : ¬∀ phy c, BitmapExact phy c := by
  intro h
  obtain ⟨t, r, hrun, hok⟩ := exists_regsOk_run ((BitmapCall.configSamEex .ingress .set).body ⟨16⟩)
  have htransfers := (h ⟨16⟩ (.configSamEex .ingress .set)).covers _ rfl t r hrun hok 0 (by decide)
  obtain ⟨rfl, -⟩ := (Fallible.runs_pure).mp hrun
  rcases htransfers with ⟨w, hload, -⟩ | ⟨w, hread, -⟩
  · cases hload
  · cases hread

end Gpy2xx
