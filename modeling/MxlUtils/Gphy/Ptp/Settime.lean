import MxlUtils.Gphy.Ptp.Adjtime
import MxlUtils.Gphy.Ptp.Timestamps

/- Setting the time. `ptp_settime` hands seconds and nanoseconds, cut to 32 bits, to
   the update registers while the timestamp interrupt is off. Only the cut nanoseconds
   are checked; the wait for the device reports nothing; and a call that fails on the
   way leaves the interrupt off. -/
namespace Gpy2xx
open Effect Effect.Fallible Effect.Lock Bits

/-! ## The call -/

/-- `GMACF_MAC_INTERRUPT_ENABLE_L` and its bit `TSIE` -/
def interruptEnableL : Nat := 0x168
def tsiePos : Nat := 12

/-- `GMACF_MAC_TIMESTAMP_CONTROL_L_TSINIT_POS` -/
def tsinitPos : Nat := 2

/-- `_gpy2xx_ptp_init_systime` -/
def ptpInitSystime (phy : Gpy211Device) (sec nsec : BitVec 32) : Api Unit :=
  if nsec.toNat > maxNsecInSec then throw EINVAL
  else do
    smdioClrBit (phy.gmacfBaseAddr + interruptEnableL) tsiePos
    isRwDone (phy.gmacfBaseAddr + timestampControlL) tsinitPos
    smdioWriteAt (phy.gmacfBaseAddr + secondsUpdateL) (sec.extractLsb' 0 16)
    smdioWriteAt (phy.gmacfBaseAddr + secondsUpdateH) (sec.extractLsb' 16 16)
    smdioWriteAt (phy.gmacfBaseAddr + nanosecondsUpdateL) (nsec.extractLsb' 0 16)
    smdioWriteAt (phy.gmacfBaseAddr + nanosecondsUpdateH) (nsec.extractLsb' 16 16)
    smdioSetBit (phy.gmacfBaseAddr + timestampControlL) tsinitPos
    isRwDone (phy.gmacfBaseAddr + timestampControlL) tsinitPos
    smdioSetBit (phy.gmacfBaseAddr + interruptEnableL) tsiePos

/-- Both parts of the time are passed on as `u32`. -/
def gpy2xxPtpSettime (phy : Gpy211Device) (ts : Timespec64) : Call Unit :=
  locked (ptpInitSystime phy (ts.tvSec.setWidth 32) (ts.tvNsec.setWidth 32))

/-! ## What the call is for -/

/-- The times that the registers of the clock can hold. -/
def Timespec64.InRange (ts : Timespec64) : Prop :=
  (0 ≤ ts.tvSec.toInt ∧ ts.tvSec.toInt < 2 ^ 32) ∧ 0 ≤ ts.tvNsec.toInt ∧ ts.tvNsec.toInt ≤ 999999999

section Clock
variable (phy : Gpy211Device)

abbrev Gpy211Device.interruptEnable : Nat := smdioReg (phy.gmacfBaseAddr + interruptEnableL)
abbrev Gpy211Device.timestampControl : Nat := smdioReg (phy.gmacfBaseAddr + timestampControlL)

/-- The device was told, last after the accesses `pre`, to take over the update registers, and has shown since
that it has. -/
def Initialised (t pre : RegTrace) : Prop :=
  ∃ v post, t = pre ++ ⟨.smdioWrite phy.timestampControl v, .ok ()⟩ :: post ∧ v.getLsbD tsinitPos = true ∧
    (∀ w, ⟨.smdioWrite phy.timestampControl w, .ok ()⟩ ∈ post → w.getLsbD tsinitPos = false) ∧
    ∃ w, ⟨.smdioRead phy.timestampControl, .ok w⟩ ∈ post ∧ w.getLsbD tsinitPos = false

/-- What was last written to a register, by the accesses `pre`. -/
def held (pre : RegTrace) (offset : Nat) : Option (BitVec 16) :=
  (smdioWritten pre).reverse.lookup (smdioReg (phy.gmacfBaseAddr + offset))

/-- The time on a stopped clock after the accesses `t`: that of the update registers, once the device has shown
that it took them over; otherwise it may be any. -/
def StoppedClock (t : RegTrace) (sec nsec : BitVec 32) : Prop :=
  ∀ pre, Initialised phy t pre →
    (∀ v ∈ held phy pre secondsUpdateL, sec.extractLsb' 0 16 = v) ∧
    (∀ v ∈ held phy pre secondsUpdateH, sec.extractLsb' 16 16 = v) ∧
    (∀ v ∈ held phy pre nanosecondsUpdateL, nsec.extractLsb' 0 16 = v) ∧
    ∀ v ∈ held phy pre nanosecondsUpdateH, nsec.extractLsb' 16 16 = v

/-- A read of the system time shows that of the clock. -/
def ShowsNow (sec nsec : BitVec 32) (e : Event regSig) : Prop :=
  match e with
  | ⟨.smdioRead reg, .ok v⟩ =>
    (reg = smdioReg (phy.gmacfBaseAddr + systemTimeSecondsL) → v = sec.extractLsb' 0 16) ∧
    (reg = smdioReg (phy.gmacfBaseAddr + systemTimeSecondsH) → v = sec.extractLsb' 16 16) ∧
    (reg = smdioReg (phy.gmacfBaseAddr + systemTimeNanosecondsL) → v = nsec.extractLsb' 0 16) ∧
    (reg = smdioReg (phy.gmacfBaseAddr + systemTimeNanosecondsH) → v = nsec.extractLsb' 16 16)
  | _ => True

/-- After a write that clears the interrupt enable bit, one that sets it is tried. -/
def TsieRestored (t : RegTrace) : Prop :=
  ∀ pre v post, t = pre ++ ⟨.smdioWrite phy.interruptEnable v, .ok ()⟩ :: post → v.getLsbD tsiePos = false →
    ∃ w a, ⟨.smdioWrite phy.interruptEnable w, a⟩ ∈ post ∧ w.getLsbD tsiePos = true

/-- The times that can be set are accepted, and no others; a time that was set is the one that `gettime`
returns on a stopped clock; and the interrupt is on again, unless the write that sets it fails. -/
structure SettimeExact (ts : Timespec64) (t : RegTrace) (r : Except Errno Unit) : Prop where
  accepts : t ≠ [] ↔ ts.InRange
  returns : r = .ok () → ∀ sec nsec, StoppedClock phy t sec nsec → ∀ t' ts', (gpy2xxPtpGettime phy).Runs t' (.ok ts') →
    (∀ e ∈ accesses t', ShowsNow phy sec nsec e) → ts' = ts
  restored : TsieRestored phy t

/-! ## The condition -/

/-- The last access was not refused. -/
def EndsOk (t : RegTrace) : Prop := ∀ e, t.getLast? = some e → refused e = false

/-- The time can be set, or its nanoseconds are refused even when cut to 32 bits; where no access stops the
call, the device shows that it has taken over the time; and none stops it after the first two, unless it is
the write that sets the interrupt enable bit. -/
structure SettimeUnharmed (ts : Timespec64) (t : RegTrace) : Prop where
  range : ts.InRange ∨ 999999999 < ts.tvNsec.toNat % 2 ^ 32
  shown : ts.InRange → EndsOk t → ∃ pre, Initialised phy t pre
  stops : 2 < t.length → ∀ e, t.getLast? = some e → refused e → ∃ w, e.op = .smdioWrite phy.interruptEnable w

end Clock

/-! ## Runs of the call -/

section Runs
variable {phy : Gpy211Device} {sec nsec : BitVec 32} {t : RegTrace} {r : Except Errno Unit}

/-- The last access was refused. -/
def EndsRefused (t : RegTrace) : Prop := ∃ t₁ ev, t = t₁ ++ [ev] ∧ refused ev

theorem EndsRefused.append {t₁ t₂ : RegTrace} (h : EndsRefused t₂) : EndsRefused (t₁ ++ t₂) := by
  obtain ⟨t₃, ev, rfl, href⟩ := h
  exact ⟨t₁ ++ t₃, ev, (List.append_assoc ..).symm, href⟩

theorem runs_smdioSetBit {addr pos : Nat} (h : (smdioSetBit addr pos).Runs t r) :
    (∃ e, r = .error e ∧ t = [⟨.smdioRead (smdioReg addr), .error e⟩]) ∨
      ∃ old, t = [⟨.smdioRead (smdioReg addr), .ok old⟩, ⟨.smdioWrite (smdioReg addr) (old ||| 1 <<< pos), r⟩] := by
  rcases (runs_smdioRead_bind).mp h with ⟨e, rfl, rfl⟩ | ⟨old, t', rfl, hwrite⟩
  · exact .inl ⟨e, rfl, rfl⟩
  · rw [(runs_smdioWrite).mp hwrite]
    exact .inr ⟨old, rfl⟩

theorem runs_smdioClrBit {addr pos : Nat} (h : (smdioClrBit addr pos).Runs t r) :
    (∃ e, r = .error e ∧ t = [⟨.smdioRead (smdioReg addr), .error e⟩]) ∨
      ∃ old, t = [⟨.smdioRead (smdioReg addr), .ok old⟩,
        ⟨.smdioWrite (smdioReg addr) (old &&& ~~~((1 : BitVec 16) <<< pos) ||| 0), r⟩] := by
  rcases (runs_smdioRead_bind).mp h with ⟨e, rfl, rfl⟩ | ⟨old, t', rfl, hwrite⟩
  · exact .inl ⟨e, rfl, rfl⟩
  · rw [(runs_smdioWrite).mp hwrite]
    exact .inr ⟨old, rfl⟩

/-- The words of the update registers. -/
def settimeWords (phy : Gpy211Device) (sec nsec : BitVec 32) : List (Nat × BitVec 16) := [
  (phy.gmacfBaseAddr + secondsUpdateL, sec.extractLsb' 0 16), (phy.gmacfBaseAddr + secondsUpdateH, sec.extractLsb' 16 16),
  (phy.gmacfBaseAddr + nanosecondsUpdateL, nsec.extractLsb' 0 16),
  (phy.gmacfBaseAddr + nanosecondsUpdateH, nsec.extractLsb' 16 16)]

/-- The bit that has the device take over the time, and the wait for it. -/
def startInit (phy : Gpy211Device) : Api Unit := do
  smdioSetBit (phy.gmacfBaseAddr + timestampControlL) tsinitPos
  isRwDone (phy.gmacfBaseAddr + timestampControlL) tsinitPos

/-- What is done while the interrupt is off. -/
def takeOver (phy : Gpy211Device) (sec nsec : BitVec 32) : Api Unit := do
  isRwDone (phy.gmacfBaseAddr + timestampControlL) tsinitPos
  writeAll (startInit phy) (settimeWords phy sec nsec)

theorem ptpInitSystime_eq (hnsec : ¬nsec.toNat > maxNsecInSec) : ptpInitSystime phy sec nsec = (do
    smdioClrBit (phy.gmacfBaseAddr + interruptEnableL) tsiePos
    takeOver phy sec nsec
    smdioSetBit (phy.gmacfBaseAddr + interruptEnableL) tsiePos) := by
  rw [ptpInitSystime, if_neg hnsec]
  simp only [takeOver, startInit, settimeWords, writeAll, bind_assoc]

/-- The bit is set, and read until the device has cleared it or for a hundred times. -/
theorem runs_startInit (h : (startInit phy).Runs t r) : (∃ e, r = .error e ∧ EndsRefused t) ∨
    r = .ok () ∧ ∃ old polls, t = ⟨.smdioRead phy.timestampControl, .ok old⟩ ::
      ⟨.smdioWrite phy.timestampControl (old ||| 1 <<< tsinitPos), .ok ()⟩ :: polls ∧
      ∀ e ∈ polls, isSmdioWrite e.op = false := by
  rcases (runs_bind).mp h with ⟨e, hset, rfl⟩ | ⟨t₁, _, polls, rfl, hset, hpoll⟩
  · rcases runs_smdioSetBit hset with ⟨e, -, rfl⟩ | ⟨old, rfl⟩
    · exact .inl ⟨_, rfl, [], _, rfl, rfl⟩
    · exact .inl ⟨_, rfl, [_], _, rfl, rfl⟩
  · obtain ⟨rfl, hreads⟩ := runs_isRwDone hpoll
    rcases runs_smdioSetBit hset with ⟨e, hc, -⟩ | ⟨old, rfl⟩
    · cases hc
    · exact .inr ⟨rfl, old, polls, rfl, hreads⟩

/-- While the interrupt is off: a failure ends it, or all is written and waited for. -/
theorem runs_takeOver (h : (takeOver phy sec nsec).Runs t r) : (∃ e, r = .error e ∧ EndsRefused t) ∨
    r = .ok () ∧ ∃ before old polls, t = before ++ smdioOk (settimeWords phy sec nsec) ++
      ⟨.smdioRead phy.timestampControl, .ok old⟩ ::
        ⟨.smdioWrite phy.timestampControl (old ||| 1 <<< tsinitPos), .ok ()⟩ :: polls ∧
      (∀ e ∈ before, isSmdioWrite e.op = false) ∧ ∀ e ∈ polls, isSmdioWrite e.op = false := by
  rcases (runs_bind).mp h with ⟨e, hwait, -⟩ | ⟨before, _, t₂, rfl, hwait, hrest⟩
  · cases (runs_isRwDone hwait).1
  obtain ⟨-, hbefore⟩ := runs_isRwDone hwait
  rcases (runs_writeAll).mp hrest with ⟨l, w, _, e, -, rfl, rfl⟩ | ⟨t₃, rfl, hstart⟩
  · exact .inl ⟨e, rfl, EndsRefused.append ⟨_, _, rfl, rfl⟩⟩
  · rcases runs_startInit hstart with ⟨e, rfl, hends⟩ | ⟨rfl, old, polls, rfl, hpolls⟩
    · exact .inl ⟨e, rfl, hends.append.append⟩
    · exact .inr ⟨rfl, before, old, polls, (List.append_assoc ..).symm, hbefore, hpolls⟩

/-- None of the accesses is a write of the interrupt enable register. -/
def leavesEnable (phy : Gpy211Device) (o : RegOp) : Prop := ∀ w, o ≠ .smdioWrite phy.interruptEnable w

theorem interruptEnable_ne {offset : Nat} (hapart : 0x168 + 2 ≤ offset) (hround : offset + 2 ≤ 0x168 + 0x20000) :
    phy.interruptEnable ≠ smdioReg (phy.gmacfBaseAddr + offset) := smdioReg_ne hapart hround

theorem leavesEnable_write {offset : Nat} {v : BitVec 16} (hapart : 0x168 + 2 ≤ offset)
    (hround : offset + 2 ≤ 0x168 + 0x20000) : leavesEnable phy (.smdioWrite (smdioReg (phy.gmacfBaseAddr + offset)) v) := by
  intro w hsame
  exact interruptEnable_ne hapart hround (RegOp.smdioWrite.inj hsame).1.symm

theorem all_takeOver : (takeOver phy sec nsec).All (leavesEnable phy) := by
  have hwait : (isRwDone (phy.gmacfBaseAddr + timestampControlL) tsinitPos).All (leavesEnable phy) :=
    all_isRwDone nofun
  refine All.bind hwait fun _ => All.bind ?_ fun _ => All.bind ?_ fun _ => All.bind ?_ fun _ => All.bind ?_ fun _ => ?_
  · exact ⟨leavesEnable_write (by decide) (by decide), fun _ => trivial⟩
  · exact ⟨leavesEnable_write (by decide) (by decide), fun _ => trivial⟩
  · exact ⟨leavesEnable_write (by decide) (by decide), fun _ => trivial⟩
  · exact ⟨leavesEnable_write (by decide) (by decide), fun _ => trivial⟩
  · refine All.bind (All.bind ⟨nofun, fun _ => trivial⟩ fun _ => ?_) fun _ => hwait
    exact ⟨leavesEnable_write (by decide) (by decide), fun _ => trivial⟩

theorem cleared_getLsbD (old : BitVec 16) : (old &&& ~~~((1 : BitVec 16) <<< tsiePos) ||| 0).getLsbD tsiePos = false := by
  simp [tsiePos]

theorem tsie_set (old : BitVec 16) : (old ||| 1 <<< tsiePos).getLsbD tsiePos = true := by simp [tsiePos]

theorem tsinit_set (old : BitVec 16) : (old ||| 1 <<< tsinitPos).getLsbD tsinitPos = true := by simp [tsinitPos]

/-- Where the call ends: before the interrupt is off, while it is off, or with the write that turns it on. -/
inductive InitEnds (phy : Gpy211Device) (sec nsec : BitVec 32) : RegTrace → Except Errno Unit → Prop where
  | notCleared {t : RegTrace} {e : Errno} (hlast : EndsRefused t) (hlength : t.length ≤ 2)
    (hnone : ∀ v, ⟨.smdioWrite phy.interruptEnable v, .ok ()⟩ ∉ t) : InitEnds phy sec nsec t (.error e)
  | stopped {c : Event regSig} {v : BitVec 16} {tail : RegTrace} {e : Errno} (hclear : v.getLsbD tsiePos = false)
    (hlast : EndsRefused tail) (hnone : ∀ x ∈ tail, leavesEnable phy x.op) :
    InitEnds phy sec nsec (c :: ⟨.smdioWrite phy.interruptEnable v, .ok ()⟩ :: tail) (.error e)
  | enabled {c : Event regSig} {v old : BitVec 16} {init : RegTrace} {a : Except Errno Unit}
    (hfirst : c.op = .smdioRead phy.interruptEnable) (hinit : (takeOver phy sec nsec).Runs init (.ok ())) :
    InitEnds phy sec nsec (c :: ⟨.smdioWrite phy.interruptEnable v, .ok ()⟩ :: (init ++
      [⟨.smdioRead phy.interruptEnable, .ok old⟩, ⟨.smdioWrite phy.interruptEnable (old ||| 1 <<< tsiePos), a⟩])) a

theorem initEnds (hnsec : ¬nsec.toNat > maxNsecInSec) (h : (ptpInitSystime phy sec nsec).Runs t r) :
    InitEnds phy sec nsec t r := by
  rw [ptpInitSystime_eq hnsec] at h
  rcases (runs_bind).mp h with ⟨e, hclr, rfl⟩ | ⟨t₁, _, t₂, rfl, hclr, hrest⟩
  · rcases runs_smdioClrBit hclr with ⟨e, -, rfl⟩ | ⟨old, rfl⟩
    · exact .notCleared ⟨[], _, rfl, rfl⟩ (Nat.le_succ 1) (by simp)
    · exact .notCleared ⟨[_], _, rfl, rfl⟩ (Nat.le_refl _) (by simp)
  rcases runs_smdioClrBit hclr with ⟨_, hc, -⟩ | ⟨old, rfl⟩
  · cases hc
  rcases (runs_bind).mp hrest with ⟨e, htake, rfl⟩ | ⟨init, _, t₄, rfl, htake, hset⟩
  · rcases runs_takeOver htake with ⟨_, -, hends⟩ | ⟨hc, -⟩
    · exact .stopped (cleared_getLsbD old) hends (Prog.Runs.all htake all_takeOver)
    · cases hc
  · rcases runs_smdioSetBit hset with ⟨e, rfl, rfl⟩ | ⟨old', rfl⟩
    · refine .stopped (cleared_getLsbD old) ⟨init, _, rfl, rfl⟩ fun x hx => ?_
      rcases List.mem_append.mp (show x ∈ init ++ [_] from hx) with hinit | hread
      · exact Prog.Runs.all htake all_takeOver x hinit
      · rw [List.mem_singleton.mp hread]
        nofun
    · exact .enabled rfl htake

/-! ## The interrupt -/

/-- What stands at the end of a list stands behind any other element. -/
theorem mem_of_concat_eq {α : Type} {pre post l : List α} {x y : α} (h : l ++ [y] = pre ++ x :: post) (hne : x ≠ y) :
    y ∈ post := by
  rcases List.eq_nil_or_concat post with rfl | ⟨post', z, rfl⟩
  · obtain ⟨-, hsame⟩ := List.append_inj' h rfl
    exact absurd (List.cons.inj hsame).1.symm hne
  · rw [List.concat_eq_append] at h ⊢
    rw [← List.cons_append, ← List.append_assoc] at h
    obtain ⟨-, hsame⟩ := List.append_inj' h rfl
    obtain ⟨rfl, -⟩ := List.cons.inj hsame
    exact List.mem_append_right _ (List.mem_singleton_self _)

/-- The interrupt is on again exactly where no access stops the call while it is off. -/
theorem tsieRestored_iff (h : InitEnds phy sec nsec t r) : TsieRestored phy t ↔
    (2 < t.length → ∀ e, t.getLast? = some e → refused e → ∃ w, e.op = .smdioWrite phy.interruptEnable w) := by
  cases h with
  | notCleared hlast hlength hnone =>
    refine iff_of_true (fun pre v post hsplit _ => ?_) fun hlong => absurd hlong (by omega)
    exact absurd (hsplit ▸ List.mem_append_right pre List.mem_cons_self) (hnone v)
  | @stopped c v tail e hclear hlast hnone =>
    obtain ⟨t₁, ev, rfl, href⟩ := hlast
    have hev : leavesEnable phy ev.op := hnone ev (List.mem_append_right _ (List.mem_singleton_self ev))
    refine iff_of_false (fun hrestored => ?_) fun hstops => ?_
    · obtain ⟨w, a, hmem, -⟩ := hrestored [c] v _ rfl hclear
      exact hnone _ hmem w rfl
    · obtain ⟨w, hw⟩ := hstops (by simp) ev (by simp [List.getLast?_cons]) href
      exact hev w hw
  | @enabled c v old init a hfirst hinit =>
    refine iff_of_true (fun pre u post hsplit hcleared => ?_) fun _ e hlast _ => ?_
    · -- the write that sets the bit is the last access, so it is behind any other
      refine ⟨old ||| 1 <<< tsiePos, r, mem_of_concat_eq (l := c :: _ :: (init ++ [_])) (by simpa using hsplit) ?_, tsie_set old⟩
      intro hsame
      have hbit : u = old ||| 1 <<< tsiePos := (RegOp.smdioWrite.inj (congrArg (fun e => e.op) hsame)).2
      rw [hbit, tsie_set] at hcleared
      cases hcleared
    · obtain rfl : _ = e := by simpa [List.getLast?_cons] using hlast
      exact ⟨_, rfl⟩

/-! ## The clock -/

/-- An element that is one of a kind in a list splits it in one way. -/
theorem eq_of_split {α : Type} {P : α → Prop} {pre post l l' : List α} {x y : α} (hl : ∀ z ∈ l, ¬P z) (hl' : ∀ z ∈ l', ¬P z)
    (hy : P y) (h : l ++ x :: l' = pre ++ y :: post) : pre = l := by
  rcases List.append_eq_append_iff.mp h with ⟨m, rfl, hm⟩ | ⟨m, rfl, hm⟩
  · cases m with
    | nil => simp
    | cons z m =>
      obtain ⟨rfl, rfl⟩ := List.cons.inj hm
      exact absurd hy (hl' y (by simp))
  · cases m with
    | nil => simp
    | cons z m =>
      obtain ⟨rfl, -⟩ := List.cons.inj hm
      exact absurd hy (hl y (by simp))

theorem joined_halves (x : BitVec 32) :
    (x.extractLsb' 0 16).setWidth 64 ||| (x.extractLsb' 16 16).setWidth 64 <<< 16 = x.setWidth 64 := by
  have hword : x.extractLsb' 16 16 ++ x.extractLsb' 0 16 = x := by rw [BitVec.extractLsb'_append_extractLsb']
  apply BitVec.eq_of_toNat_eq
  rw [toNat_halves, ← toNat_append_halves, hword, BitVec.toNat_setWidth]
  omega

/-- Nanoseconds below a second leave the top bit alone. -/
theorem and_mask_of_le (hnsec : nsec.toNat ≤ maxNsecInSec) : nsec.extractLsb' 16 16 &&& 0x7FFF = nsec.extractLsb' 16 16 := by
  have hlt : (nsec.extractLsb' 16 16).toNat < 2 ^ 15 := by
    rw [BitVec.extractLsb'_toNat, Nat.shiftRight_eq_div_pow]
    rw [maxNsecInSec] at hnsec
    omega
  apply BitVec.eq_of_toNat_eq
  rw [BitVec.toNat_and]
  exact Nat.and_two_pow_sub_one_of_lt_two_pow hlt

/-- What `gettime` returns on a stopped clock. -/
theorem gettime_stopped {t : Trace regSig.locking} {ts : Timespec64} (hnsec : nsec.toNat ≤ maxNsecInSec)
    (h : (gpy2xxPtpGettime phy).Runs t (.ok ts)) (hshows : ∀ e ∈ accesses t, ShowsNow phy sec nsec e) :
    ts = ⟨sec.setWidth 64, nsec.setWidth 64⟩ := by
  obtain ⟨v₁, v₂, v₃, v₄, hacc, rfl⟩ := runs_gettime_ok h
  rw [hacc] at hshows
  simp only [List.forall_mem_cons] at hshows
  obtain ⟨h₁, h₂, h₃, h₄, -⟩ := hshows
  have hv₁ : v₁ = _ := h₁.1 rfl
  have hv₂ : v₂ = _ := h₂.2.1 rfl
  have hv₃ : v₃ = _ := h₃.2.2.1 rfl
  have hv₄ : v₄ = _ := h₄.2.2.2 rfl
  rw [hv₁, hv₂, hv₃, hv₄, and_mask_of_le hnsec, joined_halves, joined_halves]

/-- The answers of a device that shows `shown`. -/
def smdioAnswer (shown : Nat → BitVec 16) : (o : RegOp) → o.Ret
  | .smdioRead reg => .ok (shown reg)
  | o => okAnswer o

/-- Some call reads the clock, whatever time it shows. -/
theorem exists_gettime (phy : Gpy211Device) (sec nsec : BitVec 32) :
    ∃ t ts, (gpy2xxPtpGettime phy).Runs t (.ok ts) ∧ ∀ e ∈ accesses t, ShowsNow phy sec nsec e := by
  let reg (offset : Nat) : Nat := smdioReg (phy.gmacfBaseAddr + offset)
  have hne : ∀ {a b : Nat}, a + 2 ≤ b → b + 2 ≤ a + 0x20000 → reg b ≠ reg a := fun hapart hround =>
    (smdioReg_ne hapart hround).symm
  have hshown : ∀ o, ∃ v : BitVec 16, ShowsNow phy sec nsec ⟨.smdioRead o, .ok v⟩ := by
    intro o
    refine ⟨if o = reg systemTimeSecondsL then sec.extractLsb' 0 16
      else if o = reg systemTimeSecondsH then sec.extractLsb' 16 16
      else if o = reg systemTimeNanosecondsL then nsec.extractLsb' 0 16 else nsec.extractLsb' 16 16, ?_, ?_, ?_, ?_⟩
    · intro ho
      rw [if_pos ho]
    · intro ho
      rw [if_neg (ho ▸ hne (by decide) (by decide)), if_pos ho]
    · intro ho
      rw [if_neg (ho ▸ hne (by decide) (by decide)), if_neg (ho ▸ hne (by decide) (by decide)), if_pos ho]
    · intro ho
      rw [if_neg (ho ▸ hne (by decide) (by decide)), if_neg (ho ▸ hne (by decide) (by decide)),
        if_neg (ho ▸ hne (by decide) (by decide))]
  choose shown hshown using hshown
  obtain ⟨t, r, hrun, hans⟩ := exists_runs (smdioAnswer shown) (gpy2xxPtpGettime phy)
  have hok : AllOk (accesses t) := by
    intro e he
    rw [hans e he]
    cases e.op <;> rfl
  cases r with
  | error e => exact absurd hok (not_allOk_of_gettime_error hrun)
  | ok ts =>
    refine ⟨t, ts, hrun, fun e he => ?_⟩
    obtain ⟨op, ret⟩ := e
    obtain rfl : ret = smdioAnswer shown op := hans _ he
    cases op with
    | smdioRead reg => exact hshown reg
    | _ => trivial

/-- The writes before the device is told to take over the time. -/
theorem held_words {before : RegTrace} {c rc : Event regSig} {v : BitVec 16} (hc : isSmdioWrite c.op = false)
    (hrc : isSmdioWrite rc.op = false) (hbefore : ∀ e ∈ before, isSmdioWrite e.op = false) {pre : RegTrace}
    (hpre : pre = c :: ⟨.smdioWrite phy.interruptEnable v, .ok ()⟩ :: (before ++ smdioOk (settimeWords phy sec nsec) ++ [rc])) :
    held phy pre secondsUpdateL = some (sec.extractLsb' 0 16) ∧
    held phy pre secondsUpdateH = some (sec.extractLsb' 16 16) ∧
    held phy pre nanosecondsUpdateL = some (nsec.extractLsb' 0 16) ∧
    held phy pre nanosecondsUpdateH = some (nsec.extractLsb' 16 16) := by
  have hsplit : pre = [c] ++ ([⟨.smdioWrite phy.interruptEnable v, .ok ()⟩] ++
      (before ++ (smdioOk (settimeWords phy sec nsec) ++ [rc]))) := by simp [hpre]
  have hwritten : smdioWritten pre = (phy.interruptEnable, v) :: registers (settimeWords phy sec nsec) := by
    rw [hsplit, smdioWritten_append, smdioWritten_append, smdioWritten_append, smdioWritten_append,
      smdioWritten_reads hbefore, smdioWritten_smdioOk, @smdioWritten_reads [c] (by simpa using hc),
      @smdioWritten_reads [rc] (by simpa using hrc)]
    simp [smdioWritten]
  have hne : ∀ {a b : Nat}, a + 2 ≤ b → b + 2 ≤ a + 0x20000 →
      (smdioReg (phy.gmacfBaseAddr + a) == smdioReg (phy.gmacfBaseAddr + b)) = false := fun hapart hround =>
    beq_eq_false_iff_ne.mpr (smdioReg_ne hapart hround)
  have h₁₂ := @hne secondsUpdateL secondsUpdateH (by decide) (by decide)
  have h₁₃ := @hne secondsUpdateL nanosecondsUpdateL (by decide) (by decide)
  have h₁₄ := @hne secondsUpdateL nanosecondsUpdateH (by decide) (by decide)
  have h₂₃ := @hne secondsUpdateH nanosecondsUpdateL (by decide) (by decide)
  have h₂₄ := @hne secondsUpdateH nanosecondsUpdateH (by decide) (by decide)
  have h₃₄ := @hne nanosecondsUpdateL nanosecondsUpdateH (by decide) (by decide)
  have hlist : (smdioWritten pre).reverse =
      [(smdioReg (phy.gmacfBaseAddr + nanosecondsUpdateH), nsec.extractLsb' 16 16),
        (smdioReg (phy.gmacfBaseAddr + nanosecondsUpdateL), nsec.extractLsb' 0 16),
        (smdioReg (phy.gmacfBaseAddr + secondsUpdateH), sec.extractLsb' 16 16),
        (smdioReg (phy.gmacfBaseAddr + secondsUpdateL), sec.extractLsb' 0 16), (phy.interruptEnable, v)] := by
    rw [hwritten]
    rfl
  have hskip : ∀ {r r' : Nat} {w : BitVec 16} {l : List (Nat × BitVec 16)}, (r == r') = false →
      ((r', w) :: l).lookup r = l.lookup r := fun hr => by rw [List.lookup_cons, hr]
  refine ⟨?_, ?_, ?_, ?_⟩
  · rw [held, hlist, hskip h₁₄, hskip h₁₃, hskip h₁₂, List.lookup_cons_self]
  · rw [held, hlist, hskip h₂₄, hskip h₂₃, List.lookup_cons_self]
  · rw [held, hlist, hskip h₃₄, List.lookup_cons_self]
  · rw [held, hlist, List.lookup_cons_self]

theorem not_control_of_read {e : Event regSig} (h : isSmdioWrite e.op = false) :
    ¬∃ w, e.op = .smdioWrite phy.timestampControl w := by
  rintro ⟨w, hw⟩
  rw [hw] at h
  cases h

/-- The update registers are not the control register. -/
theorem not_control_of_word {e : Event regSig} (h : e ∈ smdioOk (settimeWords phy sec nsec)) :
    ¬∃ w, e.op = .smdioWrite phy.timestampControl w := by
  have hne : ∀ {b : Nat}, 0x1600 + 2 ≤ b → b + 2 ≤ 0x1600 + 0x20000 →
      phy.timestampControl ≠ smdioReg (phy.gmacfBaseAddr + b) := smdioReg_ne
  rintro ⟨w, hw⟩
  simp only [smdioOk, settimeWords, List.map_cons, List.map_nil, List.mem_cons, List.not_mem_nil, or_false] at h
  rcases h with rfl | rfl | rfl | rfl
  · exact hne (by decide) (by decide) (RegOp.smdioWrite.inj hw).1.symm
  · exact hne (by decide) (by decide) (RegOp.smdioWrite.inj hw).1.symm
  · exact hne (by decide) (by decide) (RegOp.smdioWrite.inj hw).1.symm
  · exact hne (by decide) (by decide) (RegOp.smdioWrite.inj hw).1.symm

/-- The time that was set is what the clock shows exactly where the device shows that it has taken it over. -/
theorem returns_iff {c : Event regSig} {v old : BitVec 16} {init : RegTrace} {a : Except Errno Unit}
    (hnsec : nsec.toNat ≤ maxNsecInSec) (hfirst : c.op = .smdioRead phy.interruptEnable)
    (hinit : (takeOver phy sec nsec).Runs init (.ok ()))
    (ht : t = c :: ⟨.smdioWrite phy.interruptEnable v, .ok ()⟩ :: (init ++
      [⟨.smdioRead phy.interruptEnable, .ok old⟩, ⟨.smdioWrite phy.interruptEnable (old ||| 1 <<< tsiePos), a⟩])) :
    (∀ sec' nsec', StoppedClock phy t sec' nsec' → ∀ t' ts', (gpy2xxPtpGettime phy).Runs t' (.ok ts') →
      (∀ e ∈ accesses t', ShowsNow phy sec' nsec' e) → ts' = ⟨sec.setWidth 64, nsec.setWidth 64⟩) ↔
      ∃ pre, Initialised phy t pre := by
  constructor
  · intro h
    by_contra hnone
    -- nothing is known of the clock, so it may show other seconds
    obtain ⟨t', ts', hrun, hshows⟩ := exists_gettime phy (~~~sec) nsec
    have hts := h (~~~sec) nsec (fun pre hpre => absurd ⟨pre, hpre⟩ hnone) t' ts' hrun hshows
    rw [gettime_stopped hnsec hrun hshows] at hts
    have hsec : (~~~sec).setWidth 64 = sec.setWidth 64 := congrArg Timespec64.tvSec hts
    have hbit := congrArg (fun x : BitVec 64 => x.getLsbD 0) hsec
    simp at hbit
  · rintro ⟨pre, hpre⟩ sec' nsec' hclock t' ts' hrun hshows
    rcases runs_takeOver hinit with ⟨_, hc, -⟩ | ⟨-, before, oldControl, polls, rfl, hbefore, hpolls⟩
    · cases hc
    have hreads : isSmdioWrite c.op = false := by rw [hfirst]; rfl
    have hcontrol : phy.interruptEnable ≠ phy.timestampControl := interruptEnable_ne (by decide) (by decide)
    have hplace : pre = c :: ⟨.smdioWrite phy.interruptEnable v, .ok ()⟩ :: (before ++
        smdioOk (settimeWords phy sec nsec) ++ [⟨.smdioRead phy.timestampControl, .ok oldControl⟩]) := by
      obtain ⟨u, post, hsplit, -⟩ := hpre
      rw [ht] at hsplit
      refine eq_of_split (P := fun e => ∃ w, e.op = .smdioWrite phy.timestampControl w) ?_ ?_ ⟨u, rfl⟩
        (x := ⟨.smdioWrite phy.timestampControl (oldControl ||| 1 <<< tsinitPos), .ok ()⟩)
        (by simpa using hsplit)
      · have henable : ¬∃ w, (RegOp.smdioWrite phy.interruptEnable v) = .smdioWrite phy.timestampControl w := by
          rintro ⟨w, hw⟩
          exact hcontrol (RegOp.smdioWrite.inj hw).1
        intro z hz
        simp only [List.mem_cons, List.mem_append, List.not_mem_nil, or_false] at hz
        rcases hz with rfl | rfl | (hz | hz) | rfl
        · exact not_control_of_read hreads
        · exact henable
        · exact not_control_of_read (hbefore z hz)
        · exact not_control_of_word hz
        · exact not_control_of_read rfl
      · intro z hz
        rcases List.mem_append.mp hz with hz | hz
        · exact not_control_of_read (hpolls z hz)
        · simp only [List.mem_cons, List.not_mem_nil, or_false] at hz
          rcases hz with rfl | rfl
          · exact not_control_of_read rfl
          · rintro ⟨w, hw⟩
            exact hcontrol (RegOp.smdioWrite.inj hw).1
    obtain ⟨h₁, h₂, h₃, h₄⟩ := held_words hreads rfl hbefore hplace
    obtain ⟨hsecL, hsecH, hnsecL, hnsecH⟩ := hclock pre hpre
    have hjoin : ∀ {x y : BitVec 32}, x.extractLsb' 0 16 = y.extractLsb' 0 16 → x.extractLsb' 16 16 = y.extractLsb' 16 16 →
        x = y := by
      intro x y hlow hhigh
      have hword : ∀ z : BitVec 32, z.extractLsb' 16 16 ++ z.extractLsb' 0 16 = z := fun z => by
        rw [BitVec.extractLsb'_append_extractLsb']
      rw [← hword x, ← hword y, hlow, hhigh]
    obtain rfl : sec' = sec := hjoin (hsecL _ h₁) (hsecH _ h₂)
    obtain rfl : nsec' = nsec := hjoin (hnsecL _ h₃) (hnsecH _ h₄)
    exact gettime_stopped hnsec hrun hshows

/-! ## The result -/

theorem InitEnds.ne_nil (h : InitEnds phy sec nsec t r) : t ≠ [] := by
  cases h with
  | notCleared hlast =>
    obtain ⟨t₁, ev, rfl, -⟩ := hlast
    simp
  | stopped => exact List.cons_ne_nil _ _
  | enabled => exact List.cons_ne_nil _ _

theorem EndsRefused.not_endsOk (h : EndsRefused t) : ¬EndsOk t := by
  obtain ⟨t₁, ev, rfl, href⟩ := h
  intro hends
  rw [hends ev (by simp)] at href
  cases href

theorem concat_two {α : Type} {c w x y : α} {init : List α} :
    c :: w :: (init ++ [x, y]) = (c :: w :: (init ++ [x])) ++ [y] := by simp

/-- Of an accepted time: what `gettime` returns, by the last access and what the device shows. -/
theorem returns_iff_of_ends (hnsec : nsec.toNat ≤ maxNsecInSec) (h : InitEnds phy sec nsec t r) :
    (r = .ok () → ∀ sec' nsec', StoppedClock phy t sec' nsec' → ∀ t' ts', (gpy2xxPtpGettime phy).Runs t' (.ok ts') →
      (∀ e ∈ accesses t', ShowsNow phy sec' nsec' e) → ts' = ⟨sec.setWidth 64, nsec.setWidth 64⟩) ↔
      (EndsOk t → ∃ pre, Initialised phy t pre) := by
  cases h with
  | notCleared hlast => exact iff_of_true nofun fun hends => absurd hends hlast.not_endsOk
  | @stopped c _ _ _ _ hlast =>
    exact iff_of_true nofun fun hends => absurd hends (@EndsRefused.append [c, _] _ hlast).not_endsOk
  | @enabled c v old init _ hfirst hinit =>
    cases r with
    | error e =>
      have hlast : EndsRefused (c :: ⟨.smdioWrite phy.interruptEnable v, .ok ()⟩ :: (init ++
          [⟨.smdioRead phy.interruptEnable, .ok old⟩, ⟨.smdioWrite phy.interruptEnable (old ||| 1 <<< tsiePos), .error e⟩])) :=
        ⟨_, _, concat_two, rfl⟩
      exact iff_of_true nofun fun hends => absurd hends hlast.not_endsOk
    | ok _ =>
      have hends : EndsOk (c :: ⟨.smdioWrite phy.interruptEnable v, .ok ()⟩ :: (init ++
          [⟨.smdioRead phy.interruptEnable, .ok old⟩, ⟨.smdioWrite phy.interruptEnable (old ||| 1 <<< tsiePos), .ok ()⟩])) := by
        intro e hlast
        obtain rfl : _ = e := by simpa [List.getLast?_cons] using hlast
        rfl
      have hiff := @returns_iff phy sec nsec _ c v old init (.ok ()) hnsec hfirst hinit rfl
      exact ⟨fun hreturns _ => hiff.mp (hreturns rfl), fun hshown _ => hiff.mpr (hshown hends)⟩

theorem Timespec64.toNat_of_inRange {ts : Timespec64} (h : ts.InRange) :
    ts.tvSec.toNat < 2 ^ 32 ∧ ts.tvNsec.toNat ≤ maxNsecInSec := by
  obtain ⟨⟨hsec, hlt⟩, hnsec, hle⟩ := h
  rw [BitVec.toInt_eq_toNat_cond] at hsec hlt hnsec hle
  rw [maxNsecInSec]
  have := ts.tvSec.isLt
  have := ts.tvNsec.isLt
  split at hsec <;> split at hnsec <;> omega

/-- A call does what it should exactly where the time can be set or its cut nanoseconds are refused, the
device shows that it took over the time, and no access stops the call while the interrupt is off. -/
theorem settimeExact_iff {ts : Timespec64} {t : Trace regSig.locking} (h : (gpy2xxPtpSettime phy ts).Runs t r) :
    SettimeExact phy ts (accesses t) r ↔ SettimeUnharmed phy ts (accesses t) := by
  have hbody := Runs.accesses_locked h
  have hcut : (ts.tvNsec.setWidth 32).toNat = ts.tvNsec.toNat % 2 ^ 32 := BitVec.toNat_setWidth ..
  by_cases hnsec : (ts.tvNsec.setWidth 32).toNat > maxNsecInSec
  · -- rejected, without an access
    rw [ptpInitSystime, if_pos hnsec] at hbody
    obtain ⟨hnone, rfl⟩ := hbody
    have hrange : ¬ts.InRange := by
      intro hrange
      obtain ⟨-, hle⟩ := Timespec64.toNat_of_inRange hrange
      rw [hcut] at hnsec
      rw [maxNsecInSec] at hnsec hle
      omega
    rw [hnone]
    refine iff_of_true ⟨iff_of_false (fun hne => hne rfl) hrange, fun hok => (by cases hok), ?_⟩ ⟨.inr ?_, fun hyes => absurd hyes hrange, ?_⟩
    · intro pre v post hsplit
      simp at hsplit
    · rwa [hcut] at hnsec
    · intro hlong
      cases hlong
  · have hends := initEnds hnsec hbody
    by_cases hrange : ts.InRange
    · obtain ⟨hsec, hle⟩ := Timespec64.toNat_of_inRange hrange
      have hwhole : (⟨(ts.tvSec.setWidth 32).setWidth 64, (ts.tvNsec.setWidth 32).setWidth 64⟩ : Timespec64) = ts := by
        have hwiden : ∀ {x : BitVec 64}, x.toNat < 2 ^ 32 → (x.setWidth 32).setWidth 64 = x := by
          intro x hx
          apply BitVec.eq_of_toNat_eq
          rw [BitVec.toNat_setWidth, BitVec.toNat_setWidth]
          omega
        rw [maxNsecInSec] at hle
        rw [hwiden hsec, hwiden (by omega)]
      have hreturns := returns_iff_of_ends (Nat.le_of_not_gt hnsec) hends
      rw [hwhole] at hreturns
      have hrestored := tsieRestored_iff hends
      constructor
      · intro hexact
        exact ⟨.inl hrange, fun _ => hreturns.mp hexact.returns, hrestored.mp hexact.restored⟩
      · intro hunharmed
        exact ⟨iff_of_true hends.ne_nil hrange, hreturns.mpr (hunharmed.shown hrange), hrestored.mpr hunharmed.stops⟩
    · refine iff_of_false (fun hexact => hrange (hexact.accepts.mp hends.ne_nil)) fun hunharmed => ?_
      rcases hunharmed.range with hyes | hlarge
      · exact hrange hyes
      · rw [hcut, maxNsecInSec] at hnsec
        omega

/-- A call whose first read fails has changed nothing. -/
theorem settimeExact_firstRefused : ∃ t, (gpy2xxPtpSettime (ptpPhy 250000000) ⟨1, 0⟩).Runs t (.error EIO) ∧
    SettimeExact (ptpPhy 250000000) ⟨1, 0⟩ (accesses t) (.error EIO) := by
  have hbody : (ptpInitSystime (ptpPhy 250000000) 1 0).Runs
      [⟨.smdioRead (ptpPhy 250000000).interruptEnable, .error EIO⟩] (.error EIO) := by
    rw [ptpInitSystime_eq (by decide)]
    refine (runs_bind).mpr (.inl ⟨ EIO, ?_, rfl⟩)
    exact (runs_smdioRead_bind).mpr (.inl ⟨ EIO, rfl, rfl⟩)
  obtain ⟨t, hrun, hacc⟩ := runs_locked_of_body hbody
  have hcall : (gpy2xxPtpSettime (ptpPhy 250000000) ⟨1, 0⟩).Runs t (.error EIO) := hrun
  refine ⟨t, hcall, (settimeExact_iff hcall).mpr ?_⟩
  rw [hacc]
  refine ⟨.inl ⟨by decide, by decide⟩, fun _ hends => ?_, fun hlong => absurd hlong (by decide)⟩
  cases hends _ rfl

/-- A number of seconds that takes 33 bits is accepted. -/
theorem not_settimeExact_largeSec : ∃ t r, (gpy2xxPtpSettime (ptpPhy 250000000) ⟨0x100000000, 0⟩).Runs t r ∧
    ¬SettimeExact (ptpPhy 250000000) ⟨0x100000000, 0⟩ (accesses t) r := by
  obtain ⟨t, r, hrun, -⟩ := exists_runs okAnswer (gpy2xxPtpSettime (ptpPhy 250000000) ⟨0x100000000, 0⟩)
  have hnsec : ¬((0 : BitVec 64).setWidth 32).toNat > maxNsecInSec := by decide
  refine ⟨t, r, hrun, fun hexact => ?_⟩
  have hrange := hexact.accepts.mp (initEnds hnsec (Runs.accesses_locked hrun)).ne_nil
  exact absurd hrange.1.2 (by decide)

end Runs

end Gpy2xx
