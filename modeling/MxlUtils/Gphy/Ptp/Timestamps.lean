import MxlUtils.Gphy.Ptp.Time

/- The timestamps of frames. `ptp_getrxts` and `ptp_gettxts` read the head entry of
   their FIFO, six half-words: the time and the CRC of its frame. They are copies of
   each other, but the one for transmitted frames keeps the failure of its last read
   to itself. -/
namespace Gpy2xx
open Effect Effect.Fallible Effect.Lock

/-! ## The calls -/

/-- `PM_PDI_GMAC_RX_TS_STAT_0` to `_3` and `PM_PDI_GMAC_RX_CRC_STAT_0`, `_1` -/
def gmacRxTsStat : Nat := 0x90
def gmacRxCrcStat0 : Nat := 0xA0
def gmacRxCrcStat1 : Nat := 0xA4

/-- `PM_PDI_GMAC_TX_TS_STAT_0` to `_3` and `PM_PDI_GMAC_TX_CRC_STAT_0`, `_1` -/
def gmacTxTsStat : Nat := 0x68
def gmacTxCrcStat0 : Nat := 0x78
def gmacTxCrcStat1 : Nat := 0x7C

/-- `struct gpy211_rx_ts` and `struct gpy211_tx_ts`; the time is a `time64_t`. -/
structure FrameTs where
  tsStat : BitVec 64
  crcStat : BitVec 32

/-- `SEC_TO_NANOSEC` -/
def secToNanosec (sec : BitVec 32) : BitVec 64 := sec.setWidth 64 * 1000000000

/-- The four reads of a time, nanoseconds before seconds. -/
def frameTime (addr : Nat) : Api (BitVec 64) := do
  let nsecL ← smdioReadAt addr
  let nsecH ← smdioReadAt (addr + 4)
  let secL ← smdioReadAt (addr + 8)
  let secH ← smdioReadAt (addr + 12)
  pure (secToNanosec (secH ++ secL) + (nsecH ++ nsecL).setWidth 64)

def gpy2xxPtpGetrxts (phy : Gpy211Device) : Call FrameTs :=
  locked do
    let tsStat ← frameTime (phy.pmBaseAddr + gmacRxTsStat)
    let crcL ← smdioReadAt (phy.pmBaseAddr + gmacRxCrcStat0)
    let crcH ← smdioReadAt (phy.pmBaseAddr + gmacRxCrcStat1)
    pure ⟨tsStat, crcH ++ crcL⟩

def gpy2xxPtpGettxts (phy : Gpy211Device) : Call FrameTs :=
  locked do
    let tsStat ← frameTime (phy.pmBaseAddr + gmacTxTsStat)
    let crcL ← smdioReadAt (phy.pmBaseAddr + gmacTxCrcStat0)
    -- the failure of the last read is in `_tx_crc`, and `_tx_ts` is what is returned
    match ← (smdioReadAt (phy.pmBaseAddr + gmacTxCrcStat1)).attempt with
    | .error _ => pure ⟨tsStat, crcL.setWidth 32⟩
    | .ok crcH => pure ⟨tsStat, crcH ++ crcL⟩

/-! ## A FIFO entry -/

/-- A device whose registers hold something or cannot be read. -/
def answering (regs : Nat → Except Errno (BitVec 16)) : (o : RegOp) → o.Ret
  | .smdioRead reg => regs reg
  | o => okAnswer o

/-- What the registers of a FIFO's head entry answer, in the order in which they are read: four
half-words of a time and two of a CRC. -/
def headEntry (phy : Gpy211Device) (regs : Nat → Except Errno (BitVec 16)) (stat crc0 crc1 : Nat) :
    List (Except Errno (BitVec 16)) :=
  [stat, stat + 4, stat + 8, stat + 12, crc0, crc1].map fun o => regs (smdioReg (phy.pmBaseAddr + o))

def rxEntry (phy : Gpy211Device) (regs : Nat → Except Errno (BitVec 16)) :
    List (Except Errno (BitVec 16)) := headEntry phy regs gmacRxTsStat gmacRxCrcStat0 gmacRxCrcStat1

def txEntry (phy : Gpy211Device) (regs : Nat → Except Errno (BitVec 16)) :
    List (Except Errno (BitVec 16)) := headEntry phy regs gmacTxTsStat gmacTxCrcStat0 gmacTxCrcStat1

/-- The time and the CRC that six half-words make. -/
structure Shows (ts : FrameTs) (nsecL nsecH secL secH crcL crcH : BitVec 16) : Prop where
  time : ts.tsStat.toInt =
    joinHalves secH.toNat secL.toNat * 10 ^ 9 + joinHalves nsecH.toNat nsecL.toNat
  crc : ts.crcStat.toNat = joinHalves crcH.toNat crcL.toNat

/-- A call fails exactly when one of the six reads does, and what it returns otherwise is the entry. -/
structure Retrieves (r : Except Errno FrameTs) (entry : List (Except Errno (BitVec 16))) : Prop where
  fails : r.isOk = false ↔ ∃ answer ∈ entry, answer.isOk = false
  shows : ∀ ts, r = .ok ts → ∃ nsecL nsecH secL secH crcL crcH,
    entry = [.ok nsecL, .ok nsecH, .ok secL, .ok secH, .ok crcL, .ok crcH] ∧
      Shows ts nsecL nsecH secL secH crcL crcH

/-- What the two calls return. -/
def rxResult (phy : Gpy211Device) (regs : Nat → Except Errno (BitVec 16)) : Except Errno FrameTs :=
  ((gpy2xxPtpGetrxts phy).exec (handler (stateless (answering regs))) ()).1

def txResult (phy : Gpy211Device) (regs : Nat → Except Errno (BitVec 16)) : Except Errno FrameTs :=
  ((gpy2xxPtpGettxts phy).exec (handler (stateless (answering regs))) ()).1

/-- Both calls retrieve their entry, and entries alike are treated alike. -/
structure TimestampsRetrieved (phy : Gpy211Device) (regs : Nat → Except Errno (BitVec 16)) : Prop where
  rx : Retrieves (rxResult phy regs) (rxEntry phy regs)
  tx : Retrieves (txResult phy regs) (txEntry phy regs)
  alike : ∀ regs', rxEntry phy regs' = txEntry phy regs → rxResult phy regs' = txResult phy regs

/-- Of the transmit entry everything is read but the high half of the CRC. -/
def OnlyLastFails (entry : List (Except Errno (BitVec 16))) : Prop :=
  (∀ answer ∈ entry.take 5, answer.isOk) ∧ ∃ answer ∈ entry.drop 5, answer.isOk = false

/-! ## Six answers -/

/-- What six answers make, up to the first failure. -/
def entryTs (nsecL nsecH secL secH crcL crcH : Except Errno (BitVec 16)) : Except Errno FrameTs := do
  let nsecL ← nsecL
  let nsecH ← nsecH
  let secL ← secL
  let secH ← secH
  let crcL ← crcL
  let crcH ← crcH
  pure ⟨secToNanosec (secH ++ secL) + (nsecH ++ nsecL).setWidth 64, crcH ++ crcL⟩

/-- The CRC of a transmitted frame, where the read of its high half may have failed. -/
def crcOf (crcL : BitVec 16) : Except Errno (BitVec 16) → BitVec 32
  | .error _ => crcL.setWidth 32
  | .ok crcH => crcH ++ crcL

theorem toNat_append_halves (high low : BitVec 16) :
    (high ++ low).toNat = joinHalves high.toNat low.toNat := by
  rw [BitVec.toNat_append, ← Nat.shiftLeft_add_eq_or_of_lt low.isLt, Nat.shiftLeft_eq]
  rfl

/-- A `time64_t` holds the nanoseconds of every 32-bit number of seconds. -/
theorem toInt_time (sec nsec : BitVec 32) :
    (secToNanosec sec + nsec.setWidth 64).toInt = sec.toNat * 10 ^ 9 + nsec.toNat := by
  have hsec := sec.isLt
  have hnsec := nsec.isLt
  have hmul : (secToNanosec sec).toNat = sec.toNat * 10 ^ 9 := by
    rw [secToNanosec, BitVec.toNat_mul, BitVec.toNat_setWidth]
    show sec.toNat % 2 ^ 64 * 1000000000 % 2 ^ 64 = _
    omega
  have hsum : (secToNanosec sec + nsec.setWidth 64).toNat = sec.toNat * 10 ^ 9 + nsec.toNat := by
    rw [BitVec.toNat_add, hmul, BitVec.toNat_setWidth]
    omega
  rw [BitVec.toInt_eq_toNat_of_lt (by omega), hsum]
  omega

theorem shows_entryTs (nsecL nsecH secL secH crcL crcH : BitVec 16) :
    Shows ⟨secToNanosec (secH ++ secL) + (nsecH ++ nsecL).setWidth 64, crcH ++ crcL⟩
      nsecL nsecH secL secH crcL crcH where
  time := by
    show (secToNanosec (secH ++ secL) + (nsecH ++ nsecL).setWidth 64).toInt = _
    rw [toInt_time, toNat_append_halves, toNat_append_halves]
  crc := toNat_append_halves crcH crcL

theorem Retrieves.of_error {r : Except Errno FrameTs} {entry : List (Except Errno (BitVec 16))} {e : Errno}
    (hr : r = .error e) (he : .error e ∈ entry) : Retrieves r entry := by
  subst hr
  refine ⟨iff_of_true rfl ⟨_, he, rfl⟩, fun ts h => ?_⟩
  cases h

theorem retrieves_entryTs (nsecL nsecH secL secH crcL crcH : Except Errno (BitVec 16)) :
    Retrieves (entryTs nsecL nsecH secL secH crcL crcH) [nsecL, nsecH, secL, secH, crcL, crcH] := by
  -- the first answer that fails is the result
  cases nsecL with
  | error e => exact .of_error rfl (by simp)
  | ok nsecL => cases nsecH with
  | error e => exact .of_error rfl (by simp)
  | ok nsecH => cases secL with
  | error e => exact .of_error rfl (by simp)
  | ok secL => cases secH with
  | error e => exact .of_error rfl (by simp)
  | ok secH => cases crcL with
  | error e => exact .of_error rfl (by simp)
  | ok crcL => cases crcH with
  | error e => exact .of_error rfl (by simp)
  | ok crcH =>
    refine ⟨iff_of_false (fun h => absurd (show true = false from h) (by decide)) ?_, fun ts h => ?_⟩
    · simp [Except.isOk, Except.toBool]
    · cases h
      exact ⟨nsecL, nsecH, secL, secH, crcL, crcH, rfl, shows_entryTs nsecL nsecH secL secH crcL crcH⟩

/-! ## The calls on a FIFO entry -/

section Calls
variable {phy : Gpy211Device} {regs : Nat → Except Errno (BitVec 16)}

theorem answered_smdioReadAt {addr : Nat} :
    answered (answering regs) (smdioReadAt addr) = regs (smdioReg addr) := rfl

/-- What follows the four reads of a time. -/
theorem answered_frameTime_bind {α : Type} {addr : Nat} {f : BitVec 64 → Api α} :
    answered (answering regs) (frameTime addr >>= f) = (do
      let nsecL ← regs (smdioReg addr)
      let nsecH ← regs (smdioReg (addr + 4))
      let secL ← regs (smdioReg (addr + 8))
      let secH ← regs (smdioReg (addr + 12))
      answered (answering regs) (f (secToNanosec (secH ++ secL) + (nsecH ++ nsecL).setWidth 64))) := by
  simp only [frameTime, bind_assoc, pure_bind, answered_bind, answered_smdioReadAt]

theorem rxResult_eq {nsecL nsecH secL secH crcL crcH : Except Errno (BitVec 16)}
    (h : rxEntry phy regs = [nsecL, nsecH, secL, secH, crcL, crcH]) :
    rxResult phy regs = entryTs nsecL nsecH secL secH crcL crcH := by
  obtain ⟨rfl, rfl, rfl, rfl, rfl, rfl⟩ : _ ∧ _ ∧ _ ∧ _ ∧ _ ∧ _ := by simpa [rxEntry, headEntry] using h
  rw [rxResult, gpy2xxPtpGetrxts, answered_locked, answered_frameTime_bind]
  simp only [answered_bind, answered_smdioReadAt]
  rfl

theorem txResult_eq {nsecL nsecH secL secH crcL crcH : Except Errno (BitVec 16)}
    (h : txEntry phy regs = [nsecL, nsecH, secL, secH, crcL, crcH]) :
    txResult phy regs = (do
      let nsecL ← nsecL
      let nsecH ← nsecH
      let secL ← secL
      let secH ← secH
      let crcL ← crcL
      pure ⟨secToNanosec (secH ++ secL) + (nsecH ++ nsecL).setWidth 64, crcOf crcL crcH⟩) := by
  obtain ⟨rfl, rfl, rfl, rfl, rfl, rfl⟩ : _ ∧ _ ∧ _ ∧ _ ∧ _ ∧ _ := by simpa [txEntry, headEntry] using h
  rw [txResult, gpy2xxPtpGettxts, answered_locked, answered_frameTime_bind]
  simp only [answered_bind, answered_attempt, answered_smdioReadAt, pure_bind]
  clear h
  cases regs (smdioReg (phy.pmBaseAddr + gmacTxCrcStat1)) with
  | error e => rfl
  | ok v => rfl

/-- Unless only the last read fails, the two calls do the same. -/
theorem txResult_eq_entryTs {nsecL nsecH secL secH crcL crcH : Except Errno (BitVec 16)}
    (h : txEntry phy regs = [nsecL, nsecH, secL, secH, crcL, crcH])
    (hlast : ¬OnlyLastFails (txEntry phy regs)) :
    txResult phy regs = entryTs nsecL nsecH secL secH crcL crcH := by
  rw [txResult_eq h]
  rw [h] at hlast
  cases crcH with
  | ok crcH => rfl
  | error e =>
    -- an earlier read fails too
    cases nsecL with
    | error e => rfl
    | ok nsecL => cases nsecH with
    | error e => rfl
    | ok nsecH => cases secL with
    | error e => rfl
    | ok secL => cases secH with
    | error e => rfl
    | ok secH => cases crcL with
    | error e => rfl
    | ok crcL => exact absurd ⟨by simp [Except.isOk, Except.toBool], by simp [Except.isOk, Except.toBool]⟩ hlast

/-- Where only the last read fails, the call succeeds. -/
theorem txResult_isOk (hlast : OnlyLastFails (txEntry phy regs)) : (txResult phy regs).isOk := by
  obtain ⟨hfirst, -⟩ := hlast
  obtain ⟨nsecL, nsecH, secL, secH, crcL, crcH, h⟩ : ∃ nsecL nsecH secL secH crcL crcH,
    txEntry phy regs = [nsecL, nsecH, secL, secH, crcL, crcH] := ⟨_, _, _, _, _, _, rfl⟩
  rw [txResult_eq h]
  rw [h] at hfirst
  obtain ⟨h₁, h₂, h₃, h₄, h₅⟩ : nsecL.isOk ∧ nsecH.isOk ∧ secL.isOk ∧ secH.isOk ∧ crcL.isOk := by
    simpa using hfirst
  cases nsecL with
  | error e => cases h₁
  | ok nsecL => cases nsecH with
  | error e => cases h₂
  | ok nsecH => cases secL with
  | error e => cases h₃
  | ok secL => cases secH with
  | error e => cases h₄
  | ok secH => cases crcL with
  | error e => cases h₅
  | ok crcL => rfl

/-- For every content of the registers and every pattern of reads that fail, both calls retrieve their
entry exactly when it is not only the last read of the transmit entry that fails. -/
theorem timestampsRetrieved_iff :
    TimestampsRetrieved phy regs ↔ ¬OnlyLastFails (txEntry phy regs) := by
  constructor
  · intro h hlast
    obtain ⟨answer, hmem, hfailed⟩ := hlast.2
    have hfails := h.tx.fails.mpr ⟨answer, List.mem_of_mem_drop hmem, hfailed⟩
    rw [txResult_isOk hlast] at hfails
    cases hfails
  · intro hlast
    refine ⟨?_, ?_, fun regs' heq => ?_⟩
    · exact @rxResult_eq phy regs _ _ _ _ _ _ rfl ▸ retrieves_entryTs ..
    · exact txResult_eq_entryTs rfl hlast ▸ retrieves_entryTs ..
    · rw [txResult_eq_entryTs rfl hlast]
      exact rxResult_eq heq

end Calls

/-- A transmit FIFO whose head entry's last half-word cannot be read. -/
def lastRefused : Nat → Except Errno (BitVec 16) := fun reg =>
  if reg = smdioReg (0xD38000 + gmacTxCrcStat1) then .error EIO else .ok 0

theorem not_timestampsRetrieved_lastRefused :
    ¬TimestampsRetrieved (ptpPhy 406250000) lastRefused := by
  intro h
  have hfails := h.tx.fails.mpr ⟨.error EIO, by decide, rfl⟩
  have hok : (txResult (ptpPhy 406250000) lastRefused).isOk := txResult_isOk ⟨by decide, by decide⟩
  rw [hok] at hfails
  cases hfails

end Gpy2xx
