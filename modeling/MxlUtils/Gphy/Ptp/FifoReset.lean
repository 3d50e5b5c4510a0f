import MxlUtils.Gphy.Ptp.AuxFifo
import MxlUtils.Gphy.Ptp.Control

/- Resetting the timestamp FIFOs. `ptp_resetfifo` pulses two bits of a register that
   it has read. `ptp_resetauxfifo` is to do the same with the clear bit of the
   auxiliary FIFO, but the words that it writes do not come from what it reads, and
   the second one still has the bit set. -/
namespace Gpy2xx
open Effect Effect.Fallible Effect.Lock Bits

/-- The bits `tx_fifo_rst` and `rx_fifo_rst` of `struct gpy211_pmts_cfg`. -/
def tsFifoRst : BitVec 16 := 0xC0

def gpy2xxPtpResetfifo (phy : Gpy211Device) : Call Unit :=
  locked do
    let cfg ← smdioReadAt (phy.pmBaseAddr + pmTsCfg)
    smdioWriteAt (phy.pmBaseAddr + pmTsCfg) (cfg &&& ~~~tsFifoRst)
    smdioWriteAt (phy.pmBaseAddr + pmTsCfg) (cfg &&& ~~~tsFifoRst ||| tsFifoRst)

/-- `GMACF_MAC_AUXILIARY_CONTROL_L_ATSFC`, and with it the bit of trigger 0. -/
def auxControlAtsfc : Field 16 := ⟨0x1, 0⟩
def auxResetBits : BitVec 16 := auxControlAtsfc.mask ||| auxControlAtsen0.mask

/-! ## A reset that touches only its own bits -/

/-- Words that agree in every bit outside `own`. -/
def SameOutside (own : BitVec 16) (v w : BitVec 16) : Prop := v &&& ~~~own = w &&& ~~~own

/-- The timestamp FIFOs' reset bits go to 0 and back to 1. -/
structure TsFifosReset (phy : Gpy211Device) (t : RegTrace) (r : Except Errno Unit) : Prop where
  pulsed : r = .ok () → ∃ prior low high, t =
      [⟨.smdioRead (smdioReg (phy.pmBaseAddr + pmTsCfg)), .ok prior⟩,
        ⟨.smdioWrite (smdioReg (phy.pmBaseAddr + pmTsCfg)) low, .ok ()⟩,
        ⟨.smdioWrite (smdioReg (phy.pmBaseAddr + pmTsCfg)) high, .ok ()⟩] ∧
    low &&& tsFifoRst = 0 ∧ high &&& tsFifoRst = tsFifoRst ∧
    SameOutside tsFifoRst low prior ∧ SameOutside tsFifoRst high prior
  reported : (∃ e ∈ t, refused e) → r.isOk = false

/-- The auxiliary FIFO's clear bit goes to 1 and back to 0, and trigger 0 is enabled. -/
structure AuxFifoReset (phy : Gpy211Device) (t : RegTrace) (r : Except Errno Unit) : Prop where
  pulsed : r = .ok () → ∃ prior high low, t =
      [⟨.mboxRead16 (phy.gmacfBaseAddr + auxiliaryControlL), .ok prior⟩,
        ⟨.mboxWrite16 (phy.gmacfBaseAddr + auxiliaryControlL) high, .ok ()⟩,
        ⟨.mboxWrite16 (phy.gmacfBaseAddr + auxiliaryControlL) low, .ok ()⟩] ∧
    auxControlAtsfc.get high = 1 ∧ auxControlAtsfc.get low = 0 ∧ auxControlAtsen0.get low = 1 ∧
    SameOutside auxResetBits high prior ∧ SameOutside auxResetBits low prior
  reported : (∃ e ∈ t, refused e) → r.isOk = false

/-! ## The two calls -/

section Resets
variable {phy : Gpy211Device} {t : RegTrace} {r : Except Errno Unit}

/-- Clearing and then setting bits of a word changes no other bit. -/
theorem pulse_bits (own v : BitVec 16) :
    (v &&& ~~~own) &&& own = 0 ∧ (v &&& ~~~own ||| own) &&& own = own ∧
    SameOutside own (v &&& ~~~own) v ∧ SameOutside own (v &&& ~~~own ||| own) v := by
  refine ⟨?_, ?_, ?_, ?_⟩
  · ext i hi
    simp
  · ext i hi
    simp
    grind
  · ext i hi
    simp
  · ext i hi
    simp
    grind

/-- Clearing and setting the timestamp FIFOs' reset bits is done right whatever the register holds. -/
theorem tsFifosReset_of_runs {t : Trace regSig.locking} (h : (gpy2xxPtpResetfifo phy).Runs t r) :
    TsFifosReset phy (accesses t) r := by
  have hbody := Runs.accesses_locked h
  rcases (runs_smdioRead_bind).mp hbody with ⟨e, hacc, rfl⟩ | ⟨prior, t₁, hacc, hlow⟩
  · rw [hacc]
    refine ⟨fun hok => ?_, fun _ => rfl⟩
    cases hok
  · rw [hacc]
    rcases (runs_smdioWrite_bind).mp hlow with ⟨e, rfl, rfl⟩ | ⟨_, t₂, rfl, hhigh⟩
    · refine ⟨fun hok => ?_, fun _ => rfl⟩
      cases hok
    · rw [(runs_smdioWrite).mp hhigh]
      cases r with
      | error e =>
        refine ⟨fun hok => ?_, fun _ => rfl⟩
        cases hok
      | ok _ =>
        refine ⟨fun _ => ⟨prior, _, _, rfl, pulse_bits tsFifoRst prior⟩, fun href => ?_⟩
        simp [refused, RegOp.succeeded, Except.isOk, Except.toBool] at href

/-- A run of `ptp_resetauxfifo` fails with one of its accesses, or writes two constants. -/
theorem runs_resetauxfifo {t : Trace regSig.locking} (h : (gpy2xxPtpResetauxfifo phy).Runs t r) :
    (r.isOk = false ∧ ∃ e ∈ accesses t, refused e) ∨
      (r = .ok () ∧ ∃ prior, accesses t =
        [⟨.mboxRead16 (phy.gmacfBaseAddr + auxiliaryControlL), .ok prior⟩,
          ⟨.mboxWrite16 (phy.gmacfBaseAddr + auxiliaryControlL) resetFifoWord, .ok ()⟩,
          ⟨.mboxWrite16 (phy.gmacfBaseAddr + auxiliaryControlL) reenableWord, .ok ()⟩]) := by
  obtain ⟨x, hbody, rfl⟩ := Runs.accesses_lockedExit h
  rcases (runs_phyMboxHwrd_bind).mp hbody with ⟨e, hacc, rfl⟩ | ⟨prior, t₁, hacc, hset⟩
  · rw [hacc]
    exact .inl ⟨rfl, _, List.mem_cons_self, rfl⟩
  rcases (runs_phyMboxHwwr_bind).mp hset with ⟨e, rfl, rfl⟩ | ⟨_, t₂, rfl, hlast⟩
  · rw [hacc]
    exact .inl ⟨rfl, _, List.mem_cons_of_mem _ List.mem_cons_self, rfl⟩
  obtain ⟨_, res, _, rfl, hwrite, hend⟩ := (runs_attempt_bind).mp hlast
  rw [hacc, (runs_phyMboxHwwr).mp hwrite]
  cases res with
  | error e =>
    obtain ⟨rfl, rfl⟩ := (runs_pure).mp hend
    exact .inl ⟨rfl, _, List.mem_cons_of_mem _ (List.mem_cons_of_mem _ List.mem_cons_self), rfl⟩
  | ok _ =>
    obtain ⟨rfl, rfl⟩ := (runs_pure).mp hend
    exact .inr ⟨rfl, prior, rfl⟩

/-- The second word has the clear bit set. -/
theorem not_auxFifoReset_of_ok {prior : BitVec 16} : ¬AuxFifoReset phy
    [⟨.mboxRead16 (phy.gmacfBaseAddr + auxiliaryControlL), .ok prior⟩,
      ⟨.mboxWrite16 (phy.gmacfBaseAddr + auxiliaryControlL) resetFifoWord, .ok ()⟩,
      ⟨.mboxWrite16 (phy.gmacfBaseAddr + auxiliaryControlL) reenableWord, .ok ()⟩] (.ok ()) := by
  intro h
  obtain ⟨_, high, low, heq, -, hcleared, -⟩ := h.pulsed rfl
  cases heq
  exact absurd hcleared (by decide)

end Resets

/-- In every run of the two calls the timestamp FIFOs are reset as they should be, and so is the
auxiliary FIFO exactly when one of the accesses to it fails. -/
theorem fifosReset_iff {phy : Gpy211Device} {t t' : Trace regSig.locking} {r r' : Except Errno Unit}
    (h : (gpy2xxPtpResetfifo phy).Runs t r) (h' : (gpy2xxPtpResetauxfifo phy).Runs t' r') :
    (TsFifosReset phy (accesses t) r ∧ AuxFifoReset phy (accesses t') r') ↔
      ∃ e ∈ accesses t', refused e := by
  have hts := tsFifosReset_of_runs h
  rcases runs_resetauxfifo h' with ⟨hfails, href⟩ | ⟨rfl, prior, hacc⟩
  · refine iff_of_true ⟨hts, fun hok => ?_, fun _ => hfails⟩ href
    rw [hok] at hfails
    cases hfails
  · rw [hacc]
    refine iff_of_false (fun hboth => not_auxFifoReset_of_ok hboth.2) ?_
    simp [refused, RegOp.succeeded, Except.isOk, Except.toBool]

/-- Runs in which the first access to the auxiliary FIFO fails. -/
theorem fifosReset_refused : TsFifosReset (ptpPhy 406250000) [⟨.smdioRead 0xC02C, .error EIO⟩] (.error EIO) ∧
    AuxFifoReset (ptpPhy 406250000) [⟨.mboxRead16 0xD31680, .error EIO⟩] (.error EIO) :=
  (@fifosReset_iff (ptpPhy 406250000)
    [⟨.lock, ()⟩, ⟨.acc (.smdioRead 0xC02C), .error EIO⟩, ⟨.unlock, ()⟩]
    [⟨.lock, ()⟩, ⟨.acc (.mboxRead16 0xD31680), .error EIO⟩, ⟨.unlock, ()⟩]
    (.error EIO) (.error EIO)
    ⟨(), _, rfl, .error EIO, _, rfl, (), _, rfl, rfl, rfl⟩
    ⟨(), _, rfl, .error EIO, _, rfl, (), _, rfl, rfl, rfl⟩).mpr ⟨_, List.mem_cons_self, rfl⟩

/-- The auxiliary control register holds 0, and no access fails. -/
def auxRun : Trace regSig.locking :=
  [⟨.lock, ()⟩, ⟨.acc (.mboxRead16 0xD31680), .ok 0⟩, ⟨.acc (.mboxWrite16 0xD31680 0x1), .ok ()⟩,
    ⟨.acc (.mboxWrite16 0xD31680 0x11), .ok ()⟩, ⟨.unlock, ()⟩]

theorem not_auxFifoReset_auxRun : (gpy2xxPtpResetauxfifo (ptpPhy 406250000)).Runs auxRun (.ok ()) ∧
    ¬AuxFifoReset (ptpPhy 406250000) (accesses auxRun) (.ok ()) :=
  ⟨⟨(), _, rfl, .ok 0, _, rfl, .ok (), _, rfl, .ok (), _, rfl, (), _, rfl, rfl, rfl⟩,
    @not_auxFifoReset_of_ok (ptpPhy 406250000) 0⟩

end Gpy2xx
