import MxlUtils.Gphy.Ptp.RoundTrip
import MxlUtils.Lib.Rounding

/- The periodic output. An interval and a width in nanoseconds are kept in units
   of the PTP clock, one less than counted; both directions round down. So a value
   that is read is never above the one that was set and less than a unit and a
   nanosecond below it, and writing it back may lose another unit: it does not
   where the units are a whole number of nanoseconds. -/
namespace Gpy2xx
open Effect Effect.Fallible Effect.Lock Bits Rounding

/-! ## Setting the output -/

/-- `MAX_NSEC_IN_SEC` -/
def maxNsecInSec : Nat := 999999999

/-- `SEC_TO_NANOSEC(1)` -/
def secInNanosec : Nat := 1000000000

/-- `_gpc_min`, `SYNCE_GPC0` or `SYNCE_GPC1`. -/
def gpcMin (family : Family) : Nat := if family = .p34x then 1 else 2

/-- `_gpc_pin_num + gpc_sel - 1`, with `GPIO_PIN07_GPC0_FUN` or `GPIO_PIN10_GPC0_FUN`. -/
def gpcPin (family : Family) (gpcSel : BitVec 32) : Nat :=
  (if family = .p34x then 7 else 10) + gpcSel.toNat - 1

/-- The checks of `set_ppsctrl`: the pin is one of `OUTTIMER` to `SYNCE_GPC2`, the times are below a
second, and the pin is one the family has. -/
def ppsAccepts (family : Family) (ppsCtrl : PpsCtrl) (gpcSel : BitVec 32) : Bool :=
  decide (gpcSel.toNat ≤ 3) &&
    !(decide (ppsCtrl.nsecTgttime.toNat > maxNsecInSec) || decide (ppsCtrl.pps0Interal.toNat > maxNsecInSec) ||
      decide (ppsCtrl.pps0Width.toNat > maxNsecInSec)) &&
    (decide (gpcMin family ≤ gpcSel.toNat) && decide (gpcSel.toNat ≤ 3))

/-- Units of the clock, multiplied and divided in 64 bits. -/
def nanosecToUnits (ptpClock nsec : BitVec 32) : Nat := nsec.toNat * ptpClock.toNat / secInNanosec

/-- A bit of a GPIO register set to `f`'s result and read back; what does not match ends the call,
which returns what the read returned. -/
def gpioUpdate (addr : Nat) (f : BitVec 16 → BitVec 16) (rest : Api Unit) : Api Unit := do
  let val ← phyMboxHwrd addr
  phyMboxHwwr addr (f val)
  let gpioGetVal ← phyMboxHwrd addr
  if f val != gpioGetVal then pure () else rest

/-- The function select of the pin: `CGU_PDI_GPC0_OUT_CONF_SEL` or `CGU_PDI_GPC0_CONF_SEL`. -/
def selectGpc (phy : Gpy211Device) (gpcSel : BitVec 32) : Api Unit := do
  let gpcxBase := if phy.family = .p34x then 0xD29000 else 0xD29008
  let sel ← phyMboxHwrd (gpcxBase + (gpcSel.toNat - 1) * 4)
  phyMboxHwwr (gpcxBase + (gpcSel.toNat - 1) * 4)
    (if phy.family = .p34x then Field.replace ⟨0xF, 0⟩ sel (4 + BitVec.ofInt 16 (phy.phyAddr % 4))
    else Field.replace ⟨0x7, 0⟩ sel 4)

/-- The pin as an output, with its alternate functions. -/
def routeGpc (phy : Gpy211Device) (gpcSel : BitVec 32) : Api Unit := do
  let pin : BitVec 16 := 1 <<< gpcPin phy.family gpcSel
  selectGpc phy gpcSel
  gpioUpdate 0xD3CE08 (· ||| pin)
    (gpioUpdate 0xD3CE0C (fun alt0 => if phy.family = .p34x then alt0 ||| pin else alt0 &&& ~~~pin)
      (gpioUpdate 0xD3CE10 (· ||| pin) (pure ())))

/-- One less than the units, in two half-words. -/
def writeUnits (addr units : Nat) : Api Unit := do
  let numOfUnits := BitVec.ofNat 32 (units - 1)
  smdioWriteAt addr (numOfUnits.extractLsb' 0 16)
  smdioWriteAt (addr + 4) (numOfUnits.extractLsb' 16 16)

/-- What `set_ppsctrl` does under the lock. No units are logged as an error and end the call, which
returns what the last write returned. -/
def setPpsctrl (phy : Gpy211Device) (ppsCtrl : PpsCtrl) (gpcSel : BitVec 32) : Api Unit := do
  smdioWriteAt (phy.gmacfBaseAddr + 0x16E0) ppsCtrl.ppsctrlLow
  isRwDone (phy.gmacfBaseAddr + 0x170C) 15
  smdioWriteAt (phy.gmacfBaseAddr + 0x1700) (ppsCtrl.secTgttime.extractLsb' 0 16)
  smdioWriteAt (phy.gmacfBaseAddr + 0x1704) (ppsCtrl.secTgttime.extractLsb' 16 16)
  smdioWriteAt (phy.gmacfBaseAddr + 0x1708) (ppsCtrl.nsecTgttime.extractLsb' 0 16)
  smdioWriteAt (phy.gmacfBaseAddr + 0x170C) (ppsCtrl.nsecTgttime.extractLsb' 16 16)
  if nanosecToUnits phy.ptpClock ppsCtrl.pps0Interal = 0 then pure ()
  else do
    writeUnits (phy.gmacfBaseAddr + 0x1710) (nanosecToUnits phy.ptpClock ppsCtrl.pps0Interal)
    if nanosecToUnits phy.ptpClock ppsCtrl.pps0Width = 0 then pure ()
    else do
      writeUnits (phy.gmacfBaseAddr + 0x1718) (nanosecToUnits phy.ptpClock ppsCtrl.pps0Width)
      routeGpc phy gpcSel

def gpy2xxPtpSetPpsctrl (phy : Gpy211Device) (ppsCtrl : PpsCtrl) (gpcSel : BitVec 32) : Call Unit :=
  if !ppsAccepts phy.family ppsCtrl gpcSel then throw EINVAL
  else locked (setPpsctrl phy ppsCtrl gpcSel)

/-! ## What it writes -/

section Writes
variable {phy : Gpy211Device} {s : Regs}

/-- The access succeeds and leaves the registers of the slave MDIO alone. -/
def Silent (x : Api Unit) : Prop :=
  ∀ s, ∃ s', x.exec memHandler s = (.ok (), s') ∧ s'.smdio = s.smdio

theorem silent_pure : Silent (pure ()) := fun s => ⟨s, rfl, rfl⟩

theorem Silent.mboxRead_bind {addr : Nat} {f : BitVec 16 → Api Unit} (h : ∀ v, Silent (f v)) :
    Silent (phyMboxHwrd addr >>= f) := fun s => h (s.mbox.load16 addr) s

theorem Silent.mboxWrite_bind {addr : Nat} {v : BitVec 16} {f : Unit → Api Unit} (h : Silent (f ())) :
    Silent (phyMboxHwwr addr v >>= f) := fun s => h { s with mbox := s.mbox.store16 addr v }

theorem Silent.bind {x : Api Unit} {f : Unit → Api Unit} (hx : Silent x) (hf : Silent (f ())) :
    Silent (x >>= f) := by
  intro s
  obtain ⟨s₁, hexec, hsmdio⟩ := hx s
  obtain ⟨s₂, hexec₂, hsmdio₂⟩ := hf s₁
  exact ⟨s₂, (exec_bind_ok hexec).trans hexec₂, hsmdio₂.trans hsmdio⟩

theorem silent_gpioUpdate (addr : Nat) (f : BitVec 16 → BitVec 16) {rest : Api Unit} (h : Silent rest) :
    Silent (gpioUpdate addr f rest) := by
  refine Silent.mboxRead_bind fun val => Silent.mboxWrite_bind (Silent.mboxRead_bind fun got => ?_)
  split
  · exact silent_pure
  · exact h

theorem silent_routeGpc (gpcSel : BitVec 32) : Silent (routeGpc phy gpcSel) := by
  have hselect : Silent (selectGpc phy gpcSel) := by
    refine Silent.mboxRead_bind fun sel s => ?_
    exact ⟨_, rfl, rfl⟩
  refine Silent.bind hselect ?_
  apply silent_gpioUpdate
  apply silent_gpioUpdate
  apply silent_gpioUpdate
  exact silent_pure

/-- The half-words of the units. -/
def unitsWrites (phy : Gpy211Device) (offset units : Nat) : List (Nat × BitVec 16) := [
  (smdioReg (phy.gmacfBaseAddr + offset), (BitVec.ofNat 32 (units - 1)).extractLsb' 0 16),
  (smdioReg (phy.gmacfBaseAddr + offset + 4), (BitVec.ofNat 32 (units - 1)).extractLsb' 16 16)]

def ppsWrites (phy : Gpy211Device) (ppsCtrl : PpsCtrl) : List (Nat × BitVec 16) := [
  (smdioReg (phy.gmacfBaseAddr + 0x16E0), ppsCtrl.ppsctrlLow),
  (smdioReg (phy.gmacfBaseAddr + 0x1700), ppsCtrl.secTgttime.extractLsb' 0 16),
  (smdioReg (phy.gmacfBaseAddr + 0x1704), ppsCtrl.secTgttime.extractLsb' 16 16),
  (smdioReg (phy.gmacfBaseAddr + 0x1708), ppsCtrl.nsecTgttime.extractLsb' 0 16),
  (smdioReg (phy.gmacfBaseAddr + 0x170C), ppsCtrl.nsecTgttime.extractLsb' 16 16)] ++
  if nanosecToUnits phy.ptpClock ppsCtrl.pps0Interal = 0 then []
  else unitsWrites phy 0x1710 (nanosecToUnits phy.ptpClock ppsCtrl.pps0Interal) ++
    if nanosecToUnits phy.ptpClock ppsCtrl.pps0Width = 0 then []
    else unitsWrites phy 0x1718 (nanosecToUnits phy.ptpClock ppsCtrl.pps0Width)

theorem writes_writeUnits (offset units : Nat) :
    Writes (writeUnits (phy.gmacfBaseAddr + offset) units) s (unitsWrites phy offset units) () :=
  Writes.write_bind (writes_smdioWriteAt _ _)

/-- The access succeeds, and its writes to the slave MDIO are `l`. -/
def Leaves (x : Api Unit) (s : Regs) (l : List (Nat × BitVec 16)) : Prop :=
  ∃ s', x.exec memHandler s = (.ok (), s') ∧ s'.smdio = writes s.smdio l

theorem Leaves.after {α : Type} {x : Api α} {f : α → Api Unit} {l₁ l₂ : List (Nat × BitVec 16)} {a : α}
    (hx : Writes x s l₁ a) (hf : Leaves (f a) { s with smdio := writes s.smdio l₁ } l₂) :
    Leaves (x >>= f) s (l₁ ++ l₂) := by
  obtain ⟨s', hexec, hsmdio⟩ := hf
  exact ⟨s', (exec_bind_ok hx).trans hexec, hsmdio.trans (writes_append).symm⟩

theorem Leaves.silent {α : Type} {x : Api α} {f : α → Api Unit} {l : List (Nat × BitVec 16)} {a : α}
    (hx : Writes x s [] a) (hf : Leaves (f a) s l) : Leaves (x >>= f) s l := Leaves.after hx hf

theorem Leaves.write {addr : Nat} {v : BitVec 16} {f : Unit → Api Unit} {l : List (Nat × BitVec 16)}
    (hf : Leaves (f ()) { s with smdio := Function.update s.smdio (smdioReg addr) v } l) :
    Leaves (smdioWriteAt addr v >>= f) s ((smdioReg addr, v) :: l) := hf

theorem leaves_nothing : Leaves (pure ()) s [] := ⟨s, rfl, rfl⟩

/-- The units of the width, and the pin. -/
theorem leaves_width (units : Nat) (gpcSel : BitVec 32) :
    Leaves (if units = 0 then pure ()
      else writeUnits (phy.gmacfBaseAddr + 0x1718) units >>= fun _ => routeGpc phy gpcSel) s
      (if units = 0 then [] else unitsWrites phy 0x1718 units) := by
  by_cases hwid : units = 0
  · rw [if_pos hwid, if_pos hwid]
    exact leaves_nothing
  · rw [if_neg hwid, if_neg hwid, ← List.append_nil (unitsWrites phy 0x1718 _)]
    exact Leaves.after (writes_writeUnits _ _) (silent_routeGpc gpcSel _)

/-- The units of the interval, and what is after them. -/
theorem leaves_interval (units : Nat) {rest : Api Unit} {l : List (Nat × BitVec 16)}
    (h : ∀ s, Leaves rest s l) :
    Leaves (if units = 0 then pure () else writeUnits (phy.gmacfBaseAddr + 0x1710) units >>= fun _ => rest)
      s (if units = 0 then [] else unitsWrites phy 0x1710 units ++ l) := by
  by_cases hint : units = 0
  · rw [if_pos hint, if_pos hint]
    exact leaves_nothing
  · rw [if_neg hint, if_neg hint]
    exact Leaves.after (writes_writeUnits _ _) (h _)

/-- An accepted call writes the times, and the interval and the width as far as they have units. -/
theorem leaves_setPpsctrl (ppsCtrl : PpsCtrl) (gpcSel : BitVec 32) :
    Leaves (setPpsctrl phy ppsCtrl gpcSel) s (ppsWrites phy ppsCtrl) := by
  refine Leaves.write (Leaves.silent (writes_isRwDone _ _) ?_)
  refine Leaves.write (Leaves.write (Leaves.write (Leaves.write ?_)))
  exact leaves_interval _ fun s => leaves_width _ gpcSel

theorem exec_gpy2xxPtpSetPpsctrl {ppsCtrl : PpsCtrl} {gpcSel : BitVec 32}
    (haccepts : ppsAccepts phy.family ppsCtrl gpcSel) : ∃ s',
    (gpy2xxPtpSetPpsctrl phy ppsCtrl gpcSel).exec (handler memHandler) s = (.ok (), s') ∧
      s'.smdio = writes s.smdio (ppsWrites phy ppsCtrl) := by
  rw [gpy2xxPtpSetPpsctrl, if_neg (by simp [haccepts]), exec_locked]
  exact leaves_setPpsctrl ppsCtrl gpcSel

theorem accepts_of_exec_setPpsctrl {ppsCtrl : PpsCtrl} {gpcSel : BitVec 32} {s' : Regs}
    (h : (gpy2xxPtpSetPpsctrl phy ppsCtrl gpcSel).exec (handler memHandler) s = (.ok (), s')) :
    ppsAccepts phy.family ppsCtrl gpcSel = true := by
  by_cases haccepts : ppsAccepts phy.family ppsCtrl gpcSel = true
  · exact haccepts
  · rw [gpy2xxPtpSetPpsctrl, if_pos (by simp [haccepts])] at h
    cases h

/-! ## What is shown after it -/

/-- The registers of the interval and of the width. -/
def intervalUnits (phy : Gpy211Device) (regs : Nat → BitVec 16) : BitVec 32 :=
  gmacfReg phy regs 0x1714 ++ gmacfReg phy regs 0x1710

def widthUnits (phy : Gpy211Device) (regs : Nat → BitVec 16) : BitVec 32 :=
  gmacfReg phy regs 0x171C ++ gmacfReg phy regs 0x1718

/-- Registers at the same base, two or more addresses apart. -/
theorem nodup_gmacfRegs {offsets : List Nat}
    (h : offsets.Pairwise fun a b => a + 2 ≤ b ∧ b + 2 ≤ a + 0x20000) :
    (offsets.map fun o => smdioReg (phy.gmacfBaseAddr + o)).Nodup :=
  List.Pairwise.map _ (fun _ _ hab => smdioReg_ne hab.1 hab.2) h

def timesOffsets : List Nat := [0x16E0, 0x1700, 0x1704, 0x1708, 0x170C]

/-- The offsets that are written. -/
def ppsOffsets (intUnits widUnits : Nat) : List Nat :=
  timesOffsets ++ if intUnits = 0 then [] else [0x1710, 0x1714] ++
    if widUnits = 0 then [] else [0x1718, 0x171C]

theorem keys_ppsWrites (ppsCtrl : PpsCtrl) : (ppsWrites phy ppsCtrl).map Prod.fst =
    (ppsOffsets (nanosecToUnits phy.ptpClock ppsCtrl.pps0Interal)
      (nanosecToUnits phy.ptpClock ppsCtrl.pps0Width)).map fun o => smdioReg (phy.gmacfBaseAddr + o) := by
  unfold ppsWrites ppsOffsets timesOffsets unitsWrites
  split
  · rfl
  · split <;> simp [Nat.add_assoc]

theorem pairwise_ppsOffsets (intUnits widUnits : Nat) :
    (ppsOffsets intUnits widUnits).Pairwise fun a b => a + 2 ≤ b ∧ b + 2 ≤ a + 0x20000 := by
  unfold ppsOffsets
  split
  · decide
  · split <;> decide

theorem nodup_ppsWrites (ppsCtrl : PpsCtrl) : ((ppsWrites phy ppsCtrl).map Prod.fst).Nodup := by
  rw [keys_ppsWrites]
  exact nodup_gmacfRegs (pairwise_ppsOffsets _ _)

variable {regs : Nat → BitVec 16} {ppsCtrl : PpsCtrl}

theorem gmacfReg_ppsWrites {o : Nat} {v : BitVec 16}
    (h : (smdioReg (phy.gmacfBaseAddr + o), v) ∈ ppsWrites phy ppsCtrl) :
    gmacfReg phy (writes regs (ppsWrites phy ppsCtrl)) o = v :=
  writes_of_mem (nodup_ppsWrites ppsCtrl) h

/-- The times are those that were set. -/
theorem times_ppsWrites :
    (shownPpsCtrl phy (writes regs (ppsWrites phy ppsCtrl))).ppsctrlLow = ppsCtrl.ppsctrlLow ∧
    (shownPpsCtrl phy (writes regs (ppsWrites phy ppsCtrl))).secTgttime = ppsCtrl.secTgttime ∧
    (shownPpsCtrl phy (writes regs (ppsWrites phy ppsCtrl))).nsecTgttime = ppsCtrl.nsecTgttime := by
  unfold shownPpsCtrl
  have hjoin : ∀ v : BitVec 32, v.extractLsb' 16 16 ++ v.extractLsb' 0 16 = v :=
    fun v => BitVec.extractLsb'_append_extractLsb'
  refine ⟨gmacfReg_ppsWrites List.mem_cons_self, ?_, ?_⟩
  · rw [gmacfReg_ppsWrites (o := 0x1704) (v := ppsCtrl.secTgttime.extractLsb' 16 16) (by simp [ppsWrites]),
      gmacfReg_ppsWrites (o := 0x1700) (v := ppsCtrl.secTgttime.extractLsb' 0 16) (by simp [ppsWrites]),
      hjoin]
  · rw [gmacfReg_ppsWrites (o := 0x170C) (v := ppsCtrl.nsecTgttime.extractLsb' 16 16) (by simp [ppsWrites]),
      gmacfReg_ppsWrites (o := 0x1708) (v := ppsCtrl.nsecTgttime.extractLsb' 0 16) (by simp [ppsWrites]),
      hjoin]

theorem intervalUnits_ppsWrites (hint : nanosecToUnits phy.ptpClock ppsCtrl.pps0Interal ≠ 0) :
    intervalUnits phy (writes regs (ppsWrites phy ppsCtrl)) =
      .ofNat 32 (nanosecToUnits phy.ptpClock ppsCtrl.pps0Interal - 1) := by
  have hin : ∀ w ∈ unitsWrites phy 0x1710 (nanosecToUnits phy.ptpClock ppsCtrl.pps0Interal),
      w ∈ ppsWrites phy ppsCtrl := by
    intro w hw
    rw [ppsWrites, if_neg hint]
    exact List.mem_append_right _ (List.mem_append_left _ hw)
  have hlow := @gmacfReg_ppsWrites phy regs ppsCtrl 0x1710 _ (hin _ List.mem_cons_self)
  have hhigh := @gmacfReg_ppsWrites phy regs ppsCtrl 0x1714 _
    (hin _ (List.mem_cons_of_mem _ List.mem_cons_self))
  rw [intervalUnits, hlow, hhigh]
  exact BitVec.extractLsb'_append_extractLsb'

theorem widthUnits_ppsWrites (hint : nanosecToUnits phy.ptpClock ppsCtrl.pps0Interal ≠ 0)
    (hwid : nanosecToUnits phy.ptpClock ppsCtrl.pps0Width ≠ 0) :
    widthUnits phy (writes regs (ppsWrites phy ppsCtrl)) =
      .ofNat 32 (nanosecToUnits phy.ptpClock ppsCtrl.pps0Width - 1) := by
  have hin : ∀ w ∈ unitsWrites phy 0x1718 (nanosecToUnits phy.ptpClock ppsCtrl.pps0Width),
      w ∈ ppsWrites phy ppsCtrl := by
    intro w hw
    rw [ppsWrites, if_neg hint, if_neg hwid]
    exact List.mem_append_right _ (List.mem_append_right _ hw)
  have hlow := @gmacfReg_ppsWrites phy regs ppsCtrl 0x1718 _ (hin _ List.mem_cons_self)
  have hhigh := @gmacfReg_ppsWrites phy regs ppsCtrl 0x171C _
    (hin _ (List.mem_cons_of_mem _ List.mem_cons_self))
  rw [widthUnits, hlow, hhigh]
  exact BitVec.extractLsb'_append_extractLsb'

/-- A register that is not among the keys. -/
theorem gmacfReg_ppsWrites_of_notMem {o : Nat} (ho : o < 0x2000)
    (h : ∀ g ∈ ppsOffsets (nanosecToUnits phy.ptpClock ppsCtrl.pps0Interal)
      (nanosecToUnits phy.ptpClock ppsCtrl.pps0Width), g + 2 ≤ o) :
    gmacfReg phy (writes regs (ppsWrites phy ppsCtrl)) o = gmacfReg phy regs o := by
  refine writes_of_notMem fun hmem => ?_
  rw [keys_ppsWrites] at hmem
  obtain ⟨g, hg, heq⟩ := List.mem_map.mp hmem
  exact smdioReg_ne (h g hg) (by omega) heq

theorem intervalUnits_kept (hint : nanosecToUnits phy.ptpClock ppsCtrl.pps0Interal = 0) :
    intervalUnits phy (writes regs (ppsWrites phy ppsCtrl)) = intervalUnits phy regs := by
  have hbefore : ∀ o, 0x1710 ≤ o → ∀ g ∈ ppsOffsets (nanosecToUnits phy.ptpClock ppsCtrl.pps0Interal)
      (nanosecToUnits phy.ptpClock ppsCtrl.pps0Width), g + 2 ≤ o := by
    intro o ho g hg
    rw [ppsOffsets, if_pos hint] at hg
    have htimes : ∀ g ∈ timesOffsets, g + 2 ≤ 0x1710 := by decide
    have hle := htimes g (by simpa using hg)
    omega
  rw [intervalUnits, gmacfReg_ppsWrites_of_notMem (by decide) (hbefore _ (by decide)),
    gmacfReg_ppsWrites_of_notMem (by decide) (hbefore _ (by decide))]
  rfl

theorem widthUnits_kept (h : nanosecToUnits phy.ptpClock ppsCtrl.pps0Interal = 0 ∨
    nanosecToUnits phy.ptpClock ppsCtrl.pps0Width = 0) :
    widthUnits phy (writes regs (ppsWrites phy ppsCtrl)) = widthUnits phy regs := by
  have hbefore : ∀ o, 0x1718 ≤ o → ∀ g ∈ ppsOffsets (nanosecToUnits phy.ptpClock ppsCtrl.pps0Interal)
      (nanosecToUnits phy.ptpClock ppsCtrl.pps0Width), g + 2 ≤ o := by
    intro o ho g hg
    have hshort : g ∈ timesOffsets ++ [0x1710, 0x1714] := by
      unfold ppsOffsets at hg
      split at hg
      · exact List.mem_append_left _ (by simpa using hg)
      · rwa [if_pos (h.resolve_left ‹_›), List.append_nil] at hg
    have hall : ∀ g ∈ timesOffsets ++ [0x1710, 0x1714], g + 2 ≤ 0x1718 := by decide
    have hle := hall g hshort
    omega
  rw [widthUnits, gmacfReg_ppsWrites_of_notMem (by decide) (hbefore _ (by decide)),
    gmacfReg_ppsWrites_of_notMem (by decide) (hbefore _ (by decide))]
  rfl

end Writes

/-! ## Conversions -/

section Conversions
variable {ptpClock nsec : BitVec 32}

theorem nanosecToUnits_eq : nanosecToUnits ptpClock nsec = convert secInNanosec ptpClock.toNat nsec.toNat :=
  rfl

/-- A time below a second has less units than the clock has cycles in a second. -/
theorem nanosecToUnits_lt (h : nsec.toNat ≤ maxNsecInSec) : nanosecToUnits ptpClock nsec < 2 ^ 32 := by
  have hclock := ptpClock.isLt
  refine Nat.div_lt_of_lt_mul ?_
  calc nsec.toNat * ptpClock.toNat ≤ maxNsecInSec * 2 ^ 32 := Nat.mul_le_mul h (by omega)
    _ < secInNanosec * 2 ^ 32 := by decide

/-- What the getter makes of stored units. -/
theorem toNat_unitsToNanosec {units : Nat} (hpos : 0 < units) (hlt : units < 2 ^ 32)
    (hshort : convert ptpClock.toNat secInNanosec units < 2 ^ 32) :
    (unitsToNanosec ptpClock (.ofNat 32 (units - 1))).toNat = convert ptpClock.toNat secInNanosec units := by
  have hcount : (BitVec.ofNat 32 (units - 1) + 1).toNat = units := by
    rw [BitVec.toNat_add, BitVec.toNat_ofNat]
    simp
    omega
  rw [unitsToNanosec, hcount, BitVec.toNat_ofNat]
  exact Nat.mod_eq_of_lt hshort

/-- The units that are stored for a time, once they are read back. -/
theorem toNat_readBack (hnsec : nsec.toNat ≤ maxNsecInSec)
    (hunits : nanosecToUnits ptpClock nsec ≠ 0) :
    (unitsToNanosec ptpClock (.ofNat 32 (nanosecToUnits ptpClock nsec - 1))).toNat =
      convert ptpClock.toNat secInNanosec (nanosecToUnits ptpClock nsec) := by
  refine toNat_unitsToNanosec (Nat.pos_of_ne_zero hunits) (nanosecToUnits_lt hnsec) ?_
  have hle : convert ptpClock.toNat secInNanosec (nanosecToUnits ptpClock nsec) ≤ nsec.toNat :=
    convert_convert_le
  have hlt := nsec.isLt
  omega

/-- Not above the time that was set, and less than a clock period and a nanosecond below it. -/
def RoundsDown (ptpClock requested got : BitVec 32) : Prop :=
  got.toNat ≤ requested.toNat ∧
    (requested.toNat - got.toNat) * ptpClock.toNat < secInNanosec + ptpClock.toNat

theorem roundsDown_readBack (hclock : ptpClock ≠ 0) (hnsec : nsec.toNat ≤ maxNsecInSec)
    (hunits : nanosecToUnits ptpClock nsec ≠ 0) : RoundsDown ptpClock nsec
      (unitsToNanosec ptpClock (.ofNat 32 (nanosecToUnits ptpClock nsec - 1))) := by
  have hpos : 0 < ptpClock.toNat := Nat.pos_of_ne_zero fun h => hclock (BitVec.eq_of_toNat_eq h)
  unfold RoundsDown
  rw [toNat_readBack hnsec hunits]
  have hloss : nsec.toNat * ptpClock.toNat <
      convert ptpClock.toNat secInNanosec (nanosecToUnits ptpClock nsec) * ptpClock.toNat +
        ptpClock.toNat + secInNanosec := lt_convert_convert (by decide) hpos
  refine ⟨convert_convert_le, ?_⟩
  rw [Nat.sub_mul]
  omega

/-- Storing again what is read back stores the same if and only if the units are a whole number of
nanoseconds. -/
theorem restored_iff (hnsec : nsec.toNat ≤ maxNsecInSec)
    (hunits : nanosecToUnits ptpClock nsec ≠ 0) :
    nanosecToUnits ptpClock
        (unitsToNanosec ptpClock (.ofNat 32 (nanosecToUnits ptpClock nsec - 1))) =
      nanosecToUnits ptpClock nsec ↔ ptpClock.toNat ∣ nanosecToUnits ptpClock nsec * secInNanosec := by
  rw [nanosecToUnits_eq, toNat_readBack hnsec hunits]
  exact convert_fixed_iff (by decide)

end Conversions

/-! ## Reading and writing back -/

/-- One round: what the getter returns is set again, on the same pin. -/
def ppsRound (phy : Gpy211Device) (gpcSel : BitVec 32) : Call Unit := do
  let ppsCtrl ← gpy2xxPtpGetPpsctrl phy
  gpy2xxPtpSetPpsctrl phy ppsCtrl gpcSel

/-- Some rounds, all of them accepted. -/
def PpsRounds (phy : Gpy211Device) (gpcSel : BitVec 32) : Nat → Regs → Regs → Prop
  | 0, s, s' => s' = s
  | n + 1, s, s' => ∃ s₁, (ppsRound phy gpcSel).exec (handler memHandler) s = (.ok (), s₁) ∧
      PpsRounds phy gpcSel n s₁ s'

section Rounds
variable {phy : Gpy211Device} {gpcSel : BitVec 32} {s s' : Regs}

/-- A pin the family has. -/
def GpcSel (family : Family) (gpcSel : BitVec 32) : Prop :=
  gpcMin family ≤ gpcSel.toNat ∧ gpcSel.toNat ≤ 3

/-- The times shown are below a second. -/
def ShownBelowSecond (phy : Gpy211Device) (s : Regs) : Prop :=
  (shownPpsCtrl phy s.smdio).nsecTgttime.toNat ≤ maxNsecInSec ∧
  (shownPpsCtrl phy s.smdio).pps0Interal.toNat ≤ maxNsecInSec ∧
  (shownPpsCtrl phy s.smdio).pps0Width.toNat ≤ maxNsecInSec

theorem ppsAccepts_iff {family : Family} {ppsCtrl : PpsCtrl} :
    ppsAccepts family ppsCtrl gpcSel = true ↔ GpcSel family gpcSel ∧
      ppsCtrl.nsecTgttime.toNat ≤ maxNsecInSec ∧ ppsCtrl.pps0Interal.toNat ≤ maxNsecInSec ∧
      ppsCtrl.pps0Width.toNat ≤ maxNsecInSec := by
  unfold ppsAccepts GpcSel
  simp
  omega

/-- A round from a state that shows times below a second is accepted. -/
theorem exec_ppsRound (hpin : GpcSel phy.family gpcSel) (hshown : ShownBelowSecond phy s) : ∃ s',
    (ppsRound phy gpcSel).exec (handler memHandler) s = (.ok (), s') ∧
      s'.smdio = writes s.smdio (ppsWrites phy (shownPpsCtrl phy s.smdio)) := by
  rw [ppsRound, exec_bind_ok (exec_gpy2xxPtpGetPpsctrl phy s)]
  exact exec_gpy2xxPtpSetPpsctrl (ppsAccepts_iff.mpr ⟨hpin, hshown⟩)

/-- Units before and after a write of the time they are shown as: they stay, or become those of it. -/
def Rewritten (ptpClock units units' : BitVec 32) : Prop :=
  units' = units ∨
    (nanosecToUnits ptpClock (unitsToNanosec ptpClock units) ≠ 0 ∧
      units' = .ofNat 32 (nanosecToUnits ptpClock (unitsToNanosec ptpClock units) - 1))

theorem rewritten_interval : Rewritten phy.ptpClock (intervalUnits phy s.smdio)
    (intervalUnits phy (writes s.smdio (ppsWrites phy (shownPpsCtrl phy s.smdio)))) := by
  by_cases hint : nanosecToUnits phy.ptpClock (shownPpsCtrl phy s.smdio).pps0Interal = 0
  · exact .inl (intervalUnits_kept hint)
  · exact .inr ⟨hint, intervalUnits_ppsWrites hint⟩

theorem rewritten_width : Rewritten phy.ptpClock (widthUnits phy s.smdio)
    (widthUnits phy (writes s.smdio (ppsWrites phy (shownPpsCtrl phy s.smdio)))) := by
  by_cases hint : nanosecToUnits phy.ptpClock (shownPpsCtrl phy s.smdio).pps0Interal = 0
  · exact .inl (widthUnits_kept (.inl hint))
  · by_cases hwid : nanosecToUnits phy.ptpClock (shownPpsCtrl phy s.smdio).pps0Width = 0
    · exact .inl (widthUnits_kept (.inr hwid))
    · exact .inr ⟨hwid, widthUnits_ppsWrites hint hwid⟩

/-- What is shown never gets longer. -/
theorem Rewritten.shown_le {ptpClock units units' : BitVec 32} (h : Rewritten ptpClock units units')
    (hshort : (unitsToNanosec ptpClock units).toNat ≤ maxNsecInSec) :
    (unitsToNanosec ptpClock units').toNat ≤ (unitsToNanosec ptpClock units).toNat := by
  rcases h with heq | ⟨hunits, heq⟩
  · rw [heq]
  · rw [heq, toNat_readBack hshort hunits]
    exact convert_convert_le

/-- Units that the time they are shown as is stored as. -/
def Settled (ptpClock units : BitVec 32) : Prop :=
  nanosecToUnits ptpClock (unitsToNanosec ptpClock units) = units.toNat + 1

theorem Rewritten.eq_of_settled {ptpClock units units' : BitVec 32} (h : Rewritten ptpClock units units')
    (hsettled : Settled ptpClock units) : units' = units := by
  rcases h with heq | ⟨-, heq⟩
  · exact heq
  · rw [heq, hsettled]
    simp

/-- Any number of rounds is accepted, shows nothing longer and leaves settled units alone. -/
theorem rounds_settle (hpin : GpcSel phy.family gpcSel) (n : Nat) (hshown : ShownBelowSecond phy s) :
    ∃ s', PpsRounds phy gpcSel n s s' ∧
      (shownPpsCtrl phy s'.smdio).pps0Interal.toNat ≤ (shownPpsCtrl phy s.smdio).pps0Interal.toNat ∧
      (shownPpsCtrl phy s'.smdio).pps0Width.toNat ≤ (shownPpsCtrl phy s.smdio).pps0Width.toNat ∧
      (Settled phy.ptpClock (intervalUnits phy s.smdio) →
        intervalUnits phy s'.smdio = intervalUnits phy s.smdio) ∧
      (Settled phy.ptpClock (widthUnits phy s.smdio) →
        widthUnits phy s'.smdio = widthUnits phy s.smdio) := by
  induction n generalizing s with
  | zero => exact ⟨s, rfl, Nat.le_refl _, Nat.le_refl _, fun _ => rfl, fun _ => rfl⟩
  | succ n ih =>
    obtain ⟨s₁, hexec, hsmdio⟩ := exec_ppsRound hpin hshown
    have hint : Rewritten phy.ptpClock (intervalUnits phy s.smdio) (intervalUnits phy s₁.smdio) := by
      rw [hsmdio]
      exact rewritten_interval
    have hwid : Rewritten phy.ptpClock (widthUnits phy s.smdio) (widthUnits phy s₁.smdio) := by
      rw [hsmdio]
      exact rewritten_width
    have hintLe := hint.shown_le hshown.2.1
    have hwidLe := hwid.shown_le hshown.2.2
    have hnsec : (shownPpsCtrl phy s₁.smdio).nsecTgttime = (shownPpsCtrl phy s.smdio).nsecTgttime := by
      rw [hsmdio]
      exact times_ppsWrites.2.2
    have hshown₁ : ShownBelowSecond phy s₁ := by
      refine ⟨?_, Nat.le_trans hintLe hshown.2.1, Nat.le_trans hwidLe hshown.2.2⟩
      rw [hnsec]
      exact hshown.1
    obtain ⟨s', hrounds, hintLe', hwidLe', hintKept, hwidKept⟩ := ih hshown₁
    refine ⟨s', ⟨s₁, hexec, hrounds⟩, Nat.le_trans hintLe' hintLe, Nat.le_trans hwidLe' hwidLe, ?_, ?_⟩
    · intro hsettled
      have hsame := hint.eq_of_settled hsettled
      rw [hsame] at hintKept
      exact hintKept hsettled
    · intro hsettled
      have hsame := hwid.eq_of_settled hsettled
      rw [hsame] at hwidKept
      exact hwidKept hsettled

/-- A time that is at least a clock period has units. -/
theorem units_ne_zero {ptpClock nsec : BitVec 32} (h : secInNanosec ≤ nsec.toNat * ptpClock.toNat) :
    nanosecToUnits ptpClock nsec ≠ 0 :=
  Nat.ne_of_gt (Nat.div_pos h (by decide))

/-- Stored units are settled if and only if they are a whole number of nanoseconds. -/
theorem settled_iff {ptpClock nsec : BitVec 32} (hnsec : nsec.toNat ≤ maxNsecInSec)
    (hunits : nanosecToUnits ptpClock nsec ≠ 0) :
    Settled ptpClock (.ofNat 32 (nanosecToUnits ptpClock nsec - 1)) ↔
      ptpClock.toNat ∣ nanosecToUnits ptpClock nsec * secInNanosec := by
  have hlt := @nanosecToUnits_lt ptpClock nsec hnsec
  have hcount : (BitVec.ofNat 32 (nanosecToUnits ptpClock nsec - 1)).toNat + 1 =
      nanosecToUnits ptpClock nsec := by
    rw [BitVec.toNat_ofNat]
    omega
  rw [Settled, hcount]
  exact restored_iff hnsec hunits

/-- A round that stores the time again leaves the units alone only if they are settled. -/
theorem Settled.of_eq {ptpClock nsec units units' : BitVec 32} (hnsec : nsec.toNat ≤ maxNsecInSec)
    (hshown : nsec = unitsToNanosec ptpClock units) (hunits : nanosecToUnits ptpClock nsec ≠ 0)
    (hstored : units' = .ofNat 32 (nanosecToUnits ptpClock nsec - 1)) (h : units' = units) :
    Settled ptpClock units := by
  have hlt := @nanosecToUnits_lt ptpClock nsec hnsec
  rw [Settled, ← hshown, ← h, hstored, BitVec.toNat_ofNat]
  omega

/-- What the getter returns after a configuration. -/
structure PpsReadsBack (ptpClock : BitVec 32) (requested got : PpsCtrl) : Prop where
  ppsctrlLow : got.ppsctrlLow = requested.ppsctrlLow
  secTgttime : got.secTgttime = requested.secTgttime
  nsecTgttime : got.nsecTgttime = requested.nsecTgttime
  interval : RoundsDown ptpClock requested.pps0Interal got.pps0Interal
  width : RoundsDown ptpClock requested.pps0Width got.pps0Width

variable {requested : PpsCtrl}

/-- After an accepted call with an interval and a width of a clock period or more. -/
theorem shown_of_set (hclock : phy.ptpClock ≠ 0)
    (hset : (gpy2xxPtpSetPpsctrl phy requested gpcSel).exec (handler memHandler) s = (.ok (), s'))
    (hint : nanosecToUnits phy.ptpClock requested.pps0Interal ≠ 0)
    (hwid : nanosecToUnits phy.ptpClock requested.pps0Width ≠ 0) :
    PpsReadsBack phy.ptpClock requested (shownPpsCtrl phy s'.smdio) ∧
    intervalUnits phy s'.smdio = .ofNat 32 (nanosecToUnits phy.ptpClock requested.pps0Interal - 1) ∧
    widthUnits phy s'.smdio = .ofNat 32 (nanosecToUnits phy.ptpClock requested.pps0Width - 1) := by
  have haccepts := accepts_of_exec_setPpsctrl hset
  obtain ⟨-, hnsec, hshortInt, hshortWid⟩ := (ppsAccepts_iff).mp haccepts
  obtain ⟨s₁, hexec, hsmdio⟩ := @exec_gpy2xxPtpSetPpsctrl phy s requested gpcSel haccepts
  cases hexec.symm.trans hset
  have hintUnits := @intervalUnits_ppsWrites phy s.smdio requested hint
  have hwidUnits := @widthUnits_ppsWrites phy s.smdio requested hint hwid
  rw [← hsmdio] at hintUnits hwidUnits
  have htimes := @times_ppsWrites phy s.smdio requested
  rw [← hsmdio] at htimes
  refine ⟨⟨htimes.1, htimes.2.1, htimes.2.2, ?_, ?_⟩, hintUnits, hwidUnits⟩
  · show RoundsDown _ _ (unitsToNanosec phy.ptpClock (intervalUnits phy s'.smdio))
    rw [hintUnits]
    exact roundsDown_readBack hclock hshortInt hint
  · show RoundsDown _ _ (unitsToNanosec phy.ptpClock (widthUnits phy s'.smdio))
    rw [hwidUnits]
    exact roundsDown_readBack hclock hshortWid hwid

/-- The round trip, and reading and writing back any number of times. -/
theorem pps_round_trip (hclock : phy.ptpClock ≠ 0)
    (hset : (gpy2xxPtpSetPpsctrl phy requested gpcSel).exec (handler memHandler) s = (.ok (), s'))
    (hint : secInNanosec ≤ requested.pps0Interal.toNat * phy.ptpClock.toNat)
    (hwid : secInNanosec ≤ requested.pps0Width.toNat * phy.ptpClock.toNat) :
    ∃ got, (gpy2xxPtpGetPpsctrl phy).exec (handler memHandler) s' = (.ok got, s') ∧
      PpsReadsBack phy.ptpClock requested got ∧
      (∀ n, ∃ s'' later, PpsRounds phy gpcSel n s' s'' ∧
        (gpy2xxPtpGetPpsctrl phy).exec (handler memHandler) s'' = (.ok later, s'') ∧
        later.pps0Interal.toNat ≤ got.pps0Interal.toNat ∧ later.pps0Width.toNat ≤ got.pps0Width.toNat ∧
        (phy.ptpClock.toNat ∣ nanosecToUnits phy.ptpClock requested.pps0Interal * secInNanosec →
          intervalUnits phy s''.smdio = intervalUnits phy s'.smdio) ∧
        (phy.ptpClock.toNat ∣ nanosecToUnits phy.ptpClock requested.pps0Width * secInNanosec →
          widthUnits phy s''.smdio = widthUnits phy s'.smdio)) ∧
      ∀ s'', (ppsRound phy gpcSel).exec (handler memHandler) s' = (.ok (), s'') →
        secInNanosec ≤ got.pps0Interal.toNat * phy.ptpClock.toNat →
        secInNanosec ≤ got.pps0Width.toNat * phy.ptpClock.toNat →
        (intervalUnits phy s''.smdio = intervalUnits phy s'.smdio ↔
          phy.ptpClock.toNat ∣ nanosecToUnits phy.ptpClock requested.pps0Interal * secInNanosec) ∧
        (widthUnits phy s''.smdio = widthUnits phy s'.smdio ↔
          phy.ptpClock.toNat ∣ nanosecToUnits phy.ptpClock requested.pps0Width * secInNanosec) := by
  have hint := units_ne_zero hint
  have hwid := units_ne_zero hwid
  obtain ⟨hpin, hnsec, hshortInt, hshortWid⟩ := (ppsAccepts_iff).mp (accepts_of_exec_setPpsctrl hset)
  obtain ⟨hreads, hintUnits, hwidUnits⟩ := shown_of_set hclock hset hint hwid
  have hsettledInt := settled_iff hshortInt hint
  have hsettledWid := settled_iff hshortWid hwid
  rw [← hintUnits] at hsettledInt
  rw [← hwidUnits] at hsettledWid
  have hshown : ShownBelowSecond phy s' :=
    ⟨hreads.nsecTgttime ▸ hnsec, Nat.le_trans hreads.interval.1 hshortInt,
      Nat.le_trans hreads.width.1 hshortWid⟩
  refine ⟨_, exec_gpy2xxPtpGetPpsctrl phy s', hreads, fun n => ?_, fun s'' hround hgotInt hgotWid => ?_⟩
  · obtain ⟨s'', hrounds, hintLe, hwidLe, hintKept, hwidKept⟩ := rounds_settle hpin n hshown
    exact ⟨s'', _, hrounds, exec_gpy2xxPtpGetPpsctrl phy s'', hintLe, hwidLe,
      fun hdvd => hintKept (hsettledInt.mpr hdvd), fun hdvd => hwidKept (hsettledWid.mpr hdvd)⟩
  · obtain ⟨s₁, hexec, hsmdio⟩ := exec_ppsRound hpin hshown
    cases hexec.symm.trans hround
    have hgotInt := units_ne_zero hgotInt
    have hgotWid := units_ne_zero hgotWid
    have hintStored := @intervalUnits_ppsWrites phy s'.smdio _ hgotInt
    have hwidStored := @widthUnits_ppsWrites phy s'.smdio _ hgotInt hgotWid
    have hintRewritten := @rewritten_interval phy s'
    have hwidRewritten := @rewritten_width phy s'
    rw [← hsmdio] at hintStored hwidStored hintRewritten hwidRewritten
    constructor
    · rw [← hsettledInt]
      exact ⟨Settled.of_eq hshown.2.1 rfl hgotInt hintStored, hintRewritten.eq_of_settled⟩
    · rw [← hsettledWid]
      exact ⟨Settled.of_eq hshown.2.2 rfl hgotWid hwidStored, hwidRewritten.eq_of_settled⟩

end Rounds

/-- The round trip as it is often expected: what is written back leaves the units alone. -/
def PpsRoundTrips (phy : Gpy211Device) (requested : PpsCtrl) (gpcSel : BitVec 32) : Prop :=
  ∀ s s', (gpy2xxPtpSetPpsctrl phy requested gpcSel).exec (handler memHandler) s = (.ok (), s') →
    ∃ got, (gpy2xxPtpGetPpsctrl phy).exec (handler memHandler) s' = (.ok got, s') ∧
      PpsReadsBack phy.ptpClock requested got ∧
      ∃ s'', (gpy2xxPtpSetPpsctrl phy got gpcSel).exec (handler memHandler) s' = (.ok (), s'') ∧
        intervalUnits phy s''.smdio = intervalUnits phy s'.smdio ∧
        widthUnits phy s''.smdio = widthUnits phy s'.smdio

/-- An output with the same interval and width. -/
def evenPps (nsec : BitVec 32) : PpsCtrl := ⟨0, 0, 0, nsec, nsec⟩

theorem set_evenPps {nsec : BitVec 32} (h : nsec.toNat ≤ maxNsecInSec) : ∃ s',
    (gpy2xxPtpSetPpsctrl (ptpPhy 406250000) (evenPps nsec) 2).exec (handler memHandler) (zeroRegs true) =
      (.ok (), s') := by
  have hpin : GpcSel (ptpPhy 406250000).family 2 := ⟨by decide, by decide⟩
  have hzero : (evenPps nsec).nsecTgttime.toNat ≤ maxNsecInSec := Nat.zero_le _
  have haccepts : ppsAccepts (ptpPhy 406250000).family (evenPps nsec) 2 = true :=
    (ppsAccepts_iff).mpr ⟨hpin, hzero, h, h⟩
  obtain ⟨s', hexec, -⟩ := @exec_gpy2xxPtpSetPpsctrl _ (zeroRegs true) _ _ haccepts
  exact ⟨s', hexec⟩

/-- Half a second is 203125000 units, a whole number of nanoseconds: reading and writing back does
not drift. -/
theorem pps_round_trip_half_second : ∃ s' got,
    (gpy2xxPtpGetPpsctrl (ptpPhy 406250000)).exec (handler memHandler) s' = (.ok got, s') ∧
      PpsReadsBack 406250000 (evenPps 500000000) got ∧
      ∀ n, ∃ s'', PpsRounds (ptpPhy 406250000) 2 n s' s'' ∧
        intervalUnits (ptpPhy 406250000) s''.smdio = intervalUnits (ptpPhy 406250000) s'.smdio := by
  obtain ⟨s', hset⟩ := @set_evenPps 500000000 (by decide)
  obtain ⟨got, hget, hreads, hrounds, -⟩ :=
    @pps_round_trip (ptpPhy 406250000) 2 _ s' _ (by decide) hset (by decide) (by decide)
  refine ⟨s', got, hget, hreads, fun n => ?_⟩
  obtain ⟨s'', later, hrun, -, -, -, hkept, -⟩ := hrounds n
  exact ⟨s'', hrun, hkept (by decide)⟩

/-- 10 ns are 4 units, shown as 9 ns, and these are 3 units. -/
theorem not_ppsRoundTrips_10ns : ¬PpsRoundTrips (ptpPhy 406250000) (evenPps 10) 2 := by
  intro h
  obtain ⟨s', hset⟩ := @set_evenPps 10 (by decide)
  obtain ⟨got, hget, -, s'', hagain, hkept, -⟩ := h _ s' hset
  cases (exec_gpy2xxPtpGetPpsctrl _ s').symm.trans hget
  obtain ⟨-, hunits, -⟩ := shown_of_set (by decide) hset (by decide) (by decide)
  have hgot : (shownPpsCtrl (ptpPhy 406250000) s'.smdio).pps0Interal = 9 := by
    show unitsToNanosec 406250000 (intervalUnits (ptpPhy 406250000) s'.smdio) = 9
    rw [hunits]
    decide
  obtain ⟨s₁, hexec, hsmdio⟩ := @exec_gpy2xxPtpSetPpsctrl _ s' _ _ (accepts_of_exec_setPpsctrl hagain)
  cases hexec.symm.trans hagain
  have hstored := @intervalUnits_ppsWrites (ptpPhy 406250000) s'.smdio
    (shownPpsCtrl (ptpPhy 406250000) s'.smdio) (by rw [hgot]; decide)
  rw [← hsmdio, hkept, hunits, hgot] at hstored
  revert hstored
  decide

end Gpy2xx
