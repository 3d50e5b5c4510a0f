import MxlUtils.Gphy.SyncE

/- What a configuration of the periodic output that succeeds has done. The call returns what its last access
   returned: where a time is shorter than a unit, or the pin does not take what was written, it ends early, and
   still without an error. -/
namespace Gpy2xx
open Effect Effect.Lock Bits

/-! ## What a run shows -/

/-- Half-words written through the mailbox, in order. -/
def mboxWritten (t : RegTrace) : List (Nat × BitVec 16) :=
  t.filterMap fun
    | ⟨.mboxWrite16 addr v, .ok _⟩ => some (addr, v)
    | _ => none

/-- Half-words read through the mailbox, in order. -/
def mboxShown (t : RegTrace) : List (Nat × BitVec 16) :=
  t.filterMap fun
    | ⟨.mboxRead16 addr, .ok v⟩ => some (addr, v)
    | _ => none

/-- The last of the values for an address. -/
def lastAt (addr : Nat) (l : List (Nat × BitVec 16)) : Option (BitVec 16) := l.reverse.lookup addr

/-- What was read last is what was written last. -/
def ReadsBack (t : RegTrace) (addr : Nat) : Prop := lastAt addr (mboxShown t) = lastAt addr (mboxWritten t)

instance decidableReadsBack (t : RegTrace) (addr : Nat) : Decidable (ReadsBack t addr) :=
  inferInstanceAs (Decidable (_ = _))

section Views
variable {β : Type} {t t' : RegTrace} {reg bit addr : Nat} {val : BitVec 16}

/-- From `t` to the rest `t'` of a run the half-words `l` are written to the slave MDIO, and the mailbox is not used. -/
structure Writing (l : List (Nat × BitVec 16)) (t t' : RegTrace) : Prop where
  smdio : smdioWritten t = l ++ smdioWritten t'
  written : mboxWritten t = mboxWritten t'
  shown : mboxShown t = mboxShown t'

theorem Writing.trans {l l' : List (Nat × BitVec 16)} {t₁ t₂ t₃ : RegTrace} (h : Writing l t₁ t₂)
    (h' : Writing l' t₂ t₃) : Writing (l ++ l') t₁ t₃ where
  smdio := by rw [h.smdio, h'.smdio, List.append_assoc]
  written := h.written.trans h'.written
  shown := h.shown.trans h'.shown

/-- The wait makes no access but reads of its register. -/
theorem writing_isRwDone {r : Except Errno Unit} (h : (isRwDone reg bit).Runs t r) : Writing [] (t ++ t') t' := by
  have hreads := Prog.Runs.all h (all_isRwDone (P := fun o => o = .smdioRead (smdioReg reg)) rfl)
  clear h
  induction t with
  | nil => exact ⟨rfl, rfl, rfl⟩
  | cons e t ih =>
    have hop := hreads e List.mem_cons_self
    have hrest := ih fun e he => hreads e (List.mem_cons_of_mem _ he)
    obtain ⟨o, r⟩ := e
    cases hop
    exact ⟨hrest.smdio, hrest.written, hrest.shown⟩

theorem runs_isRwDone_bind {f : Unit → Api β} {b : β} (h : (isRwDone reg bit >>= f).Runs t (.ok b)) :
    ∃ t', Writing [] t t' ∧ (f ()).Runs t' (.ok b) := by
  obtain ⟨polls, _, t', rfl, hpolls, hrest⟩ := Fallible.runs_bind_ok.mp h
  exact ⟨t', writing_isRwDone hpolls, hrest⟩

theorem runs_smdioWriteAt_bind {f : Unit → Api β} {b : β} (h : (smdioWriteAt addr val >>= f).Runs t (.ok b)) :
    ∃ t', Writing [(smdioReg addr, val)] t t' ∧ (f ()).Runs t' (.ok b) := by
  obtain ⟨e, -, he⟩ | ⟨_, t', rfl, hrest⟩ := runs_smdioWrite_bind.mp h
  · cases he
  · exact ⟨t', ⟨rfl, rfl, rfl⟩, hrest⟩

end Views

/-! ## The pin -/

/-- What is to be written for the pin, from what the registers show: the function select, the direction and the two
alternate functions. The last three are read again after their write. -/
def gpcWrites (phy : Gpy211Device) (gpcSel : BitVec 32) (shown : List (Nat × BitVec 16)) : List (Nat × BitVec 16) :=
  let val (i : Nat) := (shown.map Prod.snd).getD i 0
  let pin : BitVec 16 := 1 <<< gpcPin phy.family gpcSel
  [(gpcConf phy.family gpcSel,
      if phy.family = .p34x then Field.replace ⟨0xF, 0⟩ (val 0) (4 + BitVec.ofInt 16 (phy.phyAddr % 4))
      else Field.replace ⟨0x7, 0⟩ (val 0) 4),
    (0xD3CE08, val 1 ||| pin),
    (0xD3CE0C, if phy.family = .p34x then val 3 ||| pin else val 3 &&& ~~~pin),
    (0xD3CE10, val 5 ||| pin)]

/-- How many of these are written: the call goes on only after a register that reads back. -/
def gpcWritten (t : RegTrace) : Nat :=
  if ReadsBack t 0xD3CE08 then if ReadsBack t 0xD3CE0C then 4 else 3 else 2

section Pin
variable {t : RegTrace} {phy : Gpy211Device} {gpcSel : BitVec 32}
variable {addr : Nat} {f : BitVec 16 → BitVec 16} {rest : Api Unit}

theorem gpcWritten_all (hdir : ReadsBack t 0xD3CE08) (halt : ReadsBack t 0xD3CE0C) : gpcWritten t = 4 := by
  rw [gpcWritten, if_pos hdir, if_pos halt]

theorem gpcWritten_direction (hdir : ReadsBack t 0xD3CE08) (halt : ¬ReadsBack t 0xD3CE0C) : gpcWritten t = 3 := by
  rw [gpcWritten, if_pos hdir, if_neg halt]

theorem gpcWritten_select (hdir : ¬ReadsBack t 0xD3CE08) : gpcWritten t = 2 := by
  rw [gpcWritten, if_neg hdir]

theorem runs_gpioUpdate (h : (gpioUpdate addr f rest).Runs t (.ok ())) : ∃ v u w t', f v = u ∧
    t = ⟨.mboxRead16 addr, .ok v⟩ :: ⟨.mboxWrite16 addr u, .ok ()⟩ :: ⟨.mboxRead16 addr, .ok w⟩ :: t' ∧
      (u = w ∧ rest.Runs t' (.ok ()) ∨ u ≠ w ∧ t' = []) := by
  obtain ⟨e, -, he⟩ | ⟨v, t₁, rfl, h₁⟩ := runs_phyMboxHwrd_bind.mp h
  · cases he
  obtain ⟨e, -, he⟩ | ⟨_, t₂, rfl, h₂⟩ := runs_phyMboxHwwr_bind.mp h₁
  · cases he
  obtain ⟨e, -, he⟩ | ⟨w, t₃, rfl, h₃⟩ := runs_phyMboxHwrd_bind.mp h₂
  · cases he
  refine ⟨v, f v, w, t₃, rfl, rfl, ?_⟩
  by_cases hw : f v = w
  · rw [Fallible.runs_ite, if_neg (by simp [hw])] at h₃
    exact .inl ⟨hw, h₃⟩
  · rw [Fallible.runs_ite, if_pos (by simp [hw])] at h₃
    exact .inr ⟨hw, h₃.1⟩

theorem runs_selectGpc (h : (selectGpc phy gpcSel).Runs t (.ok ())) : ∃ v,
    t = [⟨.mboxRead16 (gpcConf phy.family gpcSel), .ok v⟩,
      ⟨.mboxWrite16 (gpcConf phy.family gpcSel)
        (if phy.family = .p34x then Field.replace ⟨0xF, 0⟩ v (4 + BitVec.ofInt 16 (phy.phyAddr % 4))
        else Field.replace ⟨0x7, 0⟩ v 4), .ok ()⟩] := by
  obtain ⟨e, -, he⟩ | ⟨v, t₁, rfl, h₁⟩ := runs_phyMboxHwrd_bind.mp h
  · cases he
  obtain rfl := runs_phyMboxHwwr.mp h₁
  exact ⟨v, rfl⟩

/-- A run that ends well has written the registers up to the first that does not read back. -/
theorem runs_routeGpc (h : (routeGpc phy gpcSel).Runs t (.ok ())) :
    smdioWritten t = [] ∧ mboxWritten t = (gpcWrites phy gpcSel (mboxShown t)).take (gpcWritten t) := by
  obtain ⟨t₁, _, t₂, rfl, hselect, hpin⟩ := Fallible.runs_bind_ok.mp h
  obtain ⟨x, rfl⟩ := runs_selectGpc hselect
  obtain ⟨v, u, w, t₃, hu, rfl, ⟨rfl, halt⟩ | ⟨hw, rfl⟩⟩ := runs_gpioUpdate hpin
  · obtain ⟨v', u', w', t₄, hu', rfl, ⟨rfl, hlast⟩ | ⟨hw', rfl⟩⟩ := runs_gpioUpdate halt
    · obtain ⟨v'', u'', w'', t₅, hu'', rfl, hend⟩ := runs_gpioUpdate hlast
      have hnil : t₅ = [] := by
        obtain ⟨-, hend⟩ | ⟨-, hend⟩ := hend
        · exact hend.1
        · exact hend
      subst hnil
      refine ⟨rfl, ?_⟩
      rw [gpcWritten_all, ← hu, ← hu', ← hu'']
      · rfl
      · rfl
      · rfl
    · refine ⟨rfl, ?_⟩
      rw [gpcWritten_direction, ← hu, ← hu']
      · rfl
      · rfl
      · exact fun h => hw' (Option.some.inj h).symm
  · refine ⟨rfl, ?_⟩
    rw [gpcWritten_select, ← hu]
    · rfl
    · exact fun h => hw (Option.some.inj h).symm

end Pin

/-! ## The whole call -/

section Call
variable {t : RegTrace} {phy : Gpy211Device} {ppsCtrl : PpsCtrl} {gpcSel : BitVec 32}

theorem runs_writeUnits {β : Type} {f : Unit → Api β} {offset units : Nat} {b : β}
    (h : (writeUnits (phy.gmacfBaseAddr + offset) units >>= f).Runs t (.ok b)) : ∃ t',
      Writing (unitsWrites phy offset units) t t' ∧ (f ()).Runs t' (.ok b) := by
  obtain ⟨t₁, _, t₂, rfl, hunits, hrest⟩ := Fallible.runs_bind_ok.mp h
  obtain ⟨e, -, he⟩ | ⟨_, t₃, rfl, hlast⟩ := runs_smdioWrite_bind.mp hunits
  · cases he
  obtain rfl := runs_smdioWrite.mp hlast
  exact ⟨t₂, ⟨rfl, rfl, rfl⟩, hrest⟩

/-- The writes of the control word and of the target time. -/
def timesWrites (phy : Gpy211Device) (ppsCtrl : PpsCtrl) : List (Nat × BitVec 16) := [
  (smdioReg (phy.gmacfBaseAddr + 0x16E0), ppsCtrl.ppsctrlLow),
  (smdioReg (phy.gmacfBaseAddr + 0x1700), ppsCtrl.secTgttime.extractLsb' 0 16),
  (smdioReg (phy.gmacfBaseAddr + 0x1704), ppsCtrl.secTgttime.extractLsb' 16 16),
  (smdioReg (phy.gmacfBaseAddr + 0x1708), ppsCtrl.nsecTgttime.extractLsb' 0 16),
  (smdioReg (phy.gmacfBaseAddr + 0x170C), ppsCtrl.nsecTgttime.extractLsb' 16 16)]

/-- The writes of the units, as far as there are any. -/
def unitsWritten (phy : Gpy211Device) (ppsCtrl : PpsCtrl) : List (Nat × BitVec 16) :=
  if nanosecToUnits phy.ptpClock ppsCtrl.pps0Interal = 0 then []
  else unitsWrites phy 0x1710 (nanosecToUnits phy.ptpClock ppsCtrl.pps0Interal) ++
    if nanosecToUnits phy.ptpClock ppsCtrl.pps0Width = 0 then []
    else unitsWrites phy 0x1718 (nanosecToUnits phy.ptpClock ppsCtrl.pps0Width)

theorem Writing.readsBack {l : List (Nat × BitVec 16)} {t t' : RegTrace} {addr : Nat} (h : Writing l t t') :
    ReadsBack t addr ↔ ReadsBack t' addr := by
  rw [ReadsBack, ReadsBack, h.written, h.shown]

theorem Writing.gpcWritten {l : List (Nat × BitVec 16)} {t t' : RegTrace} (h : Writing l t t') :
    gpcWritten t = Gpy2xx.gpcWritten t' := by
  simp only [Gpy2xx.gpcWritten, h.readsBack]

/-- The accesses that a run which ends well makes. -/
structure PpsDone (phy : Gpy211Device) (ppsCtrl : PpsCtrl) (gpcSel : BitVec 32) (t : RegTrace) : Prop where
  smdio : smdioWritten t = ppsWrites phy ppsCtrl
  pin : mboxWritten t =
    if nanosecToUnits phy.ptpClock ppsCtrl.pps0Interal = 0 ∨ nanosecToUnits phy.ptpClock ppsCtrl.pps0Width = 0 then []
    else (gpcWrites phy gpcSel (mboxShown t)).take (gpcWritten t)

/-- The control word and the target time, with the wait between them. -/
theorem runs_times {rest : Api Unit} (h : (do
      smdioWriteAt (phy.gmacfBaseAddr + 0x16E0) ppsCtrl.ppsctrlLow
      isRwDone (phy.gmacfBaseAddr + 0x170C) 15
      smdioWriteAt (phy.gmacfBaseAddr + 0x1700) (ppsCtrl.secTgttime.extractLsb' 0 16)
      smdioWriteAt (phy.gmacfBaseAddr + 0x1704) (ppsCtrl.secTgttime.extractLsb' 16 16)
      smdioWriteAt (phy.gmacfBaseAddr + 0x1708) (ppsCtrl.nsecTgttime.extractLsb' 0 16)
      smdioWriteAt (phy.gmacfBaseAddr + 0x170C) (ppsCtrl.nsecTgttime.extractLsb' 16 16)
      rest : Api Unit).Runs t (.ok ())) : ∃ t', Writing (timesWrites phy ppsCtrl) t t' ∧ rest.Runs t' (.ok ()) := by
  obtain ⟨t₁, hctrl, h₁⟩ := runs_smdioWriteAt_bind h
  obtain ⟨t₂, hwait, h₂⟩ := runs_isRwDone_bind h₁
  obtain ⟨t₃, hsecL, h₃⟩ := runs_smdioWriteAt_bind h₂
  obtain ⟨t₄, hsecH, h₄⟩ := runs_smdioWriteAt_bind h₃
  obtain ⟨t₅, hnsecL, h₅⟩ := runs_smdioWriteAt_bind h₄
  obtain ⟨t₆, hnsecH, h₆⟩ := runs_smdioWriteAt_bind h₅
  exact ⟨t₆, ((((hctrl.trans hwait).trans hsecL).trans hsecH).trans hnsecL).trans hnsecH, h₆⟩

theorem runs_setPpsctrl (h : (setPpsctrl phy ppsCtrl gpcSel).Runs t (.ok ())) : PpsDone phy ppsCtrl gpcSel t := by
  obtain ⟨t₁, htimes, hinterval⟩ := runs_times h
  have hpps : ppsWrites phy ppsCtrl = timesWrites phy ppsCtrl ++ unitsWritten phy ppsCtrl := rfl
  rw [Fallible.runs_ite] at hinterval
  by_cases hint : nanosecToUnits phy.ptpClock ppsCtrl.pps0Interal = 0
  · rw [if_pos hint] at hinterval
    obtain ⟨rfl, -⟩ := Fallible.runs_pure.mp hinterval
    constructor
    · rw [htimes.smdio, hpps, unitsWritten, if_pos hint]
      rfl
    · rw [htimes.written, if_pos (.inl hint)]
      rfl
  rw [if_neg hint] at hinterval
  obtain ⟨t₂, hunits, hwidth⟩ := runs_writeUnits hinterval
  have hwriting := htimes.trans hunits
  rw [Fallible.runs_ite] at hwidth
  by_cases hwid : nanosecToUnits phy.ptpClock ppsCtrl.pps0Width = 0
  · rw [if_pos hwid] at hwidth
    obtain ⟨rfl, -⟩ := Fallible.runs_pure.mp hwidth
    constructor
    · rw [hwriting.smdio, hpps, unitsWritten, if_neg hint, if_pos hwid, List.append_nil]
      exact List.append_nil _
    · rw [hwriting.written, if_pos (.inr hwid)]
      rfl
  rw [if_neg hwid] at hwidth
  obtain ⟨t₃, hunits', hpin⟩ := runs_writeUnits hwidth
  have hall := hwriting.trans hunits'
  obtain ⟨hnone, hroute⟩ := runs_routeGpc hpin
  constructor
  · rw [hall.smdio, hnone, List.append_nil, List.append_assoc, hpps, unitsWritten, if_neg hint, if_neg hwid]
  · rw [hall.written, hall.shown, hall.gpcWritten, if_neg (not_or.mpr ⟨hint, hwid⟩), hroute]

/-! ## Failures -/

/-- The failures that are told: any but those of the wait, which makes the only reads of the slave MDIO. -/
def PpsTold (e : Event regSig) : Prop := refused e = true ∧ ∀ reg, e.op ≠ .smdioRead reg

theorem ppsTold_access {α : Type} {o : RegOp} {g : regSig.Ret o → Except Errno α}
    (hother : ∀ reg, o ≠ .smdioRead reg)
    (h : Fallible.FailsOn (fun e => refused e) (Fallible.ofProg (.call o fun a => .done (g a)) : Api α)) :
    Fallible.FailsOn PpsTold (Fallible.ofProg (.call o fun a => .done (g a)) : Api α) := by
  intro t r hrun
  rw [h t r hrun]
  obtain ⟨a, _, rfl, rfl, -⟩ := (Fallible.runs_ofProg).mp hrun
  simp [PpsTold, hother]

variable {addr : Nat} {val : BitVec 16}

theorem ppsTold_smdioWriteAt : Fallible.FailsOn PpsTold (smdioWriteAt addr val) :=
  @ppsTold_access _ (.smdioWrite (smdioReg addr) val) id nofun failsOn_smdioWrite

theorem ppsTold_phyMboxHwrd : Fallible.FailsOn PpsTold (phyMboxHwrd addr) :=
  @ppsTold_access _ (.mboxRead16 addr) id nofun failsOn_phyMboxHwrd

theorem ppsTold_phyMboxHwwr : Fallible.FailsOn PpsTold (phyMboxHwwr addr val) :=
  @ppsTold_access _ (.mboxWrite16 addr val) id nofun failsOn_phyMboxHwwr

theorem ppsTold_isRwDone {reg bit : Nat} : Fallible.FailsOn PpsTold (isRwDone reg bit) := by
  intro t r hrun
  have hread := Prog.Runs.all hrun (all_isRwDone (P := fun o => o = .smdioRead (smdioReg reg)) rfl)
  obtain ⟨rfl, -⟩ := runs_isRwDone hrun
  constructor
  · intro _ e he htold
    exact htold.2 _ (hread e he)
  · intro _
    exact ⟨(), rfl, trivial⟩

theorem ppsTold_gpioUpdate {f : BitVec 16 → BitVec 16} {rest : Api Unit} (h : Fallible.FailsOn PpsTold rest) :
    Fallible.FailsOn PpsTold (gpioUpdate addr f rest) := by
  apply Fallible.GoesOn.bind ppsTold_phyMboxHwrd
  intro v
  apply Fallible.GoesOn.bind ppsTold_phyMboxHwwr
  intro _
  apply Fallible.GoesOn.bind ppsTold_phyMboxHwrd
  intro w
  exact .ite (fun _ => .pure trivial) fun _ => h

theorem ppsTold_routeGpc : Fallible.FailsOn PpsTold (routeGpc phy gpcSel) := by
  apply Fallible.GoesOn.bind
  · exact .bind ppsTold_phyMboxHwrd fun _ => ppsTold_phyMboxHwwr
  · intro _
    apply ppsTold_gpioUpdate
    apply ppsTold_gpioUpdate
    apply ppsTold_gpioUpdate
    exact .pure trivial

theorem ppsTold_writeUnits {units : Nat} : Fallible.FailsOn PpsTold (writeUnits addr units) :=
  .bind ppsTold_smdioWriteAt fun _ => ppsTold_smdioWriteAt

theorem ppsTold_setPpsctrl : Fallible.FailsOn PpsTold (setPpsctrl phy ppsCtrl gpcSel) := by
  refine .bind ppsTold_smdioWriteAt fun _ => .bind ppsTold_isRwDone fun _ => ?_
  refine .bind ppsTold_smdioWriteAt fun _ => .bind ppsTold_smdioWriteAt fun _ => ?_
  refine .bind ppsTold_smdioWriteAt fun _ => .bind ppsTold_smdioWriteAt fun _ => ?_
  refine .ite (fun _ => .pure trivial) fun _ => .bind ppsTold_writeUnits fun _ => ?_
  exact .ite (fun _ => .pure trivial) fun _ => .bind ppsTold_writeUnits fun _ => ppsTold_routeGpc

/-- When the call succeeds, and what it has done then. A call whose checks do not pass makes no access. -/
structure SetPpsctrlExact (phy : Gpy211Device) (ppsCtrl : PpsCtrl) (gpcSel : BitVec 32) : Prop where
  succeeds : ∀ t r, (gpy2xxPtpSetPpsctrl phy ppsCtrl gpcSel).Runs t r →
    (r = .ok () ↔ ppsAccepts phy.family ppsCtrl gpcSel = true ∧ ∀ e ∈ accesses t, ¬PpsTold e)
  done : ∀ t, (gpy2xxPtpSetPpsctrl phy ppsCtrl gpcSel).Runs t (.ok ()) → PpsDone phy ppsCtrl gpcSel (accesses t)
  rejected : ppsAccepts phy.family ppsCtrl gpcSel = false →
    ∀ t r, (gpy2xxPtpSetPpsctrl phy ppsCtrl gpcSel).Runs t r → t = []

/-- **Configuring the periodic output.** For every configuration and every run, whatever the accesses answer: the call
succeeds exactly if its checks pass and no access but those of the wait is refused; then it has written the control
word, the target time and the counts of units up to the first that is zero, and, where neither is, the registers of
the pin up to the first that does not read back. -/
theorem setPpsctrl_exact (phy : Gpy211Device) (ppsCtrl : PpsCtrl) (gpcSel : BitVec 32) :
    SetPpsctrlExact phy ppsCtrl gpcSel := by
  by_cases haccepts : ppsAccepts phy.family ppsCtrl gpcSel = true
  · have hcall : gpy2xxPtpSetPpsctrl phy ppsCtrl gpcSel = locked (setPpsctrl phy ppsCtrl gpcSel) := by
      rw [gpy2xxPtpSetPpsctrl, if_neg (by simp [haccepts])]
    constructor
    · intro t r h
      have htold := ppsTold_setPpsctrl _ _ (Lock.Runs.accesses_locked (hcall ▸ h))
      have hok : (∃ a, r = Except.ok a ∧ True) ↔ r = .ok () := by
        constructor
        · intro h
          obtain ⟨_, h, -⟩ := h
          exact h
        · intro h
          exact ⟨(), h, trivial⟩
      rw [← hok, htold]
      simp [haccepts]
    · intro t h
      exact runs_setPpsctrl (Lock.Runs.accesses_locked (hcall ▸ h))
    · intro hrefused
      rw [haccepts] at hrefused
      cases hrefused
  · have hcall : gpy2xxPtpSetPpsctrl phy ppsCtrl gpcSel = throw EINVAL := by
      rw [gpy2xxPtpSetPpsctrl, if_pos (by simp [haccepts])]
    constructor
    · intro t r h
      rw [hcall] at h
      obtain ⟨-, rfl⟩ := Fallible.runs_throw.mp h
      simp [haccepts]
    · intro t h
      rw [hcall] at h
      cases (Fallible.runs_throw.mp h).2
    · intro _ t r h
      rw [hcall] at h
      exact (Fallible.runs_throw.mp h).1

end Call

end Gpy2xx
