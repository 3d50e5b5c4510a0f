import MxlUtils.Gphy.Advertisement

/- The status in a build that does not read the vendor's status register: speed and duplex are
   worked out from what both partners advertise. The order in which the modes are looked at is not
   that of the standard, so the mode that is reported is not always the best common one; which
   abilities have to meet for that is said exactly. -/
namespace Gpy2xx.Standard
open Effect Effect.Fallible Effect.Lock Bits

/-! ## Reading the status -/

/-- `__gpy211_read_status_mg`, from the abilities both have: the second test looks at fast retrain. -/
def withMultigig (link : LinkStatus) (adv : BitVec 16) : LinkStatus :=
  if adv &&& 0x20 ≠ 0 then { link with speed := 2500, duplex := 1 }
  else if adv &&& 0x10 ≠ 0 then { link with speed := 5000, duplex := 1 }
  else link

def readStatusMg (link : LinkStatus) : Api LinkStatus :=
  if !link.supported.getLsbD LinkMode.t2500Full.bit && !link.supported.getLsbD LinkMode.t5000Full.bit
  then pure link
  else do
    let stat ← phyReadMmd .an anegStat
    if stat &&& 0x20 = 0 then pure link
    else do
      let lpa ← phyReadMmd .an anegMgbtAnSta
      let link := { link with lpAdvertising := withModes [(0x8, .t2500Fr), (0x10, .t5000Fr),
        (0x20, .t2500Full), (0x40, .t5000Full)] lpa link.lpAdvertising }
      if link.speed ≠ speedUnknown then pure link
      else do
        let ctrl ← phyReadMmd .an anegMgbtAnCtrl
        pure (withMultigig link (ctrl >>> 2 &&& lpa))

/-- `__gpy211_read_status_g`, likewise. -/
def withGigabit (link : LinkStatus) (adv : BitVec 16) : LinkStatus :=
  if adv &&& 0x400 ≠ 0 then { link with speed := 1000, duplex := 0 }
  else if adv &&& 0x800 ≠ 0 then { link with speed := 1000, duplex := 1 }
  else link

def readStatusG (link : LinkStatus) : Api LinkStatus :=
  if !link.supported.getLsbD LinkMode.t1000Half.bit && !link.supported.getLsbD LinkMode.t1000Full.bit
  then pure link
  else do
    let lpa ← phyRead stdGstat
    let link := { link with
      lpAdvertising := withModes [(0x400, .t1000Half), (0x800, .t1000Full)] lpa link.lpAdvertising }
    if link.speed ≠ speedUnknown then pure link
    else do
      let gctrl ← phyRead stdGctrl
      pure (withGigabit link (gctrl <<< 2 &&& lpa))

/-- `STD_AN_ADV_TAF`, `STD_AN_LPA_TAF` -/
def taf : Field 16 := ⟨0xFE0, 5⟩

/-- Up to 100 Mbps. -/
def withTaf (link : LinkStatus) (taf : BitVec 16) : LinkStatus :=
  if taf &&& 0x8 ≠ 0 then { link with speed := 100, duplex := 1 }
  else if taf &&& 0x4 ≠ 0 then { link with speed := 100, duplex := 0 }
  else if taf &&& 0x2 ≠ 0 then { link with speed := 10, duplex := 1 }
  else if taf &&& 0x1 ≠ 0 then { link with speed := 10, duplex := 0 }
  else link

def readNegotiated (link : LinkStatus) : Api LinkStatus := do
  let link ← readStatusMg link
  let link ← readStatusG link
  let lpa ← phyRead stdAnLpa
  let link := withPartner link lpa
  if link.speed ≠ speedUnknown then pure link
  else do
    let anAdv ← phyRead stdAnAdv
    pure (withTaf link (taf.get lpa &&& taf.get anAdv))

/-- `__gpy211_read_status` -/
def readStatus (link : LinkStatus) : Api LinkStatus := do
  let stat ← phyRead stdStat
  if link.autoneg ≠ 0 then readNegotiated (unknownStatus link stat)
  else readForced (unknownStatus link stat)

def gpy2xxReadStatus (link : LinkStatus) : Call LinkStatus := locked (readStatus link)

/-! ## What the partners advertise -/

def gstatTable : ModeTable := [(.t1000Half, 10), (.t1000Full, 11)]

def mgbtStaTable : ModeTable := [(.t2500Fr, 3), (.t5000Fr, 4), (.t2500Full, 5), (.t5000Full, 6)]

/-- The register shows the mode. -/
def shows (t : ModeTable) (val : BitVec 16) (mode : LinkMode) : Bool :=
  t.any fun e => decide (e.1 = mode) && val.getLsbD e.2

variable (link : LinkStatus) (s : Regs) (mode : LinkMode)

def ours : Bool :=
  shows anAdvTable (s.phy stdAnAdv) mode || shows gctrlTable (s.phy stdGctrl) mode ||
    shows mgbtTable (s.mmd .an anegMgbtAnCtrl) mode

def theirs : Bool :=
  shows anAdvTable (s.phy stdAnLpa) mode || shows gstatTable (s.phy stdGstat) mode ||
    shows mgbtStaTable (s.mmd .an anegMgbtAnSta) mode

def common : Bool := ours s mode && theirs s mode

/-- Speed and duplex of the modes that have them. -/
def speedDuplex : LinkMode → Int × Int
  | .t10Half => (10, 0)
  | .t10Full => (10, 1)
  | .t100Half => (100, 0)
  | .t100Full => (100, 1)
  | .t1000Half => (1000, 0)
  | .t1000Full => (1000, 1)
  | .t2500Full => (2500, 1)
  | .t5000Full => (5000, 1)
  | _ => (speedUnknown, duplexInvalid)

/-- The modes in the order of the standard. -/
def annex28B : List LinkMode :=
  [.t5000Full, .t2500Full, .t1000Full, .t1000Half, .t100Full, .t100Half, .t10Full, .t10Half]

/-- Speed and duplex of the best common mode, if there is one. -/
def best : Int × Int := ((annex28B.find? (common s)).map speedDuplex).getD (speedUnknown, duplexInvalid)

/-- The abilities do not meet in a way in which the best mode is missed: where both have 5 Gbps, fast retrain stands
for it and 2.5 Gbps comes before it; where they do not, fast retrain must not stand for it; and 1000BASE-T half
duplex comes before full duplex. -/
def meets : Bool :=
  if common s .t5000Full then !common s .t2500Full && common s .t5000Fr
  else common s .t2500Full ||
    !((link.supported.getLsbD LinkMode.t2500Full.bit || link.supported.getLsbD LinkMode.t5000Full.bit) &&
      common s .t5000Fr) && !(common s .t1000Half && common s .t1000Full)

/-! ## Candidates -/

/-- The first candidate that holds. -/
def pick : List (Bool × Int × Int) → Int × Int → Int × Int
  | [], d => d
  | c :: l, d => if c.1 then c.2 else pick l d

/-- Speed and duplex. -/
def found : Int × Int := (link.speed, link.duplex)

theorem pick_append (l l' : List (Bool × Int × Int)) (d : Int × Int) : pick (l ++ l') d = pick l (pick l' d) := by
  induction l with
  | nil => rfl
  | cons c l ih => rw [List.cons_append, pick, pick, ih]

/-- A second list is looked at only where the first finds nothing. -/
theorem pick_of_found {l l' : List (Bool × Int × Int)} {d : Int × Int} (h : ∀ c ∈ l, c.2.1 ≠ d.1) :
    (if (pick l d).1 ≠ d.1 then pick l d else pick l' (pick l d)) = pick (l ++ l') d := by
  induction l with
  | nil => simp [pick]
  | cons c l ih =>
    rw [List.cons_append, pick, pick]
    cases c.1 with
    | true => rw [if_pos rfl, if_pos rfl, if_pos (h c (by simp))]
    | false => exact ih fun c hc => h c (by simp [hc])

section Bits
variable {s}

/-- A mode that only the ability field has. -/
theorem common_taf : ∀ e ∈ anAdvTable,
    common s e.1 = ((s.phy stdAnAdv).getLsbD e.2 && (s.phy stdAnLpa).getLsbD e.2) := by
  simp [common, ours, theirs, shows, anAdvTable, gctrlTable, mgbtTable, gstatTable, mgbtStaTable]

/-- The gigabit modes: the status register has them two places up. -/
theorem common_gigabit : ∀ e ∈ gctrlTable,
    common s e.1 = ((s.phy stdGctrl).getLsbD e.2 && (s.phy stdGstat).getLsbD (e.2 + 2)) := by
  simp [common, ours, theirs, shows, anAdvTable, gctrlTable, mgbtTable, gstatTable, mgbtStaTable]

/-- The multi-gigabit modes: the status register has them two places down. -/
theorem common_multigig : ∀ e ∈ mgbtStaTable,
    common s e.1 = ((s.mmd .an anegMgbtAnCtrl).getLsbD (e.2 + 2) && (s.mmd .an anegMgbtAnSta).getLsbD e.2) := by
  simp [common, ours, theirs, shows, anAdvTable, gctrlTable, mgbtTable, gstatTable, mgbtStaTable]

/-- The test of a multi-gigabit ability, of a gigabit one, and of one up to 100 Mbps. -/
theorem multigig_bit {e : LinkMode × Nat} (he : e ∈ mgbtStaTable) :
    (s.mmd .an anegMgbtAnCtrl >>> 2 &&& s.mmd .an anegMgbtAnSta) &&& 1#16 <<< e.2 ≠ 0 ↔ common s e.1 = true := by
  have hlt : ∀ e ∈ mgbtStaTable, e.2 < 16 := by decide
  rw [and_bit_ne_zero (hlt e he), common_multigig e he, BitVec.getLsbD_and, BitVec.getLsbD_ushiftRight, Nat.add_comm]

theorem gigabit_bit {e : LinkMode × Nat} (he : e ∈ gctrlTable) :
    (s.phy stdGctrl <<< 2 &&& s.phy stdGstat) &&& 1#16 <<< (e.2 + 2) ≠ 0 ↔ common s e.1 = true := by
  have hlt : ∀ e ∈ gctrlTable, e.2 + 2 < 16 := by decide
  rw [and_bit_ne_zero (hlt e he), common_gigabit e he, BitVec.getLsbD_and, BitVec.getLsbD_shiftLeft]
  simp [hlt e he]

theorem taf_bit {e : LinkMode × Nat} (he : e ∈ anAdvTable) :
    (taf.get (s.phy stdAnLpa) &&& taf.get (s.phy stdAnAdv)) &&& 1#16 <<< (e.2 - 5) ≠ 0 ↔ common s e.1 = true := by
  have hplace : ∀ e ∈ anAdvTable, e.2 - 5 < 16 ∧ (0xFE0#16).getLsbD e.2 = true ∧ 5 + (e.2 - 5) = e.2 := by decide
  obtain ⟨hlt, hmask, hsum⟩ := hplace e he
  have hget : ∀ v : BitVec 16, (taf.get v).getLsbD (e.2 - 5) = v.getLsbD e.2 := by
    intro v
    have hmask : taf.mask.getLsbD e.2 = true := hmask
    have hpos : taf.pos + (e.2 - 5) = e.2 := hsum
    rw [Field.get, BitVec.getLsbD_ushiftRight, hpos, BitVec.getLsbD_and, hmask, Bool.and_true]
  rw [and_bit_ne_zero hlt, common_taf e he, BitVec.getLsbD_and, hget, hget, Bool.and_comm]

end Bits

/-! ## What is reported -/

section Reported
variable {link} {s}

/-- The device has one of two modes. -/
def supports (link : LinkStatus) (mode mode' : LinkMode) : Bool :=
  link.supported.getLsbD mode.bit || link.supported.getLsbD mode'.bit

theorem found_withMultigig :
    found (withMultigig link (s.mmd .an anegMgbtAnCtrl >>> 2 &&& s.mmd .an anegMgbtAnSta)) =
      pick [(common s .t2500Full, 2500, 1), (common s .t5000Fr, 5000, 1)] (found link) := by
  generalize hadv : s.mmd .an anegMgbtAnCtrl >>> 2 &&& s.mmd .an anegMgbtAnSta = adv
  have h2500 : adv &&& 0x20 ≠ 0 ↔ common s .t2500Full = true := hadv ▸ @multigig_bit s (.t2500Full, 5) (by decide)
  have h5000 : adv &&& 0x10 ≠ 0 ↔ common s .t5000Fr = true := hadv ▸ @multigig_bit s (.t5000Fr, 4) (by decide)
  simp only [withMultigig, pick, h2500, h5000]
  split
  · rfl
  · split <;> rfl

theorem found_withGigabit : found (withGigabit link (s.phy stdGctrl <<< 2 &&& s.phy stdGstat)) =
    pick [(common s .t1000Half, 1000, 0), (common s .t1000Full, 1000, 1)] (found link) := by
  generalize hadv : s.phy stdGctrl <<< 2 &&& s.phy stdGstat = adv
  have hhalf : adv &&& 0x400 ≠ 0 ↔ common s .t1000Half = true := hadv ▸ @gigabit_bit s (.t1000Half, 8) (by decide)
  have hfull : adv &&& 0x800 ≠ 0 ↔ common s .t1000Full = true := hadv ▸ @gigabit_bit s (.t1000Full, 9) (by decide)
  simp only [withGigabit, pick, hhalf, hfull]
  split
  · rfl
  · split <;> rfl

/-- The candidates up to 100 Mbps. -/
def slow (s : Regs) : List (Bool × Int × Int) :=
  [(common s .t100Full, 100, 1), (common s .t100Half, 100, 0), (common s .t10Full, 10, 1), (common s .t10Half, 10, 0)]

theorem found_withTaf : found (withTaf link (taf.get (s.phy stdAnLpa) &&& taf.get (s.phy stdAnAdv))) =
    pick (slow s) (found link) := by
  generalize hadv : taf.get (s.phy stdAnLpa) &&& taf.get (s.phy stdAnAdv) = adv
  have h100Full : adv &&& 0x8 ≠ 0 ↔ common s .t100Full = true := hadv ▸ @taf_bit s (.t100Full, 8) (by decide)
  have h100Half : adv &&& 0x4 ≠ 0 ↔ common s .t100Half = true := hadv ▸ @taf_bit s (.t100Half, 7) (by decide)
  have h10Full : adv &&& 0x2 ≠ 0 ↔ common s .t10Full = true := hadv ▸ @taf_bit s (.t10Full, 6) (by decide)
  have h10Half : adv &&& 0x1 ≠ 0 ↔ common s .t10Half = true := hadv ▸ @taf_bit s (.t10Half, 5) (by decide)
  simp only [withTaf, slow, pick, h100Full, h100Half, h10Full, h10Half]
  split
  · rfl
  · split
    · rfl
    · split
      · rfl
      · split <;> rfl

/-- The candidates of each stage: none if the device has no mode of it. -/
def multigig (link : LinkStatus) (s : Regs) : List (Bool × Int × Int) :=
  if supports link .t2500Full .t5000Full then [(common s .t2500Full, 2500, 1), (common s .t5000Fr, 5000, 1)] else []

def gigabit (link : LinkStatus) (s : Regs) : List (Bool × Int × Int) :=
  if supports link .t1000Half .t1000Full then [(common s .t1000Half, 1000, 0), (common s .t1000Full, 1000, 1)] else []

/-- What the multi-gigabit stage adds to the partner's modes, and the gigabit stage. -/
def multigigModes (link : LinkStatus) (s : Regs) : BitVec 64 :=
  if supports link .t2500Full .t5000Full then withModes mgbtStaTable.toRead (s.mmd .an anegMgbtAnSta) 0#64 else 0#64

def gigabitModes (link : LinkStatus) (s : Regs) : BitVec 64 :=
  if supports link .t1000Half .t1000Full then withModes gstatTable.toRead (s.phy stdGstat) 0#64 else 0#64

theorem not_supports {mode mode' : LinkMode} :
    (!link.supported.getLsbD mode.bit && !link.supported.getLsbD mode'.bit) = !supports link mode mode' :=
  (Bool.not_or _ _).symm

/-- The tests change only speed and duplex. -/
theorem withMultigig_keeps (adv : BitVec 16) : (withMultigig link adv).lpAdvertising = link.lpAdvertising ∧
    (withMultigig link adv).supported = link.supported := by
  unfold withMultigig
  split
  · exact ⟨rfl, rfl⟩
  · split <;> exact ⟨rfl, rfl⟩

theorem withGigabit_keeps (adv : BitVec 16) : (withGigabit link adv).lpAdvertising = link.lpAdvertising ∧
    (withGigabit link adv).supported = link.supported := by
  unfold withGigabit
  split
  · exact ⟨rfl, rfl⟩
  · split <;> exact ⟨rfl, rfl⟩

theorem withTaf_keeps (adv : BitVec 16) : (withTaf link adv).lpAdvertising = link.lpAdvertising := by
  unfold withTaf
  split_ifs <;> rfl

/-- A stage: speed and duplex are those of the first candidate, unless they are known, and the partner's modes grow. -/
structure Stage (link link' : LinkStatus) (l : List (Bool × Int × Int)) (modes : BitVec 64) : Prop where
  found : found link' = if link.speed ≠ speedUnknown then found link else pick l (found link)
  modes : link'.lpAdvertising = link.lpAdvertising ||| modes
  supported : link'.supported = link.supported

theorem exec_readStatusMg (hcomplete : s.mmd .an anegStat &&& 0x20 ≠ 0) : ∃ link',
    (readStatusMg link).exec memHandler s = (.ok link', s) ∧ Stage link link' (multigig link s) (multigigModes link s) := by
  rw [readStatusMg, not_supports, multigig, multigigModes]
  cases supports link .t2500Full .t5000Full with
  | false => exact ⟨link, rfl, by simp [pick], BitVec.or_zero.symm, rfl⟩
  | true =>
    have hmodes := @withModes_eq_or mgbtStaTable (s.mmd .an anegMgbtAnSta) link.lpAdvertising
    rw [if_neg (by simp), exec_bind_ok (exec_phyReadMmd s .an anegStat), exec_ite, if_neg hcomplete,
      exec_bind_ok (exec_phyReadMmd s .an anegMgbtAnSta), exec_ite]
    by_cases hknown : link.speed ≠ speedUnknown
    · rw [if_pos hknown]
      exact ⟨_, rfl, by rw [if_pos hknown]; rfl, hmodes, rfl⟩
    · rw [if_neg hknown, exec_bind_ok (exec_phyReadMmd s .an anegMgbtAnCtrl)]
      refine ⟨_, rfl, ?_, ?_, ?_⟩
      · rw [if_neg hknown]
        exact found_withMultigig
      · exact (withMultigig_keeps _).1.trans hmodes
      · exact (withMultigig_keeps _).2

theorem exec_readStatusG : ∃ link',
    (readStatusG link).exec memHandler s = (.ok link', s) ∧ Stage link link' (gigabit link s) (gigabitModes link s) := by
  rw [readStatusG, not_supports, gigabit, gigabitModes]
  cases supports link .t1000Half .t1000Full with
  | false => exact ⟨link, rfl, by simp [pick], BitVec.or_zero.symm, rfl⟩
  | true =>
    have hmodes := @withModes_eq_or gstatTable (s.phy stdGstat) link.lpAdvertising
    rw [if_neg (by simp), exec_bind_ok (exec_phyRead s stdGstat), exec_ite]
    by_cases hknown : link.speed ≠ speedUnknown
    · rw [if_pos hknown]
      exact ⟨_, rfl, by rw [if_pos hknown]; rfl, hmodes, rfl⟩
    · rw [if_neg hknown, exec_bind_ok (exec_phyRead s stdGctrl)]
      refine ⟨_, rfl, ?_, ?_, ?_⟩
      · rw [if_neg hknown]
        exact found_withGigabit
      · exact (withGigabit_keeps _).1.trans hmodes
      · exact (withGigabit_keeps _).2

/-- The modes of the ability field, with the flag of the acknowledgement. -/
def abilityModes (s : Regs) : BitVec 64 :=
  (if s.phy stdAnLpa &&& 0x4000 ≠ 0 then supportedAutoneg else 0#64) |||
    withModes anAdvTable.toRead (s.phy stdAnLpa) 0#64

theorem withPartner_lpAdvertising :
    (withPartner link (s.phy stdAnLpa)).lpAdvertising = link.lpAdvertising ||| abilityModes s := by
  rw [withPartner, abilityModes]
  refine (@withModes_eq_or anAdvTable (s.phy stdAnLpa) _).trans ?_
  rw [← BitVec.or_assoc]
  congr 1
  split
  · rfl
  · exact BitVec.or_zero.symm

/-- Every candidate has a speed. -/
theorem speed_of_candidate : ∀ c ∈ multigig link s ++ gigabit link s, c.2.1 ≠ speedUnknown := by
  rw [multigig, gigabit]
  split <;> split <;> simp [speedUnknown]

/-- What the code reports, as candidates in its order, and the modes it reports for the partner. -/
theorem exec_readNegotiated (hcomplete : s.mmd .an anegStat &&& 0x20 ≠ 0) (hspeed : link.speed = speedUnknown) :
    ∃ st, (readNegotiated link).exec memHandler s = (.ok st, s) ∧
      found st = pick (multigig link s ++ gigabit link s ++ slow s) (found link) ∧
      st.lpAdvertising = link.lpAdvertising ||| multigigModes link s ||| gigabitModes link s ||| abilityModes s := by
  obtain ⟨link₁, hexec₁, h₁⟩ := @exec_readStatusMg link s hcomplete
  obtain ⟨link₂, hexec₂, h₂⟩ := @exec_readStatusG link₁ s
  have hsupports : ∀ mode mode', supports link₁ mode mode' = supports link mode mode' := by
    intro mode mode'
    rw [supports, supports, h₁.supported]
  have hgigabit : gigabit link₁ s = gigabit link s := by rw [gigabit, gigabit, hsupports]
  have hgigabitModes : gigabitModes link₁ s = gigabitModes link s := by rw [gigabitModes, gigabitModes, hsupports]
  have hunknown : (found link).1 = speedUnknown := hspeed
  -- The multi-gigabit stage, the gigabit stage, and the rest.
  have hfound₁ : found link₁ = pick (multigig link s) (found link) := by
    rw [h₁.found, if_neg (not_not.mpr hspeed)]
  have hfound₂ : found link₂ = pick (multigig link s ++ gigabit link s) (found link) := by
    rw [h₂.found, hgigabit, show link₁.speed = (found link₁).1 from rfl, hfound₁, ← hunknown]
    apply pick_of_found
    intro c hc
    rw [hunknown]
    exact speed_of_candidate c (List.mem_append_left _ hc)
  have hpartner : found (withPartner link₂ (s.phy stdAnLpa)) = found link₂ := rfl
  have hspeed₂ : (withPartner link₂ (s.phy stdAnLpa)).speed = (found link₂).1 := rfl
  have hmodes : (withPartner link₂ (s.phy stdAnLpa)).lpAdvertising =
      link.lpAdvertising ||| multigigModes link s ||| gigabitModes link s ||| abilityModes s := by
    rw [withPartner_lpAdvertising, h₂.modes, h₁.modes, hgigabitModes]
  have hlast : pick (multigig link s ++ gigabit link s ++ slow s) (found link) =
      if (found link₂).1 ≠ speedUnknown then found link₂ else pick (slow s) (found link₂) := by
    rw [hfound₂, ← hunknown]
    apply (pick_of_found _).symm
    intro c hc
    rw [hunknown]
    exact speed_of_candidate c hc
  rw [readNegotiated, exec_bind_ok hexec₁, exec_bind_ok hexec₂, exec_bind_ok (exec_phyRead s stdAnLpa), exec_ite,
    hspeed₂]
  by_cases hknown : (found link₂).1 ≠ speedUnknown
  · rw [if_pos hknown]
    refine ⟨_, rfl, ?_, hmodes⟩
    rw [hpartner, hlast, if_pos hknown]
  · rw [if_neg hknown, exec_bind_ok (exec_phyRead s stdAnAdv)]
    refine ⟨_, rfl, ?_, (withTaf_keeps _).trans hmodes⟩
    rw [found_withTaf, hpartner, hlast, if_neg hknown]

end Reported

/-! ## Whether it is the best -/

section Best
variable {link} {s} {mode}

theorem pick_map (c : LinkMode → Bool) (l : List LinkMode) (d : Int × Int) :
    pick (l.map fun mode => (c mode, speedDuplex mode)) d = ((l.find? c).map speedDuplex).getD d := by
  induction l with
  | nil => rfl
  | cons mode l ih =>
    rw [List.map_cons, pick, List.find?_cons]
    cases c mode with
    | true => rfl
    | false => exact ih

theorem best_eq : best s = pick [(common s .t5000Full, 5000, 1), (common s .t2500Full, 2500, 1),
    (common s .t1000Full, 1000, 1), (common s .t1000Half, 1000, 0)] (pick (slow s) (speedUnknown, duplexInvalid)) := by
  rw [best, ← pick_map, ← pick_append]
  rfl

theorem pick_of_all {P : Int × Int → Prop} {l : List (Bool × Int × Int)} {d : Int × Int} (h : ∀ c ∈ l, P c.2)
    (hd : P d) : P (pick l d) := by
  induction l with
  | nil => exact hd
  | cons c l ih =>
    rw [pick]
    split
    · exact h c (by simp)
    · exact ih fun c hc => h c (by simp [hc])

/-- What is left when there is no multi-gigabit or gigabit mode is slower. -/
theorem pick_slow_lt : (pick (slow s) (speedUnknown, duplexInvalid)).1 < 1000 := by
  apply @pick_of_all fun found => found.1 < 1000
  · simp [slow]
  · decide

/-- What was advertised is supported. -/
def Covers (link : LinkStatus) (s : Regs) : Prop := ∀ mode, ours s mode = true → link.supported.getLsbD mode.bit = true

theorem supported_of_common (hcovers : Covers link s) (h : common s mode = true) :
    link.supported.getLsbD mode.bit = true := hcovers mode (Bool.and_eq_true_iff.mp h).1

/-- The candidates in the code's order, `m` and `g` saying which stages there are, and those of the standard. -/
theorem pick_eq_pick_iff {m g c5000 c2500 fr full half : Bool} {rest : Int × Int} (hrest : rest.1 < 1000)
    (h5000 : c5000 = true → m = true) (h2500 : c2500 = true → m = true) (hfull : full = true → g = true)
    (hhalf : half = true → g = true) :
    pick (if m then [(c2500, 2500, 1), (fr, 5000, 1)] else [])
        (pick (if g then [(half, 1000, 0), (full, 1000, 1)] else []) rest) =
      pick [(c5000, 5000, 1), (c2500, 2500, 1), (full, 1000, 1), (half, 1000, 0)] rest ↔
    (if c5000 then !c2500 && fr else c2500 || !(m && fr) && !(half && full)) = true := by
  -- Without a multi-gigabit mode the speed is lower.
  have hslower : ∀ l : List (Bool × Int × Int), (∀ c ∈ l, c.2.1 < 5000) → pick l rest ≠ (5000, 1) := by
    intro l hl heq
    have hlt := @pick_of_all (fun found => found.1 < 5000) l rest hl (by omega)
    simp [heq] at hlt
  have hgigabit : pick (if g then [(half, 1000, 0), (full, 1000, 1)] else []) rest ≠ (5000, 1) := by
    apply hslower
    split <;> simp
  have hother : pick [(full, 1000, 1), (half, 1000, 0)] rest ≠ (5000, 1) := hslower _ (by simp)
  cases c5000 with
  | true =>
    obtain rfl := h5000 rfl
    cases c2500 with
    | true => simp [pick]
    | false =>
      cases fr with
      | true => simp [pick]
      | false => simpa [pick] using hgigabit
  | false =>
    cases c2500 with
    | true =>
      obtain rfl := h2500 rfl
      simp [pick]
    | false =>
      by_cases hretrain : (m && fr) = true
      · obtain ⟨rfl, rfl⟩ := Bool.and_eq_true_iff.mp hretrain
        simpa [pick] using hother.symm
      · have hnone : pick (if m then [(false, 2500, 1), (fr, 5000, 1)] else [])
            (pick (if g then [(half, 1000, 0), (full, 1000, 1)] else []) rest) =
            pick (if g then [(half, 1000, 0), (full, 1000, 1)] else []) rest := by
          cases m <;> simp_all [pick]
        rw [hnone]
        cases full with
        | true =>
          obtain rfl := hfull rfl
          cases half <;> simp [pick, hretrain]
        | false =>
          cases half with
          | true =>
            obtain rfl := hhalf rfl
            simp [pick, hretrain]
          | false => cases g <;> simp [pick, hretrain]

/-- The candidates of the code come to the best mode exactly where the abilities meet. -/
theorem pick_eq_best_iff (hcovers : Covers link s) :
    pick (multigig link s ++ gigabit link s ++ slow s) (speedUnknown, duplexInvalid) = best s ↔ meets link s = true := by
  rw [best_eq, pick_append, pick_append]
  apply pick_eq_pick_iff pick_slow_lt
  · intro h
    simp [supports, supported_of_common hcovers h]
  · intro h
    simp [supports, supported_of_common hcovers h]
  · intro h
    simp [supports, supported_of_common hcovers h]
  · intro h
    simp [supports, supported_of_common hcovers h]

/-- What the partner is reported to advertise: each register where the device has modes of it. -/
def partnerModes (link : LinkStatus) (s : Regs) : BitVec 64 :=
  multigigModes link s ||| gigabitModes link s ||| abilityModes s

/-- **Link resolution by the standard registers.** For settings that cover what is advertised, and any contents of
the registers after negotiation is complete: the partner's modes are decoded from the bits of their own, and the
speed and duplex reported are those of the best common mode exactly where the abilities meet as `meets` says. -/
theorem readStatus_best_iff (link : LinkStatus) (s : Regs) (hauto : link.autoneg ≠ 0) (hcovers : Covers link s)
    (hcomplete : s.mmd .an anegStat &&& 0x20 ≠ 0) : ∃ st,
    (gpy2xxReadStatus link).exec lockedMem s = (.ok st, s) ∧ st.lpAdvertising = partnerModes link s ∧
      ((st.speed, st.duplex) = best s ↔ meets link s = true) := by
  have hstatus : ∀ stat, multigig (unknownStatus link stat) s = multigig link s ∧
      gigabit (unknownStatus link stat) s = gigabit link s ∧
      partnerModes (unknownStatus link stat) s = partnerModes link s := fun _ => ⟨rfl, rfl, rfl⟩
  obtain ⟨hmultigig, hgigabit, hmodes⟩ := hstatus (s.phy stdStat)
  obtain ⟨st, hexec, hfound, hpartner⟩ := @exec_readNegotiated (unknownStatus link (s.phy stdStat)) s hcomplete rfl
  refine ⟨st, ?_, ?_, ?_⟩
  · rw [gpy2xxReadStatus, exec_locked, readStatus, exec_bind_ok (exec_phyRead s stdStat), exec_ite, if_pos hauto, hexec]
  · rw [hpartner, ← hmodes, partnerModes]
    have hnone : (unknownStatus link (s.phy stdStat)).lpAdvertising = 0#64 := rfl
    rw [hnone, BitVec.zero_or]
  · rw [← pick_eq_best_iff hcovers, ← hmultigig, ← hgigabit]
    exact iff_of_eq (congrArg (· = best s) hfound)

/-- Both partners have 2.5 and 5 Gbps. -/
def bothMultigig : Regs :=
  { zeroRegs true with
    mmd := fun d r => if d = .an then (if r = 1 then 0x20 else if r = 0x20 then 0x180 else if r = 0x21 then 0x60 else 0)
      else 0 }

theorem readStatus_bothMultigig : ∃ st,
    (gpy2xxReadStatus ⟨⟨0, 0, 0, 0, BitVec.allOnes 64, 0, 1⟩, 0, 0, 0⟩).exec lockedMem bothMultigig =
      (.ok st, bothMultigig) ∧ st.lpAdvertising = 3#64 <<< 47 ∧ (st.speed, st.duplex) ≠ (5000, 1) := by
  obtain ⟨st, hexec, hmodes, hbest⟩ := readStatus_best_iff ⟨⟨0, 0, 0, 0, BitVec.allOnes 64, 0, 1⟩, 0, 0, 0⟩ bothMultigig
    (by decide) (fun mode _ => by cases mode <;> decide) (by decide)
  refine ⟨st, hexec, hmodes.trans (by decide), fun heq => ?_⟩
  rw [show best bothMultigig = (5000, 1) by decide] at hbest
  exact absurd (hbest.mp heq) (by decide)

end Best

end Gpy2xx.Standard
