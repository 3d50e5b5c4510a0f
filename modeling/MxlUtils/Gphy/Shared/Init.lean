import MxlUtils.Gphy.Init
import MxlUtils.Gphy.SyncE

/- Initialisation with and without shared data. Where `shared_data` points to a block
   of its own, `config_init` puts what it finds there and not in the PHY's structure,
   but for the number of SAs; its SyncE check looks at the family and the model in the
   PHY's structure in either case. What follows puts the two initialisations side by
   side: they make the same accesses as long as that check comes out the same. -/
namespace Gpy2xx
open Effect Effect.Fallible Effect.Lock Bits

/-! ## The structures -/

/-- `struct gpy211_device`, as far as the initialisation derives it or looks at it. -/
structure PhyData extends SynceDevice where
  modelNo : BitVec 8
  privData : Bool
  link : LinkStatus

/-- The link settings of a block of zeros. -/
def freshLink : LinkStatus where
  speed := 0
  duplex := 0
  pause := 0
  asymPause := 0
  supported := 0
  advertising := 0
  autoneg := 0
  fixed2g5 := 0
  link := 0
  lpAdvertising := 0

/-- After initialisation: the PHY's own structure, and the link settings of the data it uses. -/
structure Inited where
  phy : SynceDevice
  link : LinkStatus

/-- What the initialisation finds, in the PHY's own structure. -/
def SynceDevice.withFound (phy : SynceDevice) (d : DeviceInit) : SynceDevice := { phy with
  nrOfSas := d.nrOfSas.getD phy.nrOfSas
  family := d.id.family
  macsecSupported := d.nrOfSas.isSome
  gmacfBaseAddr := d.gmacfBaseAddr
  gmaclBaseAddr := d.gmaclBaseAddr
  pmBaseAddr := d.pmBaseAddr
  synceSupported := d.synceSupported }

/-- The part of it that goes there also when the data is shared. -/
def SynceDevice.withNrOfSas (phy : SynceDevice) (d : DeviceInit) : SynceDevice :=
  { phy with nrOfSas := d.nrOfSas.getD phy.nrOfSas }

/-- Both are the same structure if it holds already what is found. -/
theorem SynceDevice.withFound_eq_iff {phy : SynceDevice} {d d' : DeviceInit} (hnr : d'.nrOfSas = d.nrOfSas) :
    phy.withFound d = phy.withNrOfSas d' ↔
      phy.family = d.id.family ∧ phy.synceSupported = d.synceSupported ∧
      phy.macsecSupported = d.nrOfSas.isSome ∧ phy.gmacfBaseAddr = d.gmacfBaseAddr ∧
      phy.gmaclBaseAddr = d.gmaclBaseAddr ∧ phy.pmBaseAddr = d.pmBaseAddr := by
  constructor
  · intro h
    exact ⟨congrArg (·.family) h.symm, congrArg (·.synceSupported) h.symm,
      congrArg (·.macsecSupported) h.symm, congrArg (·.gmacfBaseAddr) h.symm,
      congrArg (·.gmaclBaseAddr) h.symm, congrArg (·.pmBaseAddr) h.symm⟩
  · intro h
    obtain ⟨hfamily, hsynce, hmacsec, hgmacf, hgmacl, hpm⟩ := h
    rw [withFound, withNrOfSas, hnr, ← hfamily, ← hsynce, ← hmacsec, ← hgmacf, ← hgmacl, ← hpm]

/-- What is where after an initialisation that found this, or that had been done before. -/
def PhyData.inited (p : PhyData) : Option DeviceInit → Inited
  | none => ⟨p.toSynceDevice, p.link⟩
  | some d => ⟨p.toSynceDevice.withFound d, d.link⟩

def PhyData.initedShared (p : PhyData) : Option DeviceInit → Inited
  | none => ⟨p.toSynceDevice, freshLink⟩
  | some d => ⟨p.toSynceDevice.withNrOfSas d, d.link⟩

/-- `gpy2xx_init` without shared data. -/
def initOwn (p : PhyData) : Call Inited := p.inited <$> gpy2xxInit p.privData none p.link

/-- `gpy2xx_init` with a separate block of zeros. -/
def initShared (p : PhyData) : Call Inited :=
  p.initedShared <$> gpy2xxInit p.privData (some (p.family, p.modelNo)) freshLink

/-! ## The parts of the initialisation -/

/-- The families that pass the SyncE check. -/
def SynceFamily (family : Family) : Prop := family = .p31g ∨ family = .p34x

instance (family : Family) : Decidable (SynceFamily family) := inferInstanceAs (Decidable (_ ∨ _))

/-- What the check finds for one of them. -/
def synceBit (family : Family) (modelNo : BitVec 8) (wd2 : BitVec 16) : Bool :=
  if family = .p31g then modelNo.getLsbD 4
  else wd2 == 0xDC00 || (wd2 == 0xDE41 || wd2 == 0xDEC1 || wd2 == 0xDE81) && modelNo.getLsbD 3

theorem synceSupported_of_synceFamily {family : Family} (h : SynceFamily family) (modelNo : BitVec 8)
    (wd2 : BitVec 16) : synceSupported family modelNo wd2 = pure (synceBit family modelNo wd2) := by
  rcases h with rfl | rfl
  · rfl
  · by_cases hwd2 : wd2 = 0xDC00#16
    · simp [synceSupported, synceBit, hwd2]
    · have hbeq : (wd2 == 0xDC00#16) = false := beq_eq_false_iff_ne.mpr hwd2
      simp [synceSupported, synceBit, hwd2, hbeq]

theorem synceSupported_of_not_synceFamily {family : Family} (h : ¬SynceFamily family)
    (modelNo : BitVec 8) (wd2 : BitVec 16) : synceSupported family modelNo wd2 = throw EINVAL := by
  cases family with
  | p31g => exact absurd (.inl rfl) h
  | p34x => exact absurd (.inr rfl) h
  | p34xLgs => rfl
  | other v => rfl

/-- The reads up to the family. -/
def readFront : Api (BitVec 16 × (Family → DeviceId) × Family) := do
  let (wd2, id) ← readIdentity
  let family ← readFamily
  pure (wd2, id, family)

/-- The reads after the SyncE check, and the interrupt mask. -/
def readRest (link : LinkStatus) : Api (Option (BitVec 8) × LinkStatus) := do
  let nrOfSas ← readMacsecSupported
  let link ← initLink link
  phySetBits phyImask 0x200
  pure (nrOfSas, link)

/-- What the initialisation makes of its reads. -/
def foundBy (x : BitVec 16 × (Family → DeviceId) × Family) (synce : Bool)
    (y : Option (BitVec 8) × LinkStatus) : DeviceInit where
  id := x.2.1 x.2.2
  gmacfBaseAddr := if x.2.2 = .p34x then 0xA32000 else 0xD30000
  gmaclBaseAddr := if x.2.2 = .p34x then 0xA30000 else 0xD32000
  pmBaseAddr := if x.2.2 = .p34x then 0xA38000 else 0xD38000
  synceSupported := synce
  nrOfSas := y.1
  link := y.2

/-- The body of the first initialisation. -/
def initBody (own : Option (Family × BitVec 8)) (link : LinkStatus) : Api (Option DeviceInit) := do
  let x ← readFront
  let synce ← synceSupported (own.getD (x.2.2, (x.2.1 x.2.2).modelNo)).1
    (own.getD (x.2.2, (x.2.1 x.2.2).modelNo)).2 x.1
  let y ← readRest link
  pure (some (foundBy x synce y))

theorem gpy2xxInit_false (own : Option (Family × BitVec 8)) (link : LinkStatus) :
    gpy2xxInit false own link = locked (initBody own link) := by
  simp only [gpy2xxInit, initOnce, configInit, initBody, readFront, readRest, map_eq_pure_bind,
    bind_assoc, pure_bind, Bool.false_eq_true, if_false]
  rfl

theorem gpy2xxInit_true (own : Option (Family × BitVec 8)) (link : LinkStatus) :
    gpy2xxInit true own link = locked (phySetBits phyImask 0x200 >>= fun _ => pure none) := rfl

/-! ## The link settings do not matter -/

/-- The one setting that the status functions leave as it was. -/
def keepFixed (fixed2g5 : Int) (link : LinkStatus) : LinkStatus := { link with fixed2g5 := fixed2g5 }

theorem map_ite {α β : Type} (f : α → β) (c : Prop) [Decidable c] (x y : Api α) :
    f <$> (if c then x else y) = if c then f <$> x else f <$> y := apply_ite (f <$> ·) c x y

section Keep
variable (k : Int) (link link' : LinkStatus)

theorem readStatusMg_keep : readStatusMg (keepFixed k link) = keepFixed k <$> readStatusMg link := by
  simp only [readStatusMg, map_ite, map_bind, map_pure]
  rfl

theorem readStatusG_keep : readStatusG (keepFixed k link) = keepFixed k <$> readStatusG link := by
  simp only [readStatusG, map_ite, map_bind, map_pure]
  rfl

theorem readNegotiated_keep : readNegotiated (keepFixed k link) = keepFixed k <$> readNegotiated link := by
  simp only [readNegotiated, readStatusMg_keep, readStatusG_keep, map_bind, map_pure, bind_map_left]
  rfl

theorem withPmaSpeed_keep (pma : BitVec 16) :
    withPmaSpeed (keepFixed k link) pma = keepFixed k (withPmaSpeed link pma) := by
  simp only [withPmaSpeed]
  split <;> rfl

theorem readForced_keep : readForced (keepFixed k link) = keepFixed k <$> readForced link := by
  simp only [readForced, map_ite, map_bind, map_pure, withPmaSpeed_keep]
  rfl

/-- Of the settings there were before, one is left; the accesses are the same for all. -/
theorem initLink_eq : initLink link' = keepFixed link'.fixed2g5 <$> initLink link := by
  simp only [initLink, readStatus, map_bind, map_ite, ← readNegotiated_keep, ← readForced_keep]
  rfl

theorem readRest_eq : readRest link' =
    (fun y => (y.1, keepFixed link'.fixed2g5 y.2)) <$> readRest link := by
  simp only [readRest, initLink_eq link link', map_bind, map_pure, bind_map_left]

end Keep

/-! ## Answers -/

/-- The first value that is read from a register. -/
def phyAnswer (reg : Nat) (t : RegTrace) : Option (BitVec 16) :=
  t.findSome? fun
    | ⟨.phyRead reg', .ok val⟩ => if reg' = reg then some val else none
    | _ => none

def mmdAnswer (devad : Mmd) (reg : Nat) (t : RegTrace) : Option (BitVec 16) :=
  t.findSome? fun
    | ⟨.mmdRead devad' reg', .ok val⟩ => if devad' = devad ∧ reg' = reg then some val else none
    | _ => none

/-- The family that a value of the register stands for. -/
def foundFamily (val : BitVec 16) : Family := if familyOf val = .p34xLgs then .p34x else familyOf val

/-- The answers up to the family. -/
def frontTrace (wd1 wd2 fwv stat1 val : BitVec 16) : RegTrace :=
  [⟨.phyRead stdPhyid1, .ok wd1⟩, ⟨.phyRead stdPhyid2, .ok wd2⟩, ⟨.phyRead phyFwv, .ok fwv⟩,
    ⟨.phyRead phyStat1, .ok stat1⟩, ⟨.mmdRead .vend2 familyReg, .ok val⟩]

section Front
variable {wd1 wd2 fwv stat1 val : BitVec 16} {t : RegTrace}

theorem phyAnswer_front : phyAnswer stdPhyid2 (frontTrace wd1 wd2 fwv stat1 val ++ t) = some wd2 := rfl

theorem mmdAnswer_front : mmdAnswer .vend2 familyReg (frontTrace wd1 wd2 fwv stat1 val ++ t) = some val := rfl

theorem mmdAnswer_front_append : mmdAnswer .vend1 sgmiiStat (frontTrace wd1 wd2 fwv stat1 val ++ t) =
    mmdAnswer .vend1 sgmiiStat t := rfl

/-- The runs: the fifth access reads the family, unless one before it fails or the identifier is
another. -/
theorem runs_readFront {r : Except Errno (BitVec 16 × (Family → DeviceId) × Family)}
    (h : readFront.Runs t r) :
    (∃ e, r = .error e ∧ mmdAnswer .vend2 familyReg t = none) ∨
    ∃ wd1 wd2 fwv stat1 val id, t = frontTrace wd1 wd2 fwv stat1 val ∧ r = .ok (wd2, id, foundFamily val) ∧
      ∀ family, (id family).modelNo = (wd2.extractLsb' 4 6).setWidth 8 ∧ (id family).family = family := by
  rw [readFront, readIdentity, bind_assoc, runs_phyRead_bind] at h
  rcases h with ⟨e, rfl, rfl⟩ | ⟨wd1, t, rfl, h⟩
  · exact .inl ⟨e, rfl, rfl⟩
  rw [bind_assoc, runs_phyRead_bind] at h
  rcases h with ⟨e, rfl, rfl⟩ | ⟨wd2, t, rfl, h⟩
  · exact .inl ⟨e, rfl, rfl⟩
  by_cases houi : ouiOf (ouiWord wd1 wd2) ≠ gphyOui
  · rw [if_pos houi] at h
    obtain ⟨rfl, rfl⟩ := h
    exact .inl ⟨_, rfl, rfl⟩
  rw [if_neg houi, bind_assoc, runs_phyRead_bind] at h
  rcases h with ⟨e, rfl, rfl⟩ | ⟨fwv, t, rfl, h⟩
  · exact .inl ⟨e, rfl, rfl⟩
  rw [bind_assoc, runs_phyRead_bind] at h
  rcases h with ⟨e, rfl, rfl⟩ | ⟨stat1, t, rfl, h⟩
  · exact .inl ⟨e, rfl, rfl⟩
  simp only [pure_bind, readFamily, bind_assoc, runs_phyReadMmd_bind] at h
  rcases h with ⟨e, rfl, rfl⟩ | ⟨val, t, rfl, h⟩
  · exact .inl ⟨e, rfl, rfl⟩
  · obtain ⟨rfl, rfl⟩ := h
    exact .inr ⟨wd1, wd2, fwv, stat1, val, _, rfl, rfl, fun family => ⟨rfl, rfl⟩⟩

end Front

/-! ## The runs -/

section Runs
variable {own : Option (Family × BitVec 8)} {link : LinkStatus} {t : RegTrace}

/-- The first answer after the SyncE check tells the MACsec ability. -/
theorem runs_readRest {r : Except Errno (Option (BitVec 8) × LinkStatus)} (h : (readRest link).Runs t r) :
    ∃ a t', t = ⟨.mmdRead .vend1 sgmiiStat, a⟩ :: t' ∧
      ∀ y, r = .ok y → ∃ stat, a = .ok stat ∧ y.1.isSome = stat.getLsbD 15 := by
  rw [readRest, readMacsecSupported, bind_assoc, runs_phyReadMmd_bind] at h
  rcases h with ⟨e, rfl, rfl⟩ | ⟨stat, t, rfl, h⟩
  · exact ⟨_, _, rfl, fun y hy => nomatch hy⟩
  refine ⟨_, _, rfl, fun y hy => ⟨stat, rfl, ?_⟩⟩
  subst hy
  obtain ⟨t₁, nr, t₂, rfl, hnr, h⟩ := (runs_bind_ok).mp h
  obtain ⟨_, link', _, rfl, -, h⟩ := (runs_bind_ok).mp h
  obtain ⟨_, _, _, rfl, -, -, h⟩ := (runs_bind_ok).mp h
  cases h
  cases hstat : stat.getLsbD 15 with
  | false =>
    rw [hstat] at hnr
    obtain ⟨-, hnr⟩ := hnr
    cases hnr
    rfl
  | true =>
    rw [hstat, if_pos rfl] at hnr
    obtain ⟨_, nrOfSas, _, rfl, -, -, hnr⟩ := (runs_bind_ok).mp hnr
    cases hnr
    rfl

/-- The other settings change only what is kept of them. -/
theorem runs_readRest_keep {link' : LinkStatus} {r : Except Errno (Option (BitVec 8) × LinkStatus)}
    (h : (readRest link).Runs t r) :
    (readRest link').Runs t (r.map fun y => (y.1, keepFixed link'.fixed2g5 y.2)) := by
  rw [readRest_eq link link', runs_map]
  exact ⟨r, h, rfl⟩

/-- The initialisation after the reads of the front. -/
theorem runs_initBody_front {t₀ : RegTrace} {x : BitVec 16 × (Family → DeviceId) × Family}
    (hx : readFront.Runs t₀ (.ok x)) {r : Except Errno (Option DeviceInit)} :
    (initBody own link).Runs (t₀ ++ t) r ↔
      (¬SynceFamily (own.getD (x.2.2, (x.2.1 x.2.2).modelNo)).1 ∧ t = [] ∧ r = .error EINVAL) ∨
      (SynceFamily (own.getD (x.2.2, (x.2.1 x.2.2).modelNo)).1 ∧ ∃ r', (readRest link).Runs t r' ∧
        r = r'.map fun y => some (foundBy x (synceBit (own.getD (x.2.2, (x.2.1 x.2.2).modelNo)).1
          (own.getD (x.2.2, (x.2.1 x.2.2).modelNo)).2 x.1) y)) := by
  rw [initBody, runs_bind_of_ok hx]
  by_cases hfamily : SynceFamily (own.getD (x.2.2, (x.2.1 x.2.2).modelNo)).1
  · rw [synceSupported_of_synceFamily hfamily, pure_bind, bind_pure_comp, runs_map]
    constructor
    · intro h
      exact .inr ⟨hfamily, h⟩
    · intro h
      rcases h with ⟨hnot, -⟩ | ⟨-, h⟩
      · exact absurd hfamily hnot
      · exact h
  · rw [synceSupported_of_not_synceFamily hfamily]
    constructor
    · intro h
      obtain ⟨rfl, rfl⟩ := h
      exact .inl ⟨hfamily, rfl, rfl⟩
    · intro h
      rcases h with ⟨-, rfl, rfl⟩ | ⟨hyes, -⟩
      · exact ⟨rfl, rfl⟩
      · exact absurd hyes hfamily

end Runs

end Gpy2xx
