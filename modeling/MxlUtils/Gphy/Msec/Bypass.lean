import MxlUtils.Gphy.Msec.EngineInit

/- Taking MACsec into and out of use. `gpy2xx_macsec_enable` and
   `gpy2xx_macsec_disable` write the bypass and reset bits of the PM and the
   padding of the MACs; `gpy2xx_gmacx_pm_pdi_get` tells whether traffic bypasses
   them. Enabling takes its exit on a GMAC bypass without an error, and the getter
   reports the second of two bits only. -/
namespace Gpy2xx
open Effect Effect.Fallible Effect.Lock Bits

/-! ## The calls -/

/-- The word of `macsec_disable`: bypassed and in reset, and nothing dropped. -/
def pmPdiCfgOff (pmPdiCfg : BitVec 16) : BitVec 16 :=
  replaceFields pmPdiCfg [
    (⟨0x4, 2⟩, 1), (⟨0x8, 3⟩, 1), (⟨0x10, 4⟩, 1),
    (⟨0x20, 5⟩, 0), (⟨0x40, 6⟩, 0), (⟨0x80, 7⟩, 0), (⟨0x100, 8⟩, 0)]

def disableMacsecPath (phy : Gpy211Device) : Api Unit := do
  let pmPdiCfg ← phyMboxHwrd (phy.pmBaseAddr + 0x0)
  phyMboxHwwr (phy.pmBaseAddr + 0x0) (pmPdiCfgOff pmPdiCfg)
  let pmGmacfCfg ← phyMboxHwrd (phy.pmBaseAddr + 0x4)
  phyMboxHwwr (phy.pmBaseAddr + 0x4) (Field.replace ⟨0x3, 0⟩ pmGmacfCfg 2)
  let macCfgH ← phyMboxHwrd (phy.gmacfBaseAddr + 0x4)
  phyMboxHwwr (phy.gmacfBaseAddr + 0x4) (replaceFields macCfgH [(⟨0x10, 4⟩, 0), (⟨0x20, 5⟩, 0)])

def gpy2xxMacsecDisable (phy : Gpy211Device) : Call Unit :=
  if !phy.macsecSupported then throw EINVAL else locked (disableMacsecPath phy)

/-- `struct pm_config` -/
structure PmConfig where
  bypassGmac : BitVec 8
  bypassMacsec : BitVec 8
  dropOnCrcErr : BitVec 8
  dropOnPktErr : BitVec 8
  dropOnSecFail : BitVec 8
  classDrop : BitVec 8
  cust3gEn : BitVec 8
  sgmiiLbEn : BitVec 8

/-- Both bits of a bypass are set from its one field, and the reset from that of MACsec. -/
def pmPdiCfgWith (pmCfg : PmConfig) (pmPdiCfg : BitVec 16) : BitVec 16 :=
  replaceFields pmPdiCfg [
    (⟨0x1, 0⟩, pmCfg.bypassGmac.setWidth 16), (⟨0x2, 1⟩, pmCfg.bypassGmac.setWidth 16),
    (⟨0x4, 2⟩, pmCfg.bypassMacsec.setWidth 16), (⟨0x8, 3⟩, pmCfg.bypassMacsec.setWidth 16),
    (⟨0x10, 4⟩, pmCfg.bypassMacsec.setWidth 16), (⟨0x20, 5⟩, pmCfg.dropOnCrcErr.setWidth 16),
    (⟨0x40, 6⟩, pmCfg.dropOnPktErr.setWidth 16), (⟨0x80, 7⟩, pmCfg.dropOnSecFail.setWidth 16),
    (⟨0x100, 8⟩, pmCfg.classDrop.setWidth 16), (⟨0x200, 9⟩, pmCfg.cust3gEn.setWidth 16),
    (⟨0x400, 10⟩, pmCfg.sgmiiLbEn.setWidth 16)]

def gpy2xxGmacxPmPdiCfg (phy : Gpy211Device) (pmCfg : PmConfig) : Call Unit :=
  if !phy.macsecSupported then throw EINVAL
  else locked do
    let pmPdiCfg ← phyMboxHwrd (phy.pmBaseAddr + 0x0)
    phyMboxHwwr (phy.pmBaseAddr + 0x0) (pmPdiCfgWith pmCfg pmPdiCfg)

/-- Each bypass is taken from its first bit and then from its second, which stays. -/
def pmConfigOf (pmPdiCfg : BitVec 16) : PmConfig where
  bypassGmac := (Field.get ⟨0x2, 1⟩ pmPdiCfg).setWidth 8
  bypassMacsec := (Field.get ⟨0x8, 3⟩ pmPdiCfg).setWidth 8
  dropOnCrcErr := (Field.get ⟨0x20, 5⟩ pmPdiCfg).setWidth 8
  dropOnPktErr := (Field.get ⟨0x40, 6⟩ pmPdiCfg).setWidth 8
  dropOnSecFail := (Field.get ⟨0x80, 7⟩ pmPdiCfg).setWidth 8
  classDrop := (Field.get ⟨0x100, 8⟩ pmPdiCfg).setWidth 8
  cust3gEn := (Field.get ⟨0x200, 9⟩ pmPdiCfg).setWidth 8
  sgmiiLbEn := (Field.get ⟨0x400, 10⟩ pmPdiCfg).setWidth 8

def gpy2xxGmacxPmPdiGet (phy : Gpy211Device) : Call PmConfig :=
  locked do
    let pmPdiCfg ← phyMboxHwrd (phy.pmBaseAddr + 0x0)
    pure (pmConfigOf pmPdiCfg)

/-! ## What a non-negative return should mean -/

/-- A write of the run that succeeded and whose word is as wanted. -/
def Wrote (acc : RegTrace) (addr : Nat) (wanted : BitVec 16 → Prop) : Prop :=
  ∃ w, ⟨.mboxWrite16 addr w, .ok ()⟩ ∈ acc ∧ wanted w

/-- The bypass bits of both directions and the reset bit of MACsec. -/
def MacsecBits (b pmPdiCfg : BitVec 16) : Prop :=
  Field.get ⟨0x4, 2⟩ pmPdiCfg = b ∧ Field.get ⟨0x8, 3⟩ pmPdiCfg = b ∧ Field.get ⟨0x10, 4⟩ pmPdiCfg = b

/-- The path as far as the PM and the MACs make it up: the three bits, the padding of the PM, and the
stripping of padding and CRC by the MAC. -/
structure PathWritten (phy : Gpy211Device) (acc : RegTrace) (off crcPad strip : BitVec 16) : Prop where
  pm : Wrote acc (phy.pmBaseAddr + 0x0) (MacsecBits off)
  gmac : Wrote acc (phy.pmBaseAddr + 0x4) fun w => Field.get ⟨0x3, 0⟩ w = crcPad
  mac : Wrote acc (phy.gmacfBaseAddr + 0x4) fun w =>
    Field.get ⟨0x10, 4⟩ w = strip ∧ Field.get ⟨0x20, 5⟩ w = strip

/-- MACsec is in use: the path is written and both engines are initialised. -/
structure MacsecEnabled (phy : Gpy211Device) (t : Trace regSig.locking) : Prop where
  path : PathWritten phy (accesses t) 0 0 1
  ingress : ∃ tIng nrOfSas, tIng <:+: t ∧ (gpy2xxMsecInitIngDev phy).Runs tIng (.ok nrOfSas)
  egress : ∃ tEgr nrOfSas, tEgr <:+: t ∧ (gpy2xxMsecInitEgrDev phy).Runs tEgr (.ok nrOfSas)

/-- The run's read of the PM configuration, which is the first access, shows a bypass of a GMAC. -/
def ShowsBypass (phy : Gpy211Device) (acc : RegTrace) : Prop :=
  ∃ v rest, acc = ⟨.mboxRead16 (phy.pmBaseAddr + 0x0), .ok v⟩ :: rest ∧ gmacBypassed v = true

/-- A bypass is reported as 0 only where neither of its bits is set. -/
def ReportsBypass (phy : Gpy211Device) (acc : RegTrace) (r : Except Errno PmConfig) : Prop :=
  ∀ pmCfg v, r = .ok pmCfg → ⟨.mboxRead16 (phy.pmBaseAddr + 0x0), .ok v⟩ ∈ acc →
    (pmCfg.bypassMacsec = 0 → v.getLsbD 2 = false ∧ v.getLsbD 3 = false) ∧
    (pmCfg.bypassGmac = 0 → v.getLsbD 0 = false ∧ v.getLsbD 1 = false)

/-- No bypass has its first bit set without its second. -/
def SecondBits (pmPdiCfg : BitVec 16) : Prop :=
  (pmPdiCfg.getLsbD 0 = true → pmPdiCfg.getLsbD 1 = true) ∧
  (pmPdiCfg.getLsbD 2 = true → pmPdiCfg.getLsbD 3 = true)

section Path
variable {phy : Gpy211Device} {acc : RegTrace} {t : Trace regSig.locking}

/-- The accesses that write the path, when none of them fails. -/
theorem runs_path_ok {pm gmac mac : Nat} {w : BitVec 16} {f g : BitVec 16 → BitVec 16}
    (h : (do
      phyMboxHwwr pm w
      let v ← phyMboxHwrd gmac
      phyMboxHwwr gmac (f v)
      let u ← phyMboxHwrd mac
      phyMboxHwwr mac (g u) : Api Unit).Runs acc (.ok ())) :
    ∃ v u, acc = [⟨.mboxWrite16 pm w, .ok ()⟩, ⟨.mboxRead16 gmac, .ok v⟩,
      ⟨.mboxWrite16 gmac (f v), .ok ()⟩, ⟨.mboxRead16 mac, .ok u⟩, ⟨.mboxWrite16 mac (g u), .ok ()⟩] := by
  rcases (runs_phyMboxHwwr_bind).mp h with ⟨_, _, hbad⟩ | ⟨_, t₁, rfl, h₁⟩
  · cases hbad
  rcases (runs_phyMboxHwrd_bind).mp h₁ with ⟨_, _, hbad⟩ | ⟨v, t₂, rfl, h₂⟩
  · cases hbad
  rcases (runs_phyMboxHwwr_bind).mp h₂ with ⟨_, _, hbad⟩ | ⟨_, t₃, rfl, h₃⟩
  · cases hbad
  rcases (runs_phyMboxHwrd_bind).mp h₃ with ⟨_, _, hbad⟩ | ⟨u, t₄, rfl, h₄⟩
  · cases hbad
  rw [(runs_phyMboxHwwr).mp h₄]
  exact ⟨v, u, rfl⟩

theorem macsecBits_pmPdiCfgOf (msecCfg : Gpy211Macsec) (v : BitVec 16) :
    MacsecBits 0 (pmPdiCfgOf msecCfg v) := by
  refine ⟨get_replaceFields_bit (by decide) (by decide) (by simp), ?_, ?_⟩
  · exact get_replaceFields_skip fun _ => get_replaceFields_bit (by decide) (by decide) (by simp)
  · exact get_replaceFields_skip fun _ => get_replaceFields_skip fun _ =>
      get_replaceFields_bit (by decide) (by decide) (by simp)

theorem macsecBits_pmPdiCfgOff (v : BitVec 16) : MacsecBits 1 (pmPdiCfgOff v) := by
  refine ⟨get_replaceFields_bit (by decide) (by decide) (by simp), ?_, ?_⟩
  · exact get_replaceFields_skip fun _ => get_replaceFields_bit (by decide) (by decide) (by simp)
  · exact get_replaceFields_skip fun _ => get_replaceFields_skip fun _ =>
      get_replaceFields_bit (by decide) (by decide) (by simp)

/-- The stripping of padding and CRC, both switched the same way. -/
theorem strip_replaceFields {strip : BitVec 16} (h : strip.toNat < 2) (v : BitVec 16) :
    Field.get ⟨0x10, 4⟩ (replaceFields v [(⟨0x10, 4⟩, strip), (⟨0x20, 5⟩, strip)]) = strip ∧
    Field.get ⟨0x20, 5⟩ (replaceFields v [(⟨0x10, 4⟩, strip), (⟨0x20, 5⟩, strip)]) = strip :=
  ⟨get_replaceFields_bit (by decide) h (by simp),
    get_replaceFields_skip fun _ => get_replaceFields_bit (by decide) h (by simp)⟩

/-! ## Enabling -/

/-- The exit on a bypass is the one that opens nothing and returns no error. -/
theorem showsBypass_iff {msecCfg : Gpy211Macsec} {c : Except Errno Bool}
    (h : (openMacsecPath phy msecCfg).Runs acc c) (rest : RegTrace) :
    ShowsBypass phy (acc ++ rest) ↔ c = .ok false := by
  rcases (runs_phyMboxHwrd_bind).mp h with ⟨e, rfl, rfl⟩ | ⟨v, acc', rfl, hrest⟩
  · simp [ShowsBypass]
  · have hshows : ShowsBypass phy (⟨.mboxRead16 (phy.pmBaseAddr + 0x0), .ok v⟩ :: acc' ++ rest) ↔
        gmacBypassed v = true := by
      constructor
      · rintro ⟨u, rest', heq, hbypass⟩
        cases heq
        exact hbypass
      · intro hbypass
        exact ⟨v, acc' ++ rest, rfl, hbypass⟩
    rw [hshows]
    by_cases hbypass : gmacBypassed v = true
    · rw [if_pos hbypass] at hrest
      simp [hbypass, (runs_pure.mp hrest).2]
    · rw [if_neg hbypass] at hrest
      rcases (runs_bind).mp hrest with ⟨e, -, rfl⟩ | ⟨_, _, _, -, -, hend⟩
      · simp [hbypass]
      · simp [hbypass, (runs_pure.mp hend).2]

/-- The other exit without an error has written the path. -/
theorem pathWritten_of_open {msecCfg : Gpy211Macsec}
    (h : (openMacsecPath phy msecCfg).Runs acc (.ok true)) (rest : RegTrace) :
    PathWritten phy (acc ++ rest) 0 0 1 := by
  rcases (runs_phyMboxHwrd_bind).mp h with ⟨_, _, hbad⟩ | ⟨v, acc', rfl, hrest⟩
  · cases hbad
  by_cases hbypass : gmacBypassed v = true
  · rw [if_pos hbypass] at hrest
    cases (runs_pure.mp hrest).2
  · rw [if_neg hbypass] at hrest
    obtain ⟨t₁, _, t₂, rfl, hpath, hend⟩ := (runs_bind_ok).mp hrest
    obtain ⟨v₂, v₃, rfl⟩ := runs_path_ok hpath
    refine ⟨⟨pmPdiCfgOf msecCfg v, by simp, macsecBits_pmPdiCfgOf msecCfg v⟩,
      ⟨Field.replace ⟨0x3, 0⟩ v₂ 0, by simp, ?_⟩, ⟨_, ?_, strip_replaceFields (by decide) v₃⟩⟩
    · exact @Field.get_replace _ _ 2 _ _ (by decide) (by decide)
    · simp

/-- Nothing is written where the call takes its exit on a bypass. -/
theorem not_wrote_of_bypass {msecCfg : Gpy211Macsec} {addr : Nat} {wanted : BitVec 16 → Prop}
    (h : (openMacsecPath phy msecCfg).Runs acc (.ok false)) : ¬Wrote acc addr wanted := by
  rcases (runs_phyMboxHwrd_bind).mp h with ⟨_, _, hbad⟩ | ⟨v, acc', rfl, hrest⟩
  · cases hbad
  by_cases hbypass : gmacBypassed v = true
  · rw [if_pos hbypass] at hrest
    rw [(runs_pure.mp hrest).1]
    rintro ⟨w, hmem, -⟩
    cases List.mem_singleton.mp hmem
  · rw [if_neg hbypass] at hrest
    obtain ⟨_, _, _, _, _, hend⟩ := (runs_bind_ok).mp hrest
    cases (runs_pure.mp hend).2

theorem macsecEnabled_iff {msecCfg : Gpy211Macsec} {r : Except Errno Unit}
    (h : (gpy2xxMacsecEnable phy msecCfg).Runs t r) :
    (r = .ok () → MacsecEnabled phy t) ↔ ¬ShowsBypass phy (accesses t) := by
  rw [gpy2xxMacsecEnable, runs_ite] at h
  split at h
  · obtain ⟨rfl, rfl⟩ := (runs_throw).mp h
    simp [ShowsBypass]
  obtain ⟨t', rfl, hbody⟩ := (runs_bracket).mp h
  rcases (runs_bind).mp hbody with ⟨e, houtside, rfl⟩ | ⟨t₁, opened, t₂, rfl, houtside, hengines⟩
  · obtain ⟨acc, rfl, hopen⟩ := (runs_outside).mp houtside
    rw [accesses_bracketed, ← List.append_nil acc, showsBypass_iff hopen]
    simp
  obtain ⟨acc, rfl, hopen⟩ := (runs_outside).mp houtside
  have hacc : accesses (⟨.lock, ()⟩ :: (acc.map accEvent ++ t₂ ++ [⟨.unlock, ()⟩])) =
      acc ++ accesses t₂ := by
    rw [accesses_lock, accesses_append, accesses_append, accesses_acc]
    exact List.append_nil _
  rw [hacc, showsBypass_iff hopen]
  cases opened with
  | false =>
    obtain ⟨rfl, rfl⟩ := (runs_pure).mp hengines
    constructor
    · intro henabled
      have hwrote := (henabled rfl).path.pm
      rw [hacc, accesses_nil, List.append_nil] at hwrote
      exact absurd hwrote (not_wrote_of_bypass hopen)
    · intro hnot
      exact absurd rfl hnot
  | true =>
    refine ⟨fun _ => by simp, fun _ hok => ?_⟩
    subst hok
    obtain ⟨tIng, nIng, t₃, rfl, hing, hrest⟩ := (runs_bind_ok).mp hengines
    obtain ⟨tEgr, nEgr, t₄, rfl, hegr, -⟩ := (runs_bind_ok).mp hrest
    refine ⟨?_, ⟨tIng, nIng, ?_, hing⟩, ⟨tEgr, nEgr, ?_, hegr⟩⟩
    · rw [hacc]
      exact pathWritten_of_open hopen _
    · exact ⟨⟨.lock, ()⟩ :: acc.map accEvent, tEgr ++ t₄ ++ [⟨.unlock, ()⟩], by simp⟩
    · exact ⟨⟨.lock, ()⟩ :: (acc.map accEvent ++ tIng), t₄ ++ [⟨.unlock, ()⟩], by simp⟩

/-! ## Disabling and reporting -/

/-- Disabling has no exit but a failed access that leaves the path as it was. -/
theorem disabled_of_success (h : (gpy2xxMacsecDisable phy).Runs t (.ok ())) :
    PathWritten phy (accesses t) 1 2 0 := by
  rw [gpy2xxMacsecDisable, runs_ite] at h
  split at h
  · cases (runs_throw.mp h).2
  have hbody := Lock.Runs.accesses_locked h
  rcases (runs_phyMboxHwrd_bind).mp hbody with ⟨_, _, hbad⟩ | ⟨v, acc, hacc, hpath⟩
  · cases hbad
  obtain ⟨v₂, v₃, rfl⟩ := runs_path_ok hpath
  rw [hacc]
  refine ⟨⟨pmPdiCfgOff v, by simp, macsecBits_pmPdiCfgOff v⟩,
    ⟨Field.replace ⟨0x3, 0⟩ v₂ 2, by simp, ?_⟩, ⟨_, ?_, strip_replaceFields (by decide) v₃⟩⟩
  · exact @Field.get_replace _ _ 2 _ _ (by decide) (by decide)
  · simp

/-- A reported bypass is 0 if and only if its second bit is. -/
theorem bypass_pmConfigOf (v : BitVec 16) :
    ((pmConfigOf v).bypassMacsec = 0 ↔ v.getLsbD 3 = false) ∧
    ((pmConfigOf v).bypassGmac = 0 ↔ v.getLsbD 1 = false) := by
  have hnarrow : ∀ f : Field 16, f.Spans 1 → ((f.get v).setWidth 8 = 0 ↔ v.getLsbD f.pos = false) := by
    intro f hf
    rw [← Field.get_bit_eq_zero_iff hf]
    constructor
    · intro hzero
      have hbit : ((f.get v).setWidth 8).getLsbD 0 = false := by rw [hzero]; rfl
      rw [BitVec.getLsbD_setWidth, Field.getLsbD_get_bit hf] at hbit
      exact (Field.get_bit_eq_zero_iff hf).mpr (by simpa using hbit)
    · intro hzero
      rw [hzero]
      rfl
  exact ⟨hnarrow ⟨0x8, 3⟩ (by decide), hnarrow ⟨0x2, 1⟩ (by decide)⟩

/-- The getter tells the truth where no bypass has its first bit alone. -/
theorem reportsBypass_iff {r : Except Errno PmConfig} (h : (gpy2xxGmacxPmPdiGet phy).Runs t r) :
    ReportsBypass phy (accesses t) r ↔
      ∀ v, ⟨.mboxRead16 (phy.pmBaseAddr + 0x0), .ok v⟩ ∈ accesses t → SecondBits v := by
  have hbody := Lock.Runs.accesses_locked h
  rcases (runs_phyMboxHwrd_bind).mp hbody with ⟨e, hacc, rfl⟩ | ⟨v, acc, hacc, hend⟩
  · rw [hacc]
    simp [ReportsBypass]
  · obtain ⟨rfl, rfl⟩ := (runs_pure).mp hend
    obtain ⟨hmacsec, hgmac⟩ := bypass_pmConfigOf v
    have hpair : ∀ first second : Bool, (second = false → first = false ∧ second = false) ↔
        (first = true → second = true) := by decide
    have hread : ∀ u, ⟨.mboxRead16 (phy.pmBaseAddr + 0x0), .ok u⟩ ∈ accesses t ↔ u = v := by
      intro u
      rw [hacc]
      simp
    constructor
    · intro hreports u hu
      obtain rfl := (hread u).mp hu
      obtain ⟨hzero, hzeroGmac⟩ := hreports _ u rfl hu
      rw [hmacsec] at hzero
      rw [hgmac] at hzeroGmac
      exact ⟨(hpair _ _).mp hzeroGmac, (hpair _ _).mp hzero⟩
    · intro hsecond pmCfg u hok hu
      obtain rfl := (hread u).mp hu
      cases hok
      rw [hmacsec, hgmac]
      exact ⟨(hpair _ _).mpr (hsecond u hu).2, (hpair _ _).mpr (hsecond u hu).1⟩

/-! ## The words that keep the getter truthful -/

/-- A configured bypass sets both of its bits. -/
theorem secondBits_pmPdiCfgWith (pmCfg : PmConfig) (v : BitVec 16) :
    SecondBits (pmPdiCfgWith pmCfg v) := by
  have hgmac : (pmPdiCfgWith pmCfg v).getLsbD 0 = (pmCfg.bypassGmac.setWidth 16).getLsbD 0 :=
    @getLsbD_replaceFields_cons _ ⟨0x1, 0⟩ _ _ _ (by decide) (by simp)
  have hgmacl : (pmPdiCfgWith pmCfg v).getLsbD 1 = (pmCfg.bypassGmac.setWidth 16).getLsbD 0 :=
    getLsbD_replaceFields_skip fun _ =>
      @getLsbD_replaceFields_cons _ ⟨0x2, 1⟩ _ _ _ (by decide) (by simp)
  have hegress : (pmPdiCfgWith pmCfg v).getLsbD 2 = (pmCfg.bypassMacsec.setWidth 16).getLsbD 0 :=
    getLsbD_replaceFields_skip fun _ => getLsbD_replaceFields_skip fun _ =>
      @getLsbD_replaceFields_cons _ ⟨0x4, 2⟩ _ _ _ (by decide) (by simp)
  have hingress : (pmPdiCfgWith pmCfg v).getLsbD 3 = (pmCfg.bypassMacsec.setWidth 16).getLsbD 0 :=
    getLsbD_replaceFields_skip fun _ => getLsbD_replaceFields_skip fun _ =>
      getLsbD_replaceFields_skip fun _ =>
        @getLsbD_replaceFields_cons _ ⟨0x8, 3⟩ _ _ _ (by decide) (by simp)
  rw [SecondBits, hgmac, hgmacl, hegress, hingress]
  exact ⟨id, id⟩

/-- Both bits of MACsec written alike, those of the GMACs left as they were. -/
theorem secondBits_of_macsecBits {b v w : BitVec 16} (hmacsec : MacsecBits b w)
    (hfirst : w.getLsbD 0 = v.getLsbD 0) (hsecond : w.getLsbD 1 = v.getLsbD 1) (h : SecondBits v) :
    SecondBits w := by
  have hegress := @Field.getLsbD_get_bit _ ⟨0x4, 2⟩ w (by decide) 0
  have hingress := @Field.getLsbD_get_bit _ ⟨0x8, 3⟩ w (by decide) 0
  rw [hmacsec.1] at hegress
  rw [hmacsec.2.1] at hingress
  have hpair : w.getLsbD 2 = w.getLsbD 3 := by simpa using hegress.symm.trans hingress
  refine ⟨?_, fun hbit => hpair ▸ hbit⟩
  rw [hfirst, hsecond]
  exact h.1

theorem secondBits_pmPdiCfgOf {v : BitVec 16} (msecCfg : Gpy211Macsec) (h : SecondBits v) :
    SecondBits (pmPdiCfgOf msecCfg v) :=
  secondBits_of_macsecBits (macsecBits_pmPdiCfgOf msecCfg v)
    (@getLsbD_replaceFields_of_apart _ ⟨0x1, 0⟩ _ _ (by decide) (by simp))
    (@getLsbD_replaceFields_of_apart _ ⟨0x2, 1⟩ _ _ (by decide) (by simp)) h

theorem secondBits_pmPdiCfgOff {v : BitVec 16} (h : SecondBits v) : SecondBits (pmPdiCfgOff v) :=
  secondBits_of_macsecBits (macsecBits_pmPdiCfgOff v)
    (@getLsbD_replaceFields_of_apart _ ⟨0x1, 0⟩ _ _ (by decide) (by simp))
    (@getLsbD_replaceFields_of_apart _ ⟨0x2, 1⟩ _ _ (by decide) (by simp)) h

/-- Whatever the register held, `gpy2xx_gmacx_pm_pdi_cfg` writes a word the getter is right about. -/
theorem secondBits_of_pmPdiCfg {pmCfg : PmConfig} {r : Except Errno Unit}
    (h : (gpy2xxGmacxPmPdiCfg phy pmCfg).Runs t r) {addr : Nat} {w : BitVec 16}
    {c : Except Errno Unit} (hw : ⟨.mboxWrite16 addr w, c⟩ ∈ accesses t) : SecondBits w := by
  rw [gpy2xxGmacxPmPdiCfg, runs_ite] at h
  split at h
  · obtain ⟨rfl, -⟩ := (runs_throw).mp h
    simp at hw
  have hbody := Lock.Runs.accesses_locked h
  rcases (runs_phyMboxHwrd_bind).mp hbody with ⟨e, hacc, -⟩ | ⟨v, acc, hacc, hwrite⟩
  · simp [hacc] at hw
  rw [hacc, (runs_phyMboxHwwr).mp hwrite] at hw
  have hword : w = pmPdiCfgWith pmCfg v := by
    simp at hw
    exact hw.1.2
  rw [hword]
  exact secondBits_pmPdiCfgWith pmCfg v

end Path

/-! ## The truth of the three calls -/

/-- What each call should tell: MACsec in use, out of use, and which traffic bypasses it. -/
def MacsecTellsTruth (phy : Gpy211Device) : Prop :=
  (∀ msecCfg t, (gpy2xxMacsecEnable phy msecCfg).Runs t (.ok ()) → MacsecEnabled phy t) ∧
  (∀ t, (gpy2xxMacsecDisable phy).Runs t (.ok ()) → PathWritten phy (accesses t) 1 2 0) ∧
  ∀ t r, (gpy2xxGmacxPmPdiGet phy).Runs t r → ReportsBypass phy (accesses t) r

/-- Of the three, disabling tells the truth in every run; enabling does where its read shows no
bypass of a GMAC, and the getter where no first bit of the word read is set alone. -/
theorem macsec_tells_truth_iff (phy : Gpy211Device) :
    (∀ msecCfg t r, (gpy2xxMacsecEnable phy msecCfg).Runs t r →
      ((r = .ok () → MacsecEnabled phy t) ↔ ¬ShowsBypass phy (accesses t))) ∧
    (∀ t, (gpy2xxMacsecDisable phy).Runs t (.ok ()) → PathWritten phy (accesses t) 1 2 0) ∧
    ∀ t r, (gpy2xxGmacxPmPdiGet phy).Runs t r →
      (ReportsBypass phy (accesses t) r ↔
        ∀ v, ⟨.mboxRead16 (phy.pmBaseAddr + 0x0), .ok v⟩ ∈ accesses t → SecondBits v) :=
  ⟨fun _ _ _ h => macsecEnabled_iff h, fun _ h => disabled_of_success h,
    fun _ _ h => reportsBypass_iff h⟩

/-- A PHY with MACsec engines. -/
def msecPhy : Gpy211Device := ⟨⟨0⟩, .p31g, 0, true, 0, 0xD30000, 0xD32000, 0xD38000⟩

/-- The read of the PM configuration, between lock and unlock. -/
def pmPdiRead (v : BitVec 16) : Trace regSig.locking :=
  [⟨.lock, ()⟩, ⟨.acc (.mboxRead16 0xD38000), .ok v⟩, ⟨.unlock, ()⟩]

theorem runs_pmPdiGet (v : BitVec 16) :
    (gpy2xxGmacxPmPdiGet msecPhy).Runs (pmPdiRead v) (.ok (pmConfigOf v)) :=
  (runs_locked).mpr ⟨[⟨.mboxRead16 0xD38000, .ok v⟩], rfl, .ok v, [], rfl, rfl, rfl⟩

/-- MACsec bypassed in both directions. -/
theorem reportsBypass_both :
    ReportsBypass msecPhy (accesses (pmPdiRead 0xC)) (.ok (pmConfigOf 0xC)) := by
  have htruth := (macsec_tells_truth_iff msecPhy).2.2 _ _ (runs_pmPdiGet 0xC)
  refine htruth.mpr fun v hv => ?_
  have hword : v = 0xC := by
    simp [pmPdiRead, accesses] at hv
    exact hv.2
  subst hword
  simp [SecondBits]

/-- With `PM_PDI_CFG_GMAC_BYP` set, enabling returns 0 after its one read. -/
theorem runs_macsecEnable_bypassed :
    (gpy2xxMacsecEnable msecPhy ⟨1, 1, 1, 1⟩).Runs (pmPdiRead 1) (.ok ()) :=
  (runs_bracket).mpr ⟨[⟨.acc (.mboxRead16 0xD38000), .ok 1⟩], rfl, .ok 1, [], rfl, rfl, rfl⟩

theorem not_macsecTellsTruth_bypassed : ¬MacsecTellsTruth msecPhy := by
  intro h
  obtain ⟨w, hw, -⟩ := (h.1 _ _ runs_macsecEnable_bypassed).path.pm
  simp [pmPdiRead, accesses] at hw

/-- And egress alone bypassed is reported as no bypass. -/
theorem not_reportsBypass_egress :
    ¬ReportsBypass msecPhy (accesses (pmPdiRead 4)) (.ok (pmConfigOf 4)) := by
  intro h
  obtain ⟨hegress, -⟩ := (h _ 4 rfl List.mem_cons_self).1 rfl
  cases hegress

end Gpy2xx
