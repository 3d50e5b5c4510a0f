import MxlUtils.Gphy.Status

/- Forced speeds and the status that reports them. Registers are memory, and any
   calls of `setup_forced` may have come before the one that is looked at. A speed
   above 1 Gbps sets the speed bits of the PMA control register; no call clears
   them again, and the status looks there first. So a speed up to 1 Gbps is
   reported only if nothing ever set them. -/
namespace Gpy2xx
open Effect Effect.Fallible Effect.Lock Bits

/-! ## What is to be reported -/

/-- The link mode of a speed with a duplex mode. -/
def forcedMode (speed duplex : Int) : Option LinkMode :=
  match speed, duplex with
  | 10, 0 => some .t10Half
  | 10, 1 => some .t10Full
  | 100, 0 => some .t100Half
  | 100, 1 => some .t100Full
  | 1000, 0 => some .t1000Half
  | 1000, 1 => some .t1000Full
  | 2500, 1 => some .t2500Full
  | 5000, 1 => some .t5000Full
  | _, _ => none

/-- Speed and duplex are those of a mode the device supports. -/
def ModeSupported (link : Link) : Prop :=
  ∃ mode, forcedMode link.speed link.duplex = some mode ∧ link.supported.getLsbD mode.bit = true

/-- If the call is accepted, its mode is supported and the status that is read next reports it. -/
def ForcedRoundTrips (s : Regs) (link : LinkStatus) (mstrSlave : BitVec 8) : Prop :=
  ∀ s', (gpy2xxSetupForced link.toLink mstrSlave).exec (handler memHandler) s = (.ok (), s') →
    ModeSupported link.toLink ∧
    ∃ st, ((gpy2xxReadStatus { link with autoneg := 0 }).exec (handler memHandler) s').1 = .ok st ∧
      st.speed = link.speed ∧ st.duplex = link.duplex

/-- The registers after some calls of `setup_forced`, accepted or not. -/
def afterForced (s : Regs) (cs : List (Link × BitVec 8)) : Regs :=
  cs.foldl (fun s c => ((gpy2xxSetupForced c.1 c.2).exec (handler memHandler) s).2) s

/-- The settings pass every check of `setup_forced`. -/
def forcedProgrammed (link : Link) : Bool :=
  forcedAccepts link && (1000 < link.speed || (forcedSpeedBits link.speed).isSome)

/-- The PMA control register says that its speed selection counts. -/
def Multigig (s : Regs) : Prop := pmaSpeedIndex (s.mmd .pmapmd pmaCtrl1) = 3

/-! ## What a call leaves in the registers -/

/-- The registers with another value in a standard one. -/
def Regs.setPhy (s : Regs) (reg : Nat) (v : BitVec 16) : Regs :=
  { s with phy := Function.update s.phy reg v }

section Setup
variable {s s₂ : Regs} {link : Link} {mstrSlave : BitVec 8}

/-- The registers when the speed is forced: the advertisement has been written. -/
def Regs.forcedAdv (s : Regs) (link : Link) : Regs :=
  s.setPhy stdAnAdv (forcedAnAdv link (s.phy stdAnAdv))

theorem exec_setupForced_ok (haccepts : forcedAccepts link = true)
    (h : (forceSpeed link (s.phy stdCtrl)).exec memHandler (s.forcedAdv link) = (.ok (), s₂)) :
    (setupForced link mstrSlave).exec memHandler s =
      (.ok (), s₂.setPhy stdGctrl (msForced mstrSlave (s₂.phy stdGctrl))) := by
  have hctrl : (phyRead stdCtrl).exec memHandler (s.forcedAdv link) =
      (.ok (s.phy stdCtrl), s.forcedAdv link) := rfl
  rw [setupForced, if_neg (by simp [haccepts]), exec_bind_ok (exec_phyRead s stdAnAdv),
    exec_bind_ok (exec_phyWrite s stdAnAdv _)]
  change exec memHandler (phyRead stdCtrl >>= _) (s.forcedAdv link) = _
  rw [exec_bind_ok hctrl, exec_bind_ok h, exec_bind_ok (exec_phyRead s₂ stdGctrl)]
  rfl

theorem exec_setupForced_error (haccepts : forcedAccepts link = true) {e : Errno}
    (h : (forceSpeed link (s.phy stdCtrl)).exec memHandler (s.forcedAdv link) = (.error e, s₂)) :
    (setupForced link mstrSlave).exec memHandler s = (.error e, s₂) := by
  have hctrl : (phyRead stdCtrl).exec memHandler (s.forcedAdv link) =
      (.ok (s.phy stdCtrl), s.forcedAdv link) := rfl
  rw [setupForced, if_neg (by simp [haccepts]), exec_bind_ok (exec_phyRead s stdAnAdv),
    exec_bind_ok (exec_phyWrite s stdAnAdv _)]
  change exec memHandler (phyRead stdCtrl >>= _) (s.forcedAdv link) = _
  rw [exec_bind_ok hctrl, exec_bind_error h]

/-- The control register of a speed up to 1 Gbps. -/
def forcedCtrl (link : Link) (bits ctrl : BitVec 16) : BitVec 16 :=
  if link.duplex = 1 then ctrl &&& (ctrlLb ||| ctrlIsol ||| ctrlPd) ||| bits ||| ctrlDplx
  else ctrl &&& (ctrlLb ||| ctrlIsol ||| ctrlPd) ||| bits

/-- A speed up to 1 Gbps is accepted if it has speed bits, and does not touch the PMA. -/
theorem setupForced_upTo1000 (haccepts : forcedAccepts link = true) (hle : link.speed ≤ 1000)
    {bits : BitVec 16} (hbits : forcedSpeedBits link.speed = some bits) :
    ∃ s', (setupForced link mstrSlave).exec memHandler s = (.ok (), s') ∧ s'.mmd = s.mmd ∧
      s'.phy stdCtrl = forcedCtrl link bits (s.phy stdCtrl) := by
  have hforce : (forceSpeed link (s.phy stdCtrl)).exec memHandler (s.forcedAdv link) =
      (.ok (), (s.forcedAdv link).setPhy stdCtrl (forcedCtrl link bits (s.phy stdCtrl))) := by
    simp only [forceSpeed, if_pos hle, forceUpTo1000, hbits]
    rfl
  exact ⟨_, exec_setupForced_ok haccepts hforce, rfl, rfl⟩

theorem setupForced_unknown (haccepts : forcedAccepts link = true) (hle : link.speed ≤ 1000)
    (hbits : forcedSpeedBits link.speed = none) :
    ∃ s', (setupForced link mstrSlave).exec memHandler s = (.error EINVAL, s') ∧
      s'.mmd = s.mmd := by
  have hforce : (forceSpeed link (s.phy stdCtrl)).exec memHandler (s.forcedAdv link) =
      (.error EINVAL, s.forcedAdv link) := by
    simp only [forceSpeed, if_pos hle, forceUpTo1000, hbits]
    rfl
  exact ⟨_, exec_setupForced_error haccepts hforce, rfl⟩

/-- A speed above 1 Gbps is always accepted, and is put in the PMA. -/
theorem setupForced_above1000 (haccepts : forcedAccepts link = true) (hgt : 1000 < link.speed) :
    ∃ s', (setupForced link mstrSlave).exec memHandler s = (.ok (), s') ∧
      s'.mmd .pmapmd pmaCtrl1 =
        (forcedPma link (s.mmd .pmapmd pmaCtrl1) (s.mmd .pmapmd pmaCtl2)).1 := by
  have hgt : ¬link.speed ≤ 1000 := Int.not_le.mpr hgt
  have hforce : ∃ s₂, (forceSpeed link (s.phy stdCtrl)).exec memHandler (s.forcedAdv link) =
      (.ok (), s₂) ∧ s₂.mmd .pmapmd pmaCtrl1 =
        (forcedPma link (s.mmd .pmapmd pmaCtrl1) (s.mmd .pmapmd pmaCtl2)).1 := by
    rw [forceSpeed, if_neg hgt, forceAbove1000, exec_bind_ok (exec_phyWrite _ _ _),
      exec_bind_ok (exec_phyReadMmd _ _ _), exec_bind_ok (exec_phyReadMmd _ _ _),
      exec_bind_ok (exec_phyWriteMmd _ _ _ _), exec_phyWriteMmd]
    refine ⟨_, rfl, ?_⟩
    simp [pmaCtrl1, pmaCtl2, Regs.forcedAdv, Regs.setPhy]
  obtain ⟨s₂, hexec, hpma⟩ := hforce
  exact ⟨_, exec_setupForced_ok haccepts hexec, hpma⟩

theorem setupForced_rejected (haccepts : forcedAccepts link = false) :
    (setupForced link mstrSlave).exec memHandler s = (.error EINVAL, s) := by
  rw [setupForced, if_pos (by simp [haccepts])]
  rfl

end Setup

/-! ## Speed bits -/

section Bits
variable {link : Link} {bits ctrl : BitVec 16}

/-- The PMA register of a forced speed, but for the speed selection. -/
def pmaBase (pma1 : BitVec 16) : BitVec 16 :=
  pma1 &&& ~~~0x3C &&& ~~~0x40 &&& ~~~0x2000 ||| 0x40 ||| 0x2000

/-- Both speed bits of the PMA are set whatever the register held. -/
theorem pmaSpeedIndex_pmaBase (pma1 : BitVec 16) {sel : BitVec 16} (hssl : pmaSsl.get sel = 0)
    (hssm : pmaSsm.get sel = 0) : pmaSpeedIndex (pmaBase pma1 ||| sel) = 3 := by
  have hone : pmaSsl.get (pmaBase pma1 ||| sel) = 1 := by
    unfold pmaBase
    rw [Field.get_or, Field.get_or, Field.get_or, Field.get_and_of_disjoint (by decide), hssl]
    decide
  have hother : pmaSsm.get (pmaBase pma1 ||| sel) = 1 := by
    unfold pmaBase
    rw [Field.get_or, Field.get_or, Field.get_or, Field.get_and_of_covers (by decide),
      Field.get_and_of_disjoint (by decide), hssm]
    decide
  rw [pmaSpeedIndex, hone, hother]
  decide

theorem pmaSpeedSel_pmaBase (pma1 sel : BitVec 16) :
    pmaSpeedSel.get (pmaBase pma1 ||| sel) = pmaSpeedSel.get sel := by
  have hnone : pmaSpeedSel.get (pmaBase pma1) = 0 := by
    unfold pmaBase
    rw [Field.get_or, Field.get_or, Field.get_and_of_covers (by decide),
      Field.get_and_of_covers (by decide), Field.get_and_of_disjoint (by decide)]
    decide
  rw [Field.get_or, hnone]
  exact BitVec.zero_or

theorem pmaSpeedIndex_forcedPma (pma1 pma2 : BitVec 16) :
    pmaSpeedIndex (forcedPma link pma1 pma2).1 = 3 := by
  unfold forcedPma
  split
  · exact pmaSpeedIndex_pmaBase pma1 (by decide) (by decide)
  · exact pmaSpeedIndex_pmaBase pma1 (by decide) (by decide)

theorem pmaSpeedSel_forcedPma (pma1 pma2 : BitVec 16) :
    pmaSpeedSel.get (forcedPma link pma1 pma2).1 =
      if link.supported.getLsbD LinkMode.t5000Full.bit ∧ link.speed = 5000 then 7 else 6 := by
  unfold forcedPma
  split
  · exact pmaSpeedSel_pmaBase pma1 (7 <<< 2)
  · exact pmaSpeedSel_pmaBase pma1 (6 <<< 2)

/-- The bits kept from the old control register are none of speed and duplex. -/
theorem stdSpeedIndex_forcedCtrl (link : Link) (bits ctrl : BitVec 16) :
    stdSpeedIndex (forcedCtrl link bits ctrl) = stdSpeedIndex bits := by
  have hfield : ∀ f : Field 16, f.mask &&& (ctrlLb ||| ctrlIsol ||| ctrlPd) = 0 →
      f.get ctrlDplx = 0 → f.get (forcedCtrl link bits ctrl) = f.get bits := by
    intro f hkept hdplx
    unfold forcedCtrl
    split
    · rw [Field.get_or, Field.get_or, Field.get_and_of_disjoint hkept, hdplx]
      simp
    · rw [Field.get_or, Field.get_and_of_disjoint hkept]
      simp
  rw [stdSpeedIndex, hfield stdSsl (by decide) (by decide), hfield stdSsm (by decide) (by decide)]
  rfl

theorem dplx_forcedCtrl (hbits : bits &&& ctrlDplx = 0) :
    forcedCtrl link bits ctrl &&& ctrlDplx ≠ 0 ↔ link.duplex = 1 := by
  have hnone : (ctrl &&& (ctrlLb ||| ctrlIsol ||| ctrlPd) ||| bits) &&& ctrlDplx = 0 := by
    rw [BitVec.and_or_distrib_right, BitVec.and_assoc, hbits]
    have hkept : (ctrlLb ||| ctrlIsol ||| ctrlPd) &&& ctrlDplx = 0 := by decide
    simp [hkept]
  unfold forcedCtrl
  by_cases hfull : link.duplex = 1
  · rw [if_pos hfull, BitVec.and_or_distrib_right, hnone]
    exact iff_of_true (by decide) hfull
  · rw [if_neg hfull, hnone]
    exact iff_of_false (by decide) hfull

end Bits

/-! ## The status after a call -/

section Status
variable {s : Regs} {link : LinkStatus}

theorem exec_readStatus_multigig (h : Multigig s) (hforced : link.autoneg = 0) :
    (gpy2xxReadStatus link).exec (handler memHandler) s =
      (.ok (withPmaSpeed (unknownStatus link (s.phy stdStat)) (s.mmd .pmapmd pmaCtrl1)), s) := by
  have h : pmaSpeedIndex (s.mmd .pmapmd pmaCtrl1) = 3 := h
  rw [gpy2xxReadStatus, exec_locked, readStatus, exec_bind_ok (exec_phyRead s stdStat), exec_ite,
    if_neg (not_not.mpr hforced), readForced, exec_bind_ok (exec_phyReadMmd s .pmapmd pmaCtrl1),
    exec_ite, if_pos h]
  rfl

theorem exec_readStatus_standard (h : ¬Multigig s) (hforced : link.autoneg = 0) :
    (gpy2xxReadStatus link).exec (handler memHandler) s =
      (.ok (withCtrlSpeed (unknownStatus link (s.phy stdStat)) (s.phy stdCtrl)), s) := by
  have h : ¬pmaSpeedIndex (s.mmd .pmapmd pmaCtrl1) = 3 := h
  rw [gpy2xxReadStatus, exec_locked, readStatus, exec_bind_ok (exec_phyRead s stdStat), exec_ite,
    if_neg (not_not.mpr hforced), readForced, exec_bind_ok (exec_phyReadMmd s .pmapmd pmaCtrl1),
    exec_ite, if_neg h]
  rfl

/-- The speed selection never tells a speed up to 1 Gbps. -/
theorem speed_withPmaSpeed (link : LinkStatus) (stat pma : BitVec 16) :
    (withPmaSpeed (unknownStatus link stat) pma).speed = -1 ∨
      1000 < (withPmaSpeed (unknownStatus link stat) pma).speed := by
  unfold withPmaSpeed
  split
  · exact .inr (show (1000 : Int) < 5000 by decide)
  · exact .inr (show (1000 : Int) < 2500 by decide)
  · exact .inl rfl

end Status

/-! ## The round trip of one call -/

section RoundTrip
variable {s : Regs} {link : LinkStatus} {mstrSlave : BitVec 8}

theorem forcedSpeedBits_some {speed : Int} {bits : BitVec 16} (h : forcedSpeedBits speed = some bits) :
    (speed = 10 ∨ speed = 100 ∨ speed = 1000) ∧ bits &&& ctrlDplx = 0 ∧
      (withCtrlSpeed link bits).speed = speed := by
  unfold forcedSpeedBits at h
  split_ifs at h with h₁ h₂ h₃
  · cases h
    exact ⟨.inl h₁, by decide, h₁.symm⟩
  · cases h
    exact ⟨.inr (.inl h₂), by decide, h₂.symm⟩
  · cases h
    exact ⟨.inr (.inr h₃), by decide, h₃.symm⟩

/-- A supported mode has one of the two duplex modes, and above 1 Gbps one of two speeds. -/
theorem modeSupported_values {l : Link} (h : ModeSupported l) :
    (l.duplex = 0 ∨ l.duplex = 1) ∧ (1000 < l.speed → l.speed = 2500 ∨
      l.speed = 5000 ∧ l.supported.getLsbD LinkMode.t5000Full.bit = true) := by
  obtain ⟨mode, hmode, hbit⟩ := h
  unfold forcedMode at hmode
  split at hmode <;> cases hmode <;> simp_all

theorem forcedRoundTrips_iff_of_exec {s' : Regs}
    (h : (setupForced { link.toLink with autoneg := 0 } mstrSlave).exec memHandler s = (.ok (), s')) :
    ForcedRoundTrips s link mstrSlave ↔ ModeSupported link.toLink ∧
      ∃ st, ((gpy2xxReadStatus { link with autoneg := 0 }).exec (handler memHandler) s').1 = .ok st ∧
        st.speed = link.speed ∧ st.duplex = link.duplex := by
  unfold ForcedRoundTrips
  rw [gpy2xxSetupForced, exec_locked, h]
  constructor
  · intro hround
    exact hround s' rfl
  · intro hround s₁ heq
    cases heq
    exact hround

theorem forcedRoundTrips_upTo1000 (haccepts : forcedAccepts link.toLink = true)
    (hle : link.speed ≤ 1000) {bits : BitVec 16} (hbits : forcedSpeedBits link.speed = some bits) :
    ForcedRoundTrips s link mstrSlave ↔ ModeSupported link.toLink ∧ ¬Multigig s := by
  obtain ⟨s', hexec, hmmd, hctrl⟩ :=
    @setupForced_upTo1000 s { link.toLink with autoneg := 0 } mstrSlave haccepts hle bits hbits
  obtain ⟨hspeeds, hdplx, hspeed⟩ := @forcedSpeedBits_some
    (unknownStatus { link with autoneg := 0 } (s'.phy stdStat)) _ _ hbits
  rw [forcedRoundTrips_iff_of_exec hexec]
  have hmultigig : Multigig s' ↔ Multigig s := by rw [Multigig, hmmd, Multigig]
  by_cases hm : Multigig s
  · -- the status looks at the PMA, and tells a speed above 1 Gbps or none
    rw [exec_readStatus_multigig (hmultigig.mpr hm) rfl]
    refine iff_of_false (fun h => ?_) fun h => h.2 hm
    obtain ⟨-, st, hst, hreport, -⟩ := h
    cases hst
    rcases speed_withPmaSpeed { link with autoneg := 0 } (s'.phy stdStat)
      (s'.mmd .pmapmd pmaCtrl1) with hnone | hfast
    · omega
    · omega
  · rw [exec_readStatus_standard (fun h => hm (hmultigig.mp h)) rfl, hctrl]
    refine ⟨fun h => ⟨h.1, hm⟩, fun h => ⟨h.1, _, rfl, ?_, ?_⟩⟩
    · rw [← hspeed, withCtrlSpeed, stdSpeedIndex_forcedCtrl]
      rfl
    · rw [withCtrlSpeed, ite_congr (propext (dplx_forcedCtrl hdplx)) (fun _ => rfl) fun _ => rfl]
      show (if link.duplex = 1 then (1 : Int) else 0) = link.duplex
      rcases (modeSupported_values h.1).1 with hhalf | hfull
      · have hhalf : link.duplex = 0 := hhalf
        simp [hhalf]
      · have hfull : link.duplex = 1 := hfull
        simp [hfull]

theorem forcedRoundTrips_above1000 (haccepts : forcedAccepts link.toLink = true)
    (hgt : 1000 < link.speed) : ForcedRoundTrips s link mstrSlave ↔ ModeSupported link.toLink := by
  obtain ⟨s', hexec, hpma⟩ :=
    @setupForced_above1000 s { link.toLink with autoneg := 0 } mstrSlave haccepts hgt
  rw [forcedRoundTrips_iff_of_exec hexec]
  have hmultigig : Multigig s' := by
    unfold Multigig
    rw [hpma]
    exact pmaSpeedIndex_forcedPma _ _
  rw [exec_readStatus_multigig hmultigig rfl]
  refine ⟨And.left, fun h => ⟨h, _, rfl, ?_⟩⟩
  have hfull : link.duplex = 1 := by
    have hduplex : decide (link.speed ≤ 100) || link.duplex == 1 := by
      simpa [forcedAccepts] using (Bool.and_eq_true_iff.mp haccepts).2
    have hfast : ¬link.speed ≤ 100 := by omega
    simpa [hfast] using hduplex
  have hsel := @pmaSpeedSel_forcedPma { link.toLink with autoneg := 0 } (s.mmd .pmapmd pmaCtrl1)
    (s.mmd .pmapmd pmaCtl2)
  rw [← hpma] at hsel
  unfold withPmaSpeed
  rcases (modeSupported_values h).2 hgt with h2500 | ⟨h5000, hbit⟩
  · have h2500 : link.speed = 2500 := h2500
    rw [if_neg (by simp [h2500])] at hsel
    rw [hsel]
    exact ⟨h2500.symm, hfull.symm⟩
  · have h5000 : link.speed = 5000 := h5000
    rw [if_pos ⟨hbit, h5000⟩] at hsel
    rw [hsel]
    exact ⟨h5000.symm, hfull.symm⟩

end RoundTrip

/-! ## Sequences of calls -/

section Sequence
variable {s : Regs}

/-- One call: it sets the speed bits of the PMA if it is accepted above 1 Gbps, and never clears
them. -/
theorem multigig_step (link : Link) (mstrSlave : BitVec 8) :
    Multigig ((gpy2xxSetupForced link mstrSlave).exec (handler memHandler) s).2 ↔
      Multigig s ∨ (forcedAccepts link = true ∧ 1000 < link.speed) := by
  have hsame : ∀ s' : Regs, s'.mmd = s.mmd → (Multigig s' ↔ Multigig s) := by
    intro s' hmmd
    rw [Multigig, hmmd, Multigig]
  rw [gpy2xxSetupForced, exec_locked]
  by_cases haccepts : forcedAccepts link = true
  · by_cases hle : link.speed ≤ 1000
    · have hslow : ¬1000 < link.speed := Int.not_lt.mpr hle
      cases hbits : forcedSpeedBits link.speed with
      | none =>
        obtain ⟨s', hexec, hmmd⟩ :=
          @setupForced_unknown s { link with autoneg := 0 } mstrSlave haccepts hle hbits
        simp [hexec, hsame s' hmmd, hslow]
      | some bits =>
        obtain ⟨s', hexec, hmmd, -⟩ :=
          @setupForced_upTo1000 s { link with autoneg := 0 } mstrSlave haccepts hle bits hbits
        simp [hexec, hsame s' hmmd, hslow]
    · have hgt : 1000 < link.speed := Int.not_le.mp hle
      obtain ⟨s', hexec, hpma⟩ :=
        @setupForced_above1000 s { link with autoneg := 0 } mstrSlave haccepts hgt
      have hset : Multigig s' := by
        unfold Multigig
        rw [hpma]
        exact pmaSpeedIndex_forcedPma _ _
      rw [hexec]
      exact iff_of_true hset (.inr ⟨haccepts, hgt⟩)
  · have hrejected : forcedAccepts { link with autoneg := 0 } = false :=
      (Bool.not_eq_true (forcedAccepts link)).mp haccepts
    rw [setupForced_rejected hrejected]
    simp [haccepts]

/-- A sequence of calls. -/
theorem multigig_afterForced (cs : List (Link × BitVec 8)) :
    Multigig (afterForced s cs) ↔
      Multigig s ∨ ∃ c ∈ cs, forcedAccepts c.1 = true ∧ 1000 < c.1.speed := by
  induction cs generalizing s with
  | nil => simp [afterForced]
  | cons c cs ih =>
    calc Multigig (afterForced s (c :: cs))
        ↔ Multigig ((gpy2xxSetupForced c.1 c.2).exec (handler memHandler) s).2 ∨
          ∃ c ∈ cs, forcedAccepts c.1 = true ∧ 1000 < c.1.speed := ih
      _ ↔ _ := by
        rw [multigig_step, or_assoc]
        simp

/-- The round trip of a forced speed, after any calls that forced one: a call is rejected, or its
speed and duplex come back exactly when they are those of a supported mode and, up to 1 Gbps, no
speed above has ever been forced. -/
theorem forced_round_trip_iff (s : Regs) (cs : List (Link × BitVec 8)) (link : LinkStatus)
    (mstrSlave : BitVec 8) :
    ForcedRoundTrips (afterForced s cs) link mstrSlave ↔
      (forcedProgrammed link.toLink = true → ModeSupported link.toLink ∧ (link.speed ≤ 1000 →
        ¬Multigig s ∧ ∀ c ∈ cs, forcedAccepts c.1 = true → c.1.speed ≤ 1000)) := by
  have hhistory : ¬Multigig (afterForced s cs) ↔
      ¬Multigig s ∧ ∀ c ∈ cs, forcedAccepts c.1 = true → c.1.speed ≤ 1000 := by
    rw [multigig_afterForced]
    simp
  rw [← hhistory]
  by_cases haccepts : forcedAccepts link.toLink = true
  · by_cases hle : link.speed ≤ 1000
    · cases hbits : forcedSpeedBits link.speed with
      | none =>
        have hnot : forcedProgrammed link.toLink = false := by
          simp [forcedProgrammed, hbits, hle]
        refine iff_of_true (fun s' h => ?_) fun h => by simp [hnot] at h
        obtain ⟨s₁, hexec, -⟩ := @setupForced_unknown (afterForced s cs)
          { link.toLink with autoneg := 0 } mstrSlave haccepts hle hbits
        rw [gpy2xxSetupForced, exec_locked, hexec] at h
        cases h
      | some bits =>
        have hprogrammed : forcedProgrammed link.toLink = true := by
          simp [forcedProgrammed, hbits, haccepts]
        rw [forcedRoundTrips_upTo1000 haccepts hle hbits]
        simp [hprogrammed, hle]
    · have hgt : 1000 < link.speed := Int.not_le.mp hle
      have hprogrammed : forcedProgrammed link.toLink = true := by
        simp [forcedProgrammed, hgt, haccepts]
      rw [forcedRoundTrips_above1000 haccepts hgt]
      simp [hprogrammed, hle]
  · have hnot : forcedProgrammed link.toLink = false := by simp [forcedProgrammed, haccepts]
    refine iff_of_true (fun s' h => ?_) fun h => by simp [hnot] at h
    have hrejected : forcedAccepts { link.toLink with autoneg := 0 } = false :=
      (Bool.not_eq_true (forcedAccepts link.toLink)).mp haccepts
    rw [gpy2xxSetupForced, exec_locked, setupForced_rejected hrejected] at h
    cases h

end Sequence

/-- Full duplex at `speed`, on a device that supports every mode. -/
def fullDuplex (speed : Int) : LinkStatus := ⟨⟨speed, 1, 0, 0, -1, 0, 0⟩, 0, 0, 0⟩

/-- 2.5 Gbps, and then 1 Gbps: the status still tells 2.5 Gbps. -/
theorem not_forcedRoundTrips_1000 :
    ¬ForcedRoundTrips (afterForced (zeroRegs true) [((fullDuplex 2500).toLink, 0)]) (fullDuplex 1000)
      0 := by
  intro h
  have hnever := ((forcedRoundTrips_upTo1000 rfl (by decide) rfl).mp h).2
  exact hnever ((multigig_afterForced _).mpr (.inr ⟨_, List.mem_cons_self, rfl, by decide⟩))

end Gpy2xx
