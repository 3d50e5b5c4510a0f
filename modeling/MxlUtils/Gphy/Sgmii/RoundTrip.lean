import MxlUtils.Gphy.Sgmii.Control

/- An SGMII configuration, and the status that is read after it. Registers are
   memory here. `sgmiiConfigured` is what a configuration leaves in the control
   register and `Decodes` what the status makes of a control register; the round
   trip compares the two, and holds exactly for the configurations that
   `SgmiiFaithful` admits on the register they meet. -/
namespace Gpy2xx
open Effect Effect.Fallible Effect.Lock Bits

/-! ## The control register after a configuration -/

def sgmiiConfigured (sgmii : Sgmii) (ctrl : BitVec 16) : BitVec 16 :=
  let ctrl := withLinkcfgdir sgmii.linkcfgDir ctrl
  if sgmii.link.autoneg = 0 then sgmiiForced sgmii ctrl
  else if ctrl &&& sgmiiAdvMask ≠ sgmiiAdvSet sgmii then sgmiiRestarted (withAdvert sgmii ctrl)
  else if sgmiiAnrs.get ctrl ≠ 1 then sgmiiRestarted ctrl
  else ctrl

/-- The registers with another control register. -/
def Regs.setSgmiiCtrl (s : Regs) (v : BitVec 16) : Regs :=
  { s with mmd := Function.update s.mmd .vend1 (Function.update (s.mmd .vend1) sgmiiCtrl v) }

section Memory
variable {s : Regs} {link : Link} {sgmii : Sgmii} {v w ctrl : BitVec 16}

@[simp] theorem sgmiiCtrl_setSgmiiCtrl : (s.setSgmiiCtrl v).mmd .vend1 sgmiiCtrl = v := by
  simp [Regs.setSgmiiCtrl]

@[simp] theorem setSgmiiCtrl_setSgmiiCtrl : (s.setSgmiiCtrl v).setSgmiiCtrl w = s.setSgmiiCtrl w := by
  simp [Regs.setSgmiiCtrl]

@[simp] theorem setSgmiiCtrl_self : s.setSgmiiCtrl (s.mmd .vend1 sgmiiCtrl) = s := by
  simp [Regs.setSgmiiCtrl]

theorem exec_updateSgmiiCtrl (f : BitVec 16 → BitVec 16) :
    (updateSgmiiCtrl f).exec memHandler s = (.ok (), s.setSgmiiCtrl (f (s.mmd .vend1 sgmiiCtrl))) := by
  unfold updateSgmiiCtrl
  rw [exec_bind_ok (exec_phyReadMmd s .vend1 sgmiiCtrl)]
  rfl

theorem exec_sgmiiRestartAneg : (sgmiiRestartAneg link).exec memHandler s =
    (.ok { link with autoneg := 1 }, s.setSgmiiCtrl (sgmiiRestarted (s.mmd .vend1 sgmiiCtrl))) := by
  unfold sgmiiRestartAneg
  rw [exec_bind_ok (exec_updateSgmiiCtrl sgmiiRestarted)]
  rfl

theorem exec_sgmiiForce : (sgmiiForce link sgmii).exec memHandler s =
    (.ok link, s.setSgmiiCtrl (sgmiiForced sgmii (s.mmd .vend1 sgmiiCtrl))) := by
  unfold sgmiiForce sgmiiSetupForced
  rw [exec_bind_ok (exec_updateSgmiiCtrl (sgmiiForced sgmii))]
  rfl

theorem exec_sgmiiNegotiate : ∃ link', (sgmiiNegotiate link sgmii).exec memHandler s =
    (.ok link', s.setSgmiiCtrl (
      if s.mmd .vend1 sgmiiCtrl &&& sgmiiAdvMask ≠ sgmiiAdvSet sgmii then
        sgmiiRestarted (withAdvert sgmii (s.mmd .vend1 sgmiiCtrl))
      else if sgmiiAnrs.get (s.mmd .vend1 sgmiiCtrl) ≠ 1 then
        sgmiiRestarted (s.mmd .vend1 sgmiiCtrl)
      else s.mmd .vend1 sgmiiCtrl)) := by
  unfold sgmiiNegotiate sgmiiRestartUnlessPending
  by_cases hsame : s.mmd .vend1 sgmiiCtrl &&& sgmiiAdvMask = sgmiiAdvSet sgmii
  · have hadvert : (sgmiiConfigAdvert sgmii).exec memHandler s = (.ok false, s) := by
      simp [sgmiiConfigAdvert, exec_bind, hsame]
    rw [exec_bind_ok hadvert]
    by_cases hpending : sgmiiAnrs.get (s.mmd .vend1 sgmiiCtrl) = 1#16
    · exact ⟨link, by simp [exec_bind, hsame, hpending]⟩
    · exact ⟨{ link with autoneg := 1 },
        by simp [exec_bind, hsame, hpending, exec_sgmiiRestartAneg]⟩
  · have hadvert : (sgmiiConfigAdvert sgmii).exec memHandler s =
        (.ok true, s.setSgmiiCtrl (withAdvert sgmii (s.mmd .vend1 sgmiiCtrl))) := by
      unfold sgmiiConfigAdvert
      rw [exec_bind_ok (exec_phyReadMmd s .vend1 sgmiiCtrl), exec_ite, if_neg hsame]
      rfl
    rw [exec_bind_ok hadvert]
    exact ⟨{ link with autoneg := 1 }, by simp [exec_sgmiiRestartAneg, hsame]⟩

theorem exec_sgmiiConfigAneg : ∃ link', (sgmiiConfigAneg link sgmii).exec memHandler s =
    (.ok link', s.setSgmiiCtrl (sgmiiConfigured sgmii (s.mmd .vend1 sgmiiCtrl))) := by
  unfold sgmiiConfigAneg sgmiiConfigured
  rw [sgmiiLinkcfgdirSet, exec_bind_ok (exec_updateSgmiiCtrl (withLinkcfgdir sgmii.linkcfgDir)),
    exec_ite]
  by_cases hforce : sgmii.link.autoneg = 0
  · exact ⟨link, by simp [hforce, exec_sgmiiForce]⟩
  · obtain ⟨link', hexec⟩ := @exec_sgmiiNegotiate
      (s.setSgmiiCtrl (withLinkcfgdir sgmii.linkcfgDir (s.mmd .vend1 sgmiiCtrl))) link sgmii
    exact ⟨link', by simpa [hforce] using hexec⟩

end Memory

/-! ## Fields of the configured register -/

section Fields
variable {f : Field 16} {cfg : Sgmii} {ctrl : BitVec 16} {dir : LinkcfgDir} {link : LinkStatus}

theorem cfgdir_withLinkcfgdir :
    sgmiiCfgdir.get (withLinkcfgdir dir ctrl) = if dir = .sgmii then 1 else 0 := by
  unfold withLinkcfgdir
  split
  · exact Field.get_replace_bit (by decide) (by decide)
  · exact Field.get_replace_bit (by decide) (by decide)

theorem get_withForcedSpeed (hssm : f.mask &&& sgmiiSsm.mask = 0#16)
    (hssl : f.mask &&& sgmiiSsl.mask = 0#16) (hdplx : f.mask &&& sgmiiDplx.mask = 0#16) :
    f.get (withForcedSpeed link ctrl) = f.get ctrl :=
  get_replaceFields_of_apart (by simp [hssm, hssl, hdplx])

theorem cfgdir_sgmiiForced (cfg : Sgmii) (ctrl : BitVec 16) :
    sgmiiCfgdir.get (sgmiiForced cfg ctrl) = sgmiiCfgdir.get ctrl := by
  have hoff : sgmiiCfgdir.get (sgmiiAnen.replace ctrl 0) = sgmiiCfgdir.get ctrl :=
    Field.get_replace_of_disjoint (by decide)
  unfold sgmiiForced
  rw [Field.get_replace_of_disjoint (by decide)]
  split
  · rw [get_withForcedSpeed (by decide) (by decide) (by decide), hoff]
  · exact hoff

theorem anen_sgmiiForced (cfg : Sgmii) (ctrl : BitVec 16) :
    sgmiiAnen.get (sgmiiForced cfg ctrl) = 0 := by
  have hoff : sgmiiAnen.get (sgmiiAnen.replace ctrl 0) = 0 :=
    Field.get_replace_bit (by decide) (by decide)
  unfold sgmiiForced
  rw [Field.get_replace_of_disjoint (by decide)]
  split
  · rw [get_withForcedSpeed (by decide) (by decide) (by decide), hoff]
  · exact hoff

theorem fixed2g5_sgmiiForced :
    sgmiiFixed2g5.get (sgmiiForced cfg ctrl) = .ofInt 16 cfg.link.fixed2g5 &&& 1 :=
  Field.get_replace_low (show sgmiiFixed2g5.Spans 1 by decide)

theorem sgmiiSpeedBits_lt (speed : Int) :
    (sgmiiSpeedBits speed).1.toNat < 2 ∧ (sgmiiSpeedBits speed).2.toNat < 2 := by
  unfold sgmiiSpeedBits
  split_ifs <;> decide

theorem forcedIndex_withForcedSpeed (link : LinkStatus) (ctrl : BitVec 16) :
    sgmiiForcedIndex (withForcedSpeed link ctrl) =
    (sgmiiSpeedBits link.speed).2 ||| (sgmiiSpeedBits link.speed).1 <<< 1 := by
  have hbits := sgmiiSpeedBits_lt link.speed
  have hssm : sgmiiSsm.get (withForcedSpeed link ctrl) = (sgmiiSpeedBits link.speed).1 :=
    get_replaceFields_bit (by decide) hbits.1 (by simp; decide)
  have hssl : sgmiiSsl.get (withForcedSpeed link ctrl) = (sgmiiSpeedBits link.speed).2 :=
    get_replaceFields_skip fun _ =>
      get_replaceFields_bit (by decide) hbits.2 (by simp; decide)
  rw [sgmiiForcedIndex, hssm, hssl]

theorem dplx_withForcedSpeed :
    sgmiiDplx.get (withForcedSpeed link ctrl) = if link.duplex = 1 then 1 else 0 := by
  refine get_replaceFields_skip fun _ => get_replaceFields_skip fun _ =>
    get_replaceFields_bit (by decide) ?_ (by simp)
  split <;> decide

theorem get_sgmiiRestarted (hanen : f.mask &&& sgmiiAnen.mask = 0#16)
    (hanrs : f.mask &&& sgmiiAnrs.mask = 0#16) : f.get (sgmiiRestarted ctrl) = f.get ctrl :=
  get_replaceFields_of_apart (by simp [hanen, hanrs])

theorem anmode_lt (mode : SgmiiAnegMode) : mode.anmode.toNat < 2 ^ 2 := by
  cases mode <;> simp [SgmiiAnegMode.anmode]

theorem anmode_sgmiiAdvSet : sgmiiAnmode.get (sgmiiAdvSet cfg) = cfg.anegMode.anmode :=
  get_replaceFields_cons (by decide) (anmode_lt cfg.anegMode) (by simp; decide)

theorem eeeCap_sgmiiAdvSet :
    sgmiiEeeCap.get (sgmiiAdvSet cfg) = if cfg.eeeEnable ≠ 0 then 1 else 0 := by
  refine get_replaceFields_skip fun _ => get_replaceFields_bit (by decide) ?_ (by simp)
  split <;> decide

/-- The advertised values lie under their mask. -/
theorem sgmiiAdvSet_and_advMask (cfg : Sgmii) : sgmiiAdvSet cfg &&& sgmiiAdvMask = sgmiiAdvSet cfg := by
  refine replaceFields_and (by decide) ?_
  simp
  decide

end Fields

/-! ## The status -/

/-- What the status makes of the control register. -/
structure Decodes (ctrl : BitVec 16) (st : Sgmii) : Prop where
  dir : st.linkcfgDir = if sgmiiCfgdir.get ctrl = 0 then .tpi else .sgmii
  mode : st.anegMode = sgmiiMode (sgmiiAnmode.get ctrl)
  eee : st.eeeEnable = reportedEee st.anegMode ctrl
  autoneg : st.link.autoneg = if sgmiiAnen.get ctrl = 0 then 0 else 1
  fixed2g5 : st.link.fixed2g5 = (sgmiiFixed2g5.get ctrl).toNat
  speed : sgmiiAnen.get ctrl = 0 → sgmiiCfgdir.get ctrl ≠ 0 →
    st.link.speed = sgmiiSpeed (sgmiiForcedIndex ctrl)
  duplex : sgmiiAnen.get ctrl = 0 → sgmiiCfgdir.get ctrl ≠ 0 →
    st.link.duplex = if sgmiiDplx.get ctrl = 0 then 0 else 1

/-- The speed, however it is found, changes nothing else that was decoded. -/
theorem exec_sgmiiReadSpeed (s : Regs) (sgmii : Sgmii) (ctrl stat : BitVec 16) :
    ∃ link, (sgmiiReadSpeed sgmii ctrl stat).exec memHandler s = (.ok link, s) ∧
      link.autoneg = sgmii.link.autoneg ∧ link.fixed2g5 = sgmii.link.fixed2g5 ∧
      (sgmii.link.autoneg = 0 → sgmii.linkcfgDir ≠ .tpi →
        link.speed = sgmiiSpeed (sgmiiForcedIndex ctrl) ∧
        link.duplex = if sgmiiDplx.get ctrl = 0 then 0 else 1) := by
  unfold sgmiiReadSpeed
  by_cases hauto : sgmii.link.autoneg = 0
  · by_cases htpi : sgmii.linkcfgDir = .tpi
    · rw [if_neg (not_not.mpr hauto), if_pos htpi, exec_bind_ok (exec_phyRead s phyMiistat)]
      exact ⟨_, rfl, rfl, rfl, fun _ h => absurd htpi h⟩
    · rw [if_neg (not_not.mpr hauto), if_neg htpi]
      exact ⟨_, rfl, rfl, rfl, fun _ _ => ⟨rfl, rfl⟩⟩
  · rw [if_pos hauto]
    exact ⟨_, rfl, rfl, rfl, fun h => absurd h hauto⟩

theorem exec_sgmiiReadStatus (s : Regs) (supported : BitVec 64) (sgmii : Sgmii) :
    ∃ st supported', (gpy2xxSgmiiReadStatus supported sgmii).exec (handler memHandler) s =
      (.ok (st, supported'), s) ∧ Decodes (s.mmd .vend1 sgmiiCtrl) st := by
  have hspeed := exec_sgmiiReadSpeed s
    (sgmiiDecoded sgmii (s.mmd .vend1 sgmiiCtrl) (s.mmd .vend1 sgmiiStat))
    (s.mmd .vend1 sgmiiCtrl) (s.mmd .vend1 sgmiiStat)
  obtain ⟨link, hexec, hauto, hfixed, hforced⟩ := hspeed
  have hread : (sgmiiReadStatus supported sgmii).exec memHandler s =
      (.ok ({ sgmiiDecoded sgmii (s.mmd .vend1 sgmiiCtrl) (s.mmd .vend1 sgmiiStat) with link := link },
        if sgmiiAnab.get (s.mmd .vend1 sgmiiStat) = 1 then supported ||| supportedAutoneg
        else supported), s) := by
    unfold sgmiiReadStatus
    rw [exec_bind_ok (exec_phyReadMmd s .vend1 sgmiiCtrl),
      exec_bind_ok (exec_phyReadMmd s .vend1 sgmiiStat), exec_bind_ok hexec]
    rfl
  have hoff : sgmiiAnen.get (s.mmd .vend1 sgmiiCtrl) = 0 →
      sgmiiCfgdir.get (s.mmd .vend1 sgmiiCtrl) ≠ 0 →
      link.speed = sgmiiSpeed (sgmiiForcedIndex (s.mmd .vend1 sgmiiCtrl)) ∧
      link.duplex = if sgmiiDplx.get (s.mmd .vend1 sgmiiCtrl) = 0 then 0 else 1 :=
    fun hanen hdir => hforced (if_pos hanen) (by simpa [sgmiiDecoded] using hdir)
  refine ⟨_, _, (exec_locked memHandler _ s).trans hread, ?_⟩
  exact ⟨rfl, rfl, rfl, hauto, hfixed, fun ha hd => (hoff ha hd).1, fun ha hd => (hoff ha hd).2⟩

/-! ## The round trip -/

/-- The status reports the configuration: the direction and the negotiation flag, the forced
settings where the SGMII side has its own, and the negotiated ones. -/
structure SgmiiReports (cfg st : Sgmii) : Prop where
  dir : st.linkcfgDir = cfg.linkcfgDir
  autoneg : st.link.autoneg = 0 ↔ cfg.link.autoneg = 0
  forced : cfg.link.autoneg = 0 → cfg.linkcfgDir = .sgmii → st.link.speed = cfg.link.speed ∧
    st.link.duplex = cfg.link.duplex ∧ st.link.fixed2g5 = cfg.link.fixed2g5
  negotiated : cfg.link.autoneg ≠ 0 → st.anegMode = cfg.anegMode ∧ st.eeeEnable = cfg.eeeEnable

/-- The speeds an SGMII side can be forced to. -/
def sgmiiSpeeds : List Int := [10, 100, 1000, 2500]

/-- An accepted configuration is reported by the status that is read after it, and the speed it
forces is one of the four. -/
def SgmiiRoundTrips (s : Regs) (link : Link) (cfg before : Sgmii) (supported : BitVec 64) : Prop :=
  ∀ link' s', (gpy2xxSgmiiConfigAneg link cfg).exec (handler memHandler) s = (.ok link', s') →
    (∃ st supported', ((gpy2xxSgmiiReadStatus supported before).exec (handler memHandler) s').1 =
      .ok (st, supported') ∧ SgmiiReports cfg st) ∧
    (cfg.link.autoneg = 0 → cfg.linkcfgDir = .sgmii → cfg.link.speed ∈ sgmiiSpeeds)

/-- Forced settings that have a representation of their own. -/
def ForcedExactly (link : LinkStatus) : Prop :=
  link.speed ∈ sgmiiSpeeds ∧ (link.duplex = 0 ∨ link.duplex = 1) ∧
    (link.fixed2g5 = 0 ∨ link.fixed2g5 = 1)

/-- The configurations that come back, on a control register `ctrl`. A negotiated one must not ask
for energy-efficient Ethernet in another mode than the one the status looks at, and must not meet a
pending restart with negotiation off and nothing left to change. -/
def SgmiiFaithful (ctrl : BitVec 16) (cfg : Sgmii) : Prop :=
  if cfg.link.autoneg = 0 then cfg.linkcfgDir = .sgmii → ForcedExactly cfg.link
  else (cfg.eeeEnable = 0 ∨ cfg.eeeEnable = 1 ∧ cfg.anegMode = .ciscoPhy) ∧
    (ctrl &&& sgmiiAdvMask = sgmiiAdvSet cfg → sgmiiAnrs.get ctrl = 1 → sgmiiAnen.get ctrl ≠ 0)

section RoundTrip
variable {cfg st : Sgmii} {ctrl : BitVec 16}

theorem sgmiiSpeed_speedBits (speed : Int) :
    sgmiiSpeed ((sgmiiSpeedBits speed).2 ||| (sgmiiSpeedBits speed).1 <<< 1) =
      if speed = 2500 then 2500 else if speed = 100 then 100 else if speed = 10 then 10 else 1000 := by
  unfold sgmiiSpeedBits
  split_ifs <;> rfl

theorem speed_reported_iff (speed : Int) :
    sgmiiSpeed ((sgmiiSpeedBits speed).2 ||| (sgmiiSpeedBits speed).1 <<< 1) = speed ↔
      speed ∈ sgmiiSpeeds := by
  rw [sgmiiSpeed_speedBits]
  simp only [sgmiiSpeeds, List.mem_cons, List.not_mem_nil, or_false]
  split_ifs <;> omega

theorem fixed2g5_reported_iff (x : Int) :
    (((BitVec.ofInt 16 x &&& 1).toNat : Nat) : Int) = x ↔ x = 0 ∨ x = 1 := by
  have hbit : ((BitVec.ofInt 16 x &&& 1).toNat : Int) = x % 2 := by
    rw [BitVec.toNat_and, BitVec.toNat_ofInt]
    show (((x % (2 ^ 16 : Nat)).toNat &&& 1 : Nat) : Int) = x % 2
    rw [Nat.and_one_is_mod]
    omega
  rw [hbit]
  omega

theorem duplex_reported_iff (x : Int) :
    (if (if x = 1 then 1 else 0 : BitVec 16) = 0 then (0 : Int) else 1) = x ↔ x = 0 ∨ x = 1 := by
  by_cases hx : x = 1
  · simp [hx]
  · simp only [hx, if_false, if_true, or_false]
    exact eq_comm

theorem sgmiiMode_anmode {mode : SgmiiAnegMode} (h : mode.named = true) :
    sgmiiMode mode.anmode = mode := by
  cases mode with
  | other v => cases h
  | _ => rfl

theorem dir_reported {dir : LinkcfgDir} (h : dir.named = true) :
    (if (if dir = .sgmii then 1 else 0 : BitVec 16) = 0 then LinkcfgDir.tpi else .sgmii) = dir := by
  cases dir with
  | other v => cases h
  | _ => rfl

/-- The fields a forced configuration is read from. -/
theorem reports_forced_iff (hforce : cfg.link.autoneg = 0) (hdir : cfg.linkcfgDir.named = true)
    (h : Decodes (sgmiiConfigured cfg ctrl) st) :
    SgmiiReports cfg st ↔ (cfg.linkcfgDir = .sgmii → ForcedExactly cfg.link) := by
  have hconf : sgmiiConfigured cfg ctrl = sgmiiForced cfg (withLinkcfgdir cfg.linkcfgDir ctrl) :=
    if_pos hforce
  rw [hconf] at h
  have hoff := anen_sgmiiForced cfg (withLinkcfgdir cfg.linkcfgDir ctrl)
  have hcfgdir := cfgdir_sgmiiForced cfg (withLinkcfgdir cfg.linkcfgDir ctrl)
  rw [cfgdir_withLinkcfgdir] at hcfgdir
  have hstdir : st.linkcfgDir = cfg.linkcfgDir := by rw [h.dir, hcfgdir, dir_reported hdir]
  have hauto : st.link.autoneg = 0 := by rw [h.autoneg, if_pos hoff]
  have hvalues : cfg.linkcfgDir = .sgmii →
      ((st.link.speed = cfg.link.speed ∧ st.link.duplex = cfg.link.duplex ∧
        st.link.fixed2g5 = cfg.link.fixed2g5) ↔ ForcedExactly cfg.link) := by
    intro hsgmii
    have hfield : sgmiiCfgdir.get (sgmiiForced cfg (withLinkcfgdir cfg.linkcfgDir ctrl)) ≠ 0 := by
      rw [hcfgdir, if_pos hsgmii]
      decide
    have hbits : ∀ f : Field 16, f.mask &&& sgmiiFixed2g5.mask = 0#16 →
        f.get (sgmiiForced cfg (withLinkcfgdir cfg.linkcfgDir ctrl)) =
          f.get (withForcedSpeed cfg.link
            (sgmiiAnen.replace (withLinkcfgdir cfg.linkcfgDir ctrl) 0)) := by
      intro f hf
      unfold sgmiiForced
      rw [Field.get_replace_of_disjoint hf, if_pos (by rw [hsgmii]; decide)]
    have hindex := forcedIndex_withForcedSpeed cfg.link
      (sgmiiAnen.replace (withLinkcfgdir cfg.linkcfgDir ctrl) 0)
    unfold sgmiiForcedIndex at hindex
    rw [h.speed hoff hfield, h.duplex hoff hfield, h.fixed2g5, fixed2g5_sgmiiForced,
      fixed2g5_reported_iff, sgmiiForcedIndex, hbits sgmiiSsl (by decide),
      hbits sgmiiSsm (by decide), hbits sgmiiDplx (by decide), hindex, speed_reported_iff,
      dplx_withForcedSpeed, duplex_reported_iff]
    rfl
  refine ⟨fun hrep hsgmii => (hvalues hsgmii).mp (hrep.forced hforce hsgmii), fun hexact => ?_⟩
  exact ⟨hstdir, iff_of_true hauto hforce, fun _ hsgmii => (hvalues hsgmii).mpr (hexact hsgmii),
    fun hne => absurd hforce hne⟩

/-- What negotiation leaves in the advertised fields, and when it leaves negotiation off. -/
theorem negotiated_fields (hauto : cfg.link.autoneg ≠ 0) :
    sgmiiAnmode.get (sgmiiConfigured cfg ctrl) = cfg.anegMode.anmode ∧
    sgmiiEeeCap.get (sgmiiConfigured cfg ctrl) = (if cfg.eeeEnable ≠ 0 then 1 else 0) ∧
    sgmiiCfgdir.get (sgmiiConfigured cfg ctrl) = (if cfg.linkcfgDir = .sgmii then 1 else 0) ∧
    (sgmiiAnen.get (sgmiiConfigured cfg ctrl) ≠ 0 ↔
      (ctrl &&& sgmiiAdvMask = sgmiiAdvSet cfg → sgmiiAnrs.get ctrl = 1 → sgmiiAnen.get ctrl ≠ 0)) := by
  have hone : (1 : BitVec 16) ≠ 0 := by decide
  have hkeep : ∀ f : Field 16, f.mask &&& sgmiiAdvMask = f.mask →
      withLinkcfgdir cfg.linkcfgDir ctrl &&& sgmiiAdvMask = sgmiiAdvSet cfg →
      f.get (withLinkcfgdir cfg.linkcfgDir ctrl) = f.get (sgmiiAdvSet cfg) := by
    intro f hf hsame
    rw [← hsame, Field.get_and_of_covers hf]
  rw [← withLinkcfgdir_and_advMask cfg.linkcfgDir ctrl]
  rw [← get_withLinkcfgdir (f := sgmiiAnrs) (c := ctrl) (d := cfg.linkcfgDir) (by decide)]
  rw [← get_withLinkcfgdir (f := sgmiiAnen) (c := ctrl) (d := cfg.linkcfgDir) (by decide)]
  unfold sgmiiConfigured
  rw [if_neg hauto]
  by_cases hsame : withLinkcfgdir cfg.linkcfgDir ctrl &&& sgmiiAdvMask = sgmiiAdvSet cfg
  · rw [if_neg (not_not.mpr hsame)]
    by_cases hpending : sgmiiAnrs.get (withLinkcfgdir cfg.linkcfgDir ctrl) = 1
    · -- nothing is written: the enable bit stays as it was
      rw [if_neg (not_not.mpr hpending), hkeep sgmiiAnmode (by decide) hsame,
        hkeep sgmiiEeeCap (by decide) hsame]
      exact ⟨anmode_sgmiiAdvSet, eeeCap_sgmiiAdvSet, cfgdir_withLinkcfgdir,
        ⟨fun h _ _ => h, fun h => h hsame hpending⟩⟩
    · rw [if_pos hpending, get_sgmiiRestarted (by decide) (by decide),
        get_sgmiiRestarted (by decide) (by decide), get_sgmiiRestarted (by decide) (by decide),
        hkeep sgmiiAnmode (by decide) hsame, hkeep sgmiiEeeCap (by decide) hsame,
        anen_sgmiiRestarted]
      exact ⟨anmode_sgmiiAdvSet, eeeCap_sgmiiAdvSet, cfgdir_withLinkcfgdir,
        ⟨fun _ _ h => absurd h hpending, fun _ => hone⟩⟩
  · rw [if_pos hsame, get_sgmiiRestarted (by decide) (by decide),
      get_sgmiiRestarted (by decide) (by decide), get_sgmiiRestarted (by decide) (by decide),
      anen_sgmiiRestarted]
    unfold withAdvert
    rw [Field.get_merge_of_covers (by decide), Field.get_merge_of_covers (by decide),
      Field.get_merge_of_disjoint (by decide) (sgmiiAdvSet_and_advMask cfg)]
    exact ⟨anmode_sgmiiAdvSet, eeeCap_sgmiiAdvSet, cfgdir_withLinkcfgdir,
      ⟨fun _ h => absurd h hsame, fun _ => hone⟩⟩

theorem eee_reported_iff (eee : Int) (mode : SgmiiAnegMode) {v : BitVec 16}
    (h : sgmiiEeeCap.get v = if eee ≠ 0 then 1 else 0) :
    reportedEee mode v = eee ↔ eee = 0 ∨ eee = 1 ∧ mode = .ciscoPhy := by
  unfold reportedEee
  rw [h]
  by_cases hmode : mode = .ciscoPhy
  · by_cases heee : eee = 0
    · simp [heee]
    · simp [heee, hmode, eq_comm]
  · simp [hmode, eq_comm]

theorem reports_negotiated_iff (hauto : cfg.link.autoneg ≠ 0) (hacc : sgmiiAccepts cfg = true)
    (h : Decodes (sgmiiConfigured cfg ctrl) st) :
    SgmiiReports cfg st ↔ SgmiiFaithful ctrl cfg := by
  obtain ⟨hdirnamed, hmodenamed⟩ := Bool.and_eq_true_iff.mp hacc
  obtain ⟨hmode, heee, hdir, hanen⟩ := @negotiated_fields cfg ctrl hauto
  have hstdir : st.linkcfgDir = cfg.linkcfgDir := by rw [h.dir, hdir, dir_reported hdirnamed]
  have hstmode : st.anegMode = cfg.anegMode := by rw [h.mode, hmode, sgmiiMode_anmode hmodenamed]
  have hsteee : st.eeeEnable = cfg.eeeEnable ↔
      cfg.eeeEnable = 0 ∨ cfg.eeeEnable = 1 ∧ cfg.anegMode = .ciscoPhy := by
    rw [h.eee, hstmode]
    exact eee_reported_iff cfg.eeeEnable cfg.anegMode heee
  have hstauto : (st.link.autoneg = 0 ↔ cfg.link.autoneg = 0) ↔
      sgmiiAnen.get (sgmiiConfigured cfg ctrl) ≠ 0 := by
    rw [h.autoneg]
    by_cases hoff : sgmiiAnen.get (sgmiiConfigured cfg ctrl) = 0
    · simp [hoff, hauto]
    · rw [if_neg hoff]
      exact iff_of_true (iff_of_false (by decide) hauto) hoff
  rw [SgmiiFaithful, if_neg hauto, ← hsteee, ← hanen, ← hstauto]
  refine ⟨fun hrep => ⟨(hrep.negotiated hauto).2, hrep.autoneg⟩, fun hboth => ?_⟩
  exact ⟨hstdir, hboth.2, fun hforce => absurd hforce hauto, fun _ => ⟨hstmode, hboth.1⟩⟩

/-- The SGMII round trip: a configuration is rejected, or it comes back exactly when it is one that
the register it meets can hold and the status can tell. -/
theorem sgmii_round_trip_iff (s : Regs) (link : Link) (cfg before : Sgmii) (supported : BitVec 64) :
    SgmiiRoundTrips s link cfg before supported ↔
      (sgmiiAccepts cfg = true → SgmiiFaithful (s.mmd .vend1 sgmiiCtrl) cfg) := by
  by_cases hacc : sgmiiAccepts cfg = true
  · obtain ⟨link', hexec⟩ := @exec_sgmiiConfigAneg s link cfg
    have hcall : (gpy2xxSgmiiConfigAneg link cfg).exec (handler memHandler) s =
        (.ok link', s.setSgmiiCtrl (sgmiiConfigured cfg (s.mmd .vend1 sgmiiCtrl))) := by
      simp [gpy2xxSgmiiConfigAneg, hacc, exec_locked, hexec]
    obtain ⟨st, supported', hread, hdec⟩ := exec_sgmiiReadStatus
      (s.setSgmiiCtrl (sgmiiConfigured cfg (s.mmd .vend1 sgmiiCtrl))) supported before
    rw [sgmiiCtrl_setSgmiiCtrl] at hdec
    -- the one status that is read
    have hone : SgmiiRoundTrips s link cfg before supported ↔ SgmiiReports cfg st ∧
        (cfg.link.autoneg = 0 → cfg.linkcfgDir = .sgmii → cfg.link.speed ∈ sgmiiSpeeds) := by
      unfold SgmiiRoundTrips
      rw [hcall]
      constructor
      · intro h
        obtain ⟨⟨st', _, hread', hrep⟩, hspeed⟩ := h _ _ rfl
        rw [hread] at hread'
        cases hread'
        exact ⟨hrep, hspeed⟩
      · intro h link₁ s₁ heq
        cases heq
        exact ⟨⟨st, supported', by rw [hread], h.1⟩, h.2⟩
    rw [hone, SgmiiFaithful]
    by_cases hforce : cfg.link.autoneg = 0
    · rw [if_pos hforce,
        reports_forced_iff hforce (Bool.and_eq_true_iff.mp hacc).1 hdec]
      exact ⟨fun h _ => h.1, fun h => ⟨h hacc, fun _ hsgmii => (h hacc hsgmii).1⟩⟩
    · rw [reports_negotiated_iff hforce hacc hdec, SgmiiFaithful]
      exact ⟨fun h _ => h.1, fun h => ⟨h hacc, fun h₀ => absurd h₀ hforce⟩⟩
  · refine iff_of_true (fun link' s' h => ?_) fun h => absurd h hacc
    have hrejected : (gpy2xxSgmiiConfigAneg link cfg).exec (handler memHandler) s =
        (.error EINVAL, s) := by
      simp [gpy2xxSgmiiConfigAneg, hacc]
    rw [hrejected] at h
    cases h

/-- An SGMII side forced to `speed`, full duplex. -/
def forcedSgmii (speed : Int) : Sgmii where
  linkcfgDir := .sgmii
  anegMode := .bx1000
  link := ⟨⟨speed, 1, 0, 0, 0, 0, 0⟩, 0, 0, 0⟩
  eeeEnable := 0

/-- 5 Gbps is accepted, and programmed as 1 Gbps. -/
theorem not_sgmiiRoundTrips_5000 :
    ¬SgmiiRoundTrips (zeroRegs true) ⟨0, 0, 0, 0, 0, 0, 0⟩ (forcedSgmii 5000) (forcedSgmii 0) 0 := by
  intro h
  obtain ⟨link', hexec⟩ := @exec_sgmiiConfigAneg (zeroRegs true) ⟨0, 0, 0, 0, 0, 0, 0⟩ (forcedSgmii 5000)
  have hspeed := (h link' _ ((exec_locked memHandler _ _).trans hexec)).2 rfl rfl
  exact absurd hspeed (by decide)

end RoundTrip

end Gpy2xx
