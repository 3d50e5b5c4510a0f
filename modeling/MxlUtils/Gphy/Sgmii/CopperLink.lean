import MxlUtils.Gphy.Sgmii.Control
import MxlUtils.Lib.Execution

/- The copper side next to SGMII calls. The SGMII routines keep their settings in a
   structure of their own, but two of them also write the link structure of the
   shared data: a restart sets `autoneg`, and a status read adds a supported mode.
   `HarmlessStep` says of one call, by the state before it and the device's answers,
   when nothing comes of this. -/
namespace Gpy2xx
open Effect Effect.Fallible Effect.Lock Bits

/-! ## The link structures -/

/-- The copper link structures: the device's own, and that of `phy->shared_data` where there is one. -/
structure LinkBlocks where
  own : LinkStatus
  shared : Option LinkStatus

/-- `phy->shared_data == NULL ? phy : phy->shared_data` -/
def LinkBlocks.data (b : LinkBlocks) : LinkStatus := b.shared.getD b.own

def LinkBlocks.withData (b : LinkBlocks) (link : LinkStatus) : LinkBlocks :=
  match b.shared with
  | none => { b with own := link }
  | some _ => { b with shared := some link }

/-- The SGMII calls. -/
inductive SgmiiLinkOp where
  | configAneg (sgmii : Sgmii)
  | restartAneg
  | readStatus (sgmii : Sgmii)

/-- What a restart that succeeds leaves in the settings. -/
def LinkBlocks.afterAneg (b : LinkBlocks) : Except Errno Link → LinkBlocks
  | .ok link => b.withData { b.data with toLink := link }
  | .error _ => b

def LinkBlocks.afterStatus (b : LinkBlocks) : Except Errno (Sgmii × BitVec 64) → LinkBlocks
  | .ok (_, supported) => b.withData { b.data with supported := supported }
  | .error _ => b

/-- One call with its accesses, and the link structures before and after it. -/
inductive SgmiiLinkStep (b : LinkBlocks) : SgmiiLinkOp × Trace regSig.locking → LinkBlocks → Prop where
  | configAneg {sgmii : Sgmii} {t : Trace regSig.locking} {r : Except Errno Link}
      (h : (gpy2xxSgmiiConfigAneg b.data.toLink sgmii).Runs t r) :
      SgmiiLinkStep b (.configAneg sgmii, t) (b.afterAneg r)
  | restartAneg {t : Trace regSig.locking} {r : Except Errno Link}
      (h : (gpy2xxSgmiiRestartAneg b.data.toLink).Runs t r) : SgmiiLinkStep b (.restartAneg, t) (b.afterAneg r)
  | readStatus {sgmii : Sgmii} {t : Trace regSig.locking} {r : Except Errno (Sgmii × BitVec 64)}
      (h : (gpy2xxSgmiiReadStatus b.data.supported sgmii).Runs t r) :
      SgmiiLinkStep b (.readStatus sgmii, t) (b.afterStatus r)

/-- A sequence of calls, with the link structures after each. -/
abbrev SgmiiLinkRun (b : LinkBlocks) (cs : List ((SgmiiLinkOp × Trace regSig.locking) × LinkBlocks)) : Prop :=
  Execution.Run SgmiiLinkStep b cs

/-- The register that the SGMII calls write. -/
def RegOp.isSgmiiCtrl : RegOp → Bool
  | .mmdRead devad reg | .mmdWrite devad reg _ => devad = .vend1 ∧ reg = sgmiiCtrl
  | _ => false

/-- An access that changes a register. -/
def RegOp.alters : RegOp → Bool
  | .phyWrite _ _ | .mmdWrite _ _ _ | .smdioWrite _ _ | .mboxWrite16 _ _ | .mboxWrite32 _ _ => true
  | _ => false

/-- The copper calls do not see the SGMII calls `cs`: the link structures are as before in every state that
is reached, so that a later call runs as it would have run; and what the SGMII calls write, it does not
access. -/
structure Unnoticed (b : LinkBlocks) (cs : List ((SgmiiLinkOp × Trace regSig.locking) × LinkBlocks)) : Prop where
  links : ∀ c ∈ cs, c.2 = b
  config : ∀ c ∈ cs, ∀ mstrSlave t r, (gpy2xxConfigAneg c.2.data.toLink mstrSlave).Runs t r ↔
    (gpy2xxConfigAneg b.data.toLink mstrSlave).Runs t r
  status : ∀ c ∈ cs, ∀ t r, (gpy2xxReadStatus c.2.data).Runs t r ↔ (gpy2xxReadStatus b.data).Runs t r
  writes : ∀ c ∈ cs, ∀ e ∈ accesses c.1.2, e.op.alters → e.op.isSgmiiCtrl
  config_apart : ∀ mstrSlave t r, (gpy2xxConfigAneg b.data.toLink mstrSlave).Runs t r →
    ∀ e ∈ accesses t, e.op.isSgmiiCtrl = false
  status_apart : ∀ t r, (gpy2xxReadStatus b.data).Runs t r → ∀ e ∈ accesses t, e.op.isSgmiiCtrl = false

/-! ## The condition on a call -/

/-- The last answer is that of the control register, with a restart still pending. -/
def PendingShown (t : RegTrace) : Prop :=
  ∃ ctrl, t.getLast? = some ⟨.mmdRead .vend1 sgmiiCtrl, .ok ctrl⟩ ∧ sgmiiAnrs.get ctrl = 1

/-- What the device answers where negotiation is restarted: no access fails, and no restart is pending. -/
def Restarts (t : RegTrace) : Prop := AllOk t ∧ ¬PendingShown t

/-- The device shows that it is able to negotiate, and no access failed. -/
def ShowsAbility (t : RegTrace) : Prop :=
  AllOk t ∧ ∃ stat, ⟨.mmdRead .vend1 sgmiiStat, .ok stat⟩ ∈ t ∧ sgmiiAnab.get stat = 1

/-- The call leaves the copper link as it is: negotiation is restarted only where the copper link
negotiates anyway, and the ability is shown only where the copper link has it. -/
def HarmlessStep (b : LinkBlocks) : SgmiiLinkOp × Trace regSig.locking → Prop
  | (.configAneg sgmii, t) =>
    sgmiiAccepts sgmii → sgmii.link.autoneg ≠ 0 → Restarts (accesses t) → b.data.autoneg = 1
  | (.restartAneg, t) => AllOk (accesses t) → b.data.autoneg = 1
  | (.readStatus _, t) => ShowsAbility (accesses t) → b.data.supported ||| supportedAutoneg = b.data.supported

/-! ## One call -/

section Calls
variable {t : RegTrace} {link : Link} {sgmii : Sgmii} {r : Except Errno Link}

/-- What a call that may restart negotiation leaves, by whether the device lets it. -/
def LeavesLink (link : Link) (t : RegTrace) (r : Except Errno Link) : Prop :=
  t ≠ [] ∧ (Restarts t → r = .ok { link with autoneg := 1 }) ∧ (¬Restarts t → ∀ link', r = .ok link' → link' = link)

theorem pendingShown_append {t₁ t₂ : RegTrace} (h : t₂ ≠ []) : PendingShown (t₁ ++ t₂) ↔ PendingShown t₂ := by
  rw [PendingShown, List.getLast?_append_of_ne_nil _ h]
  rfl

/-- What succeeds before it does not matter. -/
theorem LeavesLink.append {t₁ t₂ : RegTrace} (hok : AllOk t₁) (h : LeavesLink link t₂ r) :
    LeavesLink link (t₁ ++ t₂) r := by
  refine ⟨by simp [h.1], ?_⟩
  rw [show Restarts (t₁ ++ t₂) ↔ Restarts t₂ from
    and_congr (allOk_append_iff hok) (not_congr (pendingShown_append h.1))]
  exact h.2

theorem not_allOk_of_refused {t₁ : RegTrace} {e : Event regSig} (h : refused e) : ¬AllOk (t₁ ++ [e]) := by
  intro hok
  have he := hok e (by simp)
  simp [refused, he] at h

theorem LeavesLink.of_error (t₁ : RegTrace) {ev : Event regSig} {e : Errno} (h : refused ev) :
    LeavesLink link (t₁ ++ [ev]) (.error e) := by
  refine ⟨by simp, fun hrestarts => absurd hrestarts.1 (not_allOk_of_refused h), fun _ link' hok => ?_⟩
  cases hok

/-- A read and a write of the control register, up to a failure. -/
theorem runs_updateSgmiiCtrl {f : BitVec 16 → BitVec 16} {c : Except Errno Unit}
    (h : (updateSgmiiCtrl f).Runs t c) :
    (∃ e t₁ ev, c = .error e ∧ t = t₁ ++ [ev] ∧ refused ev) ∨
    ∃ ctrl, c = .ok () ∧ t = [⟨.mmdRead .vend1 sgmiiCtrl, .ok ctrl⟩, ⟨.mmdWrite .vend1 sgmiiCtrl (f ctrl), .ok ()⟩] := by
  rcases (runs_phyReadMmd_bind).mp h with ⟨e, rfl, rfl⟩ | ⟨ctrl, t₁, rfl, hwrite⟩
  · exact .inl ⟨e, [], _, rfl, rfl, rfl⟩
  · rw [(runs_phyWriteMmd).mp hwrite]
    cases c with
    | error e => exact .inl ⟨e, [_], _, rfl, rfl, rfl⟩
    | ok _ => exact .inr ⟨ctrl, rfl, rfl⟩

theorem failsOn_updateSgmiiCtrl {f : BitVec 16 → BitVec 16} : FailsOn (fun e => refused e) (updateSgmiiCtrl f) :=
  GoesOn.bind failsOn_phyReadMmd fun _ => failsOn_phyWriteMmd

/-- A restart fails where an access does, and the last access is a write. -/
theorem restart_iff (h : (sgmiiRestartAneg link).Runs t r) :
    t ≠ [] ∧ ¬PendingShown t ∧ (AllOk t → r = .ok { link with autoneg := 1 }) ∧ (¬AllOk t → ∃ e, r = .error e) := by
  have hok : AllOk t ↔ r.isOk :=
    allOk_iff_of_failsOn (GoesOn.bind failsOn_updateSgmiiCtrl fun _ => GoesOn.pure trivial) h
  rcases (runs_bind).mp h with ⟨e, hupdate, rfl⟩ | ⟨t₁, _, _, rfl, hupdate, rfl, rfl⟩
  · have hnot : ¬AllOk t := fun hall => by cases hok.mp hall
    refine ⟨?_, ?_, fun hall => absurd hall hnot, fun _ => ⟨e, rfl⟩⟩
    · rintro rfl
      exact hnot (List.forall_mem_nil _)
    · rcases runs_updateSgmiiCtrl hupdate with ⟨_, t₁, ev, -, rfl, href⟩ | ⟨_, hc, -⟩
      · rintro ⟨ctrl, hlast, -⟩
        obtain rfl : ev = _ := by simpa using hlast
        cases href
      · cases hc
  · rcases runs_updateSgmiiCtrl hupdate with ⟨_, _, _, hc, -⟩ | ⟨ctrl, -, rfl⟩
    · cases hc
    · refine ⟨List.cons_ne_nil _ _, ?_, fun _ => rfl, fun hnot => absurd (hok.mpr rfl) hnot⟩
      rintro ⟨_, hlast, -⟩
      cases hlast

theorem leavesLink_restart (h : (sgmiiRestartAneg link).Runs t r) : LeavesLink link t r := by
  obtain ⟨hne, hpending, hall, hfails⟩ := restart_iff h
  refine ⟨hne, fun hrestarts => hall hrestarts.1, fun hnot link' hok => ?_⟩
  obtain ⟨e, rfl⟩ := hfails fun hok => hnot ⟨hok, hpending⟩
  cases hok

theorem leavesLink_restartUnlessPending (h : (sgmiiRestartUnlessPending link).Runs t r) : LeavesLink link t r := by
  rcases (runs_phyReadMmd_bind).mp h with ⟨e, rfl, rfl⟩ | ⟨ctrl, t₁, rfl, hrest⟩
  · exact .of_error [] rfl
  · have hread : AllOk [⟨.mmdRead .vend1 sgmiiCtrl, .ok ctrl⟩] := List.forall_mem_singleton.mpr rfl
    by_cases hpending : sgmiiAnrs.get ctrl ≠ 1
    · rw [if_pos hpending] at hrest
      exact (leavesLink_restart hrest).append hread
    · rw [if_neg hpending] at hrest
      obtain ⟨rfl, rfl⟩ := hrest
      refine ⟨List.cons_ne_nil _ _, fun hrestarts => ?_, fun _ link' hok => ?_⟩
      · exact absurd ⟨ctrl, rfl, not_not.mp hpending⟩ hrestarts.2
      · cases hok
        rfl

theorem failsOn_sgmiiConfigAdvert : FailsOn (fun e => refused e) (sgmiiConfigAdvert sgmii) := by
  refine GoesOn.bind failsOn_phyReadMmd fun _ => GoesOn.ite (fun _ => GoesOn.pure trivial) fun _ => ?_
  exact GoesOn.bind failsOn_phyWriteMmd fun _ => GoesOn.pure trivial

/-- The advertised abilities are read, and written where they change, before negotiation is restarted. -/
theorem leavesLink_negotiate (h : (sgmiiNegotiate link sgmii).Runs t r) : LeavesLink link t r := by
  rcases (runs_bind).mp h with ⟨e, hadvert, rfl⟩ | ⟨t₁, changed, t₂, rfl, hadvert, hrest⟩
  · rcases (runs_phyReadMmd_bind).mp hadvert with ⟨e, rfl, hc⟩ | ⟨ctrl, t₁, rfl, hwrite⟩
    · cases hc
      exact .of_error [] rfl
    · by_cases hsame : ctrl &&& sgmiiAdvMask = sgmiiAdvSet sgmii
      · rw [if_pos hsame] at hwrite
        cases hwrite.2
      · rw [if_neg hsame] at hwrite
        rcases (runs_phyWriteMmd_bind).mp hwrite with ⟨e, rfl, hc⟩ | ⟨_, t₂, rfl, hpure⟩
        · cases hc
          exact .of_error [_] rfl
        · cases hpure.2
  · apply LeavesLink.append ((allOk_iff_of_failsOn failsOn_sgmiiConfigAdvert hadvert).mpr rfl)
    cases changed with
    | true => exact leavesLink_restart hrest
    | false => exact leavesLink_restartUnlessPending hrest

/-- A forced setting has nothing to do with the link. -/
theorem link_eq_of_force {link' : Link} (h : (sgmiiForce link sgmii).Runs t (.ok link')) : link' = link := by
  rcases (runs_bind).mp h with ⟨e, -, hc⟩ | ⟨_, _, _, -, -, hpure⟩
  · cases hc
  · cases hpure.2
    rfl

theorem leavesLink_config (hauto : sgmii.link.autoneg ≠ 0) (h : (sgmiiConfigAneg link sgmii).Runs t r) :
    LeavesLink link t r := by
  rcases (runs_bind).mp h with ⟨e, hupdate, rfl⟩ | ⟨t₁, _, t₂, rfl, hupdate, hrest⟩
  · rcases runs_updateSgmiiCtrl hupdate with ⟨_, _, _, -, rfl, href⟩ | ⟨_, hc, -⟩
    · exact .of_error _ href
    · cases hc
  · rw [if_neg hauto] at hrest
    exact (leavesLink_negotiate hrest).append ((allOk_iff_of_failsOn failsOn_updateSgmiiCtrl hupdate).mpr rfl)

theorem link_eq_of_config {link' : Link} (hauto : sgmii.link.autoneg = 0)
    (h : (sgmiiConfigAneg link sgmii).Runs t (.ok link')) : link' = link := by
  rcases (runs_bind).mp h with ⟨e, -, hc⟩ | ⟨_, _, _, -, -, hrest⟩
  · cases hc
  · rw [if_pos hauto] at hrest
    exact link_eq_of_force hrest

end Calls

section Status
variable {t : RegTrace} {sgmii : Sgmii} {supported : BitVec 64} {ctrl stat : BitVec 16}

theorem failsOn_sgmiiReadSpeed : FailsOn (fun e => refused e) (sgmiiReadSpeed sgmii ctrl stat) :=
  GoesOn.ite (fun _ => GoesOn.pure trivial) fun _ =>
    GoesOn.ite (fun _ => GoesOn.bind failsOn_phyRead fun _ => GoesOn.pure trivial) fun _ => GoesOn.pure trivial

theorem failsOn_sgmiiReadStatus : FailsOn (fun e => refused e) (sgmiiReadStatus supported sgmii) := by
  refine GoesOn.bind failsOn_phyReadMmd fun _ => GoesOn.bind failsOn_phyReadMmd fun _ => ?_
  exact GoesOn.bind failsOn_sgmiiReadSpeed fun _ => GoesOn.pure trivial

theorem all_sgmiiReadSpeed : (sgmiiReadSpeed sgmii ctrl stat).All fun o : RegOp => o ≠ .mmdRead .vend1 sgmiiStat := by
  refine All.ite (fun _ => All.pure _) fun _ => All.ite (fun _ => ?_) fun _ => All.pure _
  exact All.bind ⟨nofun, fun _ => trivial⟩ fun _ => All.pure _

/-- A status read that succeeds adds the mode exactly where the device shows the ability. -/
theorem supported_of_status {s : Sgmii} {sup : BitVec 64} (h : (sgmiiReadStatus supported sgmii).Runs t (.ok (s, sup))) :
    ShowsAbility t ∧ sup = supported ||| supportedAutoneg ∨ ¬ShowsAbility t ∧ sup = supported := by
  have hok : AllOk t := (allOk_iff_of_failsOn failsOn_sgmiiReadStatus h).mpr rfl
  rcases (runs_phyReadMmd_bind).mp h with ⟨_, _, hc⟩ | ⟨ctrl, t₁, rfl, hctrl⟩
  · cases hc
  rcases (runs_phyReadMmd_bind).mp hctrl with ⟨_, _, hc⟩ | ⟨stat, t₂, rfl, hstat⟩
  · cases hc
  rcases (runs_bind).mp hstat with ⟨_, _, hc⟩ | ⟨t₃, link, t₄, rfl, hspeed, hpure⟩
  · cases hc
  -- the speed is not read from the register that shows the ability
  have hother : ∀ e ∈ t₃, e.op ≠ .mmdRead .vend1 sgmiiStat := Prog.Runs.all hspeed all_sgmiiReadSpeed
  obtain ⟨rfl, hresult⟩ := (runs_pure).mp hpure
  obtain ⟨-, rfl⟩ := Prod.mk.inj (Except.ok.inj hresult)
  by_cases hab : sgmiiAnab.get stat = 1
  · exact .inl ⟨⟨hok, stat, by simp, hab⟩, if_pos hab⟩
  · refine .inr ⟨fun hshows => ?_, if_neg hab⟩
    obtain ⟨-, stat', hmem, hab'⟩ := hshows
    simp only [List.append_nil, List.mem_cons] at hmem
    rcases hmem with hctrl | hstat | hspeed
    · cases hctrl
    · cases hstat
      exact hab hab'
    · exact hother _ hspeed rfl

theorem not_showsAbility_of_error {e : Errno} (h : (sgmiiReadStatus supported sgmii).Runs t (.error e)) :
    ¬ShowsAbility t := by
  intro hshows
  cases (allOk_iff_of_failsOn failsOn_sgmiiReadStatus h).mp hshows.1

end Status

/-! ## Sequences of calls -/

section Sequences
variable {b : LinkBlocks}

theorem LinkBlocks.withData_eq_iff {link : LinkStatus} : b.withData link = b ↔ link = b.data := by
  obtain ⟨own, shared⟩ := b
  cases shared with
  | none => simp [LinkBlocks.withData, LinkBlocks.data]
  | some s => simp [LinkBlocks.withData, LinkBlocks.data]

theorem LinkBlocks.afterAneg_eq_iff {link : Link} : b.afterAneg (.ok link) = b ↔ link = b.data.toLink := by
  rw [LinkBlocks.afterAneg, LinkBlocks.withData_eq_iff]
  constructor
  · intro h
    rw [← h]
  · intro h
    rw [h]

theorem LinkBlocks.afterStatus_eq_iff {sgmii : Sgmii} {supported : BitVec 64} :
    b.afterStatus (.ok (sgmii, supported)) = b ↔ supported = b.data.supported := by
  rw [LinkBlocks.afterStatus, LinkBlocks.withData_eq_iff]
  constructor
  · intro h
    rw [← h]
  · intro h
    rw [h]

/-- After a call that may restart negotiation, the link structures are the same exactly where negotiation
was on, or was not restarted. -/
theorem afterAneg_eq_iff_of_leaves {t : RegTrace} {r : Except Errno Link} (h : LeavesLink b.data.toLink t r) :
    b.afterAneg r = b ↔ (Restarts t → b.data.autoneg = 1) := by
  obtain ⟨-, hrestarts, hnot⟩ := h
  by_cases hends : Restarts t
  · rw [hrestarts hends, LinkBlocks.afterAneg_eq_iff]
    constructor
    · intro heq _
      exact (congrArg Link.autoneg heq).symm
    · intro hauto
      rw [← hauto hends]
  · refine iff_of_true ?_ fun hyes => absurd hyes hends
    cases r with
    | error e => rfl
    | ok link => exact (LinkBlocks.afterAneg_eq_iff).mpr (hnot hends link rfl)

/-- One call leaves the link structures as they are exactly where it is harmless. -/
theorem sgmiiLinkStep_iff {i : SgmiiLinkOp × Trace regSig.locking} {b' : LinkBlocks} (h : SgmiiLinkStep b i b') :
    b' = b ↔ HarmlessStep b i := by
  cases h with
  | @configAneg sgmii t r h =>
    unfold gpy2xxSgmiiConfigAneg at h
    by_cases hrejected : !sgmiiAccepts sgmii
    · rw [if_pos hrejected] at h
      obtain ⟨rfl, rfl⟩ := h
      refine iff_of_true rfl fun hacc => ?_
      simp [hacc] at hrejected
    rw [if_neg hrejected] at h
    have hrun := Runs.accesses_locked h
    by_cases hauto : sgmii.link.autoneg = 0
    · refine iff_of_true ?_ fun _ hne => absurd hauto hne
      cases r with
      | error e => rfl
      | ok link => exact (LinkBlocks.afterAneg_eq_iff).mpr (link_eq_of_config hauto hrun)
    · rw [afterAneg_eq_iff_of_leaves (leavesLink_config hauto hrun)]
      have hacc : sgmiiAccepts sgmii = true := by simpa using hrejected
      exact ⟨fun hrestarts _ _ => hrestarts, fun hrestarts => hrestarts hacc hauto⟩
  | restartAneg h =>
    have hrun := Runs.accesses_locked h
    rw [afterAneg_eq_iff_of_leaves (leavesLink_restart hrun)]
    obtain ⟨-, hpending, -⟩ := restart_iff hrun
    exact ⟨fun hrestarts hok => hrestarts ⟨hok, hpending⟩, fun hall hrestarts => hall hrestarts.1⟩
  | @readStatus sgmii t r h =>
    cases r with
    | error e => exact iff_of_true rfl fun hshows => absurd hshows (not_showsAbility_of_error (Runs.accesses_locked h))
    | ok p =>
      rw [LinkBlocks.afterStatus_eq_iff]
      rcases supported_of_status (Runs.accesses_locked h) with ⟨hshows, hsup⟩ | ⟨hnot, hsup⟩
      · rw [hsup]
        exact ⟨fun hsame _ => hsame, fun hsame => hsame hshows⟩
      · exact iff_of_true hsup fun hshows => absurd hshows hnot

/-! ## What the calls access -/

/-- Of the registers the call changes, if any, it changes the control register only. -/
def onlySgmiiCtrl (o : RegOp) : Prop := o.alters → o.isSgmiiCtrl

theorem all_updateSgmiiCtrl {f : BitVec 16 → BitVec 16} : (updateSgmiiCtrl f).All onlySgmiiCtrl :=
  All.bind ⟨nofun, fun _ => trivial⟩ fun _ => ⟨fun _ => rfl, fun _ => trivial⟩

theorem all_sgmiiRestartAneg {link : Link} : (sgmiiRestartAneg link).All onlySgmiiCtrl :=
  All.bind all_updateSgmiiCtrl fun _ => All.pure _

theorem all_sgmiiNegotiate {link : Link} {sgmii : Sgmii} : (sgmiiNegotiate link sgmii).All onlySgmiiCtrl := by
  refine All.bind (All.bind ⟨nofun, fun _ => trivial⟩ fun _ => All.ite (fun _ => All.pure _) fun _ => ?_) fun _ => ?_
  · exact All.bind ⟨fun _ => rfl, fun _ => trivial⟩ fun _ => All.pure _
  · apply All.ite (fun _ => all_sgmiiRestartAneg)
    intro _
    refine All.bind ⟨nofun, fun _ => trivial⟩ fun _ => ?_
    exact All.ite (fun _ => all_sgmiiRestartAneg) fun _ => All.pure _

theorem all_sgmiiConfigAneg {link : Link} {sgmii : Sgmii} : (sgmiiConfigAneg link sgmii).All onlySgmiiCtrl := by
  refine All.bind all_updateSgmiiCtrl fun _ => All.ite (fun _ => ?_) fun _ => all_sgmiiNegotiate
  exact All.bind all_updateSgmiiCtrl fun _ => All.pure _

theorem all_sgmiiReadStatus {supported : BitVec 64} {sgmii : Sgmii} :
    (sgmiiReadStatus supported sgmii).All onlySgmiiCtrl := by
  refine All.bind ⟨nofun, fun _ => trivial⟩ fun _ => All.bind ⟨nofun, fun _ => trivial⟩ fun _ => ?_
  refine All.bind (All.ite (fun _ => All.pure _) fun _ => All.ite (fun _ => ?_) fun _ => All.pure _) fun _ => All.pure _
  exact All.bind ⟨nofun, fun _ => trivial⟩ fun _ => All.pure _

theorem sgmiiLinkStep_writes {i : SgmiiLinkOp × Trace regSig.locking} {b' : LinkBlocks} (h : SgmiiLinkStep b i b') :
    ∀ e ∈ accesses i.2, onlySgmiiCtrl e.op := by
  cases h with
  | configAneg h =>
    unfold gpy2xxSgmiiConfigAneg at h
    split at h
    · obtain ⟨rfl, rfl⟩ := h
      exact List.forall_mem_nil _
    · exact Prog.Runs.all (Runs.accesses_locked h) all_sgmiiConfigAneg
  | restartAneg h => exact Prog.Runs.all (Runs.accesses_locked h) all_sgmiiRestartAneg
  | readStatus h => exact Prog.Runs.all (Runs.accesses_locked h) all_sgmiiReadStatus

/-- Not the control register of the SGMII side. -/
def notSgmiiCtrl (o : RegOp) : Prop := o.isSgmiiCtrl = false

theorem all_updateChanged {reg : Nat} {f : BitVec 16 → BitVec 16} : (updateChanged reg f).All notSgmiiCtrl := by
  refine All.bind ⟨rfl, fun _ => trivial⟩ fun _ => All.ite (fun _ => ?_) fun _ => All.pure _
  exact All.bind ⟨rfl, fun _ => trivial⟩ fun _ => All.pure _

theorem all_updateMgbt {modes : BitVec 64} {changed : Bool} : (updateMgbt modes changed).All notSgmiiCtrl := by
  refine All.bind ⟨rfl, fun _ => trivial⟩ fun _ => All.ite (fun _ => ?_) fun _ => All.pure _
  refine All.bind (All.attempt ⟨rfl, fun _ => trivial⟩) fun ret => ?_
  cases ret with
  | error e => exact All.pure _
  | ok _ => exact All.pure _

theorem all_configAdvert {link : Link} : (configAdvert link).All notSgmiiCtrl := by
  have hclear : clearMs.All notSgmiiCtrl := All.bind ⟨rfl, fun _ => trivial⟩ fun _ => ⟨rfl, fun _ => trivial⟩
  refine All.bind hclear fun _ => All.bind all_updateChanged fun _ => All.bind ?_ fun _ => all_updateMgbt
  exact All.bind ⟨rfl, fun _ => trivial⟩ fun _ => All.ite (fun _ => all_updateChanged) fun _ => All.pure _

theorem all_forceSpeed {link : Link} {ctrl : BitVec 16} : (forceSpeed link ctrl).All notSgmiiCtrl := by
  refine All.ite (fun _ => ?_) fun _ => ?_
  · unfold forceUpTo1000
    cases forcedSpeedBits link.speed with
    | none => exact All.throw _
    | some bits => exact ⟨rfl, fun _ => trivial⟩
  · refine All.bind ⟨rfl, fun _ => trivial⟩ fun _ => All.bind ⟨rfl, fun _ => trivial⟩ fun _ => ?_
    refine All.bind ⟨rfl, fun _ => trivial⟩ fun _ => All.bind ⟨rfl, fun _ => trivial⟩ fun _ => ?_
    exact ⟨rfl, fun _ => trivial⟩

theorem all_setupForced {link : Link} {mstrSlave : BitVec 8} : (setupForced link mstrSlave).All notSgmiiCtrl := by
  refine All.ite (fun _ => All.throw _) fun _ => ?_
  refine All.bind ⟨rfl, fun _ => trivial⟩ fun _ => All.bind ⟨rfl, fun _ => trivial⟩ fun _ => ?_
  refine All.bind ⟨rfl, fun _ => trivial⟩ fun _ => All.bind all_forceSpeed fun _ => ?_
  exact All.bind ⟨rfl, fun _ => trivial⟩ fun _ => ⟨rfl, fun _ => trivial⟩

theorem all_configAneg {link : Link} {mstrSlave : BitVec 8} : (configAneg link mstrSlave).All notSgmiiCtrl := by
  have hrestart : ∀ link : Link, (restartAneg link).All notSgmiiCtrl := fun _ =>
    All.bind ⟨rfl, fun _ => trivial⟩ fun _ => All.bind ⟨rfl, fun _ => trivial⟩ fun _ => All.pure _
  refine All.ite (fun _ => All.bind all_setupForced fun _ => All.pure _) fun _ => ?_
  refine All.bind all_configAdvert fun _ => All.ite (fun _ => hrestart _) fun _ => ?_
  exact All.bind ⟨rfl, fun _ => trivial⟩ fun _ => All.ite (fun _ => All.pure _) fun _ => hrestart _

theorem all_readStatus {link : LinkStatus} : (readStatus link).All notSgmiiCtrl := by
  refine All.bind ⟨rfl, fun _ => trivial⟩ fun _ => All.ite (fun _ => ?_) fun _ => ?_
  · refine All.bind (All.ite (fun _ => All.pure _) fun _ => ?_) fun _ => ?_
    · refine All.bind ⟨rfl, fun _ => trivial⟩ fun _ => All.ite (fun _ => All.pure _) fun _ => ?_
      exact All.bind ⟨rfl, fun _ => trivial⟩ fun _ => All.pure _
    refine All.bind (All.ite (fun _ => All.pure _) fun _ => ?_) fun _ => ?_
    · exact All.bind ⟨rfl, fun _ => trivial⟩ fun _ => All.pure _
    exact All.bind ⟨rfl, fun _ => trivial⟩ fun _ => All.bind ⟨rfl, fun _ => trivial⟩ fun _ => All.pure _
  · refine All.bind ⟨rfl, fun _ => trivial⟩ fun _ => All.ite (fun _ => All.pure _) fun _ => ?_
    exact All.bind ⟨rfl, fun _ => trivial⟩ fun _ => All.pure _

/-! ## The result -/

/-- The copper calls do not see a sequence of SGMII calls exactly when each call is harmless where it occurs. -/
theorem unnoticed_iff {cs : List ((SgmiiLinkOp × Trace regSig.locking) × LinkBlocks)} (h : SgmiiLinkRun b cs) :
    Unnoticed b cs ↔ Execution.Allowed HarmlessStep b cs := by
  have hkept : (∀ c ∈ cs, c.2 = b) ↔ Execution.Allowed HarmlessStep b cs := by
    have hstep : ∀ s i s', SgmiiLinkStep s i s' → True → s = b → (s' = b ↔ HarmlessStep s i) := by
      intro s i s' hstep _ hs
      subst hs
      exact sgmiiLinkStep_iff hstep
    exact Execution.Run.good_iff (I := fun _ => True) (fun _ _ _ _ _ => trivial) hstep h trivial rfl
  rw [← hkept]
  constructor
  · exact Unnoticed.links
  · intro hlinks
    refine ⟨hlinks, ?_, ?_, ?_, ?_, ?_⟩
    · intro c hc mstrSlave t r
      rw [hlinks c hc]
    · intro c hc t r
      rw [hlinks c hc]
    · exact h.labels fun s i s' hstep => sgmiiLinkStep_writes hstep
    · intro mstrSlave t r hrun
      exact Prog.Runs.all (Runs.accesses_locked hrun) all_configAneg
    · intro t r hrun
      exact Prog.Runs.all (Runs.accesses_locked hrun) all_readStatus

end Sequences

/-! ## A restart on either kind of link -/

/-- A copper link that is forced to 1 Gbps, for `autoneg = 0`, or that negotiates, for 1. -/
def gigabitLink (autoneg : Int) : LinkStatus := ⟨⟨1000, 1, 0, 0, 0x6FF, 0x6FF, autoneg⟩, 0, 1, 0⟩

/-- A restart of the SGMII side whose accesses succeed. -/
theorem runs_restart_gigabit (b : LinkBlocks) : ∃ t, (gpy2xxSgmiiRestartAneg b.data.toLink).Runs t
    (.ok { b.data.toLink with autoneg := 1 }) := by
  have hbody : (sgmiiRestartAneg b.data.toLink).Runs
      [⟨.mmdRead .vend1 sgmiiCtrl, .ok 0⟩, ⟨.mmdWrite .vend1 sgmiiCtrl (sgmiiRestarted 0), .ok ()⟩]
      (.ok { b.data.toLink with autoneg := 1 }) := ⟨_, _, rfl, _, _, rfl, rfl, rfl⟩
  obtain ⟨t, hrun, -⟩ := runs_locked_of_body hbody
  exact ⟨t, hrun⟩

/-- Next to a copper link that negotiates, in the shared data, it is harmless. -/
theorem unnoticed_shared_negotiating : ∃ t, Unnoticed ⟨gigabitLink 0, some (gigabitLink 1)⟩
    [((.restartAneg, t), ⟨gigabitLink 0, some (gigabitLink 1)⟩)] := by
  obtain ⟨t, hrun⟩ := runs_restart_gigabit ⟨gigabitLink 0, some (gigabitLink 1)⟩
  have hlink : SgmiiLinkRun ⟨gigabitLink 0, some (gigabitLink 1)⟩
      [((.restartAneg, t), ⟨gigabitLink 0, some (gigabitLink 1)⟩)] := ⟨.restartAneg hrun, trivial⟩
  exact ⟨t, (unnoticed_iff hlink).mpr ⟨fun _ => rfl, trivial⟩⟩

/-- Next to one that is forced, a later `config_aneg` negotiates. -/
theorem not_unnoticed_forced : ∃ t, SgmiiLinkRun ⟨gigabitLink 0, none⟩ [((.restartAneg, t), ⟨gigabitLink 1, none⟩)] ∧
    ¬Unnoticed ⟨gigabitLink 0, none⟩ [((.restartAneg, t), ⟨gigabitLink 1, none⟩)] := by
  obtain ⟨t, hrun⟩ := runs_restart_gigabit ⟨gigabitLink 0, none⟩
  refine ⟨t, ⟨.restartAneg hrun, trivial⟩, fun h => ?_⟩
  have hsame := h.links _ List.mem_cons_self
  have hauto : (1 : Int) = 0 := congrArg (fun b => b.data.autoneg) hsame
  omega

end Gpy2xx
