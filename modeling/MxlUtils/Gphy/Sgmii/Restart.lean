import MxlUtils.Gphy.Sgmii.Control
import MxlUtils.Lib.Wp

/- Whether SGMII negotiation runs after a call that asked for it. The restart bit
   clears itself some time after it was written, and any access may fail.
   `SgmiiRegs` records whether the advertised fields have changed since the last
   restart. One invariant holds on every run: on a register that shows a pending
   restart with negotiation on, nothing waits for one. What is left are the
   registers with a pending restart and negotiation off (`Stalled`), on which
   `config_aneg` finds nothing to do: a forced configuration leaves one when it
   comes before the device has taken up a restart. -/
namespace Gpy2xx
open Effect Effect.Fallible Effect.Lock Bits

/-! ## The control register as the device keeps it -/

/-- The control register, and whether `ANMODE` or `EEE_CAP` has changed since the last restart. -/
structure SgmiiRegs where
  ctrl : BitVec 16
  waiting : Bool
deriving DecidableEq

/-- A value that, written, restarts negotiation. -/
def sgmiiStarts (ctrl : BitVec 16) : Bool := sgmiiAnen.get ctrl == 1 && sgmiiAnrs.get ctrl == 1

namespace SgmiiRegs

def writeCtrl (s : SgmiiRegs) (v : BitVec 16) : SgmiiRegs where
  ctrl := v
  waiting := !sgmiiStarts v && (s.waiting || v &&& sgmiiAdvMask != s.ctrl &&& sgmiiAdvMask)

def write (s : SgmiiRegs) : RegOp → SgmiiRegs
  | .mmdWrite .vend1 8 v => s.writeCtrl v
  | _ => s

/-- The device has taken up the restart. -/
def taken (s : SgmiiRegs) : SgmiiRegs := { s with ctrl := sgmiiAnrs.replace s.ctrl 0 }

def Shows (s : SgmiiRegs) : Event regSig → Prop
  | ⟨.mmdRead .vend1 8, .ok v⟩ => v = s.ctrl
  | _ => True

/-- A pending restart is one of the settings that negotiate now. -/
def Fresh (s : SgmiiRegs) : Prop := sgmiiStarts s.ctrl = true → s.waiting = false

end SgmiiRegs

/-- Registers as memory, but for the restart bit, which clears itself before any of the accesses to
come. An access may fail, and a write that fails may or may not have landed. -/
def sgmiiDev : Dev regSig SgmiiRegs := fun s e s' =>
  ∃ m, (m = s ∨ m = s.taken) ∧ m.Shows e ∧ (s' = m.write e.op ∨ (refused e = true ∧ s' = m))

/-! ## Sequences of calls -/

inductive SgmiiOp where
  | restartAneg
  | configAneg (sgmii : Sgmii)

/-- A call with its trace and its result; `link` is that of the shared data. -/
structure SgmiiCall where
  op : SgmiiOp
  link : Link
  trace : Trace regSig.locking
  result : Except Errno Link

def SgmiiOp.call (link : Link) : SgmiiOp → Call Link
  | .restartAneg => gpy2xxSgmiiRestartAneg link
  | .configAneg sgmii => gpy2xxSgmiiConfigAneg link sgmii

def SgmiiStep (s : SgmiiRegs) (c : SgmiiCall) (s' : SgmiiRegs) : Prop :=
  (c.op.call c.link).Runs c.trace c.result ∧ sgmiiDev.Path s (accesses c.trace) s'

def SgmiiRun : SgmiiRegs → List SgmiiCall → SgmiiRegs → Prop
  | s, [], s' => s' = s
  | s, c :: cs, s' => ∃ m, SgmiiStep s c m ∧ SgmiiRun m cs s'

/-- A restart is pending with negotiation off, and the call would change nothing it compares. -/
def Stalled (s : SgmiiRegs) (sgmii : Sgmii) : Prop :=
  sgmiiAccepts sgmii = true ∧ s.ctrl &&& sgmiiAdvMask = sgmiiAdvSet sgmii ∧
    sgmiiAnrs.get s.ctrl = 1 ∧ sgmiiAnen.get s.ctrl = 0

instance (s : SgmiiRegs) (sgmii : Sgmii) : Decidable (Stalled s sgmii) :=
  inferInstanceAs (Decidable (_ ∧ _ ∧ _ ∧ _))

/-! ## The invariant -/

section Invariant
variable {s s' : SgmiiRegs}

theorem anrs_taken (s : SgmiiRegs) : sgmiiAnrs.get s.taken.ctrl = 0 :=
  Field.get_replace_bit (by decide) (by decide)

theorem fresh_taken : s.taken.Fresh := by
  intro hstarts
  have hpending := (Bool.and_eq_true_iff.mp hstarts).2
  rw [anrs_taken] at hpending
  cases hpending

theorem fresh_writeCtrl (v : BitVec 16) : (s.writeCtrl v).Fresh := by
  intro hstarts
  have hstarts : sgmiiStarts v = true := hstarts
  simp [SgmiiRegs.writeCtrl, hstarts]

theorem fresh_write (hs : s.Fresh) (o : RegOp) : (s.write o).Fresh := by
  unfold SgmiiRegs.write
  split
  · exact fresh_writeCtrl _
  · exact hs

theorem fresh_sgmiiDev {e : Event regSig} (hs : s.Fresh) (h : sgmiiDev s e s') : s'.Fresh := by
  obtain ⟨m, hm, -, hs'⟩ := h
  have hfresh : m.Fresh := by
    rcases hm with rfl | rfl
    · exact hs
    · exact fresh_taken
  rcases hs' with rfl | ⟨-, rfl⟩
  · exact fresh_write hfresh e.op
  · exact hfresh

/-- Every run of calls keeps the invariant, whatever fails and whenever the bit clears. -/
theorem fresh_sgmiiRun {cs : List SgmiiCall} (hs : s.Fresh) (h : SgmiiRun s cs s') : s'.Fresh := by
  induction cs generalizing s with
  | nil => exact (show s' = s from h) ▸ hs
  | cons c cs ih =>
    obtain ⟨m, ⟨-, hpath⟩, hrest⟩ := h
    have hm : m.Fresh :=
      Dev.path_inv (I := SgmiiRegs.Fresh) (fun _ _ _ h hd => fresh_sgmiiDev h hd) hs hpath
    exact ih hm hrest

end Invariant

/-! ## One access -/

section Access
variable {s : SgmiiRegs} {α : Type}

theorem wp_sgmiiRead {P : BitVec 16 → SgmiiRegs → Prop}
    (h : ∀ m, m = s ∨ m = s.taken → P m.ctrl m) :
    wp sgmiiDev (phyReadMmd .vend1 sgmiiCtrl) (OnOk P) s := by
  refine wp_access (S := regSig) (o := .mmdRead .vend1 sgmiiCtrl) (g := id) fun r s' hd => ?_
  obtain ⟨m, hm, hshows, hs'⟩ := hd
  cases r with
  | error e => trivial
  | ok v =>
    have hv : v = m.ctrl := hshows
    have hs' : s' = m := hs'.elim id And.right
    rw [hs', hv]
    exact h m hm

theorem wp_sgmiiWrite {v : BitVec 16} {P : Unit → SgmiiRegs → Prop}
    (h : ∀ m, m = s ∨ m = s.taken → P () (m.writeCtrl v)) :
    wp sgmiiDev (phyWriteMmd .vend1 sgmiiCtrl v) (OnOk P) s := by
  refine wp_access (S := regSig) (o := .mmdWrite .vend1 sgmiiCtrl v) (g := id) fun r s' hd => ?_
  obtain ⟨m, hm, -, hs'⟩ := hd
  cases r with
  | error e => trivial
  | ok u =>
    have hs' : s' = m.writeCtrl v := hs'.resolve_right (by simp [refused, RegOp.succeeded,
      Except.isOk, Except.toBool])
    rw [hs']
    exact h m hm

/-- Read, change and write: the value read is the register's, or that with the restart taken. -/
theorem wp_updateSgmiiCtrl {f : BitVec 16 → BitVec 16} {P : Unit → SgmiiRegs → Prop}
    (h : ∀ m m' : SgmiiRegs, m = s ∨ m = s.taken → P () (m'.writeCtrl (f m.ctrl))) :
    wp sgmiiDev (updateSgmiiCtrl f) (OnOk P) s :=
  wp_onOk_bind (wp_sgmiiRead fun m hm => wp_sgmiiWrite fun m' _ => h m m' hm)

end Access

/-! ## The parts of a call -/

section Parts
variable {s : SgmiiRegs} {link : Link} {sgmii : Sgmii}

/-- What a call that asks for negotiation is to leave behind. -/
def Negotiating (s : SgmiiRegs) : Prop := sgmiiAnen.get s.ctrl = 1 ∧ s.waiting = false

theorem sgmiiStarts_restarted (ctrl : BitVec 16) : sgmiiStarts (sgmiiRestarted ctrl) = true := by
  simp [sgmiiStarts, anen_sgmiiRestarted, anrs_sgmiiRestarted]

theorem negotiating_of_starts (hs : s.Fresh) (h : sgmiiStarts s.ctrl = true) : Negotiating s := by
  have hanen := (Bool.and_eq_true_iff.mp h).1
  exact ⟨by simpa using hanen, hs h⟩

theorem wp_sgmiiRestartAneg :
    wp sgmiiDev (sgmiiRestartAneg link) (OnOk fun _ s' => Negotiating s') s := by
  refine wp_onOk_bind (wp_updateSgmiiCtrl fun m m' _ => wp_pure ?_)
  exact negotiating_of_starts (fresh_writeCtrl _) (sgmiiStarts_restarted m.ctrl)

/-- A register on which `config_aneg` has something to do. -/
def Responsive (s : SgmiiRegs) (sgmii : Sgmii) : Prop :=
  s.ctrl &&& sgmiiAdvMask = sgmiiAdvSet sgmii → sgmiiAnrs.get s.ctrl = 1 → sgmiiAnen.get s.ctrl = 1

theorem responsive_of_anrs (h : sgmiiAnrs.get s.ctrl = 0) : Responsive s sgmii := by
  intro _ hpending
  rw [h] at hpending
  cases hpending

theorem responsive_taken {m : SgmiiRegs} (hs : Responsive s sgmii) (hm : m = s ∨ m = s.taken) :
    Responsive m sgmii := by
  rcases hm with rfl | rfl
  · exact hs
  · exact responsive_of_anrs (anrs_taken s)

theorem taken_and_advMask (s : SgmiiRegs) : s.taken.ctrl &&& sgmiiAdvMask = s.ctrl &&& sgmiiAdvMask :=
  Field.replace_and_of_disjoint (by decide)

/-- A pending restart that is left alone is one with negotiation on. -/
theorem wp_sgmiiRestartUnlessPending (hfresh : s.Fresh) (hs : Responsive s sgmii)
    (hsame : s.ctrl &&& sgmiiAdvMask = sgmiiAdvSet sgmii) :
    wp sgmiiDev (sgmiiRestartUnlessPending link) (OnOk fun _ s' => Negotiating s') s := by
  refine wp_onOk_bind (wp_sgmiiRead fun m hm => ?_)
  refine wp_ite (fun _ => wp_sgmiiRestartAneg) fun hpending => wp_pure ?_
  have hpending : sgmiiAnrs.get m.ctrl = 1 := not_not.mp hpending
  rcases hm with rfl | rfl
  · refine negotiating_of_starts hfresh ?_
    simp [sgmiiStarts, hs hsame hpending, hpending]
  · rw [anrs_taken] at hpending
    cases hpending

theorem wp_sgmiiNegotiate (hfresh : s.Fresh) (hs : Responsive s sgmii) :
    wp sgmiiDev (sgmiiNegotiate link sgmii) (OnOk fun _ s' => Negotiating s') s := by
  have hadvert : wp sgmiiDev (sgmiiConfigAdvert sgmii) (OnOk fun changed s' => changed = false →
      s'.Fresh ∧ Responsive s' sgmii ∧ s'.ctrl &&& sgmiiAdvMask = sgmiiAdvSet sgmii) s := by
    refine wp_onOk_bind (wp_sgmiiRead fun m hm => ?_)
    refine wp_ite (fun hsame => wp_pure fun _ => ⟨?_, responsive_taken hs hm, hsame⟩) fun _ => ?_
    · rcases hm with rfl | rfl
      · exact hfresh
      · exact fresh_taken
    · exact wp_onOk_bind (wp_sgmiiWrite fun _ _ => wp_pure fun h => by cases h)
  refine wp_onOk_bind (wp_mono hadvert fun r s' hr => ?_)
  cases r with
  | error e => trivial
  | ok changed =>
    refine wp_ite (fun _ => wp_sgmiiRestartAneg) fun hkept => ?_
    obtain ⟨hfresh', hs', hsame⟩ := hr (Bool.not_eq_true _ ▸ hkept)
    exact wp_sgmiiRestartUnlessPending hfresh' hs' hsame

theorem responsive_withLinkcfgdir {ctrl : BitVec 16} {waiting : Bool} (dir : LinkcfgDir)
    (h : Responsive ⟨ctrl, waiting⟩ sgmii) (s' : SgmiiRegs) :
    Responsive (s'.writeCtrl (withLinkcfgdir dir ctrl)) sgmii := by
  intro hsame hpending
  have hsame : withLinkcfgdir dir ctrl &&& sgmiiAdvMask = sgmiiAdvSet sgmii := hsame
  have hpending : sgmiiAnrs.get (withLinkcfgdir dir ctrl) = 1 := hpending
  show sgmiiAnen.get (withLinkcfgdir dir ctrl) = 1
  rw [withLinkcfgdir_and_advMask] at hsame
  rw [get_withLinkcfgdir (by decide)] at hpending ⊢
  exact h hsame hpending

theorem wp_sgmiiConfigAneg (hs : Responsive s sgmii) (hauto : sgmii.link.autoneg ≠ 0) :
    wp sgmiiDev (sgmiiConfigAneg link sgmii) (OnOk fun _ s' => Negotiating s') s := by
  refine wp_onOk_bind (wp_updateSgmiiCtrl fun m m' hm => ?_)
  refine wp_ite (fun hforce => absurd hforce hauto) fun _ => ?_
  exact wp_sgmiiNegotiate (fresh_writeCtrl _)
    (responsive_withLinkcfgdir sgmii.linkcfgDir (responsive_taken hs hm) m')

end Parts

/-! ## A device that takes up no restart -/

/-- Every access succeeds, and the restart bit stays. -/
def pendingHandler : Handler regSig SgmiiRegs
  | .mmdRead .vend1 8, s => (.ok s.ctrl, s)
  | o, s => (okAnswer o, s.write o)

theorem sgmiiDev_of_pendingHandler {s s' : SgmiiRegs} {e : Event regSig}
    (h : pendingHandler.dev s e s') : sgmiiDev s e s' := by
  obtain ⟨o, r⟩ := e
  have h : pendingHandler o s = (r, s') := h
  refine ⟨s, .inl rfl, ?_⟩
  unfold pendingHandler at h
  split at h
  · cases h
    exact ⟨rfl, .inl rfl⟩
  · rename_i hother
    cases h
    refine ⟨?_, .inl rfl⟩
    unfold SgmiiRegs.Shows
    split
    · rename_i heq
      exact (hother (congrArg Event.op heq)).elim
    · trivial

section Pending
variable {s s' : SgmiiRegs} {link : Link} {sgmii : Sgmii} {r : Except Errno Link}

/-- A run against that device is a call. -/
theorem sgmiiStep_of_exec (hacc : sgmiiAccepts sgmii = true)
    (h : (sgmiiConfigAneg link sgmii).exec pendingHandler s = (r, s')) :
    ∃ t, SgmiiStep s ⟨.configAneg sgmii, link, t, r⟩ s' := by
  obtain ⟨t, hrun, hpath⟩ := (exec_eq_iff).mp h
  have hpath : sgmiiDev.Path s t s' :=
    Dev.path_map id (fun _ _ _ hd => sgmiiDev_of_pendingHandler hd) hpath
  have hcall : gpy2xxSgmiiConfigAneg link sgmii = locked (sgmiiConfigAneg link sgmii) :=
    if_neg (by simp [hacc])
  obtain ⟨t', hlocked, rfl⟩ := runs_locked_of_body hrun
  refine ⟨t', ?_, hpath⟩
  show (gpy2xxSgmiiConfigAneg link sgmii).Runs t' r
  rw [hcall]
  exact hlocked

theorem exec_stalled (h : Stalled s sgmii) (hauto : sgmii.link.autoneg ≠ 0) :
    (sgmiiConfigAneg link sgmii).exec pendingHandler s =
      (.ok link, s.writeCtrl (withLinkcfgdir sgmii.linkcfgDir s.ctrl)) := by
  obtain ⟨-, hsame, hpending, -⟩ := h
  have hset : (sgmiiLinkcfgdirSet sgmii).exec pendingHandler s =
      (.ok (), s.writeCtrl (withLinkcfgdir sgmii.linkcfgDir s.ctrl)) := rfl
  rw [sgmiiConfigAneg, exec_bind_ok hset, exec_ite, if_neg hauto, sgmiiNegotiate]
  have hread : ∀ s : SgmiiRegs, (phyReadMmd .vend1 sgmiiCtrl).exec pendingHandler s =
      (.ok s.ctrl, s) := fun _ => rfl
  have hadvert : (sgmiiConfigAdvert sgmii).exec pendingHandler
      (s.writeCtrl (withLinkcfgdir sgmii.linkcfgDir s.ctrl)) =
      (.ok false, s.writeCtrl (withLinkcfgdir sgmii.linkcfgDir s.ctrl)) := by
    rw [sgmiiConfigAdvert, exec_bind_ok (hread _), exec_ite, if_pos]
    · rfl
    · show withLinkcfgdir sgmii.linkcfgDir s.ctrl &&& sgmiiAdvMask = _
      rw [withLinkcfgdir_and_advMask, hsame]
  rw [exec_bind_ok hadvert, exec_ite, if_neg Bool.false_ne_true, sgmiiRestartUnlessPending,
    exec_bind_ok (hread _), exec_ite, if_neg]
  · rfl
  · show ¬sgmiiAnrs.get (withLinkcfgdir sgmii.linkcfgDir s.ctrl) ≠ 1
    rw [get_withLinkcfgdir (by decide), hpending]
    decide

theorem anen_stalled (h : Stalled s sgmii) (dir : LinkcfgDir) :
    sgmiiAnen.get (s.writeCtrl (withLinkcfgdir dir s.ctrl)).ctrl = 0 := by
  show sgmiiAnen.get (withLinkcfgdir dir s.ctrl) = 0
  rw [get_withLinkcfgdir (by decide), h.2.2.2]

end Pending

/-! ## Calls and runs -/

section Runs
variable {s m : SgmiiRegs} {cs : List SgmiiCall}

theorem responsive_of_not_stalled {sgmii : Sgmii} (hacc : sgmiiAccepts sgmii = true)
    (h : ¬Stalled s sgmii) : Responsive s sgmii := by
  intro hsame hpending
  have hlt : (sgmiiAnen.get s.ctrl).toNat < 2 ^ 1 := Field.get_lt (by decide)
  have hne : sgmiiAnen.get s.ctrl ≠ 0 := fun h0 => h ⟨hacc, hsame, hpending, h0⟩
  have hpos : (sgmiiAnen.get s.ctrl).toNat ≠ 0 := fun h0 => hne (BitVec.eq_of_toNat_eq h0)
  apply BitVec.eq_of_toNat_eq
  show (sgmiiAnen.get s.ctrl).toNat = 1
  omega

theorem sgmiiRun_snoc {c : SgmiiCall} {s' : SgmiiRegs} :
    SgmiiRun s (cs ++ [c]) s' ↔ ∃ m, SgmiiRun s cs m ∧ SgmiiStep m c s' := by
  induction cs generalizing s with
  | nil => simp [SgmiiRun]
  | cons c₀ cs ih =>
    simp only [List.cons_append, SgmiiRun, ih]
    constructor
    · intro h
      obtain ⟨m₀, h₀, m, hrun, hstep⟩ := h
      exact ⟨m, ⟨m₀, h₀, hrun⟩, hstep⟩
    · intro h
      obtain ⟨m, ⟨m₀, h₀, hrun⟩, hstep⟩ := h
      exact ⟨m₀, h₀, m, hrun, hstep⟩

/-- A call that asks for negotiation and succeeds gets it, if the register was not stalled. -/
theorem negotiating_of_sgmiiStep {link link' : Link} {sgmii : Sgmii} {t : Trace regSig.locking}
    {m' : SgmiiRegs} (hauto : sgmii.link.autoneg ≠ 0) (hm : ¬Stalled m sgmii)
    (hstep : SgmiiStep m ⟨.configAneg sgmii, link, t, .ok link'⟩ m') : Negotiating m' := by
  obtain ⟨hcall, hpath⟩ := hstep
  have hcall : (gpy2xxSgmiiConfigAneg link sgmii).Runs t (.ok link') := hcall
  by_cases hacc : sgmiiAccepts sgmii = true
  · rw [gpy2xxSgmiiConfigAneg, if_neg (by simp [hacc])] at hcall
    have hwp : wp sgmiiDev (sgmiiConfigAneg link sgmii) (OnOk fun _ s' => Negotiating s') m :=
      wp_sgmiiConfigAneg (responsive_of_not_stalled hacc hm) hauto
    exact hwp _ _ _ (Lock.Runs.accesses_locked hcall) hpath
  · rw [gpy2xxSgmiiConfigAneg, if_pos (by simp [hacc])] at hcall
    obtain ⟨-, hrejected⟩ := (runs_throw).mp hcall
    cases hrejected

/-- Negotiation is on after a call that asked for it. Let any calls have been made, with accesses
failing and the restart bit clearing whenever they do: a call of `config_aneg` with `autoneg` set
that succeeds leaves negotiation on, and restarted since its fields changed, exactly if those calls
cannot have left a stalled register. -/
theorem sgmii_negotiates_iff (s : SgmiiRegs) (cs : List SgmiiCall) (link : Link) (sgmii : Sgmii)
    (hauto : sgmii.link.autoneg ≠ 0) :
    (∀ t r m', SgmiiRun s (cs ++ [⟨.configAneg sgmii, link, t, r⟩]) m' → r.isOk →
      sgmiiAnen.get m'.ctrl = 1 ∧ m'.waiting = false) ↔
    ∀ m, SgmiiRun s cs m → ¬Stalled m sgmii := by
  constructor
  · intro h m hrun hstalled
    obtain ⟨t, hstep⟩ := sgmiiStep_of_exec hstalled.1 (@exec_stalled m link sgmii hstalled hauto)
    have hanen := (h t _ _ (sgmiiRun_snoc.mpr ⟨m, hrun, hstep⟩) rfl).1
    rw [anen_stalled hstalled] at hanen
    cases hanen
  · intro h t r m' hrun hok
    obtain ⟨m, hcs, hstep⟩ := (sgmiiRun_snoc).mp hrun
    cases r with
    | error e => cases hok
    | ok link' => exact negotiating_of_sgmiiStep hauto (h m hcs) hstep

/-- Negotiation as in 1000BASE-X. -/
def negotiatedSgmii : Sgmii where
  linkcfgDir := .sgmii
  anegMode := .bx1000
  link := ⟨⟨0, 0, 0, 0, 0, 0, 1⟩, 0, 0, 0⟩
  eeeEnable := 0

/-- Link settings of the shared data, which the SGMII side does not look at. -/
def blankLink : Link := ⟨0, 0, 0, 0, 0, 0, 0⟩

theorem exec_negotiatedSgmii : (sgmiiConfigAneg blankLink negotiatedSgmii).exec pendingHandler
    ⟨0, false⟩ = (.ok { blankLink with autoneg := 1 }, ⟨0x1205, false⟩) := rfl

/-- The first call on registers that hold 0. -/
theorem negotiating_first_call : ∃ t m', SgmiiRun ⟨0, false⟩
    [⟨.configAneg negotiatedSgmii, blankLink, t, .ok { blankLink with autoneg := 1 }⟩] m' ∧
      sgmiiAnen.get m'.ctrl = 1 ∧ m'.waiting = false := by
  obtain ⟨t, hstep⟩ := sgmiiStep_of_exec rfl exec_negotiatedSgmii
  have hrun : SgmiiRun ⟨0, false⟩
      ([] ++ [⟨.configAneg negotiatedSgmii, blankLink, t, .ok { blankLink with autoneg := 1 }⟩])
      ⟨0x1205, false⟩ := ⟨_, hstep, rfl⟩
  have hnever : ∀ m, SgmiiRun ⟨0, false⟩ [] m → ¬Stalled m negotiatedSgmii := by
    intro m hm
    rw [show m = ⟨0, false⟩ from hm]
    decide
  exact ⟨t, _, hrun, (sgmii_negotiates_iff ⟨0, false⟩ [] blankLink negotiatedSgmii (by decide)).mpr
    hnever t _ _ hrun rfl⟩

/-- 1 Gbps, forced. -/
def gigabitSgmii : Sgmii := { negotiatedSgmii with link := ⟨⟨1000, 1, 0, 0, 0, 0, 0⟩, 0, 0, 0⟩ }

/-- Negotiated, then forced before the device has taken up the restart, then negotiated again: the
last call succeeds, and negotiation stays off. -/
theorem not_negotiating_after_forced : ∃ t₁ t₂ t₃ m', SgmiiRun ⟨0, false⟩
    [⟨.configAneg negotiatedSgmii, blankLink, t₁, .ok { blankLink with autoneg := 1 }⟩,
      ⟨.configAneg gigabitSgmii, blankLink, t₂, .ok blankLink⟩,
      ⟨.configAneg negotiatedSgmii, blankLink, t₃, .ok blankLink⟩] m' ∧
      sgmiiAnen.get m'.ctrl = 0 := by
  have hforced : (sgmiiConfigAneg blankLink gigabitSgmii).exec pendingHandler ⟨0x1205, false⟩ =
      (.ok blankLink, ⟨0x345, false⟩) := rfl
  have hagain : (sgmiiConfigAneg blankLink negotiatedSgmii).exec pendingHandler ⟨0x345, false⟩ =
      (.ok blankLink, ⟨0x345, false⟩) := rfl
  obtain ⟨t₁, h₁⟩ := sgmiiStep_of_exec rfl exec_negotiatedSgmii
  obtain ⟨t₂, h₂⟩ := sgmiiStep_of_exec rfl hforced
  obtain ⟨t₃, h₃⟩ := sgmiiStep_of_exec rfl hagain
  exact ⟨t₁, t₂, t₃, ⟨0x345, false⟩, ⟨_, h₁, _, h₂, _, h₃, rfl⟩, rfl⟩

end Runs

end Gpy2xx
