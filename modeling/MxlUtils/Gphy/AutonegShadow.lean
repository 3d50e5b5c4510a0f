import MxlUtils.Gphy.Init
import MxlUtils.Gphy.ForcedSpeed
import MxlUtils.Gphy.Renegotiation

/- The software's record of negotiation. `link.autoneg` is written by several
   functions, at different points before and after the register write, and
   `config_aneg` decides by it. `ShadowState` holds the record beside the enable bit
   of the control register; of the device nothing is assumed but that the bit reads
   as it was written and that a reset sets it. The two agree after initialisation,
   and each call that `CarefulShadow` admits keeps them so. -/
namespace Gpy2xx
open Effect Effect.Fallible Effect.Lock Bits

/-! ## The enable bit -/

/-- The enable bit of a value of `STD_CTRL`. -/
def anenOf (ctrl : BitVec 16) : Bool := ctrl &&& ctrlAnen != 0

/-- What a write does to the bit; a reset sets it. -/
def anenWrite (anen : Bool) : RegOp → Bool
  | .phyWrite 0 v => anenOf v || v &&& ctrlRst != 0
  | _ => anen

/-- Reads show the bit; nothing else about the registers is known. -/
def AnenShows (anen : Bool) : Event regSig → Prop
  | ⟨.phyRead 0, .ok v⟩ => anenOf v = anen
  | _ => True

/-- The bit as memory. Any access may fail, and a write that fails may or may not have landed. -/
def anenDev : Dev regSig Bool := fun anen e anen' =>
  AnenShows anen e ∧ (anen' = anenWrite anen e.op ∨ (refused e = true ∧ anen' = anen))

/-- A device on which no write that fails switches negotiation on. -/
def steadyDev : Dev regSig Bool := fun anen e anen' =>
  anenDev anen e anen' ∧ (refused e = true → anen' = true → anen = true)

/-! ## Calls -/

/-- The calls with their settings; `autoneg` of these settings is the record's, not theirs. -/
inductive ShadowOp where
  | softReset (link : Link)
  | setupForced (link : Link) (mstrSlave : BitVec 8)
  | restartAneg (link : Link)
  | configAneg (link : Link) (mstrSlave : BitVec 8)

structure ShadowCall where
  op : ShadowOp
  trace : Trace regSig.locking

/-- The enable bit, and `link.autoneg`. -/
structure ShadowState where
  anen : Bool
  autoneg : Int
deriving DecidableEq

/-- The record after a call: a failed one leaves it alone. -/
def recordAfter (autoneg : Int) : Except Errno Link → Int
  | .ok link => link.autoneg
  | .error _ => autoneg

/-- What a call may do to the record; a forced speed clears it whatever comes of the call. -/
def ShadowOp.Records (autoneg : Int) (t : Trace regSig.locking) (autoneg' : Int) : ShadowOp → Prop
  | .softReset link => ∃ r, (gpy2xxSoftReset { link with autoneg := autoneg }).Runs t r ∧
      autoneg' = recordAfter autoneg r
  | .setupForced link mstrSlave => ∃ r, (gpy2xxSetupForced link mstrSlave).Runs t r ∧ autoneg' = 0
  | .restartAneg link => ∃ r, (gpy2xxRestartAneg { link with autoneg := autoneg }).Runs t r ∧
      autoneg' = recordAfter autoneg r
  | .configAneg link mstrSlave =>
    ∃ r, (gpy2xxConfigAneg { link with autoneg := autoneg } mstrSlave).Runs t r ∧
      autoneg' = recordAfter autoneg r

def ShadowStep (d : Dev regSig Bool) (s : ShadowState) (c : ShadowCall) (s' : ShadowState) : Prop :=
  c.op.Records s.autoneg c.trace s'.autoneg ∧ d.Path s.anen (accesses c.trace) s'.anen

/-- A sequence of calls, each of which `P` admits. -/
def ShadowRun (d : Dev regSig Bool) (P : ShadowState → ShadowCall → Prop) :
    ShadowState → List ShadowCall → ShadowState → Prop
  | s, [], s' => s' = s
  | s, c :: cs, s' => P s c ∧ ∃ m, ShadowStep d s c m ∧ ShadowRun d P m cs s'

/-- The record is the enable bit. -/
def Agrees (s : ShadowState) : Prop := s.autoneg = if s.anen then 1 else 0

instance (s : ShadowState) : Decidable (Agrees s) := inferInstanceAs (Decidable (_ = _))

/-- A speed is forced only where negotiation is off, or with settings that pass every check and with
the accesses up to the write of the control register succeeding. -/
def CarefulShadow (s : ShadowState) (c : ShadowCall) : Prop :=
  match c.op with
  | .setupForced link _ => s.anen = false ∨
      (forcedProgrammed link = true ∧ ∀ e ∈ (accesses c.trace).take 4, refused e = false)
  | _ => True

/-! ## One access -/

section Access
variable {anen : Bool} {α : Type} {v : BitVec 16} {E : Bool → Prop}

/-- An access that does not write the control register leaves the bit as it is. -/
theorem anen_of_steadyDev {e : Event regSig} {anen' : Bool} (h : steadyDev anen e anen')
    (hop : anenWrite anen e.op = anen) : anen' = anen := by
  obtain ⟨⟨-, hwrite⟩, -⟩ := h
  rcases hwrite with hwrite | ⟨-, hwrite⟩
  · rw [hwrite, hop]
  · exact hwrite

theorem wp_anenReadCtrl {P : BitVec 16 → Bool → Prop} (hok : ∀ v, anenOf v = anen → P v anen)
    (herr : E anen) : wp steadyDev (phyRead stdCtrl) (EndsIn P E) anen := by
  refine wp_access (S := regSig) (o := .phyRead stdCtrl) (g := id) fun r anen' hd => ?_
  rw [anen_of_steadyDev hd rfl]
  cases r with
  | ok v => exact hok v hd.1.1
  | error e => exact herr

/-- A write of the control register that switches negotiation on, or resets. -/
theorem wp_anenOn {P : Unit → Bool → Prop} (hv : anenWrite anen (.phyWrite 0 v) = true)
    (hok : P () true) (herr : E anen) : wp steadyDev (phyWrite stdCtrl v) (EndsIn P E) anen := by
  refine wp_access (S := regSig) (o := .phyWrite stdCtrl v) (g := id) fun r anen' hd => ?_
  obtain ⟨⟨-, hwrite⟩, hsteady⟩ := hd
  have hwrite : anen' = true ∨ (_ ∧ anen' = anen) := hwrite.imp (fun h => h.trans hv) id
  cases r with
  | ok u =>
    rw [hwrite.resolve_right (by simp [refused, RegOp.succeeded, Except.isOk, Except.toBool])]
    exact hok
  | error e =>
    have hsame : anen' = anen := by
      rcases hwrite with hon | ⟨-, hsame⟩
      · rw [hon, hsteady rfl hon]
      · exact hsame
    rw [hsame]
    exact herr

/-- What no access of a program does, the program does not. -/
theorem anen_of_path {t : RegTrace} {anen' : Bool} (hop : ∀ e ∈ t, anenWrite anen e.op = anen)
    (hpath : steadyDev.Path anen t anen') : anen' = anen := by
  induction t with
  | nil => exact hpath
  | cons e t ih =>
    obtain ⟨m, hm, hpath⟩ := hpath
    obtain rfl := anen_of_steadyDev hm (hop e List.mem_cons_self)
    exact ih (fun e he => hop e (List.mem_cons_of_mem _ he)) hpath

/-- A program keeps the bit if every write of the control register that it may make does. -/
def KeepsAnen (anen : Bool) (x : Api α) : Prop :=
  x.All fun (o : RegOp) => anenWrite anen o = anen

theorem wp_keepsAnen {x : Api α} (hx : KeepsAnen anen x) :
    wp steadyDev x (fun _ anen' => anen' = anen) anen := by
  intro t r anen' hrun hpath
  exact anen_of_path (Prog.Runs.all hrun hx) hpath

theorem wp_keepsAnen_bind {β : Type} {x : Api α} {f : α → Api β} {P : β → Bool → Prop}
    (hx : KeepsAnen anen x) (herr : E anen) (hf : ∀ a, wp steadyDev (f a) (EndsIn P E) anen) :
    wp steadyDev (x >>= f) (EndsIn P E) anen := by
  refine wp_bind (wp_mono (wp_keepsAnen hx) fun r anen' hanen => ?_)
  subst hanen
  cases r with
  | ok a => exact hf a
  | error e => exact herr

theorem keepsAnen_phyRead (reg : Nat) : KeepsAnen anen (phyRead reg) := ⟨rfl, fun _ => trivial⟩

theorem keepsAnen_phyReadMmd (devad : Mmd) (reg : Nat) : KeepsAnen anen (phyReadMmd devad reg) :=
  ⟨rfl, fun _ => trivial⟩

theorem keepsAnen_phyMboxRead (addr : Nat) : KeepsAnen anen (phyMboxRead addr) :=
  ⟨rfl, fun _ => trivial⟩

theorem keepsAnen_phyWriteMmd (devad : Mmd) (reg : Nat) (v : BitVec 16) :
    KeepsAnen anen (phyWriteMmd devad reg v) :=
  ⟨rfl, fun _ => trivial⟩

theorem keepsAnen_phyWrite {reg : Nat} (h : reg ≠ stdCtrl ∨ anenWrite anen (.phyWrite 0 v) = anen) :
    KeepsAnen anen (phyWrite reg v) := by
  refine ⟨?_, fun _ => trivial⟩
  by_cases hreg : reg = stdCtrl
  · rw [hreg]
    exact h.resolve_left (not_not.mpr hreg)
  · cases reg with
    | zero => exact absurd rfl hreg
    | succ reg => rfl

end Access

/-! ## Forcing a speed -/

section Forced
variable {anen anen' : Bool} {link : Link} {mstrSlave : BitVec 8}

/-- The control register of a forced speed: some bits of the old one, and bits of the speed. -/
theorem anenWrite_masked {v mask bits : BitVec 16} (hmask : mask &&& (ctrlAnen ||| ctrlRst) = 0)
    (hbits : bits &&& (ctrlAnen ||| ctrlRst) = 0) :
    anenWrite anen (.phyWrite 0 (v &&& mask ||| bits)) = false := by
  have hnone : (v &&& mask ||| bits) &&& (ctrlAnen ||| ctrlRst) = 0 := by
    rw [BitVec.and_or_distrib_right, BitVec.and_assoc, hmask, hbits]
    simp
  have hoff : ∀ {f : BitVec 16}, (ctrlAnen ||| ctrlRst) &&& f = f → (v &&& mask ||| bits) &&& f = 0 := by
    intro f hf
    rw [← hf, ← BitVec.and_assoc, hnone]
    simp
  simp [anenWrite, anenOf, @hoff ctrlAnen (by decide), @hoff ctrlRst (by decide)]

/-- Settings that are accepted begin with a write that switches negotiation off. -/
theorem forceSpeed_eq (ctrl : BitVec 16)
    (h : link.speed ≤ 1000 → (forcedSpeedBits link.speed).isSome) :
    ∃ v k, forceSpeed link ctrl = phyWrite stdCtrl v >>= k ∧
      (∀ anen, anenWrite anen (.phyWrite 0 v) = false) ∧ ∀ u, KeepsAnen false (k u) := by
  by_cases hle : link.speed ≤ 1000
  · obtain ⟨bits, hbits⟩ := Option.isSome_iff_exists.mp (h hle)
    have hspeed : bits &&& (ctrlAnen ||| ctrlRst) = 0 ∧
        (bits ||| ctrlDplx) &&& (ctrlAnen ||| ctrlRst) = 0 := by
      unfold forcedSpeedBits at hbits
      split_ifs at hbits <;> cases hbits <;> decide
    refine ⟨forcedCtrl link bits ctrl, pure, ?_, fun anen => ?_, fun _ => Fallible.All.pure _⟩
    · rw [forceSpeed, if_pos hle, forceUpTo1000, hbits, bind_pure]
      rfl
    · unfold forcedCtrl
      split
      · rw [BitVec.or_assoc]
        exact anenWrite_masked (by decide) hspeed.2
      · exact anenWrite_masked (by decide) hspeed.1
  · refine ⟨_, _, by rw [forceSpeed, if_neg hle, forceAbove1000], fun anen => ?_, fun _ => ?_⟩
    · exact anenWrite_masked (by decide) (by decide)
    · exact Fallible.All.bind (keepsAnen_phyReadMmd _ _) fun _ =>
        Fallible.All.bind (keepsAnen_phyReadMmd _ _) fun _ =>
        Fallible.All.bind (keepsAnen_phyWriteMmd _ _ _) fun _ => keepsAnen_phyWriteMmd _ _ _

theorem keepsAnen_forceSpeed (ctrl : BitVec 16) : KeepsAnen false (forceSpeed link ctrl) := by
  by_cases h : link.speed ≤ 1000 → (forcedSpeedBits link.speed).isSome
  · obtain ⟨v, k, heq, hv, hk⟩ := forceSpeed_eq ctrl h
    rw [heq]
    exact Fallible.All.bind (keepsAnen_phyWrite (.inr (hv false))) hk
  · obtain ⟨hle, hbits⟩ := Classical.not_imp.mp h
    rw [forceSpeed, if_pos hle, forceUpTo1000, Option.not_isSome_iff_eq_none.mp hbits]
    exact Fallible.All.throw _

/-- Nothing in `setup_forced` switches negotiation on. -/
theorem keepsAnen_setupForced : KeepsAnen false (setupForced link mstrSlave) := by
  refine Fallible.All.ite (fun _ => Fallible.All.throw _) fun _ => ?_
  refine Fallible.All.bind (keepsAnen_phyRead _) fun _ => ?_
  refine Fallible.All.bind (keepsAnen_phyWrite (.inl (by decide))) fun _ => ?_
  refine Fallible.All.bind (keepsAnen_phyRead _) fun _ => ?_
  refine Fallible.All.bind (keepsAnen_forceSpeed _) fun _ => ?_
  exact Fallible.All.bind (keepsAnen_phyRead _) fun _ => keepsAnen_phyWrite (.inl (by decide))

/-- The start of an accepted call, if nothing fails up to the write of the control register. -/
theorem runs_setupForced_start {t : RegTrace} {r : Except Errno Unit}
    (hprog : forcedProgrammed link = true) (hrun : (setupForced link mstrSlave).Runs t r)
    (hok : ∀ e ∈ t.take 4, refused e = false) :
    ∃ adv adv' ctrl v rest, t = ⟨.phyRead 4, .ok adv⟩ :: ⟨.phyWrite 4 adv', .ok ()⟩ ::
      ⟨.phyRead 0, .ok ctrl⟩ :: ⟨.phyWrite 0 v, .ok ()⟩ :: rest ∧
      anenWrite anen (.phyWrite 0 v) = false := by
  obtain ⟨haccepts, hspeed⟩ := Bool.and_eq_true_iff.mp hprog
  have hbits : link.speed ≤ 1000 → (forcedSpeedBits link.speed).isSome := by
    intro hle
    have hslow : ¬1000 < link.speed := Int.not_lt.mpr hle
    simpa [hslow] using hspeed
  have hno : ∀ {o : RegOp} {ret : o.Ret}, o.succeeded ret = false → ⟨o, ret⟩ ∈ t.take 4 → False := by
    intro o ret hfail hmem
    have href := hok _ hmem
    simp [refused, hfail] at href
  clear hok
  rw [setupForced, if_neg (by simp [haccepts])] at hrun
  rcases (runs_phyRead_bind).mp hrun with ⟨e, rfl, -⟩ | ⟨adv, t₁, rfl, hrun₁⟩
  · exact (@hno (.phyRead stdAnAdv) (.error e) rfl (by simp)).elim
  rcases (runs_phyWrite_bind).mp hrun₁ with ⟨e, rfl, -⟩ | ⟨_, t₂, rfl, hrun₂⟩
  · exact (@hno (.phyWrite stdAnAdv (forcedAnAdv link adv)) (.error e) rfl (by simp)).elim
  rcases (runs_phyRead_bind).mp hrun₂ with ⟨e, rfl, -⟩ | ⟨ctrl, t₃, rfl, hrun₃⟩
  · exact (@hno (.phyRead stdCtrl) (.error e) rfl (by simp)).elim
  obtain ⟨v, k, heq, hv, -⟩ := forceSpeed_eq ctrl hbits
  rw [heq, bind_assoc] at hrun₃
  rcases (runs_phyWrite_bind).mp hrun₃ with ⟨e, rfl, -⟩ | ⟨_, t₄, rfl, -⟩
  · exact (@hno (.phyWrite stdCtrl v) (.error e) rfl (by simp)).elim
  · exact ⟨adv, _, ctrl, v, t₄, rfl, hv anen⟩

/-- A speed that is forced with care leaves negotiation off. -/
theorem anen_of_setupForced {t : RegTrace} {r : Except Errno Unit}
    (hcare : anen = false ∨ (forcedProgrammed link = true ∧ ∀ e ∈ t.take 4, refused e = false))
    (hrun : (setupForced link mstrSlave).Runs t r) (hpath : steadyDev.Path anen t anen') :
    anen' = false := by
  have hoff := Prog.Runs.all hrun keepsAnen_setupForced
  rcases hcare with rfl | ⟨hprog, hok⟩
  · exact anen_of_path hoff hpath
  · obtain ⟨adv, adv', ctrl, v, rest, rfl, hv⟩ :=
      @runs_setupForced_start anen _ _ _ _ hprog hrun hok
    obtain ⟨a₁, h₁, a₂, h₂, a₃, h₃, a₄, h₄, hpath⟩ := hpath
    obtain rfl := anen_of_steadyDev h₁ rfl
    obtain rfl := anen_of_steadyDev h₂ rfl
    obtain rfl := anen_of_steadyDev h₃ rfl
    have hwritten : a₄ = false := by
      rcases h₄.1.2 with hwrite | ⟨hfail, -⟩
      · rw [hwrite, hv]
      · cases hfail
    subst hwritten
    exact anen_of_path (fun e he => hoff e (by simp [he])) hpath

end Forced

/-! ## The other calls -/

section Calls
variable {s s' : ShadowState} {link : Link} {mstrSlave : BitVec 8}

/-- The record and the bit agree when a call ends that met the record `autoneg`. -/
abbrev EndsAgreed (autoneg : Int) : Except Errno Link → Bool → Prop :=
  EndsIn (fun link anen => Agrees ⟨anen, link.autoneg⟩) fun anen => Agrees ⟨anen, autoneg⟩

theorem agrees_recordAfter {autoneg : Int} {r : Except Errno Link} {anen : Bool}
    (h : EndsAgreed autoneg r anen) : Agrees ⟨anen, recordAfter autoneg r⟩ := by
  cases r with
  | ok link => exact h
  | error e => exact h

/-- A call that switches negotiation on, or fails: the failure leaves both as they were. -/
theorem wp_switchesOn (hs : Agrees s) {f : BitVec 16 → BitVec 16}
    (hf : ∀ v, anenWrite s.anen (.phyWrite 0 (f v)) = true) {link' : Link} (hon : link'.autoneg = 1) :
    wp steadyDev (do let v ← phyRead stdCtrl; phyWrite stdCtrl (f v); pure link')
      (EndsAgreed s.autoneg) s.anen := by
  refine wp_keepsAnen_bind (keepsAnen_phyRead _) hs fun v => ?_
  exact wp_endsIn_bind (wp_anenOn (hf v) (wp_pure hon) hs)

theorem wp_softReset (hs : Agrees s) :
    wp steadyDev (do phySetBits stdCtrl ctrlRst; pure { link with autoneg := 1 })
      (EndsAgreed s.autoneg) s.anen := by
  have hrst : ∀ v, (v &&& ~~~0 ||| ctrlRst) &&& ctrlRst ≠ 0 := by
    intro v h
    have hbit := congrArg (BitVec.getLsbD · 15) h
    have hset : ctrlRst[15] = true := by decide
    simp [hset] at hbit
  have hon := @wp_switchesOn s hs (fun v => v &&& ~~~0 ||| ctrlRst)
    (fun v => by simp only [anenWrite, bne_iff_ne.mpr (hrst v), Bool.or_true])
    { link with autoneg := 1 } rfl
  unfold phySetBits phySetMaskBits
  rw [bind_assoc]
  exact hon

theorem wp_restartAneg_agreed (hs : Agrees s) :
    wp steadyDev (restartAneg link) (EndsAgreed s.autoneg) s.anen := by
  refine wp_switchesOn hs (fun v => ?_) rfl
  have hanen : restarted v &&& ctrlAnen = ctrlAnen := restarted_bits v (by decide)
  rw [anenWrite, anenOf, hanen]
  rfl

theorem keepsAnen_updateChanged {anen : Bool} {reg : Nat} {f : BitVec 16 → BitVec 16}
    (hreg : reg ≠ stdCtrl) : KeepsAnen anen (updateChanged reg f) := by
  refine Fallible.All.bind (keepsAnen_phyRead _) fun _ => Fallible.All.ite (fun _ => ?_) fun _ =>
    Fallible.All.pure _
  exact Fallible.All.bind (keepsAnen_phyWrite (.inl hreg)) fun _ => Fallible.All.pure _

/-- Programming the advertisement does not touch the control register. -/
theorem keepsAnen_configAdvert {anen : Bool} : KeepsAnen anen (configAdvert link) := by
  have hclear : KeepsAnen anen clearMs :=
    Fallible.All.bind (keepsAnen_phyRead _) fun _ => keepsAnen_phyWrite (.inl (by decide))
  have hgctrl : ∀ modes, KeepsAnen anen (updateGctrl modes) := fun modes =>
    Fallible.All.bind (keepsAnen_phyRead _) fun _ =>
      Fallible.All.ite (fun _ => keepsAnen_updateChanged (by decide)) fun _ => Fallible.All.pure _
  have hmgbt : ∀ modes changed, KeepsAnen anen (updateMgbt modes changed) := by
    intro modes changed
    refine Fallible.All.bind (keepsAnen_phyReadMmd _ _) fun _ => Fallible.All.ite (fun _ => ?_)
      fun _ => Fallible.All.pure _
    refine Fallible.All.bind (Fallible.All.attempt (keepsAnen_phyWriteMmd _ _ _)) fun ret => ?_
    cases ret with
    | error e => exact Fallible.All.pure _
    | ok _ => exact Fallible.All.pure _
  refine Fallible.All.bind hclear fun _ => ?_
  refine Fallible.All.bind (keepsAnen_updateChanged (by decide)) fun _ => ?_
  exact Fallible.All.bind (hgctrl _) fun _ => hmgbt _ _

/-- `config_aneg` chooses by the record, and the choice is right while the two agree. -/
theorem wp_configAneg_agreed (hs : Agrees s) (hauto : link.autoneg = s.autoneg) :
    wp steadyDev (configAneg link mstrSlave) (EndsAgreed s.autoneg) s.anen := by
  have hs' : s.autoneg = if s.anen then 1 else 0 := hs
  refine wp_ite (fun hforced => ?_) fun hneg => ?_
  · -- negotiation is off, and nothing in a forced speed switches it on
    rw [hauto] at hforced
    have hoff : s.anen = false := by
      rw [hforced] at hs'
      simpa using hs'
    rw [hoff]
    refine wp_keepsAnen_bind keepsAnen_setupForced hforced fun _ => wp_pure ?_
    show link.autoneg = 0
    rw [hauto, hforced]
  · -- negotiation is on; where it is not restarted, nothing changes
    refine wp_keepsAnen_bind keepsAnen_configAdvert hs fun ret => ?_
    refine wp_ite (fun _ => wp_restartAneg_agreed hs) fun _ => ?_
    refine wp_keepsAnen_bind (keepsAnen_phyRead _) hs fun v => ?_
    refine wp_ite (fun _ => wp_pure ?_) fun _ => wp_restartAneg_agreed hs
    show link.autoneg = if s.anen then 1 else 0
    rw [hauto, ← hs']

/-- One call. -/
theorem agrees_step {c : ShadowCall} (hs : Agrees s) (hcare : CarefulShadow s c)
    (hstep : ShadowStep steadyDev s c s') : Agrees s' := by
  obtain ⟨hrec, hpath⟩ := hstep
  obtain ⟨op, t⟩ := c
  have hagrees : ∀ {r}, EndsAgreed s.autoneg r s'.anen → s'.autoneg = recordAfter s.autoneg r →
      Agrees s' := by
    intro r h hafter
    have hrecord : recordAfter s.autoneg r = if s'.anen then 1 else 0 := agrees_recordAfter h
    rw [Agrees, hafter, hrecord]
  cases op with
  | softReset link =>
    obtain ⟨r, hrun, hafter⟩ := hrec
    exact hagrees (wp_softReset hs _ _ _ (Runs.accesses_locked hrun) hpath) hafter
  | setupForced link mstrSlave =>
    obtain ⟨r, hrun, hafter⟩ := hrec
    rw [Agrees, hafter, anen_of_setupForced hcare (Runs.accesses_locked hrun) hpath]
    rfl
  | restartAneg link =>
    obtain ⟨r, hrun, hafter⟩ := hrec
    exact hagrees (wp_restartAneg_agreed hs _ _ _ (Runs.accesses_locked hrun) hpath) hafter
  | configAneg link mstrSlave =>
    obtain ⟨r, hrun, hafter⟩ := hrec
    exact hagrees (wp_configAneg_agreed hs rfl _ _ _ (Runs.accesses_locked hrun) hpath) hafter

/-- A run of careful calls. -/
theorem agrees_run {cs : List ShadowCall} (hs : Agrees s)
    (hrun : ShadowRun steadyDev CarefulShadow s cs s') : Agrees s' := by
  induction cs generalizing s with
  | nil => exact (show s' = s from hrun) ▸ hs
  | cons c cs ih =>
    obtain ⟨hcare, m, hstep, hrest⟩ := hrun
    exact ih (agrees_step hs hcare hstep) hrest

end Calls

/-! ## Initialisation -/

section Init
variable {anen : Bool}

theorem keepsAnen_readIdentity : KeepsAnen anen readIdentity :=
  Fallible.All.bind (keepsAnen_phyRead _) fun _ => Fallible.All.bind (keepsAnen_phyRead _) fun _ =>
    Fallible.All.ite (fun _ => Fallible.All.throw _) fun _ =>
      Fallible.All.bind (keepsAnen_phyRead _) fun _ =>
        Fallible.All.bind (keepsAnen_phyRead _) fun _ => Fallible.All.pure _

theorem keepsAnen_synceSupported (family : Family) (modelNo : BitVec 8) (wd2 : BitVec 16) :
    KeepsAnen anen (synceSupported family modelNo wd2) := by
  cases family with
  | p31g => exact Fallible.All.pure _
  | p34x => exact Fallible.All.ite (fun _ => Fallible.All.pure _) fun _ => Fallible.All.pure _
  | p34xLgs => exact Fallible.All.throw _
  | other v => exact Fallible.All.throw _

theorem keepsAnen_readMacsecSupported : KeepsAnen anen readMacsecSupported := by
  have hread : ∀ addr, KeepsAnen anen ((phyMboxRead addr).failWith EACCES) := fun addr =>
    Fallible.All.failWith (keepsAnen_phyMboxRead addr) _
  have hsas : KeepsAnen anen readNrOfSas :=
    Fallible.All.bind (hread _) fun _ => Fallible.All.bind (hread _) fun _ =>
      Fallible.All.ite (fun _ => Fallible.All.throw _) fun _ => Fallible.All.pure _
  exact Fallible.All.bind (keepsAnen_phyReadMmd _ _) fun _ =>
    Fallible.All.ite (fun _ => Fallible.All.bind hsas fun _ => Fallible.All.pure _) fun _ =>
      Fallible.All.pure _

theorem keepsAnen_readSupported : KeepsAnen anen readSupported :=
  Fallible.All.bind (keepsAnen_phyReadMmd _ _) fun _ =>
    Fallible.All.bind (keepsAnen_phyRead _) fun _ =>
      Fallible.All.ite (fun _ => Fallible.All.bind (keepsAnen_phyRead _) fun _ => Fallible.All.pure _)
        fun _ => Fallible.All.pure _

theorem keepsAnen_readAdvertising : KeepsAnen anen readAdvertising := by
  have hgctrl : ∀ modes, KeepsAnen anen (readAdvertisingG modes) := fun modes =>
    Fallible.All.bind (keepsAnen_phyRead _) fun _ =>
      Fallible.All.ite (fun _ => Fallible.All.bind (keepsAnen_phyRead _) fun _ => Fallible.All.pure _)
        fun _ => Fallible.All.pure _
  exact Fallible.All.bind (keepsAnen_phyRead _) fun _ =>
    Fallible.All.bind (keepsAnen_phyReadMmd _ _) fun _ => Fallible.All.bind (hgctrl _) fun _ =>
      Fallible.All.bind (keepsAnen_phyReadMmd _ _) fun _ => Fallible.All.pure _

/-- The status functions leave the record and the bit alone. -/
def KeepsRecord (autoneg : Int) (x : Api LinkStatus) : Prop :=
  ∀ anen, wp steadyDev x (OnOk fun link anen' => anen' = anen ∧ link.autoneg = autoneg) anen

theorem keepsRecord_pure {link : LinkStatus} : KeepsRecord link.autoneg (pure link) := fun _ =>
  wp_pure ⟨rfl, rfl⟩

theorem keepsRecord_bind {α : Type} {autoneg : Int} {x : Api α} {f : α → Api LinkStatus}
    (hx : ∀ anen, KeepsAnen anen x) (hf : ∀ a, KeepsRecord autoneg (f a)) :
    KeepsRecord autoneg (x >>= f) := fun anen =>
  wp_keepsAnen_bind (hx anen) trivial fun a => hf a anen

theorem keepsRecord_ite {autoneg : Int} {c : Prop} [Decidable c] {x y : Api LinkStatus}
    (hx : KeepsRecord autoneg x) (hy : KeepsRecord autoneg y) :
    KeepsRecord autoneg (if c then x else y) := fun anen =>
  wp_ite (fun _ => hx anen) fun _ => hy anen

/-- A status function after another one. -/
theorem keepsRecord_then {autoneg : Int} {x : Api LinkStatus} {f : LinkStatus → Api LinkStatus}
    (hx : KeepsRecord autoneg x) (hf : ∀ link, link.autoneg = autoneg → KeepsRecord autoneg (f link)) :
    KeepsRecord autoneg (x >>= f) := by
  intro anen
  refine wp_onOk_bind (wp_mono (hx anen) fun r anen' hr => ?_)
  cases r with
  | error e => trivial
  | ok link =>
    obtain ⟨rfl, hlink⟩ := hr
    exact hf link hlink _

theorem withPmaSpeed_autoneg (link : LinkStatus) (pma : BitVec 16) :
    (withPmaSpeed link pma).autoneg = link.autoneg := by
  unfold withPmaSpeed
  split <;> rfl

theorem keepsRecord_readStatus (link : LinkStatus) : KeepsRecord link.autoneg (readStatus link) := by
  have hpure : ∀ {l : LinkStatus}, l.autoneg = link.autoneg → KeepsRecord link.autoneg (pure l) := by
    intro l hl
    rw [← hl]
    exact keepsRecord_pure
  have hread : ∀ reg anen, KeepsAnen anen (phyRead reg) := fun reg _ => keepsAnen_phyRead reg
  have hreadMmd : ∀ devad reg anen, KeepsAnen anen (phyReadMmd devad reg) := fun devad reg _ =>
    keepsAnen_phyReadMmd devad reg
  refine keepsRecord_bind (hread _) fun stat => keepsRecord_ite ?_ ?_
  · -- negotiated
    refine keepsRecord_then (keepsRecord_ite (hpure rfl) ?_) fun l hl => ?_
    · refine keepsRecord_bind (hreadMmd _ _) fun _ => keepsRecord_ite (hpure rfl) ?_
      exact keepsRecord_bind (hreadMmd _ _) fun _ => hpure rfl
    refine keepsRecord_then (keepsRecord_ite (hpure hl) ?_) fun l hl => ?_
    · exact keepsRecord_bind (hread _) fun _ => hpure hl
    exact keepsRecord_bind (hread _) fun _ => keepsRecord_bind (hread _) fun _ => hpure hl
  · -- forced
    refine keepsRecord_bind (hreadMmd _ _) fun _ => keepsRecord_ite ?_ ?_
    · exact hpure (withPmaSpeed_autoneg _ _)
    · exact keepsRecord_bind (hread _) fun _ => hpure rfl

/-- The record starts as the bit. -/
theorem wp_initLink (link : LinkStatus) :
    wp steadyDev (initLink link) (OnOk fun l anen' => Agrees ⟨anen', l.autoneg⟩) anen := by
  refine wp_endsIn_bind (wp_anenReadCtrl (fun ctrl hctrl => ?_) trivial)
  refine wp_keepsAnen_bind keepsAnen_readSupported trivial fun supported => ?_
  refine wp_keepsAnen_bind keepsAnen_readAdvertising trivial fun advertising => ?_
  refine wp_mono (keepsRecord_readStatus _ anen) fun r anen' hr => ?_
  cases r with
  | error e => trivial
  | ok l =>
    obtain ⟨rfl, hl⟩ := hr
    show l.autoneg = if anen' then 1 else 0
    rw [hl, ← hctrl]
    by_cases hoff : ctrl &&& ctrlAnen = 0
    · simp [anenOf, hoff]
    · simp [anenOf]

theorem wp_configInit (own : Option (Family × BitVec 8)) (link : LinkStatus) :
    wp steadyDev (configInit own link) (OnOk fun i anen' => Agrees ⟨anen', i.link.autoneg⟩) anen := by
  refine wp_keepsAnen_bind keepsAnen_readIdentity trivial fun wd => ?_
  refine wp_keepsAnen_bind ?_ trivial fun family => ?_
  · exact Fallible.All.bind (keepsAnen_phyReadMmd _ _) fun _ => Fallible.All.pure _
  refine wp_keepsAnen_bind (keepsAnen_synceSupported _ _ _) trivial fun synce => ?_
  refine wp_keepsAnen_bind keepsAnen_readMacsecSupported trivial fun nrOfSas => ?_
  refine wp_onOk_bind (wp_mono (wp_initLink link) fun r anen' hr => ?_)
  cases r with
  | error e => trivial
  | ok l => exact wp_pure hr

/-- After a first initialisation that succeeds, the record is the bit. -/
theorem agrees_gpy2xxInit {own : Option (Family × BitVec 8)} {link : LinkStatus} {anen' : Bool}
    {t : Trace regSig.locking} {init : DeviceInit}
    (hrun : (gpy2xxInit false own link).Runs t (.ok (some init)))
    (hpath : steadyDev.Path anen (accesses t) anen') : Agrees ⟨anen', init.link.autoneg⟩ := by
  have hbody : wp steadyDev (do
      let init ← some <$> configInit own link
      phySetBits phyImask 0x200
      pure init) (OnOk fun i anen' => ∀ found, i = some found → Agrees ⟨anen', found.link.autoneg⟩)
      anen := by
    rw [map_eq_pure_bind, bind_assoc]
    refine wp_onOk_bind (wp_mono (wp_configInit own link) fun r anen' hr => ?_)
    cases r with
    | error e => trivial
    | ok found =>
      show wp steadyDev (pure (some found) >>= _) _ _
      rw [pure_bind]
      refine wp_keepsAnen_bind ?_ trivial fun _ => wp_pure fun i hi => ?_
      · exact Fallible.All.bind (keepsAnen_phyRead _) fun _ => keepsAnen_phyWrite (.inl (by decide))
      · cases hi
        exact hr
  exact hbody _ _ _ (Runs.accesses_locked hrun) hpath init rfl

end Init

/-- The record of negotiation is the enable bit in every state that a first initialisation and any
sequence of careful calls lead to. -/
theorem autoneg_agrees_of_careful {own : Option (Family × BitVec 8)} {link : LinkStatus}
    {init : DeviceInit} {t : Trace regSig.locking} {anen anen' : Bool} {cs : List ShadowCall}
    {s : ShadowState} (hinit : (gpy2xxInit false own link).Runs t (.ok (some init)))
    (hpath : steadyDev.Path anen (accesses t) anen')
    (hrun : ShadowRun steadyDev CarefulShadow ⟨anen', init.link.autoneg⟩ cs s) : Agrees s :=
  agrees_run (agrees_gpy2xxInit hinit hpath) hrun

/-! ## A run, and the call that separates them -/

/-- A PHY that negotiates, found by the first initialisation; its other registers read zero. -/
def initTrace : Trace regSig.locking :=
  [⟨.lock, ()⟩, ⟨.acc (.phyRead 2), .ok 0x67C9⟩, ⟨.acc (.phyRead 3), .ok 0xDC00⟩,
    ⟨.acc (.phyRead 0x1E), .ok 0⟩, ⟨.acc (.phyRead 0x11), .ok 0⟩,
    ⟨.acc (.mmdRead .vend2 0xFF0), .ok 0⟩, ⟨.acc (.mmdRead .vend1 sgmiiStat), .ok 0⟩,
    ⟨.acc (.phyRead 0), .ok 0x1000⟩, ⟨.acc (.mmdRead .pmapmd 4), .ok 0⟩, ⟨.acc (.phyRead 1), .ok 0⟩,
    ⟨.acc (.phyRead 4), .ok 0⟩, ⟨.acc (.mmdRead .an 1), .ok 0⟩, ⟨.acc (.phyRead 1), .ok 0⟩,
    ⟨.acc (.mmdRead .an 0x20), .ok 0⟩, ⟨.acc (.phyRead 1), .ok 0⟩, ⟨.acc (.phyRead 5), .ok 0⟩,
    ⟨.acc (.phyRead 0x18), .ok 0⟩, ⟨.acc (.phyRead 0x19), .ok 0⟩,
    ⟨.acc (.phyWrite 0x19 0x200), .ok ()⟩, ⟨.unlock, ()⟩]

theorem runs_initTrace : ∃ init, init.link.autoneg = 1 ∧
    (gpy2xxInit false none (fullDuplex 10)).Runs initTrace (.ok (some init)) :=
  ⟨_, by rfl, (), _, rfl, .ok 0x67C9, _, rfl, .ok 0xDC00, _, rfl, .ok 0, _, rfl, .ok 0, _, rfl,
    .ok 0, _, rfl, .ok 0, _, rfl, .ok 0x1000, _, rfl, .ok 0, _, rfl, .ok 0, _, rfl, .ok 0, _, rfl,
    .ok 0, _, rfl, .ok 0, _, rfl, .ok 0, _, rfl, .ok 0, _, rfl, .ok 0, _, rfl, .ok 0, _, rfl,
    .ok 0, _, rfl, .ok (), _, rfl, (), _, rfl, rfl, rfl⟩

theorem path_initTrace : steadyDev.Path true (accesses initTrace) true := by
  have hsteady : ∀ t : RegTrace, (∀ e ∈ t, AnenShows true e ∧ anenWrite true e.op = true) →
      steadyDev.Path true t true := by
    intro t
    induction t with
    | nil => exact fun _ => rfl
    | cons e t ih =>
      intro h
      obtain ⟨hshows, hwrite⟩ := h e List.mem_cons_self
      exact ⟨true, ⟨⟨hshows, .inl hwrite.symm⟩, fun _ _ => rfl⟩,
        ih fun e he => h e (List.mem_cons_of_mem _ he)⟩
  refine hsteady _ ?_
  simp [initTrace, accesses, AnenShows, anenWrite, anenOf]
  decide

/-- 10 Mbps is forced, and every access succeeds. -/
def tenFullCall : ShadowCall where
  op := .setupForced (fullDuplex 10).toLink 0
  trace := [⟨.lock, ()⟩, ⟨.acc (.phyRead 4), .ok 0⟩, ⟨.acc (.phyWrite 4 0), .ok ()⟩,
    ⟨.acc (.phyRead 0), .ok 0x1000⟩, ⟨.acc (.phyWrite 0 0x100), .ok ()⟩, ⟨.acc (.phyRead 9), .ok 0⟩,
    ⟨.acc (.phyWrite 9 0x1000), .ok ()⟩, ⟨.unlock, ()⟩]

theorem agrees_tenFullCall : ∃ init s, (gpy2xxInit false none (fullDuplex 10)).Runs initTrace
    (.ok (some init)) ∧ ShadowRun steadyDev CarefulShadow ⟨true, init.link.autoneg⟩ [tenFullCall] s ∧
    s.anen = false ∧ Agrees s := by
  obtain ⟨init, hauto, hinit⟩ := runs_initTrace
  have hstep : ShadowStep steadyDev ⟨true, init.link.autoneg⟩ tenFullCall ⟨false, 0⟩ :=
    ⟨⟨.ok (), ⟨(), _, rfl, .ok 0, _, rfl, .ok (), _, rfl, .ok 0x1000, _, rfl, .ok (), _, rfl, .ok 0, _,
        rfl, .ok (), _, rfl, (), _, rfl, rfl, rfl⟩, rfl⟩,
      _, ⟨⟨trivial, .inl rfl⟩, fun _ h => h⟩, _, ⟨⟨trivial, .inl rfl⟩, fun _ h => h⟩,
      _, ⟨⟨rfl, .inl rfl⟩, fun _ h => h⟩, _, ⟨⟨trivial, .inl rfl⟩, fun h => by cases h⟩,
      _, ⟨⟨trivial, .inl rfl⟩, fun _ h => h⟩, _, ⟨⟨trivial, .inl rfl⟩, fun _ h => h⟩, rfl⟩
  have hcare : CarefulShadow ⟨true, init.link.autoneg⟩ tenFullCall :=
    .inr ⟨rfl, by simp [tenFullCall, accesses, refused, RegOp.succeeded, Except.isOk, Except.toBool]⟩
  have hrun : ShadowRun steadyDev CarefulShadow ⟨true, init.link.autoneg⟩ [tenFullCall] ⟨false, 0⟩ :=
    ⟨hcare, _, hstep, rfl⟩
  exact ⟨init, _, hinit, hrun, rfl, autoneg_agrees_of_careful hinit path_initTrace hrun⟩

/-- A speed that is rejected: no register is accessed, and the record is cleared. -/
def rejectedCall : ShadowCall where
  op := .setupForced (fullDuplex (-1)).toLink 0
  trace := [⟨.lock, ()⟩, ⟨.unlock, ()⟩]

/-- After it the PHY negotiates, and the record says that it does not. -/
theorem not_agrees_rejectedCall : ∃ init anen s,
    (gpy2xxInit false none (fullDuplex 10)).Runs initTrace (.ok (some init)) ∧
    steadyDev.Path true (accesses initTrace) anen ∧
    ShadowRun steadyDev (fun _ _ => True) ⟨anen, init.link.autoneg⟩ [rejectedCall] s ∧
    ¬Agrees s := by
  obtain ⟨init, hauto, hinit⟩ := runs_initTrace
  have hstep : ShadowStep steadyDev ⟨true, init.link.autoneg⟩ rejectedCall ⟨true, 0⟩ :=
    ⟨⟨.error EINVAL, ⟨(), _, rfl, (), _, rfl, rfl, rfl⟩, rfl⟩, rfl⟩
  exact ⟨init, true, _, hinit, path_initTrace, ⟨trivial, _, hstep, rfl⟩, by decide⟩

end Gpy2xx
