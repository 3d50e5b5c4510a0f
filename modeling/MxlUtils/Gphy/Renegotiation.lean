import MxlUtils.Gphy.Link
import MxlUtils.Lib.Wp

/- Lost renegotiations. `config_aneg` restarts negotiation when the call itself
   changed a register, so what an earlier call changed before it failed is not
   renegotiated by a call that finds nothing left to change. `LinkRegs` records
   whether an advertisement is still waiting for a restart; the invariant `Calm`,
   that nothing waits while the PHY negotiates, is kept by the calls that
   `CarefulCall` admits, on a device whose accesses fail where `careful` lets them. -/
namespace Gpy2xx
open Effect Effect.Fallible Effect.Lock Bits

/-! ## The registers of the link -/

/-- The registers, and whether one of the three advertisement registers has changed since the last
restart. -/
structure LinkRegs where
  anAdv : BitVec 16
  gctrl : BitVec 16
  mgbt : BitVec 16
  ctrl : BitVec 16
  stat : BitVec 16
  waiting : Bool

/-- A write of `STD_CTRL` that restarts negotiation. -/
def restarts (ctrl : BitVec 16) : Bool := ctrl &&& ctrlAnen != 0 && ctrl &&& ctrlAnrs != 0

namespace LinkRegs

def writeAnAdv (s : LinkRegs) (v : BitVec 16) : LinkRegs :=
  { s with anAdv := v, waiting := s.waiting || v != s.anAdv }

def writeGctrl (s : LinkRegs) (v : BitVec 16) : LinkRegs :=
  { s with gctrl := v, waiting := s.waiting || v != s.gctrl }

def writeMgbt (s : LinkRegs) (v : BitVec 16) : LinkRegs :=
  { s with mgbt := v, waiting := s.waiting || v != s.mgbt }

def writeCtrl (s : LinkRegs) (v : BitVec 16) : LinkRegs :=
  { s with ctrl := v, waiting := s.waiting && !restarts v }

/-- What a write does to the registers. -/
def write (s : LinkRegs) : RegOp → LinkRegs
  | .phyWrite 0 v => s.writeCtrl v
  | .phyWrite 4 v => s.writeAnAdv v
  | .phyWrite 9 v => s.writeGctrl v
  | .mmdWrite .an 0x20 v => s.writeMgbt v
  | _ => s

/-- What a read of `STD_CTRL` may show: the restart and reset bits clear themselves. -/
def ShowsCtrl (s : LinkRegs) (v : BitVec 16) : Prop :=
  v &&& ~~~(ctrlAnrs ||| ctrlRst) = s.ctrl &&& ~~~(ctrlAnrs ||| ctrlRst)

/-- What a successful read may answer; of the status register only the extension bit is fixed. -/
def Shows (s : LinkRegs) : Event regSig → Prop
  | ⟨.phyRead 0, .ok v⟩ => s.ShowsCtrl v
  | ⟨.phyRead 1, .ok v⟩ => v &&& statExt = s.stat &&& statExt
  | ⟨.phyRead 4, .ok v⟩ => v = s.anAdv
  | ⟨.phyRead 9, .ok v⟩ => v = s.gctrl
  | ⟨.mmdRead .an 0x20, .ok v⟩ => v = s.mgbt
  | _ => True

/-- The PHY negotiates with what it advertises. -/
def Active (s : LinkRegs) : Prop := negotiates s.ctrl = true

instance (s : LinkRegs) : Decidable s.Active := inferInstanceAs (Decidable (_ = true))

/-- No changed advertisement waits while the PHY negotiates. -/
def Calm (s : LinkRegs) : Prop := s.Active → s.waiting = false

instance (s : LinkRegs) : Decidable s.Calm := inferInstanceAs (Decidable (_ → _))

end LinkRegs

/-- Registers as memory. Any access may fail, and a write that fails may or may not have landed. -/
def linkDev : Dev regSig LinkRegs := fun s e s' =>
  s.Shows e ∧ (s' = s.write e.op ∨ (refused e = true ∧ s' = s))

/-- The write of a multi-gigabit value other than 0. -/
def isMgbtWrite : RegOp → Bool
  | .mmdWrite .an 0x20 v => v != 0
  | _ => false

/-- The failures that cannot cost a renegotiation: an access fails only while no changed
advertisement waits on a PHY that negotiates. A failed write of the multi-gigabit register counts as
a change, whatever the value, unless that is 0. -/
def careful (e : Event regSig) (s' : LinkRegs) : Prop :=
  refused e = true → s'.Calm ∨ isMgbtWrite e.op = true

def carefulDev : Dev regSig LinkRegs := fun s e s' => linkDev s e s' ∧ careful e s'

/-! ## Sequences of calls -/

/-- A call of `config_aneg` with its settings, its trace and its result. -/
structure AnegCall where
  link : Link
  mstrSlave : BitVec 8
  trace : Trace regSig.locking
  result : Except Errno Link

/-- The call takes the registers from `s` to `s'` on the device `d`. -/
def AnegStep (d : Dev regSig LinkRegs) (s : LinkRegs) (c : AnegCall) (s' : LinkRegs) : Prop :=
  (gpy2xxConfigAneg c.link c.mstrSlave).Runs c.trace c.result ∧ d.Path s (accesses c.trace) s'

/-- A forced speed goes through, or changes no advertisement before it is rejected, or does not meet
a PHY that negotiates. -/
def CarefulForced (s : LinkRegs) (link : Link) : Prop :=
  forcedAccepts link = false ∨ link.speed > 1000 ∨ (forcedSpeedBits link.speed).isSome ∨
    forcedAnAdv link s.anAdv = s.anAdv ∨ ¬s.Active

/-- Something is left for the call to change in the fields it compares. -/
def AdvertChanges (s : LinkRegs) (modes : BitVec 64) : Prop :=
  anAdvOf modes s.anAdv ≠ s.anAdv ∨
    (s.stat &&& statExt ≠ 0 ∧ gctrlOf modes (msCleared s.gctrl) ≠ msCleared s.gctrl) ∨
    mgbtOf modes s.mgbt ≠ s.mgbt

/-- Clearing the master/slave bits, which is not counted as a change, is not all that an accepted
call does on a PHY that negotiates. -/
def CarefulAdvert (s : LinkRegs) (link : Link) : Prop :=
  msCleared s.gctrl = s.gctrl ∨ AdvertChanges s link.narrowed.advertising ∨ ¬s.Active

/-- The settings fit the registers they meet. -/
def CarefulCall (s : LinkRegs) (c : AnegCall) : Prop :=
  if c.link.autoneg = 0 then CarefulForced s c.link else CarefulAdvert s c.link

/-- A sequence of calls, each of them with settings that `P` admits. -/
def AnegRun (d : Dev regSig LinkRegs) (P : LinkRegs → AnegCall → Prop) :
    LinkRegs → List AnegCall → LinkRegs → Prop
  | s, [], s' => s' = s
  | s, c :: cs, s' => P s c ∧ ∃ m, AnegStep d s c m ∧ AnegRun d P m cs s'

/-! ## One access -/

/-- A result in `P`, or a failure that leaves the registers calm. -/
def Ends {α : Type} (P : α → LinkRegs → Prop) : Except Errno α → LinkRegs → Prop
  | .ok a, s => P a s
  | .error _, s => s.Calm

section Access
variable {s s' : LinkRegs} {α β : Type} {reg : Nat} {v : BitVec 16}

theorem wp_ends_bind {x : Api α} {f : α → Api β} {P : β → LinkRegs → Prop}
    (h : wp carefulDev x (Ends fun a s' => wp carefulDev (f a) (Ends P) s') s) :
    wp carefulDev (x >>= f) (Ends P) s := by
  refine wp_bind (wp_mono h fun r s' hr => ?_)
  cases r with
  | ok a => exact hr
  | error e => exact hr

theorem wp_linkRead {P : BitVec 16 → LinkRegs → Prop}
    (h : ∀ v, s.Shows ⟨.phyRead reg, .ok v⟩ → P v s) :
    wp carefulDev (phyRead reg) (Ends P) s := by
  refine wp_access (S := regSig) (o := .phyRead reg) (g := id) fun r s' hd => ?_
  obtain ⟨⟨hshows, hs'⟩, hcareful⟩ := hd
  obtain rfl : s' = s := hs'.elim id And.right
  cases r with
  | ok v => exact h v hshows
  | error e => exact (hcareful rfl).resolve_right (by simp [isMgbtWrite])

theorem wp_linkReadMmd {devad : Mmd} {P : BitVec 16 → LinkRegs → Prop}
    (h : ∀ v, s.Shows ⟨.mmdRead devad reg, .ok v⟩ → P v s) :
    wp carefulDev (phyReadMmd devad reg) (Ends P) s := by
  refine wp_access (S := regSig) (o := .mmdRead devad reg) (g := id) fun r s' hd => ?_
  obtain ⟨⟨hshows, hs'⟩, hcareful⟩ := hd
  obtain rfl : s' = s := hs'.elim id And.right
  cases r with
  | ok v => exact h v hshows
  | error e => exact (hcareful rfl).resolve_right (by simp [isMgbtWrite])

theorem wp_linkWrite {P : Unit → LinkRegs → Prop} (h : P () (s.write (.phyWrite reg v))) :
    wp carefulDev (phyWrite reg v) (Ends P) s := by
  refine wp_access (S := regSig) (o := .phyWrite reg v) (g := id) fun r s' hd => ?_
  obtain ⟨⟨-, hs'⟩, hcareful⟩ := hd
  cases r with
  | ok _ =>
    obtain rfl : s' = s.write (.phyWrite reg v) := hs'.resolve_right (by simp [refused,
      RegOp.succeeded, Except.isOk, Except.toBool])
    exact h
  | error e => exact (hcareful rfl).resolve_right (by simp [isMgbtWrite])

/-- A write to the PMA changes no register of the link. -/
theorem wp_linkWritePma {P : Unit → LinkRegs → Prop} (h : P () s) :
    wp carefulDev (phyWriteMmd .pmapmd reg v) (Ends P) s := by
  refine wp_access (S := regSig) (o := .mmdWrite .pmapmd reg v) (g := id) fun r s' hd => ?_
  obtain ⟨⟨-, hs'⟩, hcareful⟩ := hd
  obtain rfl : s' = s := hs'.elim id And.right
  cases r with
  | ok _ => exact h
  | error e => exact (hcareful rfl).resolve_right (by simp [isMgbtWrite])

/-- The multi-gigabit write: it may fail with a value other than 0 whatever waits. -/
theorem wp_linkWriteMgbt {P : Except Errno Unit → LinkRegs → Prop}
    (hok : P (.ok ()) (s.writeMgbt v))
    (herr : ∀ e s', s' = s ∨ s' = s.writeMgbt v → s'.Calm ∨ v ≠ 0 → P (.error e) s') :
    wp carefulDev (phyWriteMmd .an anegMgbtAnCtrl v).attempt (Ends P) s := by
  refine wp_attempt (wp_access (S := regSig) (o := .mmdWrite .an anegMgbtAnCtrl v) (g := id)
    fun r s' hd => ?_)
  obtain ⟨⟨-, hs'⟩, hcareful⟩ := hd
  have hs' : s' = s.writeMgbt v ∨ (_ ∧ s' = s) := hs'
  cases r with
  | ok _ =>
    obtain rfl := hs'.resolve_right (by simp [refused, RegOp.succeeded, Except.isOk, Except.toBool])
    exact hok
  | error e =>
    refine herr e s' (hs'.elim .inr fun h => .inl h.2) ((hcareful rfl).imp id fun h => ?_)
    have h : (v != 0) = true := h
    simpa using h

end Access

/-! ## The parts of a call -/

section Parts
variable {s : LinkRegs} {modes : BitVec 64} {link : Link}

/-- A register that hides only the bits that clear themselves shows whether the PHY negotiates. -/
theorem negotiates_of_shows {v : BitVec 16} (h : s.ShowsCtrl v) :
    negotiates v = negotiates s.ctrl := by
  have hbits : ∀ w : BitVec 16, negotiates w =
      negotiates (w &&& ~~~(ctrlAnrs ||| ctrlRst)) := fun w => by
    have hanen : w &&& ~~~(ctrlAnrs ||| ctrlRst) &&& ctrlAnen = w &&& ctrlAnen := by
      rw [BitVec.and_assoc]; rfl
    have hisol : w &&& ~~~(ctrlAnrs ||| ctrlRst) &&& ctrlIsol = w &&& ctrlIsol := by
      rw [BitVec.and_assoc]; rfl
    rw [negotiates, negotiates, hanen, hisol]
  rw [hbits v, hbits s.ctrl, h]

/-- A value kept by a mask without the enable bit does not negotiate. -/
theorem not_negotiates_of_masked {v mask bits : BitVec 16} (hmask : mask &&& ctrlAnen = 0)
    (hbits : bits &&& ctrlAnen = 0) : negotiates (v &&& mask ||| bits) = false := by
  have hanen : (v &&& mask ||| bits) &&& ctrlAnen = 0 := by
    rw [BitVec.and_or_distrib_right, BitVec.and_assoc, hmask, hbits]
    simp
  simp [negotiates, hanen]

/-- The restart sets its bits whatever the register held. -/
theorem restarted_bits {mask : BitVec 16} (v : BitVec 16)
    (hmask : ∀ i < 16, mask.getLsbD i = true →
      (ctrlAnen.getLsbD i || ctrlAnrs.getLsbD i) = true ∧ ctrlIsol.getLsbD i = false) :
    restarted v &&& mask = mask := by
  apply BitVec.eq_of_getLsbD_eq
  intro i hi
  simp only [restarted, BitVec.getLsbD_and, BitVec.getLsbD_or, BitVec.getLsbD_not]
  cases hb : mask.getLsbD i with
  | false => rw [Bool.and_false]
  | true =>
    obtain ⟨hset, hisol⟩ := hmask i hi hb
    rw [hisol, Bool.or_assoc, hset]
    simp [hi]

theorem restarts_restarted (v : BitVec 16) : restarts (restarted v) = true := by
  rw [restarts, restarted_bits v (by decide), restarted_bits v (by decide)]
  rfl

/-- A restart that succeeds leaves nothing waiting. -/
theorem wp_restartAneg :
    wp carefulDev (restartAneg link) (Ends fun _ s' => s'.waiting = false) s := by
  refine wp_ends_bind (wp_linkRead fun v _ => wp_ends_bind (wp_linkWrite (wp_pure ?_)))
  show (s.waiting && !restarts (restarted v)) = false
  rw [restarts_restarted, Bool.not_true, Bool.and_false]

/-- Calm registers are left alone while they negotiate, and restarted otherwise. -/
theorem wp_restartIfOff (hs : s.Calm) :
    wp carefulDev (restartIfOff link) (Ends fun _ s' => s'.waiting = false) s := by
  refine wp_ends_bind (wp_linkRead fun v hv => wp_ite (fun hneg => wp_pure ?_) fun _ => wp_restartAneg)
  rw [negotiates_of_shows hv] at hneg
  exact hs hneg

/-! ### Programming the advertisement -/

theorem wp_clearMs {P : Unit → LinkRegs → Prop} (h : P () (s.writeGctrl (msCleared s.gctrl))) :
    wp carefulDev clearMs (Ends P) s := by
  refine wp_ends_bind (wp_linkRead fun v hv => wp_linkWrite ?_)
  obtain rfl : v = s.gctrl := hv
  exact h

theorem wp_updateAnAdv {f : BitVec 16 → BitVec 16} {P : Bool → LinkRegs → Prop}
    (hchange : f s.anAdv ≠ s.anAdv → P true (s.writeAnAdv (f s.anAdv)))
    (hkeep : f s.anAdv = s.anAdv → P false s) :
    wp carefulDev (updateChanged stdAnAdv f) (Ends P) s := by
  refine wp_ends_bind (wp_linkRead fun v hv => ?_)
  obtain rfl : v = s.anAdv := hv
  refine wp_ite (fun hne => wp_ends_bind (wp_linkWrite (wp_pure (hchange hne)))) fun heq => ?_
  exact wp_pure (hkeep (not_not.mp heq))

theorem wp_updateGctrl {P : Bool → LinkRegs → Prop}
    (hchange : P true (s.writeGctrl (gctrlOf modes s.gctrl)))
    (hkeep : (s.stat &&& statExt ≠ 0 → gctrlOf modes s.gctrl = s.gctrl) → P false s) :
    wp carefulDev (updateGctrl modes) (Ends P) s := by
  refine wp_ends_bind (wp_linkRead fun v hv => ?_)
  have hstat : v &&& statExt = s.stat &&& statExt := hv
  rw [hstat]
  refine wp_ite (fun _ => ?_) fun hext => wp_pure (hkeep fun h => absurd h hext)
  refine wp_ends_bind (wp_linkRead fun w hw => ?_)
  obtain rfl : w = s.gctrl := hw
  refine wp_ite (fun _ => wp_ends_bind (wp_linkWrite (wp_pure hchange))) fun heq => ?_
  exact wp_pure (hkeep fun _ => not_not.mp heq)

/-- A result of 0 means that nothing was counted as a change, or that a write of 0 failed on a PHY
it left calm. -/
theorem wp_updateMgbt {changed : Bool} {P : Nat → LinkRegs → Prop}
    (hpos : ∀ n s', n > 0 → P n s')
    (hkeep : mgbtOf modes s.mgbt = s.mgbt → changed = false → P 0 s)
    (hcalm : ∀ s', s'.Calm → P 0 s') :
    wp carefulDev (updateMgbt modes changed) (Ends P) s := by
  refine wp_ends_bind (wp_linkReadMmd fun v hv => ?_)
  obtain rfl : v = s.mgbt := hv
  refine wp_ite (fun _ => ?_) fun heq => ?_
  · refine wp_ends_bind (wp_linkWriteMgbt (wp_pure (hpos 1 _ Nat.one_pos)) fun e s' _ hfail => ?_)
    refine wp_pure ?_
    by_cases hzero : mgbtOf modes s.mgbt = 0
    · rw [hzero]
      exact hcalm s' (hfail.resolve_right (not_not.mpr hzero))
    · refine hpos _ s' (Nat.pos_of_ne_zero fun h => hzero ?_)
      exact BitVec.eq_of_toNat_eq h
  · cases changed with
    | true => exact wp_pure (hpos 1 s Nat.one_pos)
    | false => exact wp_pure (hkeep (not_not.mp heq) rfl)

/-- When the programming reports no change, the registers it leaves are calm. -/
theorem wp_configAdvert (hs : s.Calm) (hcareful : CarefulAdvert s link) :
    wp carefulDev (configAdvert link) (Ends fun n s' => n = 0 → s'.Calm) s := by
  refine wp_ends_bind (wp_clearMs ?_)
  have hpos : ∀ n (s' : LinkRegs), n > 0 → (n = 0 → s'.Calm) := fun n _ hn h0 =>
    absurd h0 (Nat.ne_of_gt hn)
  have hcalm : ∀ s' : LinkRegs, s'.Calm → (0 = 0 → s'.Calm) := fun _ h _ => h
  refine wp_ends_bind (wp_updateAnAdv (fun _ => ?_) fun hAnAdv => ?_)
  · -- the first change is counted, so no later result is 0
    refine wp_ends_bind (wp_updateGctrl ?_ fun _ => ?_)
    · exact wp_updateMgbt hpos (fun _ h => by cases h) hcalm
    · exact wp_updateMgbt hpos (fun _ h => by cases h) hcalm
  · refine wp_ends_bind (wp_updateGctrl ?_ fun hGctrl => ?_)
    · exact wp_updateMgbt hpos (fun _ h => by cases h) hcalm
    · refine wp_updateMgbt hpos (fun hMgbt _ _ hactive => ?_) hcalm
      -- nothing was counted: the master/slave bits were clear already, or nothing negotiates
      rcases hcareful with hms | hchanges | hidle
      · have hwaiting := hs hactive
        show (s.waiting || msCleared s.gctrl != s.gctrl) = false
        rw [hwaiting, hms]
        simp
      · rcases hchanges with h | ⟨hext, h⟩ | h
        · exact absurd hAnAdv h
        · exact absurd (hGctrl hext) h
        · exact absurd hMgbt h
      · exact absurd hactive hidle

/-! ### Forcing a speed -/

/-- A speed that is accepted switches negotiation off; any other changes nothing. -/
theorem wp_forceSpeed {ctrl : BitVec 16}
    (h : link.speed ≤ 1000 → (forcedSpeedBits link.speed).isSome ∨ s.Calm) :
    wp carefulDev (forceSpeed link ctrl) (Ends fun _ s' => ¬s'.Active) s := by
  have hoff : ∀ {mask bits : BitVec 16}, mask &&& ctrlAnen = 0 → bits &&& ctrlAnen = 0 →
      ¬(s.writeCtrl (ctrl &&& mask ||| bits)).Active := by
    intro mask bits hmask hbits hactive
    have hneg : negotiates (ctrl &&& mask ||| bits) = true := hactive
    rw [not_negotiates_of_masked hmask hbits] at hneg
    cases hneg
  refine wp_ite (fun hle => ?_) fun _ => ?_
  · rw [forceUpTo1000]
    cases hbits : forcedSpeedBits link.speed with
    | none =>
      refine wp_throw ((h hle).resolve_left ?_)
      simp [hbits]
    | some bits =>
      have hanen : bits &&& ctrlAnen = 0 := by
        unfold forcedSpeedBits at hbits
        split_ifs at hbits <;> cases hbits <;> rfl
      refine wp_linkWrite ?_
      show ¬(s.writeCtrl _).Active
      split
      · rw [BitVec.or_assoc]
        refine hoff (by decide) ?_
        rw [BitVec.and_or_distrib_right, hanen]
        rfl
      · exact hoff (by decide) hanen
  · refine wp_ends_bind (wp_linkWrite (wp_ends_bind (wp_linkReadMmd fun v _ => ?_)))
    refine wp_ends_bind (wp_linkReadMmd fun w _ => wp_ends_bind (wp_linkWritePma ?_))
    refine wp_linkWritePma ?_
    exact hoff (by decide) (by decide)

theorem wp_setupForced {mstrSlave : BitVec 8} (hs : s.Calm) (hcareful : CarefulForced s link) :
    wp carefulDev (setupForced link mstrSlave) (Ends fun _ s' => s'.Calm) s := by
  refine wp_ite (fun _ => wp_throw hs) fun haccepts => ?_
  refine wp_ends_bind (wp_linkRead fun v hv => wp_ends_bind (wp_linkWrite ?_))
  obtain rfl : v = s.anAdv := hv
  refine wp_ends_bind (wp_linkRead fun ctrl _ => wp_ends_bind (wp_mono (wp_forceSpeed ?_) ?_))
  · intro hle
    rcases hcareful with hrejected | hfast | hbits | hsame | hidle
    · simp [hrejected] at haccepts
    · omega
    · exact .inl hbits
    · refine .inr fun hactive => ?_
      show (s.waiting || forcedAnAdv link s.anAdv != s.anAdv) = false
      rw [hs hactive, hsame]
      simp
    · exact .inr fun hactive => absurd hactive hidle
  · intro r s' hr
    cases r with
    | error e => exact hr
    | ok _ =>
      refine wp_ends_bind (wp_linkRead fun gctrl _ => wp_linkWrite fun hactive => ?_)
      exact absurd hactive hr

end Parts

/-! ## Calls and runs -/

section Runs
variable {s m m' : LinkRegs} {c : AnegCall} {cs : List AnegCall}

/-- A careful call keeps the registers calm; if it negotiates and succeeds, nothing waits. -/
theorem wp_configAneg {link : Link} {mstrSlave : BitVec 8} (hs : s.Calm)
    (hcareful : if link.autoneg = 0 then CarefulForced s link else CarefulAdvert s link) :
    wp carefulDev (configAneg link mstrSlave)
      (Ends fun _ s' => s'.Calm ∧ (link.autoneg ≠ 0 → s'.waiting = false)) s := by
  refine wp_ite (fun hforced => ?_) fun hauto => ?_
  · rw [if_pos hforced] at hcareful
    refine wp_ends_bind (wp_mono (wp_setupForced hs hcareful) fun r s' hr => ?_)
    cases r with
    | error e => exact hr
    | ok _ => exact wp_pure ⟨hr, fun h => absurd hforced h⟩
  · rw [if_neg hauto] at hcareful
    have hdone : ∀ x : Api Link, ∀ s₁, wp carefulDev x (Ends fun _ s' => s'.waiting = false) s₁ →
        wp carefulDev x (Ends fun _ s' => s'.Calm ∧ (link.autoneg ≠ 0 → s'.waiting = false)) s₁ := by
      intro x s₁ hx
      refine wp_mono hx fun r s' hr => ?_
      cases r with
      | error e => exact hr
      | ok _ => exact ⟨fun _ => hr, fun _ => hr⟩
    refine wp_ends_bind (wp_mono (wp_configAdvert hs hcareful) fun r s' hr => ?_)
    cases r with
    | error e => exact hr
    | ok n =>
      refine wp_ite (fun _ => hdone _ _ wp_restartAneg) fun hzero => hdone _ _ (wp_restartIfOff ?_)
      exact hr (Nat.eq_zero_of_not_pos hzero)

/-- One call: the invariant, and the claim of a call that succeeds. -/
theorem calm_anegStep (hs : s.Calm) (hcareful : CarefulCall s c) (hstep : AnegStep carefulDev s c m) :
    m.Calm ∧ (c.link.autoneg ≠ 0 → c.result.isOk → m.waiting = false) := by
  obtain ⟨hrun, hpath⟩ := hstep
  have hbody : (configAneg c.link c.mstrSlave).Runs (accesses c.trace) c.result :=
    Lock.Runs.accesses_locked hrun
  have h := wp_configAneg hs hcareful _ _ _ hbody hpath
  cases hr : c.result with
  | error e =>
    rw [hr] at h
    exact ⟨h, fun _ hok => by cases hok⟩
  | ok link =>
    rw [hr] at h
    exact ⟨h.1, fun hauto _ => h.2 hauto⟩

/-- A run of careful calls keeps the registers calm. -/
theorem calm_anegRun (hs : s.Calm) (hrun : AnegRun carefulDev CarefulCall s cs m) : m.Calm := by
  induction cs generalizing s with
  | nil => exact (show m = s from hrun) ▸ hs
  | cons c cs ih =>
    obtain ⟨hcareful, m₁, hstep, hrest⟩ := hrun
    exact ih (calm_anegStep hs hcareful hstep).1 hrest

/-- No lost renegotiation: after any run of careful calls from registers on which nothing waits, a
call with `autoneg` set that succeeds leaves no advertisement that has changed since the last
restart. -/
theorem renegotiated_of_success (hfresh : s.waiting = false)
    (hrun : AnegRun carefulDev CarefulCall s cs m) (hcareful : CarefulCall m c)
    (hstep : AnegStep carefulDev m c m') (hauto : c.link.autoneg ≠ 0) (hok : c.result.isOk) :
    m'.waiting = false :=
  (calm_anegStep (calm_anegRun (fun _ => hfresh) hrun) hcareful hstep).2 hauto hok

end Runs

/-! ## A run, and the run that loses one -/

/-- Registers of a PHY that negotiates and advertises nothing. -/
def idleRegs : LinkRegs := ⟨0, 0, 0, ctrlAnen, 0, false⟩

/-- 10 Mbps half duplex, negotiated. -/
def tenHalf : Link := ⟨10, 0, 0, 0, 1, 1, 1⟩

/-- A call that adds 10 Mbps to what `idleRegs` advertises, and restarts. -/
def tenHalfCall : AnegCall where
  link := tenHalf
  mstrSlave := 0
  trace := [⟨.lock, ()⟩, ⟨.acc (.phyRead 9), .ok 0⟩, ⟨.acc (.phyWrite 9 0), .ok ()⟩,
    ⟨.acc (.phyRead 4), .ok 0⟩, ⟨.acc (.phyWrite 4 0x20), .ok ()⟩, ⟨.acc (.phyRead 1), .ok 0⟩,
    ⟨.acc (.mmdRead .an 0x20), .ok 0⟩, ⟨.acc (.phyRead 0), .ok 0x1000⟩,
    ⟨.acc (.phyWrite 0 0x1200), .ok ()⟩, ⟨.unlock, ()⟩]
  result := .ok tenHalf

theorem anegStep_tenHalfCall : AnegStep carefulDev idleRegs tenHalfCall
    ⟨0x20, 0, 0, 0x1200, 0, false⟩ := by
  have hok : ∀ {o : RegOp} {r : o.Ret} {s' : LinkRegs}, o.succeeded r = true →
      careful ⟨o, r⟩ s' := fun hok href => by simp [refused, hok] at href
  refine ⟨⟨(), _, rfl, .ok 0, _, rfl, .ok (), _, rfl, .ok 0, _, rfl, .ok (), _, rfl, .ok 0, _, rfl,
    .ok 0, _, rfl, .ok 0x1000, _, rfl, .ok (), _, rfl, (), _, rfl, rfl, rfl⟩, ?_⟩
  exact ⟨_, ⟨⟨rfl, .inl rfl⟩, hok rfl⟩, _, ⟨⟨trivial, .inl rfl⟩, hok rfl⟩,
    _, ⟨⟨rfl, .inl rfl⟩, hok rfl⟩, _, ⟨⟨trivial, .inl rfl⟩, hok rfl⟩,
    _, ⟨⟨rfl, .inl rfl⟩, hok rfl⟩, _, ⟨⟨rfl, .inl rfl⟩, hok rfl⟩,
    _, ⟨⟨rfl, .inl rfl⟩, hok rfl⟩, _, ⟨⟨trivial, .inl rfl⟩, hok rfl⟩, rfl⟩

theorem renegotiated_tenHalfCall :
    ∃ m, AnegStep carefulDev idleRegs tenHalfCall m ∧ m.anAdv = 0x20 ∧ m.waiting = false := by
  have hrun : AnegRun carefulDev CarefulCall idleRegs [] idleRegs := rfl
  have hcareful : CarefulCall idleRegs tenHalfCall :=
    show CarefulAdvert idleRegs tenHalf from .inl (by decide)
  exact ⟨_, anegStep_tenHalfCall, rfl,
    renegotiated_of_success rfl hrun hcareful anegStep_tenHalfCall (by decide) rfl⟩

/-- The same call, failing at the status register after it changed the advertisement. -/
def failedCall : AnegCall where
  link := tenHalf
  mstrSlave := 0
  trace := [⟨.lock, ()⟩, ⟨.acc (.phyRead 9), .ok 0⟩, ⟨.acc (.phyWrite 9 0), .ok ()⟩,
    ⟨.acc (.phyRead 4), .ok 0⟩, ⟨.acc (.phyWrite 4 0x20), .ok ()⟩,
    ⟨.acc (.phyRead 1), .error EIO⟩, ⟨.unlock, ()⟩]
  result := .error EIO

/-- And retried with the same settings: nothing is left to change. -/
def retriedCall : AnegCall where
  link := tenHalf
  mstrSlave := 0
  trace := [⟨.lock, ()⟩, ⟨.acc (.phyRead 9), .ok 0⟩, ⟨.acc (.phyWrite 9 0), .ok ()⟩,
    ⟨.acc (.phyRead 4), .ok 0x20⟩, ⟨.acc (.phyRead 1), .ok 0⟩, ⟨.acc (.mmdRead .an 0x20), .ok 0⟩,
    ⟨.acc (.phyRead 0), .ok 0x1000⟩, ⟨.unlock, ()⟩]
  result := .ok tenHalf

/-- The retry succeeds, and 10 Mbps is advertised but not negotiated. -/
theorem not_renegotiated_retriedCall : ∃ m m',
    AnegRun linkDev (fun _ _ => True) idleRegs [failedCall] m ∧ AnegStep linkDev m retriedCall m' ∧
      m'.anAdv = 0x20 ∧ m'.Active ∧ m'.waiting = true := by
  have hfailed : AnegStep linkDev idleRegs failedCall ⟨0x20, 0, 0, ctrlAnen, 0, true⟩ :=
    ⟨⟨(), _, rfl, .ok 0, _, rfl, .ok (), _, rfl, .ok 0, _, rfl, .ok (), _, rfl, .error EIO, _, rfl,
        (), _, rfl, rfl, rfl⟩,
      _, ⟨rfl, .inl rfl⟩, _, ⟨trivial, .inl rfl⟩, _, ⟨rfl, .inl rfl⟩, _, ⟨trivial, .inl rfl⟩,
      _, ⟨trivial, .inl rfl⟩, rfl⟩
  have hretried : AnegStep linkDev ⟨0x20, 0, 0, ctrlAnen, 0, true⟩ retriedCall
      ⟨0x20, 0, 0, ctrlAnen, 0, true⟩ :=
    ⟨⟨(), _, rfl, .ok 0, _, rfl, .ok (), _, rfl, .ok 0x20, _, rfl, .ok 0, _, rfl, .ok 0, _, rfl,
        .ok 0x1000, _, rfl, (), _, rfl, rfl, rfl⟩,
      _, ⟨rfl, .inl rfl⟩, _, ⟨trivial, .inl rfl⟩, _, ⟨rfl, .inl rfl⟩, _, ⟨rfl, .inl rfl⟩,
      _, ⟨rfl, .inl rfl⟩, _, ⟨rfl, .inl rfl⟩, rfl⟩
  exact ⟨_, _, ⟨trivial, _, hfailed, rfl⟩, hretried, rfl, rfl, rfl⟩

end Gpy2xx
