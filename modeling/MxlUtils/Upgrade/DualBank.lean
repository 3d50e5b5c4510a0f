import MxlUtils.Upgrade.VolMgmt
import MxlUtils.Lib.Execution

/- The two banks over the calls between two boots. A volume is untouched since the boot,
   complete, or broken: removed, made anew, or in the middle of a write that has not
   succeeded. The running bank is never touched. The bank named by active_bank stays
   bootable as long as nothing is written to it, and it is named only when none of its
   volumes is broken; the functions for kernel and boot core name it after their own
   volume, and those for the other images write to it afterwards all the same. -/
namespace VolMgmt
open Effect Execution

/-! ## Banks and volumes -/

inductive Content where
  | untouched
  | broken
  | complete
deriving DecidableEq

structure Flash where
  vols : String → Content
  active : String

def volume (image : Image) (b : Bank) : String := image.name ++ b.name

def Flash.put (s : Flash) (v : String) (c : Content) : Flash :=
  { s with vols := Function.update s.vols v c }

/-- The state while a command runs: a volume that is written is not complete. -/
def Flash.during (s : Flash) : Event volSig → Flash
  | ⟨.ubiupdatevol v _, _⟩ => s.put v .broken
  | _ => s

def Flash.after (s : Flash) : Event volSig → Flash
  | ⟨.ubirmvol v, c⟩ => if c = (0 : Nat) then s.put v .broken else s
  | ⟨.ubimkvol v _ _, c⟩ => if c = (0 : Nat) then s.put v .broken else s
  | ⟨.ubiupdatevol v _, c⟩ => s.put v (if c = (0 : Nat) then .complete else .broken)
  | ⟨.ubootEnvSet n v, c⟩ => if n = "active_bank" ∧ c = (0 : Nat) then { s with active := v } else s
  | _ => s

def Flash.final (s : Flash) (t : Trace volSig) : Flash := t.foldl Flash.after s

/-- No volume of the bank that is booted next is broken. -/
def Flash.Safe (s : Flash) : Prop := ∀ b image, s.active = b.name → s.vols (volume image b) ≠ .broken

/-- All states of a run are safe, also those in the middle of a command. -/
def SafeAlong : Flash → Trace volSig → Prop
  | _, [] => True
  | s, e :: t => (s.during e).Safe ∧ (s.after e).Safe ∧ SafeAlong (s.after e) t

/-- The volume a command removes, makes or writes, whatever comes of it. -/
def touched : Event volSig → Option String
  | ⟨.ubirmvol v, _⟩ => some v
  | ⟨.ubimkvol v _ _, _⟩ => some v
  | ⟨.ubiupdatevol v _, _⟩ => some v
  | _ => none

def SparesBank (b : Bank) (t : Trace volSig) : Prop := ∀ e ∈ t, ∀ image, touched e ≠ some (volume image b)

/-! ## Calls between two boots -/

/-- A call of `upgrade_dualvol_$image "$size"` and the commands it ran. -/
structure Upgrade where
  image : Image
  size : String
  trace : Trace volSig

def step (cmdline : List Char) (s : Flash) (u : Upgrade) (s' : Flash) : Prop :=
  (∃ c, Fallible.Runs (upgradeDualvol cmdline u.image u.size) u.trace (.ok c)) ∧ s' = s.final u.trace

/-- The kernel command line names `b` as the running bank: the last value of active_bank in it. -/
def Names (cmdline : List Char) (b : Bank) : Prop :=
  ∃ before after, cmdline = before ++ activeBankKey ++ b.name.toList ++ after ∧
    (after = [] ∨ ∃ rest, after = ' ' :: rest) ∧ ¬activeBankKey <:+: after

/-- The running bank is not touched, and in every state, also in the middle of a write, the bank
named by active_bank has no broken volume. -/
def UpgradesSafely (running : Bank) (s : Flash) (es : List (Upgrade × Flash)) : Prop :=
  (∀ e ∈ es, SparesBank running e.1.trace) ∧ Allowed (fun s u => SafeAlong s u.trace) s es

/-- The call does nothing; or it finds another bank named than the one it writes to, and, if it
names that bank, no other volume of it is broken. -/
def Careful (running : Bank) (s : Flash) (u : Upgrade) : Prop :=
  u.size = "" ∨ s.active ≠ running.other.name ∧
    (⟨.ubootEnvSet "active_bank" running.other.name, (0 : Nat)⟩ ∈ u.trace →
      ∀ image, image ≠ u.image → s.vols (volume image running.other) ≠ .broken)

variable {s : Flash} {t t₁ t₂ : Trace volSig} {e : Event volSig} {b : Bank} {image : Image} {size : String}
variable {cmdline : List Char} {u : Upgrade} {v : String} {c : Content}

/-! ## The running bank -/

theorem afterLast_of_not_infix {key d cs : List Char} (h : ¬key <:+: cs) : afterLast key d cs = d := by
  induction cs generalizing d with
  | nil => rfl
  | cons c cs ih =>
    have hfirst : ¬key.isPrefixOf (c :: cs) = true := fun hp => h (List.isPrefixOf_iff_prefix.mp hp).isInfix
    have hrest : ¬key <:+: cs := fun hi => h (hi.trans (List.suffix_cons c cs).isInfix)
    rw [afterLast, if_neg hfirst, ih hrest]

theorem afterLast_append {key cs r : List Char} (h : ∀ d, afterLast key d cs = r) (before : List Char) :
    ∀ d, afterLast key d (before ++ cs) = r := by
  induction before with
  | nil => exact h
  | cons c before ih => exact fun d => ih _

/-- No part of the key begins the key again. -/
theorem afterLast_key {rest : List Char} (h : ¬activeBankKey <:+: rest) (d : List Char) :
    afterLast activeBankKey d (activeBankKey ++ rest) = rest := by
  have hcs : activeBankKey = ['a', 'c', 't', 'i', 'v', 'e', '_', 'b', 'a', 'n', 'k', '='] := rfl
  rw [hcs] at h ⊢
  simp [afterLast, List.isPrefixOf, afterLast_of_not_infix h]

theorem runningBank_eq (h : Names cmdline b) : runningBank cmdline = b := by
  obtain ⟨before, after, rfl, hafter, hlast⟩ := h
  have hnone : ¬activeBankKey <:+: b.name.toList ++ after := by
    intro hinfix
    obtain ⟨c, hname, hc⟩ : ∃ c, b.name.toList = [c] ∧ c ≠ 'a' := by
      cases b
      · exact ⟨'A', rfl, by decide⟩
      · exact ⟨'B', rfl, by decide⟩
    rw [hname] at hinfix
    rcases List.infix_cons_iff.mp hinfix with hfirst | hinfix
    · exact hc (List.cons_prefix_cons.mp hfirst).1.symm
    · exact hlast hinfix
  have hvalue : ∀ d, afterLast activeBankKey d (before ++ (activeBankKey ++ (b.name.toList ++ after))) =
      b.name.toList ++ after := afterLast_append (afterLast_key hnone) before
  have hword : (b.name.toList ++ after).takeWhile (· ≠ ' ') = b.name.toList := by
    rcases hafter with rfl | ⟨rest, rfl⟩ <;> cases b <;> simp [Bank.name]
  rw [runningBank, List.append_assoc, List.append_assoc, hvalue, hword]
  cases b <;> simp [Bank.name]

/-! ## One volume -/

theorem Bank.length_name (b : Bank) : b.name.toList.length = 1 := by
  cases b <;> rfl

theorem Bank.eq_of_name {b b' : Bank} (h : b.name = b'.name) : b = b' := by
  cases b <;> cases b' <;> simp [Bank.name] at h ⊢

theorem Image.eq_of_name {image image' : Image} (h : image.name = image'.name) : image = image' := by
  cases image <;> cases image' <;> simp [Image.name] at h ⊢

/-- The bank is the last letter of the name of a volume. -/
theorem volume_inj {image image' : Image} {b b' : Bank} (h : volume image b = volume image' b') :
    image = image' ∧ b = b' := by
  have hlist : image.name.toList ++ b.name.toList = image'.name.toList ++ b'.name.toList := by
    simpa [volume] using congrArg String.toList h
  have hlength : b.name.toList.length = b'.name.toList.length := by rw [b.length_name, b'.length_name]
  obtain ⟨himage, hbank⟩ := List.append_inj' hlist hlength
  exact ⟨Image.eq_of_name (String.toList_inj.mp himage), Bank.eq_of_name (String.toList_inj.mp hbank)⟩

theorem volume_ne_empty (image : Image) (b : Bank) : volume image b ≠ "" := by
  intro h
  have hlength := congrArg (fun v => v.toList.length) h
  simp [volume, ← String.length_toList, b.length_name] at hlength

/-! ## Runs of commands -/

/-- A command that touches no volume and does not set active_bank. -/
def idle : Event volSig → Prop
  | ⟨.ubirmvol _, _⟩ => False
  | ⟨.ubimkvol _ _ _, _⟩ => False
  | ⟨.ubiupdatevol _ _, _⟩ => False
  | ⟨.ubootEnvSet n _, _⟩ => n ≠ "active_bank"
  | _ => True

theorem final_append : s.final (t₁ ++ t₂) = (s.final t₁).final t₂ := List.foldl_append

theorem safeAlong_append : SafeAlong s (t₁ ++ t₂) ↔ SafeAlong s t₁ ∧ SafeAlong (s.final t₁) t₂ := by
  induction t₁ generalizing s with
  | nil => simp [SafeAlong, Flash.final]
  | cons e t₁ ih => rw [List.cons_append, SafeAlong, SafeAlong, ih, and_assoc, and_assoc]; rfl

theorem SafeAlong.final (h : SafeAlong s t) (hs : s.Safe) : (s.final t).Safe := by
  induction t generalizing s with
  | nil => exact hs
  | cons e t ih => exact ih h.2.2 h.2.1

theorem touched_of_idle (he : idle e) : touched e = none := by
  obtain ⟨o, a⟩ := e
  cases o with
  | ubirmvol => exact he.elim
  | ubimkvol => exact he.elim
  | ubiupdatevol => exact he.elim
  | _ => rfl

theorem idle_eq (he : idle e) : s.during e = s ∧ s.after e = s := by
  obtain ⟨o, a⟩ := e
  cases o with
  | ubirmvol => exact he.elim
  | ubimkvol => exact he.elim
  | ubiupdatevol => exact he.elim
  | ubootEnvSet n v => exact ⟨rfl, if_neg fun hn => he hn.1⟩
  | _ => exact ⟨rfl, rfl⟩

theorem idle_along (h : ∀ e ∈ t, idle e) (hs : s.Safe) : SafeAlong s t ∧ s.final t = s := by
  induction t with
  | nil => exact ⟨trivial, rfl⟩
  | cons e t ih =>
    obtain ⟨he, h⟩ := List.forall_mem_cons.mp h
    obtain ⟨hduring, hafter⟩ := @idle_eq s e he
    obtain ⟨halong, hfinal⟩ := ih h
    rw [SafeAlong, hduring, hafter]
    refine ⟨⟨hs, hs, halong⟩, ?_⟩
    rw [Flash.final, List.foldl_cons, hafter]
    exact hfinal

theorem runs_createVol_cases {q : Except Nat Nat} (hrun : Fallible.Runs (createVol [v, size]) t q) :
    ∃ (m : Nat) (nodes : Trace volSig), (∀ e ∈ nodes, idle e) ∧ t = ⟨.ubimkvol v size none, m⟩ :: nodes := by
  obtain ⟨m, nodes, rfl, hrest⟩ := (runs_command_bind).mp hrun
  change Nat at m
  refine ⟨m, nodes, ?_, rfl⟩
  by_cases hm : m = 0
  · rw [if_pos hm] at hrest
    obtain ⟨n, nodes, rfl, hlast⟩ := (runs_command_bind).mp hrest
    change Nat at n
    have hempty : nodes = [] := by
      by_cases hn : n = 0
      · rw [if_pos hn] at hlast
        exact hlast.1
      · rw [if_neg hn] at hlast
        exact hlast.1
    rw [hempty]
    exact List.forall_mem_cons.mpr ⟨trivial, by simp⟩
  · rw [if_neg hm] at hrest
    obtain ⟨rfl, -⟩ := (Fallible.runs_pure).mp hrest
    simp

/-- A volume made anew: whatever comes of it, the write is tried. -/
theorem runs_writeVolStdin {q : Except Nat Nat} (hv : v ≠ "") (hsize : size ≠ "")
    (hrun : Fallible.Runs (writeVolStdin v size) t q) :
    ∃ (r m w : Nat) (nodes : Trace volSig), q = .ok w ∧ (∀ e ∈ nodes, idle e) ∧
      t = ⟨.ubirmvol v, r⟩ :: ⟨.ubimkvol v size none, m⟩ :: (nodes ++ [⟨.ubiupdatevol v size, w⟩]) := by
  have hrun := (Sh.runs_test_andThen).mp hrun
  have hrun := by simpa [hv, hsize] using hrun
  obtain ⟨r, t', rfl, hbody⟩ := (runs_command_bind).mp hrun
  rcases (Fallible.runs_bind).mp hbody with ⟨e, hcreate, rfl⟩ | ⟨t₁, c, t₂, rfl, hcreate, hwrite⟩
  · exact (returns_createVol _ _ e hcreate).elim
  · obtain ⟨m, nodes, hnodes, rfl⟩ := runs_createVol_cases hcreate
    obtain ⟨w, rfl, rfl⟩ := (runs_command).mp hwrite
    exact ⟨r, m, w, nodes, rfl, hnodes, rfl⟩

theorem runs_activate {new : Bank} {q : Except Nat Nat} (hrun : Fallible.Runs (activate new) t q) :
    ∃ (a : Nat) (t' : Trace volSig), (∀ e ∈ t', idle e) ∧ t = ⟨.ubootEnvSet "active_bank" new.name, a⟩ :: t' := by
  obtain ⟨a, t', rfl, hrest⟩ := (runs_command_bind).mp hrun
  refine ⟨a, t', ?_, rfl⟩
  have hname : "update_chk" ≠ "active_bank" := by decide
  by_cases hnew : new = .B
  · rw [if_pos hnew] at hrest
    obtain ⟨c, rfl, -⟩ := (runs_command).mp hrest
    exact List.forall_mem_cons.mpr ⟨hname, by simp⟩
  · rw [if_neg hnew] at hrest
    obtain ⟨c, rfl, -⟩ := (runs_command).mp hrest
    exact List.forall_mem_cons.mpr ⟨hname, by simp⟩

/-- The commands after the write: the other bank is named, or nothing of consequence happens. -/
def Follows (b : Bank) (w : Nat) (t : Trace volSig) : Prop :=
  (∀ e ∈ t, idle e) ∨ w = 0 ∧ ∃ (a : Nat) (t₁ t₂ : Trace volSig), (∀ e ∈ t₁, idle e) ∧ (∀ e ∈ t₂, idle e) ∧
    t = t₁ ++ ⟨.ubootEnvSet "active_bank" b.name, a⟩ :: t₂

theorem runs_writeThen {x : Sh volSig Nat} {q : Except Nat Nat} (hv : v ≠ "") (hsize : size ≠ "")
    (hrun : Fallible.Runs (writeVolStdin v size >>= fun w => (Sh.test (w = 0)).andThen x) t q) :
    ∃ (w : Nat) (t₁ t₂ : Trace volSig), t = t₁ ++ t₂ ∧ Fallible.Runs (writeVolStdin v size) t₁ (.ok w) ∧
      (t₂ = [] ∨ w = 0 ∧ Fallible.Runs x t₂ q) := by
  rcases (Fallible.runs_bind).mp hrun with ⟨e, hwrite, -⟩ | ⟨t₁, w, t₂, rfl, hwrite, hrest⟩
  · obtain ⟨r, m, w, nodes, hq, -⟩ := runs_writeVolStdin hv hsize hwrite
    cases hq
  · refine ⟨w, t₁, t₂, rfl, hwrite, ?_⟩
    have hrest := (Sh.runs_test_andThen).mp hrest
    by_cases hw : w = 0
    · rw [if_pos (decide_eq_true hw)] at hrest
      exact .inr ⟨hw, hrest⟩
    · rw [if_neg (by simp [hw])] at hrest
      exact .inl hrest.1

/-- The commands of a call. -/
theorem runs_upgradeDualvol {q : Except Nat Nat} (hsize : size ≠ "")
    (hrun : Fallible.Runs (upgradeDualvol cmdline image size) t q) :
    ∃ (w : Nat) (t₁ t₂ : Trace volSig), t = t₁ ++ t₂ ∧
      Fallible.Runs (writeVolStdin (volume image (runningBank cmdline).other) size) t₁ (.ok w) ∧
      Follows (runningBank cmdline).other w t₂ := by
  have htest : ∀ {x : Sh volSig Nat}, Fallible.Runs ((Sh.test (size ≠ "")).andThen x) t q → Fallible.Runs x t q := by
    intro x hx
    simpa [hsize] using (Sh.runs_test_andThen).mp hx
  have hv := fun image => volume_ne_empty image (runningBank cmdline).other
  cases image with
  | kernel =>
    obtain ⟨w, t₁, t₂, rfl, hwrite, hrest⟩ := runs_writeThen (hv .kernel) hsize (htest hrun)
    refine ⟨w, t₁, t₂, rfl, hwrite, ?_⟩
    rcases hrest with rfl | ⟨hw, hrest⟩
    · exact .inl (by simp)
    · obtain ⟨f, t₃, rfl, hset⟩ := (runs_command_bind).mp hrest
      obtain ⟨a, t₄, hidle, rfl⟩ := runs_activate hset
      have hname : "f_kernel_size" ++ (runningBank cmdline).other.name ≠ "active_bank" := by
        cases (runningBank cmdline).other <;> decide
      refine .inr ⟨hw, a, [⟨.ubootEnvSet _ (hexSize size), f⟩], t₄, ?_, hidle, rfl⟩
      exact List.forall_mem_cons.mpr ⟨hname, by simp⟩
  | bootcore =>
    obtain ⟨w, t₁, t₂, rfl, hwrite, hrest⟩ := runs_writeThen (hv .bootcore) hsize (htest hrun)
    refine ⟨w, t₁, t₂, rfl, hwrite, ?_⟩
    rcases hrest with rfl | ⟨hw, hrest⟩
    · exact .inl (by simp)
    · obtain ⟨a, t₄, hidle, rfl⟩ := runs_activate hrest
      exact .inr ⟨hw, a, [], t₄, by simp, hidle, rfl⟩
  | rootfs =>
    obtain ⟨r, m, w, nodes, rfl, -⟩ := runs_writeVolStdin (hv .rootfs) hsize (htest hrun)
    exact ⟨w, t, [], by simp, htest hrun, .inl (by simp)⟩
  | firmware =>
    obtain ⟨r, m, w, nodes, rfl, -⟩ := runs_writeVolStdin (hv .firmware) hsize (htest hrun)
    exact ⟨w, t, [], by simp, htest hrun, .inl (by simp)⟩

/-! ## States along a run -/

/-- The states agree but for the volume `v`. -/
def Agrees (v : String) (s s' : Flash) : Prop := s'.active = s.active ∧ ∀ v', v' ≠ v → s'.vols v' = s.vols v'

theorem Agrees.refl (v : String) (s : Flash) : Agrees v s s := ⟨rfl, fun _ _ => rfl⟩

theorem Agrees.trans {s s₁ s₂ : Flash} (h : Agrees v s s₁) (h' : Agrees v s₁ s₂) : Agrees v s s₂ :=
  ⟨h'.1.trans h.1, fun v' hv => (h'.2 v' hv).trans (h.2 v' hv)⟩

theorem agrees_put (s : Flash) (v : String) (c : Content) : Agrees v s (s.put v c) :=
  ⟨rfl, fun _ hv => Function.update_of_ne hv _ _⟩

theorem Agrees.ite {p : Prop} [Decidable p] {s₁ s₂ : Flash} (h₁ : Agrees v s s₁) (h₂ : Agrees v s s₂) :
    Agrees v s (if p then s₁ else s₂) := by
  by_cases hp : p
  · rw [if_pos hp]; exact h₁
  · rw [if_neg hp]; exact h₂

/-- What happens to a volume of a bank that is not booted next harms nothing. -/
theorem Agrees.safe {s' : Flash} (h : Agrees (volume image b) s s') (hs : s.Safe) (hbank : s.active ≠ b.name) :
    s'.Safe := by
  intro b' image' hactive
  have hne : volume image' b' ≠ volume image b := by
    intro heq
    rw [(volume_inj heq).2, h.1] at hactive
    exact hbank hactive
  rw [h.2 _ hne]
  exact hs b' image' (h.1 ▸ hactive)

theorem touched_agrees (he : touched e = some v) : Agrees v s (s.during e) ∧ Agrees v s (s.after e) := by
  obtain ⟨o, a⟩ := e
  cases o with
  | ubirmvol v' =>
    cases he
    exact ⟨.refl _ _, .ite (agrees_put _ _ _) (.refl _ _)⟩
  | ubimkvol v' size volId =>
    cases he
    exact ⟨.refl _ _, .ite (agrees_put _ _ _) (.refl _ _)⟩
  | ubiupdatevol v' size =>
    cases he
    exact ⟨agrees_put _ _ _, agrees_put _ _ _⟩
  | _ => cases he

/-- Commands on one volume of a bank that is not booted next. -/
theorem along_agrees (h : ∀ e ∈ t, touched e = some (volume image b) ∨ idle e) :
    Agrees (volume image b) s (s.final t) ∧ (s.Safe → s.active ≠ b.name → SafeAlong s t) := by
  induction t generalizing s with
  | nil => exact ⟨.refl _ _, fun _ _ => trivial⟩
  | cons e t ih =>
    obtain ⟨he, h⟩ := List.forall_mem_cons.mp h
    have hone : Agrees (volume image b) s (s.during e) ∧ Agrees (volume image b) s (s.after e) := by
      rcases he with he | he
      · exact touched_agrees he
      · obtain ⟨hduring, hafter⟩ := @idle_eq s e he
        rw [hduring, hafter]
        exact ⟨.refl _ _, .refl _ _⟩
    obtain ⟨hfinal, halong⟩ := @ih (s.after e) h
    refine ⟨hone.2.trans hfinal, fun hs hbank => ?_⟩
    exact ⟨hone.1.safe hs hbank, hone.2.safe hs hbank, halong (hone.2.safe hs hbank) (hone.2.1 ▸ hbank)⟩

theorem all_write {q : Except Nat Nat} (hsize : size ≠ "")
    (hrun : Fallible.Runs (writeVolStdin (volume image b) size) t q) :
    ∀ e ∈ t, touched e = some (volume image b) ∨ idle e := by
  obtain ⟨r, m, w, nodes, -, hnodes, rfl⟩ := runs_writeVolStdin (volume_ne_empty image b) hsize hrun
  refine List.forall_mem_cons.mpr ⟨.inl rfl, List.forall_mem_cons.mpr ⟨.inl rfl, ?_⟩⟩
  exact List.forall_mem_append.mpr ⟨fun e he => .inr (hnodes e he), List.forall_mem_cons.mpr ⟨.inl rfl, by simp⟩⟩

/-- The end of a write: the bank it is for must not be the one named. -/
theorem along_write {w : Nat} (hsize : size ≠ "")
    (hrun : Fallible.Runs (writeVolStdin (volume image b) size) t (.ok w)) :
    (s.active = b.name → ¬SafeAlong s t) ∧
      (s.final t).vols (volume image b) = if w = 0 then .complete else .broken := by
  have hall := all_write hsize hrun
  obtain ⟨r, m, w', nodes, hw, hnodes, rfl⟩ := runs_writeVolStdin (volume_ne_empty image b) hsize hrun
  cases hw
  rw [← List.cons_append, ← List.cons_append] at hall ⊢
  generalize (⟨.ubirmvol (volume image b), r⟩ :: ⟨.ubimkvol (volume image b) size none, m⟩ :: nodes :
    Trace volSig) = pre at hall ⊢
  constructor
  · -- in the middle of the write the volume is broken
    intro hactive halong
    have hbefore := @along_agrees s _ _ _ (List.forall_mem_append.mp hall).1
    have hduring := (safeAlong_append.mp halong).2.1 b image (hbefore.1.1.trans hactive)
    exact hduring (Function.update_self _ _ _)
  · rw [final_append]
    exact Function.update_self _ _ _

/-- The commands after the write, from a state where the other bank's volume has been written. -/
theorem along_follows {w : Nat} (hs : s.Safe) (h : Follows b w t)
    (hvol : s.vols (volume image b) = if w = 0 then .complete else .broken) :
    SafeAlong s t ↔ (⟨.ubootEnvSet "active_bank" b.name, (0 : Nat)⟩ ∈ t →
      ∀ image', image' ≠ image → s.vols (volume image' b) ≠ .broken) := by
  rcases h with hidle | ⟨hw, a, t₁, t₂, h₁, h₂, rfl⟩
  · -- the bank is not named
    have hnone : ⟨.ubootEnvSet "active_bank" b.name, (0 : Nat)⟩ ∉ t := fun hmem => hidle _ hmem rfl
    simp [hnone, (idle_along hidle hs).1]
  · have hfirst := idle_along h₁ hs
    rw [safeAlong_append, hfirst.2, SafeAlong]
    by_cases ha : a = 0
    · have hnamed : s.after ⟨.ubootEnvSet "active_bank" b.name, a⟩ = { s with active := b.name } :=
        if_pos ⟨rfl, ha⟩
      have hmem : ⟨.ubootEnvSet "active_bank" b.name, (0 : Nat)⟩ ∈ t₁ ++ ⟨.ubootEnvSet "active_bank" b.name, a⟩ :: t₂ := by
        rw [ha]
        simp
      have hcomplete : s.vols (volume image b) ≠ .broken := by simp [hvol, hw]
      rw [hnamed]
      constructor
      · rintro ⟨-, -, hsafe, -⟩ - image' -
        exact hsafe b image' rfl
      · intro h
        have hsafe : Flash.Safe { s with active := b.name } := by
          intro b' image' hactive
          rw [← Bank.eq_of_name hactive]
          by_cases himage : image' = image
          · rw [himage]
            exact hcomplete
          · exact h hmem image' himage
        exact ⟨hfirst.1, hs, hsafe, (idle_along h₂ hsafe).1⟩
    · have hsame : s.after ⟨.ubootEnvSet "active_bank" b.name, a⟩ = s := if_neg fun h => ha h.2
      have hnone : ⟨.ubootEnvSet "active_bank" b.name, (0 : Nat)⟩ ∉ t₁ ++ ⟨.ubootEnvSet "active_bank" b.name, a⟩ :: t₂ := by
        intro hmem
        rcases List.mem_append.mp hmem with hmem | hmem
        · exact h₁ _ hmem rfl
        · rcases List.mem_cons.mp hmem with heq | hmem
          · cases heq
            exact ha rfl
          · exact h₂ _ hmem rfl
      rw [hsame]
      simp only [hnone, false_implies, iff_true]
      exact ⟨hfirst.1, hs, hs, (idle_along h₂ hs).1⟩

theorem runs_empty {q : Except Nat Nat} (hrun : Fallible.Runs (upgradeDualvol cmdline image "") t q) : t = [] := by
  cases image <;> exact hrun.1

/-- One call. -/
theorem safeAlong_iff {q : Except Nat Nat} (hs : s.Safe) (hrun : Fallible.Runs (upgradeDualvol cmdline image size) t q) :
    SafeAlong s t ↔ Careful (runningBank cmdline) s ⟨image, size, t⟩ := by
  by_cases hsize : size = ""
  · -- no command is run
    rw [hsize] at hrun
    simp [runs_empty hrun, SafeAlong, Careful, hsize]
  · obtain ⟨w, t₁, t₂, rfl, hwrite, hfollows⟩ := runs_upgradeDualvol hsize hrun
    have hall := all_write hsize hwrite
    obtain ⟨hnot, hvol⟩ := @along_write s _ _ _ _ _ hsize hwrite
    obtain ⟨hagrees, halong⟩ := @along_agrees s _ _ _ hall
    rw [safeAlong_append]
    by_cases hbank : s.active = (runningBank cmdline).other.name
    · simp [Careful, hsize, hbank, hnot hbank]
    · have hlast := along_follows ((halong hs hbank).final hs) hfollows hvol
      have hfirst : ⟨.ubootEnvSet "active_bank" (runningBank cmdline).other.name, (0 : Nat)⟩ ∉ t₁ := by
        intro hmem
        rcases hall _ hmem with h | h
        · cases h
        · exact h rfl
      have hvols : ∀ image', image' ≠ image → (s.final t₁).vols (volume image' (runningBank cmdline).other) =
          s.vols (volume image' (runningBank cmdline).other) :=
        fun image' hne => hagrees.2 _ fun h => hne (volume_inj h).1
      rw [hlast, Careful, List.mem_append, or_iff_right hfirst]
      constructor
      · rintro ⟨-, h⟩
        exact .inr ⟨hbank, fun hmem image' hne => hvols image' hne ▸ h hmem image' hne⟩
      · rintro (h | ⟨-, h⟩)
        · exact (hsize h).elim
        · exact ⟨halong hs hbank, fun hmem image' hne => (hvols image' hne).symm ▸ h hmem image' hne⟩

theorem Follows.not_touched {w : Nat} (h : Follows b w t) : ∀ e ∈ t, touched e = none := by
  have hnone : ∀ {t : Trace volSig}, (∀ e ∈ t, idle e) → ∀ e ∈ t, touched e = none :=
    fun h e he => touched_of_idle (h e he)
  rcases h with hidle | ⟨-, a, t₁, t₂, h₁, h₂, rfl⟩
  · exact hnone hidle
  · exact List.forall_mem_append.mpr ⟨hnone h₁, List.forall_mem_cons.mpr ⟨rfl, hnone h₂⟩⟩

theorem Bank.other_ne (b : Bank) : b.other ≠ b := by
  cases b <;> decide

/-- A call touches no volume of the running bank. -/
theorem sparesBank_upgradeDualvol {q : Except Nat Nat}
    (hrun : Fallible.Runs (upgradeDualvol cmdline image size) t q) : SparesBank (runningBank cmdline) t := by
  intro e he image' htouched
  by_cases hsize : size = ""
  · rw [hsize] at hrun
    rw [runs_empty hrun] at he
    cases he
  · obtain ⟨w, t₁, t₂, rfl, hwrite, hfollows⟩ := runs_upgradeDualvol hsize hrun
    rcases List.mem_append.mp he with he | he
    · rcases all_write hsize hwrite e he with h | h
      · rw [h] at htouched
        exact Bank.other_ne _ (volume_inj (Option.some.inj htouched)).2
      · rw [touched_of_idle h] at htouched
        cases htouched
    · rw [hfollows.not_touched e he] at htouched
      cases htouched

theorem run_sparesBank {es : List (Upgrade × Flash)} (hrun : Run (step cmdline) s es) :
    ∀ e ∈ es, SparesBank (runningBank cmdline) e.1.trace := by
  have hspares : ∀ s u s', step cmdline s u s' → SparesBank (runningBank cmdline) u.trace := by
    rintro s u s' ⟨⟨c, hcall⟩, -⟩
    exact sparesBank_upgradeDualvol hcall
  exact hrun.labels hspares

/-- The calls between two boots are safe if and only if each is careful in the state it finds. -/
theorem upgradesSafely_iff {es : List (Upgrade × Flash)} (hnames : Names cmdline b) (hs : s.Safe)
    (hrun : Run (step cmdline) s es) : UpgradesSafely b s es ↔ Allowed (Careful b) s es := by
  rw [← runningBank_eq hnames]
  have hcalls : Allowed (fun s u => SafeAlong s u.trace) s es ↔ Allowed (Careful (runningBank cmdline)) s es := by
    refine Run.allowed_iff ?_ ?_ hrun hs
    · rintro s u s' ⟨⟨c, hcall⟩, rfl⟩ hs
      exact safeAlong_iff hs hcall
    · rintro s u s' ⟨-, rfl⟩ hs halong
      exact halong.final hs
  rw [UpgradesSafely, hcalls]
  exact and_iff_right (run_sparesBank hrun)

/-! ## Two calls -/

/-- Volumes untouched, and the running bank named. -/
def booted : Flash := ⟨fun _ => .untouched, "A"⟩

def upgradeRootfsB : Upgrade :=
  ⟨.rootfs, "8192", [⟨.ubirmvol "rootfsB", (0 : Nat)⟩, ⟨.ubimkvol "rootfsB" "8192" none, (0 : Nat)⟩,
    ⟨.createUbiNodes, (0 : Nat)⟩, ⟨.ubiupdatevol "rootfsB" "8192", (0 : Nat)⟩]⟩

def upgradeKernelB : Upgrade :=
  ⟨.kernel, "4096", [⟨.ubirmvol "kernelB", (0 : Nat)⟩, ⟨.ubimkvol "kernelB" "4096" none, (0 : Nat)⟩,
    ⟨.createUbiNodes, (0 : Nat)⟩, ⟨.ubiupdatevol "kernelB" "4096", (0 : Nat)⟩,
    ⟨.ubootEnvSet "f_kernel_sizeB" (hexSize "4096"), (0 : Nat)⟩, ⟨.ubootEnvSet "active_bank" "B", (0 : Nat)⟩,
    ⟨.ubootEnvSet "update_chk" "1", (0 : Nat)⟩]⟩

def twoCalls (u u' : Upgrade) : List (Upgrade × Flash) :=
  [(u, booted.final u.trace), (u', (booted.final u.trace).final u'.trace)]

theorem booted_safe : booted.Safe := fun _ _ _ h => by cases h

theorem names_bankA : Names "active_bank=A".toList .A := ⟨[], [], by rfl, .inl rfl, by decide⟩

theorem step_rootfsB : step "active_bank=A".toList s upgradeRootfsB (s.final upgradeRootfsB.trace) :=
  ⟨⟨0, (0 : Nat), _, rfl, (0 : Nat), _, rfl, (0 : Nat), _, rfl, (0 : Nat), _, rfl, rfl, rfl⟩, rfl⟩

theorem step_kernelB : step "active_bank=A".toList s upgradeKernelB (s.final upgradeKernelB.trace) :=
  ⟨⟨0, (0 : Nat), _, rfl, (0 : Nat), _, rfl, (0 : Nat), _, rfl, (0 : Nat), _, rfl, (0 : Nat), _, rfl,
    (0 : Nat), _, rfl, (0 : Nat), _, rfl, rfl, rfl⟩, rfl⟩

/-- The root file system first, and then the kernel. -/
theorem upgradesSafely_rootfsFirst : UpgradesSafely .A booted (twoCalls upgradeRootfsB upgradeKernelB) := by
  have hrun : Run (step "active_bank=A".toList) booted (twoCalls upgradeRootfsB upgradeKernelB) :=
    ⟨step_rootfsB, step_kernelB, trivial⟩
  refine (upgradesSafely_iff names_bankA booted_safe hrun).mpr ⟨.inr ⟨by decide, ?_⟩, .inr ⟨by decide, ?_⟩, trivial⟩
  · intro hmem
    simp [upgradeRootfsB] at hmem
  · intro _ image himage
    cases image with
    | kernel => exact (himage rfl).elim
    | _ => decide

/-- The kernel first: its bank is named, and then the root file system of that bank is removed. -/
theorem not_upgradesSafely_kernelFirst :
    ¬∀ (cmdline : List Char) (b : Bank) (s : Flash) (es : List (Upgrade × Flash)),
      Names cmdline b → s.Safe → Run (step cmdline) s es → UpgradesSafely b s es := by
  intro h
  have hrun : Run (step "active_bank=A".toList) booted (twoCalls upgradeKernelB upgradeRootfsB) :=
    ⟨step_kernelB, step_rootfsB, trivial⟩
  have halong := (h _ _ _ _ names_bankA booted_safe hrun).2.2.1
  exact halong.2.1 .B .rootfs (by decide) (by decide)

end VolMgmt
