import MxlUtils.Upgrade.VolMgmt

/- What a failed image write leaves and says. The functions for one volume end the
   script with status 1 when the write fails, before any variable of the boot loader
   is set; the one for the root file system does so only if it could create a volume.
   The functions for two banks never end the script, so its status is 0. -/
namespace VolMgmt
open Effect

variable {α : Type} {t t₁ t₂ : Trace volSig} {r : Except Nat Nat} {c : Nat} {size vol : String} {i : Invocation}
variable {cmdline : List Char}

/-! ## What a run shows -/

/-- An image completely written, to a volume or to an MTD partition. -/
def written : Event volSig → Prop
  | ⟨.ubiupdatevol _ _, c⟩ => c = (0 : Nat)
  | ⟨.upgradeMtd _, c⟩ => c = (0 : Nat)
  | _ => False

/-- A volume created. -/
def created : Event volSig → Prop
  | ⟨.ubimkvol _ _ _, c⟩ => c = (0 : Nat)
  | _ => False

/-- A variable of the boot loader changed. -/
def changesEnv : Event volSig → Prop
  | ⟨.ubootEnvSet _ _, c⟩ => c = (0 : Nat)
  | _ => False

/-- If the image was not completely written, no variable is changed and the status is not 0. -/
def FailureReported (t : Trace volSig) (c : Nat) : Prop :=
  (∀ e ∈ t, ¬written e) → (∀ e ∈ t, ¬changesEnv e) ∧ c ≠ 0

/-- The call gets as far as the image function. -/
def Invocation.reaches (i : Invocation) : Bool :=
  match i.via with
  | .direct => true
  | .stdin image => i.size ≠ "" && image ∉ mtdImages

/-- The image is written; or the function is one for a single volume, and if it is the one for
the root file system, one of its volumes is created. -/
def FailureSeen (i : Invocation) (t : Trace volSig) : Prop :=
  (∃ e ∈ t, written e) ∨ i.dual = false ∧ i.reaches = true ∧ (i.image = .rootfs → ∃ e ∈ t, created e)

/-! ## Functions that come to their end -/

theorem returns_test {b : Bool} : Sh.Returns (Sh.test b : Sh volSig Nat) := .pure _

theorem returns_writeVolStdin : Sh.Returns (writeVolStdin vol size) :=
  returns_test.andThen (.bind (returns_command _) fun _ => .bind (returns_createVol _) fun _ => returns_command _)

theorem returns_activate (new : Bank) : Sh.Returns (activate new) :=
  .bind (returns_command _) fun _ => .ite (returns_command _) (returns_command _)

/-- No function for two banks ends the script. -/
theorem returns_upgradeDualvol (image : Image) : Sh.Returns (upgradeDualvol cmdline image size) := by
  cases image with
  | kernel =>
    exact returns_test.andThen (.bind returns_writeVolStdin fun _ =>
      returns_test.andThen (.bind (returns_command _) fun _ => returns_activate _))
  | bootcore =>
    exact returns_test.andThen (.bind returns_writeVolStdin fun _ => returns_test.andThen (returns_activate _))
  | rootfs => exact returns_test.andThen returns_writeVolStdin
  | firmware => exact returns_test.andThen returns_writeVolStdin

/-! ## Functions for one volume -/

/-- Not a command that sets a variable of the boot loader. -/
def spares (o : volSig.Op) : Prop :=
  match o with
  | .ubootEnvSet _ _ => False
  | _ => True

theorem all_command {P : volSig.Op → Prop} {o : VolOp} (h : P o) : Fallible.All P (command o) :=
  Fallible.All.always ⟨h, fun _ => trivial⟩

theorem spares_createVol (args : List String) : Fallible.All spares (createVol args) := by
  refine Fallible.All.bind (all_command trivial) fun c =>
    Fallible.All.ite (fun _ => ?_) fun _ => Fallible.All.pure _
  exact Fallible.All.bind (all_command trivial) fun c =>
    Fallible.All.ite (fun _ => Fallible.All.pure _) fun _ => Fallible.All.pure _

theorem not_changesEnv_of_spares : ∀ {e : Event volSig}, spares e.op → ¬changesEnv e
  | ⟨.ubootEnvSet _ _, _⟩, h, _ => h

theorem not_changesEnv {x : Sh volSig α} {q : Except Nat α} (hx : Fallible.All spares x)
    (hrun : Fallible.Runs x t q) : ∀ e ∈ t, ¬changesEnv e :=
  fun e he => not_changesEnv_of_spares (Prog.Runs.all hrun hx e he)

theorem runs_failed_bind {f : Nat → Sh volSig α} {q : Except Nat α} :
    Fallible.Runs (failed c >>= f) t q ↔ if c = 0 then Fallible.Runs (f 1) t q else t = [] ∧ q = .error 1 := by
  by_cases hc : c = 0
  · rw [if_pos hc, hc]
    rfl
  · rw [if_neg hc]
    have hfailed : failed c = Sh.exit 1 := by
      rw [failed, decide_eq_true hc]
      rfl
    rw [hfailed]
    rfl

/-- A write whose status is tested: it succeeds, or the script ends with status 1. -/
theorem checkedWrite {f : Nat → Sh volSig α} {q : Except Nat α}
    (hrun : Fallible.Runs (ubiupdatevol vol size >>= fun c => failed c >>= f) t q)
    (hfails : ∀ e ∈ t, ¬written e) : (∀ e ∈ t, ¬changesEnv e) ∧ q = .error 1 := by
  obtain ⟨c, t', rfl, hlast⟩ := (runs_command_bind).mp hrun
  change Nat at c
  have hc : ¬c = 0 := fun hc => hfails ⟨.ubiupdatevol vol size, c⟩ (by simp) hc
  obtain ⟨rfl, rfl⟩ := (if_neg hc).mp (runs_failed_bind.mp hlast)
  exact ⟨by simp [changesEnv], rfl⟩

/-- The same with the volume made anew before. -/
theorem checkedUpgrade {args : List String} {f : Nat → Sh volSig α} {q : Except Nat α}
    (hrun : Fallible.Runs (removeVol vol >>= fun _ => createVol args >>= fun _ =>
      ubiupdatevol vol size >>= fun c => failed c >>= f) t q)
    (hfails : ∀ e ∈ t, ¬written e) : (∀ e ∈ t, ¬changesEnv e) ∧ q = .error 1 := by
  obtain ⟨r, t', rfl, hbody⟩ := (runs_command_bind).mp hrun
  rcases (Fallible.runs_bind).mp hbody with ⟨e, hcreate, -⟩ | ⟨t₁, c, t₂, rfl, hcreate, hrest⟩
  · exact (returns_createVol _ _ e hcreate).elim
  · have hwrite := checkedWrite hrest fun e he => hfails e (by simp [he])
    have hspares := not_changesEnv (spares_createVol _) hcreate
    exact ⟨List.forall_mem_cons.mpr ⟨id, List.forall_mem_append.mpr ⟨hspares, hwrite.1⟩⟩, hwrite.2⟩

theorem runs_createVol {args : List String} {q : Except Nat Nat} (hrun : Fallible.Runs (createVol args) t q) :
    ∃ c, q = .ok c ∧ (c = 0 ↔ ∃ e ∈ t, created e) := by
  obtain ⟨c, t', rfl, hrest⟩ := (runs_command_bind).mp hrun
  change Nat at c
  by_cases hc : c = 0
  · -- the nodes of the device are made, and it does not matter whether that works
    rw [if_pos hc] at hrest
    rcases (Sh.runs_orElse_nothing).mp hrest with ⟨-, rfl⟩ | ⟨e, hnodes, -⟩
    · exact ⟨0, rfl, by simp [created, hc]⟩
    · exact (returns_command _ t' e hnodes).elim
  · rw [if_neg hc, Fallible.runs_pure] at hrest
    obtain ⟨rfl, rfl⟩ := hrest
    exact ⟨c, rfl, by simp [created, hc]⟩

/-- The loop ends the script with status 1 if it created a volume, and else it comes to its end. -/
theorem runs_rootfsLoop {names : List String} {activeVol volId : String} {q : Except Nat String}
    (hrun : Fallible.Runs (rootfsLoop size names activeVol volId) t q) (hfails : ∀ e ∈ t, ¬written e) :
    (∃ e ∈ t, created e) ∧ (∀ e ∈ t, ¬changesEnv e) ∧ q = .error 1 ∨
      (∀ e ∈ t, ¬created e) ∧ ∃ vol, q = .ok vol := by
  induction names generalizing activeVol volId t with
  | nil =>
    obtain ⟨rfl, rfl⟩ := (Fallible.runs_pure).mp hrun
    exact .inr ⟨by simp, _, rfl⟩
  | cons volName names ih =>
    rw [rootfsLoop] at hrun
    generalize (if volName = "rootfs" then ("rootfsB", "")
      else if volName = "rootfsB" then ("rootfs", "1") else (activeVol, volId)) = target at hrun
    obtain ⟨activeVol, volId⟩ := target
    obtain ⟨r, t₁, rfl, hbody⟩ := (runs_command_bind).mp hrun
    rcases (Fallible.runs_bind).mp hbody with ⟨e, hcreate, -⟩ | ⟨t₂, c, t₃, rfl, hcreate, hrest⟩
    · exact (returns_createVol _ _ e hcreate).elim
    · obtain ⟨c', hc', hcreated⟩ := runs_createVol hcreate
      cases hc'
      have hspares := not_changesEnv (spares_createVol _) hcreate
      by_cases hc : c = 0
      · rw [if_pos hc] at hrest
        obtain ⟨e, he, hmade⟩ := hcreated.mp hc
        have hwrite := checkedWrite hrest fun e he => hfails e (by simp [he])
        have henv := List.forall_mem_append.mpr ⟨hspares, hwrite.1⟩
        exact .inl ⟨⟨e, by simp [he], hmade⟩, List.forall_mem_cons.mpr ⟨id, henv⟩, hwrite.2⟩
      · rw [if_neg hc] at hrest
        have hnone : ∀ e ∈ t₂, ¬created e := fun e he hmade => hc (hcreated.mpr ⟨e, he, hmade⟩)
        rcases ih hrest fun e he => hfails e (by simp [he]) with ⟨⟨e, he, hmade⟩, henv, rfl⟩ | ⟨hlater, vol, rfl⟩
        · have henv := List.forall_mem_append.mpr ⟨hspares, henv⟩
          exact .inl ⟨⟨e, by simp [he], hmade⟩, List.forall_mem_cons.mpr ⟨id, henv⟩, rfl⟩
        · have hnone := List.forall_mem_append.mpr ⟨hnone, hlater⟩
          exact .inr ⟨List.forall_mem_cons.mpr ⟨id, hnone⟩, vol, rfl⟩

theorem runs_upgradeVolRootfs {q : Except Nat Nat} (hrun : Fallible.Runs (upgradeVolRootfs size) t q)
    (hfails : ∀ e ∈ t, ¬written e) :
    (∃ e ∈ t, created e) ∧ (∀ e ∈ t, ¬changesEnv e) ∧ q = .error 1 ∨
      (∀ e ∈ t, ¬created e) ∧ ∃ c, q = .ok c := by
  obtain ⟨names, t', rfl, hbody⟩ := (runs_command_bind).mp hrun
  have hfails : ∀ e ∈ t', ¬written e := fun e he => hfails e (by simp [he])
  rcases (Fallible.runs_bind).mp hbody with ⟨e, hloop, rfl⟩ | ⟨t₁, vol, t₂, rfl, hloop, hrest⟩
  · rcases runs_rootfsLoop hloop hfails with ⟨⟨e', he, hmade⟩, henv, hend⟩ | ⟨-, vol, hend⟩
    · cases hend
      exact .inl ⟨⟨e', by simp [he], hmade⟩, List.forall_mem_cons.mpr ⟨id, henv⟩, rfl⟩
    · cases hend
  · have hloop := runs_rootfsLoop hloop fun e he => hfails e (by simp [he])
    rcases hloop with ⟨-, -, hend⟩ | ⟨hnone, -⟩
    · cases hend
    · -- no volume was created, and the variable is set all the same
      obtain ⟨mtd, t₃, rfl, hset⟩ := (runs_command_bind).mp hrest
      obtain ⟨c, rfl, rfl⟩ := (runs_command).mp hset
      refine .inr ⟨List.forall_mem_cons.mpr ⟨id, List.forall_mem_append.mpr ⟨hnone, ?_⟩⟩, c, rfl⟩
      exact List.forall_mem_cons.mpr ⟨id, List.forall_mem_cons.mpr ⟨id, by simp⟩⟩

theorem upgradeVol_fails {image : Image} {q : Except Nat Nat} (hrun : Fallible.Runs (upgradeVol image size) t q)
    (hfails : ∀ e ∈ t, ¬written e) (hmade : image = .rootfs → ∃ e ∈ t, created e) :
    (∀ e ∈ t, ¬changesEnv e) ∧ q = .error 1 := by
  have hlast : ∀ c, failed c = failed c >>= pure := fun c => (bind_pure _).symm
  cases image with
  | kernel => exact checkedUpgrade hrun hfails
  | bootcore =>
    simp only [upgradeVol, upgradeVolBootcore] at hrun
    rw [funext hlast] at hrun
    exact checkedUpgrade hrun hfails
  | firmware =>
    simp only [upgradeVol, upgradeVolFirmware] at hrun
    obtain ⟨r, t', rfl, hrest⟩ := (runs_command_bind).mp hrun
    rw [funext hlast] at hrest
    have hwrite := checkedUpgrade hrest fun e he => hfails e (by simp [he])
    exact ⟨List.forall_mem_cons.mpr ⟨id, hwrite.1⟩, hwrite.2⟩
  | rootfs =>
    rcases runs_upgradeVolRootfs hrun hfails with ⟨-, h⟩ | ⟨hnone, -⟩
    · exact h
    · obtain ⟨e, he, hmade⟩ := hmade rfl
      exact (hnone e he hmade).elim

/-! ## The script -/

theorem runs_upgradeStdin {x : Sh volSig Nat} {image : String} {q : Except Nat Nat}
    (hrun : Fallible.Runs (upgradeStdin x size image) t q) :
    (size ≠ "" ∧ image ∉ mtdImages) ∧ Fallible.Runs x t q ∨
      ¬(size ≠ "" ∧ image ∉ mtdImages) ∧ ∃ c, q = .ok c := by
  have hrun := (Sh.runs_test_andThen).mp hrun
  by_cases hsize : size = ""
  · have hrun : t = [] ∧ q = .ok 1 := by simpa [hsize] using hrun
    exact .inr ⟨fun h => h.1 hsize, 1, hrun.2⟩
  · have hrun := by simpa [hsize] using hrun
    by_cases himage : image ∈ mtdImages
    · rw [if_pos himage] at hrun
      obtain ⟨c, -, rfl⟩ := (runs_command).mp hrun
      exact .inr ⟨fun h => h.2 himage, c, rfl⟩
    · rw [if_neg himage] at hrun
      exact .inl ⟨⟨hsize, himage⟩, hrun⟩

/-- The function called either goes on to the upgrade, or comes to its end. -/
theorem runs_invocation {q : Except Nat Nat} (hrun : Fallible.Runs (i.command cmdline) t q) :
    i.reaches = true ∧ Fallible.Runs (i.upgrade cmdline) t q ∨ i.reaches = false ∧ ∃ c, q = .ok c := by
  obtain ⟨dual, image, size, via⟩ := i
  cases via with
  | direct => exact .inl ⟨rfl, hrun⟩
  | stdin third => simpa [Invocation.reaches] using runs_upgradeStdin hrun

/-- A write that fails unseen leaves status 0. -/
theorem ok_of_unseen {q : Except Nat Nat} (hrun : Fallible.Runs (i.command cmdline) t q)
    (hunseen : ¬FailureSeen i t) : ∃ c, q = .ok c := by
  obtain ⟨hwritten, hsingle⟩ := not_or.mp hunseen
  have hfails : ∀ e ∈ t, ¬written e := fun e he hw => hwritten ⟨e, he, hw⟩
  rcases runs_invocation hrun with ⟨hreaches, hbody⟩ | ⟨-, h⟩
  · obtain ⟨dual, image, size, via⟩ := i
    cases dual with
    | true =>
      cases q with
      | ok c => exact ⟨c, rfl⟩
      | error c => exact (returns_upgradeDualvol image t c hbody).elim
    | false =>
      have hrootfs : image = .rootfs ∧ ∀ e ∈ t, ¬created e := by simpa [hreaches] using hsingle
      obtain ⟨rfl, hnone⟩ := hrootfs
      rcases runs_upgradeVolRootfs hbody hfails with ⟨⟨e, he, hmade⟩, -⟩ | ⟨-, h⟩
      · exact (hnone e he hmade).elim
      · exact h
  · exact h

/-- The failure of a write is reported if and only if the function is one that sees it. -/
theorem failureReported_iff (hrun : (i.run cmdline).Runs t c) : FailureReported t c ↔ FailureSeen i t := by
  have hrun := (Sh.runs_script_orElse_nothing).mp hrun
  constructor
  · intro hreported
    by_contra hunseen
    have hfails : ∀ e ∈ t, ¬written e := fun e he hw => hunseen (.inl ⟨e, he, hw⟩)
    rcases hrun with ⟨rfl, -⟩ | herror
    · exact (hreported hfails).2 rfl
    · obtain ⟨c', hc'⟩ := ok_of_unseen herror hunseen
      cases hc'
  · rintro (⟨e, he, hw⟩ | ⟨hdual, hreaches, hmade⟩) hfails
    · exact (hfails e he hw).elim
    · have hseen : ∀ q, Fallible.Runs (i.command cmdline) t q → (∀ e ∈ t, ¬changesEnv e) ∧ q = .error 1 := by
        intro q hq
        rcases runs_invocation hq with ⟨-, hbody⟩ | ⟨hno, -⟩
        · rw [Invocation.upgrade, hdual] at hbody
          exact upgradeVol_fails hbody hfails hmade
        · rw [hreaches] at hno
          cases hno
      rcases hrun with ⟨-, c', hok⟩ | herror
      · cases (hseen _ hok).2
      · obtain ⟨henv, hend⟩ := hseen _ herror
        cases hend
        exact ⟨henv, by decide⟩

/-- The boot core is not written, and the function for one volume says so. -/
def bootcoreNotWritten : Trace volSig :=
  [⟨.ubirmvol "bootcore", (0 : Nat)⟩, ⟨.ubimkvol "bootcore" "64" none, (1 : Nat)⟩,
    ⟨.ubiupdatevol "bootcore" "64", (1 : Nat)⟩]

theorem failureReported_bootcore : FailureReported bootcoreNotWritten 1 := by
  have hiff := @failureReported_iff bootcoreNotWritten 1 ⟨false, .bootcore, "64", .direct⟩ []
    ⟨(0 : Nat), _, rfl, (1 : Nat), _, rfl, (1 : Nat), _, rfl, rfl, rfl⟩
  exact hiff.mpr (.inr ⟨rfl, rfl, by simp⟩)

/-- The kernel for the other bank is not written, and the script says it was. -/
def kernelNotWritten : Trace volSig :=
  [⟨.ubirmvol "kernelB", (0 : Nat)⟩, ⟨.ubimkvol "kernelB" "4096" none, (0 : Nat)⟩, ⟨.createUbiNodes, (0 : Nat)⟩,
    ⟨.ubiupdatevol "kernelB" "4096", (1 : Nat)⟩]

theorem not_failureReported_dualKernel :
    ¬∀ (i : Invocation) (cmdline : List Char) (t : Trace volSig) (c : Nat),
      (i.run cmdline).Runs t c → FailureReported t c := by
  intro h
  have hrun : (Invocation.run ⟨true, .kernel, "4096", .direct⟩ "active_bank=A".toList).Runs kernelNotWritten 0 :=
    ⟨(0 : Nat), _, rfl, (0 : Nat), _, rfl, (0 : Nat), _, rfl, (1 : Nat), _, rfl, rfl, rfl⟩
  exact (h _ _ _ _ hrun (by simp [kernelNotWritten, written])).2 rfl

end VolMgmt
