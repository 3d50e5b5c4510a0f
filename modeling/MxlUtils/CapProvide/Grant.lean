import MxlUtils.CapProvide.Names

/- Which capabilities the program comes to execve with. The first pass drops from the
   bounding set what is neither wanted nor needed, the second one the rest, if it still
   may; capset makes the inheritable set, but only of the lower 32 capabilities, since
   its block has one word; and the ambient set holds what could be raised. No result of
   these calls is acted on, so the sets are those that were requested only if all goes
   well and no capability from 32 on was asked for. -/
namespace CapProvide
open CString Capabilities

variable {S : System} {refused : Call → Bool} {caps : CapSet} {p : Process} {list : List Word} {target : Target}

/-! ## The passes -/

theorem lt_of_mem_range {i : Nat} (hi : i ∈ List.range (S.last + 1)) : i < 64 := by
  have := S.last_lt
  have := List.mem_range.mp hi
  omega

theorem capsSet_eq (S : System) (refused : Call → Bool) (caps : CapSet) (p : Process) :
    ∃ b, capsSet S refused caps p = p.withSets b p.ambient ∧ ∀ k, b.getLsbD k = (p.bounding.getLsbD k &&
      !(decide (k ≤ S.last) && (!caps.getLsbD k && (p.effective.getLsbD capSetpcap && !refused (.dropBounding 1 k))))) := by
  have hstep : ∀ (p : Process) (i : Nat),
      (if caps.getLsbD i then p else printed refused p (.dropBounding 1 i) (p.dropBounding i)) =
        p.change i (!caps.getLsbD i && (p.effective.getLsbD capSetpcap && !refused (.dropBounding 1 i))) false := by
    intro p i
    cases hi : caps.getLsbD i with
    | true => rfl
    | false =>
      rw [if_neg (by decide), printed, Process.attempt_drop]
      rfl
  obtain ⟨b, a, hrun, hb, ha⟩ := Process.foldl_change hstep (fun _ _ _ _ => rfl) (fun _ _ _ _ => rfl)
    (fun i hi => lt_of_mem_range (S := S) hi) p
  have hsame : a = p.ambient := BitVec.eq_of_getLsbD_eq fun k _ => by simpa using ha k
  refine ⟨b, ?_, fun k => ?_⟩
  · rw [capsSet, hrun, hsame]
  · rw [hb k]
    simp [Nat.lt_succ_iff]

theorem raiseOrDrop_eq (S : System) (refused : Call → Bool) (caps : CapSet) (p : Process) :
    ∃ b a, raiseOrDrop S refused caps p = p.withSets b a ∧
      (∀ k, b.getLsbD k = (p.bounding.getLsbD k &&
        !(decide (k ≤ S.last) && (!caps.getLsbD k && (p.effective.getLsbD capSetpcap && !refused (.dropBounding 2 k)))))) ∧
      ∀ k, a.getLsbD k = (p.ambient.getLsbD k || (decide (k ≤ S.last) && (caps.getLsbD k &&
        (p.permitted.getLsbD k && p.inheritable.getLsbD k && !refused (.raiseAmbient k))))) := by
  have hstep : ∀ (p : Process) (i : Nat),
      (if caps.getLsbD i then printed refused p (.raiseAmbient i) (p.raiseAmbient i)
        else if i ≠ capSetpcap then printed refused p (.dropBounding 2 i) (p.dropBounding i) else p) =
        p.change i
          (!caps.getLsbD i && (decide (i ≠ capSetpcap) && (p.effective.getLsbD capSetpcap && !refused (.dropBounding 2 i))))
          (caps.getLsbD i && (p.permitted.getLsbD i && p.inheritable.getLsbD i && !refused (.raiseAmbient i))) := by
    intro p i
    cases hi : caps.getLsbD i with
    | true =>
      rw [if_pos rfl, printed, Process.attempt_raise]
      simp [Process.change, Process.withSets]
    | false =>
      rw [if_neg (by decide)]
      by_cases hset : i = capSetpcap
      · simp [hset, Process.change, Process.withSets]
      · rw [if_pos hset, printed, Process.attempt_drop]
        simp [hset, Process.change, Process.withSets]
  obtain ⟨b, a, hrun, hb, ha⟩ := Process.foldl_change hstep (fun _ _ _ _ => rfl) (fun _ _ _ _ => rfl)
    (fun i hi => lt_of_mem_range (S := S) hi) p
  have hlast : capSetpcap ≤ S.last := Nat.le_trans (by decide) S.last_gt
  have ha' : ∀ k, a.getLsbD k = (p.ambient.getLsbD k || (decide (k ≤ S.last) && (caps.getLsbD k &&
      (p.permitted.getLsbD k && p.inheritable.getLsbD k && !refused (.raiseAmbient k))))) := by
    intro k
    rw [ha k]
    simp [Nat.lt_succ_iff]
  simp only [raiseOrDrop, hrun]
  cases hkeep : caps.getLsbD capSetpcap with
  | true =>
    refine ⟨b, a, rfl, fun k => ?_, ha'⟩
    rw [hb k]
    by_cases hk : k = capSetpcap
    · simp [hk, hkeep]
    · simp [hk, Nat.lt_succ_iff]
  | false =>
    -- CAP_SETPCAP was kept for the pass and goes last
    rw [if_neg (by decide), printed, Process.attempt_drop]
    refine ⟨_, a, rfl, fun k => ?_, ha'⟩
    show (if p.effective.getLsbD capSetpcap && !refused (.dropBounding 2 capSetpcap) then b.remove capSetpcap
      else b).getLsbD k = _
    by_cases hk : k = capSetpcap
    · subst hk
      cases p.effective.getLsbD capSetpcap && !refused (.dropBounding 2 capSetpcap) with
      | true => simp [getLsbD_remove, hlast, hkeep]
      | false => simp [hb, hlast, hkeep]
    · have hbit : (if p.effective.getLsbD capSetpcap && !refused (.dropBounding 2 capSetpcap) then b.remove capSetpcap
          else b).getLsbD k = b.getLsbD k := by
        split
        · simp [getLsbD_remove, hk]
        · rfl
      rw [hbit, hb k]
      simp [hk, Nat.lt_succ_iff]

/-! ## The run -/

/-- A process of root with all capabilities; what it would pass on is left open. -/
structure RootProcess (S : System) where
  proc : Process
  root : proc.root = true
  keepCaps : proc.keepCaps = false
  effective : ∀ k, proc.effective.getLsbD k = decide (k ≤ S.last)
  permitted : ∀ k, proc.permitted.getLsbD k = decide (k ≤ S.last)
  bounding : ∀ k, proc.bounding.getLsbD k = decide (k ≤ S.last)
  ambient : proc.ambient.within proc.inheritable = true

/-- The set has these capabilities and no others. -/
def Exactly (s : CapSet) (R : Nat → Prop) : Prop := ∀ k, s.getLsbD k = true ↔ R k

/-- The program either comes to execve with exactly these sets, or leaves with an error. -/
def GrantsExactly (R : Nat → Prop) : Except Stop Process → Prop
  | .error (.exit code) => code ≠ 0
  | .error .beyond => False
  | .ok p => Exactly p.bounding R ∧ Exactly p.inheritable R ∧ Exactly p.ambient R

/-- The calls that must not be refused for execve to be reached. -/
def Reaches (refused : Call → Bool) (target : Target) : Prop :=
  (target.groups = some [] ∨ refused .groups = false) ∧ refused .setgid = false ∧ refused .setuid = false

/-- capset is not refused, and the permitted set was kept for it. -/
def CapsetMade (refused : Call → Bool) (uid : Nat) : Prop :=
  refused .capset = false ∧ (uid = 0 ∨ refused .keepCaps = false)

/-- The calls that make the three sets what was requested: every other capability is dropped in one
of the passes, capset takes the requested ones (or they were inheritable before), and each is raised. -/
structure Granted (S : System) (p : RootProcess S) (refused : Call → Bool) (uid : Nat) (R : Nat → Prop) : Prop where
  dropped : ∀ k ≤ S.last, ¬R k → k ∉ [capSetgid, capSetuid, capSetpcap] ∧ refused (.dropBounding 1 k) = false ∨
    (CapsetMade refused uid ∨ uid = 0) ∧ refused (.dropBounding 2 k) = false
  inheritable : CapsetMade refused uid ∧ (∀ k, R k → k < 32) ∨ ¬CapsetMade refused uid ∧ Exactly p.proc.inheritable R
  raised : ∀ k, R k → (uid = 0 ∨ refused .keepCaps = false) ∧ refused (.raiseAmbient k) = false ∨
    uid = 0 ∧ p.proc.ambient.getLsbD k = true

theorem required_setGroups (hgid : p.effective.getLsbD capSetgid = true) (call : Call) (code : Nat) :
    required refused p call code p.setGroups = if refused call then .error (.exit code) else .ok p := by
  unfold required Process.attempt Process.setGroups
  rw [if_pos hgid]
  cases refused call <;> rfl

/-- The process after setuid. -/
def switched (p : Process) (uid : Nat) : Process := (p.setuid uid).getD p

theorem required_setuid (huid : p.effective.getLsbD capSetuid = true) (uid : Nat) :
    required refused p .setuid 127 (p.setuid uid) =
      if refused .setuid then .error (.exit 127) else .ok (switched p uid) := by
  have hcall : p.setuid uid = some (switched p uid) := by
    unfold switched Process.setuid
    by_cases hzero : uid = 0
    · simp [huid, hzero]
    · simp [huid, hzero]
  unfold required Process.attempt
  rw [hcall]
  cases refused .setuid <;> rfl

/-- The process before the passes. -/
def started (refused : Call → Bool) (p : Process) : Process :=
  let p := printed refused p .noNewPrivs (some { p with noNewPrivs := true })
  printed refused p .keepCaps (some { p with keepCaps := true })

def needed (caps : CapSet) : CapSet := ((caps.add capSetpcap).add capSetgid).add capSetuid

/-- The process that comes to execve if no call stops the program. -/
def finished (S : System) (refused : Call → Bool) (caps : CapSet) (uid : Nat) (p : Process) : Process :=
  raiseOrDrop S refused caps
    (setData refused caps (switched (capsSet S refused (needed caps) (started refused p)) uid))

theorem started_eq (p : Process) : started refused p =
    { p with
      noNewPrivs := p.noNewPrivs || !refused .noNewPrivs
      keepCaps := p.keepCaps || !refused .keepCaps } := by
  unfold started printed Process.attempt
  cases refused .noNewPrivs <;> cases refused .keepCaps <;> simp

theorem provide_eq {user uCaps : Word} (p : RootProcess S) (refused : Call → Bool) (hcaps : readCaps S uCaps = .ok caps)
    (htarget : readTarget S user = .ok target) :
    (Reaches refused target → provide S refused p.proc user uCaps = .ok (finished S refused caps target.uid p.proc)) ∧
      (¬Reaches refused target → ∃ code, code ≠ 0 ∧ provide S refused p.proc user uCaps = .error (.exit code)) := by
  have hlast := S.last_gt
  have hkept : (started refused p.proc).effective = p.proc.effective := by rw [started_eq]
  obtain ⟨b, hfirst, -⟩ := capsSet_eq S refused (needed caps) (started refused p.proc)
  have heff : (capsSet S refused (needed caps) (started refused p.proc)).effective = p.proc.effective := by
    rw [hfirst, ← hkept]
    rfl
  have hgid : (capsSet S refused (needed caps) (started refused p.proc)).effective.getLsbD capSetgid = true := by
    rw [heff, p.effective]
    exact decide_eq_true (Nat.le_trans (by decide) hlast)
  have huid : (capsSet S refused (needed caps) (started refused p.proc)).effective.getLsbD capSetuid = true := by
    rw [heff, p.effective]
    exact decide_eq_true (Nat.le_trans (by decide) hlast)
  have hrun : provide S refused p.proc user uCaps = (do
      let q ← setGroups refused target (capsSet S refused (needed caps) (started refused p.proc))
      let q ← required refused q .setgid 127 q.setGroups
      let q ← required refused q .setuid 127 (q.setuid target.uid)
      .ok (raiseOrDrop S refused caps (setData refused caps q))) := by
    unfold provide
    rw [htarget, hcaps]
    rfl
  rw [hrun]
  unfold finished
  generalize capsSet S refused (needed caps) (started refused p.proc) = q at hgid huid
  have hprinted : printed refused q .groups q.setGroups = q := by
    unfold printed Process.attempt Process.setGroups
    rw [if_pos hgid]
    cases refused .groups <;> rfl
  have hgroups : setGroups refused target q =
      if target.groups = some [] ∨ refused .groups = false then .ok q else .error (.exit 1) := by
    unfold setGroups
    split
    · rename_i hnone
      rw [required_setGroups hgid, hnone]
      cases refused .groups <;> rfl
    · rename_i hnone
      rw [hprinted, hnone]
      simp
    · rename_i g gs hsome
      rw [required_setGroups hgid, hsome]
      cases refused .groups <;> simp
  have hsetgid : required refused q .setgid 127 q.setGroups = if refused .setgid then .error (.exit 127) else .ok q :=
    required_setGroups hgid .setgid 127
  have hsetuid : required refused q .setuid 127 (q.setuid target.uid) =
      if refused .setuid then .error (.exit 127) else .ok (switched q target.uid) := required_setuid huid target.uid
  unfold Reaches
  rw [hgroups]
  by_cases hg : target.groups = some [] ∨ refused .groups = false
  · rw [if_pos hg]
    change (_ → (required refused q .setgid 127 q.setGroups >>= fun q => required refused q .setuid 127
        (q.setuid target.uid) >>= fun q => .ok (raiseOrDrop S refused caps (setData refused caps q))) = _) ∧
      (_ → ∃ code, code ≠ 0 ∧ (required refused q .setgid 127 q.setGroups >>= fun q => required refused q .setuid 127
        (q.setuid target.uid) >>= fun q => .ok (raiseOrDrop S refused caps (setData refused caps q))) = _)
    rw [hsetgid]
    cases hsg : refused .setgid with
    | true => exact ⟨fun hreach => by simp at hreach, fun _ => ⟨127, by decide, rfl⟩⟩
    | false =>
      change (_ → (required refused q .setuid 127 (q.setuid target.uid) >>= fun q =>
          .ok (raiseOrDrop S refused caps (setData refused caps q))) = _) ∧
        (_ → ∃ code, code ≠ 0 ∧ (required refused q .setuid 127 (q.setuid target.uid) >>= fun q =>
          .ok (raiseOrDrop S refused caps (setData refused caps q))) = _)
      rw [hsetuid]
      cases hsu : refused .setuid with
      | true => exact ⟨fun hreach => by simp at hreach, fun _ => ⟨127, by decide, rfl⟩⟩
      | false => exact ⟨fun _ => rfl, fun hnot => (hnot ⟨hg, rfl, rfl⟩).elim⟩
  · rw [if_neg hg]
    exact ⟨fun hreach => (hg hreach.1).elim, fun _ => ⟨1, by decide, rfl⟩⟩

/-! ## The sets at the end -/

theorem getLsbD_dataWord (s : CapSet) (k : Nat) : (dataWord s).getLsbD k = (decide (k < 32) && s.getLsbD k) := by
  by_cases hk : k < 32
  · have hk' : k < 64 := by omega
    simp [dataWord, hk, hk']
  · simp [dataWord, hk]

/-- The set that is asked for besides the requested capabilities. -/
theorem getLsbD_wanted (k : Nat) : ((caps.add capSetpcap).add capDacOverride).getLsbD k =
    (caps.getLsbD k || decide (k = capSetpcap) || decide (k = capDacOverride)) := by
  rw [getLsbD_add (by decide), getLsbD_add (by decide)]

theorem getLsbD_needed (k : Nat) : (needed caps).getLsbD k =
    (caps.getLsbD k || decide (k ∈ [capSetgid, capSetuid, capSetpcap])) := by
  rw [needed, getLsbD_add (by decide), getLsbD_add (by decide), getLsbD_add (by decide)]
  by_cases h1 : k = capSetpcap <;> by_cases h2 : k = capSetgid <;> by_cases h3 : k = capSetuid <;> simp [h1, h2, h3]

/-- capset is allowed exactly when the permitted set is still there. -/
theorem capset_eq {q : Process} {kept : Bool} (hperm : ∀ k, q.permitted.getLsbD k = (decide (k ≤ S.last) && kept))
    (hbounding : ∀ k, caps.getLsbD k = true → q.bounding.getLsbD k = true) (hcaps : ∀ k, caps.getLsbD k = true → k ≤ S.last) :
    (q.capset (dataWord ((caps.add capSetpcap).add capDacOverride)) (dataWord ((caps.add capSetpcap).add capDacOverride))
      (dataWord caps)).isSome = kept := by
  have hlast := S.last_gt
  have hself : ∀ s : CapSet, s.within s = true := fun s => (within_iff).mpr fun _ hk => hk
  have hlow : ∀ {s : CapSet} {k}, (dataWord s).getLsbD k = true → k < 32 ∧ s.getLsbD k = true := by
    intro s k hk
    rw [getLsbD_dataWord] at hk
    simpa using hk
  cases kept with
  | true =>
    have hinh : (dataWord caps).within (q.inheritable ||| q.permitted) = true := by
      refine (within_iff).mpr fun k hk => ?_
      have hle := hcaps k (hlow hk).2
      simp [hperm, hle]
    have hbset : (dataWord caps).within (q.inheritable ||| q.bounding) = true := by
      refine (within_iff).mpr fun k hk => ?_
      simp [hbounding k (hlow hk).2]
    have hpermitted : (dataWord ((caps.add capSetpcap).add capDacOverride)).within q.permitted = true := by
      refine (within_iff).mpr fun k hk => ?_
      have hle : k ≤ S.last := by
        have := (hlow hk).1
        omega
      simp [hperm, hle]
    simp [Process.capset, hinh, hbset, hpermitted, hself]
  | false =>
    have hpermitted : (dataWord ((caps.add capSetpcap).add capDacOverride)).within q.permitted = false := by
      rw [Bool.eq_false_iff]
      intro hwithin
      have hbit := (within_iff).mp hwithin capSetpcap (by
        rw [getLsbD_dataWord, getLsbD_wanted]
        simp [capSetpcap])
      simp [hperm] at hbit
    simp [Process.capset, hpermitted]

/-- The process before capset, with what root has of its sets. -/
structure BeforeCapset (S : System) (refused : Call → Bool) (caps : CapSet) (p : RootProcess S) (uid : Nat) (q : Process) :
    Prop where
  bounding : ∀ k, q.bounding.getLsbD k =
    (decide (k ≤ S.last) && !(!(needed caps).getLsbD k && !refused (.dropBounding 1 k)))
  effective : q.effective.getLsbD capSetpcap = decide (uid = 0)
  permitted : ∀ k, q.permitted.getLsbD k = (decide (k ≤ S.last) && (decide (uid = 0) || !refused .keepCaps))
  inheritable : q.inheritable = p.proc.inheritable
  ambient : q.ambient = if uid = 0 then p.proc.ambient else 0#64

theorem beforeCapset (p : RootProcess S) (refused : Call → Bool) (caps : CapSet) (uid : Nat) :
    BeforeCapset S refused caps p uid (switched (capsSet S refused (needed caps) (started refused p.proc)) uid) := by
  have hlast := S.last_gt
  obtain ⟨b, hfirst, hb⟩ := capsSet_eq S refused (needed caps) (started refused p.proc)
  rw [started_eq] at hfirst hb
  simp only [p.bounding, p.effective, p.keepCaps, Bool.false_or] at hfirst hb
  have hset : capSetpcap ≤ S.last := Nat.le_trans (by decide) hlast
  have huid : capSetuid ≤ S.last := Nat.le_trans (by decide) hlast
  have hbounding : ∀ k, b.getLsbD k =
      (decide (k ≤ S.last) && !(!(needed caps).getLsbD k && !refused (.dropBounding 1 k))) := by
    intro k
    rw [hb k]
    by_cases hk : k ≤ S.last
    · simp [hk, hset]
    · simp [hk]
  rw [started_eq]
  simp only [p.keepCaps, Bool.false_or]
  rw [hfirst]
  unfold switched Process.setuid Process.withSets
  simp only [p.effective, huid, decide_true, Bool.true_eq_false, if_false]
  by_cases hzero : uid = 0
  · simp only [hzero, if_true, Option.getD_some]
    refine ⟨hbounding, by simp [p.effective, hset], fun k => ?_, rfl, rfl⟩
    simp [p.permitted]
  · simp only [hzero, if_false, Option.getD_some]
    refine ⟨hbounding, by simp [hzero], fun k => ?_, rfl, by simp [hzero]⟩
    cases refused .keepCaps with
    | true => simp [hzero]
    | false => simp [p.permitted]

/-- capset takes the inheritable set, but no capability from 32 on. -/
theorem setData_made {q : Process} (hcapset : refused .capset = false)
    (hcall : (q.capset (dataWord ((caps.add capSetpcap).add capDacOverride))
      (dataWord ((caps.add capSetpcap).add capDacOverride)) (dataWord caps)).isSome = true) :
    setData refused caps q = { q with
      effective := dataWord ((caps.add capSetpcap).add capDacOverride)
      permitted := dataWord ((caps.add capSetpcap).add capDacOverride)
      inheritable := dataWord caps
      ambient := q.ambient &&& dataWord ((caps.add capSetpcap).add capDacOverride) &&& dataWord caps } := by
  unfold setData printed Process.attempt
  dsimp only
  rw [hcapset]
  unfold Process.capset at hcall ⊢
  split at hcall
  · rename_i hallowed
    rw [if_pos hallowed]
    rfl
  · cases hcall

theorem setData_refused {q : Process} (hnot : refused .capset = true ∨
    (q.capset (dataWord ((caps.add capSetpcap).add capDacOverride))
      (dataWord ((caps.add capSetpcap).add capDacOverride)) (dataWord caps)).isSome = false) :
    setData refused caps q = q := by
  unfold setData printed Process.attempt
  dsimp only
  split
  · rfl
  · rename_i called
    rcases hnot with hcapset | hcall
    · rw [hcapset]
      rfl
    · simp [called] at hcall

theorem dataWord_exactly_iff (caps : CapSet) :
    Exactly (dataWord caps) (fun k => caps.getLsbD k = true) ↔ ∀ k, caps.getLsbD k = true → k < 32 := by
  constructor
  · intro hexact k hk
    have hbit := (hexact k).mpr hk
    rw [getLsbD_dataWord, Bool.and_eq_true, decide_eq_true_eq] at hbit
    exact hbit.1
  · intro hlow k
    rw [getLsbD_dataWord, Bool.and_eq_true, decide_eq_true_eq]
    exact ⟨fun hbit => hbit.2, fun hk => ⟨hlow k hk, hk⟩⟩

/-- The process after capset, where the inheritable set is the requested one: what of the
ambient set is left, and what can be raised. -/
structure AfterCapset (S : System) (refused : Call → Bool) (caps : CapSet) (p : RootProcess S) (uid : Nat) (r : Process) :
    Prop where
  effective : r.effective.getLsbD capSetpcap = true ↔ CapsetMade refused uid ∨ uid = 0
  inheritable : Exactly r.inheritable (fun k => caps.getLsbD k = true) ↔
    CapsetMade refused uid ∧ (∀ k, caps.getLsbD k = true → k < 32) ∨
      ¬CapsetMade refused uid ∧ Exactly p.proc.inheritable fun k => caps.getLsbD k = true
  within : Exactly r.inheritable (fun k => caps.getLsbD k = true) → ∀ k,
    r.ambient.getLsbD k = true → caps.getLsbD k = true
  ambient : Exactly r.inheritable (fun k => caps.getLsbD k = true) → ∀ k, caps.getLsbD k = true →
    (r.ambient.getLsbD k = true ↔ uid = 0 ∧ p.proc.ambient.getLsbD k = true)
  permitted : Exactly r.inheritable (fun k => caps.getLsbD k = true) → ∀ k, caps.getLsbD k = true →
    (r.permitted.getLsbD k = true ↔ uid = 0 ∨ refused .keepCaps = false)

theorem afterCapset_made {p : RootProcess S} {uid : Nat} {q : Process} (hq : BeforeCapset S refused caps p uid q)
    (hmade : CapsetMade refused uid) : AfterCapset S refused caps p uid { q with
      effective := dataWord ((caps.add capSetpcap).add capDacOverride)
      permitted := dataWord ((caps.add capSetpcap).add capDacOverride)
      inheritable := dataWord caps
      ambient := q.ambient &&& dataWord ((caps.add capSetpcap).add capDacOverride) &&& dataWord caps } := by
  have hwanted : ∀ k, k < 32 → caps.getLsbD k = true →
      (dataWord ((caps.add capSetpcap).add capDacOverride)).getLsbD k = true := by
    intro k hlow hk
    simp only [getLsbD_dataWord, getLsbD_wanted, hlow, hk, decide_true, Bool.true_or, Bool.true_and]
  have hset : (dataWord ((caps.add capSetpcap).add capDacOverride)).getLsbD capSetpcap = true := by
    rw [getLsbD_dataWord, getLsbD_wanted]
    simp [capSetpcap]
  have hkept : uid = 0 ∨ refused .keepCaps = false := hmade.2
  constructor
  · exact ⟨fun _ => .inl hmade, fun _ => hset⟩
  · show Exactly (dataWord caps) _ ↔ _
    rw [dataWord_exactly_iff]
    exact ⟨fun hlow => .inl ⟨hmade, hlow⟩, fun hor => hor.elim And.right fun hnot => (hnot.1 hmade).elim⟩
  · intro _ k hk
    simp only [BitVec.getLsbD_and, getLsbD_dataWord, Bool.and_eq_true] at hk
    exact hk.2.2
  · intro hexact k hk
    have hlow := (dataWord_exactly_iff caps).mp hexact k hk
    have hthis : (dataWord caps).getLsbD k = true := by
      rw [getLsbD_dataWord, hk, decide_eq_true hlow]
      rfl
    show (q.ambient &&& dataWord ((caps.add capSetpcap).add capDacOverride) &&& dataWord caps).getLsbD k = true ↔ _
    rw [BitVec.getLsbD_and, BitVec.getLsbD_and, hthis, hwanted k hlow hk, Bool.and_true, Bool.and_true, hq.ambient]
    by_cases hzero : uid = 0
    · simp [hzero]
    · simp [hzero]
  · intro hexact k hk
    have hlow := (dataWord_exactly_iff caps).mp hexact k hk
    exact ⟨fun _ => hkept, fun _ => hwanted k hlow hk⟩

theorem afterCapset_refused {p : RootProcess S} {uid : Nat} {q : Process} (hq : BeforeCapset S refused caps p uid q)
    (hcaps : ∀ k, caps.getLsbD k = true → k ≤ S.last) (hmade : ¬CapsetMade refused uid) :
    AfterCapset S refused caps p uid q := by
  constructor
  · simp [hq.effective, hmade]
  · simp [hq.inheritable, hmade]
  · intro hexact k hk
    -- ambient capabilities are inheritable ones
    apply (hexact k).mp
    rw [hq.ambient] at hk
    rw [hq.inheritable]
    by_cases hzero : uid = 0
    · rw [if_pos hzero] at hk
      exact (within_iff).mp p.ambient k hk
    · simp [hzero] at hk
  · intro _ k _
    by_cases hzero : uid = 0
    · simp [hq.ambient, hzero]
    · simp [hq.ambient, hzero]
  · intro _ k hk
    simp [hq.permitted, hcaps k hk]

theorem afterCapset {p : RootProcess S} {uid : Nat} {q : Process} (hq : BeforeCapset S refused caps p uid q)
    (hcaps : ∀ k, caps.getLsbD k = true → k ≤ S.last) :
    AfterCapset S refused caps p uid (setData refused caps q) ∧ (setData refused caps q).bounding = q.bounding := by
  have hneeded : ∀ k, caps.getLsbD k = true → q.bounding.getLsbD k = true := by
    intro k hk
    simp [hq.bounding, hcaps k hk, getLsbD_needed, hk]
  have hcall := capset_eq hq.permitted hneeded hcaps
  by_cases hmade : CapsetMade refused uid
  · have hkept : (decide (uid = 0) || !refused .keepCaps) = true := by simpa using hmade.2
    rw [setData_made hmade.1 (hcall.trans hkept)]
    exact ⟨afterCapset_made hq hmade, rfl⟩
  · have hnot : refused .capset = true ∨ (decide (uid = 0) || !refused .keepCaps) = false := by
      by_contra hboth
      simp only [not_or, Bool.not_eq_true, Bool.not_eq_false] at hboth
      exact hmade ⟨hboth.1, by simpa using hboth.2⟩
    rw [setData_refused (hnot.imp_right hcall.trans)]
    exact ⟨afterCapset_refused hq hcaps hmade, rfl⟩

/-- What neither pass drops stays in the bounding set. -/
theorem bounding_exactly_iff {p : RootProcess S} {uid : Nat} {q r : Process} {b : CapSet}
    (hq : BeforeCapset S refused caps p uid q) (hr : AfterCapset S refused caps p uid r) (hsame : r.bounding = q.bounding)
    (hcaps : ∀ k, caps.getLsbD k = true → k ≤ S.last)
    (hb : ∀ k, b.getLsbD k = (r.bounding.getLsbD k && !(decide (k ≤ S.last) && (!caps.getLsbD k &&
      (r.effective.getLsbD capSetpcap && !refused (.dropBounding 2 k)))))) :
    Exactly b (fun k => caps.getLsbD k = true) ↔ ∀ k ≤ S.last, ¬caps.getLsbD k = true →
      k ∉ [capSetgid, capSetuid, capSetpcap] ∧ refused (.dropBounding 1 k) = false ∨
        (CapsetMade refused uid ∨ uid = 0) ∧ refused (.dropBounding 2 k) = false := by
  refine forall_congr' fun k => ?_
  show (b.getLsbD k = true ↔ caps.getLsbD k = true) ↔ _
  rw [← hr.effective, hb k, hsame, hq.bounding k, getLsbD_needed]
  cases hk : caps.getLsbD k with
  | true => simp [hcaps k hk]
  | false =>
    by_cases hle : k ≤ S.last
    · by_cases hneeds : k ∈ [capSetgid, capSetuid, capSetpcap]
      · simp [hle, hneeds]
      · simp only [hle, hneeds, decide_true, decide_false, Bool.true_and, Bool.or_self, Bool.not_false]
        cases refused (.dropBounding 1 k) <;> simp
    · simp [hle]

/-- What could be raised, or was ambient before, is in the ambient set. -/
theorem ambient_exactly_iff {p : RootProcess S} {uid : Nat} {r : Process} {a : CapSet}
    (hr : AfterCapset S refused caps p uid r) (hcaps : ∀ k, caps.getLsbD k = true → k ≤ S.last)
    (hexact : Exactly r.inheritable (fun k => caps.getLsbD k = true))
    (ha : ∀ k, a.getLsbD k = (r.ambient.getLsbD k || (decide (k ≤ S.last) && (caps.getLsbD k &&
      (r.permitted.getLsbD k && r.inheritable.getLsbD k && !refused (.raiseAmbient k)))))) :
    Exactly a (fun k => caps.getLsbD k = true) ↔ ∀ k, caps.getLsbD k = true →
      (uid = 0 ∨ refused .keepCaps = false) ∧ refused (.raiseAmbient k) = false ∨
        uid = 0 ∧ p.proc.ambient.getLsbD k = true := by
  refine forall_congr' fun k => ?_
  show (a.getLsbD k = true ↔ caps.getLsbD k = true) ↔ _
  rw [ha k]
  cases hk : caps.getLsbD k with
  | true =>
    rw [← hr.ambient hexact k hk, ← hr.permitted hexact k hk, (hexact k).mpr hk]
    simp only [hcaps k hk, decide_true, Bool.true_and, Bool.and_true, Bool.or_eq_true, Bool.and_eq_true,
      Bool.not_eq_true', iff_true, true_implies]
    exact or_comm
  | false =>
    have hout : r.ambient.getLsbD k = false := by
      rw [Bool.eq_false_iff]
      intro hin
      rw [hr.within hexact k hin] at hk
      cases hk
    simp [hout]

/-- The sets at execve are what was requested if and only if the calls made them so. -/
theorem finished_exact_iff (p : RootProcess S) (refused : Call → Bool) (hcaps : ∀ k, caps.getLsbD k = true → k ≤ S.last)
    (uid : Nat) : GrantsExactly (fun k => caps.getLsbD k = true) (.ok (finished S refused caps uid p.proc)) ↔
      Granted S p refused uid fun k => caps.getLsbD k = true := by
  have hq := beforeCapset p refused caps uid
  obtain ⟨hr, hsame⟩ := afterCapset hq hcaps
  obtain ⟨b, a, hrun, hfinal, hraised⟩ := raiseOrDrop_eq S refused caps
    (setData refused caps (switched (capsSet S refused (needed caps) (started refused p.proc)) uid))
  have hdrops := bounding_exactly_iff hq hr hsame hcaps hfinal
  rw [finished, hrun]
  change Exactly b _ ∧ Exactly (setData refused caps _).inheritable _ ∧ Exactly a _ ↔ _
  rw [hdrops]
  constructor
  · rintro ⟨hdropped, hinherits, hambient⟩
    exact ⟨hdropped, hr.inheritable.mp hinherits, (ambient_exactly_iff hr hcaps hinherits hraised).mp hambient⟩
  · rintro ⟨hdropped, hinherited, hambient⟩
    have hinherits := hr.inheritable.mpr hinherited
    exact ⟨hdropped, hinherits, (ambient_exactly_iff hr hcaps hinherits hraised).mpr hambient⟩

/-! ## The program -/

theorem bind_error {α β : Type} {x : Except Stop α} {f : α → Except Stop β} {stop : Stop}
    (herr : (x >>= f) = .error stop) : x = .error stop ∨ ∃ a, f a = .error stop := by
  cases x with
  | error e => exact .inl (congrArg Except.error (Except.error.inj herr))
  | ok a => exact .inr ⟨a, herr⟩

theorem readGroup_error {g : Word} {stop : Stop} (herr : readGroup S g = .error stop) : stop = .exit 1 := by
  unfold readGroup at herr
  cases hgroup : S.group g with
  | none =>
    rw [hgroup] at herr
    exact (Except.error.inj herr).symm
  | some gid =>
    rw [hgroup] at herr
    cases herr

theorem readGroups_error {gs : List Word} {stop : Stop} (herr : gs.mapM (readGroup S) = .error stop) : stop = .exit 1 := by
  induction gs with
  | nil => cases herr
  | cons g gs ih =>
    rw [List.mapM_cons] at herr
    rcases bind_error herr with hfirst | ⟨gid, herr⟩
    · exact readGroup_error hfirst
    · rcases bind_error herr with hrest | ⟨gids, herr⟩
      · exact ih hrest
      · cases herr

/-- A user or a group that is not known ends the program. -/
theorem readTarget_error {user : Word} {stop : Stop} (herr : readTarget S user = .error stop) : stop = .exit 1 := by
  unfold readTarget at herr
  generalize splitUser user = parts at herr
  obtain ⟨u, g, s⟩ := parts
  dsimp only at herr
  split at herr
  · exact (Except.error.inj herr).symm
  · cases g with
    | none =>
      cases s with
      | none => cases herr
      | some s =>
        rcases bind_error herr with hnone | ⟨gid, herr⟩
        · cases hnone
        · rcases bind_error herr with hgroups | ⟨gids, herr⟩
          · exact readGroups_error hgroups
          · cases herr
    | some g =>
      rcases bind_error herr with hgroup | ⟨gid, herr⟩
      · exact readGroup_error hgroup
      · cases s with
        | none => cases herr
        | some s =>
          rcases bind_error herr with hgroups | ⟨gids, herr⟩
          · exact readGroups_error hgroups
          · cases herr

/-- For every list of names, user and outcome of the calls: what reaches execve has exactly the
requested sets if and only if no call that makes them so was refused. -/
theorem grants_iff (p : RootProcess S) (refused : Call → Bool) (prog user program : Word) (rest list : List Word)
    (hlist : ∀ w ∈ list, IsCapName w) :
    GrantsExactly (Requested S list) (main S refused p.proc (prog :: user :: capList list :: program :: rest)) ↔
      ∀ target, readTarget S user = .ok target → Reaches refused target →
        Granted S p refused target.uid (Requested S list) := by
  obtain ⟨caps, hcaps, hbits⟩ := readCaps_capList (S := S) hlist
  have hset : (fun k => caps.getLsbD k = true) = Requested S list := funext fun k => propext (hbits k)
  have hlast : ∀ k, caps.getLsbD k = true → k ≤ S.last := fun k hk => ((hbits k).mp hk).1
  rw [main]
  cases htarget : readTarget S user with
  | error stop =>
    have hstop : provide S refused p.proc user (capList list) = .error (.exit 1) := by
      unfold provide
      rw [htarget, readTarget_error htarget]
      rfl
    rw [hstop]
    constructor
    · intro _ target hsome
      cases hsome
    · intro _
      exact Nat.one_ne_zero
  | ok target =>
    obtain ⟨hreached, hstopped⟩ := provide_eq p refused hcaps htarget
    by_cases hreach : Reaches refused target
    · rw [hreached hreach, ← hset, finished_exact_iff p refused hlast]
      constructor
      · intro hgranted target' hsame _
        obtain rfl := Except.ok.inj hsame
        exact hgranted
      · intro hall
        exact hall target rfl hreach
    · obtain ⟨code, hcode, hexit⟩ := hstopped hreach
      rw [hexit]
      constructor
      · intro _ target' hsame hreach'
        obtain rfl := Except.ok.inj hsame
        exact (hreach hreach').elim
      · exact fun _ => hcode

/-! ## A system -/

def capNames : List Word :=
  ["cap_chown", "cap_dac_override", "cap_dac_read_search", "cap_fowner", "cap_fsetid", "cap_kill", "cap_setgid",
    "cap_setuid", "cap_setpcap", "cap_linux_immutable", "cap_net_bind_service", "cap_net_broadcast", "cap_net_admin",
    "cap_net_raw", "cap_ipc_lock", "cap_ipc_owner", "cap_sys_module", "cap_sys_rawio", "cap_sys_chroot",
    "cap_sys_ptrace", "cap_sys_pacct", "cap_sys_admin", "cap_sys_boot", "cap_sys_nice", "cap_sys_resource",
    "cap_sys_time", "cap_sys_tty_config", "cap_mknod", "cap_lease", "cap_audit_write", "cap_audit_control",
    "cap_setfcap", "cap_mac_override", "cap_mac_admin", "cap_syslog", "cap_wake_alarm", "cap_block_suspend",
    "cap_audit_read", "cap_perfmon", "cap_bpf", "cap_checkpoint_restore"].map String.toList

theorem not_mem_toList {s : String} {l : List Char} {c : Char} (hs : s = String.ofList l) (hc : c ∉ l) :
    c ∉ s.toList := by
  rw [hs, String.toList_ofList]
  exact hc

/-- A system with 41 capabilities and the user nobody. -/
def linux : System where
  last := 40
  names j := capNames.getD j []
  own := some ⟨0, 0⟩
  passwd u := if u = "nobody".toList then some ⟨65534, 65534⟩ else none
  group _ := none
  last_gt := by decide
  last_lt := by decide
  names_ok := by
    intro j
    have hnames : ∀ w ∈ capNames, NUL ∉ w := by
      simp only [capNames, List.forall_mem_map, List.forall_mem_cons]
      repeat' apply And.intro
      all_goals first | exact not_mem_toList rfl (by decide) | simp
    rw [List.getD_eq_getElem?_getD]
    cases hname : capNames[j]? with
    | none => exact List.not_mem_nil
    | some w => exact hnames w (List.mem_of_getElem? hname)

def allCaps : CapSet := 0x1ffffffffff#64

theorem getLsbD_allCaps (k : Nat) : allCaps.getLsbD k = decide (k ≤ 40) := by
  have hones : allCaps.getLsbD k = (decide (k < 64) && (2 ^ 41 - 1).testBit k) := BitVec.getLsbD_ofNat ..
  rw [hones, Nat.testBit_two_pow_sub_one, ← Bool.decide_and, decide_eq_decide]
  omega

def rootProcess : RootProcess linux where
  proc :=
    { root := true, keepCaps := false, noNewPrivs := false
      effective := allCaps, permitted := allCaps, inheritable := 0#64, bounding := allCaps, ambient := 0#64 }
  root := rfl
  keepCaps := rfl
  effective := getLsbD_allCaps
  permitted := getLsbD_allCaps
  bounding := getLsbD_allCaps
  ambient := by decide

theorem isCapName_net_raw : IsCapName "cap_net_raw".toList := ⟨by decide, by decide⟩

theorem isCapName_syslog : IsCapName "cap_syslog".toList := ⟨by decide, by decide⟩

theorem readTarget_nobody : readTarget linux "nobody".toList = .ok ⟨65534, 65534, none⟩ := rfl

theorem high_ne_net_raw : ∀ w ∈ capAll :: capNames.drop 32, w ≠ "cap_net_raw".toList := by
  unfold capNames capAll
  rw [← List.map_drop, ← List.map_cons, List.forall_mem_map]
  intro s hs
  rw [Ne, String.toList_inj]
  revert s
  decide

/-- nobody is given CAP_NET_RAW, number 13. -/
theorem grants_net_raw : GrantsExactly (Requested linux ["cap_net_raw".toList]) (main linux (fun _ => false)
    rootProcess.proc ["cap_provide".toList, "nobody".toList, capList ["cap_net_raw".toList], "ping".toList]) := by
  have hiff := grants_iff rootProcess (fun _ => false) "cap_provide".toList "nobody".toList "ping".toList []
    ["cap_net_raw".toList] (by simpa using isCapName_net_raw)
  rw [hiff]
  intro target htarget _
  obtain rfl := Except.ok.inj (readTarget_nobody.symm.trans htarget)
  have hmade : CapsetMade (fun _ => false) 65534 := ⟨rfl, .inr rfl⟩
  refine ⟨fun k _ _ => .inr ⟨.inl hmade, rfl⟩, .inl ⟨hmade, ?_⟩, fun k _ => .inl ⟨.inr rfl, rfl⟩⟩
  intro k hk
  by_contra hhigh
  rcases hk.2 with hname | hname
  · have hlt : k < capNames.length := Nat.lt_succ_of_le hk.1
    have hdrop : capNames.getD k [] ∈ capNames.drop 32 := by
      rw [List.getD_eq_getElem?_getD, List.getElem?_eq_getElem hlt, Option.getD_some, List.mem_drop_iff_getElem]
      exact ⟨k - 32, by omega, by congr 1; omega⟩
    exact high_ne_net_raw _ (List.mem_cons_of_mem _ hdrop) (List.mem_singleton.mp hname)
  · exact high_ne_net_raw _ List.mem_cons_self (List.mem_singleton.mp hname)

/-- nobody comes to the program without CAP_SYSLOG, number 34, although no call is refused. -/
theorem syslog_not_granted : ¬GrantsExactly (Requested linux ["cap_syslog".toList]) (main linux (fun _ => false)
    rootProcess.proc ["cap_provide".toList, "nobody".toList, capList ["cap_syslog".toList], "dmesg".toList]) := by
  have hlist : ∀ w ∈ ["cap_syslog".toList], IsCapName w := by simpa using isCapName_syslog
  obtain ⟨caps, hcaps, hbits⟩ := readCaps_capList (S := linux) hlist
  have hset : (fun k => caps.getLsbD k = true) = Requested linux ["cap_syslog".toList] := funext fun k => propext (hbits k)
  obtain ⟨hreached, -⟩ := provide_eq rootProcess (fun _ => false) hcaps readTarget_nobody
  rw [main, hreached ⟨.inr rfl, rfl, rfl⟩, ← hset, finished_exact_iff rootProcess _ fun k hk => ((hbits k).mp hk).1]
  intro hgranted
  have hmade : CapsetMade (fun _ => false) 65534 := ⟨rfl, .inr rfl⟩
  rcases hgranted.inheritable with ⟨-, hlow⟩ | ⟨hnot, -⟩
  · have hrequested : Requested linux ["cap_syslog".toList] 34 := ⟨by decide, .inl (by decide +kernel)⟩
    exact absurd (hlow 34 ((hbits 34).mpr hrequested)) (by decide)
  · exact hnot hmade

end CapProvide
