import MxlUtils.Gphy.Msec.EngineConfig
import MxlUtils.Gphy.Msec.SamFca

/- The actions for packets that no SA matches. A register has one byte for each packet
   group; a call names a group or all of them, and changes their bytes of the word it
   has read. -/
namespace Gpy2xx
open Effect Effect.Lock Bits

/-! ## Fields that are replaced in either order -/

section Fields
variable {w : Nat} {f g : Field w} {word a b : BitVec w} {l l' : List (Field w × BitVec w)}

theorem replace_comm (h : f.mask &&& g.mask = 0#w) :
    f.replace (g.replace word b) a = g.replace (f.replace word a) b := by
  have hbit : ∀ i, f.mask.getLsbD i = true → g.mask.getLsbD i = false := fun i hf => by
    have hi := congrArg (BitVec.getLsbD · i) h
    simpa [hf] using hi
  apply BitVec.eq_of_getLsbD_eq
  intro i hi
  simp only [Field.replace, Field.set, BitVec.getLsbD_or, BitVec.getLsbD_and, BitVec.getLsbD_not]
  cases hf : f.mask.getLsbD i with
  | false => cases g.mask.getLsbD i <;> simp [-BitVec.getLsbD_eq_getElem, hi]
  | true => simp [-BitVec.getLsbD_eq_getElem, hbit i hf, hi]

theorem replaceFields_replace (h : ∀ g ∈ l, f.mask &&& g.1.mask = 0#w) :
    replaceFields (f.replace word a) l = f.replace (replaceFields word l) a := by
  induction l generalizing word with
  | nil => rfl
  | cons g l ih =>
    calc replaceFields (g.1.replace (f.replace word a) g.2) l
        = replaceFields (f.replace (g.1.replace word g.2) a) l := by rw [replace_comm (h g List.mem_cons_self)]
      _ = f.replace (replaceFields (g.1.replace word g.2) l) a := ih fun u hu => h u (List.mem_cons_of_mem g hu)

theorem replaceFields_comm (h : ∀ f ∈ l, ∀ g ∈ l', f.1.mask &&& g.1.mask = 0#w) :
    replaceFields (replaceFields word l) l' = replaceFields (replaceFields word l') l := by
  induction l generalizing word with
  | nil => rfl
  | cons f l ih =>
    calc replaceFields (replaceFields (f.1.replace word f.2) l) l'
        = replaceFields (replaceFields (f.1.replace word f.2) l') l := ih fun u hu => h u (List.mem_cons_of_mem f hu)
      _ = replaceFields (f.1.replace (replaceFields word l') f.2) l := by
        rw [replaceFields_replace (h f List.mem_cons_self)]

theorem replaceFields_append : replaceFields word (l ++ l') = replaceFields (replaceFields word l) l' :=
  List.foldl_append

/-- The bits outside a mask that covers the fields. -/
theorem replaceFields_and_not {mask : BitVec w} (h : ∀ g ∈ l, g.1.mask &&& ~~~mask = 0#w) :
    replaceFields word l &&& ~~~mask = word &&& ~~~mask := by
  have hget := @get_replaceFields_of_apart w ⟨~~~mask, 0⟩ word l fun g hg => by
    rw [BitVec.and_comm]
    exact h g hg
  simpa [Field.get] using hget

end Fields

/-! ## What the calls are for -/

/-- The registers after a call, where every access succeeds. -/
def saNmAfter (dir : MsecDir) (reg : SaNmReg) (c : SaNonmatchFca) (regs : Regs) : Regs :=
  ((configSaNm dir reg c).exec lockedMem regs).2

/-- One register with its word replaced. -/
def saNmPut (dir : MsecDir) (reg : SaNmReg) (regs : Regs) (word : BitVec 32) : Regs :=
  { regs with mbox := regs.mbox.store32 (saNmAddr dir reg) word }

/-- The bits of a group: its flow type, port, drop flag and drop action. -/
def saNmGroupMask (dir : MsecDir) (i : Nat) : BitVec 32 :=
  match dir with
  | .ingress => 0xDD <<< (8 * i)
  | .egress => 0xCD <<< (8 * i)

/-- A call ends with an error and makes no access. -/
def SaNmRejects (dir : MsecDir) (reg : SaNmReg) (c : SaNonmatchFca) : Prop :=
  ∀ t r, (configSaNm dir reg c).Runs t r → accesses t = [] ∧ ∃ e, r = .error e

/-- Some field that the call would write is out of range. -/
def SaNmOutOfRange (dir : MsecDir) (c : SaNonmatchFca) : Prop :=
  ∃ groups, c.pktType.groups = some groups ∧ ∃ i ∈ groups, ∃ f ∈ saNmFields dir c i, ¬FieldHolds f.1 f.2

structure SaNmExact (dir : MsecDir) (reg : SaNmReg) : Prop where
  only : ∀ c i, c.pktType.groups = some [i] → ∀ regs, ∃ word,
    saNmAfter dir reg c regs = saNmPut dir reg regs word ∧
    word &&& ~~~saNmGroupMask dir i = regs.mbox.load32 (saNmAddr dir reg) &&& ~~~saNmGroupMask dir i
  all : ∀ (c : SaNonmatchFca) (regs : Regs), saNmAfter dir reg { c with pktType := .allTagged } regs =
    saNmAfter dir reg { c with pktType := .kayTagged } (saNmAfter dir reg { c with pktType := .badTagged }
      (saNmAfter dir reg { c with pktType := .tagged } (saNmAfter dir reg { c with pktType := .untagged } regs)))
  comm : ∀ c c' i j, c.pktType.groups = some [i] → c'.pktType.groups = some [j] → i ≠ j → ∀ regs,
    saNmAfter dir reg c (saNmAfter dir reg c' regs) = saNmAfter dir reg c' (saNmAfter dir reg c regs)
  rejects_iff : ∀ c, SaNmRejects dir reg c ↔ c.pktType.groups = none ∨ SaNmOutOfRange dir c

/-! ## The word of a register -/

section Word
variable {dir : MsecDir} {c c' : SaNonmatchFca} {i j : Nat} {groups : List Nat}

theorem groups_lt (h : c.pktType.groups = some groups) : groups ≠ [] ∧ ∀ i ∈ groups, i < 4 := by
  cases hp : c.pktType <;> rw [hp] at h <;> simp only [SaNmSecyPt.groups, Option.some.injEq, reduceCtorEq] at h
  all_goals
    subst h
    exact ⟨by simp, by decide⟩

def saNmGroupFields (dir : MsecDir) (i : Nat) : List (Field 32) :=
  [⟨0x1 <<< (8 * i), 8 * i⟩, ⟨0xC <<< (8 * i), 8 * i + 2⟩] ++
  (match dir with
    | .ingress => [⟨0x10 <<< (8 * i), 8 * i + 4⟩]
    | .egress => []) ++
  [⟨0xC0 <<< (8 * i), 8 * i + 6⟩]

theorem saNmFields_eq (dir : MsecDir) (c : SaNonmatchFca) (i : Nat) :
    (saNmFields dir c i).map Prod.fst = saNmGroupFields dir i := by
  cases dir <;> rfl

theorem mem_saNmGroupFields {f : Field 32 × BitVec 32} (h : f ∈ saNmFields dir c i) : f.1 ∈ saNmGroupFields dir i :=
  saNmFields_eq dir c i ▸ List.mem_map_of_mem h

/-- The fields of a group are under its mask. -/
theorem saNmFields_mask (hi : i < 4) (f : Field 32 × BitVec 32) (hf : f ∈ saNmFields dir c i) :
    f.1.mask &&& ~~~saNmGroupMask dir i = 0#32 := by
  have hmasks : ∀ i < 4, ∀ g ∈ saNmGroupFields dir i, g.mask &&& ~~~saNmGroupMask dir i = 0#32 := by
    cases dir <;> decide
  exact hmasks i hi f.1 (mem_saNmGroupFields hf)

theorem saNmFields_apart (hi : i < 4) (hj : j < 4) (hne : i ≠ j) (f : Field 32 × BitVec 32)
    (hf : f ∈ saNmFields dir c i) (g : Field 32 × BitVec 32) (hg : g ∈ saNmFields dir c' j) :
    f.1.mask &&& g.1.mask = 0#32 := by
  have hmasks : ∀ i < 4, ∀ j < 4, i ≠ j → ∀ f ∈ saNmGroupFields dir i, ∀ g ∈ saNmGroupFields dir j,
      f.mask &&& g.mask = 0#32 := by
    cases dir <;> decide
  exact hmasks i hi j hj hne f.1 (mem_saNmGroupFields hf) g.1 (mem_saNmGroupFields hg)

/-- The call's own checks are those of the fields. -/
theorem saNmInRange_iff (hi : i < 4) :
    saNmInRange dir c = true ↔ ∀ f ∈ saNmFields dir c i, FieldHolds f.1 f.2 := by
  have hspans : ∀ i < 4, (⟨((0x1 <<< (8 * i) : Nat) : BitVec 32), 8 * i⟩ : Field 32).Spans 1 ∧
      (⟨((0xC <<< (8 * i) : Nat) : BitVec 32), 8 * i + 2⟩ : Field 32).Spans 2 ∧
      (⟨((0x10 <<< (8 * i) : Nat) : BitVec 32), 8 * i + 4⟩ : Field 32).Spans 1 ∧
      (⟨((0xC0 <<< (8 * i) : Nat) : BitVec 32), 8 * i + 6⟩ : Field 32).Spans 2 := by decide
  obtain ⟨hflow, hport, hflag, haction⟩ := hspans i hi
  have hwidth : (c.dropNonReserved.setWidth 32).toNat = c.dropNonReserved.toNat := by
    rw [BitVec.toNat_setWidth]
    exact Nat.mod_eq_of_lt (by omega)
  have hdrop : SaNmFcaFt.drop.code.toNat = 1 := rfl
  have huncontrol : SamFcaDpt.uncontrol.code.toNat = 3 := rfl
  have hnoDrop : SamFcaDat.noDrop.code.toNat = 3 := rfl
  have hone : (1 : BitVec 8).toNat = 1 := rfl
  cases dir
  · simp only [saNmFields, List.cons_append, List.nil_append, List.forall_mem_cons, List.not_mem_nil, false_imp_iff,
      implies_true, and_true, fieldHolds_iff hflow, fieldHolds_iff hport, fieldHolds_iff hflag, fieldHolds_iff haction, hwidth,
      saNmInRange, Bool.and_eq_true, decide_eq_true_eq, BitVec.le_def, hdrop, huncontrol, hnoDrop, hone]
    omega
  · simp only [saNmFields, List.cons_append, List.nil_append, List.forall_mem_cons, List.not_mem_nil, false_imp_iff,
      implies_true, and_true, fieldHolds_iff hflow, fieldHolds_iff hport, fieldHolds_iff haction,
      saNmInRange, Bool.and_eq_true, decide_eq_true_eq, BitVec.le_def, hdrop, huncontrol, hnoDrop]
    omega

end Word

/-! ## The calls on registers as memory -/

section Calls
variable {dir : MsecDir} {reg : SaNmReg} {c c' : SaNonmatchFca} {regs : Regs} {groups : List Nat}

theorem configSaNm_rejected (h : c.pktType.groups = none ∨ saNmInRange dir c = false) :
    configSaNm dir reg c = throw EINVAL := by
  rw [configSaNm]
  cases hgroups : c.pktType.groups with
  | none => rfl
  | some groups =>
    have hout : saNmInRange dir c = false := by simpa [hgroups] using h
    simp only [hout, Bool.not_false, if_true]

theorem exec_configSaNm (hgroups : c.pktType.groups = some groups) (hin : saNmInRange dir c = true) :
    (configSaNm dir reg c).exec lockedMem regs = (.ok (), saNmPut dir reg regs
      (replaceFields (regs.mbox.load32 (saNmAddr dir reg)) (groups.flatMap (saNmFields dir c)))) := by
  rw [configSaNm, hgroups]
  simp only [hin, Bool.not_true, Bool.false_eq_true, if_false]
  rw [exec_locked, Fallible.exec_bind_ok (exec_phyMboxRead regs _), exec_phyMboxWrite]
  rfl

theorem saNmAfter_rejected (h : c.pktType.groups = none ∨ saNmInRange dir c = false) : saNmAfter dir reg c regs = regs := by
  rw [saNmAfter, configSaNm_rejected h]
  rfl

theorem load_saNmPut (word : BitVec 32) : (saNmPut dir reg regs word).mbox.load32 (saNmAddr dir reg) = word :=
  Mem.load32_store32_same word

/-- The word that is there already. -/
theorem saNmPut_load : saNmPut dir reg regs (regs.mbox.load32 (saNmAddr dir reg)) = regs := by
  have hstore : regs.mbox.store32 (saNmAddr dir reg) (regs.mbox.load32 (saNmAddr dir reg)) = regs.mbox := by
    funext x
    rw [Mem.store32, Mem.store]
    split
    · next hx =>
      apply BitVec.eq_of_getLsbD_eq
      intro i hi
      have hbit := @Mem.load_bit regs.mbox (saNmAddr dir reg) 4 (8 * (x - saNmAddr dir reg) + i) (by omega)
      have hbyte : saNmAddr dir reg + (8 * (x - saNmAddr dir reg) + i) / 8 = x := by omega
      have hlow : (8 * (x - saNmAddr dir reg) + i) % 8 = i := by omega
      rw [hbyte, hlow] at hbit
      rw [BitVec.getLsbD_extractLsb', Mem.load32, hbit]
      simp [hi]
    · rfl
  rw [saNmPut, hstore]

theorem saNmPut_saNmPut (word word' : BitVec 32) :
    saNmPut dir reg (saNmPut dir reg regs word) word' = saNmPut dir reg regs word' := by
  have hstore : (regs.mbox.store32 (saNmAddr dir reg) word).store32 (saNmAddr dir reg) word' =
      regs.mbox.store32 (saNmAddr dir reg) word' := by
    funext x
    rw [Mem.store32, Mem.store32, Mem.store32, Mem.store, Mem.store, Mem.store]
    split
    · rfl
    · rfl
  rw [saNmPut, saNmPut, saNmPut, hstore]

theorem saNmAfter_eq (hgroups : c.pktType.groups = some groups) (hin : saNmInRange dir c = true) :
    saNmAfter dir reg c regs = saNmPut dir reg regs
      (replaceFields (regs.mbox.load32 (saNmAddr dir reg)) (groups.flatMap (saNmFields dir c))) := by
  rw [saNmAfter, exec_configSaNm hgroups hin]

/-- Two calls on one register. -/
theorem saNmAfter_saNmAfter {groups' : List Nat} (hgroups : c.pktType.groups = some groups) (hin : saNmInRange dir c = true)
    (hgroups' : c'.pktType.groups = some groups') (hin' : saNmInRange dir c' = true) :
    saNmAfter dir reg c' (saNmAfter dir reg c regs) = saNmPut dir reg regs
      (replaceFields (replaceFields (regs.mbox.load32 (saNmAddr dir reg)) (groups.flatMap (saNmFields dir c)))
        (groups'.flatMap (saNmFields dir c'))) := by
  rw [saNmAfter_eq hgroups hin, saNmAfter_eq hgroups' hin', load_saNmPut, saNmPut_saNmPut]

theorem rejects_saNm_iff : SaNmRejects dir reg c ↔ c.pktType.groups = none ∨ SaNmOutOfRange dir c := by
  have hrange : ∀ groups, c.pktType.groups = some groups → (saNmInRange dir c = false ↔ SaNmOutOfRange dir c) := by
    intro groups hgroups
    obtain ⟨hne, hlt⟩ := groups_lt hgroups
    constructor
    · intro hout
      obtain ⟨i, hi⟩ := List.exists_mem_of_ne_nil groups hne
      have hnot : ¬∀ f ∈ saNmFields dir c i, FieldHolds f.1 f.2 := fun h => by
        rw [(saNmInRange_iff (hlt i hi)).mpr h] at hout
        cases hout
      push Not at hnot
      exact ⟨groups, hgroups, i, hi, hnot⟩
    · intro h
      obtain ⟨groups', hgroups', i, hi, f, hf, hnot⟩ := h
      cases hgroups.symm.trans hgroups'
      by_contra hin
      exact hnot ((saNmInRange_iff (hlt i hi)).mp (by simpa using hin) f hf)
  constructor
  · intro h
    cases hgroups : c.pktType.groups with
    | none => exact .inl rfl
    | some groups =>
      refine .inr ((hrange groups hgroups).mp ?_)
      by_contra hin
      have hok := @exec_configSaNm dir reg c (zeroRegs true) groups hgroups (by simpa using hin)
      obtain ⟨t, hrun, -⟩ := (Fallible.exec_eq_iff).mp hok
      obtain ⟨-, e, he⟩ := h t _ hrun
      cases he
  · intro h t r hrun
    have hreject : c.pktType.groups = none ∨ saNmInRange dir c = false := by
      cases hgroups : c.pktType.groups with
      | none => exact .inl rfl
      | some groups =>
        rw [hgroups] at h
        exact .inr ((hrange groups hgroups).mpr (by simpa using h))
    rw [configSaNm_rejected hreject] at hrun
    obtain ⟨rfl, rfl⟩ := (Fallible.runs_throw).mp hrun
    exact ⟨rfl, _, rfl⟩

theorem saNmInRange_pktType (p : SaNmSecyPt) : saNmInRange dir { c with pktType := p } = saNmInRange dir c := rfl

theorem saNmFields_pktType (p : SaNmSecyPt) : saNmFields dir { c with pktType := p } = saNmFields dir c := rfl

/-- A call for one group. -/
theorem saNmAfter_group {i : Nat} (hi : c.pktType.groups = some [i]) (hin : saNmInRange dir c = true) :
    saNmAfter dir reg c regs = saNmPut dir reg regs
      (replaceFields (regs.mbox.load32 (saNmAddr dir reg)) (saNmFields dir c i)) := by
  rw [saNmAfter_eq hi hin, List.flatMap_singleton]

/-- Calls for one group keep to its byte. -/
theorem saNm_only {i : Nat} (hi : c.pktType.groups = some [i]) : ∃ word,
    saNmAfter dir reg c regs = saNmPut dir reg regs word ∧
    word &&& ~~~saNmGroupMask dir i = regs.mbox.load32 (saNmAddr dir reg) &&& ~~~saNmGroupMask dir i := by
  by_cases hin : saNmInRange dir c = true
  · refine ⟨_, saNmAfter_group hi hin, ?_⟩
    exact replaceFields_and_not (saNmFields_mask ((groups_lt hi).2 i (List.mem_singleton_self i)))
  · refine ⟨_, ?_, rfl⟩
    rw [saNmAfter_rejected (.inr (by simpa using hin)), saNmPut_load]

/-- A call for all groups is one for each of them. -/
theorem saNm_all : saNmAfter dir reg { c with pktType := .allTagged } regs =
    saNmAfter dir reg { c with pktType := .kayTagged } (saNmAfter dir reg { c with pktType := .badTagged }
      (saNmAfter dir reg { c with pktType := .tagged } (saNmAfter dir reg { c with pktType := .untagged } regs))) := by
  by_cases hin : saNmInRange dir c = true
  · have hgroups : ∀ (p : SaNmSecyPt) (i : Nat) (regs : Regs), p.groups = some [i] →
        saNmAfter dir reg { c with pktType := p } regs = saNmPut dir reg regs
          (replaceFields (regs.mbox.load32 (saNmAddr dir reg)) (saNmFields dir c i)) :=
      fun p i regs hp => @saNmAfter_group dir reg { c with pktType := p } regs i hp hin
    have hall := @saNmAfter_eq dir reg { c with pktType := .allTagged } regs [0, 1, 2, 3] rfl hin
    rw [hall, hgroups .untagged 0 _ rfl, hgroups .tagged 1 _ rfl, hgroups .badTagged 2 _ rfl, hgroups .kayTagged 3 _ rfl]
    simp only [load_saNmPut, saNmPut_saNmPut, ← replaceFields_append]
    simp only [saNmFields_pktType, List.flatMap_cons, List.flatMap_nil, List.append_nil, List.append_assoc]
  · have hkeep : ∀ (p : SaNmSecyPt) (regs : Regs), saNmAfter dir reg { c with pktType := p } regs = regs := fun p regs =>
      saNmAfter_rejected (.inr (by rw [saNmInRange_pktType]; simpa using hin))
    simp only [hkeep]

/-- Calls for two groups. -/
theorem saNm_comm {i j : Nat} (hi : c.pktType.groups = some [i]) (hj : c'.pktType.groups = some [j]) (hne : i ≠ j) :
    saNmAfter dir reg c (saNmAfter dir reg c' regs) = saNmAfter dir reg c' (saNmAfter dir reg c regs) := by
  by_cases hin : saNmInRange dir c = true
  · by_cases hin' : saNmInRange dir c' = true
    · rw [saNmAfter_saNmAfter hj hin' hi hin, saNmAfter_saNmAfter hi hin hj hin']
      simp only [List.flatMap_singleton]
      have hlt := (groups_lt hi).2 i (List.mem_singleton_self i)
      have hlt' := (groups_lt hj).2 j (List.mem_singleton_self j)
      rw [replaceFields_comm (saNmFields_apart hlt' hlt hne.symm)]
    · have hkeep : ∀ regs, saNmAfter dir reg c' regs = regs := fun regs =>
        saNmAfter_rejected (.inr (by simpa using hin'))
      simp only [hkeep]
  · have hkeep : ∀ regs, saNmAfter dir reg c regs = regs := fun regs =>
      saNmAfter_rejected (.inr (by simpa using hin))
    simp only [hkeep]

end Calls

/-- The four calls for packets that no SA matches. -/
theorem saNm_exact (dir : MsecDir) (reg : SaNmReg) : SaNmExact dir reg where
  only _ _ hi _ := saNm_only hi
  all _ _ := saNm_all
  comm _ _ _ _ hi hj hne _ := saNm_comm hi hj hne
  rejects_iff _ := rejects_saNm_iff

/-- A call that names no group is rejected, although none of its fields is out of range. -/
theorem saNm_no_group : ¬∀ (dir : MsecDir) (reg : SaNmReg) (c : SaNonmatchFca),
    SaNmRejects dir reg c ↔ SaNmOutOfRange dir c := by
  intro h
  have hrejects : SaNmRejects .ingress .ncp ⟨.other 5, .bypass, .common, 0, .dropAsCrc⟩ := (rejects_saNm_iff).mpr (.inl rfl)
  obtain ⟨groups, hgroups, -⟩ := (h .ingress .ncp _).mp hrejects
  cases hgroups

end Gpy2xx
