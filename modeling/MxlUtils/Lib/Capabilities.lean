import MxlUtils.Lib.Bits

/- The capability sets of a process, as in capabilities(7). A set is a word of 64 bits.
   Each call is what the kernel makes of it for a process with these sets, or nothing if
   the process may not make it; a call that is refused for another reason leaves the
   process as it is. -/
namespace Capabilities

abbrev CapSet := BitVec 64

/-- Numbers of capabilities. -/
def capDacOverride : Nat := 1
def capSetgid : Nat := 6
def capSetuid : Nat := 7
def capSetpcap : Nat := 8

def CapSet.within (a b : CapSet) : Bool := a &&& b = a

def CapSet.add (a : CapSet) (i : Nat) : CapSet := a ||| 1#64 <<< i

def CapSet.remove (a : CapSet) (i : Nat) : CapSet := a &&& ~~~(1#64 <<< i)

theorem getLsbD_add {a : CapSet} {i k : Nat} (hi : i < 64) : (a.add i).getLsbD k = (a.getLsbD k || decide (k = i)) := by
  by_cases hk : k = i
  · subst hk
    simp [CapSet.add, Bits.getLsbD_setBit hi]
  · simp [CapSet.add, Bits.getLsbD_setBit_of_ne hk, hk]

theorem getLsbD_remove {a : CapSet} {i k : Nat} : (a.remove i).getLsbD k = (a.getLsbD k && decide (k ≠ i)) := by
  by_cases hk : k = i
  · subst hk
    simp [CapSet.remove, Bits.getLsbD_clearBit]
  · simp [CapSet.remove, Bits.getLsbD_clearBit_of_ne hk, hk]

theorem within_iff {a b : CapSet} : a.within b = true ↔ ∀ k, a.getLsbD k = true → b.getLsbD k = true := by
  rw [CapSet.within, decide_eq_true_eq]
  constructor
  · intro hab k hk
    rw [← hab, BitVec.getLsbD_and, Bool.and_eq_true] at hk
    exact hk.2
  · intro hsub
    apply BitVec.eq_of_getLsbD_eq
    intro k _
    rw [BitVec.getLsbD_and]
    cases hk : a.getLsbD k with
    | false => rfl
    | true => exact hsub k hk

/-- `root` says that all user numbers of the process are 0. -/
structure Process where
  root : Bool
  keepCaps : Bool
  noNewPrivs : Bool
  effective : CapSet
  permitted : CapSet
  inheritable : CapSet
  bounding : CapSet
  ambient : CapSet
deriving DecidableEq

namespace Process

/-- PR_CAPBSET_DROP -/
def dropBounding (p : Process) (i : Nat) : Option Process :=
  if p.effective.getLsbD capSetpcap then some { p with bounding := p.bounding.remove i } else none

/-- PR_CAP_AMBIENT_RAISE -/
def raiseAmbient (p : Process) (i : Nat) : Option Process :=
  if p.permitted.getLsbD i && p.inheritable.getLsbD i then some { p with ambient := p.ambient.add i } else none

/-- Groups may be changed with CAP_SETGID; the sets stay. -/
def setGroups (p : Process) : Option Process := if p.effective.getLsbD capSetgid then some p else none

/-- setuid of a process whose user numbers are all 0. Leaving 0 clears the effective and the ambient
set, and the permitted set unless it is kept. -/
def setuid (p : Process) (uid : Nat) : Option Process :=
  if p.effective.getLsbD capSetuid = false then none
  else if uid = 0 then some p
  else some { p with
    root := false
    effective := 0#64
    permitted := if p.keepCaps then p.permitted else 0#64
    ambient := 0#64 }

def capset (p : Process) (effective permitted inheritable : CapSet) : Option Process :=
  if (p.effective.getLsbD capSetpcap || inheritable.within (p.inheritable ||| p.permitted)) &&
      inheritable.within (p.inheritable ||| p.bounding) && permitted.within p.permitted && effective.within permitted then
    some { p with
      effective := effective
      permitted := permitted
      inheritable := inheritable
      ambient := p.ambient &&& permitted &&& inheritable }
  else none

/-- A call that may be refused: whether it succeeded, and the process after it. -/
def attempt (p : Process) (refused : Bool) (called : Option Process) : Bool × Process :=
  match called with
  | none => (false, p)
  | some p' => if refused then (false, p) else (true, p')

theorem attempt_drop (p : Process) (refused : Bool) (i : Nat) :
    (p.attempt refused (p.dropBounding i)).2 = { p with
      bounding := if p.effective.getLsbD capSetpcap && !refused then p.bounding.remove i else p.bounding } := by
  unfold attempt dropBounding
  cases p.effective.getLsbD capSetpcap with
  | false => rfl
  | true => cases refused <;> rfl

theorem attempt_raise (p : Process) (refused : Bool) (i : Nat) :
    (p.attempt refused (p.raiseAmbient i)).2 = { p with
      ambient := if p.permitted.getLsbD i && p.inheritable.getLsbD i && !refused then p.ambient.add i else p.ambient } := by
  unfold attempt raiseAmbient
  cases p.permitted.getLsbD i && p.inheritable.getLsbD i with
  | false => rfl
  | true => cases refused <;> rfl

/-! ## Passes over the capabilities -/

def withSets (p : Process) (bounding ambient : CapSet) : Process := { p with bounding := bounding, ambient := ambient }

/-- One capability, dropped from the bounding set or raised in the ambient set. -/
def change (p : Process) (i : Nat) (drop raise : Bool) : Process :=
  p.withSets (if drop then p.bounding.remove i else p.bounding) (if raise then p.ambient.add i else p.ambient)

/-- A pass drops and raises what its steps do, where these depend on nothing that a pass changes. -/
theorem foldl_change {step : Process → Nat → Process} {drop raise : Process → Nat → Bool}
    (hstep : ∀ p i, step p i = p.change i (drop p i) (raise p i))
    (hdrop : ∀ p b a i, drop (p.withSets b a) i = drop p i) (hraise : ∀ p b a i, raise (p.withSets b a) i = raise p i)
    {is : List Nat} (his : ∀ i ∈ is, i < 64) (p : Process) :
    ∃ b a, is.foldl step p = p.withSets b a ∧
      (∀ k, b.getLsbD k = (p.bounding.getLsbD k && !(decide (k ∈ is) && drop p k))) ∧
      ∀ k, a.getLsbD k = (p.ambient.getLsbD k || (decide (k ∈ is) && raise p k)) := by
  induction is generalizing p with
  | nil => exact ⟨p.bounding, p.ambient, rfl, by simp, by simp⟩
  | cons i is ih =>
    have hi : i < 64 := his i (List.mem_cons_self ..)
    obtain ⟨b, a, hrun, hb, ha⟩ := ih (fun j hj => his j (List.mem_cons_of_mem _ hj)) (step p i)
    refine ⟨b, a, ?_, fun k => ?_, fun k => ?_⟩
    · rw [List.foldl_cons, hrun, hstep]
      rfl
    · have hone : (step p i).bounding.getLsbD k = (p.bounding.getLsbD k && !(decide (k = i) && drop p i)) := by
        rw [hstep]
        show (if drop p i = true then p.bounding.remove i else p.bounding).getLsbD k = _
        cases drop p i with
        | false => simp
        | true => simp [getLsbD_remove]
      rw [hb k, hone, hstep, change, hdrop]
      by_cases hk : k = i
      · subst hk
        simp
        cases drop p k <;> simp
      · simp [hk]
    · have hone : (step p i).ambient.getLsbD k = (p.ambient.getLsbD k || (decide (k = i) && raise p i)) := by
        rw [hstep]
        show (if raise p i = true then p.ambient.add i else p.ambient).getLsbD k = _
        cases raise p i with
        | false => simp
        | true => simp [getLsbD_add hi]
      rw [ha k, hone, hstep, change, hraise]
      by_cases hk : k = i
      · subst hk
        simp
        cases raise p k <;> simp
      · simp [hk]

end Process

end Capabilities
