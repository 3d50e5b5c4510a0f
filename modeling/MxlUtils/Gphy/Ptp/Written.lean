import MxlUtils.Gphy.Ptp.Frequency

/- Writes one after the other. A function that writes a list of registers stops at the
   first write that fails; what it does after the last one is a run of its own. The
   writes that are tried are counted, whatever they are answered. -/
namespace Gpy2xx
open Effect Effect.Fallible

variable {α : Type} {t : RegTrace} {r : Except Errno α} {l : List (Nat × BitVec 16)} {rest : Api α}

/-- The writes of a list, and what comes behind them. -/
def writeAll (rest : Api α) : List (Nat × BitVec 16) → Api α
  | [] => rest
  | (addr, v) :: l => do
    smdioWriteAt addr v
    writeAll rest l

def smdioOk (l : List (Nat × BitVec 16)) : RegTrace := l.map fun w => ⟨.smdioWrite (smdioReg w.1) w.2, .ok ()⟩

/-- The writes to the slave MDIO that a run has tried. -/
def smdioTried (t : RegTrace) : List (Nat × BitVec 16) :=
  t.filterMap fun e => match e.op with
    | .smdioWrite reg v => some (reg, v)
    | _ => none

def registers (l : List (Nat × BitVec 16)) : List (Nat × BitVec 16) := l.map fun w => (smdioReg w.1, w.2)

theorem smdioTried_append (t t' : RegTrace) : smdioTried (t ++ t') = smdioTried t ++ smdioTried t' := List.filterMap_append

theorem smdioTried_reads (h : ∀ e ∈ t, isSmdioWrite e.op = false) : smdioTried t = [] := by
  refine List.filterMap_eq_nil_iff.mpr fun e he => ?_
  have hread := h e he
  obtain ⟨op, ret⟩ := e
  cases op <;> first | rfl | cases hread

theorem smdioTried_smdioOk (l : List (Nat × BitVec 16)) : smdioTried (smdioOk l) = registers l := by
  induction l with
  | nil => rfl
  | cons w l ih => exact congrArg (_ :: ·) ih

theorem smdioWritten_smdioOk (l : List (Nat × BitVec 16)) : smdioWritten (smdioOk l) = registers l := by
  induction l with
  | nil => rfl
  | cons w l ih => exact congrArg (_ :: ·) ih

/-- A run stops at a write that fails, or gets behind the last one. -/
theorem runs_writeAll : Runs (writeAll rest l) t r ↔
    (∃ before w after e, l = before ++ w :: after ∧
      t = smdioOk before ++ [⟨.smdioWrite (smdioReg w.1) w.2, .error e⟩] ∧ r = .error e) ∨
    ∃ t', t = smdioOk l ++ t' ∧ Runs rest t' r := by
  induction l generalizing t with
  | nil =>
    constructor
    · exact fun h => .inr ⟨t, rfl, h⟩
    · rintro (⟨before, w, after, e, hnil, -⟩ | ⟨t', rfl, h⟩)
      · simp at hnil
      · exact h
  | cons w l ih =>
    constructor
    · intro h
      rcases (runs_smdioWrite_bind).mp h with ⟨e, rfl, rfl⟩ | ⟨_, t', rfl, hrest⟩
      · exact .inl ⟨[], w, l, e, rfl, rfl, rfl⟩
      · rcases ih.mp hrest with ⟨before, w', after, e, rfl, rfl, rfl⟩ | ⟨t'', rfl, hbehind⟩
        · exact .inl ⟨w :: before, w', after, e, rfl, rfl, rfl⟩
        · exact .inr ⟨t'', rfl, hbehind⟩
    · rintro (⟨before, w', after, e, hl, rfl, rfl⟩ | ⟨t', rfl, hrest⟩)
      · refine (runs_smdioWrite_bind).mpr ?_
        cases before with
        | nil =>
          obtain ⟨rfl, rfl⟩ := List.cons.inj hl
          exact .inl ⟨e, rfl, rfl⟩
        | cons b before =>
          obtain ⟨rfl, rfl⟩ := List.cons.inj hl
          exact .inr ⟨(), _, rfl, ih.mpr (.inl ⟨before, w', after, e, rfl, rfl, rfl⟩)⟩
      · exact (runs_smdioWrite_bind).mpr (.inr ⟨(), smdioOk l ++ t', rfl, ih.mpr (.inr ⟨t', rfl, hrest⟩)⟩)

/-- What a run that fails at one of the writes has tried. -/
theorem smdioTried_failed (before : List (Nat × BitVec 16)) (w : Nat × BitVec 16) (e : Errno) :
    smdioTried (smdioOk before ++ [⟨.smdioWrite (smdioReg w.1) w.2, .error e⟩]) = registers (before ++ [w]) := by
  rw [smdioTried_append, smdioTried_smdioOk, registers, registers, List.map_append]
  rfl

end Gpy2xx
