import MxlUtils.Lib.Loop
import Mathlib.Data.List.Nodup
import Mathlib.Logic.Function.Basic

/- Singly linked lists. `next` is the link of every node, NULL being `none`, and a
   segment is the list of the nodes passed on the way from one pointer to another.
   A chain is a segment that ends in NULL. A chain passes no node twice, so a write
   to the link of one node or of none is a change at one place of the list. -/
namespace Chain

variable {A : Type} {next next' : A → Option A} {p q r : Option A} {a b : A} {l l' l₁ l₂ : List A}

/-- From `p` the links pass the nodes of `l` and arrive at `q`. -/
def Segment (next : A → Option A) : Option A → List A → Option A → Prop
  | p, [], q => p = q
  | p, a :: l, q => p = some a ∧ Segment next (next a) l q

/-- The NULL-terminated list of `l` begins at `p`. -/
abbrev IsChain (next : A → Option A) (p : Option A) (l : List A) : Prop := Segment next p l none

@[simp] theorem segment_nil : Segment next p [] q ↔ p = q := Iff.rfl

@[simp] theorem segment_cons :
    Segment next p (a :: l) q ↔ p = some a ∧ Segment next (next a) l q := Iff.rfl

theorem segment_append :
    Segment next p (l₁ ++ l₂) q ↔ ∃ r, Segment next p l₁ r ∧ Segment next r l₂ q := by
  induction l₁ generalizing p with
  | nil => simp
  | cons a l₁ ih => simp [ih, and_assoc]

/-- Links of other nodes do not matter. -/
theorem segment_congr (h : ∀ a ∈ l, next a = next' a) :
    Segment next p l q ↔ Segment next' p l q := by
  induction l generalizing p with
  | nil => rfl
  | cons a l ih =>
    rw [segment_cons, segment_cons, h a List.mem_cons_self,
      ih fun b hb => h b (List.mem_cons_of_mem _ hb)]

/-- A pointer begins one list. -/
theorem isChain_unique (h : IsChain next p l) (h' : IsChain next p l') : l = l' := by
  induction l generalizing p l' with
  | nil =>
    cases l' with
    | nil => rfl
    | cons b l' => simp [show p = none from h] at h'
  | cons a l ih =>
    obtain ⟨rfl, hl⟩ := h
    cases l' with
    | nil => simp at h'
    | cons b l' =>
      obtain ⟨hab, hl'⟩ := h'
      obtain rfl := Option.some.inj hab
      rw [ih hl hl']

/-- A list that passed a node twice would not end. -/
theorem nodup_of_isChain (h : IsChain next p l) : l.Nodup := by
  induction l generalizing p with
  | nil => exact List.nodup_nil
  | cons a l ih =>
    have hl : IsChain next (next a) l := h.2
    refine List.nodup_cons.mpr ⟨fun ha => ?_, ih hl⟩
    obtain ⟨l₁, l₂, rfl⟩ := List.append_of_mem ha
    obtain ⟨r, -, hr⟩ := (segment_append).mp hl
    -- both tails begin at the link of `a`
    have hlen := congrArg List.length (isChain_unique hl hr.2)
    simp at hlen
    omega

variable [DecidableEq A]

/-- A write to the link of a node outside. -/
theorem segment_update (h : b ∉ l) (v : Option A) :
    Segment (Function.update next b v) p l q ↔ Segment next p l q :=
  by
  apply segment_congr
  intro a ha
  have hab : a ≠ b := by
    rintro rfl
    exact h ha
  rw [Function.update_of_ne hab]

/-- A new node in front. -/
theorem isChain_push (h : IsChain next p l) (ha : a ∉ l) :
    IsChain (Function.update next a p) (some a) (a :: l) := by
  refine ⟨rfl, ?_⟩
  rw [Function.update_self]
  exact (segment_update ha p).mpr h

/-- The node after `b` taken out. -/
theorem isChain_unlink (h : IsChain next p (l₁ ++ b :: a :: l₂)) :
    IsChain (Function.update next b (next a)) p (l₁ ++ b :: l₂) := by
  have hnodup := nodup_of_isChain h
  obtain ⟨r, h₁, rfl, -, h₂⟩ := (segment_append).mp h
  have hb₁ : b ∉ l₁ := fun hb => (List.nodup_append.mp hnodup).2.2 b hb b List.mem_cons_self rfl
  have hb₂ : b ∉ l₂ := by
    have := (List.nodup_cons.mp (List.nodup_append.mp hnodup).2.1).1
    simp at this
    exact this.2
  refine (segment_append).mpr ⟨some b, (segment_update hb₁ _).mpr h₁, rfl, ?_⟩
  rw [Function.update_self]
  exact (segment_update hb₂ _).mpr h₂

end Chain
