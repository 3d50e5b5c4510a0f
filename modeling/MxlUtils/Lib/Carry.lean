import Mathlib.Data.List.Basic

/- Loops with variables that outlive a round. `last` is what a variable holds after a list of rounds
   of which only some set it; `each` collects what every round yields with it; `calls` is a function
   called again and again with what the call before has kept. -/
namespace Carry

variable {α β γ ι : Type}

section Variable
variable (set : α → Option β)

def last : β → List α → β
  | v, [] => v
  | v, x :: xs => last ((set x).getD v) xs

def each (out : α → β → γ) : β → List α → List γ
  | _, [] => []
  | v, x :: xs => out x ((set x).getD v) :: each out ((set x).getD v) xs

theorem last_append (v : β) (xs ys : List α) : last set v (xs ++ ys) = last set (last set v xs) ys := by
  induction xs generalizing v with
  | nil => rfl
  | cons x xs ih => exact ih _

/-- What a round yields depends on its own element and on what the rounds before have left. -/
theorem getElem?_each (out : α → β → γ) (v : β) (before after : List α) (x : α) :
    (each set out v (before ++ x :: after))[before.length]? = some (out x ((set x).getD (last set v before))) := by
  induction before generalizing v with
  | nil => rfl
  | cons y before ih => exact ih _

end Variable

section Calls
variable (call : ι → γ → β × γ)

/-- What the calls yield, from what was kept before. -/
def calls : γ → List ι → List β
  | _, [] => []
  | c, i :: is => (call i c).1 :: calls (call i c).2 is

/-- Calls that all yield the same, because what they keep stays what it is. -/
theorem calls_eq {Kept : γ → Prop} {r : β} (h : ∀ i c, Kept c → (call i c).1 = r ∧ Kept (call i c).2) {c : γ}
    (hc : Kept c) (is : List ι) : ∀ x ∈ calls call c is, x = r := by
  induction is generalizing c with
  | nil => simp [calls]
  | cons i is ih =>
    obtain ⟨hr, hkept⟩ := h i c hc
    intro x hx
    rcases List.mem_cons.mp hx with rfl | hx
    · exact hr
    · exact ih hkept x hx

end Calls

end Carry
