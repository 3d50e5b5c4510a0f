import Mathlib.Data.List.Basic

/- Files by their names, the first of a name being the one that counts. -/
namespace Directory

variable {N C : Type} [DecidableEq N] [BEq N] [LawfulBEq N]

/-- The same files. -/
def Same (fs gs : List (N × C)) : Prop := ∀ n, fs.lookup n = gs.lookup n

/-- The files whose names have a property. -/
def only (p : N → Bool) (fs : List (N × C)) : List (N × C) := fs.filter fun f => p f.1

end Directory
