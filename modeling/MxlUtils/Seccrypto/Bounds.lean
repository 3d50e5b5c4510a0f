import MxlUtils.Seccrypto.Main

/- The accesses of a round to its arrays. The words go into a table of ten, an object name
   into a buffer of 30 bytes with a NUL at its length, and a file or a string into memory
   of its size with a NUL behind it. So a line with eleven words, a name of 30 characters
   and any file or string that is taken go beyond their array; file names stay within it,
   since a line has at most 199 characters. -/
namespace Seccrypto
open CString Getopt

variable {h : Header} {e : Env} {c : Client} {line : Line} {opts : List Scanned}

def Within (log : List Access) : Prop := ∀ a ∈ log, a.InBounds

@[simp] theorem within_append {log log' : List Access} : Within (log ++ log') ↔ Within log ∧ Within log' := by
  simp [Within, or_imp, forall_and]

/-- The options that a loop gets to, each with the state before it. -/
def reached {σ : Type} (step : σ → Char → Word → Outcome σ) : σ → List Scanned → List (σ × Char × Word)
  | s, some (letter, arg) :: opts =>
    (s, letter, arg) :: if (step s letter arg).ok then reached step (step s letter arg).state opts else []
  | _, _ => []

end Seccrypto
