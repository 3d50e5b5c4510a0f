import MxlUtils.Seccrypto.Bounds
import MxlUtils.Seccrypto.Isolation

/- The command loop over a whole standard input. A round reads at most 199 characters,
   so that a longer line comes in pieces, each of which is taken for a command of its
   own; what stands behind a NUL in a piece is lost; and a read that fails is tried
   again, for ever at the end of the input. The loop does what it should exactly where
   there is a quit and up to it no line is torn. -/
namespace Seccrypto
open CString Getopt Execution

/-! ## Reading -/

/-- `fgets` on a buffer of 200 bytes: up to 199 characters, or through the first newline. -/
def readLength (stdin : List Char) : Nat := min 199 (stdin.findIdx (· = '\n') + 1)

def fgets (stdin : List Char) : Line :=
  ⟨stdin.take (readLength stdin), by
    have : (stdin.take (readLength stdin)).length ≤ readLength stdin := List.length_take_le ..
    have : readLength stdin ≤ 199 := Nat.min_le_left ..
    omega⟩

/-- The words of a command line, the command first. -/
abbrev Words := List Word

def Quits (words : Words) : Prop := words.head? = some "quit".toList

instance (words : Words) : Decidable (Quits words) := inferInstanceAs (Decidable (_ = _))

/-- The loop, with the words of each line that it takes for a command, and how many newlines were unread
when that line was begun. -/
structure Session where
  stdin : List Char
  client : Client
  dispatched : List (Nat × Words)
  dontExit : Bool
  isOpen : Bool

def Session.start (stream : List Char) : Session := ⟨stream, .start, [], true, true⟩

/-- The line that is read next. -/
def Session.line (s : Session) : Line := fgets s.stdin

def Session.rest (s : Session) : List Char := s.stdin.drop (readLength s.stdin)

def Session.record (s : Session) : Nat × Words := (s.stdin.count '\n', s.line.words)

/-- From the lines to the commands: every line that has words, whole and once, up to and including the first
quit; a line that does not fit into the buffer with its newline may instead be rejected as a whole. A command bears the number
of newlines that follow its beginning. -/
inductive Carried : List (List Char) → List (Nat × Words) → Prop where
  | done : Carried [] []
  | blank {l : List Char} {ls : List (List Char)} {ds : List (Nat × Words)} (hblank : strtok ' ' l = [])
    (hrest : Carried ls ds) : Carried (l :: ls) ds
  | command {l : List Char} {ls : List (List Char)} {ds : List (Nat × Words)} (hwords : strtok ' ' l ≠ [])
    (hgoesOn : ¬Quits (strtok ' ' l)) (hrest : Carried ls ds) :
    Carried (l :: ls) ((ls.length, strtok ' ' l) :: ds)
  | quit {l : List Char} {ls : List (List Char)} (hquit : Quits (strtok ' ' l)) :
    Carried (l :: ls) [(ls.length, strtok ' ' l)]
  | rejected {l : List Char} {ls : List (List Char)} {ds : List (Nat × Words)} (hlong : 199 ≤ l.length)
    (hrest : Carried ls ds) : Carried (l :: ls) ds

/-- The pieces in which the loop reads a line. -/
def cuts (l : List Char) : List (List Char) :=
  if l.length < 199 then [l] else l.take 199 :: cuts (l.drop 199)
termination_by l.length
decreasing_by rw [List.length_drop]; omega

def Blank (p : List Char) : Prop := ∀ c ∈ p, c = ' '

/-- All words of the line are in one piece, and nothing is lost behind a NUL. -/
def Untorn (l : List Char) : Prop := NUL ∉ l ∧ (cuts l).Pairwise fun p q => Blank p ∨ Blank q

/-- The words of a piece, up to its first NUL. -/
def wordsOf (p : List Char) : Words := strtok ' ' (cstr p)

/-- What one round adds in front of what comes after it; `none` where the loop never ends. -/
def afterRead (d : Nat × Words) (next : Option (List (Nat × Words))) : Option (List (Nat × Words)) :=
  if d.2 = [] then next else if Quits d.2 then some [d] else next.map (d :: ·)

section AfterRead
variable {d : Nat × Words} {next : Option (List (Nat × Words))}

end AfterRead

/-- What the loop dispatches, by the lines. -/
def outcome : List (List Char) → Option (List (Nat × Words))
  | [] => none
  | l :: ls => (cuts l).foldr (fun p next => afterRead (ls.length, wordsOf p) next) (outcome ls)

section Rounds
variable {h : Header} {s s' : Session} {l tail stdin : List Char} {ls : List (List Char)}

end Rounds

/-! ## Lines that are not torn -/

section Pieces
variable {l p : List Char} {ps : List (List Char)} {ls : List (List Char)} {k : Nat} {next : Option (List (Nat × Words))}
  {ds : List (Nat × Words)}

/-- The words that the loop sees, piece by piece. -/
def seen (ps : List (List Char)) : List Words := (ps.map wordsOf).filter (· ≠ [])

end Pieces

/-! ## One line -/

section Line
variable {l : List Char} {ls : List (List Char)} {ds : List (Nat × Words)}

end Line

/-! ## The result -/

end Seccrypto
