import Mathlib.Data.List.Basic

/- getopt_long with permutation: the options of an argument vector in their order.
   Words that are no options are skipped, `--` ends the options, and a word with one
   dash is a cluster of letters in which the first that takes an argument has the rest
   of the word, or the next word. `none` stands for an option that is refused (unknown,
   ambiguous, with an argument it must not have, or without one it needs).

   The place in a cluster is kept between calls. A program that scans a new vector
   sets optind to 1; `kept` is what the library goes on with before the words, if it
   still has a part of a cluster from the vector before. -/
namespace Getopt

structure LongOption where
  name : String
  hasArg : Bool
  val : Char

structure Options where
  optstring : String
  longopts : List LongOption

/-- One answer of getopt_long: an option and its argument, or `?`. -/
abbrev Scanned := Option (Char × List Char)

variable (o : Options)

/-- Whether a letter is an option, and whether it takes an argument. -/
def shortOption : List Char → Char → Option Bool
  | [], _ => none
  | d :: ds, c => if d = c ∧ c ≠ ':' then some (ds.head? = some ':') else shortOption ds c

/-- The option of that name, or the only one whose name begins with it. -/
def findLong (longopts : List LongOption) (name : List Char) : Option LongOption :=
  match longopts.find? (·.name.toList = name) with
  | some l => some l
  | none =>
    match longopts.filter (name.isPrefixOf ·.name.toList) with
    | [l] => some l
    | _ => none

/-- A word after its two dashes, with the option that still needs an argument. -/
def long (text : List Char) : List Scanned × Option Char :=
  let name := text.takeWhile (· ≠ '=')
  match findLong o.longopts name, text.drop name.length with
  | none, _ => ([none], none)
  | some l, [] => if l.hasArg then ([], some l.val) else ([some (l.val, [])], none)
  | some l, _ :: value => if l.hasArg then ([some (l.val, value)], none) else ([none], none)

/-- A word after its dash. -/
def cluster : List Char → List Scanned × Option Char
  | [] => ([], none)
  | c :: cs =>
    match shortOption o.optstring.toList c with
    | none => (none :: (cluster cs).1, (cluster cs).2)
    | some false => (some (c, []) :: (cluster cs).1, (cluster cs).2)
    | some true => if cs = [] then ([], some c) else ([some (c, cs)], none)

/-- The options of the words, where an option before them may need the first as its argument. -/
def scan : Option Char → List (List Char) → List Scanned
  | none, [] => []
  | some _, [] => [none]
  | some c, w :: ws => some (c, w) :: scan none ws
  | none, w :: ws =>
    match w with
    | ['-', '-'] => []
    | '-' :: '-' :: text => (long o text).1 ++ scan (long o text).2 ws
    | '-' :: c :: cs => (cluster o (c :: cs)).1 ++ scan (cluster o (c :: cs)).2 ws
    | _ => scan none ws

/-- The options of a new vector (without the name of the program). -/
def options (kept : List Char) (words : List (List Char)) : List Scanned :=
  if kept = [] then scan o none words else (cluster o kept).1 ++ scan o (cluster o kept).2 words.tail

/-! ## Words in their places

With a dash before the letters the words that are no options are answered where they stand, and
with a colon behind it a missing argument has an answer of its own. -/

inductive Answer where
  | option (val : Char) (arg : List Char)
  | word (w : List Char)
  | missing
  | refused
deriving DecidableEq

def Answer.ofScanned : Scanned → Answer
  | some (val, arg) => .option val arg
  | none => .refused

/-- The answers to the words, where an option before them may need the first as its argument. -/
def inOrder : Option Char → List (List Char) → List Answer
  | none, [] => []
  | some _, [] => [.missing]
  | some c, w :: ws => .option c w :: inOrder none ws
  | none, w :: ws =>
    match w with
    | ['-', '-'] => []
    | '-' :: '-' :: text => (long o text).1.map .ofScanned ++ inOrder (long o text).2 ws
    | '-' :: c :: cs => (cluster o (c :: cs)).1.map .ofScanned ++ inOrder (cluster o (c :: cs)).2 ws
    | _ => .word w :: inOrder none ws

/-! ## Arguments -/

variable {o : Options} {P : List Char → Prop}

section Plain
variable {Q : Char → Prop} (hshort : ∀ c b, shortOption o.optstring.toList c = some b → b = false ∧ Q c)
  (hlong : ∀ l ∈ o.longopts, l.hasArg = false ∧ Q l.val)

include hshort in
theorem cluster_plain (text : List Char) :
    (cluster o text).2 = none ∧ ∀ c arg, some (c, arg) ∈ (cluster o text).1 → Q c := by
  induction text with
  | nil => simp [cluster]
  | cons d ds ih =>
    rw [cluster]
    cases h : shortOption o.optstring.toList d with
    | none =>
      refine ⟨ih.1, fun c arg hmem => ?_⟩
      simp only [List.mem_cons, reduceCtorEq, false_or] at hmem
      exact ih.2 c arg hmem
    | some b =>
      obtain ⟨rfl, hd⟩ := hshort d b h
      refine ⟨ih.1, fun c arg hmem => ?_⟩
      rcases List.mem_cons.mp hmem with heq | hmem
      · cases heq
        exact hd
      · exact ih.2 c arg hmem

theorem findLong_mem {longopts : List LongOption} {name : List Char} {l : LongOption}
    (h : findLong longopts name = some l) : l ∈ longopts := by
  rw [findLong] at h
  split at h
  · rename_i l' hfind
    cases h
    exact List.mem_of_find?_eq_some hfind
  · split at h
    · rename_i l' hone
      cases h
      have hmem : l ∈ longopts.filter (name.isPrefixOf ·.name.toList) := by
        rw [hone]
        exact List.mem_cons_self
      exact (List.mem_filter.mp hmem).1
    · cases h

include hlong in
theorem long_plain (text : List Char) :
    (long o text).2 = none ∧ ∀ c arg, some (c, arg) ∈ (long o text).1 → Q c := by
  rw [long]
  split
  · simp
  · rename_i l hfind _
    obtain ⟨harg, hl⟩ := hlong _ (findLong_mem hfind)
    simp [harg, hl]
  · rename_i l hfind _
    obtain ⟨harg, -⟩ := hlong _ (findLong_mem hfind)
    simp [harg]

include hshort hlong in
/-- Where no option takes an argument none is missing. -/
theorem inOrder_plain (words : List (List Char)) : ∀ a ∈ inOrder o none words,
    a ≠ .missing ∧ ∀ c arg, a = .option c arg → Q c := by
  have hmap : ∀ l : List Scanned, (∀ c arg, some (c, arg) ∈ l → Q c) →
      ∀ a ∈ l.map Answer.ofScanned, a ≠ .missing ∧ ∀ c arg, a = .option c arg → Q c := by
    intro l hl a ha
    obtain ⟨x, hx, rfl⟩ := List.mem_map.mp ha
    cases x with
    | none => simp [Answer.ofScanned]
    | some ca =>
      refine ⟨by simp [Answer.ofScanned], fun c arg heq => ?_⟩
      cases heq
      exact hl _ _ hx
  induction words with
  | nil => simp [inOrder]
  | cons w ws ih =>
    unfold inOrder
    split
    · simp
    · rename_i text _
      intro a ha
      rw [(long_plain hlong text).1] at ha
      rcases List.mem_append.mp ha with ha | ha
      · exact hmap _ (long_plain hlong text).2 a ha
      · exact ih a ha
    · rename_i c cs _ _
      intro a ha
      rw [(cluster_plain hshort (c :: cs)).1] at ha
      rcases List.mem_append.mp ha with ha | ha
      · exact hmap _ (cluster_plain hshort (c :: cs)).2 a ha
      · exact ih a ha
    · intro a ha
      rcases List.mem_cons.mp ha with rfl | ha
      · simp
      · exact ih a ha

end Plain

end Getopt
