import Mathlib.Algebra.Ring.Int.Defs
import Mathlib.Algebra.Ring.Nat
import Mathlib.Data.List.Basic

/- Strings of C in buffers of a fixed size. A string ends at the first NUL; `strncpy`
   fills the rest of its count with NUL and leaves what lies beyond alone, so a name
   longer than the count reads on into what the buffer held before. -/
namespace CString

abbrev NUL : Char := Char.ofNat 0

/-- What holds of the characters of a text is decided by the text, not by going through all
    characters there are. -/
instance (priority := high) decidableForallMem (s : List Char) (p : Char → Prop) [DecidablePred p] :
    Decidable (∀ c ∈ s, p c) :=
  List.decidableBAll p s

/-- `strncpy(buf, src, n)` -/
def strncpy (buf src : List Char) (n : Nat) : List Char :=
  buf.mapIdx fun i c => if i < n then src.getD i NUL else c

/-- The string that a buffer holds. -/
def cstr (buf : List Char) : List Char := buf.takeWhile (· ≠ NUL)

/-- `strncpy(buf, src, n); buf[strlen(src)] = '\0'` -/
def copyName (buf src : List Char) (n : Nat) : List Char := (strncpy buf src n).set src.length NUL

variable {buf src : List Char} {n : Nat}

@[simp] theorem length_strncpy : (strncpy buf src n).length = buf.length := by simp [strncpy]

@[simp] theorem length_copyName : (copyName buf src n).length = buf.length := by simp [copyName]

theorem cstr_append {s t : List Char} (hs : ∀ c ∈ s, c ≠ NUL) : cstr (s ++ t) = s ++ cstr t :=
  List.takeWhile_append_of_pos (by simpa using hs)

/-- A name that fits in the count is what the buffer then holds. -/
theorem cstr_copyName (hsrc : ∀ c ∈ src, c ≠ NUL) (hn : src.length ≤ n) (hbuf : n < buf.length) :
    cstr (copyName buf src n) = src := by
  have hfirst : (copyName buf src n).take src.length = src := by
    apply List.ext_getElem
    · simp; omega
    · intro i hi hi'
      have hlt : i < n := by omega
      simp [copyName, strncpy, hlt, hi', List.getElem_set_ne (show src.length ≠ i by omega)]
  have hlast : cstr ((copyName buf src n).drop src.length) = [] := by
    have hlength : src.length < (copyName buf src n).length := by simp; omega
    rw [List.drop_eq_getElem_cons hlength, cstr, List.takeWhile_cons]
    simp [copyName]
  rw [← List.take_append_drop src.length (copyName buf src n), hfirst, cstr_append hsrc, hlast, List.append_nil]

/-- The words that `strtok` finds in a text, one call after the other. -/
def strtok (sep : Char) (text : List Char) : List (List Char) := (text.splitOn sep).filter (· ≠ [])

theorem infix_of_mem_splitOn {sep : Char} {text w : List Char} (hw : w ∈ text.splitOn sep) : w <:+: text := by
  have hall : (∀ p ∈ (text.splitOn sep).head?, p <+: text) ∧ ∀ p ∈ (text.splitOn sep).tail, p <:+: text := by
    clear hw
    induction text with
    | nil => simp [List.splitOn_nil]
    | cons c text ih =>
      obtain ⟨hhead, htail⟩ := ih
      have hmem : ∀ p ∈ text.splitOn sep, p <:+: text := by
        intro p hp
        cases hs : text.splitOn sep with
        | nil => simp [hs] at hp
        | cons q qs =>
          rw [hs] at hp hhead htail
          rcases List.mem_cons.mp hp with rfl | hp
          · exact (hhead p rfl).isInfix
          · exact htail p hp
      rw [List.splitOn_cons_eq_if_modifyHead]
      split
      · refine ⟨by simp, fun p hp => ?_⟩
        exact (hmem p hp).trans (List.suffix_cons c text).isInfix
      · cases hs : text.splitOn sep with
        | nil => simp
        | cons q qs =>
          rw [hs] at hhead htail
          refine ⟨?_, fun p hp => (htail p hp).trans (List.suffix_cons c text).isInfix⟩
          intro p hp
          cases hp
          exact (List.prefix_cons_inj c).mpr (hhead q rfl)
  cases hs : text.splitOn sep with
  | nil => simp [hs] at hw
  | cons q qs =>
    rw [hs] at hw hall
    rcases List.mem_cons.mp hw with rfl | hw
    · exact (hall.1 w rfl).isInfix
    · exact hall.2 w hw

section Words
variable {sep : Char} {a b text : List Char}

@[simp] theorem strtok_nil : strtok sep [] = [] := by simp [strtok, List.splitOn_nil]

/-- The first element with `P` comes before any without `Q`, at the front of a list or behind it. -/
theorem exists_first_cons {α : Type} {P Q : α → Prop} {x : α} {xs : List α} :
    (∃ before a after, x :: xs = before ++ a :: after ∧ P a ∧ ∀ b ∈ before, Q b) ↔
      P x ∨ Q x ∧ ∃ before a after, xs = before ++ a :: after ∧ P a ∧ ∀ b ∈ before, Q b := by
  constructor
  · rintro ⟨before, a, after, hsplit, ha, hbefore⟩
    cases before with
    | nil =>
      obtain ⟨rfl, -⟩ := List.cons.inj hsplit
      exact .inl ha
    | cons b before =>
      obtain ⟨rfl, rfl⟩ := List.cons.inj hsplit
      obtain ⟨hb, hbefore⟩ := List.forall_mem_cons.mp hbefore
      exact .inr ⟨hb, before, a, after, rfl, ha, hbefore⟩
  · rintro (hx | ⟨hx, before, a, after, rfl, ha, hbefore⟩)
    · exact ⟨[], x, xs, rfl, hx, List.forall_mem_nil _⟩
    · exact ⟨x :: before, a, after, rfl, ha, List.forall_mem_cons.mpr ⟨hx, hbefore⟩⟩

end Words

/-! ## Numbers -/

def isSpace (c : Char) : Bool := c ∈ [' ', '\t', '\n', '\r', Char.ofNat 11, Char.ofNat 12]

def hexDigit (c : Char) : Option Nat :=
  if '0' ≤ c ∧ c ≤ '9' then some (c.toNat - '0'.toNat)
  else if 'a' ≤ c ∧ c ≤ 'f' then some (c.toNat - 'a'.toNat + 10)
  else if 'A' ≤ c ∧ c ≤ 'F' then some (c.toNat - 'A'.toNat + 10)
  else none

/-- The value of the digits a text begins with. -/
def hexValue (s : List Char) : Nat :=
  ((s.takeWhile fun c => (hexDigit c).isSome).filterMap hexDigit).foldl (fun v d => 16 * v + d) 0

def dropHexMark : List Char → List Char
  | '0' :: x :: d :: s => if (x = 'x' ∨ x = 'X') ∧ (hexDigit d).isSome then d :: s else '0' :: x :: d :: s
  | s => s

/-- A number read without or with a minus sign, in `bits` bits. -/
def toUnsigned (bits v : Nat) (neg : Bool) : Nat :=
  if 2 ^ bits ≤ v then 2 ^ bits - 1 else if neg then (2 ^ bits - v) % 2 ^ bits else v

/-- `strtoul(s, NULL, 16)` for an unsigned long of `bits` bits. -/
def strtoul (bits : Nat) (s : List Char) : Nat :=
  let s := s.dropWhile isSpace
  let digits := if s.head? = some '-' ∨ s.head? = some '+' then s.tail else s
  toUnsigned bits (hexValue (dropHexMark digits)) (s.head? = some '-')

theorem strtoul_lt (bits : Nat) (s : List Char) : strtoul bits s < 2 ^ bits := by
  have hpos : 0 < 2 ^ bits := Nat.two_pow_pos bits
  have hall : ∀ v neg, toUnsigned bits v neg < 2 ^ bits := by
    intro v neg
    rw [toUnsigned]
    split
    · omega
    · split
      · exact Nat.mod_lt _ hpos
      · omega
  exact hall _ _

end CString
