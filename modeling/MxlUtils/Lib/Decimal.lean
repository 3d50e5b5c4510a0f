import MxlUtils.Lib.CString

/- Decimal numbers in strings of C. `strtol` skips blanks, takes a sign, reads the digits it finds
   and leaves the rest; it stops at the ends of its type. What it yields for a text of digits is
   their value, if that fits. -/
namespace CString

/-- The value of the digits of a text. -/
def decimal (s : List Char) : Nat := s.foldl (fun v c => 10 * v + (c.toNat - '0'.toNat)) 0

/-- A number with nothing else in its text. -/
def DigitText (s : List Char) : Prop := s ≠ [] ∧ ∀ c ∈ s, c.isDigit = true

instance (s : List Char) : Decidable (DigitText s) := inferInstanceAs (Decidable (_ ∧ _))

/-- The nearest number in a signed type of `bits` bits. -/
def clamp (bits : Nat) (v : Int) : Int := max (-(2 ^ (bits - 1))) (min v (2 ^ (bits - 1) - 1))

/-- What is read: whether there is a minus sign, and the digits behind it. -/
def signedDigits (s : List Char) : Bool × List Char :=
  let s := s.dropWhile isSpace
  (s.head? = some '-',
    (if s.head? = some '-' ∨ s.head? = some '+' then s.tail else s).takeWhile Char.isDigit)

/-- `strtol(s, NULL, 10)` for a long of `bits` bits. -/
def strtol (bits : Nat) (s : List Char) : Int :=
  clamp bits (if (signedDigits s).1 then -(decimal (signedDigits s).2) else decimal (signedDigits s).2)

/-- `strtoul(s, NULL, 10)` for an unsigned long of `bits` bits. -/
def strtoul10 (bits : Nat) (s : List Char) : Nat :=
  toUnsigned bits (decimal (signedDigits s).2) (signedDigits s).1

section Digits
variable {bits : Nat} {ds rest : List Char}

theorem isSpace_of_isDigit {c : Char} (h : c.isDigit = true) : isSpace c = false := by
  have hrange : '0'.toNat ≤ c.toNat ∧ c.toNat ≤ '9'.toNat := by
    simpa [Char.isDigit, UInt32.le_iff_toNat_le] using h
  rw [← Bool.not_eq_true]
  intro hspace
  have hmem : c ∈ [' ', '\t', '\n', '\r', Char.ofNat 11, Char.ofNat 12] := by
    simpa [isSpace] using hspace
  have hsmall : ∀ d ∈ [' ', '\t', '\n', '\r', Char.ofNat 11, Char.ofNat 12], d.toNat < '0'.toNat := by
    decide
  exact absurd hrange.1 (Nat.not_le_of_lt (hsmall c hmem))

/-- Digits up to something else are read as they stand. -/
theorem signedDigits_append (hds : DigitText ds) (hrest : ∀ c, rest.head? = some c → c.isDigit = false) :
    signedDigits (ds ++ rest) = (false, ds) := by
  obtain ⟨hne, hall⟩ := hds
  cases ds with
  | nil => exact absurd rfl hne
  | cons d ds =>
    have hd : d.isDigit = true := hall d List.mem_cons_self
    have hskip : ((d :: ds) ++ rest).dropWhile isSpace = d :: ds ++ rest := by
      rw [List.cons_append, List.dropWhile_cons_of_neg (by simp [isSpace_of_isDigit hd])]
    have hminus : d ≠ '-' := by
      rintro rfl
      exact absurd hd (by decide)
    have hplus : d ≠ '+' := by
      rintro rfl
      exact absurd hd (by decide)
    have htake : ((d :: ds) ++ rest).takeWhile Char.isDigit = d :: ds := by
      rw [List.takeWhile_append_of_pos hall]
      cases rest with
      | nil => simp
      | cons c rest => rw [List.takeWhile_cons_of_neg (by simp [hrest c rfl]), List.append_nil]
    simp only [signedDigits, hskip]
    simp [hminus, hplus] at htake ⊢
    exact htake

theorem strtol_digits (hds : DigitText ds) (hrest : ∀ c, rest.head? = some c → c.isDigit = false) :
    strtol bits (ds ++ rest) = clamp bits (decimal ds) := by
  rw [strtol, signedDigits_append hds hrest]
  rfl

theorem clamp_of_lt {v : Nat} (h : v < 2 ^ (bits - 1)) : clamp bits v = v := by
  have hcast : ((2 ^ (bits - 1) : Nat) : Int) = 2 ^ (bits - 1) := by simp
  rw [clamp]
  omega

theorem strtoul10_digits (hds : DigitText ds) : strtoul10 bits ds = min (decimal ds) (2 ^ bits - 1) := by
  have h := @signedDigits_append ds [] hds (by simp)
  rw [List.append_nil] at h
  have hpos := Nat.two_pow_pos bits
  rw [strtoul10, h]
  simp only [toUnsigned, Bool.false_eq_true, if_false]
  split <;> omega

end Digits

end CString
