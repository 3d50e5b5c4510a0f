import MxlUtils.Lib.CString

/- Numbers of C in any notation, as `strtoull` reads them with base 0: blanks, a sign, `0x` before
   hexadecimal digits, `0` before octal ones. -/
namespace CString

def digitOf (base : Nat) (c : Char) : Option Nat := (hexDigit c).filter (· < base)

/-- The digits a text begins with, and their value. -/
def digitsOf (base : Nat) (s : List Char) : List Char := s.takeWhile fun c => (digitOf base c).isSome

def digitsValue (base : Nat) (s : List Char) : Nat :=
  ((digitsOf base s).filterMap (digitOf base)).foldl (fun v d => base * v + d) 0

/-- What is read of a text: the sign, the value, and what is left behind it. -/
structure Numeral where
  neg : Bool
  value : Nat
  rest : List Char

/-- Whether the digits are hexadecimal, octal or decimal, and the text from them on. -/
def notation0 (s : List Char) : Nat × List Char :=
  if dropHexMark s ≠ s then (16, dropHexMark s) else if s.head? = some '0' then (8, s) else (10, s)

def numeral (s : List Char) : Option Numeral :=
  let s := s.dropWhile isSpace
  let t := notation0 (if s.head? = some '-' ∨ s.head? = some '+' then s.tail else s)
  if digitsOf t.1 t.2 = [] then none
  else some ⟨s.head? = some '-', digitsValue t.1 t.2, t.2.drop (digitsOf t.1 t.2).length⟩

/-- `strtoull(s, &end, 0)` for an unsigned long long of `bits` bits, with the text from `end` on. -/
def strtoull0 (bits : Nat) (s : List Char) : Nat × List Char :=
  match numeral s with
  | none => (0, s)
  | some n => (toUnsigned bits n.value n.neg, n.rest)

/-- The number. -/
def Numeral.toInt (n : Numeral) : Int := if n.neg then -n.value else n.value

theorem numeral_nil : numeral [] = none := rfl

/-- A number that fits in `w` bits, with a sign or without one, is there what it is in `bits` bits. -/
theorem toUnsigned_mod {bits w : Nat} (hw : w ≤ bits) (hpos : 0 < w) {n : Numeral}
    (hlow : -(2 ^ (w - 1) : Nat) ≤ n.toInt) (hhigh : n.toInt < (2 ^ w : Nat)) :
    (toUnsigned bits n.value n.neg % 2 ^ w : Nat) = n.toInt % (2 ^ w : Nat) := by
  obtain ⟨neg, v, rest⟩ := n
  obtain ⟨d, rfl⟩ := Nat.exists_eq_add_of_le hw
  have hlt : (2 : Nat) ^ w ≤ 2 ^ (w + d) := Nat.pow_le_pow_right (by decide) (by omega)
  have hhalf : (2 : Nat) ^ (w - 1) < 2 ^ w := Nat.pow_lt_pow_right (by decide) (by omega)
  unfold Numeral.toInt at hlow hhigh ⊢
  dsimp only at hlow hhigh ⊢
  cases neg with
  | false =>
    rw [if_neg Bool.false_ne_true] at hhigh ⊢
    rw [toUnsigned, if_neg (by omega), if_neg Bool.false_ne_true]
    exact Int.natCast_emod v _
  | true =>
    rw [if_pos rfl] at hlow ⊢
    have hle : v ≤ 2 ^ (w + d) := by omega
    rw [toUnsigned, if_neg (by omega), if_pos rfl, Nat.mod_mod_of_dvd _ (Nat.pow_dvd_pow 2 (by omega))]
    calc (((2 ^ (w + d) - v) % 2 ^ w : Nat) : Int)
        = ((2 ^ (w + d) - v : Nat) : Int) % (2 ^ w : Nat) := Int.natCast_emod _ _
      _ = (-v + (2 ^ d : Nat) * (2 ^ w : Nat)) % (2 ^ w : Nat) := by
        rw [Int.natCast_sub hle, Nat.pow_add, Int.natCast_mul, Int.sub_eq_add_neg, Int.add_comm, Int.mul_comm]
      _ = -v % (2 ^ w : Nat) := Int.add_mul_emod_self_right _ _ _

end CString
