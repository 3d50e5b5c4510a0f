import MxlUtils.Lib.GF256
import Mathlib.Data.Fin.VecNotation
import Mathlib.Tactic.FinCases
import Mathlib.Data.Fintype.EquivFin

/- The block cipher of FIPS 197 for keys of any number of words, and its inverse. The S-box is
   any function that is the inverse in GF(2^8) and the affine map after it; there is only one.
   The columns are mixed by a circulant matrix, and two of these are multiplied like the
   polynomials modulo x^4 + 1 that their first rows are. -/
namespace Rijndael
open GF256

-- The state has four rows and four columns.
instance neZero_four : NeZero 4 := ⟨by decide⟩

/-- Four bytes: a column of the state, or a word of the key. -/
abbrev Word := Fin 4 → Byte

/-- The state by row and column. -/
abbrev State := Fin 4 → Word

abbrev Block := Fin 16 → Byte

/-! ## The S-box -/

def affine (b : Byte) : Byte :=
  b ^^^ b.rotateLeft 1 ^^^ b.rotateLeft 2 ^^^ b.rotateLeft 3 ^^^ b.rotateLeft 4 ^^^ 0x63#8

def affineInv (b : Byte) : Byte := b.rotateLeft 1 ^^^ b.rotateLeft 3 ^^^ b.rotateLeft 6 ^^^ 0x05#8

theorem affineInv_affine : ∀ b, affineInv (affine b) = b := by decide +kernel

theorem finite_byte : Finite Byte := Finite.of_injective BitVec.toFin fun _ _ h => BitVec.eq_of_toFin_eq h

theorem affine_affineInv (b : Byte) : affine (affineInv b) = b := by
  have hinj : Function.Injective affine := Function.LeftInverse.injective affineInv_affine
  have hfinite := finite_byte
  obtain ⟨c, rfl⟩ := Finite.surjective_of_injective hinj b
  rw [affineInv_affine]

structure SBox where
  sub : Byte → Byte
  spec : ∀ b, ∃ c, IsInverse b c ∧ sub b = affine c

namespace SBox
variable (S T : SBox)

theorem sub_eq {b c : Byte} (h : IsInverse b c) : S.sub b = affine c := by
  obtain ⟨d, hd, hsub⟩ := S.spec b
  rw [hsub, hd.unique h]

theorem unique : S.sub = T.sub := by
  funext b
  obtain ⟨c, hc, hsub⟩ := T.spec b
  rw [hsub, S.sub_eq hc]

theorem injective : Function.Injective S.sub := by
  intro a b h
  obtain ⟨c, hc, hac⟩ := S.spec a
  obtain ⟨d, hd, hbd⟩ := S.spec b
  have hcd : c = d := by rw [← affineInv_affine c, ← affineInv_affine d, ← hac, ← hbd, h]
  rw [← hcd] at hd
  exact hc.symm.unique hd.symm

theorem bijective : Function.Bijective S.sub := by
  have hfinite := finite_byte
  exact Finite.injective_iff_bijective.mp S.injective

noncomputable def inv : Byte → Byte := Function.surjInv S.bijective.surjective

theorem sub_inv (b : Byte) : S.sub (S.inv b) = b := Function.surjInv_eq S.bijective.surjective b

theorem inv_sub (b : Byte) : S.inv (S.sub b) = b := S.injective (S.sub_inv (S.sub b))

end SBox

/-! ## The steps of a round, and their inverses -/

section Steps
variable (S : SBox) (s : State)

def subBytes : State := fun r c => S.sub (s r c)
noncomputable def invSubBytes : State := fun r c => S.inv (s r c)

/-- Row `r` is shifted to the left by `r`. -/
def shiftRows : State := fun r c => s r (c + r)
def invShiftRows : State := fun r c => s r (c - r)

def dot (v w : Word) : Byte := mul (v 0) (w 0) ^^^ mul (v 1) (w 1) ^^^ mul (v 2) (w 2) ^^^ mul (v 3) (w 3)

/-- A column multiplied by the circulant matrix with the first row `m`. -/
def circulant (m col : Word) : Word :=
  ![dot ![m 0, m 1, m 2, m 3] col, dot ![m 3, m 0, m 1, m 2] col, dot ![m 2, m 3, m 0, m 1] col,
    dot ![m 1, m 2, m 3, m 0] col]

def mixRow : Word := ![0x02, 0x03, 0x01, 0x01]
def invMixRow : Word := ![0x0e, 0x0b, 0x0d, 0x09]

def column (c : Fin 4) : Word := fun r => s r c

def mixColumns : State := fun r c => circulant mixRow (column s c) r
def invMixColumns : State := fun r c => circulant invMixRow (column s c) r

def addRoundKey (key : State) : State := fun r c => s r c ^^^ key r c

end Steps

theorem invSubBytes_subBytes (S : SBox) (s : State) : invSubBytes S (subBytes S s) = s :=
  funext fun _ => funext fun _ => S.inv_sub _

theorem subBytes_invSubBytes (S : SBox) (s : State) : subBytes S (invSubBytes S s) = s :=
  funext fun _ => funext fun _ => S.sub_inv _

theorem sub_add : ∀ c r : Fin 4, c - r + r = c := by decide

theorem add_sub : ∀ c r : Fin 4, c + r - r = c := by decide

theorem invShiftRows_shiftRows (s : State) : invShiftRows (shiftRows s) = s :=
  funext fun r => funext fun c => congrArg (s r) (sub_add c r)

theorem shiftRows_invShiftRows (s : State) : shiftRows (invShiftRows s) = s :=
  funext fun r => funext fun c => congrArg (s r) (add_sub c r)

theorem addRoundKey_addRoundKey (s key : State) : addRoundKey (addRoundKey s key) key = s := by
  funext r c
  rw [addRoundKey, addRoundKey, BitVec.xor_assoc, BitVec.xor_self, BitVec.xor_zero]

/-- The product of two first rows. -/
def rowMul (m n : Word) : Word :=
  ![dot m ![n 0, n 3, n 2, n 1], dot m ![n 1, n 0, n 3, n 2], dot m ![n 2, n 1, n 0, n 3],
    dot m ![n 3, n 2, n 1, n 0]]

theorem circulant_circulant (m n col : Word) : circulant m (circulant n col) = circulant (rowMul m n) col := by
  funext r
  apply value_injective
  fin_cases r <;>
  · simp only [circulant, rowMul, dot, value_xor, value_mul, Matrix.cons_val, Fin.reduceFinMk]
    ring

theorem circulant_one (col : Word) : circulant ![1, 0, 0, 0] col = col := by
  funext r
  apply value_injective
  fin_cases r <;> simp [circulant, dot, value_xor, value_mul, value_one, value_zero]

theorem rowMul_mix : rowMul invMixRow mixRow = ![1, 0, 0, 0] ∧ rowMul mixRow invMixRow = ![1, 0, 0, 0] := by
  decide +kernel

theorem invMixColumns_mixColumns (s : State) : invMixColumns (mixColumns s) = s := by
  funext r c
  calc invMixColumns (mixColumns s) r c
      = circulant invMixRow (circulant mixRow (column s c)) r := rfl
    _ = column s c r := by rw [circulant_circulant, rowMul_mix.1, circulant_one]

theorem mixColumns_invMixColumns (s : State) : mixColumns (invMixColumns s) = s := by
  funext r c
  calc mixColumns (invMixColumns s) r c
      = circulant mixRow (circulant invMixRow (column s c)) r := rfl
    _ = column s c r := by rw [circulant_circulant, rowMul_mix.2, circulant_one]

/-! ## The cipher -/

section Cipher
variable (S : SBox) (keys : Nat → State)

/-- The state after `n` full rounds. -/
def rounds : Nat → State → State
  | 0, s => addRoundKey s (keys 0)
  | n + 1, s => addRoundKey (mixColumns (shiftRows (subBytes S (rounds n s)))) (keys (n + 1))

/-- `n` full rounds and the last, in which the columns are not mixed. -/
def cipher (n : Nat) (s : State) : State :=
  addRoundKey (shiftRows (subBytes S (rounds S keys n s))) (keys (n + 1))

noncomputable def invRounds : Nat → State → State
  | 0, s => addRoundKey s (keys 0)
  | n + 1, s => invRounds n (invSubBytes S (invShiftRows (invMixColumns (addRoundKey s (keys (n + 1))))))

noncomputable def invCipher (n : Nat) (s : State) : State :=
  invRounds S keys n (invSubBytes S (invShiftRows (addRoundKey s (keys (n + 1)))))

theorem invRounds_rounds (n : Nat) (s : State) : invRounds S keys n (rounds S keys n s) = s := by
  induction n generalizing s with
  | zero => exact addRoundKey_addRoundKey s (keys 0)
  | succ n ih =>
    rw [rounds, invRounds, addRoundKey_addRoundKey, invMixColumns_mixColumns, invShiftRows_shiftRows,
      invSubBytes_subBytes, ih]

theorem rounds_invRounds (n : Nat) (s : State) : rounds S keys n (invRounds S keys n s) = s := by
  induction n generalizing s with
  | zero => exact addRoundKey_addRoundKey s (keys 0)
  | succ n ih =>
    rw [invRounds, rounds, ih, subBytes_invSubBytes, shiftRows_invShiftRows, mixColumns_invMixColumns,
      addRoundKey_addRoundKey]

theorem invCipher_cipher (n : Nat) (s : State) : invCipher S keys n (cipher S keys n s) = s := by
  rw [invCipher, cipher, addRoundKey_addRoundKey, invShiftRows_shiftRows, invSubBytes_subBytes, invRounds_rounds]

theorem cipher_invCipher (n : Nat) (s : State) : cipher S keys n (invCipher S keys n s) = s := by
  rw [invCipher, cipher, rounds_invRounds, subBytes_invSubBytes, shiftRows_invShiftRows, addRoundKey_addRoundKey]

end Cipher

/-! ## The key schedule -/

section Schedule
variable (S : SBox) (nk : Nat) (key : Nat → Word)

def subWord (w : Word) : Word := fun i => S.sub (w i)

def rotWord (w : Word) : Word := fun i => w (i + 1)

/-- The constant of the `i`-th multiple of `nk`: x^(i-1) in the first byte. -/
def rcon (i : Nat) : Word := ![xtime^[i - 1] 1, 0, 0, 0]

def xorWord (v w : Word) : Word := fun i => v i ^^^ w i

/-- What is added to the word `nk` before, from the word before. -/
def temp (i : Nat) (w : Word) : Word :=
  if i % nk = 0 then xorWord (subWord S (rotWord w)) (rcon (i / nk))
  else if 6 < nk ∧ i % nk = 4 then subWord S w
  else w

/-- Word `i` of the schedule of the key of `nk` words. -/
def keyWord (i : Nat) : Word :=
  if _ : 0 < nk ∧ nk ≤ i then xorWord (keyWord (i - nk)) (temp S nk i (keyWord (i - 1)))
  else key i
termination_by i

theorem keyWord_of_lt {i : Nat} (h : i < nk) : keyWord S nk key i = key i := by
  rw [keyWord, dif_neg fun hle => by omega]

theorem keyWord_of_le {i : Nat} (hnk : 0 < nk) (h : nk ≤ i) :
    keyWord S nk key i = xorWord (keyWord S nk key (i - nk)) (temp S nk i (keyWord S nk key (i - 1))) := by
  rw [keyWord, dif_pos ⟨hnk, h⟩]

/-- The key of round `n` has the next four words as its columns. -/
def roundKey (n : Nat) : State := fun r c => keyWord S nk key (4 * n + c) r

end Schedule

/-! ## Encryption of a block -/

section Encrypt
variable (S : SBox) (nk : Nat) (key : Nat → Byte)

/-- The bytes of a block fill the state column by column. -/
def ofBlock (b : Block) : State := fun r c => b ⟨r + 4 * c, by omega⟩

def toBlock (s : State) : Block := fun i => s ⟨i % 4, by omega⟩ ⟨i / 4, by omega⟩

def keyBytes (i : Nat) : Word := fun j => key (4 * i + j)

/-- A key of `nk` words takes `nk + 6` rounds, the last one included. -/
def encrypt (b : Block) : Block :=
  toBlock (cipher S (roundKey S nk (keyBytes key)) (nk + 5) (ofBlock b))

noncomputable def decrypt (b : Block) : Block :=
  toBlock (invCipher S (roundKey S nk (keyBytes key)) (nk + 5) (ofBlock b))

theorem ofBlock_toBlock (s : State) : ofBlock (toBlock s) = s := by
  funext r c
  have hrow : (⟨(r + 4 * c : Nat) % 4, by omega⟩ : Fin 4) = r := Fin.ext (by simp only; omega)
  have hcolumn : (⟨(r + 4 * c : Nat) / 4, by omega⟩ : Fin 4) = c := Fin.ext (by simp only; omega)
  show s ⟨(r + 4 * c : Nat) % 4, _⟩ ⟨(r + 4 * c : Nat) / 4, _⟩ = s r c
  rw [hrow, hcolumn]

theorem toBlock_ofBlock (b : Block) : toBlock (ofBlock b) = b := by
  funext i
  exact congrArg b (Fin.ext (Nat.mod_add_div i 4))

theorem decrypt_encrypt (b : Block) : decrypt S nk key (encrypt S nk key b) = b := by
  rw [decrypt, encrypt, ofBlock_toBlock, invCipher_cipher, toBlock_ofBlock]

theorem encrypt_decrypt (b : Block) : encrypt S nk key (decrypt S nk key b) = b := by
  rw [decrypt, encrypt, ofBlock_toBlock, cipher_invCipher, toBlock_ofBlock]

theorem encrypt_bijective : Function.Bijective (encrypt S nk key) :=
  ⟨Function.LeftInverse.injective (decrypt_encrypt S nk key),
    Function.RightInverse.surjective (encrypt_decrypt S nk key)⟩

end Encrypt

end Rijndael
