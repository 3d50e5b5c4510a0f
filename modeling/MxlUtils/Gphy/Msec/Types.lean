import MxlUtils.Gphy.Device

/- Data of the MACsec API: the parameters of a transform record, the records the
   hardware holds, one layout for each direction and packet-number width, and
   the SA matching rule. A record of the hardware is a C struct of 32-bit words;
   `words` lays its members out in declaration order. The two key lengths of a
   layout differ only in the length of `key` and of the reserved tail, so the
   number of key words is a parameter. The host is little-endian. -/
namespace Gpy2xx
open Effect Bits

/-- `enum msec_dir` -/
inductive MsecDir where
  | ingress
  | egress
deriving DecidableEq, Repr

/-- `enum crypto_algorithm`; the C type can also hold a value that names no suite. -/
inductive CryptoAlgorithm where
  | gcmAes128
  | gcmAes256
  | gcmAesXpn128
  | gcmAesXpn256
  | other (v : BitVec 32)
deriving DecidableEq, Repr

/-- `enum seq_type` -/
inductive SeqType where
  | sn32Bit
  | sn64Bit
  | other (v : BitVec 32)
deriving DecidableEq, Repr

abbrev Bytes (n : Nat) := Fin n → BitVec 8

abbrev Words (n : Nat) := Fin n → BitVec 32

structure CtxCtrlWord where
  caType : CryptoAlgorithm
  an : BitVec 8
  snType : SeqType

structure CtxSalt where
  salt : Bytes 12
  sSci : Bytes 4

structure CryptoParams where
  key : Bytes 32
  hkey : Bytes 16
  sci : Bytes 8
  cSalt : CtxSalt

structure PnReplayCheck where
  seq0 : BitVec 32
  seq1 : BitVec 32
  mask : BitVec 32

structure SaUpdateCtrl where
  saIndex : BitVec 16
  saExpiredIrq : BitVec 8
  saIndexValid : BitVec 8
  flowIndex : BitVec 16
  saIndUpdateEn : BitVec 8

structure TransformRec where
  saIndex : BitVec 8
  ccw : CtxCtrlWord
  cp : CryptoParams
  pnRc : PnReplayCheck
  saUpdate : SaUpdateCtrl

/-- The members of `struct gpy211_device` the MACsec calls read. -/
structure MsecDevice where
  nrOfSas : BitVec 8

/-- The SA matching rule; `misc`, `mask` and `extn` are the raw words of its bit fields. -/
structure SaMatchParam where
  ruleIndex : BitVec 8
  saMac : Bytes 6
  daMac : Bytes 6
  ethType : BitVec 16
  vlanId : BitVec 16
  misc : BitVec 32
  sci : Bytes 8
  mask : BitVec 32
  extn : BitVec 32

/-! ## Bytes and words -/

/-- Four bytes as the word a little-endian host reads. -/
def leWord (b₀ b₁ b₂ b₃ : BitVec 8) : BitVec 32 := b₃ ++ b₂ ++ b₁ ++ b₀

/-- `memcpy` of bytes into words. -/
def leWords {n : Nat} (b : Bytes (4 * n)) : Words n := fun i =>
  leWord (b ⟨4 * i, by omega⟩) (b ⟨4 * i + 1, by omega⟩) (b ⟨4 * i + 2, by omega⟩)
    (b ⟨4 * i + 3, by omega⟩)

/-- Byte `i` of a word, the lowest first. -/
def leByte (w : BitVec 32) (i : Nat) : BitVec 8 := w.extractLsb' (8 * i) 8

/-- The bytes of some words. -/
def leBytes {n : Nat} (w : Words n) : Bytes (4 * n) := fun i =>
  leByte (w ⟨i / 4, by omega⟩) (i % 4)

section LittleEndian
variable (b₀ b₁ b₂ b₃ : BitVec 8)

theorem leWord_bit (j : Nat) : (leWord b₀ b₁ b₂ b₃).getLsbD j =
    if j < 8 then b₀.getLsbD j else if j - 8 < 8 then b₁.getLsbD (j - 8)
      else if j - 8 - 8 < 8 then b₂.getLsbD (j - 8 - 8) else b₃.getLsbD (j - 8 - 8 - 8) := by
  simp only [leWord, BitVec.getLsbD_append]

theorem leByte_leWord_zero : leByte (leWord b₀ b₁ b₂ b₃) 0 = b₀ := by
  apply BitVec.eq_of_getLsbD_eq
  intro j hj
  rw [leByte, BitVec.getLsbD_extractLsb', leWord_bit, if_pos (by omega)]
  simp [hj]

theorem leByte_leWord_one : leByte (leWord b₀ b₁ b₂ b₃) 1 = b₁ := by
  apply BitVec.eq_of_getLsbD_eq
  intro j hj
  have hlow : 8 * 1 + j - 8 = j := by omega
  rw [leByte, BitVec.getLsbD_extractLsb', leWord_bit, if_neg (by omega), if_pos (by omega), hlow]
  simp [hj]

theorem leByte_leWord_two : leByte (leWord b₀ b₁ b₂ b₃) 2 = b₂ := by
  apply BitVec.eq_of_getLsbD_eq
  intro j hj
  have hlow : 8 * 2 + j - 8 - 8 = j := by omega
  rw [leByte, BitVec.getLsbD_extractLsb', leWord_bit, if_neg (by omega), if_neg (by omega),
    if_pos (by omega), hlow]
  simp [hj]

theorem leByte_leWord_three : leByte (leWord b₀ b₁ b₂ b₃) 3 = b₃ := by
  apply BitVec.eq_of_getLsbD_eq
  intro j hj
  have hlow : 8 * 3 + j - 8 - 8 - 8 = j := by omega
  rw [leByte, BitVec.getLsbD_extractLsb', leWord_bit, if_neg (by omega), if_neg (by omega),
    if_neg (by omega), hlow]
  simp [hj]

end LittleEndian

/-- Copying bytes into words and back loses nothing. -/
theorem leBytes_leWords {n : Nat} (b : Bytes (4 * n)) : leBytes (leWords b) = b := by
  funext ⟨i, hi⟩
  have hcases : i % 4 = 0 ∨ i % 4 = 1 ∨ i % 4 = 2 ∨ i % 4 = 3 := by omega
  rw [leBytes, leWords]
  rcases hcases with h | h | h | h
  · rw [h, leByte_leWord_zero]
    exact congrArg b (Fin.ext (show 4 * (i / 4) = i by omega))
  · rw [h, leByte_leWord_one]
    exact congrArg b (Fin.ext (show 4 * (i / 4) + 1 = i by omega))
  · rw [h, leByte_leWord_two]
    exact congrArg b (Fin.ext (show 4 * (i / 4) + 2 = i by omega))
  · rw [h, leByte_leWord_three]
    exact congrArg b (Fin.ext (show 4 * (i / 4) + 3 = i by omega))

end Gpy2xx
