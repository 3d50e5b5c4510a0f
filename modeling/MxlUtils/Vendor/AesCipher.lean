import MxlUtils.Lib.Loop
import MxlUtils.Vendor.ExampleAes

/- `AES_Encrypt` is the cipher of FIPS 197. The words of the schedule are compared with those
   of the standard byte by byte, from the highest on, and the state through `view`; each step
   of the code then is the step of the standard, and the loops are its recursions. -/
namespace Aes
open GF256

/-- `aes_sbox` as an S-box. -/
def box : Rijndael.SBox where
  sub := sbox
  spec b := ⟨Rijndael.affineInv (sbox b), sbox_spec_all b, (Rijndael.affine_affineInv (sbox b)).symm⟩

/-! ## Words -/

/-- The bytes of a word, the highest first. -/
def wordBytes (x : BitVec 32) : Rijndael.Word := fun r => (x >>> (24 - 8 * r.val)).setWidth 8

theorem wordBytes_bit {x : BitVec 32} {r : Fin 4} {i : Nat} (hi : i < 8) :
    (wordBytes x r).getLsbD i = x.getLsbD (24 - 8 * r.val + i) := by
  simp [wordBytes, hi]

theorem wordBytes_xor (x y : BitVec 32) :
    wordBytes (x ^^^ y) = Rijndael.xorWord (wordBytes x) (wordBytes y) := by
  funext r
  apply BitVec.eq_of_getLsbD_eq
  intro i hi
  rw [Rijndael.xorWord, BitVec.getLsbD_xor, wordBytes_bit hi, wordBytes_bit hi, wordBytes_bit hi,
    BitVec.getLsbD_xor]

theorem wordBytes_or (x y : BitVec 32) (r : Fin 4) : wordBytes (x ||| y) r = wordBytes x r ||| wordBytes y r := by
  apply BitVec.eq_of_getLsbD_eq
  intro i hi
  rw [BitVec.getLsbD_or, wordBytes_bit hi, wordBytes_bit hi, wordBytes_bit hi, BitVec.getLsbD_or]

/-- A byte in its place in a word. -/
def place (b : Byte) (k : Nat) : BitVec 32 := b.setWidth 32 <<< k

theorem getLsbD_place {b : Byte} {k i : Nat} (hi : i < 32) :
    (place b k).getLsbD i = (decide (k ≤ i) && b.getLsbD (i - k)) := by
  rw [place, BitVec.getLsbD_shiftLeft, BitVec.getLsbD_setWidth]
  by_cases hk : k ≤ i
  · simp [hi, hk, show i - k < 32 by omega]
  · simp [hk, show i < k by omega]

theorem wordBytes_place (b : Byte) (j r : Fin 4) :
    wordBytes (place b (24 - 8 * j.val)) r = if r = j then b else 0 := by
  apply BitVec.eq_of_getLsbD_eq
  intro i hi
  rw [wordBytes_bit hi, getLsbD_place (by omega)]
  rcases Nat.lt_trichotomy j.val r.val with hlt | heq | hlt
  · have hne : r ≠ j := fun h => by omega
    rw [if_neg hne, decide_eq_false (by omega)]
    simp
  · have hr : r = j := Fin.ext heq.symm
    subst hr
    simp
  · have hne : r ≠ j := fun h => by omega
    rw [if_neg hne, BitVec.getLsbD_of_ge b _ (by omega)]
    simp

/-- Four bytes put in their places. -/
def join (b₀ b₁ b₂ b₃ : Byte) : BitVec 32 := place b₀ 24 ||| place b₁ 16 ||| place b₂ 8 ||| place b₃ 0

theorem wordBytes_join (b₀ b₁ b₂ b₃ : Byte) : wordBytes (join b₀ b₁ b₂ b₃) = ![b₀, b₁, b₂, b₃] := by
  funext r
  rw [join, wordBytes_or, wordBytes_or, wordBytes_or]
  have h₀ : wordBytes (place b₀ 24) r = if r = 0 then b₀ else 0 := wordBytes_place b₀ 0 r
  have h₁ : wordBytes (place b₁ 16) r = if r = 1 then b₁ else 0 := wordBytes_place b₁ 1 r
  have h₂ : wordBytes (place b₂ 8) r = if r = 2 then b₂ else 0 := wordBytes_place b₂ 2 r
  have h₃ : wordBytes (place b₃ 0) r = if r = 3 then b₃ else 0 := wordBytes_place b₃ 3 r
  rw [h₀, h₁, h₂, h₃]
  fin_cases r <;> simp

theorem wordBytes_rotWord (x : BitVec 32) : wordBytes (rotWord x) = Rijndael.rotWord (wordBytes x) := by
  funext r
  apply BitVec.eq_of_getLsbD_eq
  intro i hi
  rw [Rijndael.rotWord, wordBytes_bit hi, wordBytes_bit hi, rotWord, BitVec.getLsbD_or,
    BitVec.getLsbD_shiftLeft, BitVec.getLsbD_ushiftRight]
  by_cases hlast : r = 3
  · subst hlast
    -- The highest byte comes round to the lowest.
    simp [hi]
  · have hnext : (r + 1).val = r.val + 1 := by omega
    rw [BitVec.getLsbD_of_ge x (24 + _) (by omega), hnext, decide_eq_true (by omega), decide_eq_false (by omega)]
    simp only [Bool.not_false, Bool.true_and, Bool.or_false]
    exact congrArg x.getLsbD (by omega)

theorem sbox_of_word (x : BitVec 32) (r : Fin 4) :
    (entry aesSbox ((x >>> (28 - 8 * r.val)) &&& 0xF).toNat ((x >>> (24 - 8 * r.val)) &&& 0xF).toNat) =
      sbox (wordBytes x r) := by
  have hword : ∀ y : BitVec 32, (y &&& 0xF).toNat = y.toNat % 16 := fun y =>
    Nat.and_two_pow_sub_one_eq_mod y.toNat 4
  have hbyte : ∀ b : Byte, (b &&& 0x0F).toNat = b.toNat % 16 := fun b =>
    Nat.and_two_pow_sub_one_eq_mod b.toNat 4
  have hhigh : ((x >>> (28 - 8 * r.val)) &&& 0xF).toNat = (wordBytes x r >>> 4).toNat := by
    rw [hword, wordBytes, BitVec.toNat_ushiftRight, BitVec.toNat_ushiftRight, BitVec.toNat_setWidth,
      BitVec.toNat_ushiftRight, Nat.shiftRight_eq_div_pow, Nat.shiftRight_eq_div_pow, Nat.shiftRight_eq_div_pow,
      show 28 - 8 * r.val = 24 - 8 * r.val + 4 by omega, Nat.pow_add, ← Nat.div_div_eq_div_mul]
    omega
  have hlow : ((x >>> (24 - 8 * r.val)) &&& 0xF).toNat = (wordBytes x r &&& 0x0F).toNat := by
    rw [hword, hbyte, wordBytes, BitVec.toNat_setWidth]
    omega
  rw [sbox, hhigh, hlow]

/-- Bytes in different places are added without a carry. -/
theorem add_place {x : BitVec 32} {b : Byte} {k : Nat} (hx : ∀ i, k ≤ i → x.getLsbD i = false) :
    x + place b k = x ||| place b k := by
  apply BitVec.add_eq_or_of_and_eq_zero
  apply BitVec.eq_of_getLsbD_eq
  intro i hi
  rw [BitVec.getLsbD_and, getLsbD_place hi]
  by_cases hk : k ≤ i
  · rw [hx i hk]
    simp
  · simp [hk]

theorem or_place_above {x : BitVec 32} {b : Byte} {k : Nat} (hx : ∀ i, k ≤ i → x.getLsbD i = false) :
    ∀ i, k + 8 ≤ i → (x ||| place b k).getLsbD i = false := by
  intro i hi
  by_cases hlt : i < 32
  · rw [BitVec.getLsbD_or, getLsbD_place hlt, hx i (by omega), BitVec.getLsbD_of_ge b _ (by omega)]
    simp
  · exact BitVec.getLsbD_of_ge _ i (by omega)

theorem subWord_eq (x : BitVec 32) : subWord x =
    join (sbox (wordBytes x 0)) (sbox (wordBytes x 1)) (sbox (wordBytes x 2)) (sbox (wordBytes x 3)) := by
  have hplace : ∀ (r : Fin 4), subByteAt x (28 - 8 * r.val) (24 - 8 * r.val) <<< (24 - 8 * r.val) =
      place (sbox (wordBytes x r)) (24 - 8 * r.val) := fun r =>
    congrArg (fun b : Byte => b.setWidth 32 <<< (24 - 8 * r.val)) (sbox_of_word x r)
  have h₀ : subByteAt x 28 24 <<< 24 = place (sbox (wordBytes x 0)) 24 := hplace 0
  have h₁ : subByteAt x 20 16 <<< 16 = place (sbox (wordBytes x 1)) 16 := hplace 1
  have h₂ : subByteAt x 12 8 <<< 8 = place (sbox (wordBytes x 2)) 8 := hplace 2
  have h₃ : subByteAt x 4 0 = place (sbox (wordBytes x 3)) 0 := by
    have hlast : subByteAt x 4 0 <<< 0 = place (sbox (wordBytes x 3)) 0 := hplace 3
    rwa [BitVec.shiftLeft_zero] at hlast
  have habove₀ : ∀ i, 0 + 8 ≤ i → (0#32 ||| place (sbox (wordBytes x 3)) 0).getLsbD i = false :=
    or_place_above fun i _ => BitVec.getLsbD_zero
  rw [BitVec.zero_or] at habove₀
  have habove₁ := @or_place_above _ (sbox (wordBytes x 2)) 8 habove₀
  have habove₂ := @or_place_above _ (sbox (wordBytes x 1)) 16 habove₁
  rw [subWord, h₀, h₁, h₂, h₃, add_place habove₀, add_place habove₁, add_place habove₂, join,
    BitVec.or_comm _ (place (sbox (wordBytes x 0)) 24), BitVec.or_comm _ (place (sbox (wordBytes x 1)) 16),
    BitVec.or_comm _ (place (sbox (wordBytes x 2)) 8), BitVec.or_assoc, BitVec.or_assoc]

theorem wordBytes_subWord (x : BitVec 32) : wordBytes (subWord x) = Rijndael.subWord box (wordBytes x) := by
  rw [subWord_eq, wordBytes_join]
  funext r
  fin_cases r <;> rfl

theorem wordBytes_keyWordAt (key : Nat → Byte) (idx : Nat) :
    wordBytes (keyWordAt key idx) = Rijndael.keyBytes key idx := by
  have hlast : place (key (4 * idx + 3)) 0 = (key (4 * idx + 3)).setWidth 32 := BitVec.shiftLeft_zero _
  have hjoin : keyWordAt key idx = join (key (4 * idx)) (key (4 * idx + 1)) (key (4 * idx + 2)) (key (4 * idx + 3)) := by
    rw [join, hlast]
    rfl
  rw [hjoin, wordBytes_join]
  funext r
  fin_cases r <;> rfl

theorem wordBytes_rcon {j : Nat} (h : j < 15) : wordBytes (rcon.getD j 0) = Rijndael.rcon (j + 1) := by
  have hall : ∀ j < 15, ∀ r, wordBytes (rcon.getD j 0) r = Rijndael.rcon (j + 1) r := by decide +kernel
  exact funext (hall j h)

/-! ## The key schedule -/

section Schedule
variable {nk m : Nat} {key : Nat → Byte} {w : Schedule}

/-- The first `m` words are those of the standard. -/
def Holds (nk : Nat) (key : Nat → Byte) (m : Nat) (w : Schedule) : Prop :=
  ∀ i < m, wordBytes (word w i) = Rijndael.keyWord box nk (Rijndael.keyBytes key) i

theorem word_set {i : Nat} (hi : i < 60) (v : BitVec 32) (j : Nat) :
    word (w.setIfInBounds i v) j = if j = i then v else word w j := by
  rw [word, Vector.getElem?_setIfInBounds]
  by_cases hj : i = j
  · subst hj
    simp [hi]
  · rw [if_neg hj, if_neg (Ne.symm hj), word]

theorem Holds.set {v : BitVec 32} (hw : Holds nk key m w) (hm : m < 60)
    (hv : wordBytes v = Rijndael.keyWord box nk (Rijndael.keyBytes key) m) :
    Holds nk key (m + 1) (w.setIfInBounds m v) := by
  intro i hi
  rw [word_set hm]
  by_cases hlast : i = m
  · rw [if_pos hlast, hv, hlast]
  · rw [if_neg hlast]
    exact hw i (by omega)

theorem wordBytes_nextWord (hnk : 0 < nk) (hle : nk ≤ m) (hlt : m < 60) (hfour : 4 ≤ nk) (hw : Holds nk key m w) :
    wordBytes (nextWord nk w m) = Rijndael.keyWord box nk (Rijndael.keyBytes key) m := by
  have hdiv : m / nk ≤ 15 := by
    calc m / nk ≤ m / 4 := Nat.div_le_div_left hfour (by decide)
      _ ≤ 15 := by omega
  rw [Rijndael.keyWord_of_le box nk _ hnk hle, nextWord, wordBytes_xor, hw (m - nk) (by omega), ← hw (m - 1) (by omega)]
  refine congrArg (Rijndael.xorWord _) ?_
  rw [Rijndael.temp]
  by_cases hzero : m % nk = 0
  · obtain ⟨j, hj⟩ := Nat.dvd_of_mod_eq_zero hzero
    have hpos : 0 < j := by
      apply Nat.pos_of_ne_zero
      rintro rfl
      omega
    have hquotient : m / nk = j := by rw [hj, Nat.mul_div_cancel_left j hnk]
    have hprevious : (m - 1) / nk = j - 1 := by
      rw [Nat.div_eq_iff hnk, hj, Nat.sub_mul, Nat.one_mul, Nat.mul_comm j nk]
      have hge : nk * 1 ≤ nk * j := Nat.mul_le_mul_left nk hpos
      omega
    rw [if_pos hzero, if_pos hzero, wordBytes_xor, wordBytes_subWord, wordBytes_rotWord, hprevious,
      wordBytes_rcon (by omega), hquotient, Nat.sub_add_cancel hpos]
  · rw [if_neg hzero, if_neg hzero]
    by_cases hmiddle : nk > 6 ∧ m % nk = 4
    · rw [if_pos hmiddle, if_pos hmiddle, wordBytes_subWord]
    · rw [if_neg hmiddle, if_neg hmiddle]

/-- Both loops stay within the array and fill it as far as it is used. -/
theorem holds_aesKeySetup {nr keysize : Nat} (h : sizes keysize = some (nr, nk)) :
    Holds nk key (4 * (nr + 1)) (aesKeySetup key w keysize) := by
  have hbounds : 4 ≤ nk ∧ nk ≤ 4 * (nr + 1) ∧ 4 * (nr + 1) ≤ 60 := by
    unfold sizes at h
    split_ifs at h <;> cases h <;> decide
  obtain ⟨hfour, hle, hmax⟩ := hbounds
  have hfirst : Holds nk key (0 + nk)
      ((List.range' 0 nk).foldl (fun w idx => w.setIfInBounds idx (keyWordAt key idx)) w) := by
    apply Loop.foldl_range'_inv
    · intro i hi
      omega
    · intro i w _ hi hw
      apply hw.set (by omega)
      rw [wordBytes_keyWordAt, Rijndael.keyWord_of_lt box nk _ (by omega)]
  rw [Nat.zero_add, ← List.range_eq_range'] at hfirst
  have hall : ∀ w, Holds nk key nk w → Holds nk key (nk + (4 * (nr + 1) - nk))
      ((List.range' nk (4 * (nr + 1) - nk)).foldl (fun w idx => w.setIfInBounds idx (nextWord nk w idx)) w) := by
    intro w hw
    apply Loop.foldl_range'_inv hw
    intro i w hstart hi hw
    exact hw.set (by omega) (wordBytes_nextWord (by omega) hstart (by omega) hfour hw)
  have hschedule := hall _ hfirst
  rw [Nat.add_sub_cancel' hle] at hschedule
  rw [aesKeySetup, h]
  exact hschedule

end Schedule

/-! ## The steps of a round -/

/-- What the standard sees of the array. -/
def view (state : State) : Rijndael.State := fun r c => cell state r c

theorem view_fill (f : Fin 4 → Fin 4 → Byte) : view (fill f) = f := by
  funext r c
  simp [view, cell, fill]

theorem view_subBytes (state : State) : view (subBytes state) = Rijndael.subBytes box (view state) := view_fill _

theorem view_shiftRows (state : State) : view (shiftRows state) = Rijndael.shiftRows (view state) := by
  funext r c
  fin_cases r <;> fin_cases c <;> rfl

theorem gfMulAt_eq (b : Byte) (j : Nat) : gfMulAt b j = (multiples b).getD j 0 := by
  have hrow : gfMul.getD b.toNat [] = multiples b := by
    rw [gfMul_eq, List.getD_eq_getElem?_getD, List.getElem?_map, List.getElem?_range b.isLt]
    exact congrArg multiples (BitVec.ofNat_toNat 8 b ▸ BitVec.setWidth_eq b)
  rw [gfMulAt, entry, hrow]

theorem mul_two (b : Byte) : mul 0x02 b = xtime b := by
  apply value_injective
  have htwo : (0x02 : Byte) = xtime 1#8 := by decide
  rw [htwo, value_mul, value_xtime, value_xtime, value_one]
  ring

theorem mul_three (b : Byte) : mul 0x03 b = xtime b ^^^ b := by
  apply value_injective
  have hthree : (0x03 : Byte) = xtime 1#8 ^^^ 1#8 := by decide
  rw [hthree, value_mul, value_xor, value_xtime, value_xor, value_xtime, value_one]
  ring

theorem view_mixColumns (state : State) : view (mixColumns state) = Rijndael.mixColumns (view state) := by
  have hcolumn : ∀ col : Fin 4 → Byte, mixColumn col = Rijndael.circulant Rijndael.mixRow col := by
    intro col
    have htwo : ∀ b, gfMulAt b 0 = mul 0x02 b := fun b => by rw [gfMulAt_eq, mul_two]; rfl
    have hthree : ∀ b, gfMulAt b 1 = mul 0x03 b := fun b => by rw [gfMulAt_eq, mul_three]; rfl
    funext r
    fin_cases r <;> simp [mixColumn, Rijndael.circulant, Rijndael.dot, Rijndael.mixRow, htwo, hthree, one_mul]
  rw [mixColumns, view_fill]
  funext r c
  exact congrFun (hcolumn (Rijndael.column (view state) c)) r

section Rounds
variable {nk m n : Nat} {key : Nat → Byte} {w : Schedule} {state : State}

theorem view_addRoundKey (hw : Holds nk key m w) (hn : 4 * n + 4 ≤ m) : view (addRoundKey state w (4 * n)) =
    Rijndael.addRoundKey (view state) (Rijndael.roundKey box nk (Rijndael.keyBytes key) n) := by
  rw [addRoundKey, view_fill]
  funext r c
  have hword := congrFun (hw (4 * n + c) (by omega)) r
  exact congrArg (cell state r c ^^^ ·) hword

theorem view_fullRound (hw : Holds nk key m w) (hn : 4 * n + 4 ≤ m) : view (fullRound w state (4 * n)) =
    Rijndael.addRoundKey (Rijndael.mixColumns (Rijndael.shiftRows (Rijndael.subBytes box (view state))))
      (Rijndael.roundKey box nk (Rijndael.keyBytes key) n) := by
  rw [fullRound, view_addRoundKey hw hn, view_mixColumns, view_shiftRows, view_subBytes]

/-- A run of full rounds takes the state of round `n` to that of round `n + k`. -/
theorem view_fullRounds (hw : Holds nk key m w) {s : Rijndael.State} {k : Nat} (hk : 4 * (n + k) + 4 ≤ m)
    (hstate : view state = Rijndael.rounds box (Rijndael.roundKey box nk (Rijndael.keyBytes key)) n s) :
    view (((List.range' (n + 1) k).map (4 * ·)).foldl (fullRound w) state) =
      Rijndael.rounds box (Rijndael.roundKey box nk (Rijndael.keyBytes key)) (n + k) s := by
  induction k generalizing n state with
  | zero => exact hstate
  | succ k ih =>
    have hround : view (fullRound w state (4 * (n + 1))) =
        Rijndael.rounds box (Rijndael.roundKey box nk (Rijndael.keyBytes key)) (n + 1) s := by
      rw [view_fullRound hw (by omega), hstate, Rijndael.rounds]
    have hrest := @ih (n + 1) (fullRound w state (4 * (n + 1))) (by omega) hround
    rw [show n + 1 + k = n + (k + 1) by omega] at hrest
    exact hrest

theorem view_lastRound (hw : Holds nk key m w) (hn : 4 * (n + 1) + 4 ≤ m) {s : Rijndael.State}
    (hstate : view state = Rijndael.rounds box (Rijndael.roundKey box nk (Rijndael.keyBytes key)) n s) :
    view (lastRound w state (4 * (n + 1))) =
      Rijndael.cipher box (Rijndael.roundKey box nk (Rijndael.keyBytes key)) n s := by
  rw [lastRound, view_addRoundKey hw hn, view_shiftRows, view_subBytes, hstate, Rijndael.cipher]

end Rounds

/-! ## Encryption -/

theorem aesEncrypt_eq {nr nk keysize : Nat} {key : Nat → Byte} {w : Schedule} (input : Fin 16 → Byte)
    (hsizes : sizes keysize = some (nr, nk)) (hw : Holds nk key (4 * (nr + 1)) w) :
    aesEncrypt input w keysize = Rijndael.encrypt box nk key input := by
  have hstart : view (addRoundKey (fill fun r c => input ⟨r + 4 * c, by omega⟩) w 0) =
      Rijndael.rounds box (Rijndael.roundKey box nk (Rijndael.keyBytes key)) 0 (Rijndael.ofBlock input) := by
    rw [@view_addRoundKey _ _ 0 _ _ _ hw (by omega), view_fill]
    rfl
  have hbounds : (keysize = 128 ∧ nr = 10 ∧ nk = 4) ∨ (keysize = 192 ∧ nr = 12 ∧ nk = 6) ∨
      (keysize = 256 ∧ nr = 14 ∧ nk = 8) := by
    unfold sizes at hsizes
    split_ifs at hsizes <;> cases hsizes <;> simp [*]
  have hround : ∀ (l : List Nat) (n k : Nat) (state : State), l = (List.range' (n + 1) k).map (4 * ·) →
      4 * (n + k) + 4 ≤ 4 * (nr + 1) →
      view state = Rijndael.rounds box (Rijndael.roundKey box nk (Rijndael.keyBytes key)) n (Rijndael.ofBlock input) →
      view (l.foldl (fullRound w) state) =
        Rijndael.rounds box (Rijndael.roundKey box nk (Rijndael.keyBytes key)) (n + k) (Rijndael.ofBlock input) := by
    intro l n k state hl hle hstate
    rw [hl]
    exact view_fullRounds hw hle hstate
  have hnine := hround [4, 8, 12, 16, 20, 24, 28, 32, 36] 0 9 _ rfl (by omega) hstart
  rw [aesEncrypt, Rijndael.encrypt]
  -- The array at the end is read as the block is written.
  refine congrArg Rijndael.toBlock (?_ : view _ = _)
  rcases hbounds with ⟨rfl, rfl, rfl⟩ | ⟨rfl, rfl, rfl⟩ | ⟨rfl, rfl, rfl⟩
  · rw [if_neg (by decide)]
    exact @view_lastRound 4 _ 9 key w _ hw (by decide) _ hnine
  · have heleven := hround [40, 44] 9 2 _ rfl (by decide) hnine
    rw [if_pos (by decide), if_neg (by decide)]
    exact @view_lastRound 6 _ 11 key w _ hw (by decide) _ heleven
  · have heleven := hround [40, 44] 9 2 _ rfl (by decide) hnine
    have hthirteen := hround [48, 52] 11 2 _ rfl (by decide) heleven
    rw [if_pos (by decide), if_pos (by decide)]
    exact @view_lastRound 8 _ 13 key w _ hw (by decide) _ hthirteen

section Lengths
variable {nKeyLen : Nat} (input output : Fin 16 → Byte) (stack : Schedule) (key : Nat → Byte)

theorem AESEncrypt_of_length (h : nKeyLen ∈ [16, 24, 32]) :
    AESEncrypt input output stack key nKeyLen = Rijndael.encrypt box (nKeyLen / 4) key input := by
  have hsizes : sizes (nKeyLen * 8) = some (nKeyLen / 4 + 6, nKeyLen / 4) := by
    have hall : ∀ n ∈ [16, 24, 32], sizes (n * 8) = some (n / 4 + 6, n / 4) := by decide
    exact hall nKeyLen h
  rw [AESEncrypt, if_neg fun hnot => by simp [hnot] at h]
  exact aesEncrypt_eq input hsizes (holds_aesKeySetup hsizes)

theorem AESEncrypt_of_not_length (h : nKeyLen ∉ [16, 24, 32]) :
    AESEncrypt input output stack key nKeyLen = output := by
  rw [AESEncrypt, if_pos (by simpa using h)]

end Lengths

/-- **AES.** `AES_Encrypt` is the cipher of FIPS 197 for the keys that the standard has, and
writes nothing for a key of any other length. -/
theorem AESEncrypt_eq (input output : Fin 16 → Byte) (stack : Schedule) (key : Nat → Byte) (nKeyLen : Nat) :
    AESEncrypt input output stack key nKeyLen =
      if nKeyLen ∈ [16, 24, 32] then Rijndael.encrypt box (nKeyLen / 4) key input else output := by
  split
  · exact AESEncrypt_of_length input output stack key ‹_›
  · exact AESEncrypt_of_not_length input output stack key ‹_›

/-- **AES is reversible.** Exactly for the keys that the standard has, each block is what one block and no other
is encrypted to; and that block is what the inverse cipher of the standard finds. -/
theorem AESEncrypt_reversible (output : Fin 16 → Byte) (stack : Schedule) (key : Nat → Byte) (nKeyLen : Nat) :
    (Function.Bijective (fun input => AESEncrypt input output stack key nKeyLen) ↔ nKeyLen ∈ [16, 24, 32]) ∧
      (nKeyLen ∈ [16, 24, 32] → ∀ input,
        Rijndael.decrypt box (nKeyLen / 4) key (AESEncrypt input output stack key nKeyLen) = input) := by
  refine ⟨⟨fun hbijective => ?_, fun h => ?_⟩, fun h input => ?_⟩
  · -- What the buffer held before is not a block for each input.
    by_contra hlen
    have hsame : (0 : Fin 16 → Byte) = fun _ => 1#8 := by
      apply hbijective.injective
      simp only [AESEncrypt_of_not_length _ _ _ _ hlen]
    exact absurd (congrFun hsame 0) (by decide)
  · rw [funext fun input => AESEncrypt_of_length input output stack key h]
    exact Rijndael.encrypt_bijective box (nKeyLen / 4) key
  · rw [AESEncrypt_of_length input output stack key h, Rijndael.decrypt_encrypt]

end Aes
