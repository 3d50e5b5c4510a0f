import Mathlib.Algebra.Ring.Int.Defs
import Mathlib.Algebra.Ring.Nat
import Mathlib.Tactic.Common

/- Bit fields of a register and little-endian memory. A field is given the way C
   headers give it, by a mask and a position; what its accessors do to each
   other follows once the mask is known to be a run of ones from that position
   (`Field.Spans`). Memory is a function from byte addresses; words of any size
   are read and written through their bytes, so accesses of different sizes
   overlap as they do on a device. A register file is a function whose values are
   written whole. -/
namespace Bits

/-- A field of a `w`-bit register. -/
structure Field (w : Nat) where
  mask : BitVec w
  pos : Nat
deriving DecidableEq

namespace Field

variable {w : Nat} {f g : Field w} {len : Nat} {src val v : BitVec w}

/-- `(val & MASK) >> POS` -/
def get (f : Field w) (val : BitVec w) : BitVec w := (val &&& f.mask) >>> f.pos

/-- `(val << POS) & MASK` -/
def set (f : Field w) (val : BitVec w) : BitVec w := (val <<< f.pos) &&& f.mask

/-- `(src & ~MASK) | FIELD_SET(val)` -/
def replace (f : Field w) (src val : BitVec w) : BitVec w := (src &&& ~~~f.mask) ||| f.set val

/-- The mask is `len` ones from the position on. -/
def Spans (f : Field w) (len : Nat) : Prop :=
  f.mask = (BitVec.ofNat w (2 ^ len - 1)) <<< f.pos ∧ f.pos + len ≤ w

instance : Decidable (f.Spans len) := inferInstanceAs (Decidable (_ ∧ _))

theorem Spans.mask_bit (h : f.Spans len) {i : Nat} :
    f.mask.getLsbD i = (decide (f.pos ≤ i) && decide (i < f.pos + len)) := by
  obtain ⟨hm, hw⟩ := h
  rw [hm]
  simp only [BitVec.getLsbD_shiftLeft, BitVec.getLsbD_ofNat, Nat.testBit_two_pow_sub_one]
  by_cases h₁ : f.pos ≤ i <;> by_cases h₂ : i < f.pos + len <;> grind

/-- What was put in a field is read from it. -/
theorem get_replace (h : f.Spans len) (hv : val.toNat < 2 ^ len) :
    f.get (f.replace src val) = val := by
  apply BitVec.eq_of_getLsbD_eq
  intro i hi
  have hhigh : len ≤ i → val.getLsbD i = false := fun hl =>
    Nat.testBit_lt_two_pow (Nat.lt_of_lt_of_le hv (Nat.pow_le_pow_right (by decide) hl))
  have hw := h.2
  simp only [get, replace, set, BitVec.getLsbD_ushiftRight, BitVec.getLsbD_and, BitVec.getLsbD_or,
    BitVec.getLsbD_not, BitVec.getLsbD_shiftLeft, h.mask_bit]
  by_cases hl : i < len
  · have h₁ : f.pos + i < w := by omega
    simp [hl, h₁]
  · simp [hl, hhigh (by omega)]

/-- A field is not changed through one it has no bit in common with. -/
theorem get_replace_of_disjoint (h : f.mask &&& g.mask = 0#w) :
    f.get (g.replace src val) = f.get src := by
  have hb : ∀ i, f.mask.getLsbD i = true → g.mask.getLsbD i = false := by
    intro i hf
    have := congrArg (BitVec.getLsbD · i) h
    simpa [hf] using this
  apply BitVec.eq_of_getLsbD_eq
  intro i hi
  simp only [get, replace, set, BitVec.getLsbD_ushiftRight, BitVec.getLsbD_and, BitVec.getLsbD_or,
    BitVec.getLsbD_not]
  cases hf : f.mask.getLsbD (f.pos + i) with
  | false => simp
  | true =>
    have hs : src.getLsbD (f.pos + i) = (src.getLsbD (f.pos + i) && decide (f.pos + i < w)) := by
      by_cases hlt : f.pos + i < w
      · simp [hlt]
      · simp [BitVec.getLsbD_of_ge _ _ (Nat.le_of_not_lt hlt)]
    rw [hb _ hf, hs]
    simp

/-- Bits outside a field are not changed through it. -/
theorem replace_and_of_disjoint {mask : BitVec w} (h : mask &&& g.mask = 0#w) :
    g.replace src val &&& mask = src &&& mask := by
  have hwhole : (Field.mk mask 0).get (g.replace src val) = (Field.mk mask 0).get src :=
    get_replace_of_disjoint h
  simpa [get] using hwhole

/-- A field of one bit. -/
theorem get_replace_bit (h : f.Spans 1) (hv : val.toNat < 2) : f.get (f.replace src val) = val :=
  get_replace h hv

/-- Of a value too large for the field, the low bits are put in it. -/
theorem get_replace_low (h : f.Spans len) :
    f.get (f.replace src val) = val &&& BitVec.ofNat w (2 ^ len - 1) := by
  apply BitVec.eq_of_getLsbD_eq
  intro i hi
  have hw := h.2
  simp only [get, replace, set, BitVec.getLsbD_ushiftRight, BitVec.getLsbD_and, BitVec.getLsbD_or,
    BitVec.getLsbD_not, BitVec.getLsbD_shiftLeft, h.mask_bit, BitVec.getLsbD_ofNat,
    Nat.testBit_two_pow_sub_one]
  by_cases hl : i < len
  · have h₁ : f.pos + i < w := by omega
    simp [hl, h₁, hi]
  · simp [hl]

/-- A field holds no more than its bits. -/
theorem get_lt (h : f.Spans len) : (f.get src).toNat < 2 ^ len := by
  refine Nat.lt_pow_two_of_testBit _ fun i hi => ?_
  show (f.get src).getLsbD i = false
  rw [get, BitVec.getLsbD_ushiftRight, BitVec.getLsbD_and, h.mask_bit]
  have hbeyond : ¬f.pos + i < f.pos + len := by omega
  simp [hbeyond]

/-- A field sees of a word only what a mask that covers it leaves. -/
theorem get_and_of_covers {mask : BitVec w} (h : f.mask &&& mask = f.mask) :
    f.get (src &&& mask) = f.get src := by
  rw [get, get, BitVec.and_assoc, BitVec.and_comm mask, h]

/-- A field sees nothing of a word that is masked away from it. -/
theorem get_and_of_disjoint {mask : BitVec w} (h : f.mask &&& mask = 0#w) : f.get (src &&& mask) = 0 := by
  rw [get, BitVec.and_assoc, BitVec.and_comm mask, h, BitVec.and_zero]
  exact BitVec.zero_ushiftRight

theorem get_or (v : BitVec w) : f.get (src ||| v) = f.get src ||| f.get v := by
  rw [get, get, get, BitVec.and_or_distrib_right, BitVec.ushiftRight_or_distrib]

/-- A field under a mask is read from what replaces the masked bits. -/
theorem get_merge_of_covers {mask : BitVec w} (h : f.mask &&& mask = f.mask) :
    f.get (src &&& ~~~mask ||| val) = f.get val := by
  have hclear : (src &&& ~~~mask) &&& f.mask = 0#w := by
    rw [← h, BitVec.and_comm f.mask, BitVec.and_assoc, ← BitVec.and_assoc (~~~mask),
      BitVec.and_comm (~~~mask), BitVec.and_not_self]
    simp
  rw [get, get, BitVec.and_or_distrib_right, hclear, BitVec.zero_or]

/-- A field beside the mask keeps its value. -/
theorem get_merge_of_disjoint {mask : BitVec w} (h : f.mask &&& mask = 0#w)
    (hval : val &&& mask = val) : f.get (src &&& ~~~mask ||| val) = f.get src := by
  have hnone : val &&& f.mask = 0#w := by
    rw [← hval, BitVec.and_assoc, BitVec.and_comm mask, h, BitVec.and_zero]
  have hkeep : (src &&& ~~~mask) &&& f.mask = src &&& f.mask := by
    rw [BitVec.and_assoc, BitVec.and_comm (~~~mask)]
    refine congrArg (src &&& ·) ?_
    apply BitVec.eq_of_getLsbD_eq
    intro i hi
    have hbit := congrArg (BitVec.getLsbD · i) h
    simp only [BitVec.getLsbD_and, BitVec.getLsbD_zero] at hbit
    simp only [BitVec.getLsbD_and, BitVec.getLsbD_not, hi, decide_true, Bool.true_and]
    cases hf : f.mask.getLsbD i <;> simp [hf] at hbit ⊢
    exact hbit
  rw [get, get, BitVec.and_or_distrib_right, hnone, BitVec.or_zero, hkeep]

/-- A field of one bit shows that bit. -/
theorem getLsbD_get_bit (h : f.Spans 1) (i : Nat) :
    (f.get src).getLsbD i = (decide (i = 0) && src.getLsbD f.pos) := by
  rw [get, BitVec.getLsbD_ushiftRight, BitVec.getLsbD_and, h.mask_bit]
  by_cases hi : i = 0
  · subst hi
    simp
  · simp [hi, show ¬f.pos + i < f.pos + 1 by omega]

theorem getLsbD_replace_bit (h : f.Spans 1) : (f.replace src val).getLsbD f.pos = val.getLsbD 0 := by
  have hbit := @getLsbD_get_bit w f (f.replace src val) h 0
  have hpos : 0 < w := by have := h.2; omega
  rw [get_replace_low h, BitVec.getLsbD_and] at hbit
  simpa [hpos] using hbit.symm

theorem get_bit_eq_zero_iff (h : f.Spans 1) : f.get src = 0 ↔ src.getLsbD f.pos = false := by
  constructor
  · intro hzero
    have hbit := @getLsbD_get_bit w f src h 0
    rw [hzero] at hbit
    simpa using hbit.symm
  · intro hbit
    apply BitVec.eq_of_getLsbD_eq
    intro i _
    rw [getLsbD_get_bit h i, hbit, Bool.and_false]
    simp

/-- The bits of a field, cut out of the word. -/
theorem extract_of_get {x : BitVec len} (h : f.Spans len) (hget : f.get src = x.setWidth w) :
    src.extractLsb' f.pos len = x := by
  apply BitVec.eq_of_getLsbD_eq
  intro i hi
  have hw := h.2
  have hbit : (f.get src).getLsbD i = x.getLsbD i := by
    rw [hget, BitVec.getLsbD_setWidth]
    simp only [show i < w by omega, decide_true, Bool.true_and]
  rw [← hbit, get, BitVec.getLsbD_ushiftRight, BitVec.getLsbD_and, h.mask_bit]
  simp [hi]

end Field

/-! ## Single bits -/

section SingleBit
variable {w pos i : Nat} {v : BitVec w}

/-- The other bits of a word, where one is set or cleared. -/
theorem getLsbD_one_shiftLeft (i pos : Nat) :
    (1#w <<< pos).getLsbD i = (decide (i = pos) && decide (i < w)) := by
  have hone : 1#w <<< pos = BitVec.twoPow w pos := BitVec.twoPow_eq w pos |>.symm
  rw [hone, BitVec.getLsbD_twoPow]
  by_cases hi : i = pos
  · subst hi
    simp
  · simp [hi, Ne.symm hi]

theorem getLsbD_setBit_of_ne (h : i ≠ pos) : (v ||| 1#w <<< pos).getLsbD i = v.getLsbD i := by
  rw [BitVec.getLsbD_or, getLsbD_one_shiftLeft]
  simp [h]

theorem getLsbD_clearBit_of_ne (h : i ≠ pos) :
    (v &&& ~~~(1#w <<< pos)).getLsbD i = v.getLsbD i := by
  rw [BitVec.getLsbD_and, BitVec.getLsbD_not, getLsbD_one_shiftLeft]
  by_cases hi : i < w
  · simp [h, hi]
  · simp [BitVec.getLsbD_of_ge v i (Nat.le_of_not_lt hi)]

theorem getLsbD_setBit (h : pos < w) : (v ||| 1#w <<< pos).getLsbD pos = true := by
  rw [BitVec.getLsbD_or, getLsbD_one_shiftLeft]
  simp [h]

theorem getLsbD_clearBit : (v &&& ~~~(1#w <<< pos)).getLsbD pos = false := by
  rw [BitVec.getLsbD_and, BitVec.getLsbD_not, getLsbD_one_shiftLeft]
  by_cases hi : pos < w <;> simp [hi]

end SingleBit

/-- What is left of a value whose low bits pass through another word. -/
theorem setWidth_low {n w len : Nat} (v : BitVec n) (hlen : len ≤ w) :
    (v.setWidth w &&& BitVec.ofNat w (2 ^ len - 1)).setWidth n = v &&& BitVec.ofNat n (2 ^ len - 1) := by
  apply BitVec.eq_of_getLsbD_eq
  intro i hi
  simp only [BitVec.getLsbD_setWidth, BitVec.getLsbD_and, BitVec.getLsbD_ofNat,
    Nat.testBit_two_pow_sub_one]
  by_cases hl : i < len
  · simp [hl, hi, show i < w by omega]
  · simp [hl]

theorem and_low_eq_self_iff {n len : Nat} {v : BitVec n} :
    v &&& BitVec.ofNat n (2 ^ len - 1) = v ↔ v.toNat < 2 ^ len := by
  constructor
  · intro h
    refine Nat.lt_pow_two_of_testBit _ fun i hi => ?_
    have hbit := congrArg (BitVec.getLsbD · i) h
    simp only [BitVec.getLsbD_and, BitVec.getLsbD_ofNat, Nat.testBit_two_pow_sub_one,
      show ¬i < len by omega, decide_false, Bool.and_false] at hbit
    exact hbit.symm
  · intro h
    apply BitVec.eq_of_getLsbD_eq
    intro i hi
    simp only [BitVec.getLsbD_and, BitVec.getLsbD_ofNat, Nat.testBit_two_pow_sub_one]
    by_cases hl : i < len
    · simp [hl, hi]
    · have hhigh : v.getLsbD i = false :=
        Nat.testBit_lt_two_pow (Nat.lt_of_lt_of_le h (Nat.pow_le_pow_right (by decide) (by omega)))
      simp [hhigh]

/-- The low bits of a word, and the word without them. -/
theorem toNat_and_low {n len : Nat} (v : BitVec n) : (v &&& BitVec.ofNat n (2 ^ len - 1)).toNat = v.toNat % 2 ^ len := by
  apply Nat.eq_of_testBit_eq
  intro i
  rw [Nat.testBit_mod_two_pow]
  show (v &&& BitVec.ofNat n (2 ^ len - 1)).getLsbD i = (decide (i < len) && v.getLsbD i)
  rw [BitVec.getLsbD_and, BitVec.getLsbD_ofNat, Nat.testBit_two_pow_sub_one]
  by_cases hi : i < n
  · simp [hi, Bool.and_comm]
  · simp [BitVec.getLsbD_of_ge v i (Nat.le_of_not_lt hi)]

theorem toNat_and_not_low {n len : Nat} (v : BitVec n) :
    (v &&& ~~~BitVec.ofNat n (2 ^ len - 1)).toNat = v.toNat / 2 ^ len * 2 ^ len := by
  apply Nat.eq_of_testBit_eq
  intro i
  show (v &&& ~~~BitVec.ofNat n (2 ^ len - 1)).getLsbD i = _
  rw [Nat.testBit_mul_two_pow, Nat.testBit_div_two_pow, BitVec.getLsbD_and, BitVec.getLsbD_not, BitVec.getLsbD_ofNat,
    Nat.testBit_two_pow_sub_one]
  by_cases hi : i < n
  · by_cases hl : i < len
    · simp [hi, hl, show ¬len ≤ i by omega]
    · have hback : i - len + len = i := by omega
      simp [hi, hl, show len ≤ i by omega, hback, BitVec.getLsbD]
  · have hout : v.getLsbD i = false := BitVec.getLsbD_of_ge v i (Nat.le_of_not_lt hi)
    by_cases hl : len ≤ i
    · have hback : i - len + len = i := by omega
      rw [hout, hback]
      simpa [hl, BitVec.getLsbD] using hout
    · simp [hout, hl]
/-- A value survives the low bits of another word if and only if it has no others. -/
theorem setWidth_low_eq_self_iff {n w len : Nat} {v : BitVec n} (hlen : len ≤ w) :
    (v.setWidth w &&& BitVec.ofNat w (2 ^ len - 1)).setWidth n = v ↔ v.toNat < 2 ^ len := by
  rw [setWidth_low v hlen, and_low_eq_self_iff]

/-- A small value passes through a narrower word. -/
theorem setWidth_setWidth_of_lt {m n : Nat} {v : BitVec n} (h : v.toNat < 2 ^ m) :
    (v.setWidth m).setWidth n = v := by
  apply BitVec.eq_of_toNat_eq
  rw [BitVec.toNat_setWidth, BitVec.toNat_setWidth, Nat.mod_eq_of_lt h, Nat.mod_eq_of_lt v.isLt]

/-! ## Little-endian memory -/

/-- Memory, by byte address. -/
abbrev Mem := Nat → BitVec 8

namespace Mem

variable {m m' : Mem} {a b n k : Nat}

/-- The `n` bytes from `a` on, the first one lowest. -/
def load (m : Mem) (a : Nat) : (n : Nat) → BitVec (8 * n)
  | 0 => 0
  | n + 1 => load m (a + 1) n ++ m a

/-- `m` with the `n` bytes of `v` from `a` on. -/
def store (m : Mem) (a n : Nat) (v : BitVec (8 * n)) : Mem := fun x =>
  if a ≤ x ∧ x < a + n then v.extractLsb' (8 * (x - a)) 8 else m x

theorem load_bit {i : Nat} (h : i < 8 * n) :
    (load m a n).getLsbD i = (m (a + i / 8)).getLsbD (i % 8) := by
  induction n generalizing a i with
  | zero => omega
  | succ n ih =>
    rw [load, BitVec.getLsbD_append]
    by_cases hi : i < 8
    · simp [hi, Nat.div_eq_of_lt hi, Nat.mod_eq_of_lt hi]
    · rw [if_neg hi, ih (by omega)]
      have h₁ : a + 1 + (i - 8) / 8 = a + i / 8 := by omega
      have h₂ : (i - 8) % 8 = i % 8 := by omega
      rw [h₁, h₂]

theorem load_congr (h : ∀ x, a ≤ x → x < a + n → m x = m' x) : load m a n = load m' a n := by
  apply BitVec.eq_of_getLsbD_eq
  intro i hi
  rw [load_bit hi, load_bit hi, h _ (by omega) (by omega)]

theorem load_store_same (v : BitVec (8 * n)) : load (store m a n v) a n = v := by
  apply BitVec.eq_of_getLsbD_eq
  intro i hi
  rw [load_bit hi, store, if_pos (by omega), BitVec.getLsbD_extractLsb']
  have h₁ : 8 * (i / 8) + i % 8 = i := Nat.div_add_mod i 8
  have h₂ : i % 8 < 8 := Nat.mod_lt _ (by decide)
  simp [h₁, h₂]

theorem load_store_of_disjoint {v : BitVec (8 * k)} (h : a + n ≤ b ∨ b + k ≤ a) :
    load (store m b k v) a n = load m a n := by
  apply load_congr
  intro x h₁ h₂
  rw [store, if_neg (by omega)]

/-- A 16-bit register. -/
def load16 (m : Mem) (a : Nat) : BitVec 16 := load m a 2

/-- A 32-bit register. -/
def load32 (m : Mem) (a : Nat) : BitVec 32 := load m a 4

def store16 (m : Mem) (a : Nat) (v : BitVec 16) : Mem := store m a 2 v

def store32 (m : Mem) (a : Nat) (v : BitVec 32) : Mem := store m a 4 v

@[simp] theorem load32_store32_same (v : BitVec 32) : load32 (store32 m a v) a = v :=
  load_store_same (show BitVec (8 * 4) from v)

@[simp] theorem load16_store16_same (v : BitVec 16) : load16 (store16 m a v) a = v :=
  load_store_same (show BitVec (8 * 2) from v)

theorem load32_store32_of_disjoint {v : BitVec 32} (h : a + 4 ≤ b ∨ b + 4 ≤ a) :
    load32 (store32 m b v) a = load32 m a := load_store_of_disjoint h

theorem load16_store16_of_disjoint {v : BitVec 16} (h : a + 2 ≤ b ∨ b + 2 ≤ a) :
    load16 (store16 m b v) a = load16 m a := load_store_of_disjoint h

/-! ## Tables of words -/

/-- The words of `ws`, one after the other from `a` on. -/
def storeWords (m : Mem) (a : Nat) : List (BitVec 32) → Mem
  | [] => m
  | w :: ws => storeWords (store32 m a w) (a + 4) ws

/-- The `n` words from `a` on. -/
def loadWords (m : Mem) (a : Nat) : (n : Nat) → List (BitVec 32)
  | 0 => []
  | n + 1 => load32 m a :: loadWords m (a + 4) n

@[simp] theorem length_loadWords : (loadWords m a n).length = n := by
  induction n generalizing a with
  | zero => rfl
  | succ n ih => rw [loadWords, List.length_cons, ih]

theorem store_apply_of_disjoint {v : BitVec (8 * k)} {x : Nat} (h : x < b ∨ b + k ≤ x) :
    store m b k v x = m x := by
  rw [store, if_neg (by omega)]

theorem loadWords_congr (h : ∀ x, a ≤ x → x < a + 4 * n → m x = m' x) :
    loadWords m a n = loadWords m' a n := by
  induction n generalizing a with
  | zero => rfl
  | succ n ih =>
    rw [loadWords, loadWords, ih fun x h₁ h₂ => h x (by omega) (by omega)]
    exact congrArg (· :: _) (load_congr fun x h₁ h₂ => h x h₁ (by omega))

theorem load32_storeWords_of_disjoint {ws : List (BitVec 32)}
    (h : a + 4 ≤ b ∨ b + 4 * ws.length ≤ a) : load32 (storeWords m b ws) a = load32 m a := by
  induction ws generalizing m b with
  | nil => rfl
  | cons w ws ih =>
    rw [List.length_cons] at h
    rw [storeWords, ih (by omega), load32_store32_of_disjoint (by omega)]

theorem loadWords_storeWords (ws : List (BitVec 32)) :
    loadWords (storeWords m a ws) a ws.length = ws := by
  induction ws generalizing m a with
  | nil => rfl
  | cons w ws ih =>
    rw [List.length_cons, storeWords, loadWords, ih, load32_storeWords_of_disjoint (.inl (by omega)),
      load32_store32_same]

/-- Word `k` of a table is at `a + 4k`. -/
theorem load32_storeWords {ws : List (BitVec 32)} (hk : k < ws.length) :
    load32 (storeWords m a ws) (a + 4 * k) = ws[k] := by
  induction ws generalizing m a k with
  | nil => simp at hk
  | cons w ws ih =>
    cases k with
    | zero =>
      rw [storeWords, load32_storeWords_of_disjoint (.inl (by omega))]
      exact load32_store32_same w
    | succ k =>
      have ha : a + 4 * (k + 1) = a + 4 + 4 * k := by omega
      rw [storeWords, ha, ih (by simpa using hk)]
      rfl

/-- The words of a list, zero past its end. -/
def rawWords (l : List (BitVec 32)) : Nat → BitVec 32 := fun i => l.getD i 0

theorem load32_storeWords_eq {ws : List (BitVec 32)} (hk : k < ws.length) :
    load32 (storeWords m a ws) (a + 4 * k) = rawWords ws k := by
  rw [load32_storeWords hk, rawWords, List.getD_eq_getElem?_getD, List.getElem?_eq_getElem hk]
  rfl

/-! ## Half-words -/

/-- Two half-words that do not overlap. -/
def Apart (a b : Nat) : Prop := a + 2 ≤ b ∨ b + 2 ≤ a

instance (a b : Nat) : Decidable (Apart a b) := inferInstanceAs (Decidable (_ ∨ _))

/-- `m` with some half-words stored, the first one first. -/
def stores16 (m : Mem) (l : List (Nat × BitVec 16)) : Mem := l.foldl (fun m w => store16 m w.1 w.2) m

theorem load16_stores16_of_apart {l : List (Nat × BitVec 16)} (h : ∀ b ∈ l.map Prod.fst, Apart a b) :
    load16 (stores16 m l) a = load16 m a := by
  induction l generalizing m with
  | nil => rfl
  | cons w l ih =>
    calc load16 (stores16 (store16 m w.1 w.2) l) a
        = load16 (store16 m w.1 w.2) a := ih fun b hb => h b (List.mem_cons_of_mem _ hb)
      _ = load16 m a := load16_store16_of_disjoint (h w.1 List.mem_cons_self)

/-- A half-word that is stored once is what is loaded. -/
theorem load16_stores16_of_mem {l : List (Nat × BitVec 16)} {v : BitVec 16}
    (hapart : (l.map Prod.fst).Pairwise Apart) (h : (a, v) ∈ l) : load16 (stores16 m l) a = v := by
  induction l generalizing m with
  | nil => cases h
  | cons w l ih =>
    rw [List.map_cons, List.pairwise_cons] at hapart
    rcases List.mem_cons.mp h with heq | hmem
    · subst heq
      calc load16 (stores16 (store16 m a v) l) a
          = load16 (store16 m a v) a := load16_stores16_of_apart hapart.1
        _ = v := load16_store16_same v
    · exact ih hapart.2 hmem

/-- A byte that no half-word covers stays. -/
theorem stores16_apply_of_apart {l : List (Nat × BitVec 16)} {x : Nat}
    (h : ∀ b ∈ l.map Prod.fst, x < b ∨ b + 2 ≤ x) : stores16 m l x = m x := by
  induction l generalizing m with
  | nil => rfl
  | cons w l ih =>
    calc stores16 (store16 m w.1 w.2) l x
        = store16 m w.1 w.2 x := ih fun b hb => h b (List.mem_cons_of_mem _ hb)
      _ = m x := store_apply_of_disjoint (h w.1 List.mem_cons_self)

end Mem

/-! ## Packed values -/

/-- Values one after the other in a word from bit `pos` on: the bit fields of a C struct on a
little-endian host. -/
def packFrom (w : Nat) : (pos : Nat) → List (Σ n, BitVec n) → BitVec w
  | _, [] => 0
  | pos, ⟨n, v⟩ :: vs => v.setWidth w <<< pos ||| packFrom w (pos + n) vs

section Pack
variable {w pos n : Nat} {v : BitVec n} {vs : List (Σ n, BitVec n)}

theorem packFrom_low {i : Nat} (h : i < pos) : (packFrom w pos vs).getLsbD i = false := by
  induction vs generalizing pos with
  | nil => simp [packFrom]
  | cons f vs ih =>
    rw [packFrom, BitVec.getLsbD_or, BitVec.getLsbD_shiftLeft, ih (by omega)]
    simp [h]

/-- The first value is read where it was put. -/
theorem extract_packFrom_cons (h : pos + n ≤ w) :
    (packFrom w pos (⟨n, v⟩ :: vs)).extractLsb' pos n = v := by
  apply BitVec.eq_of_getLsbD_eq
  intro i hi
  have hlater : (packFrom w (pos + n) vs).getLsbD (pos + i) = false := packFrom_low (by omega)
  have hpos : pos + i < w := by omega
  have hw : i < w := by omega
  rw [BitVec.getLsbD_extractLsb', packFrom, BitVec.getLsbD_or, hlater, BitVec.getLsbD_shiftLeft]
  simp [hi, hpos, hw]

/-- The values after the first are read past it. -/
theorem extract_packFrom_skip {q k : Nat} (h : pos + n ≤ q) :
    (packFrom w pos (⟨n, v⟩ :: vs)).extractLsb' q k = (packFrom w (pos + n) vs).extractLsb' q k := by
  apply BitVec.eq_of_getLsbD_eq
  intro i hi
  have hfirst : v.getLsbD (q + i - pos) = false := BitVec.getLsbD_of_ge _ _ (by omega)
  simp [packFrom, hfirst]

end Pack

/-! ## Register files -/

section RegisterFile
variable {ι α : Type} [DecidableEq ι] {f : ι → α} {l₁ l₂ : List (ι × α)} {reg : ι}

/-- A register file after some writes, the first one first. -/
def writes (f : ι → α) (l : List (ι × α)) : ι → α :=
  l.foldl (fun f w => Function.update f w.1 w.2) f

theorem writes_append : writes f (l₁ ++ l₂) = writes (writes f l₁) l₂ := List.foldl_append

/-- What is not written stays. -/
theorem writes_of_notMem {l : List (ι × α)} (h : reg ∉ l.map Prod.fst) : writes f l reg = f reg := by
  induction l generalizing f with
  | nil => rfl
  | cons w l ih =>
    rw [List.map_cons, List.mem_cons, not_or] at h
    calc writes (Function.update f w.1 w.2) l reg
        = Function.update f w.1 w.2 reg := ih h.2
      _ = f reg := Function.update_of_ne h.1 _ _

/-- What is written once is what is read. -/
theorem writes_of_mem {l : List (ι × α)} {v : α} (hnodup : (l.map Prod.fst).Nodup)
    (h : (reg, v) ∈ l) : writes f l reg = v := by
  induction l generalizing f with
  | nil => cases h
  | cons w l ih =>
    rw [List.map_cons, List.nodup_cons] at hnodup
    rcases List.mem_cons.mp h with heq | hmem
    · subst heq
      calc writes (Function.update f reg v) l reg
          = Function.update f reg v reg := writes_of_notMem hnodup.1
        _ = v := Function.update_self _ _ _
    · exact ih hnodup.2 hmem

end RegisterFile

end Bits
