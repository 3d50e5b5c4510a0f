import MxlUtils.Gphy.Msec.Types
import Mathlib.Data.List.GetD

/- The four layouts of a hardware transform record. `words` is the record as the
   driver writes it, `overlay` the C struct read back over raw words. The names of
   the header carry the key length; `n` is the number of key words, 4 or 8, and
   the reserved tail fills the record to its fixed size. -/
namespace Gpy2xx
open Effect Bits
open Bits.Mem (rawWords)

/-- `struct ing_tr_32bpn_128bak`, `struct ing_tr_32bpn_256bak` -/
structure IngTr32bpn (n : Nat) where
  ccw : BitVec 32
  ctxId : BitVec 32
  key : Words n
  hkey : Words 4
  seq : BitVec 32
  mask : BitVec 32
  iv0 : BitVec 32
  iv1 : BitVec 32
  res0 : Words (10 - n)

abbrev IngTr32bpn128bak := IngTr32bpn 4
abbrev IngTr32bpn256bak := IngTr32bpn 8

/-- `struct ing_tr_64bpn_128bak`, `struct ing_tr_64bpn_256bak` -/
structure IngTr64bpn (n : Nat) where
  ccw : BitVec 32
  ctxId : BitVec 32
  key : Words n
  hkey : Words 4
  seq0 : BitVec 32
  seq1 : BitVec 32
  mask : BitVec 32
  iv0 : BitVec 32
  iv1 : BitVec 32
  iv2 : BitVec 32
  res : Words (8 - n)

abbrev IngTr64bpn128bak := IngTr64bpn 4
abbrev IngTr64bpn256bak := IngTr64bpn 8

/-- `struct egr_tr_32bpn_128bak`, `struct egr_tr_32bpn_256bak` -/
structure EgrTr32bpn (n : Nat) where
  ccw : BitVec 32
  ctxId : BitVec 32
  key : Words n
  hkey : Words 4
  seq : BitVec 32
  iv0 : BitVec 32
  iv1 : BitVec 32
  res0 : Words 2
  saUpdCtrl : BitVec 32
  res1 : Words (12 - n)

abbrev EgrTr32bpn128bak := EgrTr32bpn 4
abbrev EgrTr32bpn256bak := EgrTr32bpn 8

/-- `struct egr_tr_64bpn_128bak`, `struct egr_tr_64bpn_256bak` -/
structure EgrTr64bpn (n : Nat) where
  ccw : BitVec 32
  ctxId : BitVec 32
  key : Words n
  hkey : Words 4
  seq0 : BitVec 32
  seq1 : BitVec 32
  res0 : BitVec 32
  is0 : BitVec 32
  is1 : BitVec 32
  is2 : BitVec 32
  iv0 : BitVec 32
  iv1 : BitVec 32
  res1 : BitVec 32
  saUpdCtrl : BitVec 32
  res2 : Words (8 - n)

abbrev EgrTr64bpn128bak := EgrTr64bpn 4
abbrev EgrTr64bpn256bak := EgrTr64bpn 8

/-! ## A struct as words -/

def IngTr32bpn.words {n : Nat} (s : IngTr32bpn n) : List (BitVec 32) :=
  [s.ccw, s.ctxId] ++ (List.ofFn s.key ++ (List.ofFn s.hkey ++
    ([s.seq, s.mask, s.iv0, s.iv1] ++ List.ofFn s.res0)))

def IngTr64bpn.words {n : Nat} (s : IngTr64bpn n) : List (BitVec 32) :=
  [s.ccw, s.ctxId] ++ (List.ofFn s.key ++ (List.ofFn s.hkey ++
    ([s.seq0, s.seq1, s.mask, s.iv0, s.iv1, s.iv2] ++ List.ofFn s.res)))

def EgrTr32bpn.words {n : Nat} (s : EgrTr32bpn n) : List (BitVec 32) :=
  [s.ccw, s.ctxId] ++ (List.ofFn s.key ++ (List.ofFn s.hkey ++
    ([s.seq, s.iv0, s.iv1] ++ (List.ofFn s.res0 ++ ([s.saUpdCtrl] ++ List.ofFn s.res1)))))

def EgrTr64bpn.words {n : Nat} (s : EgrTr64bpn n) : List (BitVec 32) :=
  [s.ccw, s.ctxId] ++ (List.ofFn s.key ++ (List.ofFn s.hkey ++
    ([s.seq0, s.seq1, s.res0, s.is0, s.is1, s.is2, s.iv0, s.iv1, s.res1, s.saUpdCtrl] ++
      List.ofFn s.res2)))

/-! ## Sizes -/

theorem IngTr32bpn.length_words {n : Nat} (s : IngTr32bpn n) (h : n ≤ 8) : s.words.length = 20 := by
  simp only [words, List.length_append, List.length_ofFn, List.length_cons, List.length_nil]
  omega

theorem IngTr64bpn.length_words {n : Nat} (s : IngTr64bpn n) (h : n ≤ 8) : s.words.length = 20 := by
  simp only [words, List.length_append, List.length_ofFn, List.length_cons, List.length_nil]
  omega

theorem EgrTr32bpn.length_words {n : Nat} (s : EgrTr32bpn n) (h : n ≤ 8) : s.words.length = 24 := by
  simp only [words, List.length_append, List.length_ofFn, List.length_cons, List.length_nil]
  omega

theorem EgrTr64bpn.length_words {n : Nat} (s : EgrTr64bpn n) (h : n ≤ 8) : s.words.length = 24 := by
  simp only [words, List.length_append, List.length_ofFn, List.length_cons, List.length_nil]
  omega

/-! ## A struct over raw words -/

def IngTr32bpn.overlay (n : Nat) (r : Nat → BitVec 32) : IngTr32bpn n where
  ccw := r 0
  ctxId := r 1
  key i := r (i + 2)
  hkey i := r (i + n + 2)
  seq := r (4 + n + 2)
  mask := r (5 + n + 2)
  iv0 := r (6 + n + 2)
  iv1 := r (7 + n + 2)
  res0 i := r (i + 8 + n + 2)

def IngTr64bpn.overlay (n : Nat) (r : Nat → BitVec 32) : IngTr64bpn n where
  ccw := r 0
  ctxId := r 1
  key i := r (i + 2)
  hkey i := r (i + n + 2)
  seq0 := r (4 + n + 2)
  seq1 := r (5 + n + 2)
  mask := r (6 + n + 2)
  iv0 := r (7 + n + 2)
  iv1 := r (8 + n + 2)
  iv2 := r (9 + n + 2)
  res i := r (i + 10 + n + 2)

def EgrTr32bpn.overlay (n : Nat) (r : Nat → BitVec 32) : EgrTr32bpn n where
  ccw := r 0
  ctxId := r 1
  key i := r (i + 2)
  hkey i := r (i + n + 2)
  seq := r (4 + n + 2)
  iv0 := r (5 + n + 2)
  iv1 := r (6 + n + 2)
  res0 i := r (i + 7 + n + 2)
  saUpdCtrl := r (9 + n + 2)
  res1 i := r (i + 10 + n + 2)

def EgrTr64bpn.overlay (n : Nat) (r : Nat → BitVec 32) : EgrTr64bpn n where
  ccw := r 0
  ctxId := r 1
  key i := r (i + 2)
  hkey i := r (i + n + 2)
  seq0 := r (4 + n + 2)
  seq1 := r (5 + n + 2)
  res0 := r (6 + n + 2)
  is0 := r (7 + n + 2)
  is1 := r (8 + n + 2)
  is2 := r (9 + n + 2)
  iv0 := r (10 + n + 2)
  iv1 := r (11 + n + 2)
  res1 := r (12 + n + 2)
  saUpdCtrl := r (13 + n + 2)
  res2 i := r (i + 14 + n + 2)

section Raw
variable {n : Nat} (w : BitVec 32) (l : List (BitVec 32)) (f : Words n)

@[simp] theorem rawWords_cons_zero : rawWords (w :: l) 0 = w := rfl

@[simp] theorem rawWords_cons_succ (i : Nat) : rawWords (w :: l) (i + 1) = rawWords l i := rfl

theorem rawWords_ofFn (i : Fin n) : rawWords (List.ofFn f ++ l) i = f i := by
  have hi : i.val < (List.ofFn f).length := by rw [List.length_ofFn]; exact i.isLt
  rw [rawWords, List.getD_append _ _ _ _ hi, List.getD_eq_getElem _ _ hi, List.getElem_ofFn]

theorem rawWords_ofFn_add (i : Nat) : rawWords (List.ofFn f ++ l) (i + n) = rawWords l i := by
  rw [rawWords, List.getD_append_right _ _ _ _ (by rw [List.length_ofFn]; omega), List.length_ofFn,
    Nat.add_sub_cancel, rawWords]

/-- Past the hash key, for a literal index. -/
theorem rawWords_four (f : Words 4) (i : Nat) :
    rawWords (List.ofFn f ++ l) (i + 4) = rawWords l i := rawWords_ofFn_add l f i

theorem rawWords_two (f : Words 2) (i : Nat) :
    rawWords (List.ofFn f ++ l) (i + 2) = rawWords l i := rawWords_ofFn_add l f i

end Raw

/-! ## Reading back what was laid out -/

theorem IngTr32bpn.overlay_words {n : Nat} (s : IngTr32bpn n) (l : List (BitVec 32)) :
    overlay n (rawWords (s.words ++ l)) = s := by
  simp only [overlay, words, List.cons_append, List.nil_append, List.append_assoc,
    rawWords_cons_succ, rawWords_cons_zero, rawWords_four,
    rawWords_ofFn_add, rawWords_ofFn]

theorem IngTr64bpn.overlay_words {n : Nat} (s : IngTr64bpn n) (l : List (BitVec 32)) :
    overlay n (rawWords (s.words ++ l)) = s := by
  simp only [overlay, words, List.cons_append, List.nil_append, List.append_assoc,
    rawWords_cons_succ, rawWords_cons_zero, rawWords_four,
    rawWords_ofFn_add, rawWords_ofFn]

theorem EgrTr32bpn.overlay_words {n : Nat} (s : EgrTr32bpn n) (l : List (BitVec 32)) :
    overlay n (rawWords (s.words ++ l)) = s := by
  simp only [overlay, words, List.cons_append, List.nil_append, List.append_assoc,
    rawWords_cons_succ, rawWords_cons_zero, rawWords_four, rawWords_two, rawWords_ofFn_add,
    rawWords_ofFn]

theorem EgrTr64bpn.overlay_words {n : Nat} (s : EgrTr64bpn n) (l : List (BitVec 32)) :
    overlay n (rawWords (s.words ++ l)) = s := by
  simp only [overlay, words, List.cons_append, List.nil_append, List.append_assoc,
    rawWords_cons_succ, rawWords_cons_zero, rawWords_four,
    rawWords_ofFn_add, rawWords_ofFn]

end Gpy2xx
