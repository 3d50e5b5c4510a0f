import Mathlib.Algebra.Ring.Int.Defs
import Mathlib.Algebra.Ring.Nat
import Mathlib.Data.List.Pairwise

/- Memory with bytes nobody has written. A copy takes over what its source holds, so a byte that
   was never written stays unknown however often it is copied. -/
namespace Heap

/-- What the memory holds at each address; `none` is a byte that was never written. -/
abbrev Cells := Int → Option UInt8

/-- Memory as it comes from an allocation. -/
def fresh : Cells := fun _ => none

/-- `len` bytes of `src` to the address `dst`. -/
structure Copy where
  dst : Int
  len : Nat
  src : Nat → Option UInt8

namespace Copy

def Covers (c : Copy) (a : Int) : Prop := c.dst ≤ a ∧ a < c.dst + c.len

instance (c : Copy) (a : Int) : Decidable (c.Covers a) := inferInstanceAs (Decidable (_ ∧ _))

def run (m : Cells) (c : Copy) : Cells := fun a =>
  if c.Covers a then c.src (a - c.dst).toNat else m a

/-- The bytes of `bs` to the address `dst`. -/
def ofList (dst : Int) (bs : List UInt8) : Copy := ⟨dst, bs.length, fun i => bs[i]?⟩

def Apart (c d : Copy) : Prop := c.dst + c.len ≤ d.dst ∨ d.dst + d.len ≤ c.dst

end Copy

variable {m : Cells} {a : Int}

def runs (m : Cells) (cs : List Copy) : Cells := cs.foldl Copy.run m

theorem runs_outside {cs : List Copy} (h : ∀ c ∈ cs, ¬ c.Covers a) : runs m cs a = m a := by
  induction cs generalizing m with
  | nil => rfl
  | cons c cs ih =>
    have hc : Copy.run m c a = m a := if_neg (h c List.mem_cons_self)
    have hrest := ih (m := Copy.run m c) fun d hd => h d (List.mem_cons_of_mem c hd)
    exact hrest.trans hc

/-- Copies that keep apart are all found in the end. -/
theorem runs_of_mem {cs : List Copy} (hapart : cs.Pairwise Copy.Apart) {c : Copy} (hc : c ∈ cs)
    {i : Nat} (hi : i < c.len) : runs m cs (c.dst + i) = c.src i := by
  induction cs generalizing m with
  | nil => simp at hc
  | cons d cs ih =>
    obtain ⟨hd, hcs⟩ := List.pairwise_cons.mp hapart
    rcases List.mem_cons.mp hc with heq | hmem
    · have hrest : ∀ d' ∈ cs, ¬ d'.Covers (c.dst + i) := by
        intro d' hd' hcov
        have := hd d' hd'
        simp only [← heq, Copy.Apart, Copy.Covers] at this hcov
        omega
      have hcov : d.Covers (c.dst + i) := by
        simp only [← heq, Copy.Covers]
        omega
      calc runs m (d :: cs) (c.dst + i)
          = Copy.run m d (c.dst + i) := runs_outside hrest
        _ = d.src (c.dst + i - d.dst).toNat := if_pos hcov
        _ = c.src i := by rw [← heq, show c.dst + (i : Int) - c.dst = i by omega, Int.toNat_natCast]
    · exact ih hcs hmem

/-! ## Reading back -/

/-- `n` bytes from the address `a` on, if all of them were written. -/
def read (m : Cells) (a : Int) : Nat → Option (List UInt8)
  | 0 => some []
  | n + 1 => do
    let b ← m a
    let bs ← read m (a + 1) n
    pure (b :: bs)

theorem read_eq {bs : List UInt8} (h : ∀ i < bs.length, m (a + i) = bs[i]?) :
    read m a bs.length = some bs := by
  induction bs generalizing a with
  | nil => rfl
  | cons b bs ih =>
    have hb : m a = some b := by simpa using h 0 (Nat.succ_pos _)
    have hbs : read m (a + 1) bs.length = some bs := by
      apply ih
      intro i hi
      have := h (i + 1) (by simpa using hi)
      rw [List.getElem?_cons_succ] at this
      rw [← this]
      congr 1
      omega
    simp [read, hb, hbs]

theorem read_eq_none {i n : Nat} (hi : i < n) (h : m (a + i) = none) : read m a n = none := by
  induction n generalizing a i with
  | zero => omega
  | succ n ih =>
    cases i with
    | zero =>
      have : m a = none := by simpa using h
      simp [read, this]
    | succ i =>
      have : read m (a + 1) n = none := by
        apply ih (i := i) (by omega)
        rw [← h]
        congr 1
        omega
      cases hma : m a <;> simp [read, hma, this]

/-- A number of 32 bits as it lies in memory. -/
def wordBytes (v : BitVec 32) : List UInt8 :=
  (List.range 4).map fun i => UInt8.ofNat (v.toNat / 256 ^ i)

def wordOf (bs : List UInt8) : Nat := bs.foldr (fun b n => b.toNat + 256 * n) 0

@[simp] theorem length_wordBytes (v : BitVec 32) : (wordBytes v).length = 4 := rfl

theorem wordOf_wordBytes (v : BitVec 32) : wordOf (wordBytes v) = v.toNat := by
  have := v.isLt
  simp only [wordBytes, wordOf, List.range, List.range.loop, List.map, List.foldr, UInt8.toNat_ofNat']
  omega

def word (m : Cells) (a : Int) : Option Nat := (read m a 4).map wordOf

theorem word_eq {v : BitVec 32} (h : ∀ i : Nat, i < 4 → m (a + i) = (wordBytes v)[i]?) :
    word m a = some v.toNat := by
  have := @read_eq m a (wordBytes v) h
  rw [length_wordBytes] at this
  simp [word, this, wordOf_wordBytes]

end Heap
