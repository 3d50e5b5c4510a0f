import Mathlib.Algebra.Ring.Int.Defs
import Mathlib.Algebra.Ring.Nat
import Mathlib.Data.List.Basic
import Mathlib.Tactic.Common

/- Signature files of the secure crypto client: the kind as an int, the structure of the
   signature as it lies in memory, and the numbers it points to. The structures come from
   a header outside the repository, so their sizes and the places of their lengths are a
   `Layout`; the pointers in them are whatever they are. Reading takes the lengths from
   the file and accepts every field of which at least one byte is there. -/
namespace Seccrypto

abbrev Bytes := List UInt8

/-- An access to a buffer of `size` bytes that reaches up to `upTo`. -/
structure Access where
  size : Nat
  upTo : Nat
deriving DecidableEq

def Access.InBounds (a : Access) : Prop := a.upTo ≤ a.size

/-- Which sizes can be allocated, and what new memory holds. -/
structure Memory where
  alloc : Nat → Bool
  junk : Nat → UInt8

/-- The width of size_t, the sizes of the two structures and their `num_len` fields. -/
structure Layout where
  sizeBits : Nat
  rsaSize : Nat
  ecdsaSize : Nat
  rsaLen : Bytes → Nat
  rLen : Bytes → Nat
  sLen : Bytes → Nat
  rsaSize_pos : 0 < rsaSize
  ecdsaSize_pos : 0 < ecdsaSize

inductive Signature where
  | rsa (num : Bytes)
  | ecdsa (r s : Bytes)
deriving DecidableEq

def Signature.isRsa : Signature → Bool
  | .rsa _ => true
  | .ecdsa _ _ => false

variable (L : Layout) (m : Memory)

/-- The structure of a signature in memory, whatever its pointers are. -/
def Signature.Struct : Signature → Bytes → Prop
  | .rsa num, b => b.length = L.rsaSize ∧ L.rsaLen b = num.length
  | .ecdsa r s, b => b.length = L.ecdsaSize ∧ L.rLen b = r.length ∧ L.sLen b = s.length

/-- No number is empty. -/
def Signature.NonEmpty : Signature → Prop
  | .rsa num => num ≠ []
  | .ecdsa r s => r ≠ [] ∧ s ≠ []

/-- What the pointers of the structure point to. -/
def Signature.numbers : Signature → Bytes
  | .rsa num => num
  | .ecdsa r s => r ++ s

/-- The int `rsa` in a file. -/
def kindBytes (rsa : Bool) : Bytes := [if rsa then 1 else 0, 0, 0, 0]

def writeSign2file (struct : Bytes) (sign : Signature) : Bytes :=
  kindBytes sign.isRsa ++ struct ++ sign.numbers

/-- `n` bytes of new memory after `got` was read into it. -/
def filled (n : Nat) (got : Bytes) : Bytes := (List.range n).map fun i => got.getD i (m.junk i)

def readRsa (file : Bytes) : Option Signature × List Access :=
  if m.alloc L.rsaSize = false then (none, []) else
  let got := file.take L.rsaSize
  if got = [] then (none, []) else
  let len := L.rsaLen (filled m L.rsaSize got)
  let size := (L.rsaSize + len) % 2 ^ L.sizeBits
  if m.alloc size = false then (none, []) else
  let num := (file.drop L.rsaSize).take len
  let accesses := [⟨size, L.rsaSize⟩, ⟨size, L.rsaSize + num.length⟩]
  if num = [] then (none, accesses) else (some (.rsa (filled m len num)), accesses)

def readEcdsa (file : Bytes) : Option Signature × List Access :=
  if m.alloc L.ecdsaSize = false then (none, []) else
  let got := file.take L.ecdsaSize
  if got = [] then (none, []) else
  let rLen := L.rLen (filled m L.ecdsaSize got)
  let sLen := L.sLen (filled m L.ecdsaSize got)
  let size := (L.ecdsaSize + rLen + sLen) % 2 ^ L.sizeBits
  if m.alloc size = false then (none, []) else
  let r := (file.drop L.ecdsaSize).take rLen
  let accesses := [⟨size, L.ecdsaSize⟩, ⟨size, L.ecdsaSize + r.length⟩]
  if r = [] then (none, accesses) else
  let s := ((file.drop L.ecdsaSize).drop rLen).take sLen
  if s = [] then (none, accesses) else
  (some (.ecdsa (filled m rLen r) (filled m sLen s)), accesses ++ [⟨size, L.ecdsaSize + rLen + s.length⟩])

/-- A file that cannot be opened is `none`. -/
def readFile2sign : Option Bytes → Option Signature × List Access
  | none => (none, [])
  | some file =>
    let kind := file.take 4
    if kind = [] then (none, [])
    else if kind.any (· ≠ 0) then readRsa L m (file.drop 4)
    else readEcdsa L m (file.drop 4)

/-! ## Parts of a file -/

def storedRsa (file : Bytes) : Bool := (file.take 4).any (· ≠ 0)

def structSize (file : Bytes) : Nat := if storedRsa file then L.rsaSize else L.ecdsaSize

def storedStruct (file : Bytes) : Bytes := (file.drop 4).take (structSize L file)

/-- The length of the number before the last one: of `r`, and 0 for RSA. -/
def firstLen (file : Bytes) : Nat := if storedRsa file then 0 else L.rLen (storedStruct L file)

def lastLen (file : Bytes) : Nat :=
  if storedRsa file then L.rsaLen (storedStruct L file) else L.sLen (storedStruct L file)

/-- Where the last number begins. -/
def lastStart (file : Bytes) : Nat := 4 + structSize L file + firstLen L file

/-- Memory for the structure, and for it with the numbers behind it. -/
def memoryFor (file : Bytes) : Bool :=
  m.alloc (structSize L file) &&
    m.alloc ((structSize L file + firstLen L file + lastLen L file) % 2 ^ L.sizeBits)

/-- A complete signature in a file: any int other than 0 stands for RSA. -/
def Signature.Image (sign : Signature) (b : Bytes) : Prop :=
  ∃ kind struct, kind.length = 4 ∧ storedRsa kind = sign.isRsa ∧ sign.Struct L struct ∧
    b = kind ++ struct ++ sign.numbers

def Complete (file : Bytes) : Prop := ∃ sign b, Signature.Image L sign b ∧ b <+: file

variable {L m} {file rest struct got : Bytes} {n : Nat} {sign : Signature}

theorem filled_eq (h : got.length = n) : filled m n got = got := by
  apply List.ext_getElem
  · simp [filled, h]
  · intro i hi hi'
    simp [filled, hi']

theorem take_ne_nil (h : 0 < rest.length) (hpos : 0 < n) : rest.take n ≠ [] := by
  rw [Ne, List.take_eq_nil_iff, not_or]
  exact ⟨by omega, List.ne_nil_of_length_pos h⟩

theorem readRsa_isSome :
    (readRsa L m rest).1.isSome ↔ (m.alloc L.rsaSize = true ∧
      m.alloc ((L.rsaSize + L.rsaLen (rest.take L.rsaSize)) % 2 ^ L.sizeBits) = true) ∧
      L.rsaSize < rest.length ∧ 0 < L.rsaLen (rest.take L.rsaSize) := by
  by_cases hlong : L.rsaSize < rest.length
  · have hstruct : filled m L.rsaSize (rest.take L.rsaSize) = rest.take L.rsaSize :=
      filled_eq (by simp; omega)
    have hgot : rest.take L.rsaSize ≠ [] := take_ne_nil (by omega) L.rsaSize_pos
    generalize hn : L.rsaLen (rest.take L.rsaSize) = len
    have hnumber : (rest.drop L.rsaSize).take len = [] ↔ len = 0 := by
      rw [List.take_eq_nil_iff, List.drop_eq_nil_iff, or_iff_left (by omega)]
    by_cases halloc : m.alloc L.rsaSize = true
    · by_cases hsize : m.alloc ((L.rsaSize + len) % 2 ^ L.sizeBits) = true
      · simp only [readRsa, hstruct, halloc, hsize, hgot, hn, hnumber]
        by_cases hlen : len = 0
        · simp [hlen]
        · simp [hlen, hlong, Nat.pos_of_ne_zero hlen]
      · simp [readRsa, hstruct, halloc, hsize, hgot, hn]
    · simp [readRsa, halloc]
  · -- the number has no byte
    have hnone : rest.drop L.rsaSize = [] := List.drop_eq_nil_iff.mpr (by omega)
    have hfail : (readRsa L m rest).1 = none := by
      simp only [readRsa, hnone, List.take_nil]
      split_ifs <;> rfl
    simp [hfail, hlong]

theorem readEcdsa_isSome :
    (readEcdsa L m rest).1.isSome ↔ (m.alloc L.ecdsaSize = true ∧
      m.alloc ((L.ecdsaSize + L.rLen (rest.take L.ecdsaSize) + L.sLen (rest.take L.ecdsaSize)) % 2 ^ L.sizeBits) =
        true) ∧
      L.ecdsaSize + L.rLen (rest.take L.ecdsaSize) < rest.length ∧ 0 < L.rLen (rest.take L.ecdsaSize) ∧
      0 < L.sLen (rest.take L.ecdsaSize) := by
  by_cases hlong : L.ecdsaSize < rest.length
  · have hstruct : filled m L.ecdsaSize (rest.take L.ecdsaSize) = rest.take L.ecdsaSize :=
      filled_eq (by simp; omega)
    have hgot : rest.take L.ecdsaSize ≠ [] := take_ne_nil (by omega) L.ecdsaSize_pos
    generalize hr : L.rLen (rest.take L.ecdsaSize) = rLen
    generalize hs : L.sLen (rest.take L.ecdsaSize) = sLen
    have hfirst : (rest.drop L.ecdsaSize).take rLen = [] ↔ rLen = 0 := by
      rw [List.take_eq_nil_iff, List.drop_eq_nil_iff, or_iff_left (by omega)]
    have hlast : ((rest.drop L.ecdsaSize).drop rLen).take sLen = [] ↔
        sLen = 0 ∨ rest.length ≤ L.ecdsaSize + rLen := by
      rw [List.take_eq_nil_iff, List.drop_drop, List.drop_eq_nil_iff]
    by_cases halloc : m.alloc L.ecdsaSize = true
    · by_cases hsize : m.alloc ((L.ecdsaSize + rLen + sLen) % 2 ^ L.sizeBits) = true
      · simp only [readEcdsa, hstruct, halloc, hsize, hgot, hr, hs, hfirst, hlast]
        by_cases hrLen : rLen = 0
        · simp [hrLen]
        · by_cases hrest : sLen = 0 ∨ rest.length ≤ L.ecdsaSize + rLen
          · simp only [hrLen, hrest]
            simp
            omega
          · simp only [hrLen, hrest]
            simp
            omega
      · simp [readEcdsa, hstruct, halloc, hsize, hgot, hr, hs]
    · simp [readEcdsa, halloc]
  · -- neither number has a byte
    have hnone : rest.drop L.ecdsaSize = [] := List.drop_eq_nil_iff.mpr (by omega)
    have hfail : (readEcdsa L m rest).1 = none := by
      simp only [readEcdsa, hnone, List.drop_nil, List.take_nil]
      split_ifs <;> rfl
    have hshort : ¬L.ecdsaSize + L.rLen (rest.take L.ecdsaSize) < rest.length := by omega
    simp [hfail, hshort]

theorem readFile2sign_eq (hfile : file ≠ []) :
    readFile2sign L m (some file) =
      if storedRsa file then readRsa L m (file.drop 4) else readEcdsa L m (file.drop 4) := by
  have hkind : file.take 4 ≠ [] := take_ne_nil (List.length_pos_iff.mpr hfile) (by omega)
  rw [readFile2sign]
  simp only [hkind, if_false]
  rfl

/-- A file is accepted if the memory is there, no number is empty and the last one has a byte. -/
theorem readFile2sign_isSome :
    (readFile2sign L m (some file)).1.isSome ↔ memoryFor L m file = true ∧ lastStart L file < file.length ∧
      0 < lastLen L file ∧ (storedRsa file = false → 0 < firstLen L file) := by
  by_cases hfile : file = []
  · simp [hfile, readFile2sign, lastStart]
  · rw [readFile2sign_eq hfile]
    by_cases hrsa : storedRsa file = true
    · rw [if_pos hrsa, readRsa_isSome]
      simp [memoryFor, lastStart, lastLen, firstLen, storedStruct, structSize, hrsa]
      omega
    · rw [if_neg hrsa, readEcdsa_isSome]
      simp [memoryFor, lastStart, lastLen, firstLen, storedStruct, structSize, hrsa]
      omega

/-! ## Complete files -/

theorem Signature.Struct.length {L : Layout} (h : sign.Struct L struct) :
    struct.length = if sign.isRsa then L.rsaSize else L.ecdsaSize := by
  cases sign with
  | rsa num => exact h.1
  | ecdsa r s => exact h.1

/-- The parts of a file that begins with a signature. -/
theorem parts_of_image {kind : Bytes} (hkind : kind.length = 4) (hrsa : storedRsa kind = sign.isRsa)
    (hstruct : sign.Struct L struct) (rest : Bytes) :
    storedRsa (kind ++ struct ++ sign.numbers ++ rest) = sign.isRsa ∧
      structSize L (kind ++ struct ++ sign.numbers ++ rest) = struct.length ∧
      storedStruct L (kind ++ struct ++ sign.numbers ++ rest) = struct := by
  have htake : ∀ t : Bytes, (kind ++ t).take 4 = kind := fun t => List.take_left' hkind
  have hdrop : ∀ t : Bytes, (kind ++ t).drop 4 = t := fun t => List.drop_left' hkind
  have hstored : storedRsa (kind ++ struct ++ sign.numbers ++ rest) = sign.isRsa := by
    rw [storedRsa, List.append_assoc, List.append_assoc, htake, ← hrsa, storedRsa, List.take_of_length_le (by omega)]
  have hsize : structSize L (kind ++ struct ++ sign.numbers ++ rest) = struct.length := by
    rw [structSize, hstored, hstruct.length]
  refine ⟨hstored, hsize, ?_⟩
  rw [storedStruct, hsize, List.append_assoc, List.append_assoc, hdrop]
  exact List.take_left' rfl

/-- The lengths that the structure of a signature holds. -/
theorem lengths_of_struct (hrsa : storedRsa file = sign.isRsa) (hstruct : storedStruct L file = struct)
    (h : sign.Struct L struct) : firstLen L file + lastLen L file = sign.numbers.length := by
  cases sign with
  | rsa num => simp [firstLen, lastLen, hrsa, hstruct, Signature.isRsa, Signature.numbers, h.2]
  | ecdsa r s => simp [firstLen, lastLen, hrsa, hstruct, Signature.isRsa, Signature.numbers, h.2.1, h.2.2]

/-- Numbers of the lengths in a structure are those of a signature. -/
theorem exists_signature (hlength : (storedStruct L file).length = structSize L file) (numbers : Bytes)
    (hnumbers : numbers.length = firstLen L file + lastLen L file) :
    ∃ sign : Signature, sign.isRsa = storedRsa file ∧ sign.numbers = numbers ∧ sign.Struct L (storedStruct L file) := by
  cases hrsa : storedRsa file with
  | true =>
    rw [structSize, if_pos hrsa] at hlength
    simp only [firstLen, lastLen, hrsa, if_true] at hnumbers
    exact ⟨.rsa numbers, rfl, rfl, hlength, by omega⟩
  | false =>
    simp only [structSize, hrsa] at hlength
    simp only [firstLen, lastLen, hrsa] at hnumbers
    refine ⟨.ecdsa (numbers.take (L.rLen (storedStruct L file))) (numbers.drop (L.rLen (storedStruct L file))), rfl,
      List.take_append_drop _ _, hlength, ?_, ?_⟩
    · simp at hnumbers ⊢
      omega
    · simp at hnumbers ⊢
      omega

theorem complete_iff :
    Complete L file ↔ 4 + structSize L file ≤ file.length ∧ lastStart L file + lastLen L file ≤ file.length := by
  constructor
  · rintro ⟨sign, b, ⟨kind, struct, hkind, hrsa, hstruct, rfl⟩, rest, rfl⟩
    obtain ⟨hstored, hsize, hpart⟩ := parts_of_image hkind hrsa hstruct rest
    have hlengths := lengths_of_struct hstored hpart hstruct
    rw [lastStart, hsize]
    simp only [List.length_append]
    omega
  · rintro ⟨hstruct, hlast⟩
    have hkind : (file.take 4).length = 4 := by simp; omega
    have hstored : storedRsa (file.take 4) = storedRsa file := by simp [storedRsa, List.take_take]
    have hlength : (storedStruct L file).length = structSize L file := by simp [storedStruct]; omega
    obtain ⟨sign, hrsa, hnumbers, hsign⟩ := exists_signature hlength
      ((file.drop (4 + structSize L file)).take (firstLen L file + lastLen L file)) (by
        rw [lastStart] at hlast
        simp
        omega)
    refine ⟨sign, _, ⟨file.take 4, storedStruct L file, hkind, hstored.trans hrsa.symm, hsign, rfl⟩, ?_⟩
    rw [hnumbers, storedStruct, ← List.take_add, ← List.take_add]
    exact List.take_prefix _ _

/-- The file ends within its last number. -/
def CutInNumber (L : Layout) (file : Bytes) : Prop :=
  lastStart L file < file.length ∧ file.length < lastStart L file + lastLen L file ∧
    (storedRsa file = false → 0 < firstLen L file)

/-- Only complete files are accepted, except for a cut in the last number. -/
theorem accepts_complete_iff :
    ((readFile2sign L m (some file)).1.isSome → Complete L file) ↔
      ¬(CutInNumber L file ∧ memoryFor L m file = true) := by
  rw [readFile2sign_isSome, complete_iff, CutInNumber]
  have hstart : 4 + structSize L file ≤ lastStart L file := by simp [lastStart]
  constructor
  · rintro h ⟨⟨hbegun, hcut, hfirst⟩, hmemory⟩
    have := (h ⟨hmemory, hbegun, by omega, hfirst⟩).2
    omega
  · rintro h ⟨hmemory, hbegun, hlast, hfirst⟩
    refine ⟨by omega, ?_⟩
    by_contra hcut
    exact h ⟨⟨hbegun, by omega, hfirst⟩, hmemory⟩

/-! ## Round trip -/

theorem readRsa_append {num : Bytes} (hstruct : (Signature.rsa num).Struct L struct) (hnum : num ≠ [])
    (halloc : m.alloc L.rsaSize = true) (hsize : m.alloc ((L.rsaSize + num.length) % 2 ^ L.sizeBits) = true) :
    (readRsa L m (struct ++ num)).1 = some (.rsa num) := by
  obtain ⟨hlength, hlen⟩ := hstruct
  have hpos := L.rsaSize_pos
  have hne : struct ≠ [] := List.ne_nil_of_length_pos (by omega)
  simp [readRsa, List.take_left' hlength, List.drop_left' hlength, filled_eq hlength, hlen, halloc, hsize, hne, hnum,
    filled_eq]

theorem readEcdsa_append {r s : Bytes} (hstruct : (Signature.ecdsa r s).Struct L struct) (hr : r ≠ []) (hs : s ≠ [])
    (halloc : m.alloc L.ecdsaSize = true)
    (hsize : m.alloc ((L.ecdsaSize + r.length + s.length) % 2 ^ L.sizeBits) = true) :
    (readEcdsa L m (struct ++ (r ++ s))).1 = some (.ecdsa r s) := by
  obtain ⟨hlength, hrLen, hsLen⟩ := hstruct
  have hpos := L.ecdsaSize_pos
  have hne : struct ≠ [] := List.ne_nil_of_length_pos (by omega)
  simp [readEcdsa, List.take_left' hlength, List.drop_left' hlength, filled_eq hlength, hrLen, hsLen, halloc, hsize,
    hne, hr, hs, filled_eq]

/-- The file of a signature with numbers of any lengths but 0 is read as this signature. -/
theorem readFile2sign_writeSign2file (hstruct : sign.Struct L struct) (hnumbers : sign.NonEmpty)
    (hmemory : memoryFor L m (writeSign2file struct sign) = true) :
    (readFile2sign L m (some (writeSign2file struct sign))).1 = some sign := by
  have hkind : storedRsa (kindBytes sign.isRsa) = sign.isRsa := by
    cases sign <;> rfl
  have hlength : (kindBytes sign.isRsa).length = 4 := rfl
  obtain ⟨hstored, hsize, hpart⟩ := parts_of_image hlength hkind hstruct []
  rw [List.append_nil] at hstored hsize hpart
  have hdrop : (writeSign2file struct sign).drop 4 = struct ++ sign.numbers := by
    rw [writeSign2file, List.append_assoc]
    exact List.drop_left' rfl
  have hne : writeSign2file struct sign ≠ [] := by simp [writeSign2file, kindBytes]
  change storedRsa (writeSign2file struct sign) = _ at hstored
  change storedStruct L (writeSign2file struct sign) = _ at hpart
  rw [readFile2sign_eq hne, hstored, hdrop]
  simp only [memoryFor, structSize, firstLen, lastLen, hstored, hpart, Bool.and_eq_true] at hmemory
  cases sign with
  | rsa num =>
    simp only [Signature.isRsa, if_true] at hmemory ⊢
    rw [hstruct.2, Nat.add_zero] at hmemory
    exact readRsa_append hstruct hnumbers hmemory.1 hmemory.2
  | ecdsa r s =>
    simp only [Signature.isRsa, Bool.false_eq_true, if_false] at hmemory ⊢
    rw [hstruct.2.1, hstruct.2.2] at hmemory
    exact readEcdsa_append hstruct hnumbers.1 hnumbers.2 hmemory.1 hmemory.2

/-! ## Accesses -/

/-- The bytes that the file has for the numbers fit in the memory made for their lengths, whose
size is reckoned in size_t. -/
def Fits (L : Layout) (m : Memory) (file : Bytes) : Prop :=
  let b := filled m (structSize L file) (storedStruct L file)
  let first := if storedRsa file then L.rsaLen b else L.rLen b
  let total := if storedRsa file then L.rsaLen b else L.rLen b + L.sLen b
  let size := (structSize L file + total) % 2 ^ L.sizeBits
  m.alloc (structSize L file) = true → storedStruct L file ≠ [] → m.alloc size = true →
    structSize L file + (if first = 0 then 0 else min total (file.length - 4 - structSize L file)) ≤ size

theorem readRsa_inBounds (L : Layout) (m : Memory) (rest : Bytes) :
    (∀ a ∈ (readRsa L m rest).2, a.InBounds) ↔
      (m.alloc L.rsaSize = true → rest.take L.rsaSize ≠ [] →
        m.alloc ((L.rsaSize + L.rsaLen (filled m L.rsaSize (rest.take L.rsaSize))) % 2 ^ L.sizeBits) = true →
          L.rsaSize + (if L.rsaLen (filled m L.rsaSize (rest.take L.rsaSize)) = 0 then 0
            else min (L.rsaLen (filled m L.rsaSize (rest.take L.rsaSize))) (rest.length - L.rsaSize)) ≤
            (L.rsaSize + L.rsaLen (filled m L.rsaSize (rest.take L.rsaSize))) % 2 ^ L.sizeBits) := by
  generalize hlen : L.rsaLen (filled m L.rsaSize (rest.take L.rsaSize)) = len
  generalize hsize : (L.rsaSize + len) % 2 ^ L.sizeBits = size
  cases hstruct : m.alloc L.rsaSize with
  | false => simp [readRsa, hstruct]
  | true =>
    by_cases hgot : rest.take L.rsaSize = []
    · simp [readRsa, hstruct, hgot]
    · cases hbuffer : m.alloc size with
      | false => simp [readRsa, hstruct, hgot, hlen, hsize, hbuffer]
      | true =>
        have hlog : (readRsa L m rest).2 =
            [⟨size, L.rsaSize⟩, ⟨size, L.rsaSize + ((rest.drop L.rsaSize).take len).length⟩] := by
          by_cases hnum : (rest.drop L.rsaSize).take len = []
          · simp [readRsa, hstruct, hgot, hlen, hsize, hbuffer, hnum]
          · simp [readRsa, hstruct, hgot, hlen, hsize, hbuffer, hnum]
        have hcount : ((rest.drop L.rsaSize).take len).length = min len (rest.length - L.rsaSize) := by simp
        simp only [hlog, hcount, List.forall_mem_cons, Access.InBounds, true_implies, hgot, not_false_eq_true, ne_eq]
        split <;> simp <;> omega

theorem readEcdsa_inBounds (L : Layout) (m : Memory) (rest : Bytes) :
    (∀ a ∈ (readEcdsa L m rest).2, a.InBounds) ↔
      (m.alloc L.ecdsaSize = true → rest.take L.ecdsaSize ≠ [] →
        m.alloc ((L.ecdsaSize + (L.rLen (filled m L.ecdsaSize (rest.take L.ecdsaSize)) +
          L.sLen (filled m L.ecdsaSize (rest.take L.ecdsaSize)))) % 2 ^ L.sizeBits) = true →
          L.ecdsaSize + (if L.rLen (filled m L.ecdsaSize (rest.take L.ecdsaSize)) = 0 then 0
            else min (L.rLen (filled m L.ecdsaSize (rest.take L.ecdsaSize)) +
              L.sLen (filled m L.ecdsaSize (rest.take L.ecdsaSize))) (rest.length - L.ecdsaSize)) ≤
            (L.ecdsaSize + (L.rLen (filled m L.ecdsaSize (rest.take L.ecdsaSize)) +
              L.sLen (filled m L.ecdsaSize (rest.take L.ecdsaSize)))) % 2 ^ L.sizeBits) := by
  generalize hr : L.rLen (filled m L.ecdsaSize (rest.take L.ecdsaSize)) = rLen
  generalize hs : L.sLen (filled m L.ecdsaSize (rest.take L.ecdsaSize)) = sLen
  generalize hsize : (L.ecdsaSize + (rLen + sLen)) % 2 ^ L.sizeBits = size
  have hsize' : (L.ecdsaSize + rLen + sLen) % 2 ^ L.sizeBits = size := by rw [Nat.add_assoc, hsize]
  cases hstruct : m.alloc L.ecdsaSize with
  | false => simp [readEcdsa, hstruct]
  | true =>
    by_cases hgot : rest.take L.ecdsaSize = []
    · simp [readEcdsa, hstruct, hgot]
    · cases hbuffer : m.alloc size with
      | false => simp [readEcdsa, hstruct, hgot, hr, hs, hsize', hbuffer]
      | true =>
        have hfirst : ((rest.drop L.ecdsaSize).take rLen).length = min rLen (rest.length - L.ecdsaSize) := by simp
        have hlast : (((rest.drop L.ecdsaSize).drop rLen).take sLen).length =
            min sLen (rest.length - (L.ecdsaSize + rLen)) := by simp
        by_cases hnone : (rest.drop L.ecdsaSize).take rLen = []
        · have hlog : (readEcdsa L m rest).2 = [⟨size, L.ecdsaSize⟩, ⟨size, L.ecdsaSize + 0⟩] := by
            simp [readEcdsa, hstruct, hgot, hr, hs, hsize', hbuffer, hnone]
          rw [hnone] at hfirst
          simp only [hlog, List.forall_mem_cons, Access.InBounds, true_implies, hgot, not_false_eq_true, ne_eq]
          simp at hfirst ⊢
          split <;> omega
        · have hpos : 0 < ((rest.drop L.ecdsaSize).take rLen).length := List.length_pos_iff.mpr hnone
          by_cases hend : ((rest.drop L.ecdsaSize).drop rLen).take sLen = []
          · have hempty : sLen = 0 ∨ rest.length ≤ L.ecdsaSize + rLen := by simpa using hend
            have hlog : (readEcdsa L m rest).2 =
                [⟨size, L.ecdsaSize⟩, ⟨size, L.ecdsaSize + ((rest.drop L.ecdsaSize).take rLen).length⟩] := by
              simp [readEcdsa, hstruct, hgot, hr, hs, hsize', hbuffer, hnone, hempty]
            rw [hend] at hlast
            simp only [hlog, hfirst, List.forall_mem_cons, Access.InBounds, true_implies, hgot, not_false_eq_true, ne_eq]
            simp only [List.length_nil] at hlast
            simp
            split <;> omega
          · have hpos' : 0 < (((rest.drop L.ecdsaSize).drop rLen).take sLen).length := List.length_pos_iff.mpr hend
            have hbytes : ¬(sLen = 0 ∨ rest.length ≤ L.ecdsaSize + rLen) := by simpa using hend
            have hlog : (readEcdsa L m rest).2 =
                [⟨size, L.ecdsaSize⟩, ⟨size, L.ecdsaSize + ((rest.drop L.ecdsaSize).take rLen).length⟩,
                  ⟨size, L.ecdsaSize + rLen + (((rest.drop L.ecdsaSize).drop rLen).take sLen).length⟩] := by
              simp [readEcdsa, hstruct, hgot, hr, hs, hsize', hbuffer, hnone, hbytes]
            simp only [hlog, hfirst, hlast, List.forall_mem_cons, Access.InBounds, true_implies, hgot,
              not_false_eq_true, ne_eq]
            simp
            split <;> omega

theorem readFile2sign_inBounds_iff :
    (∀ a ∈ (readFile2sign L m (some file)).2, a.InBounds) ↔ Fits L m file := by
  by_cases hfile : file = []
  · simp [hfile, readFile2sign, Fits, storedStruct]
  · rw [readFile2sign_eq hfile, Fits]
    have hlength : (file.drop 4).length = file.length - 4 := by simp
    cases hrsa : storedRsa file with
    | true => simpa [structSize, storedStruct, hrsa] using readRsa_inBounds L m (file.drop 4)
    | false => simpa [structSize, storedStruct, hrsa] using readEcdsa_inBounds L m (file.drop 4)

end Seccrypto
