import MxlUtils.Gphy.Msec.Types

/- The device structure every public function gets, as far as the modelled
   functions read it, and the accesses the chip functions share. The build is the
   Makefile's: slave-MDIO accesses, MACsec debug access, no MACsec VLAN support. -/
namespace Gpy2xx
open Effect Bits

/-- `phy->id.family` -/
inductive Family where
  | p31g
  | p34x
  | p34xLgs
  | other (v : BitVec 8)
deriving DecidableEq, Repr

/-- `struct gpy211_device` -/
structure Gpy211Device extends MsecDevice where
  family : Family
  phyAddr : Int
  macsecSupported : Bool
  ptpClock : BitVec 32
  gmacfBaseAddr : Nat
  gmaclBaseAddr : Nat
  pmBaseAddr : Nat

/-- `STD_STD_CTRL` and its bits. -/
def stdCtrl : Nat := 0
def ctrlSsm : BitVec 16 := 0x40
def ctrlDplx : BitVec 16 := 0x100
def ctrlAnrs : BitVec 16 := 0x200
def ctrlIsol : BitVec 16 := 0x400
def ctrlPd : BitVec 16 := 0x800
def ctrlAnen : BitVec 16 := 0x1000
def ctrlSsl : BitVec 16 := 0x2000
def ctrlLb : BitVec 16 := 0x4000
def ctrlRst : BitVec 16 := 0x8000

/-- The slave-MDIO register of a chip address: `(regaddr / 2) & 0xFFFF`. -/
def smdioReg (addr : Nat) : Nat := addr / 2 % 0x10000

/-- Addresses that are less than a round of the registers apart. -/
theorem smdioReg_ne {base a b : Nat} (hapart : a + 2 ≤ b) (hround : b + 2 ≤ a + 0x20000) :
    smdioReg (base + a) ≠ smdioReg (base + b) := by
  unfold smdioReg
  omega

/-- `SMDIO_READ` -/
def smdioReadAt (addr : Nat) : Api (BitVec 16) := smdioRead (smdioReg addr)

/-- `SMDIO_WRITE` -/
def smdioWriteAt (addr : Nat) (val : BitVec 16) : Api Unit := smdioWrite (smdioReg addr) val

/-- `SMDIO_SET_BIT` -/
def smdioSetBit (addr pos : Nat) : Api Unit := do
  let val ← smdioReadAt addr
  smdioWriteAt addr (val ||| 1 <<< pos)

/-- `SMDIO_SET_MASK_BITS` -/
def smdioSetMaskBits (addr : Nat) (mask bits : BitVec 16) : Api Unit := do
  let val ← smdioReadAt addr
  smdioWriteAt addr (val &&& ~~~mask ||| bits)

/-- `SMDIO_CLR_BIT` -/
def smdioClrBit (addr pos : Nat) : Api Unit := smdioSetMaskBits addr (1 <<< pos) 0

/-- `FIELD_REPLACE`, once for each field. -/
def replaceFields {w : Nat} (word : BitVec w) (fields : List (Field w × BitVec w)) : BitVec w :=
  fields.foldl (fun word f => f.1.replace word f.2) word

/-- A word built from 0 by `FIELD_REPLACE`. -/
def fieldWord {w : Nat} (fields : List (Field w × BitVec w)) : BitVec w := replaceFields 0 fields

section Fields
variable {w len : Nat} {f : Field w} {word v : BitVec w} {fields : List (Field w × BitVec w)}

theorem get_replaceFields_of_apart (h : ∀ g ∈ fields, f.mask &&& g.1.mask = 0#w) :
    f.get (replaceFields word fields) = f.get word := by
  induction fields generalizing word with
  | nil => rfl
  | cons g fields ih =>
    calc f.get (replaceFields (g.1.replace word g.2) fields)
        = f.get (g.1.replace word g.2) := ih fun u hu => h u (List.mem_cons_of_mem g hu)
      _ = f.get word := Field.get_replace_of_disjoint (h g List.mem_cons_self)

/-- What is put in a field stays there while the fields after it are apart. -/
theorem get_replaceFields_cons (hf : f.Spans len) (hv : v.toNat < 2 ^ len)
    (h : ∀ g ∈ fields, f.mask &&& g.1.mask = 0#w) :
    f.get (replaceFields word ((f, v) :: fields)) = v := by
  calc f.get (replaceFields (f.replace word v) fields)
      = f.get (f.replace word v) := get_replaceFields_of_apart h
    _ = v := Field.get_replace hf hv

theorem get_replaceFields_bit (hf : f.Spans 1) (hv : v.toNat < 2)
    (h : ∀ g ∈ fields, f.mask &&& g.1.mask = 0#w) :
    f.get (replaceFields word ((f, v) :: fields)) = v := get_replaceFields_cons hf hv h

/-- Of a value too large for its field, the low bits are put there. -/
theorem get_replaceFields_low (hf : f.Spans len) (h : ∀ g ∈ fields, f.mask &&& g.1.mask = 0#w) :
    f.get (replaceFields word ((f, v) :: fields)) = v &&& BitVec.ofNat w (2 ^ len - 1) := by
  calc f.get (replaceFields (f.replace word v) fields)
      = f.get (f.replace word v) := get_replaceFields_of_apart h
    _ = v &&& BitVec.ofNat w (2 ^ len - 1) := Field.get_replace_low hf

/-- A field further down the list. -/
theorem get_replaceFields_skip {g : Field w} {u x : BitVec w}
    (h : ∀ word, f.get (replaceFields word fields) = x) :
    f.get (replaceFields word ((g, u) :: fields)) = x := h _

/-- The bit of a field that no entry has a bit in common with. -/
theorem getLsbD_replaceFields_of_apart (hf : f.Spans 1)
    (h : ∀ g ∈ fields, f.mask &&& g.1.mask = 0#w) :
    (replaceFields word fields).getLsbD f.pos = word.getLsbD f.pos := by
  have hget := congrArg (·.getLsbD 0) (@get_replaceFields_of_apart _ f word _ h)
  simpa [Field.getLsbD_get_bit hf] using hget

/-- The bit of a field that no later entry has a bit in common with. -/
theorem getLsbD_replaceFields_cons (hf : f.Spans 1)
    (h : ∀ g ∈ fields, f.mask &&& g.1.mask = 0#w) :
    (replaceFields word ((f, v) :: fields)).getLsbD f.pos = v.getLsbD 0 := by
  calc (replaceFields (f.replace word v) fields).getLsbD f.pos
      = (f.replace word v).getLsbD f.pos := getLsbD_replaceFields_of_apart hf h
    _ = v.getLsbD 0 := Field.getLsbD_replace_bit hf

theorem getLsbD_replaceFields_skip {i : Nat} {g : Field w} {u : BitVec w} {b : Bool}
    (h : ∀ word, (replaceFields word fields).getLsbD i = b) :
    (replaceFields word ((g, u) :: fields)).getLsbD i = b := h _

/-- Words that agree under a mask agree there when the same fields are replaced. -/
theorem replaceFields_and_congr {word' mask : BitVec w} (h : word &&& mask = word' &&& mask) :
    replaceFields word fields &&& mask = replaceFields word' fields &&& mask := by
  induction fields generalizing word word' with
  | nil => exact h
  | cons g fields ih =>
    refine ih ?_
    have hkept : ∀ x : BitVec w, (x &&& ~~~g.1.mask) &&& mask = (x &&& mask) &&& ~~~g.1.mask := fun x => by
      rw [BitVec.and_assoc, BitVec.and_comm (~~~g.1.mask), ← BitVec.and_assoc]
    calc g.1.replace word g.2 &&& mask
        = (word &&& mask) &&& ~~~g.1.mask ||| g.1.set g.2 &&& mask := by
          rw [Field.replace, BitVec.and_or_distrib_right, hkept]
      _ = g.1.replace word' g.2 &&& mask := by
          rw [h, ← hkept, ← BitVec.and_or_distrib_right]
          rfl

theorem replaceFields_and_replaced {word' : BitVec w} (h : f ∈ fields.map Prod.fst) :
    replaceFields word fields &&& f.mask = replaceFields word' fields &&& f.mask := by
  induction fields generalizing word word' with
  | nil => cases h
  | cons g fields ih =>
    rcases List.mem_cons.mp h with hhead | htail
    · have hset : ∀ x : BitVec w, f.replace x g.2 &&& f.mask = f.set g.2 &&& f.mask := fun x => by
        rw [Field.replace, BitVec.and_or_distrib_right, BitVec.and_assoc, BitVec.not_and_self]
        simp
      subst hhead
      show replaceFields (g.1.replace word g.2) fields &&& _ =
        replaceFields (g.1.replace word' g.2) fields &&& _
      exact replaceFields_and_congr ((hset word).trans (hset word').symm)
    · exact ih htail

/-- A field that is replaced does not show what was in the word before. -/
theorem get_replaceFields_replaced {word' : BitVec w} (h : f ∈ fields.map Prod.fst) :
    f.get (replaceFields word fields) = f.get (replaceFields word' fields) := by
  rw [Field.get, Field.get, @replaceFields_and_replaced w f word fields word' h]

/-- Words and fields under a mask stay under it. -/
theorem replaceFields_and {mask : BitVec w} (hword : word &&& mask = word)
    (h : ∀ g ∈ fields, g.1.mask &&& mask = g.1.mask) :
    replaceFields word fields &&& mask = replaceFields word fields := by
  induction fields generalizing word with
  | nil => exact hword
  | cons g fields ih =>
    refine ih ?_ fun u hu => h u (List.mem_cons_of_mem g hu)
    have hkept : (word &&& ~~~g.1.mask) &&& mask = word &&& ~~~g.1.mask := by
      rw [BitVec.and_assoc, BitVec.and_comm (~~~g.1.mask), ← BitVec.and_assoc, hword]
    have hput : g.1.set g.2 &&& mask = g.1.set g.2 := by
      rw [Field.set, BitVec.and_assoc, h g List.mem_cons_self]
    show ((word &&& ~~~g.1.mask) ||| g.1.set g.2) &&& mask = (word &&& ~~~g.1.mask) ||| g.1.set g.2
    rw [BitVec.and_or_distrib_right, hkept, hput]

/-- Of fields that are apart from each other, every one shows what is put in it. -/
theorem get_replaceFields_of_mem (hapart : (fields.map Prod.fst).Pairwise fun f g => f.mask &&& g.mask = 0#w)
    (hmem : (f, v) ∈ fields) (hf : f.Spans len) (hv : v.toNat < 2 ^ len) :
    f.get (replaceFields word fields) = v := by
  induction fields generalizing word with
  | nil => cases hmem
  | cons g fields ih =>
    obtain ⟨hhead, htail⟩ := List.pairwise_cons.mp hapart
    cases hmem with
    | head => exact get_replaceFields_cons hf hv fun g hg => hhead g.1 (List.mem_map_of_mem hg)
    | tail _ hmem => exact get_replaceFields_skip fun _ => ih htail hmem

/-- A setting of 32 bits that fits its field of a register of 16. -/
theorem setWidth_get_replaceFields {fields : List (Field 16 × BitVec 16)} {f : Field 16} {v : BitVec 32}
    {word : BitVec 16} (hapart : (fields.map Prod.fst).Pairwise fun f g => f.mask &&& g.mask = 0#16)
    (hmem : (f, v.setWidth 16) ∈ fields) (hf : f.Spans len) (hv : v.toNat < 2 ^ len) :
    (f.get (replaceFields word fields)).setWidth 32 = v := by
  have hlen : len ≤ 16 := Nat.le_trans (Nat.le_add_left len f.pos) hf.2
  have hlt : v.toNat < 2 ^ 16 := Nat.lt_of_lt_of_le hv (Nat.pow_le_pow_right (by decide) hlen)
  have hput : (v.setWidth 16).toNat = v.toNat := by rw [BitVec.toNat_setWidth, Nat.mod_eq_of_lt hlt]
  rw [get_replaceFields_of_mem hapart hmem hf (by rw [hput]; exact hv)]
  exact setWidth_setWidth_of_lt hlt

end Fields

/-- A read whose answer must satisfy `good`; any other answer is the error -1. -/
def readExpecting (addr : Nat) (good : BitVec 32 → Bool) : Api Unit := do
  let data ← phyMboxRead addr
  if good data then pure () else throw errRet

end Gpy2xx
