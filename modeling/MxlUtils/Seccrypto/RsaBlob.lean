import MxlUtils.Lib.Heap

/- Storing a generated RSA key. The blob is laid out with a running pointer in memory that
   malloc leaves as it is: the meta data, then the public exponent, the private exponent and
   the modulus, each behind its length. The buffer is taken larger than the three fields can
   get, the exponent's buffer has a byte more than the exponent, and the length that comes
   back from wrapping is not looked at. So no blob that is stored is right
   (`storesRight_iff`); the last section says of each part when it is. -/
namespace Seccrypto.RsaBlob
open Heap

/-- What the headers and the libraries fix: the layout of struct key_meta_info, the enumerators,
whether num_len is signed, and AES_wrap_key under a key, with what it returns when it refuses. -/
structure Target where
  sizeofMeta : Nat
  formatAt : Nat
  algAt : Nat
  totalAt : Nat
  signedLen : Bool
  keyWrapFormat : BitVec 32
  secAlgRsa2048 : BitVec 32
  secAlgRsa3072 : BitVec 32
  secAlgRsa4096 : BitVec 32
  aesWrapKey : List UInt8 → List UInt8 → Option (List UInt8)
  refusal : BitVec 32
  format_inside : formatAt + 4 ≤ sizeofMeta
  alg_inside : algAt + 4 ≤ sizeofMeta
  total_inside : totalAt + 4 ≤ sizeofMeta
  format_apart_alg : formatAt + 4 ≤ algAt ∨ algAt + 4 ≤ formatAt
  format_apart_total : formatAt + 4 ≤ totalAt ∨ totalAt + 4 ≤ formatAt
  alg_apart_total : algAt + 4 ≤ totalAt ∨ totalAt + 4 ≤ algAt
  meta_dwords : sizeofMeta % 4 = 0
  wrap_adds : ∀ kek x y, aesWrapKey kek x = some y → y.length = x.length + 8
  refusal_eq : refusal = 0 ∨ refusal = -1

/-- The private exponent and the modulus of a key, as BN_bn2bin writes them. -/
structure Rsa where
  d : List UInt8
  n : List UInt8

/-- What the function meets: the result of securestore_retrieve with the length it gives, what
scanf reads, the key for a number of bits, aes_kek, malloc and the result of securestore_save. -/
structure Env where
  retrieve : Int × Nat
  scanf : Option Char
  rsaGenerateKey : Nat → Option Rsa
  aesKek : List UInt8
  malloc : Nat → Option Int
  save : Int
  malloc_aligned : ∀ n a, malloc n = some a → a % 4 = 0

variable (t : Target) (e : Env)

/-! ## The key -/

structure BigNumber where
  numLen : BitVec 32
  numPtr : Nat → Option UInt8

structure RsaKey where
  pubExp : BigNumber
  priExp : BigNumber
  modulus : BigNumber

def bn2bin (bs : List UInt8) : BigNumber := ⟨BitVec.ofNat 32 bs.length, fun i => bs[i]?⟩

def nullNumber : BigNumber := ⟨0, fun _ => none⟩

def rsaF4 : List UInt8 := [1, 0, 1]

def Target.bits (algo : BitVec 32) : Nat :=
  if algo = t.secAlgRsa2048 then 2048
  else if algo = t.secAlgRsa3072 then 3072
  else if algo = t.secAlgRsa4096 then 4096
  else 2048

/-- The buffer of the public exponent has four bytes, of which BN_bn2bin writes three. -/
def generateRsaKeyPair (algo : BitVec 32) : RsaKey × Int :=
  match e.rsaGenerateKey (t.bits algo) with
  | none => (⟨nullNumber, nullNumber, nullNumber⟩, -1)
  | some rsa => (⟨{ bn2bin rsaF4 with numLen := 4 }, bn2bin rsa.d, bn2bin rsa.n⟩, 0)

/-- The bytes of a number, if all of them were written. -/
def BigNumber.bytes (number : BigNumber) : Option (List UInt8) :=
  read (fun a => number.numPtr a.toNat) 0 number.numLen.toNat

/-! ## The blob -/

/-- DWORD_ALIGN. -/
def dwordAlign (addr : Int) : Int := (addr + 3) / 4 * 4

/-- How far adding a num_len moves a pointer. -/
def Target.moves (len : BitVec 32) : Int := if t.signedLen then len.toInt else len.toNat

/-- Yields the new num_len. -/
def aesWrap (number : BigNumber) (dst : Int) : BitVec 32 × Copy :=
  match number.bytes.bind (t.aesWrapKey e.aesKek) with
  | some out => (BitVec.ofNat 32 out.length, .ofList dst out)
  | none => (t.refusal, .ofList dst [])

/-- The private exponent as the format wants it. -/
def putPrivate (format : BitVec 32) (number : BigNumber) (dst : Int) : BitVec 32 × Copy :=
  if format = t.keyWrapFormat then aesWrap t e number dst
  else (number.numLen, ⟨dst, number.numLen.toNat, number.numPtr⟩)

/-- The exponent is turned round if it is asked for with four bytes. -/
def putPublic (number : BigNumber) (dst : Int) : Copy :=
  if number.numLen = 4 then
    ⟨dst, number.numLen.toNat, fun i => number.numPtr (number.numLen.toNat - i - 1)⟩
  else ⟨dst, number.numLen.toNat, number.numPtr⟩

/-- A blob with the copies that were made into it and the lengths that were written. -/
structure Blob where
  base : Int
  len : Nat
  copies : List Copy
  lens : List (BitVec 32)
  total : BitVec 32

def bufLen (format : BitVec 32) (key : RsaKey) : Nat :=
  t.sizeofMeta + 4 * 3 + key.pubExp.numLen.toNat + key.priExp.numLen.toNat
    + key.modulus.numLen.toNat + 12 + if format = t.keyWrapFormat then 8 else 0

def fillBlob (format algo : BitVec 32) (key : RsaKey) (base : Int) : Blob :=
  let total := key.pubExp.numLen + key.priExp.numLen + key.modulus.numLen
  let pub := base + t.sizeofMeta
  let pri := dwordAlign (pub + 4 + t.moves key.pubExp.numLen)
  let put := putPrivate t e format key.priExp (pri + 4)
  let mod := dwordAlign (pri + 4 + t.moves put.1)
  { base := base
    len := bufLen t format key
    copies :=
      [.ofList (base + t.formatAt) (wordBytes format), .ofList (base + t.algAt) (wordBytes algo),
        .ofList (base + t.totalAt) (wordBytes total),
        .ofList pub (wordBytes key.pubExp.numLen), putPublic key.pubExp (pub + 4),
        put.2, .ofList pri (wordBytes put.1),
        .ofList mod (wordBytes key.modulus.numLen),
        ⟨mod + 4, key.modulus.numLen.toNat, key.modulus.numPtr⟩]
    lens := [key.pubExp.numLen, put.1, key.modulus.numLen]
    total := total }

/-- Without memory the blob is read from a null pointer. -/
def nullBlob (format : BitVec 32) (key : RsaKey) : Blob := ⟨0, bufLen t format key, [], [], 0⟩

/-- A key is there and the user does not want it overwritten. -/
def Declined : Prop :=
  e.retrieve.1 ≠ 0 ∧ 0 < e.retrieve.2 ∧ (e.scanf = some 'n' ∨ e.scanf = some 'N')

instance : Decidable (Declined e) := inferInstanceAs (Decidable (_ ∧ _ ∧ _))

/-- The blob that is stored, if one is, and the result. What generating the key returns is
dropped. -/
def rsaKeyGenerateAndStore (format algo pubKeyLen : BitVec 32) : Option Blob × Int :=
  if Declined e then (none, 0)
  else
    let generated := (generateRsaKeyPair t e algo).1
    let key := { generated with pubExp := { generated.pubExp with numLen := pubKeyLen } }
    let blob :=
      match e.malloc (bufLen t format key) with
      | none => nullBlob t format key
      | some base => fillBlob t e format algo key base
    (some blob, if e.save < 0 then -1 else 0)

/-! ## What a stored key should be -/

/-- What is in the blob's memory. -/
def Blob.memory (b : Blob) : Cells := fun a =>
  if b.base ≤ a ∧ a < b.base + b.len then runs fresh b.copies a else none

/-- A field behind its length, at an aligned address, and where the next one is. -/
def fieldAt (m : Cells) (a : Int) : Option (List UInt8 × Int) :=
  if a % 4 = 0 then do
    let len ← word m a
    let bs ← read m (a + 4) len
    pure (bs, dwordAlign (a + 4 + len))
  else none

/-- The three fields behind the meta data. -/
def fields (m : Cells) (a : Int) : Option (List UInt8 × List UInt8 × List UInt8) := do
  let (pub, next) ← fieldAt m a
  let (pri, last) ← fieldAt m next
  let (mod, _) ← fieldAt m last
  pure (pub, pri, mod)

/-- 65537 in either order of the bytes. -/
def IsF4 (bs : List UInt8) : Prop := wordOf bs = 65537 ∨ wordOf bs.reverse = 65537

/-- What is to be stored of the private exponent, if it can be. -/
def privateField (format : BitVec 32) (d : List UInt8) : Option (List UInt8) :=
  if format = t.keyWrapFormat then t.aesWrapKey e.aesKek d else some d

def Blob.Inside (b : Blob) : Prop :=
  ∀ c ∈ b.copies, ∀ a, c.Covers a → b.base ≤ a ∧ a < b.base + b.len

def Blob.Determined (b : Blob) : Prop := ∀ i < b.len, b.memory (b.base + i) ≠ none

def Blob.Parses (b : Blob) (format : BitVec 32) (rsa : Rsa) : Prop :=
  ∃ pub pri, IsF4 pub ∧ privateField t e format rsa.d = some pri ∧
    fields b.memory (b.base + t.sizeofMeta) = some (pub, pri, rsa.n)

def Blob.TotalRight (b : Blob) : Prop := b.total.toNat = (b.lens.map BitVec.toNat).sum

structure BlobRight (format : BitVec 32) (rsa : Rsa) (b : Blob) (ret : Int) : Prop where
  inside : b.Inside
  determined : b.Determined
  parses : b.Parses t e format rsa
  reported : privateField t e format rsa.d = none → ret ≠ 0
  total : b.TotalRight

/-- Whatever is stored is a right blob. -/
def StoresRight (format algo pubKeyLen : BitVec 32) (rsa : Rsa) : Prop :=
  ∀ b, (rsaKeyGenerateAndStore t e format algo pubKeyLen).1 = some b →
    BlobRight t e format rsa b (rsaKeyGenerateAndStore t e format algo pubKeyLen).2

/-! ## Where the copies go -/

section Lengths
variable {t e}
variable {format algo p : BitVec 32} {rsa : Rsa} {key : RsaKey} {base : Int}

/-- The key as it is stored: with the exponent's length as asked for. -/
def keyOf (p : BitVec 32) (rsa : Rsa) : RsaKey :=
  ⟨{ bn2bin rsaF4 with numLen := p }, bn2bin rsa.d, bn2bin rsa.n⟩

theorem stored_of_not_declined (hkey : e.rsaGenerateKey (t.bits algo) = some rsa) (h : ¬ Declined e) :
    rsaKeyGenerateAndStore t e format algo p =
      (some (match e.malloc (bufLen t format (keyOf p rsa)) with
        | none => nullBlob t format (keyOf p rsa)
        | some base => fillBlob t e format algo (keyOf p rsa) base), if e.save < 0 then -1 else 0) := by
  rw [rsaKeyGenerateAndStore, if_neg h, generateRsaKeyPair, hkey]
  rfl

theorem toNat_numLen_bn2bin {bs : List UInt8} (h : bs.length ≤ 520) :
    (bn2bin bs).numLen.toNat = bs.length := by
  rw [bn2bin, BitVec.toNat_ofNat]
  omega

theorem moves_of_lt {v : BitVec 32} (h : v.toNat < 2 ^ 31) : t.moves v = v.toNat := by
  rw [Target.moves, BitVec.toInt_eq_toNat_of_lt (by omega)]
  simp

theorem bytes_bn2bin {bs : List UInt8} (h : bs.length ≤ 520) : (bn2bin bs).bytes = some bs := by
  rw [BigNumber.bytes, toNat_numLen_bn2bin h]
  apply read_eq
  intro i _
  simp [bn2bin]

theorem ofList_bn2bin {bs : List UInt8} (h : bs.length ≤ 520) (dst : Int) :
    (⟨dst, (bn2bin bs).numLen.toNat, (bn2bin bs).numPtr⟩ : Copy) = .ofList dst bs := by
  rw [toNat_numLen_bn2bin h]
  rfl

/-- What can be stored of the private exponent is stored, behind its own length. -/
theorem putPrivate_of_some {d pri : List UInt8} (hd : d.length ≤ 512)
    (h : privateField t e format d = some pri) (dst : Int) :
    putPrivate t e format (bn2bin d) dst = (BitVec.ofNat 32 pri.length, .ofList dst pri) := by
  rw [putPrivate]
  rw [privateField] at h
  split at h
  case isTrue hf =>
    rw [if_pos hf, aesWrap, bytes_bn2bin (by omega), Option.bind_some, h]
  case isFalse hf =>
    obtain rfl := Option.some.inj h
    rw [if_neg hf, ofList_bn2bin (by omega)]
    rfl

/-- If the exponent cannot be wrapped, what came back is taken for its length. -/
theorem putPrivate_of_none {d : List UInt8} (hd : d.length ≤ 512)
    (h : privateField t e format d = none) (dst : Int) :
    putPrivate t e format (bn2bin d) dst = (t.refusal, .ofList dst []) := by
  rw [putPrivate]
  rw [privateField] at h
  split at h
  case isTrue hf =>
    rw [if_pos hf, aesWrap, bytes_bn2bin (by omega), Option.bind_some, h]
  case isFalse hf => simp at h

/-- The room that wrapping needs is in the length of the buffer. -/
theorem length_privateField {d pri : List UInt8} (h : privateField t e format d = some pri) :
    pri.length = d.length + if format = t.keyWrapFormat then 8 else 0 := by
  rw [privateField] at h
  split at h
  case isTrue hf => rw [if_pos hf, t.wrap_adds _ _ _ h]
  case isFalse hf =>
    obtain rfl := Option.some.inj h
    rw [if_neg hf, Nat.add_zero]

theorem bufLen_keyOf (hd : rsa.d.length ≤ 512) (hn : rsa.n.length ≤ 512) :
    bufLen t format (keyOf p rsa) = t.sizeofMeta + 24 + p.toNat + rsa.d.length + rsa.n.length
      + if format = t.keyWrapFormat then 8 else 0 := by
  have hdLen : (keyOf p rsa).priExp.numLen.toNat = rsa.d.length := toNat_numLen_bn2bin (by omega)
  have hnLen : (keyOf p rsa).modulus.numLen.toNat = rsa.n.length := toNat_numLen_bn2bin (by omega)
  have hpLen : (keyOf p rsa).pubExp.numLen = p := rfl
  rw [bufLen, hdLen, hnLen, hpLen]
  omega

/-- The length that came back carries the pointer out of the buffer. -/
def Escapes (t : Target) (e : Env) (format : BitVec 32) (d : List UInt8) : Prop :=
  privateField t e format d = none ∧ t.refusal = -1 ∧ t.signedLen = false

/-- How far the pointer is moved over the private exponent. -/
theorem moves_put (hd : rsa.d.length ≤ 512) (dst : Int) :
    let put := putPrivate t e format (bn2bin rsa.d) dst
    put.2.dst = dst ∧
      ((∃ k : Nat, t.moves put.1 = k ∧ put.2.len = k ∧
          k ≤ rsa.d.length + if format = t.keyWrapFormat then 8 else 0)
        ∨ put.2.len = 0 ∧ t.moves put.1 = -1
        ∨ put.2.len = 0 ∧ t.moves put.1 = 2 ^ 32 - 1 ∧ Escapes t e format rsa.d) := by
  intro put
  cases h : privateField t e format rsa.d with
  | some pri =>
    have hlen := length_privateField h
    have hput : put = _ := putPrivate_of_some hd h dst
    have hbound : pri.length ≤ 520 := by split at hlen <;> omega
    have hnat : (BitVec.ofNat 32 pri.length).toNat = pri.length := toNat_numLen_bn2bin hbound
    have hmoves : t.moves (BitVec.ofNat 32 pri.length) = pri.length := by
      rw [moves_of_lt (by omega), hnat]
    refine ⟨by rw [hput]; rfl, Or.inl ⟨pri.length, by rw [hput]; exact hmoves, ?_, by omega⟩⟩
    rw [hput]
    rfl
  | none =>
    have hput : put = _ := putPrivate_of_none hd h dst
    refine ⟨by rw [hput]; rfl, ?_⟩
    rcases t.refusal_eq with hz | hm
    · -- nothing is moved over, and nothing was written
      exact Or.inl ⟨0, by rw [hput, hz]; simp [Target.moves], by rw [hput]; rfl, by omega⟩
    · right
      cases hs : t.signedLen with
      | true => exact Or.inl ⟨by rw [hput]; rfl, by rw [hput, hm]; simp [Target.moves, hs]⟩
      | false =>
        exact Or.inr ⟨by rw [hput]; rfl, by rw [hput, hm]; simp [Target.moves, hs], h, hm, hs⟩

theorem le_dwordAlign (a : Int) : a ≤ dwordAlign a ∧ dwordAlign a ≤ a + 3 := by
  rw [dwordAlign]
  omega

/-- Where the private exponent and the modulus are put. -/
def privateAt (t : Target) (p : BitVec 32) (base : Int) : Int :=
  dwordAlign (base + t.sizeofMeta + 4 + t.moves p)

def modulusAt (t : Target) (e : Env) (format p : BitVec 32) (rsa : Rsa) (base : Int) : Int :=
  let pri := privateAt t p base
  dwordAlign (pri + 4 + t.moves (putPrivate t e format (bn2bin rsa.d) (pri + 4)).1)

theorem privateAt_aligned (t : Target) (p : BitVec 32) (base : Int) : privateAt t p base % 4 = 0 :=
  Int.mul_emod_left _ _

theorem modulusAt_aligned (t : Target) (e : Env) (format p : BitVec 32) (rsa : Rsa) (base : Int) :
    modulusAt t e format p rsa base % 4 = 0 := Int.mul_emod_left _ _

@[simp] theorem putPublic_dst (number : BigNumber) (dst : Int) : (putPublic number dst).dst = dst := by
  rw [putPublic]
  split <;> rfl

@[simp] theorem putPublic_len (number : BigNumber) (dst : Int) :
    (putPublic number dst).len = number.numLen.toNat := by
  rw [putPublic]
  split <;> rfl

theorem copies_fillBlob :
    (fillBlob t e format algo (keyOf p rsa) base).copies =
      let pri := privateAt t p base
      let put := putPrivate t e format (bn2bin rsa.d) (pri + 4)
      let mod := modulusAt t e format p rsa base
      [.ofList (base + t.formatAt) (wordBytes format), .ofList (base + t.algAt) (wordBytes algo),
        .ofList (base + t.totalAt)
          (wordBytes (p + (bn2bin rsa.d).numLen + (bn2bin rsa.n).numLen)),
        .ofList (base + t.sizeofMeta) (wordBytes p),
        putPublic { bn2bin rsaF4 with numLen := p } (base + t.sizeofMeta + 4),
        put.2, .ofList pri (wordBytes put.1),
        .ofList mod (wordBytes (bn2bin rsa.n).numLen),
        ⟨mod + 4, (bn2bin rsa.n).numLen.toNat, (bn2bin rsa.n).numPtr⟩] := rfl

/-- A copy stays in front of the last six bytes of the buffer, or a length that is none has
carried it behind the buffer. -/
theorem covers_fillBlob (hp : p.toNat ≤ 4) (hd : rsa.d.length ≤ 512) (hn : rsa.n.length ≤ 512)
    {c : Copy} (hc : c ∈ (fillBlob t e format algo (keyOf p rsa) base).copies) {a : Int}
    (ha : c.Covers a) :
    base ≤ a ∧ a + 6 < base + bufLen t format (keyOf p rsa) ∨
      Escapes t e format rsa.d ∧ base + bufLen t format (keyOf p rsa) ≤ a := by
  have hlen := @bufLen_keyOf t format p rsa hd hn
  have hmp := moves_of_lt (t := t) (v := p) (by omega)
  have hpri : _ ≤ privateAt t p base ∧ privateAt t p base ≤ _ := le_dwordAlign _
  have hmod : _ ≤ modulusAt t e format p rsa base ∧ modulusAt t e format p rsa base ≤ _ :=
    le_dwordAlign _
  obtain ⟨hdst, hput⟩ := @moves_put t e format rsa hd (privateAt t p base + 4)
  have hnLen : (bn2bin rsa.n).numLen.toNat = rsa.n.length := toNat_numLen_bn2bin (by omega)
  have hmeta := t.format_inside
  have halg := t.alg_inside
  have htotal := t.total_inside
  have hwrap : (if format = t.keyWrapFormat then 8 else 0) ≤ 8 := by split <;> omega
  have hprivate : privateAt t p base + 4 + (putPrivate t e format (bn2bin rsa.d)
      (privateAt t p base + 4)).2.len + 6 ≤ base + bufLen t format (keyOf p rsa) := by
    rcases hput with ⟨k, -, hk, hle⟩ | ⟨hk, -⟩ | ⟨hk, -⟩ <;> omega
  have hmodulus : base ≤ modulusAt t e format p rsa base ∧
      modulusAt t e format p rsa base + 4 + rsa.n.length + 6 ≤ base + bufLen t format (keyOf p rsa) ∨
      Escapes t e format rsa.d ∧
        base + bufLen t format (keyOf p rsa) ≤ modulusAt t e format p rsa base := by
    rcases hput with ⟨k, hk, -, hle⟩ | ⟨-, hk⟩ | ⟨-, hk, hesc⟩
    · left; omega
    · left; omega
    · right; exact ⟨hesc, by omega⟩
  rw [copies_fillBlob] at hc
  simp only [List.mem_cons, List.not_mem_nil, or_false] at hc
  rcases hc with rfl | rfl | rfl | rfl | rfl | rfl | rfl | hlast
  -- the meta data and the two exponents
  iterate 7
    simp only [Copy.Covers, Copy.ofList, length_wordBytes, putPublic_dst, putPublic_len,
      hdst] at ha
    left; omega
  -- the modulus, which the pointer may have left the buffer for
  have hmod : modulusAt t e format p rsa base ≤ a ∧
      a < modulusAt t e format p rsa base + 4 + rsa.n.length := by
    rcases hlast with rfl | rfl <;>
      simp only [Copy.Covers, Copy.ofList, length_wordBytes, hnLen] at ha <;> omega
  rcases hmodulus with hin | ⟨hesc, hout⟩
  · left; omega
  · right; exact ⟨hesc, by omega⟩

/-! ## No stored blob is determined -/

theorem memory_of_outside {b : Blob} {a : Int} (h : ∀ c ∈ b.copies, ¬ c.Covers a) :
    b.memory a = none := by
  rw [Blob.memory]
  split
  · exact runs_outside h
  · rfl

/-- The last byte of the buffer is never written. -/
theorem not_determined_fillBlob (hp : p.toNat ≤ 4) (hd : rsa.d.length ≤ 512)
    (hn : rsa.n.length ≤ 512) : ¬ (fillBlob t e format algo (keyOf p rsa) base).Determined := by
  intro h
  have hlen := @bufLen_keyOf t format p rsa hd hn
  apply h (bufLen t format (keyOf p rsa) - 1) (show _ < bufLen t format (keyOf p rsa) by omega)
  apply memory_of_outside
  intro c hc hcov
  rcases covers_fillBlob hp hd hn hc hcov with ⟨-, hin⟩ | ⟨-, hout⟩
  · have : base + ((bufLen t format (keyOf p rsa) - 1 : Nat) : Int) + 6 < _ := hin
    omega
  · have : _ ≤ base + ((bufLen t format (keyOf p rsa) - 1 : Nat) : Int) := hout
    omega

/-- Nothing is written at all if there was no memory. -/
theorem not_determined_nullBlob (hd : rsa.d.length ≤ 512) (hn : rsa.n.length ≤ 512) :
    ¬ (nullBlob t format (keyOf p rsa)).Determined := by
  intro h
  have hlen := @bufLen_keyOf t format p rsa hd hn
  apply h 0 (show _ < bufLen t format (keyOf p rsa) by omega)
  apply memory_of_outside
  simp [nullBlob]

/-- Every blob that is stored has a byte in it that was never written: what is stored is right
only where nothing is stored, because there is a key and the user wants to keep it. -/
theorem storesRight_iff (hkey : e.rsaGenerateKey (t.bits algo) = some rsa) (hp : p = 3 ∨ p = 4)
    (hd : rsa.d.length ≤ 512) (hn : rsa.n.length ≤ 512) :
    StoresRight t e format algo p rsa ↔ Declined e := by
  have hp4 : p.toNat ≤ 4 := by rcases hp with rfl | rfl <;> simp
  constructor
  · intro h
    by_contra hdecl
    have hstored := @stored_of_not_declined t e format algo p rsa hkey hdecl
    cases hm : e.malloc (bufLen t format (keyOf p rsa)) with
    | none =>
      have hb := h (nullBlob t format (keyOf p rsa)) (by rw [hstored, hm])
      exact not_determined_nullBlob hd hn hb.determined
    | some base =>
      have hb := h (fillBlob t e format algo (keyOf p rsa) base) (by rw [hstored, hm])
      exact not_determined_fillBlob hp4 hd hn hb.determined
  · intro hdecl b hb
    rw [rsaKeyGenerateAndStore, if_pos hdecl] at hb
    simp at hb

/-- Numbers of 255 and 256 bytes. -/
def sampleRsa : Rsa := ⟨List.replicate 255 1, List.replicate 256 1⟩

theorem length_sampleRsa : sampleRsa.d.length ≤ 512 ∧ sampleRsa.n.length ≤ 512 := by
  simp only [sampleRsa, List.length_replicate]
  omega

/-- A key is there, the user gives an answer, and memory begins at the address 64. -/
def sampleEnv (answer : Option Char) : Env where
  retrieve := (-1, 1)
  scanf := answer
  rsaGenerateKey _ := some sampleRsa
  aesKek := List.replicate 32 0
  malloc _ := some 64
  save := 0
  malloc_aligned := by
    intro _ a h
    obtain rfl := Option.some.inj h
    rfl

/-- A private exponent of 255 bytes is refused. -/
def sampleTarget : Target where
  sizeofMeta := 12
  formatAt := 0
  algAt := 4
  totalAt := 8
  signedLen := false
  keyWrapFormat := 1
  secAlgRsa2048 := 1
  secAlgRsa3072 := 2
  secAlgRsa4096 := 3
  aesWrapKey _ x := if x.length = 255 then none else some (x ++ List.replicate 8 0)
  refusal := 0
  format_inside := by decide
  alg_inside := by decide
  total_inside := by decide
  format_apart_alg := by decide
  format_apart_total := by decide
  alg_apart_total := by decide
  meta_dwords := by decide
  wrap_adds := by
    intro _ x y h
    split at h
    · cases h
    · obtain rfl := Option.some.inj h
      simp
  refusal_eq := Or.inl rfl

/-- A key that is there is kept if the user answers no. -/
theorem storesRight_kept : StoresRight sampleTarget (sampleEnv (some 'n')) 2 1 4 sampleRsa :=
  (storesRight_iff rfl (Or.inr rfl) length_sampleRsa.1 length_sampleRsa.2).mpr (by decide)

/-- With the answer yes a blob is stored whose last byte nobody wrote. -/
theorem not_storesRight_overwritten : ¬ StoresRight sampleTarget (sampleEnv (some 'y')) 2 1 4 sampleRsa := by
  intro h
  have hdecl : ¬ Declined (sampleEnv (some 'y')) := by decide
  have hstored := @stored_of_not_declined sampleTarget _ 2 1 4 _ rfl hdecl
  have hb := h (fillBlob sampleTarget (sampleEnv (some 'y')) 2 1 (keyOf 4 sampleRsa) 64)
    (by rw [hstored]; rfl)
  exact not_determined_fillBlob (by decide) length_sampleRsa.1 length_sampleRsa.2 hb.determined

/-! ## When the parts are right -/

theorem inside_iff (hp : p.toNat ≤ 4) (hd : rsa.d.length ≤ 512) (hn : rsa.n.length ≤ 512) :
    (fillBlob t e format algo (keyOf p rsa) base).Inside ↔ ¬ Escapes t e format rsa.d := by
  have hcov := @covers_fillBlob t e format algo p rsa base hp hd hn
  constructor
  · intro hin hesc
    -- the length of the modulus is the first copy that is behind the buffer
    have hmem : Copy.ofList (modulusAt t e format p rsa base) (wordBytes (bn2bin rsa.n).numLen) ∈
        (fillBlob t e format algo (keyOf p rsa) base).copies := by
      rw [copies_fillBlob]
      simp
    have ha : base ≤ modulusAt t e format p rsa base ∧
        modulusAt t e format p rsa base < base + bufLen t format (keyOf p rsa) :=
      hin _ hmem _ ⟨Int.le_refl _, by simp only [Copy.ofList, length_wordBytes]; omega⟩
    have hput := @putPrivate_of_none t e format rsa.d hd hesc.1 (privateAt t p base + 4)
    have hmod : _ ≤ modulusAt t e format p rsa base := (le_dwordAlign _).1
    have hpri : _ ≤ privateAt t p base := (le_dwordAlign _).1
    have hlen := @bufLen_keyOf t format p rsa hd hn
    have hmp := moves_of_lt (t := t) (v := p) (by omega)
    have hmoves : t.moves t.refusal = 2 ^ 32 - 1 := by
      rw [Target.moves, hesc.2.2, hesc.2.1]
      rfl
    rw [hput, hmoves] at hmod
    have hwrap : (if format = t.keyWrapFormat then 8 else 0) ≤ 8 := by split <;> omega
    omega
  · intro hesc c hc a ha
    rcases hcov hc ha with ⟨hlo, hhi⟩ | ⟨h, -⟩
    · exact ⟨hlo, show a < base + bufLen t format (keyOf p rsa) by omega⟩
    · exact absurd h hesc

/-- The total is that of the plain numbers: wrapping is left out. -/
theorem totalRight_iff (hp : p.toNat ≤ 4) (hd : rsa.d.length ≤ 512) (hn : rsa.n.length ≤ 512) :
    (fillBlob t e format algo (keyOf p rsa) base).TotalRight ↔
      format ≠ t.keyWrapFormat ∨
        privateField t e format rsa.d = none ∧ t.refusal = 0 ∧ rsa.d = [] := by
  have hdLen : (bn2bin rsa.d).numLen.toNat = rsa.d.length := toNat_numLen_bn2bin (by omega)
  have hnLen : (bn2bin rsa.n).numLen.toNat = rsa.n.length := toNat_numLen_bn2bin (by omega)
  have htotal : (p + (bn2bin rsa.d).numLen + (bn2bin rsa.n).numLen).toNat =
      p.toNat + rsa.d.length + rsa.n.length := by
    rw [BitVec.toNat_add, BitVec.toNat_add, hdLen, hnLen]
    omega
  have hright : (fillBlob t e format algo (keyOf p rsa) base).TotalRight ↔
      (putPrivate t e format (bn2bin rsa.d) (privateAt t p base + 4)).1.toNat = rsa.d.length := by
    show (p + (bn2bin rsa.d).numLen + (bn2bin rsa.n).numLen).toNat = p.toNat +
      ((putPrivate t e format (bn2bin rsa.d) (privateAt t p base + 4)).1.toNat +
        ((bn2bin rsa.n).numLen.toNat + 0)) ↔ _
    rw [htotal, hnLen]
    omega
  rw [hright]
  cases h : privateField t e format rsa.d with
  | some pri =>
    have hlen := length_privateField h
    have hbound : pri.length ≤ 520 := by split at hlen <;> omega
    have hnat : (BitVec.ofNat 32 pri.length).toNat = pri.length := toNat_numLen_bn2bin hbound
    rw [putPrivate_of_some hd h, hnat]
    by_cases hf : format = t.keyWrapFormat
    · simp [hf] at hlen ⊢
      omega
    · simp [hf] at hlen ⊢
      omega
  | none =>
    have hf : format = t.keyWrapFormat := by
      by_contra hf
      simp [privateField, hf] at h
    rw [putPrivate_of_none hd h]
    rcases t.refusal_eq with hr | hr
    · simp [hr, hf, eq_comm]
    · simp [hr, hf]
      omega

theorem pairwise_apart_fillBlob (hp : p.toNat ≤ 4) (hd : rsa.d.length ≤ 512) :
    (fillBlob t e format algo (keyOf p rsa) base).copies.Pairwise Copy.Apart := by
  have hmp := moves_of_lt (t := t) (v := p) (by omega)
  have hpri : _ ≤ privateAt t p base := (le_dwordAlign _).1
  have hmod : _ ≤ modulusAt t e format p rsa base := (le_dwordAlign _).1
  have hpri4 := privateAt_aligned t p base
  have hmod4 := modulusAt_aligned t e format p rsa base
  obtain ⟨hdst, hput⟩ := @moves_put t e format rsa hd (privateAt t p base + 4)
  have hform := t.format_inside
  have halg := t.alg_inside
  have htotal := t.total_inside
  have hfa := t.format_apart_alg
  have hft := t.format_apart_total
  have hat := t.alg_apart_total
  -- the modulus is behind the length of the private exponent, also if that was none
  have hbehind : privateAt t p base + 4 + (putPrivate t e format (bn2bin rsa.d)
      (privateAt t p base + 4)).2.len ≤ modulusAt t e format p rsa base := by
    rcases hput with ⟨k, hk, hlen, -⟩ | ⟨hlen, hk⟩ | ⟨hlen, hk, -⟩ <;> omega
  rw [copies_fillBlob]
  simp only [List.pairwise_cons, List.forall_mem_cons, List.not_mem_nil, false_imp_iff,
    implies_true, and_true, List.Pairwise.nil, Copy.Apart, Copy.ofList, length_wordBytes,
    putPublic_dst, putPublic_len, hdst]
  omega

/-- What was copied inside the buffer is read back. -/
theorem memory_of_mem {b : Blob} (hin : b.Inside) (hapart : b.copies.Pairwise Copy.Apart)
    {dst : Int} {bs : List UInt8} (hc : Copy.ofList dst bs ∈ b.copies) (i : Nat)
    (hi : i < bs.length) : b.memory (dst + i) = bs[i]? := by
  have hcov : (Copy.ofList dst bs).Covers (dst + i) := by
    simp only [Copy.Covers, Copy.ofList]
    omega
  rw [Blob.memory, if_pos (hin _ hc _ hcov)]
  exact runs_of_mem hapart hc hi

theorem fieldAt_eq {b : Blob} (hin : b.Inside) (hapart : b.copies.Pairwise Copy.Apart)
    {a : Int} {v : BitVec 32} {bs : List UInt8} (ha : a % 4 = 0)
    (hlen : Copy.ofList a (wordBytes v) ∈ b.copies) (hv : v.toNat = bs.length)
    (hbs : Copy.ofList (a + 4) bs ∈ b.copies) :
    fieldAt b.memory a = some (bs, dwordAlign (a + 4 + bs.length)) := by
  have hword : word b.memory a = some bs.length := by
    rw [← hv]
    exact word_eq (memory_of_mem hin hapart hlen)
  have hread := read_eq (memory_of_mem hin hapart hbs)
  simp [fieldAt, ha, hword, hread]

/-- Of an exponent of four bytes the first was never written. -/
theorem fields_of_four (hin : (fillBlob t e format algo (keyOf 4 rsa) base).Inside)
    (hd : rsa.d.length ≤ 512) :
    fields (fillBlob t e format algo (keyOf 4 rsa) base).memory (base + t.sizeofMeta) = none := by
  have hapart := @pairwise_apart_fillBlob t e format algo 4 rsa base (by decide) hd
  have hcopies := @copies_fillBlob t e format algo 4 rsa base
  have hword := word_eq (@memory_of_mem _ hin hapart (base + t.sizeofMeta) (wordBytes 4)
    (by rw [hcopies]; simp))
  have hbyte : (fillBlob t e format algo (keyOf 4 rsa) base).memory
      (base + t.sizeofMeta + 4 + (0 : Nat)) = none := by
    rw [Blob.memory]
    split
    case isFalse => rfl
    case isTrue =>
      exact runs_of_mem hapart (c := putPublic { bn2bin rsaF4 with numLen := 4 }
        (base + t.sizeofMeta + 4)) (by rw [hcopies]; simp) (by simp)
  have hread := read_eq_none (n := (4 : BitVec 32).toNat) (by decide) hbyte
  have hfield : fieldAt (fillBlob t e format algo (keyOf 4 rsa) base).memory
      (base + t.sizeofMeta) = none := by
    rw [fieldAt, hword]
    split
    · exact congrArg (Option.bind · _) hread
    · rfl
  rw [fields, hfield]
  rfl

/-- The copies that hold the three fields. -/
theorem mem_copies {pri : List UInt8} (hp : p = 3) (hd : rsa.d.length ≤ 512) (hn : rsa.n.length ≤ 512)
    (hpri : privateField t e format rsa.d = some pri) :
    let copies := (fillBlob t e format algo (keyOf p rsa) base).copies
    Copy.ofList (base + t.sizeofMeta) (wordBytes p) ∈ copies ∧
      Copy.ofList (base + t.sizeofMeta + 4) rsaF4 ∈ copies ∧
      Copy.ofList (privateAt t p base) (wordBytes (BitVec.ofNat 32 pri.length)) ∈ copies ∧
      Copy.ofList (privateAt t p base + 4) pri ∈ copies ∧
      Copy.ofList (modulusAt t e format p rsa base) (wordBytes (bn2bin rsa.n).numLen) ∈ copies ∧
      Copy.ofList (modulusAt t e format p rsa base + 4) rsa.n ∈ copies := by
  have hput := putPrivate_of_some hd hpri (privateAt t p base + 4)
  have hpub : Copy.ofList (base + t.sizeofMeta + 4) rsaF4 =
      putPublic { bn2bin rsaF4 with numLen := p } (base + t.sizeofMeta + 4) := by
    rw [hp]
    rfl
  have hmod := @ofList_bn2bin rsa.n (by omega) (modulusAt t e format p rsa base + 4)
  rw [hpub, ← hmod, copies_fillBlob]
  simp [hput]

/-- A blob can be read back if the exponent is asked for with its three bytes and the private
exponent can be stored. -/
theorem parses_iff (hp : p = 3 ∨ p = 4) (hd : rsa.d.length ≤ 512) (hn : rsa.n.length ≤ 512)
    (hbase : base % 4 = 0) :
    (fillBlob t e format algo (keyOf p rsa) base).Parses t e format rsa ↔
      p = 3 ∧ privateField t e format rsa.d ≠ none := by
  have hp4 : p.toNat ≤ 4 := by rcases hp with rfl | rfl <;> simp
  have hinside : ∀ {pri}, privateField t e format rsa.d = some pri →
      (fillBlob t e format algo (keyOf p rsa) base).Inside := by
    intro pri hpri
    apply (inside_iff hp4 hd hn).mpr
    intro hesc
    rw [hesc.1] at hpri
    cases hpri
  constructor
  · rintro ⟨pub, pri, -, hpri, hfields⟩
    refine ⟨?_, by simp [hpri]⟩
    rcases hp with h3 | rfl
    · exact h3
    · have hnone := fields_of_four (hinside hpri) hd
      exact absurd (hfields.symm.trans hnone) (by simp)
  · rintro ⟨h3, hsome⟩
    obtain ⟨pri, hpri⟩ := Option.ne_none_iff_exists'.mp hsome
    have hin := hinside hpri
    have hapart := @pairwise_apart_fillBlob t e format algo p rsa base hp4 hd
    obtain ⟨hpubLen, hpub, hpriLen, hpriBytes, hmodLen, hmod⟩ :=
      @mem_copies t e format algo p rsa base pri h3 hd hn hpri
    have hlen := length_privateField hpri
    have hbound : pri.length ≤ 520 := by split at hlen <;> omega
    have hnat : (BitVec.ofNat 32 pri.length).toNat = pri.length := toNat_numLen_bn2bin hbound
    have hmoves : t.moves (BitVec.ofNat 32 pri.length) = pri.length := by
      rw [moves_of_lt (by omega), hnat]
    have hpriAt : dwordAlign (base + t.sizeofMeta + 4 + rsaF4.length) = privateAt t p base := by
      rw [privateAt, moves_of_lt (by omega), h3]
      rfl
    have hmodAt : dwordAlign (privateAt t p base + 4 + pri.length) =
        modulusAt t e format p rsa base := by
      rw [modulusAt, putPrivate_of_some hd hpri, hmoves]
    have hmeta := t.meta_dwords
    -- the three fields, each found where the one before it ends
    have hfirst := fieldAt_eq hin hapart (by omega) hpubLen (by rw [h3]; rfl) hpub
    have hsecond := fieldAt_eq hin hapart (privateAt_aligned t p base) hpriLen hnat hpriBytes
    have hthird := fieldAt_eq hin hapart (modulusAt_aligned t e format p rsa base) hmodLen
      (toNat_numLen_bn2bin (by omega)) hmod
    rw [hpriAt] at hfirst
    rw [hmodAt] at hsecond
    refine ⟨rsaF4, pri, Or.inl rfl, hpri, ?_⟩
    show fields _ (base + t.sizeofMeta) = _
    rw [fields, hfirst]
    show (fieldAt _ (privateAt t p base)).bind _ = _
    rw [hsecond]
    show (fieldAt _ (modulusAt t e format p rsa base)).bind _ = _
    rw [hthird]
    rfl

end Lengths

end Seccrypto.RsaBlob
