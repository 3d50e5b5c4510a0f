import MxlUtils.Lib.CString
import MxlUtils.Lib.Getopt
import MxlUtils.Seccrypto.SignatureFile

/- The command line client of the secure crypto service: the option parsers of its seven
   commands and the round of its main loop. The values of the enumerators and the sizes
   of the structures come from a header outside the repository and are a `Header`; files,
   memory and the secure storage are an `Env`. A parser yields what is handed to the
   service, or nothing if it refuses the command, with the accesses it made to its
   buffers. -/
namespace Seccrypto
open CString Getopt

abbrev Word := List Char

/-- Enumerators, sizes and the width of an unsigned long. -/
structure Header where
  layout : Layout
  longBits : Nat
  algRsa2048 : Nat
  algRsa3072 : Nat
  algRsa4096 : Nat
  algEcdsaP256 : Nat
  algEcdsaP384 : Nat
  algAesWrapUnwrap : Nat
  returnKeyPair : Nat
  returnKeyNone : Nat
  privateKeyBlob : Nat
  privateKeyPlaintext : Nat
  keyAes : Nat
  keyRsa : Nat
  rsaPkcs15Sha1 : Nat
  rsaPkcs15Sha512 : Nat
  ecdsaAsn1Sha384 : Nat
  scFlagPartial : Nat
  scFlagFinal : Nat
  wrapKeySsHandle : Nat
  wrapKeyBuffer : Nat
  wrapKeyTeeAsset : Nat
  wrapInputSsHandle : Nat
  wrapInputBuffer : Nat
  unwrapKeySsHandle : Nat
  unwrapKeyBuffer : Nat
  unwrapKeyOtp : Nat
  unwrapInputSsHandle : Nat
  unwrapInputBuffer : Nat
  unwrapOutputSsHandle : Nat
  unwrapOutputTeeAsset : Nat
  unwrapOutputBuffer : Nat
  macKeySecureStore : Nat
  macKeyBuffer : Nat
  macKeyOtp : Nat
  macHmacSha1 : Nat
  macHmacSha224 : Nat
  macHmacSha256 : Nat
  macHmacSha384 : Nat
  macHmacSha512 : Nat
  macAesCmac : Nat
  macAesCbcMac : Nat
  macPoly1305 : Nat
  sizeofSign : Nat
  sizeofSstParams : Nat

/-- A number that is stored in a field of 32 bits. -/
def Header.number (h : Header) (arg : Word) : Nat := strtoul h.longBits arg % 2 ^ 32

structure SstParams where
  handle : Nat
  accessPerm : Nat
  policyAttr : Nat
  cryptoModeFlag : Nat
deriving DecidableEq

/-- `file` is the content of a file, if it can be opened and read; `createOpen` opens an object
without or with SS_CREATE; `stored` is the length securestore_retrieve gives, if it gives one;
`keyStored` says whether a generated key was stored. -/
structure Env where
  file : Word → Option Bytes
  mem : Memory
  createOpen : Word → Nat → Bool → Option Nat
  stored : Nat → Option Nat
  keyStored : Nat → Nat → Nat → Nat → Bool
  file_nil : file [] = none

variable (h : Header) (e : Env)

/-! ## Files, names and storage -/

/-- The bytes of a string. -/
def bytes (s : Word) : Bytes := s.map fun c => UInt8.ofNat c.toNat

/-- The length is kept in 32 bits, and a NUL is put behind the data. -/
def readFile (name : Word) : Option Bytes × List Access :=
  match e.file name with
  | none => (none, [])
  | some content =>
    let dataLen := content.length % 2 ^ 32
    if dataLen = 0 then (none, [])
    else if e.mem.alloc dataLen = false then (none, [])
    else (some (content.take dataLen), [⟨dataLen, dataLen⟩, ⟨dataLen, dataLen + 1⟩])

/-- `strncpy(buf, arg, n); buf[strlen(arg)] = '\0'` for a buffer of `size` bytes. -/
def copies (size n : Nat) (arg : Word) : List Access := [⟨size, n⟩, ⟨size, arg.length + 1⟩]

def objectName (arg : Word) : Word := arg.take 29

def fillSecureStorageDetails (name : Word) (config : Nat) : Option SstParams :=
  match (e.createOpen name config false).or (e.createOpen name config true) with
  | none => none
  | some handle => some ⟨handle, config % 2 ^ 8, config / 2 ^ 8 % 2 ^ 16, config / 2 ^ 24 % 2 ^ 8⟩

inductive Ptr where
  | null
  | data (b : Bytes)
  | sst (p : SstParams)
  | fresh (size : Nat)
deriving DecidableEq

/-- New memory that the service fills. -/
def newBuffer (size : Nat) : Ptr := if e.mem.alloc size then .fresh size else .null

/-! ## What the service is handed -/

structure WrapUnwrap where
  flags : Nat
  key : Ptr
  keySize : Nat
  input : Ptr
  inputSize : Nat
  output : Ptr
  outputSize : Nat
deriving DecidableEq

structure MacGen where
  macAlgo : Nat
  flags : Nat
  macKey : Ptr
  keySize : Nat
  input : Ptr
  inputSize : Nat
  outputSize : Nat
deriving DecidableEq

/-- The parameters of a command, and the files it reads and writes. -/
inductive Handed where
  | genKey (algo flag : Nat) (sst : SstParams) (keyPtr : Ptr)
  | loadKey (algo hash flags keyType : Nat) (sst : SstParams)
  | sign (algo hash flags : Nat) (data : Bytes) (signature : Ptr) (size : Nat) (inputName outputName : Word)
  | verify (algo hash flags : Nat) (data : Bytes) (signature : Signature) (inputName signName : Word)
  | wrap (params : WrapUnwrap) (outputName : Word)
  | unwrap (params : WrapUnwrap)
  | macGen (params : MacGen)
deriving DecidableEq

/-! ## The loop over the options -/

/-- What one option or a whole loop leaves: whether it goes on, and the accesses made. -/
structure Outcome (σ : Type) where
  state : σ
  ok : Bool
  log : List Access

def scanLoop {σ : Type} (step : σ → Char → Word → Outcome σ) : σ → List Scanned → Outcome σ
  | s, [] => ⟨s, true, []⟩
  | s, none :: _ => ⟨s, false, []⟩
  | s, some (c, arg) :: opts =>
    let r := step s c arg
    if r.ok then { scanLoop step r.state opts with log := r.log ++ (scanLoop step r.state opts).log } else r

/-- What every accepted option preserves, holds at the end of the options if all are accepted. -/
theorem scanLoop_inv {σ : Type} {step : σ → Char → Word → Outcome σ} {I : σ → List Scanned → Prop}
    (hstep : ∀ s c arg opts, I s (some (c, arg) :: opts) → (step s c arg).ok = true → I (step s c arg).state opts)
    {s : σ} {opts : List Scanned} (hs : I s opts) (hok : (scanLoop step s opts).ok = true) :
    I (scanLoop step s opts).state [] := by
  induction opts generalizing s with
  | nil => exact hs
  | cons o opts ih =>
    cases o with
    | none => cases hok
    | some o =>
      obtain ⟨c, arg⟩ := o
      by_cases hone : (step s c arg).ok = true
      · simp only [scanLoop, hone, if_true] at hok ⊢
        exact ih (hstep s c arg opts hs hone) hok
      · rw [scanLoop, if_neg hone] at hok
        exact (hone hok).elim

/-- What every option preserves, accepted or not, holds where the loop ends. -/
theorem scanLoop_keeps {σ : Type} {step : σ → Char → Word → Outcome σ} {I : σ → Prop}
    (hstep : ∀ s c arg, I s → I (step s c arg).state) {s : σ} {opts : List Scanned} (hs : I s) :
    I (scanLoop step s opts).state := by
  induction opts generalizing s with
  | nil => exact hs
  | cons o opts ih =>
    cases o with
    | none => exact hs
    | some o =>
      obtain ⟨c, arg⟩ := o
      have hone := hstep s c arg hs
      simp only [scanLoop]
      split
      · exact ih hone
      · exact hone

/-- What a parser leaves, and what it hands to the service if it accepts the options. -/
structure Parsed (σ : Type) where
  state : σ
  handed : Option Handed
  log : List Access

def Outcome.refuse {σ : Type} (r : Outcome σ) : Parsed σ := ⟨r.state, none, r.log⟩

/-! ## gen -/

structure KeygenState where
  algo : Nat := 0
  flag : Nat := 0
  name : Word := []
  config : Nat := 0

def keygenOptions : Options :=
  ⟨"a:o:n:c:", [⟨"algo", true, 'a'⟩, ⟨"options", true, 'o'⟩, ⟨"name", true, 'n'⟩, ⟨"config", true, 'c'⟩]⟩

def keygenStep (s : KeygenState) (c : Char) (arg : Word) : Outcome KeygenState :=
  match c with
  | 'a' => ⟨{ s with algo := h.number arg }, true, []⟩
  | 'o' => ⟨{ s with flag := h.number arg }, true, []⟩
  | 'n' => ⟨{ s with name := objectName arg }, true, copies 30 29 arg⟩
  | 'c' => ⟨{ s with config := h.number arg }, true, []⟩
  | _ => ⟨s, false, []⟩

def parseKeygenOptions (opts : List Scanned) : Parsed KeygenState :=
  let r := scanLoop (keygenStep h) {} opts
  let s := r.state
  if r.ok = false then r.refuse
  else if s.name = [] then r.refuse
  else if s.config = 0 then r.refuse
  else match fillSecureStorageDetails e s.name s.config with
    | none => r.refuse
    | some sst =>
      if s.algo ≠ h.algEcdsaP256 ∧ s.algo ≠ h.algEcdsaP384 then r.refuse
      else if s.flag < h.returnKeyPair ∨ h.returnKeyNone < s.flag then r.refuse
      else ⟨s, some (.genKey s.algo s.flag sst (if s.flag ≠ h.returnKeyNone then newBuffer e 1024 else .null)), r.log⟩

/-! ## load -/

structure KeyloadState where
  algo : Nat := 0
  hash : Nat := 0
  flags : Nat := 0
  keyType : Nat := 0
  name : Word := []
  config : Nat := 0

def keyloadOptions : Options :=
  ⟨"a:h:o:t:n:c:", [⟨"algo", true, 'a'⟩, ⟨"hash", true, 'h'⟩, ⟨"options", true, 'o'⟩, ⟨"ktype", true, 't'⟩,
    ⟨"name", true, 'n'⟩, ⟨"config", true, 'c'⟩]⟩

def keyloadStep (s : KeyloadState) (c : Char) (arg : Word) : Outcome KeyloadState :=
  match c with
  | 'a' => ⟨{ s with algo := h.number arg }, true, []⟩
  | 'h' => ⟨{ s with hash := h.number arg }, true, []⟩
  | 'o' => ⟨{ s with flags := h.number arg }, true, []⟩
  | 't' => ⟨{ s with keyType := h.number arg }, true, []⟩
  | 'n' => ⟨{ s with name := objectName arg }, true, copies 30 29 arg⟩
  | 'c' => ⟨{ s with config := h.number arg }, true, []⟩
  | _ => ⟨s, false, []⟩

/-- The keys that the client makes and stores itself. -/
def storesKey (s : KeyloadState) (sst : SstParams) : Bool :=
  let pubKeyLen := if h.rsaPkcs15Sha1 ≤ s.hash ∧ s.hash ≤ h.rsaPkcs15Sha512 then 3 else 4
  if s.algo ∈ [h.algRsa2048, h.algRsa3072, h.algRsa4096, h.algAesWrapUnwrap] then
    e.keyStored s.flags s.algo pubKeyLen sst.handle
  else true

def parseKeyloadOptions (opts : List Scanned) : Parsed KeyloadState :=
  let r := scanLoop (keyloadStep h) {} opts
  let s := r.state
  if r.ok = false then r.refuse
  else if s.config = 0 then r.refuse
  else if s.name = [] then r.refuse
  else if s.flags < h.privateKeyBlob ∨ h.privateKeyPlaintext < s.flags then r.refuse
  else if s.keyType < h.keyAes ∨ h.keyRsa < s.keyType then r.refuse
  else if s.hash < h.rsaPkcs15Sha1 ∨ h.ecdsaAsn1Sha384 < s.hash then r.refuse
  else match fillSecureStorageDetails e s.name s.config with
    | none => r.refuse
    | some sst =>
      if storesKey h e s sst = false then r.refuse
      else ⟨s, some (.loadKey s.algo s.hash s.flags s.keyType sst), r.log⟩

/-! ## sign and verify -/

/-- The parameters of a signature, and the two file name buffers of the client. -/
structure SignState where
  algo : Nat
  flags : Nat
  hash : Nat
  inputFname : List Char
  outputFname : List Char
deriving DecidableEq

def signOptions : Options :=
  ⟨"a:h:o:i:s:", [⟨"algo", true, 'a'⟩, ⟨"hash", true, 'h'⟩, ⟨"options", true, 'o'⟩, ⟨"input", true, 'i'⟩,
    ⟨"sign", true, 's'⟩]⟩

def verifyOptions : Options := signOptions

def signStep (s : SignState) (c : Char) (arg : Word) : Outcome SignState :=
  match c with
  | 'a' => ⟨{ s with algo := h.number arg }, true, []⟩
  | 'o' => ⟨{ s with flags := h.number arg }, true, []⟩
  | 'i' => ⟨{ s with inputFname := copyName s.inputFname arg 199 }, true, copies 200 199 arg⟩
  | 's' => ⟨{ s with outputFname := copyName s.outputFname arg 199 }, true, copies 200 199 arg⟩
  | 'h' => ⟨{ s with hash := h.number arg }, true, []⟩
  | _ => ⟨s, false, []⟩

def isRsaAlg (algo : Nat) : Bool := algo ∈ [h.algRsa2048, h.algRsa4096, h.algRsa3072]

def isEcdsaAlg (algo : Nat) : Bool := algo ∈ [h.algEcdsaP256, h.algEcdsaP384]

def signatureLen (algo : Nat) : Nat :=
  if algo = h.algRsa2048 then 2048 / 8
  else if algo = h.algRsa3072 then 3072 / 8
  else if algo = h.algRsa4096 then 4096 / 8
  else if algo = h.algEcdsaP256 then 256 / 8
  else if algo = h.algEcdsaP384 then 384 / 8
  else 0

/-- The checks of the flags and the hash algorithm, in both parsers. -/
def signRefused (s : SignState) : Bool :=
  s.flags < h.scFlagPartial || h.scFlagFinal < s.flags || s.hash < h.rsaPkcs15Sha1 || h.ecdsaAsn1Sha384 < s.hash

def parseSigningOptions (s : SignState) (opts : List Scanned) : Parsed SignState :=
  let r := scanLoop (signStep h) s opts
  let s := r.state
  if r.ok = false then r.refuse
  else if signRefused h s = true then r.refuse
  else
    let data := readFile e (cstr s.inputFname)
    let log := r.log ++ data.2
    match data.1 with
    | none => ⟨s, none, log⟩
    | some data =>
      let size := h.sizeofSign + data.length + h.sizeofSign + signatureLen h s.algo
      let handed := fun buffer =>
        some (Handed.sign s.algo s.hash s.flags data (newBuffer e buffer) size (cstr s.inputFname) (cstr s.outputFname))
      if isRsaAlg h s.algo then ⟨s, handed (h.layout.rsaSize + signatureLen h s.algo), log⟩
      else if isEcdsaAlg h s.algo then ⟨s, handed (h.layout.ecdsaSize + signatureLen h s.algo * 2), log⟩
      else ⟨s, none, log⟩

/-- Only whether the signature could be read is looked at, not its kind. -/
def parseVerifyOptions (s : SignState) (opts : List Scanned) : Parsed SignState :=
  let r := scanLoop (signStep h) s opts
  let s := r.state
  if r.ok = false then r.refuse
  else if signRefused h s = true then r.refuse
  else
    let data := readFile e (cstr s.inputFname)
    let log := r.log ++ data.2
    match data.1 with
    | none => ⟨s, none, log⟩
    | some data =>
      if isRsaAlg h s.algo = true ∨ isEcdsaAlg h s.algo = true then
        let signature := readFile2sign h.layout e.mem (e.file (cstr s.outputFname))
        match signature.1 with
        | none => ⟨s, none, log ++ signature.2⟩
        | some sign =>
          ⟨s, some (.verify s.algo s.hash s.flags data sign (cstr s.inputFname) (cstr s.outputFname)),
            log ++ signature.2⟩
      else ⟨s, none, log⟩

/-! ## A header -/

/-- The number in four bytes, the lowest first. -/
def leNumber (b : Bytes) : Nat := (b.take 4).foldr (fun x v => x.toNat + 256 * v) 0

/-- Structures of a pointer of 8 bytes and a length, for each number. -/
def Layout.lp64 : Layout where
  sizeBits := 64
  rsaSize := 16
  ecdsaSize := 32
  rsaLen b := leNumber (b.drop 8)
  rLen b := leNumber (b.drop 8)
  sLen b := leNumber (b.drop 24)
  rsaSize_pos := by decide
  ecdsaSize_pos := by decide

/-- The enumerators as the help text numbers them, and the flags in their order. -/
def Header.help : Header where
  layout := .lp64
  longBits := 64
  algRsa2048 := 0
  algRsa3072 := 1
  algRsa4096 := 2
  algEcdsaP256 := 3
  algEcdsaP384 := 4
  algAesWrapUnwrap := 5
  returnKeyPair := 0
  returnKeyNone := 3
  privateKeyBlob := 1
  privateKeyPlaintext := 2
  keyAes := 0
  keyRsa := 2
  rsaPkcs15Sha1 := 0
  rsaPkcs15Sha512 := 3
  ecdsaAsn1Sha384 := 9
  scFlagPartial := 0
  scFlagFinal := 1
  wrapKeySsHandle := 0
  wrapKeyBuffer := 1
  wrapKeyTeeAsset := 2
  wrapInputSsHandle := 3
  wrapInputBuffer := 4
  unwrapKeySsHandle := 0
  unwrapKeyBuffer := 1
  unwrapKeyOtp := 2
  unwrapInputSsHandle := 3
  unwrapInputBuffer := 4
  unwrapOutputSsHandle := 5
  unwrapOutputTeeAsset := 6
  unwrapOutputBuffer := 7
  macKeySecureStore := 0
  macKeyBuffer := 1
  macKeyOtp := 2
  macHmacSha1 := 0
  macHmacSha224 := 1
  macHmacSha256 := 2
  macHmacSha384 := 3
  macHmacSha512 := 4
  macAesCmac := 5
  macAesCbcMac := 6
  macPoly1305 := 7
  sizeofSign := 64
  sizeofSstParams := 16

end Seccrypto
