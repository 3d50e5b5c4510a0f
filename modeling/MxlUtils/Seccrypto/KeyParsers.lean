import MxlUtils.Seccrypto.Client

/- The parsers of wrap, unwrap and macgen. An option that names a source acts on the key,
   the input or the output after whose letter it stands: `prev` is the option before it.
   Each source sets a flag, and all flags set are kept. -/
namespace Seccrypto
open CString Getopt

variable (h : Header) (e : Env)

/-! ## Sources -/

/-- The object of a name and a configuration with its length, which stays `dataLen` if the storage
gives none. -/
def storedObject (name : Word) (config dataLen : Nat) : Option (SstParams × Nat) :=
  if config = 0 then none
  else if name = [] then none
  else if e.mem.alloc h.sizeofSstParams = false then none
  else match fillSecureStorageDetails e name config with
    | none => none
    | some sst =>
      let dataLen := (e.stored sst.handle).getD dataLen
      if dataLen = 0 then none else some (sst, dataLen)

/-- The file name is copied to a buffer before it is looked at. -/
def loadFile (arg : Word) : Option Bytes × List Access :=
  if arg = [] then (none, copies 200 199 arg)
  else ((readFile e (arg.take 199)).1, copies 200 199 arg ++ (readFile e (arg.take 199)).2)

/-- A NUL is put behind the copy of a string. -/
def copyString (arg : Word) : Option Bytes × List Access :=
  if arg.length = 0 then (none, [])
  else if e.mem.alloc arg.length = false then (none, [])
  else (some (bytes arg), [⟨arg.length, arg.length⟩, ⟨arg.length, arg.length + 1⟩])

/-- The bits of the sources of keys and inputs. -/
structure SourceFlags where
  keySsHandle : Nat
  keyBuffer : Nat
  inputSsHandle : Nat
  inputBuffer : Nat

/-- The local variables of the parsers, with the fields of the block they fill. -/
structure SourceState where
  flags : Nat := 0
  key : Ptr := .null
  keySize : Nat := 0
  input : Ptr := .null
  inputSize : Nat := 0
  output : Ptr := .null
  macAlgo : Nat := 0
  outputFname : List Char
  name : Word := []
  dataLen : Nat := 0
  prev : Char := '0'
  mainOpt : Char := '0'

def SourceState.setFlag (s : SourceState) (bit : Nat) : SourceState := { s with flags := s.flags ||| 1 <<< bit }

def SourceState.setKey (s : SourceState) (p : Ptr) (size : Nat) : SourceState := { s with key := p, keySize := size }

def SourceState.setInput (s : SourceState) (p : Ptr) (size : Nat) : SourceState :=
  { s with input := p, inputSize := size }

/-- The next option, with `c` as the one before it. -/
def SourceState.next (s : SourceState) (c : Char) (log : List Access) : Outcome SourceState :=
  ⟨{ s with prev := c }, true, log⟩

def SourceState.stop (s : SourceState) (log : List Access) : Outcome SourceState := ⟨s, false, log⟩

/-- Data for the key or the input, for the cases `f` and `s` of wrap and unwrap. -/
def SourceState.takeData (F : SourceFlags) (s : SourceState) (c : Char) (got : Option Bytes × List Access) :
    Outcome SourceState :=
  match got.1 with
  | none => s.stop got.2
  | some b =>
    let s := { s with dataLen := b.length }
    if s.prev = 'k' then ((s.setKey (.data b) b.length).setFlag F.keyBuffer).next c got.2
    else ((s.setInput (.data b) b.length).setFlag F.inputBuffer).next c got.2

/-! ## wrap -/

def wrapOptions : Options :=
  ⟨"kio:n:c:f:s:t", [⟨"key", false, 'k'⟩, ⟨"input", false, 'i'⟩, ⟨"output", true, 'o'⟩, ⟨"name", true, 'n'⟩,
    ⟨"config", true, 'c'⟩, ⟨"file", true, 'f'⟩, ⟨"string", true, 's'⟩, ⟨"tep", false, 't'⟩]⟩

def wrapFlags : SourceFlags := ⟨h.wrapKeySsHandle, h.wrapKeyBuffer, h.wrapInputSsHandle, h.wrapInputBuffer⟩

def wrapStep (s : SourceState) (c : Char) (arg : Word) : Outcome SourceState :=
  match c with
  | 'k' => { s with mainOpt := 'k' }.next 'k' []
  | 'i' => { s with mainOpt := 'i' }.next 'i' []
  | 'o' => { s with outputFname := copyName s.outputFname arg 29 }.next 'o' (copies 200 29 arg)
  | 'n' =>
    if s.prev = 'k' then ({ s with name := objectName arg }.setFlag h.wrapKeySsHandle).next 'n' (copies 30 29 arg)
    else if s.prev = 'i' then
      ({ s with name := objectName arg }.setFlag h.wrapInputSsHandle).next 'n' (copies 30 29 arg)
    else s.stop []
  | 'c' =>
    if s.prev ≠ 'n' then s.stop []
    else match storedObject h e s.name (h.number arg) s.dataLen with
      | none => s.stop []
      | some (sst, dataLen) =>
        let s := { s with dataLen := dataLen }
        if s.mainOpt = 'k' then (s.setKey (.sst sst) dataLen).next 'c' []
        else (s.setInput (.sst sst) dataLen).next 'c' []
  | 'f' => if s.prev = 'k' ∨ s.prev = 'i' then s.takeData (wrapFlags h) 'f' (loadFile e arg) else s.stop []
  | 's' =>
    -- without -k or -i before it, the option is only complained about
    if s.prev = 'k' ∨ s.prev = 'i' then s.takeData (wrapFlags h) 's' (copyString e arg) else s.next 's' []
  | 't' => if s.prev = 'k' then ((s.setKey .null 0).setFlag h.wrapKeyTeeAsset).next 't' [] else s.stop []
  | _ => s.stop []

def parseWrapOptions (outputFname : List Char) (opts : List Scanned) : Parsed SourceState :=
  let r := scanLoop (wrapStep h e) { outputFname := outputFname } opts
  let s := r.state
  if r.ok = false then r.refuse
  else if s.input = .null then r.refuse
  else if s.key = .null ∧ s.flags.testBit h.wrapKeyTeeAsset = false then r.refuse
  else
    let outputSize := if s.inputSize ≠ 0 then (s.inputSize + 8) % 2 ^ 32 else 0
    let output := if s.inputSize ≠ 0 then newBuffer e outputSize else .null
    ⟨s, some (.wrap ⟨s.flags, s.key, s.keySize, s.input, s.inputSize, output, outputSize⟩ (cstr s.outputFname)), r.log⟩

/-! ## unwrap -/

def unwrapOptions : Options :=
  ⟨"kion:c:f:s:t", [⟨"key", false, 'k'⟩, ⟨"input", false, 'i'⟩, ⟨"output", false, 'o'⟩, ⟨"name", true, 'n'⟩,
    ⟨"config", true, 'c'⟩, ⟨"file", true, 'f'⟩, ⟨"string", true, 's'⟩, ⟨"tep", false, 't'⟩]⟩

def unwrapFlags : SourceFlags :=
  ⟨h.unwrapKeySsHandle, h.unwrapKeyBuffer, h.unwrapInputSsHandle, h.unwrapInputBuffer⟩

/-- For the output, an object is opened and not read. -/
def outputObject (name : Word) (config : Nat) : Option SstParams :=
  if config = 0 then none
  else if name = [] then none
  else if e.mem.alloc h.sizeofSstParams = false then none
  else fillSecureStorageDetails e name config

def unwrapStep (s : SourceState) (c : Char) (arg : Word) : Outcome SourceState :=
  match c with
  | 'k' => { s with mainOpt := 'k' }.next 'k' []
  | 'i' => { s with mainOpt := 'i' }.next 'i' []
  | 'o' => { s with mainOpt := 'o' }.next 'o' []
  | 'n' =>
    if s.prev = 'k' then ({ s with name := objectName arg }.setFlag h.unwrapKeySsHandle).next 'n' (copies 30 29 arg)
    else if s.prev = 'i' then
      ({ s with name := objectName arg }.setFlag h.unwrapInputSsHandle).next 'n' (copies 30 29 arg)
    else if s.prev = 'o' then
      ({ s with name := objectName arg }.setFlag h.unwrapOutputSsHandle).next 'n' (copies 30 29 arg)
    else s.stop []
  | 'c' =>
    if s.prev ≠ 'n' then s.stop []
    else if s.mainOpt = 'k' ∨ s.mainOpt = 'i' then
      match storedObject h e s.name (h.number arg) s.dataLen with
      | none => s.stop []
      | some (sst, dataLen) =>
        let s := { s with dataLen := dataLen }
        if s.mainOpt = 'k' then (s.setKey (.sst sst) dataLen).next 'c' []
        else (s.setInput (.sst sst) dataLen).next 'c' []
    else
      match outputObject h e s.name (h.number arg) with
      | none => s.stop []
      | some sst => { s with output := .sst sst }.next 'c' []
  | 'f' => if s.prev = 'k' ∨ s.prev = 'i' then s.takeData (unwrapFlags h) 'f' (loadFile e arg) else s.stop []
  | 's' => if s.prev = 'k' ∨ s.prev = 'i' then s.takeData (unwrapFlags h) 's' (copyString e arg) else s.next 's' []
  | 't' =>
    if s.prev = 'k' then ((s.setKey .null 32).setFlag h.unwrapKeyOtp).next 't' []
    else if s.prev = 'o' then ({ s with output := .null }.setFlag h.unwrapOutputTeeAsset).next 't' []
    else s.stop []
  | _ => s.stop []

/-- The output size is reckoned in 32 bits. -/
def parseUnwrapOptions (opts : List Scanned) : Parsed SourceState :=
  let r := scanLoop (unwrapStep h e) { outputFname := [] } opts
  let s := r.state
  if r.ok = false then r.refuse
  else if s.input = .null then r.refuse
  else if s.key = .null ∧ s.flags.testBit h.unwrapKeyOtp = false then r.refuse
  else
    let outputSize := (s.inputSize + (2 ^ 32 - 8)) % 2 ^ 32
    let buffer := !(s.flags.testBit h.unwrapOutputSsHandle || s.flags.testBit h.unwrapOutputTeeAsset)
    let flags := if buffer then s.flags ||| 1 <<< h.unwrapOutputBuffer else s.flags
    let output := if buffer then newBuffer e outputSize else s.output
    ⟨s, some (.unwrap ⟨flags, s.key, s.keySize, s.input, s.inputSize, output, outputSize⟩), r.log⟩

/-! ## macgen -/

def macgenOptions : Options :=
  ⟨"a:ikn:c:f:t:", [⟨"algo", true, 'a'⟩, ⟨"input", false, 'i'⟩, ⟨"key", false, 'k'⟩, ⟨"name", true, 'n'⟩,
    ⟨"config", true, 'c'⟩, ⟨"file", true, 'f'⟩, ⟨"tep", true, 't'⟩]⟩

/-- `*data = strtoul(arg, NULL, 16)` through a pointer to bytes, in four bytes of zeros. -/
def otpNumber (arg : Word) : Bytes := [UInt8.ofNat (strtoul h.longBits arg), 0, 0, 0]

def macgenStep (s : SourceState) (c : Char) (arg : Word) : Outcome SourceState :=
  match c with
  | 'k' => { s with mainOpt := 'k' }.next 'k' []
  | 'i' => { s with mainOpt := 'i' }.next 'i' []
  | 'a' => { s with macAlgo := h.number arg }.next 'a' []
  | 'n' => if s.prev ≠ 'k' then s.stop [] else { s with name := objectName arg }.next 'n' (copies 30 29 arg)
  | 'c' =>
    if s.prev ≠ 'n' ∨ s.mainOpt ≠ 'k' then s.stop []
    else match storedObject h e s.name (h.number arg) s.dataLen with
      | none => s.stop []
      | some (sst, dataLen) =>
        (({ s with dataLen := dataLen }.setKey (.sst sst) dataLen).setFlag h.macKeySecureStore).next 'c' []
  | 'f' =>
    if s.prev = 'k' ∨ s.prev = 'i' then
      match (loadFile e arg).1 with
      | none => s.stop (loadFile e arg).2
      | some b =>
        let s := { s with dataLen := b.length }
        if s.prev = 'k' then ((s.setKey (.data b) b.length).setFlag h.macKeyBuffer).next 'f' (loadFile e arg).2
        else (s.setInput (.data b) b.length).next 'f' (loadFile e arg).2
    else s.stop []
  | 't' =>
    if s.prev ≠ 'k' then s.stop []
    else if e.mem.alloc 4 = false then s.stop []
    else ((s.setKey (.data (otpNumber h arg)) 4).setFlag h.macKeyOtp).next 't' [⟨4, 1⟩]
  | _ => s.stop []

def Header.macOutputSize (macAlgo : Nat) : Option Nat :=
  if macAlgo = h.macHmacSha1 then some 20
  else if macAlgo = h.macHmacSha224 then some 28
  else if macAlgo = h.macHmacSha256 then some 32
  else if macAlgo = h.macHmacSha384 then some 48
  else if macAlgo = h.macHmacSha512 then some 64
  else if macAlgo = h.macAesCmac then some 20
  else if macAlgo = h.macAesCbcMac then some 20
  else if macAlgo = h.macPoly1305 then some 20
  else none

def parseMacgenOptions (opts : List Scanned) : Parsed SourceState :=
  let r := scanLoop (macgenStep h e) { outputFname := [] } opts
  let s := r.state
  if r.ok = false then r.refuse
  else match h.macOutputSize s.macAlgo with
    | none => r.refuse
    | some outputSize =>
      if s.key = .null ∨ s.keySize = 0 ∨ s.flags < 1 <<< h.macKeySecureStore ∨ 1 <<< h.macKeyOtp < s.flags then r.refuse
      else if s.input = .null ∨ s.inputSize = 0 then r.refuse
      else if e.mem.alloc outputSize = false then r.refuse
      else ⟨s, some (.macGen ⟨s.macAlgo, s.flags, s.key, s.keySize, s.input, s.inputSize, outputSize⟩), r.log⟩

end Seccrypto
