import MxlUtils.Lib.Window

/- The tool that reads and writes physical memory: its options, the mapping of the
   memory device, the write of one unit, and the dump in its two layouts for its two
   widths. Integers are of 32 bits. A run is the list of what it does; the first read
   outside of the mapped memory ends it, as nothing is defined behind it. -/
namespace Memutil

/-- length_flag -/
inductive Length where
  | byte
  | word
deriving DecidableEq

/-- format_flag -/
inductive Format where
  | line
  | table
deriving DecidableEq

inductive Func where
  | help
  | dump
  | write
  | version
deriving DecidableEq

structure Settings where
  startAddress : BitVec 32
  range : BitVec 32
  formatFlag : Format
  lengthFlag : Length
  writeValue : BitVec 32
  func : Option Func

/-- The options as getopt_long returns them, in short or long form, with the value of strtoul for
an argument. -/
inductive Opt where
  | help
  | dump
  | start (value : Nat)
  | endAddress (value : Nat)
  | range (value : Nat)
  | line
  | table
  | write (value : Nat)
  | switch
  | dma
  | tpe
  | wdt
  | byte
  | word
  | version
  | unknown

def switchBase : BitVec 32 := 0xB0106000#32
def switchRange : BitVec 32 := 0x3FF#32
def dmaBase : BitVec 32 := 0xB0103000#32
def dmaRange : BitVec 32 := 0x7FF#32
def tpeBase : BitVec 32 := 0x0#32
def tpeRange : BitVec 32 := 0x0#32
def wdtBase : BitVec 32 := 0xB0100900#32
def wdtRange : BitVec 32 := 0xFF#32

def Settings.option (s : Settings) : Opt → Settings
  | .help => { s with func := some .help }
  | .dump => { s with func := some .dump }
  | .start value => { s with startAddress := BitVec.ofNat 32 value }
  | .endAddress _ => s
  | .range value => { s with range := BitVec.ofNat 32 value }
  | .line => { s with formatFlag := .line }
  | .table => { s with formatFlag := .table }
  | .write value => { s with writeValue := BitVec.ofNat 32 value, func := some .write }
  | .switch => { s with startAddress := switchBase, range := switchRange }
  | .dma => { s with startAddress := dmaBase, range := dmaRange }
  | .tpe => { s with startAddress := tpeBase, range := tpeRange }
  | .wdt => { s with startAddress := wdtBase, range := wdtRange }
  | .byte => { s with lengthFlag := .byte }
  | .word => { s with lengthFlag := .word }
  | .version => { s with func := some .version }
  | .unknown => s

def initial : Settings where
  startAddress := 0
  range := 1
  formatFlag := .line
  lengthFlag := .byte
  writeValue := 0
  func := none

def settings (opts : List Opt) : Settings := opts.foldl Settings.option initial

/-! ## The platform -/

/-- The size of a page, the physical memory, and whether the device can be opened and mapped. -/
structure Platform where
  pageBits : Nat
  memory : Nat → BitVec 8
  bigEndian : Bool
  opens : Bool
  maps : Bool
  pageBits_ge : 4 ≤ pageBits
  pageBits_lt : pageBits < 30

variable (P : Platform)

def Platform.pageSize : BitVec 32 := 1#32 <<< P.pageBits

/-- What a run does. Positions are those in the mapped memory; a label is the address that is printed
in front of what follows it, and a cell is the unit at a position, printed with its value. -/
inductive Event where
  | say (text : String)
  | usage
  | version
  | mapped (size : Nat)
  | read (pos : Nat)
  | store (pos : Nat) (value : BitVec 32)
  | writing (value address : BitVec 32)
  | columns
  | label (address : BitVec 32)
  | blank
  | cell (pos : Nat) (value : BitVec 32)
  | newline
deriving DecidableEq

/-! ## The mapping -/

def neededBytes (lengthFlag : Length) (rangeLc : BitVec 32) : BitVec 32 :=
  match lengthFlag with
  | .byte => rangeLc
  | .word => rangeLc * 4

def mappedSize (startaddress len : BitVec 32) : BitVec 32 :=
  let offsetInPage := startaddress &&& (P.pageSize - 1)
  if P.pageSize < offsetInPage + len then P.pageSize * 2 else P.pageSize

def eio : BitVec 32 := 5
def efault : BitVec 32 := 14

def map (startaddress len : BitVec 32) : List Event × BitVec 32 :=
  if P.opens = false then ([.say "Can't open /dev/mem"], -eio)
  else if P.maps = false then ([.say "Mapping error"], -efault)
  else ([.mapped (mappedSize P startaddress len).toNat], mappedSize P startaddress len)

/-- The page that the mapping begins with. -/
def offset (startAddress : BitVec 32) : BitVec 32 := startAddress &&& ~~~(P.pageSize - 1)

/-- The start address within the mapping. -/
def inPage (startAddress : BitVec 32) : BitVec 32 := startAddress - offset P startAddress

def Length.width : Length → Nat
  | .byte => 1
  | .word => 4

/-- The unit at a physical address. -/
def load (lengthFlag : Length) (address : Nat) : BitVec 32 :=
  match lengthFlag with
  | .byte => (P.memory address).setWidth 32
  | .word =>
    if P.bigEndian then
      P.memory address ++ P.memory (address + 1) ++ P.memory (address + 2) ++ P.memory (address + 3)
    else P.memory (address + 3) ++ P.memory (address + 2) ++ P.memory (address + 1) ++ P.memory address

/-! ## The write -/

def memWrite (s : Settings) : List Event :=
  let (said, mappedSize) := map P s.startAddress (neededBytes s.lengthFlag 1)
  said ++
    if mappedSize.slt 0 then []
    else
      match s.lengthFlag with
      | .byte => [.store (inPage P s.startAddress).toNat (s.writeValue &&& 0xff)]
      | .word =>
        [.writing s.writeValue (s.startAddress &&& ~~~3),
          .store (((inPage P s.startAddress &&& ~~~3) >>> 2).toNat * 4) s.writeValue]

/-! ## The dump -/

/-- The mapped memory, in units of one width. -/
structure View where
  width : Nat
  size : Nat
  load : Nat → BitVec 32

def View.inside (V : View) (pos : Nat) : Bool := pos + V.width ≤ V.size

/-- A read, and what is done with the value. -/
def View.access (V : View) (pos : Nat) (rest : BitVec 32 → List Event) : List Event :=
  .read pos :: if V.inside pos then rest (V.load pos) else []

/-- The loop over `n` units from the `i`th on, each in a line of its own. -/
def lines (V : View) (address : Nat → BitVec 32) (pos : Nat → Nat) : Nat → Nat → List Event
  | 0, _ => []
  | n + 1, i => V.access (pos i) fun value =>
      .label (address i) :: .cell (pos i) value :: .newline :: lines V address pos n (i + 1)

/-- The loop over the cells of one row; `rest` is told whether it came to the end of the range. -/
def cells (V : View) (stop blank : Nat → Bool) (rest : Bool → List Event) : Nat → Nat → List Event
  | 0, _ => rest false
  | j + 1, pos =>
    if stop pos then rest true
    else V.access pos fun value =>
      (if blank pos then .blank else .cell pos value) :: cells V stop blank rest j (pos + V.width)

/-- The loop over the rows. A row that is not in the mapping ends the run, so that the count of the
rows that fit is enough. -/
def rows (V : View) (perRow : Nat) (stop blank : Nat → Bool) : Nat → BitVec 32 → Nat → List Event
  | 0, _, _ => []
  | n + 1, address, pos => .label address ::
      cells V stop blank (fun finish =>
        .newline :: if finish then [] else rows V perRow stop blank n (address + 16) (pos + 16)) perRow pos

def View.rowCount (V : View) : Nat := V.size / 16 + 1

def byteLine (V : View) (startAddress inPage range : BitVec 32) : List Event :=
  lines V (fun i => startAddress + BitVec.ofNat 32 i) (fun i => inPage.toNat + i) range.toInt.toNat 0

def byteTable (V : View) (startAddress inPage range : BitVec 32) : List Event :=
  .columns ::
    rows V 16 (fun pos => range.toInt ≤ (pos : Int) - inPage.toNat) (fun pos => pos < inPage.toNat) V.rowCount
      (startAddress &&& ~~~15) (inPage &&& ~~~15).toNat

def wordLine (V : View) (startAddress inPage range : BitVec 32) : List Event :=
  lines V (fun i => (startAddress &&& ~~~3) + BitVec.ofNat 32 i * 4)
    (fun i => (((inPage &&& ~~~3).toNat + i * 4) >>> 2) * 4) range.toInt.toNat 0

/-- Positions are counted in words and compared in bytes. -/
def wordTable (V : View) (startAddress inPage range : BitVec 32) : List Event :=
  .columns ::
    rows V 4 (fun pos => (range * 4).toInt ≤ (((pos >>> 2) <<< 2 : Nat) : Int) - inPage.toNat)
      (fun pos => pos >>> 2 < inPage.toNat >>> 2) V.rowCount (startAddress &&& ~~~15) (inPage &&& ~~~15).toNat

def Platform.view (lengthFlag : Length) (startAddress : BitVec 32) (size : Nat) : View where
  width := lengthFlag.width
  size := size
  load pos := load P lengthFlag ((offset P startAddress).toNat + pos)

/-- The dump of mapped memory. -/
def dumpMapped (s : Settings) (size : Nat) : List Event :=
  let V := P.view s.lengthFlag s.startAddress size
  match s.lengthFlag, s.formatFlag with
  | .byte, .line => byteLine V s.startAddress (inPage P s.startAddress) s.range
  | .byte, .table => byteTable V s.startAddress (inPage P s.startAddress) s.range
  | .word, .line => wordLine V s.startAddress (inPage P s.startAddress) s.range
  | .word, .table => wordTable V s.startAddress (inPage P s.startAddress) s.range

/-- The bytes that mem_dump asks for. -/
def dumpBytes (s : Settings) : BitVec 32 :=
  let numberOfBytes := neededBytes s.lengthFlag s.range
  if P.pageSize.slt numberOfBytes then P.pageSize else numberOfBytes

def memDump (s : Settings) : List Event :=
  let (said, mappedSize) := map P s.startAddress (dumpBytes P s)
  (if P.pageSize.slt (neededBytes s.lengthFlag s.range) then [.say "The range is too big,reduce to page size"] else []) ++
    said ++ if mappedSize.slt 0 then [] else dumpMapped P s mappedSize.toNat

def main (opts : List Opt) : List Event :=
  let s := settings opts
  match if opts = [] then some .help else s.func with
  | none => [.usage]
  | some .help => if opts = [] then [.say "mem:please specify parameters", .usage] else [.usage]
  | some .dump => memDump P s
  | some .write => memWrite P s
  | some .version => [.version]

end Memutil
