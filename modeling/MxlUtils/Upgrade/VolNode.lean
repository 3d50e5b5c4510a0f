import MxlUtils.Lib.Shell
import MxlUtils.Lib.ShellText
import MxlUtils.Lib.Leads

/- How write_vol and its relatives of the script vol_mgmt find the device node of a
   volume: grep looks for the name as a word in the names that sysfs shows, and cut takes
   the fifth field of what it prints, which is the node where grep puts the file name
   before the line. The commands that change volumes may fail at any time. -/
namespace VolNode
open Effect ShellText

/-- A volume of the device ubi0. -/
structure Volume where
  id : Nat
  name : Word
  size : Nat
  data : List UInt8
deriving DecidableEq

/-- What the functions run in: the shell, `grep -w` for patterns that are not plain, the order of `ls`,
the files, and the bytes that are read for an image operand and the option `-s`. -/
structure System where
  shell : Shell
  grepSpecial : Word → Line → Bool
  order : List (Nat × Word) → List (Nat × Word)
  order_perm : ∀ l, (order l).Perm l
  isFile : Word → Bool
  bytes : Word → Option Word → List UInt8

/-! ## The node of a volume -/

def ubiDevice : Word := "ubi0_".toList
def sysfsDir : Word := "/sys/class/ubi/".toList
def nameFile : Word := "/name".toList
def devDir : Word := "/dev/".toList

def node (id : Nat) : Word := ubiDevice ++ (toString id).toList

def isWordChar (c : Char) : Bool := c.isAlphanum || c == '_'

/-- A pattern of `grep` that stands for itself. -/
def isPlain (pattern : Word) : Bool := pattern ≠ [] ∧ pattern.all fun c => isWordChar c || c == '-' || c == ' '

/-- The pattern is in the line, and no character of a word is next to it; `before` is the one before
the rest of the line. -/
def wordIn (pattern : Word) (before : Option Char) : Line → Bool
  | [] => false
  | c :: l =>
    (pattern.isPrefixOf (c :: l) && !before.any isWordChar &&
      !(((c :: l).drop pattern.length).head?.any isWordChar)) || wordIn pattern (some c) l

/-- `grep -w` selects the line. -/
def System.grepWord (Y : System) (pattern : Word) (l : Line) : Bool :=
  if isPlain pattern && pattern.head? != some '-' then wordIn pattern none l else Y.grepSpecial pattern l

def sysfsName (id : Nat) : Word := sysfsDir ++ node id ++ nameFile

/-- The names of files are printed where there are several. -/
def System.grep (Y : System) (pattern : Word) (files : List (Nat × Word)) : List Char :=
  let found := files.filter fun f => Y.grepWord pattern f.2
  match files with
  | [_] => linesText (found.map Prod.snd)
  | _ => linesText (found.map fun f => sysfsName f.1 ++ ':' :: f.2)

/-- `ls /sys/class/ubi/ubi0*/name|xargs grep -w "$1"|cut -d'/' -f5` -/
def System.volNode (Y : System) (name : Word) (files : List (Nat × Word)) : List Char :=
  substitution (cut '/' 5 (Y.grep name files))

/-- `/dev/$vol_node` -/
def System.nodeWords (Y : System) (volNode : List Char) : List Word := Y.shell.unquoted (devDir ++ volNode)

/-! ## Commands -/

inductive UbiOp where
  | isFile (path : Word)
  | fileSize (path : Word)
  | ubirmvol (name : Word)
  | ubimkvol (size : Word) (name : Word)
  | createUbiNodes
  | sysfsNames
  | ubiupdatevol (operands : List Word) (size : Option Word)
deriving DecidableEq

abbrev ubiSig : Sig where
  Op := UbiOp
  Ret
    | .isFile _ => Bool
    | .fileSize _ => Word
    | .sysfsNames => List (Nat × Word)
    | _ => Nat

def command (o : UbiOp) : Sh ubiSig (ubiSig.Ret o) := Fallible.always (@Prog.op ubiSig o)

def ubirmvol (name : Word) : Sh ubiSig Nat := command (.ubirmvol name)

def ubimkvol (size name : Word) : Sh ubiSig Nat := command (.ubimkvol size name)

def ubiupdatevol (operands : List Word) (size : Option Word) : Sh ubiSig Nat := command (.ubiupdatevol operands size)

/-! ## The functions -/

def removeVol (name : Word) : Sh ubiSig Nat := ubirmvol name

/-- Without an id. -/
def createVol (name size : Word) : Sh ubiSig Nat :=
  (ubimkvol size name).andThen (Sh.orElse (command .createUbiNodes) Sh.nothing)

variable (Y : System)

def findNode (name : Word) : Sh ubiSig (List Char) := do
  let files ← command .sysfsNames
  pure (Y.volNode name files)

/-- The last lines of each function: the volume is made anew and written. -/
def rewrite (name fileSize image : Word) (size : Option Word) : Sh ubiSig Nat := do
  let _ ← removeVol name
  let _ ← createVol name fileSize
  let volNode ← findNode Y name
  ubiupdatevol (Y.nodeWords volNode ++ [image]) size

def writeVol (name image : Word) : Sh ubiSig Nat :=
  (Sh.test (name ≠ [] ∧ image ≠ [])).andThen do
    let isFile ← command (.isFile image)
    (Sh.test isFile).andThen do
      let fileSize ← command (.fileSize image)
      let volNode ← findNode Y name
      if volNode ≠ [] then do
        let c ← ubiupdatevol (Y.nodeWords volNode ++ [image]) none
        -- `return $?`, or the status of the redirection
        if c ≠ 0 then rewrite Y name fileSize image none else Sh.nothing
      else rewrite Y name fileSize image none

def writeVolFit (name image : Word) : Sh ubiSig Nat :=
  (Sh.test (name ≠ [] ∧ image ≠ [])).andThen do
    let isFile ← command (.isFile image)
    (Sh.test isFile).andThen do
      let fileSize ← command (.fileSize image)
      rewrite Y name fileSize image none

def writeVolStdin (name size : Word) : Sh ubiSig Nat :=
  (Sh.test (name ≠ [] ∧ size ≠ [])).andThen (rewrite Y name size ['-'] (some size))

/-! ## What the commands may do -/

def devNode (id : Nat) : Word := devDir ++ node id

/-- The volume whose node is the first operand. -/
def target (vols : List Volume) (operands : List Word) : Option Volume :=
  operands.head?.bind fun w => vols.find? fun v => devNode v.id = w

def setData (id : Nat) (data : List UInt8) (vols : List Volume) : List Volume :=
  vols.map fun v => if v.id = id then { v with data := data } else v

/-- Any command may fail. ubirmvol and ubimkvol change the named volume if they do not; ubiupdatevol
changes the volume of its first operand, and if it does not fail, and was given no more than a node
and an image, the image is what the volume holds. -/
def commands : Dev ubiSig (List Volume)
  | vols, ⟨.isFile path, b⟩, vols' => b = Y.isFile path ∧ vols' = vols
  | vols, ⟨.fileSize _, _⟩, vols' => vols' = vols
  | vols, ⟨.ubirmvol name, c⟩, vols' =>
    if c = 0 then (∃ v ∈ vols, v.name = name) ∧ vols' = vols.filter fun v => v.name ≠ name else vols' = vols
  | vols, ⟨.ubimkvol _ name, c⟩, vols' =>
    if c = 0 then (∀ v ∈ vols, v.name ≠ name) ∧
      ∃ id size, (∀ v ∈ vols, v.id ≠ id) ∧ vols' = vols ++ [⟨id, name, size, []⟩]
    else vols' = vols
  | vols, ⟨.createUbiNodes, _⟩, vols' => vols' = vols
  | vols, ⟨.sysfsNames, files⟩, vols' => files = Y.order (vols.map fun v => (v.id, v.name)) ∧ vols' = vols
  | vols, ⟨.ubiupdatevol operands size, c⟩, vols' =>
    match target vols operands with
    | none => c ≠ 0 ∧ vols' = vols
    | some v => ∃ data, vols' = setData v.id data vols ∧
        (c = 0 → ∀ image, operands = [devNode v.id, image] → data = Y.bytes image size)

/-! ## The calls -/

inductive Call where
  | write (name image : Word)
  | fit (name image : Word)
  | stdin (name size : Word)

def Call.run : Call → Sh ubiSig Nat
  | .write name image => writeVol Y name image
  | .fit name image => writeVolFit Y name image
  | .stdin name size => writeVolStdin Y name size

def Call.name : Call → Word
  | .write name _ => name
  | .fit name _ => name
  | .stdin name _ => name

/-- The image operand, and the option `-s`. -/
def Call.operand : Call → Word
  | .write _ image => image
  | .fit _ image => image
  | .stdin _ _ => ['-']

def Call.size : Call → Option Word
  | .write _ _ => none
  | .fit _ _ => none
  | .stdin _ size => some size

/-- The arguments pass the tests at the start. -/
def Call.Accepted : Call → Prop
  | .write name image => name ≠ [] ∧ image ≠ [] ∧ Y.isFile image = true
  | .fit name image => name ≠ [] ∧ image ≠ [] ∧ Y.isFile image = true
  | .stdin name size => name ≠ [] ∧ size ≠ []

/-- Volumes as UBI keeps them: no two with one name or one id. -/
structure Valid (vols : List Volume) : Prop where
  ids : (vols.map Volume.id).Nodup
  names : (vols.map Volume.name).Nodup
  lines : ∀ v ∈ vols, '\n' ∉ v.name

/-- The volumes with other names. -/
def others (name : Word) (vols : List Volume) : List Volume := vols.filter fun v => v.name ≠ name

/-- Success means that the named volume holds the image, and no other volume is changed in any case. -/
structure Sound (call : Call) (vols : List Volume) : Prop where
  success : ∀ vols', Fallible.Leads (commands Y) (call.run Y) vols 0 vols' →
    ∃ v ∈ vols', v.name = call.name ∧ v.data = Y.bytes call.operand call.size
  others : ∀ c vols', Fallible.Leads (commands Y) (call.run Y) vols c vols' →
    others call.name vols' = others call.name vols

/-- What is found where the named volume is the only one. -/
def System.soleWords (name : Word) : List Word := Y.nodeWords (Y.volNode name [(0, name)])

/-- No other volume has the name as a word in its own; and where there is no other, the name, taken for
a node, names none, or one and nothing else. -/
structure Meets (call : Call) (vols : List Volume) : Prop where
  words : ∀ v ∈ VolNode.others call.name vols, Y.grepWord call.name v.name = false
  sole : VolNode.others call.name vols = [] → ∀ id, (Y.soleWords call.name ++ [call.operand]).head? = some (devNode id) →
    Y.soleWords call.name = [devNode id]

end VolNode
