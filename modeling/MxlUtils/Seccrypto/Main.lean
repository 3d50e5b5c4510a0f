import Mathlib.Data.List.TakeWhile
import MxlUtils.Lib.Execution
import MxlUtils.Seccrypto.KeyParsers
import MxlUtils.Seccrypto.SignOptions

/- The main loop of the client. A round reads a line, cuts it into words and runs the
   parser of the command that the first word names. Between rounds the client keeps the
   block of verify, which no branch resets, the two file name buffers, and what getopt
   has left of a cluster; the other blocks are zeroed before their parser runs. -/
namespace Seccrypto
open CString Getopt

/-! ## Lines -/

/-- What fgets can put into a buffer of 200 bytes. -/
abbrev Line := { s : List Char // s.length < 200 }

/-- The string in the buffer, up to the end of the line. -/
def Line.text (line : Line) : List Char := line.val.takeWhile fun c => c ≠ '\n' ∧ c ≠ NUL

def Line.words (line : Line) : List Word := strtok ' ' line.text

inductive Command where
  | load
  | gen
  | sign
  | verify
  | wrap
  | unwrap
  | macgen
deriving DecidableEq

/-- The command of that name. -/
def Command.ofWord (cmd : Word) : Option Command :=
  if cmd = "load".toList then some .load
  else if cmd = "gen".toList then some .gen
  else if cmd = "sign".toList then some .sign
  else if cmd = "verify".toList then some .verify
  else if cmd = "wrap".toList then some .wrap
  else if cmd = "unwrap".toList then some .unwrap
  else if cmd = "macgen".toList then some .macgen
  else none

def Command.options : Command → Options
  | .load => keyloadOptions
  | .gen => keygenOptions
  | .sign => signOptions
  | .verify => verifyOptions
  | .wrap => wrapOptions
  | .unwrap => unwrapOptions
  | .macgen => macgenOptions

/-- What lasts from round to round: the parameters in the block of verify, the buffers of the file
names, and the text that getopt goes on with before it looks at the words. -/
structure Client where
  algo : Nat
  flags : Nat
  hash : Nat
  inputFname : List Char
  outputFname : List Char
  kept : Word
  input_length : inputFname.length = 200
  output_length : outputFname.length = 200
  kept_isName : IsName kept

def Client.start : Client where
  algo := 0
  flags := 0
  hash := 0
  inputFname := List.replicate 200 NUL
  outputFname := List.replicate 200 NUL
  kept := []
  input_length := List.length_replicate
  output_length := List.length_replicate
  kept_isName := isName_nil

def Client.block (c : Client) : SignState := ⟨c.algo, c.flags, c.hash, c.inputFname, c.outputFname⟩

/-- What a round hands to the service, the accesses it makes, and the block of verify and the name
buffers after it. -/
structure Reply where
  handed : Option Handed
  log : List Access
  block : SignState

variable (h : Header) (e : Env) (c : Client)

def Client.run (command : Command) (opts : List Scanned) : Reply :=
  match command with
  | .load => ⟨(parseKeyloadOptions h e opts).handed, (parseKeyloadOptions h e opts).log, c.block⟩
  | .gen => ⟨(parseKeygenOptions h e opts).handed, (parseKeygenOptions h e opts).log, c.block⟩
  | .sign =>
    let r := parseSigningOptions h e ⟨0, 0, 0, c.inputFname, c.outputFname⟩ opts
    ⟨r.handed, r.log, { c.block with inputFname := r.state.inputFname, outputFname := r.state.outputFname }⟩
  | .verify =>
    -- it is the block of sign that is zeroed here
    let r := parseVerifyOptions h e c.block opts
    ⟨r.handed, r.log, r.state⟩
  | .wrap =>
    let r := parseWrapOptions h e c.outputFname opts
    ⟨r.handed, r.log, { c.block with outputFname := r.state.outputFname }⟩
  | .unwrap => ⟨(parseUnwrapOptions h e opts).handed, (parseUnwrapOptions h e opts).log, c.block⟩
  | .macgen => ⟨(parseMacgenOptions h e opts).handed, (parseMacgenOptions h e opts).log, c.block⟩

/-- The words of a command are put into a table of ten. -/
def tableAccesses (count : Nat) : List Access := (List.range count).map fun i => ⟨10, i + 1⟩

def Client.round (line : Line) : Reply :=
  match line.words with
  | [] => ⟨none, [], c.block⟩
  | cmd :: args =>
    match Command.ofWord cmd with
    | none => ⟨none, [], c.block⟩
    | some command =>
      let table := tableAccesses (args.length + 1)
      if args = [] then ⟨none, table, c.block⟩
      else
        let r := c.run h e command (options command.options c.kept args)
        { r with log := table ++ r.log }

def Reply.verifies (r : Reply) : Bool :=
  match r.handed with
  | some (.verify ..) => true
  | _ => false

/-- A line, the files and the storage it meets, and what it hands to the service. -/
structure Round where
  env : Env
  line : Line
  handed : Option Handed

/-- One round. The service may change the block of verify that it was handed. -/
structure Step (c : Client) (x : Round) (c' : Client) : Prop where
  goesOn : x.line.words.head? ≠ some "quit".toList
  handed : x.handed = (c.round h x.env x.line).handed
  input : c'.inputFname = (c.round h x.env x.line).block.inputFname
  output : c'.outputFname = (c.round h x.env x.line).block.outputFname
  params : (c.round h x.env x.line).verifies = false →
    c'.algo = (c.round h x.env x.line).block.algo ∧ c'.flags = (c.round h x.env x.line).block.flags ∧
      c'.hash = (c.round h x.env x.line).block.hash

variable {h e c}

end Seccrypto
