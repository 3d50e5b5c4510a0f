import MxlUtils.Lib.Getopt
import MxlUtils.Sgam.Rates

/- The command line of sgam_cli. The options of a command are collected in a table of a fixed
   size that is cleared before; a parser of the command walks the table to the first entry
   without an option. What it finds behind a table that is full is an `Env`, with the outcome
   of the allocations. Help texts and messages are left out. -/
namespace Sgam
open CString Getopt

/-- `SGAM_CMD_OPTS` -/
structure CmdOpts where
  opt : Char
  optarg : Word
deriving DecidableEq

/-- Whether the table and the data of the command are allocated, and the entries that a read behind
the table meets before one without an option. -/
structure Env where
  optsAlloc : Bool
  dataAlloc : Bool
  behind : List CmdOpts

variable (p : Platform)

/-! ## Values of options -/

/-- The name, cut at nothing: a longer one is refused. -/
def sgamCopyLabel (label : Word) : Except Code Word :=
  if label.length > p.maxLabelLen then .error .err else .ok label

/-- `enum sgam_meter_types` -/
inductive MeterType where
  | dtrtcmCb
  | dtrtcmCa
  | trtcmCb
  | trtcmCa
deriving DecidableEq

/-- `strncmp` with the size of the literal compares its NUL too. -/
def setMeterMode (arg : Word) : Except Code MeterType :=
  if arg = "trtcm_ca".toList then .ok .trtcmCa
  else if arg = "trtcm_cb".toList then .ok .trtcmCb
  else if arg = "dtrtcm_ca".toList then .ok .dtrtcmCa
  else if arg = "dtrtcm_cb".toList then .ok .dtrtcmCb
  else .error .help

/-- `MAX_DSCP` -/
def maxDscp : Nat := 64

/-- The value of strtoul is kept in an unsigned int. -/
def setDscpRemarking (arg : Word) : Except Code (BitVec 8) :=
  if arg = [] then .error .err
  else if arg.all Char.isDigit = false then .error .err
  else
    let tmpDscp := strtoul10 p.longBits arg % 2 ^ 32
    if tmpDscp ≥ maxDscp then .error .err else .ok (BitVec.ofNat 8 tmpDscp)

/-! ## The data of the commands -/

/-- `struct sgam_acct_info` -/
structure AcctInfo where
  name : Word
  sgcGrp : Int

/-- `struct sgam_meter_info` -/
structure MeterInfo where
  name : Word
  mtrType : MeterType
  cir : BitVec 64
  pir : BitVec 64
  cbs : BitVec 32
  pbs : BitVec 32
  remarkDscp : BitVec 8
  tbmId : Int
deriving DecidableEq

/-- Cleared memory, with a TBM id that is none. -/
def clearedMeter : MeterInfo := ⟨[], .dtrtcmCb, 0, 0, 0, 0, 0, -1⟩

/-- `SGAM_ACCT_DB_FLAG` or `SGAM_METER_DB_FLAG` -/
inductive Db where
  | acct
  | meter
deriving DecidableEq

inductive Data where
  | acct (info : AcctInfo)
  | stats (name : Word)
  | count (db : Db)
  | del (name : Word) (db : Db)
  | meter (info : MeterInfo)

/-! ## Walking the table -/

/-- A loop over the entries that ends at the first that is refused: what comes of it, and the number
of entries it reads, with the one that ends it. -/
def walk {σ : Type} (step : σ → CmdOpts → Except Code σ) : σ → List CmdOpts → Except Code σ × Nat
  | s, [] => (.ok s, 1)
  | s, o :: os =>
    match step s o with
    | .error c => (.error c, 1)
    | .ok s' => ((walk step s' os).1, (walk step s' os).2 + 1)

/-- A loop that goes on after an entry that is refused, with the last code. -/
def walkOn {σ : Type} (step : σ → CmdOpts → Except Code σ) : Code × σ → List CmdOpts → (Code × σ) × Nat
  | s, [] => (s, 1)
  | (_, s), o :: os =>
    let next := match step s o with
      | .error c => (c, s)
      | .ok s' => (.ok, s')
    ((walkOn step next os).1, (walkOn step next os).2 + 1)

/-- The loop of the commands whose only option is the name. -/
def nameStep (_ : Word) (o : CmdOpts) : Except Code Word :=
  match o.opt with
  | 'n' => sgamCopyLabel p o.optarg
  | _ => .error .err

def addAcctStep (info : AcctInfo) (o : CmdOpts) : Except Code AcctInfo :=
  match o.opt with
  | 'n' => (sgamCopyLabel p o.optarg).map fun name => { info with name := name }
  | 'g' => .ok { info with sgcGrp := (BitVec.ofInt 32 (strtol p.longBits o.optarg)).toInt }
  | _ => .error .err

def addMeterStep (info : MeterInfo) (o : CmdOpts) : Except Code MeterInfo :=
  match o.opt with
  | 'n' => (sgamCopyLabel p o.optarg).map fun v => { info with name := v }
  | 'm' => (setMeterMode o.optarg).map fun v => { info with mtrType := v }
  | 'c' => (setMeterCirPir p o.optarg).map fun v => { info with cir := v }
  | 'p' => (setMeterCirPir p o.optarg).map fun v => { info with pir := v }
  | 'C' => (setMeterCbsPbs p o.optarg).map fun v => { info with cbs := v }
  | 'P' => (setMeterCbsPbs p o.optarg).map fun v => { info with pbs := v }
  | 'R' => (setDscpRemarking p o.optarg).map fun v => { info with remarkDscp := v }
  | _ => .error .err

/-! ## The parsers -/

/-- The code, the data if there is any, and how many entries of the table are read. -/
structure Parsed where
  code : Code
  data : Option Data
  reads : Nat

/-- What a command still asks of the options when all are read, and what it then submits. -/
def finish {σ : Type} (check : σ → Code) (data : σ → Data) (r : Except Code σ × Nat) : Parsed :=
  match r.1 with
  | .error c => ⟨c, none, r.2⟩
  | .ok s => ⟨check s, if check s = .ok then some (data s) else none, r.2⟩

/-- The least count of options. -/
def needs (n count : Nat) : Code := if count < n then .help else .ok

/-- With the count of options; then the default of the remark and the check of the peaks. -/
def checkMeter (count : Nat) (info : MeterInfo) : Code :=
  if count < 6 then .help
  else if count = 6 then .ok
  else if info.pir.toNat < info.cir.toNat ∨ info.pbs.toNat < info.cbs.toNat then .err
  else .ok

def remarkMeter (count : Nat) (info : MeterInfo) : MeterInfo :=
  if count = 6 then { info with remarkDscp := BitVec.ofNat 8 maxDscp } else info

def sgamParseAddAcctCmd (entries : List CmdOpts) : Parsed :=
  finish (fun _ => needs 2 entries.length) .acct (walk (addAcctStep p) ⟨[], 0⟩ entries)

def sgamParseAddMeterCmd (entries : List CmdOpts) : Parsed :=
  finish (checkMeter entries.length) (fun info => .meter (remarkMeter entries.length info))
    (walk (addMeterStep p) clearedMeter entries)

def parseDelCmd (db : Db) (entries : List CmdOpts) : Parsed :=
  finish (fun _ => needs 1 entries.length) (.del · db) (walk (nameStep p) [] entries)

/-- A refused name or option is followed by the next entry. -/
def parseShowCmd (data : Word → Data) (entries : List CmdOpts) : Parsed :=
  let r := walkOn (nameStep p) (.ok, []) entries
  let code := if (entries.filter (·.opt = 'n')).length < 1 then .help else r.1.1
  ⟨code, if code = .ok then some (data r.1.2) else none, r.2⟩

/-- The commands of `g_sgam_cmd`. -/
inductive Command where
  | addacct
  | showacct
  | listacct
  | delacct
  | addmeter
  | showmeter
  | listmeter
  | delmeter
deriving DecidableEq

namespace Command

def all : List Command :=
  [addacct, showacct, listacct, delacct, addmeter, showmeter, listmeter, delmeter]

def name : Command → Word
  | addacct => "addacct".toList
  | showacct => "showacct".toList
  | listacct => "listacct".toList
  | delacct => "delacct".toList
  | addmeter => "addmeter".toList
  | showmeter => "showmeter".toList
  | listmeter => "listmeter".toList
  | delmeter => "delmeter".toList

/-- The letters behind `-:`, and the long options. -/
def options : Command → Options
  | addacct => ⟨"g:n:h", [⟨"help", false, 'h'⟩, ⟨"name", true, 'n'⟩, ⟨"group", true, 'g'⟩]⟩
  | addmeter => ⟨"n:m:c:p:C:P:R:h", [⟨"help", false, 'h'⟩, ⟨"name", true, 'n'⟩, ⟨"mode", true, 'm'⟩,
      ⟨"cir", true, 'c'⟩, ⟨"pir", true, 'p'⟩, ⟨"cbs", true, 'C'⟩, ⟨"pbs", true, 'P'⟩,
      ⟨"remark-dscp", true, 'R'⟩]⟩
  | listacct | listmeter => ⟨"h", [⟨"help", false, 'h'⟩]⟩
  | showacct | showmeter | delacct | delmeter => ⟨"n:h", [⟨"help", false, 'h'⟩, ⟨"name", true, 'n'⟩]⟩

def parseOptions : Command → List CmdOpts → Parsed
  | addacct, entries => sgamParseAddAcctCmd p entries
  | addmeter, entries => sgamParseAddMeterCmd p entries
  | delacct, entries => parseDelCmd p .acct entries
  | delmeter, entries => parseDelCmd p .meter entries
  | showacct, entries => parseShowCmd p .stats entries
  | showmeter, entries => parseShowCmd p (fun name => .meter { clearedMeter with name := name }) entries
  | listacct, _ => ⟨.ok, some (.count .acct), 0⟩
  | listmeter, _ => ⟨.ok, some (.count .meter), 0⟩

end Command

def getSgamCmd (s : Word) : Option Command := Command.all.find? (·.name = s)

/-! ## The table -/

/-- `SGAM_MAX_CMD_OPTS` -/
def sgamMaxCmdOpts : Nat := 7

/-- What filling the table comes to: the code, the entries, and the answers that were not asked
for. -/
structure Filled where
  code : Code
  stored : List CmdOpts
  rest : List Answer

/-- The loop over the options with `n` entries left. A missing argument is an option of its own. -/
def fillTable : Nat → List Answer → Filled
  | 0, answers => ⟨.ok, [], answers⟩
  | _ + 1, [] => ⟨.ok, [], []⟩
  | _ + 1, .word _ :: rest => ⟨.err, [], rest⟩
  | _ + 1, .refused :: rest => ⟨.err, [], rest⟩
  | n + 1, .missing :: rest =>
    let filled := fillTable n rest
    { filled with stored := ⟨':', []⟩ :: filled.stored }
  | n + 1, .option c arg :: rest =>
    if c = 'h' then ⟨.help, [], rest⟩
    else
      let filled := fillTable n rest
      { filled with stored := ⟨c, arg⟩ :: filled.stored }

def sgamParseCmd (cmd : Command) (words : List Word) : Filled :=
  fillTable sgamMaxCmdOpts (inOrder cmd.options none words)

/-- The entries a parser meets: those of the table, and if it is full those behind it. -/
def Env.entries (e : Env) (stored : List CmdOpts) : List CmdOpts :=
  if stored.length < sgamMaxCmdOpts then stored else stored ++ e.behind

/-- The call of the parser, with the code that is left of an error in the options. -/
def parseCommand (e : Env) (cmd : Command) (words : List Word) : Parsed :=
  match (sgamParseCmd cmd words).code with
  | .ok =>
    if e.dataAlloc then cmd.parseOptions p (e.entries (sgamParseCmd cmd words).stored)
    else ⟨.err, none, 0⟩
  | .err => ⟨.help, none, 0⟩
  | c => ⟨c, none, 0⟩

/-- `av` without the name of the program: the command and its words. -/
def sgamParseCmdLine (e : Env) : List Word → Parsed
  | [] => ⟨.help, none, 0⟩
  | name :: words =>
    if e.optsAlloc then
      match getSgamCmd name with
      | none => ⟨.err, none, 0⟩
      | some cmd => parseCommand p e cmd words
    else ⟨.notAvail, none, 0⟩

end Sgam
