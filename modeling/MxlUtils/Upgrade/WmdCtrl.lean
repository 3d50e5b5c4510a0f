import MxlUtils.Lib.ShellText
import Mathlib.Data.List.Infix

/- set_wlan of the script wmdctrl.sh, which edits the configuration file of the WAN
   metrics daemon. Lines are read one by one and written to a temporary file, which then
   takes the place of the configuration; a new block goes to its end. A text is what the
   file holds, and a temporary file may be left from a run before. -/
namespace WmdCtrl
open ShellText

/-- The configuration file and the temporary file. -/
structure Disk where
  conf : List Char
  temp : Option (List Char)

/-- The variables that the arguments set. -/
structure Params where
  threshold : Word
  wanList : Word
  wActive : Word
  wlanEnable : Word

def none' : Word := "none".toList
def minusOne : Word := "-1".toList

def Params.unset : Params := ⟨minusOne, none', minusOne, minusOne⟩

variable (E : Shell)

/-- `[ $x -ne -1 ]` -/
def isSet (x : Word) : Bool := (E.number x).any (· ≠ -1)

/-- `[ $threshold -gt 100 ] || [ $threshold -lt 0 ]` -/
def improper (threshold : Word) : Bool := (E.number threshold).any (100 < ·) || (E.number threshold).any (· < 0)

/-- One argument. -/
def setParam (p : Params) (arg : Word) : Params :=
  let token := E.cutEcho '=' 1 arg
  let value := E.cutEcho '=' 2 arg
  if token = "threshold".toList then { p with threshold := if improper E value then "100".toList else value }
  else if token = "w_active".toList then { p with wActive := value }
  else if token = "wans".toList then { p with wanList := value }
  else if token = "enable".toList then { p with wlanEnable := value }
  else p

/-! ## The loops over the file -/

/-- `tmp_str=$(echo $LINE | cut -f1 -d " ")` -/
def firstWord (line : Line) : Word := E.cutEcho ' ' 1 line

def wActiveKey : List Char := "w_active".toList

/-- The loop of an edit with `enable`; what it appends to the temporary file. -/
def enableLoop (wlanName wlanEnable : Word) : Bool → List Line → List Char
  | _, [] => []
  | block, line :: rest =>
    let tmpStr := firstWord E line
    let block := if tmpStr = wlanName then true else block
    let block := if tmpStr = ['}'] ∧ block = true then false else block
    let line := if block = true ∧ wActiveKey <:+: line then "    w_active=".toList ++ wlanEnable else line
    E.echoed (E.unquoted line) ++ enableLoop wlanName wlanEnable block rest

/-- The loop that removes earlier entries. -/
def removeLoop (wlanName : Word) : Bool → List Line → List Char
  | _, [] => []
  | block, line :: rest =>
    let tmpStr := firstWord E line
    if tmpStr = wlanName then removeLoop wlanName true rest
    else if tmpStr = ['}'] ∧ block = true then removeLoop wlanName false rest
    else if block = false then E.echoed [line] ++ removeLoop wlanName block rest
    else removeLoop wlanName block rest

/-! ## The new block -/

/-- `expr index "$wan_list" :` -/
def colonIndex (wanList : Word) : Nat := if ':' ∈ wanList then wanList.idxOf ':' + 1 else 0

def wanLines (i : Nat) (wanName : Word) : List Char :=
  E.echoed ["    # Active WAN ".toList ++ (toString i).toList ++ " index".toList] ++ E.echoed ["    wan=".toList ++ wanName]

/-- The loop over the WANs, until an empty one; the list has no more than characters. -/
def wanLoop (wanList : Word) : Nat → Nat → List Char
  | 0, _ => []
  | n + 1, i =>
    let wanName := E.cutEcho ':' i wanList
    if wanName = [] then [] else wanLines E i wanName ++ wanLoop wanList n (i + 1)

def insertWans (wanList : Word) : List Char :=
  if colonIndex wanList = 0 then wanLines E 0 (substitution (E.echoed (E.unquoted wanList)))
  else wanLoop E wanList (wanList.length + 2) 1

/-- `[ $wan_list != "none" ]` -/
def hasWans (wanList : Word) : Bool :=
  match E.unquoted wanList with
  | [w] => w ≠ none'
  | _ => false

def newBlock (wlanName : Word) (p : Params) : List Char :=
  E.echoed [wlanName ++ [' ', '{']] ++
    (if isSet E p.threshold then
      E.echoed ["    # Percentage of downlink load when the \"At Capacity\" flag will be set".toList] ++
        E.echoed ["    threshold=".toList ++ p.threshold]
    else []) ++
    (if isSet E p.wActive then
      E.echoed ["    # Whether WMD is active for interface".toList] ++ E.echoed ["    w_active=".toList ++ p.wActive]
    else []) ++
    (if hasWans E p.wanList then insertWans E p.wanList else []) ++ E.echoed [['}']]

/-- What is written is appended to a temporary file that is there, and the file is moved. -/
def Disk.replace (d : Disk) (written : List Char) : Disk := { conf := d.temp.getD [] ++ written, temp := none }

def setWlan (args : List Word) (d : Disk) : Disk :=
  let wlanName := E.cutEcho '=' 2 (args.headD [])
  if E.unquoted wlanName = [] then d
  else
    let p := args.tail.foldl (setParam E) .unset
    if isSet E p.wlanEnable then d.replace (enableLoop E wlanName p.wlanEnable false (readLines d.conf))
    else
      let d := d.replace (removeLoop E wlanName false (readLines d.conf))
      { d with conf := d.conf ++ newBlock E wlanName p }

/-! ## Commands -/

/-- The commands that edit a block. -/
inductive Command where
  | enable (name : Word)
  | disable (name : Word)
  | set (args : List Word)

/-- `[ -z $x ]` -/
def isEmpty (x : Word) : Bool := E.unquoted x = []

def Command.run (d : Disk) : Command → Disk
  | .enable name => if isEmpty E name then d else setWlan E ["name=".toList ++ name, "enable=1".toList] d
  | .disable name => if isEmpty E name then d else setWlan E ["name=".toList ++ name, "enable=0".toList] d
  | .set args => if isEmpty E (args.headD []) then d else setWlan E (args.flatMap E.unquoted) d

end WmdCtrl
