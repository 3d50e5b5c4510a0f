import MxlUtils.Lib.CString
import MxlUtils.Lib.Capabilities

/- The wrapper that gives a program the capabilities named on its command line: the
   capability list, the user with its groups, and the calls to the kernel up to execve.
   The names come from a header that the build generates, users and groups from the
   databases of the system. Any call may be refused, and most results are only printed. -/
namespace CapProvide
open CString Capabilities

abbrev Word := List Char

/-- What the program leaves with, where it does not come to execve: an exit code, or a read beyond
its argument. -/
inductive Stop where
  | exit (code : Nat)
  | beyond
deriving DecidableEq

/-! ## Names of capabilities -/

/-- One character of a name: `flg` is 1 if all so far are those of `d`, and 2 if one is not. -/
def compare (d : Word) (flg t : Nat) (c : Char) : Nat × Nat :=
  if flg ≠ 2 then if c = d.getD t NUL then (1, t + 1) else (2, 1) else (2, t + 1)

def capCmpLoop (d : Word) (flg t : Nat) : Word → Except Stop Bool
  | [] => .ok (flg = 1 ∧ d.getD t NUL = NUL)
  | c :: s =>
    if (c < 'a' ∨ 'z' < c) ∧ c ≠ '_' ∧ c ≠ ',' then .error (.exit 1)
    else if c = ',' then
      if flg = 1 ∧ d.getD t NUL = NUL then .ok true
      else
        -- the character behind a comma is taken without the check, also the end of the list
        match s with
        | [] => .error .beyond
        | c :: s => capCmpLoop d (compare d 0 0 c).1 (compare d 0 0 c).2 s
    else capCmpLoop d (compare d flg t c).1 (compare d flg t c).2 s

def capCmp (d s : Word) : Except Stop Bool := capCmpLoop d 0 0 s

/-- The name that stands for all of them. -/
def capAll : Word := "cap_all".toList

/-! ## Users and groups -/

structure Passwd where
  uid : Nat
  gid : Nat

/-- The capabilities of the header, and the databases. `own` is the entry of the caller. -/
structure System where
  last : Nat
  names : Nat → Word
  own : Option Passwd
  passwd : Word → Option Passwd
  group : Word → Option Nat
  last_gt : 31 < last
  last_lt : last < 64
  names_ok : ∀ j, NUL ∉ names j

/-- The parts of `user:group,group1,group2`. Commas count only behind a colon. -/
def splitUser (user : Word) : Word × Option Word × Option Word :=
  let u := user.takeWhile (· ≠ ':')
  match user.drop u.length with
  | [] => (user, none, none)
  | _ :: rest =>
    let g := rest.takeWhile (· ≠ ',')
    match rest.drop g.length with
    | [] => (u, some g, none)
    | _ :: s => (u, some g, some s)

/-- Who the program is to run as: `groups` are given with a group, else they are those of the user. -/
structure Target where
  uid : Nat
  gid : Nat
  groups : Option (List Nat)

variable (S : System)

def readGroup (g : Word) : Except Stop Nat :=
  match S.group g with
  | none => .error (.exit 1)
  | some gid => .ok gid

def readTarget (user : Word) : Except Stop Target := do
  let (u, g, s) := splitUser user
  match (if u = [] then S.own else S.passwd u) with
  | none => .error (.exit 1)
  | some p =>
    let gid ← match g with
      | none => .ok p.gid
      | some g => readGroup S g
    let groups ← match s with
      | none => .ok []
      | some s => (s.splitOn ',').mapM (readGroup S)
    .ok ⟨p.uid, gid, if g.isSome then some groups else none⟩

/-! ## Calls -/

/-- The calls of a run; bounding set drops come in two passes. -/
inductive Call where
  | dropBounding (pass i : Nat)
  | noNewPrivs
  | keepCaps
  | groups
  | setgid
  | setuid
  | capset
  | raiseAmbient (i : Nat)
deriving DecidableEq

variable (refused : Call → Bool)

/-- The bits of the capabilities in the list. -/
def readCaps (uCaps : Word) : Except Stop CapSet :=
  (List.range (S.last + 1)).foldlM (fun caps j => do
    if ← capCmp (S.names j) uCaps then .ok (caps.add j)
    else if ← capCmp capAll uCaps then .ok (caps.add j)
    else .ok caps) 0#64

/-- A call whose result is only printed. -/
def printed (p : Process) (call : Call) (called : Option Process) : Process := (p.attempt (refused call) called).2

def capsSet (caps : CapSet) (p : Process) : Process :=
  (List.range (S.last + 1)).foldl (fun p i =>
    if caps.getLsbD i then p else printed refused p (.dropBounding 1 i) (p.dropBounding i)) p

/-- A call that ends the program if it fails. -/
def required (p : Process) (call : Call) (code : Nat) (called : Option Process) : Except Stop Process :=
  if (p.attempt (refused call) called).1 then .ok (p.attempt (refused call) called).2 else .error (.exit code)

def setGroups (target : Target) (p : Process) : Except Stop Process :=
  match target.groups with
  | none => required refused p .groups 1 p.setGroups
  | some [] => .ok (printed refused p .groups p.setGroups)
  | some (_ :: _) => required refused p .groups 1 p.setGroups

/-- The fields of the block are of 32 bits, and the version tells the kernel that it has one. -/
def dataWord (caps : CapSet) : CapSet := (caps.setWidth 32).setWidth 64

def setData (caps : CapSet) (p : Process) : Process :=
  let wanted := (caps.add capSetpcap).add capDacOverride
  printed refused p .capset (p.capset (dataWord wanted) (dataWord wanted) (dataWord caps))

def raiseOrDrop (caps : CapSet) (p : Process) : Process :=
  let p := (List.range (S.last + 1)).foldl (fun p i =>
    if caps.getLsbD i then printed refused p (.raiseAmbient i) (p.raiseAmbient i)
    else if i ≠ capSetpcap then printed refused p (.dropBounding 2 i) (p.dropBounding i)
    else p) p
  if caps.getLsbD capSetpcap then p
  else printed refused p (.dropBounding 2 capSetpcap) (p.dropBounding capSetpcap)

/-- The process that comes to execve, for the arguments `user` and `u_caps`. -/
def provide (p : Process) (user uCaps : Word) : Except Stop Process := do
  let target ← readTarget S user
  let caps ← readCaps S uCaps
  let p := printed refused p .noNewPrivs (some { p with noNewPrivs := true })
  let p := printed refused p .keepCaps (some { p with keepCaps := true })
  let p := capsSet S refused (((caps.add capSetpcap).add capSetgid).add capSetuid) p
  let p ← setGroups refused target p
  let p ← required refused p .setgid 127 p.setGroups
  let p ← required refused p .setuid 127 (p.setuid target.uid)
  .ok (raiseOrDrop S refused caps (setData refused caps p))

/-- The arguments: the name of the program, the user, the capabilities, and the program to run. -/
def main (p : Process) : List Word → Except Stop Process
  | _ :: user :: uCaps :: _ :: _ => provide S refused p user uCaps
  | _ => .error (.exit 1)

end CapProvide
