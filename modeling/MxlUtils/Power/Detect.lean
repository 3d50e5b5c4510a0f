import Mathlib.Data.List.Induction
import MxlUtils.Power.PcieGen4

/- What is found on the PCIe root ports, and kept in a file for the next call. `dsl_vrx_detect` puts
   a VRX618 into the file but no VRX518, and has a text for nothing in the file but not in its
   variables; `which_wav_check` sets its variable and the file together. -/
namespace Pcie
open Carry

/-! ## DSL -/

def vrx518Ids : Ids := ⟨['0', 'x', '8', '0', '8', '6'], ['0', 'x', '0', '9', 'a', '9']⟩

def vrx518 : Word := ['v', 'r', 'x', '5', '1', '8']
def vrx618 : Word := ['v', 'r', 'x', '6', '1', '8']
def notDefined : Word := ['n', 'o', 't', ' ', 'd', 'e', 'f', 'i', 'n', 'e', 'd']

/-- `dsl_family` and `dsl_pcie_id`, or the two lines of /tmp/dsl_family.txt. -/
structure Dsl where
  family : Word
  pcieId : Word
deriving DecidableEq

/-- In a script that has not set them. -/
def Dsl.unset : Dsl := ⟨[], []⟩

/-- `$domain:01` -/
def busOf (port : Port) : Word := port.domain ++ [':', '0', '1']

/-- A round of the loop: the variables and the file. -/
def dslRound (s : Dsl × Dsl) (port : Port) : Dsl × Dsl :=
  match port.endpoint with
  | none => s
  | some ids =>
    if ids.vendor = vrx518Ids.vendor ∧ ids.device = vrx518Ids.device then
      ({ s.1 with family := vrx518 }, s.2)
    else if ids.vendor = vrx618Ids.vendor ∧ ids.device = vrx618Ids.device then
      (⟨vrx618, busOf port⟩, ⟨vrx618, busOf port⟩)
    else s

/-- From the variables and the file, if there is one. -/
def dslVrxDetect (ports : List Port) (vars : Dsl) : Option Dsl → Dsl × Option Dsl
  | some file => (file, some file)
  | none =>
    let s := ports.foldl dslRound (vars, ⟨notDefined, notDefined⟩)
    (s.1, some s.2)

/-- What `dsl_pm` does: it exits, has no feature, or unbinds or binds a device. -/
inductive DslAction where
  | exit
  | nothing
  | disable (addr : Word)
  | enable (addr : Word)
deriving DecidableEq

/-- `[ $dsl_family != "vrx618" ]`, which is an error if the value is not one word. -/
def isOther (family : Word) : Bool := family ≠ [] ∧ ' ' ∉ family ∧ family ≠ vrx618

/-- The device that `grep $dsl_pcie_id` finds in the map of the buses: with no pattern or with further
words, which are files, it finds nothing. -/
def dslAddr (busMap : Word → Word) (pcieId : Word) : Word :=
  if pcieId ≠ [] ∧ ' ' ∉ pcieId then busMap pcieId else []

def dslPm (busMap : Word → Word) (levelPm : Nat) (v : Dsl) : DslAction :=
  if isOther v.family then .exit
  else if levelPm = 2 ∧ dslAddr busMap v.pcieId ≠ [] then .disable (dslAddr busMap v.pcieId)
  else if levelPm = 3 ∧ dslAddr busMap v.pcieId ≠ [] then .enable (dslAddr busMap v.pcieId)
  else .nothing

/-! ## WLAN -/

/-- `wav_id` of an endpoint, and whether the loop ends there. -/
def wavOf (ids : Ids) : Nat × Bool :=
  if ids = ⟨['0', 'x', '1', 'e', '4', '3'], ['0', 'x', '3', '1', '7', '1']⟩ then (7, true)
  else if ids = ⟨['0', 'x', '8', '0', '8', '6'], ['0', 'x', '0', 'd', '5', 'a']⟩ then (6, true)
  else if ids = ⟨['0', 'x', '8', '0', '8', '6'], ['0', 'x', '0', '9', 'd', '0']⟩ then (6, true)
  else if ids = ⟨['0', 'x', '1', '7', 'e', '6'], ['0', 'x', '0', 'd', '5', 'a']⟩ then (6, true)
  else (99, false)

/-- The loop, from `wav_id` and the file /tmp/ppmd/wave_ver.txt. -/
def wavLoop : Nat × Option Nat → List Port → Nat × Option Nat
  | s, [] => s
  | s, port :: ports =>
    match port.endpoint with
    | none => wavLoop s ports
    | some ids =>
      if (wavOf ids).2 then ((wavOf ids).1, some (wavOf ids).1)
      else wavLoop ((wavOf ids).1, some (wavOf ids).1) ports

def whichWavCheck (ports : List Port) : Option Nat → Nat × Option Nat
  | some file => (file, some file)
  | none => wavLoop (0, none) ports

/-! ## The first call and later ones -/

/-- Later calls, of scripts with any variables, come to what the first came to. -/
structure DetectRight (ports : List Port) : Prop where
  dsl : ∀ vars, ∀ v ∈ calls (dslVrxDetect ports) (dslVrxDetect ports .unset none).2 vars,
    v = (dslVrxDetect ports .unset none).1
  decision : ∀ vars busMap levelPm, ∀ v ∈ calls (dslVrxDetect ports) (dslVrxDetect ports .unset none).2 vars,
    dslPm busMap levelPm v = dslPm busMap levelPm (dslVrxDetect ports .unset none).1
  wav : ∀ times : List Unit, ∀ w ∈ calls (fun _ => whichWavCheck ports) (whichWavCheck ports none).2 times,
    w = (whichWavCheck ports none).1

/-- The DSL devices there are. -/
inductive DslDevice where
  | vrx518
  | vrx618
deriving DecidableEq

def deviceOf (port : Port) : Option DslDevice :=
  port.endpoint.bind fun ids =>
    if ids = vrx518Ids then some .vrx518 else if ids = vrx618Ids then some .vrx618 else none

/-- The last of the DSL devices is a VRX618. -/
def EndsInVrx618 (ports : List Port) : Prop := (ports.filterMap deviceOf).getLast? = some .vrx618

/-! ## The scan of the DSL devices -/

theorem ids_eq_iff {ids other : Ids} : ids = other ↔ ids.vendor = other.vendor ∧ ids.device = other.device := by
  cases ids
  cases other
  simp

/-- What a device sets. -/
def DslDevice.sets (s : Dsl × Dsl) (port : Port) : DslDevice → Dsl × Dsl
  | vrx518 => ({ s.1 with family := Pcie.vrx518 }, s.2)
  | vrx618 => (⟨Pcie.vrx618, busOf port⟩, ⟨Pcie.vrx618, busOf port⟩)

theorem dslRound_eq (s : Dsl × Dsl) (port : Port) :
    dslRound s port = (deviceOf port).elim s (DslDevice.sets s port) := by
  unfold dslRound deviceOf
  cases port.endpoint with
  | none => rfl
  | some ids =>
    simp only [← ids_eq_iff, Option.bind_some]
    split_ifs <;> rfl

/-- The variables and the file after all rounds. -/
def scanned (ports : List Port) : Dsl × Dsl := ports.foldl dslRound (.unset, ⟨notDefined, notDefined⟩)

theorem scanned_concat (ports : List Port) (port : Port) :
    scanned (ports ++ [port]) = dslRound (scanned ports) port := by
  rw [scanned, List.foldl_append]
  rfl

theorem endsInVrx618_concat (ports : List Port) (port : Port) : EndsInVrx618 (ports ++ [port]) ↔
    (deviceOf port).elim (EndsInVrx618 ports) (· = .vrx618) := by
  unfold EndsInVrx618
  rw [List.filterMap_append]
  cases h : deviceOf port with
  | none => rw [List.filterMap_cons_none h, List.filterMap_nil, List.append_nil, Option.elim_none]
  | some d => rw [List.filterMap_cons_some h, List.filterMap_nil, List.getLast?_concat, Option.elim_some,
      Option.some.injEq]

/-- A VRX518 never gets into the file. -/
theorem family_file_ne (ports : List Port) : (scanned ports).2.family ≠ vrx518 := by
  induction ports using List.reverseRecOn with
  | nil => decide
  | append_singleton ports port ih =>
    rw [scanned_concat, dslRound_eq]
    cases deviceOf port with
    | none => exact ih
    | some d =>
      cases d with
      | vrx518 => exact ih
      | vrx618 =>
        have hne : vrx618 ≠ vrx518 := by decide
        exact hne

/-- The variables are those in the file exactly if the last device is a VRX618. -/
theorem scanned_eq_iff (ports : List Port) : (scanned ports).2 = (scanned ports).1 ↔ EndsInVrx618 ports := by
  induction ports using List.reverseRecOn with
  | nil => exact ⟨fun h => absurd h (by decide), fun h => nomatch h⟩
  | append_singleton ports port ih =>
    rw [scanned_concat, dslRound_eq, endsInVrx618_concat]
    cases deviceOf port with
    | none => exact ih
    | some d =>
      cases d with
      | vrx518 =>
        have hne := family_file_ne ports
        exact ⟨fun h => absurd (congrArg Dsl.family h) hne, nofun⟩
      | vrx618 => exact ⟨fun _ => rfl, fun _ => rfl⟩

/-- Later calls read the file. -/
theorem later_dsl (ports : List Port) (vars : List Dsl) :
    ∀ v ∈ calls (dslVrxDetect ports) (dslVrxDetect ports .unset none).2 vars, v = (scanned ports).2 := by
  have hcall : ∀ i c, c = some (scanned ports).2 →
      (dslVrxDetect ports i c).1 = (scanned ports).2 ∧ (dslVrxDetect ports i c).2 = some (scanned ports).2 := by
    rintro i c rfl
    exact ⟨rfl, rfl⟩
  exact calls_eq _ hcall rfl vars

/-! ## The scan of the WLAN devices -/

/-- The variable is in the file, once there is one. -/
theorem wavLoop_kept {s : Nat × Option Nat} (ports : List Port) (h : s.2 = none ∨ s.2 = some s.1) :
    ((wavLoop s ports).2 = none ∧ wavLoop s ports = s) ∨
      (wavLoop s ports).2 = some (wavLoop s ports).1 := by
  induction ports generalizing s with
  | nil => exact h.imp (fun hnone => ⟨hnone, rfl⟩) id
  | cons port ports ih =>
    rw [wavLoop]
    cases port.endpoint with
    | none => exact ih h
    | some ids =>
      dsimp only
      split
      · exact .inr rfl
      · rcases ih (s := ((wavOf ids).1, some (wavOf ids).1)) (.inr rfl) with ⟨hnone, hsame⟩ | hkept
        · rw [hsame] at hnone
          cases hnone
        · exact .inr hkept

/-- Later calls read the file, or scan again where there is none. -/
theorem later_wav (ports : List Port) (times : List Unit) :
    ∀ w ∈ calls (fun _ => whichWavCheck ports) (whichWavCheck ports none).2 times,
      w = (whichWavCheck ports none).1 := by
  rcases wavLoop_kept (s := (0, none)) ports (.inl rfl) with ⟨hnone, -⟩ | hkept
  · have hcall : ∀ (i : Unit) c, c = none → ((fun _ : Unit => whichWavCheck ports) i c).1 = (whichWavCheck ports none).1 ∧
        ((fun _ : Unit => whichWavCheck ports) i c).2 = none := by
      rintro i c rfl
      exact ⟨rfl, hnone⟩
    exact calls_eq _ hcall hnone times
  · have hcall : ∀ (i : Unit) c, c = some (whichWavCheck ports none).1 →
        ((fun _ : Unit => whichWavCheck ports) i c).1 = (whichWavCheck ports none).1 ∧
          ((fun _ : Unit => whichWavCheck ports) i c).2 = some (whichWavCheck ports none).1 := by
      rintro i c rfl
      exact ⟨rfl, rfl⟩
    exact calls_eq _ hcall hkept times

/-- All calls agree exactly if the last of the DSL devices is a VRX618. -/
theorem detectRight_iff (ports : List Port) : DetectRight ports ↔ EndsInVrx618 ports := by
  rw [← scanned_eq_iff]
  constructor
  · intro h
    exact h.dsl [.unset] _ List.mem_cons_self
  · intro h
    refine ⟨fun vars v hv => ?_, fun vars busMap levelPm v hv => ?_, later_wav ports⟩
    · exact (later_dsl ports vars v hv).trans h
    · rw [later_dsl ports vars v hv, h]
      rfl

/-- A VRX618, and behind it a VRX518: the first call ends the script, a later one does not. -/
theorem not_detectRight_mixed : ¬ DetectRight [⟨['0', '0', '0', '0'], [], some vrx618Ids, false⟩,
    ⟨['0', '0', '0', '1'], [], some vrx518Ids, false⟩] := by
  intro h
  have hdecision := h.decision [.unset] id 2 _ List.mem_cons_self
  exact absurd hdecision (by decide)

end Pcie
