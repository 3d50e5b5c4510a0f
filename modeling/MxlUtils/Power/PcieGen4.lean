import MxlUtils.Lib.Carry

/- The link states of PCIe root ports. `pcie_gen4_pm` goes through the ports in the order of
   /tmp/pcie_rc_device.txt; the ids of an endpoint are read into variables that keep their values
   for a port without one. The power manager and the profile helper have the same text of it. -/
namespace Pcie
open Carry

abbrev Word := List Char

structure Ids where
  vendor : Word
  device : Word
deriving DecidableEq

/-- A root port under /sys/bus/pci/devices: the domain of its name, the text of `max_link_speed`, the
ids at `$domain:01:00.0` if there is something, and whether `find` has a file `l1_aspm` in it. -/
structure Port where
  domain : Word
  maxLinkSpeed : Word
  endpoint : Option Ids
  l1Aspm : Bool
deriving DecidableEq

/-- What the kernel has: `power/link_state` of the ports, or `l1_aspm` files under the platform. -/
structure Kernel where
  linkState : Bool
  l1Aspm : Bool

/-- A value written to a file of a port. -/
inductive Write where
  | linkState (value : Nat)
  | l1Aspm (value : Nat)
deriving DecidableEq

/-- Whether a text begins with a pattern, where `none` is the dot that any character matches. -/
def beginsWith : List (Option Char) → Word → Bool
  | [], _ => true
  | _ :: _, [] => false
  | none :: ps, _ :: cs => beginsWith ps cs
  | some p :: ps, c :: cs => p = c && beginsWith ps cs

/-- `grep` on one line. -/
def grep (pattern : List (Option Char)) (line : Word) : Bool := line.tails.any (beginsWith pattern)

/-- `16 GT/s` and `16.0 GT/s` -/
def gen4 : List (Option Char) := ['1', '6', ' ', 'G', 'T', '/', 's'].map some
def gen4Dot : List (Option Char) :=
  [some '1', some '6', none, some '0', some ' ', some 'G', some 'T', some '/', some 's']

def vrx618Ids : Ids := ⟨['0', 'x', '8', '0', '8', '6'], ['0', 'x', '0', '9', 'a', 'a']⟩

/-- The variables `vendor` and `device` before the loop. -/
def noIds : Ids := ⟨[], []⟩

/-- A round with the old control. -/
def linkStateWrite (port : Port) : Option Write :=
  some (.linkState (if grep gen4 port.maxLinkSpeed then 3 else 7))

/-- A round with the new control, with `vendor` and `device`. -/
def l1AspmWrite (port : Port) (ids : Ids) : Option Write :=
  if grep gen4Dot port.maxLinkSpeed then
    if port.l1Aspm then some (.l1Aspm 0) else none
  else if ids.vendor = vrx618Ids.vendor ∧ ids.device = vrx618Ids.device then
    if port.l1Aspm then some (.l1Aspm 0) else none
  else
    if port.l1Aspm then some (.l1Aspm 1) else none

/-- What is written for each of the ports. -/
def pcieGen4Pm (k : Kernel) (ports : List Port) : List (Option Write) :=
  if k.linkState then ports.map linkStateWrite
  else if k.l1Aspm then each Port.endpoint l1AspmWrite noIds ports
  else ports.map fun _ => none

/-- In pwr_control.sh and in ppmd_profile_helper.sh. -/
def pwrControlGen4Pm (k : Kernel) (ports : List Port) : List (Option Write) := pcieGen4Pm k ports
def ppmdGen4Pm (k : Kernel) (ports : List Port) : List (Option Write) := pcieGen4Pm k ports

/-! ## One port in two systems -/

/-- Two systems with a port in common write the same for it, and so do the two functions. -/
structure PortRight (k : Kernel) (port : Port) (before after before' after' : List Port) : Prop where
  same : (pwrControlGen4Pm k (before ++ port :: after))[before.length]? =
    (pwrControlGen4Pm k (before' ++ port :: after'))[before'.length]?
  copies : ∀ ports, pwrControlGen4Pm k ports = ppmdGen4Pm k ports

/-- Whether the last endpoint of some ports is a VRX618. -/
def endsInVrx618 (ports : List Port) : Bool := (ports.filterMap Port.endpoint).getLast? = some vrx618Ids

/-- The port has no endpoint and is no GEN4 port, and is behind the endpoint of a VRX618 in one of the
systems only. -/
structure Carried (k : Kernel) (port : Port) (before before' : List Port) : Prop where
  control : k.linkState = false ∧ k.l1Aspm = true
  path : port.l1Aspm = true
  speed : grep gen4Dot port.maxLinkSpeed = false
  endpoint : port.endpoint = none
  differ : endsInVrx618 before ≠ endsInVrx618 before'

/-- What the variables hold after some ports. -/
theorem last_eq (ids : Ids) (ports : List Port) :
    last Port.endpoint ids ports = ((ports.filterMap Port.endpoint).getLast?).getD ids := by
  induction ports generalizing ids with
  | nil => rfl
  | cons port ports ih =>
    rw [last, ih]
    cases hport : port.endpoint with
    | none => rw [List.filterMap_cons_none hport, Option.getD_none]
    | some e =>
      rw [List.filterMap_cons_some hport, List.getLast?_cons, Option.getD_some, Option.getD_some]

theorem last_eq_vrx618_iff (ports : List Port) :
    last Port.endpoint noIds ports = vrx618Ids ↔ endsInVrx618 ports = true := by
  rw [last_eq, endsInVrx618, decide_eq_true_eq]
  cases (ports.filterMap Port.endpoint).getLast? with
  | none => simp [noIds, vrx618Ids]
  | some ids => simp

theorem l1AspmWrite_eq (port : Port) (ids : Ids) : l1AspmWrite port ids =
    if port.l1Aspm then
      some (.l1Aspm (if grep gen4Dot port.maxLinkSpeed = true ∨ ids = vrx618Ids then 0 else 1))
    else none := by
  have hids : (ids.vendor = vrx618Ids.vendor ∧ ids.device = vrx618Ids.device) ↔ ids = vrx618Ids := by
    cases ids
    simp [vrx618Ids]
  unfold l1AspmWrite
  simp only [hids]
  split_ifs <;> simp_all

/-- What is written for a port, from those before it. -/
theorem pcieGen4Pm_at {k : Kernel} (hk : k.linkState = false ∧ k.l1Aspm = true) (port : Port)
    (before after : List Port) : (pcieGen4Pm k (before ++ port :: after))[before.length]? =
      some (l1AspmWrite port (port.endpoint.getD (last Port.endpoint noIds before))) := by
  rw [pcieGen4Pm, if_neg (by simp [hk.1]), if_pos hk.2]
  exact getElem?_each _ _ _ _ _ _

theorem pcieGen4Pm_at_of_not {k : Kernel} (hk : ¬ (k.linkState = false ∧ k.l1Aspm = true)) (port : Port)
    (before after : List Port) : (pcieGen4Pm k (before ++ port :: after))[before.length]? =
      some (if k.linkState then linkStateWrite port else none) := by
  unfold pcieGen4Pm
  cases hlink : k.linkState with
  | true => simp
  | false =>
    have haspm : k.l1Aspm = false := by simpa [hlink] using hk
    simp [haspm]

/-- A port gets the same in two systems unless it takes over the endpoint of another in one of them. -/
theorem portRight_iff (k : Kernel) (port : Port) (before after before' after' : List Port) :
    PortRight k port before after before' after' ↔ ¬ Carried k port before before' := by
  have hiff : PortRight k port before after before' after' ↔
      (pcieGen4Pm k (before ++ port :: after))[before.length]? =
        (pcieGen4Pm k (before' ++ port :: after'))[before'.length]? :=
    ⟨PortRight.same, fun h => ⟨h, fun _ => rfl⟩⟩
  rw [hiff]
  by_cases hk : k.linkState = false ∧ k.l1Aspm = true
  case neg =>
    rw [pcieGen4Pm_at_of_not hk, pcieGen4Pm_at_of_not hk]
    exact ⟨fun _ h => hk h.control, fun _ => rfl⟩
  case pos =>
    rw [pcieGen4Pm_at hk, pcieGen4Pm_at hk, Option.some.injEq]
    constructor
    · intro hsame hcarried
      rw [hcarried.endpoint, Option.getD_none, Option.getD_none, l1AspmWrite_eq, l1AspmWrite_eq,
        if_pos hcarried.path, if_pos hcarried.path, hcarried.speed] at hsame
      have hlast := hcarried.differ
      simp only [Bool.false_eq_true, false_or, last_eq_vrx618_iff, Option.some.injEq, Write.l1Aspm.injEq] at hsame
      cases hbefore : endsInVrx618 before <;> cases hbefore' : endsInVrx618 before' <;>
        simp [hbefore, hbefore'] at hsame hlast
    · intro hcarried
      cases hend : port.endpoint with
      | some ids => rfl
      | none =>
        rw [Option.getD_none, Option.getD_none, l1AspmWrite_eq, l1AspmWrite_eq]
        cases hpath : port.l1Aspm with
        | false => rfl
        | true =>
          cases hspeed : grep gen4Dot port.maxLinkSpeed with
          | true => simp
          | false =>
            have hlast : endsInVrx618 before = endsInVrx618 before' := by
              by_contra hdiffer
              exact hcarried ⟨hk, hpath, hspeed, hend, hdiffer⟩
            simp only [Bool.false_eq_true, false_or, last_eq_vrx618_iff, hlast]

/-- A port with 8 GT/s and no endpoint, and one with a VRX618. -/
def emptyPort : Port :=
  ⟨['0', '0', '0', '1'], ['8', '.', '0', ' ', 'G', 'T', '/', 's', ' ', 'P', 'C', 'I', 'e'], none, true⟩

def vrx618Port : Port :=
  ⟨['0', '0', '0', '0'], ['8', '.', '0', ' ', 'G', 'T', '/', 's', ' ', 'P', 'C', 'I', 'e'], some vrx618Ids, true⟩

/-- Behind a VRX618 the empty port gets 0, without it 1. -/
theorem not_portRight_emptyPort : ¬ PortRight ⟨false, true⟩ emptyPort [vrx618Port] [] [] [] := by
  intro h
  have hdiffer : (pwrControlGen4Pm ⟨false, true⟩ ([vrx618Port] ++ emptyPort :: []))[[vrx618Port].length]? ≠
      (pwrControlGen4Pm ⟨false, true⟩ ([] ++ emptyPort :: []))[([] : List Port).length]? := by decide
  exact hdiffer h.same

end Pcie
