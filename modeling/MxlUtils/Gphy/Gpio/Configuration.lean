import MxlUtils.Gphy.Gpio.Pins
import Mathlib.Data.List.Induction

/- What is configured of a GPIO pin, and what the getter shows of it over a run of
   calls. A call with valid flags sets the whole configuration of its pin, an output
   call sets the level of a pin that is an output, and a call on another pin keeps
   it; a call that is refused for its pull bits keeps it only where the bits that it
   puts before the refusal are in place already. -/
namespace Gpy2xx
open Effect Effect.Fallible Effect.Lock Bits

/-! ## Configurations -/

/-- What is configured of a pin; an input has no output level. -/
structure GpioConf where
  output : Option Bool
  openDrain : Bool
  pull : GpioPull
  fastSlew : Bool
  func1 : Bool
  func2 : Bool
  padStr1 : Bool
  padStr2 : Bool
deriving DecidableEq

/-- The configuration of a flag word with valid pull bits. -/
def confOf (flags : BitVec 32) : Option GpioConf :=
  (pullOf flags).map fun pull =>
    { output := if hasFlag flags gpiofDirIn then none else some (hasFlag flags gpiofOutputHigh)
      openDrain := hasFlag flags gpiofOpenDrain
      pull
      fastSlew := hasFlag flags gpiofFastSlew
      func1 := hasFlag flags gpiofFunc1
      func2 := hasFlag flags gpiofFunc2
      padStr1 := hasFlag flags gpiofPadStr1
      padStr2 := hasFlag flags gpiofPadStr2 }

/-- The configuration in the bits of a pin. -/
def pinConf (bits : GpioReg → Bool) : GpioConf where
  output := if bits .dir then some (bits .output) else none
  openDrain := !bits .od
  pull := if bits .pullEn then if bits .pullUp then .up else .down else .off
  fastSlew := bits .fastSlew
  func1 := bits .alt0
  func2 := bits .alt1
  padStr1 := bits .strength0
  padStr2 := bits .strength1

/-- The flags that the getter makes of the bits of a pin. -/
def flagsOf (bits : GpioReg → Bool) : BitVec 32 :=
  (if bits .dir then flagIf (bits .output) gpiofOutputHigh
    else gpiofDirIn ||| flagIf (bits .input) gpiofInputHigh) |||
  flagIf (!bits .od) gpiofOpenDrain |||
  (if bits .pullEn then if bits .pullUp then gpiofPullUp else gpiofPullDown else 0) |||
  flagIf (bits .fastSlew) gpiofFastSlew ||| flagIf (bits .alt0) gpiofFunc1 |||
  flagIf (bits .alt1) gpiofFunc2 ||| flagIf (bits .strength0) gpiofPadStr1 |||
  flagIf (bits .strength1) gpiofPadStr2

section Flags
variable (a b flag : BitVec 32) (bits : GpioReg → Bool)

theorem hasFlag_or : hasFlag (a ||| b) flag = (hasFlag a flag || hasFlag b flag) := by
  rw [Bool.eq_iff_iff]
  simp only [hasFlag, bne_iff_ne, ne_eq, Bool.or_eq_true, BitVec.and_or_distrib_right]
  rw [show (0 : BitVec 32) = 0#32 from rfl, BitVec.or_eq_zero_iff]
  tauto

theorem hasFlag_flagIf (c : Bool) : hasFlag (flagIf c a) flag = (c && hasFlag a flag) := by
  cases c <;> simp [flagIf, hasFlag]

theorem hasFlag_ite (p : Prop) [Decidable p] :
    hasFlag (if p then a else b) flag = if p then hasFlag a flag else hasFlag b flag :=
  apply_ite (hasFlag · flag) p a b

theorem flagIf_and (c : Bool) : flagIf c a &&& flag = flagIf c (a &&& flag) := by
  cases c <;> simp [flagIf]

@[simp] theorem flagIf_zero (c : Bool) : flagIf c 0#32 = 0#32 := by cases c <;> rfl

/-- Only the pull bits of the getter's flags are pull bits. -/
theorem flagsOf_and_pull : flagsOf bits &&& gpiofPullDown =
    if bits .pullEn then if bits .pullUp then gpiofPullUp else gpiofPullDown else 0 := by
  have hdir : (if bits .dir then flagIf (bits .output) gpiofOutputHigh
      else gpiofDirIn ||| flagIf (bits .input) gpiofInputHigh) &&& gpiofPullDown = 0#32 := by
    split_ifs <;> simp only [BitVec.and_or_distrib_right, flagIf_and] <;>
      simp [gpiofOutputHigh, gpiofInputHigh, gpiofDirIn, gpiofPullDown]
  simp only [flagsOf, BitVec.and_or_distrib_right, hdir, flagIf_and]
  split_ifs <;>
    simp [gpiofOpenDrain, gpiofFastSlew, gpiofFunc1, gpiofFunc2, gpiofPadStr1, gpiofPadStr2,
      gpiofPullDown, gpiofPullUp]

theorem pullOf_flagsOf : pullOf (flagsOf bits) =
    some (if bits .pullEn then if bits .pullUp then .up else .down else .off) := by
  rw [pullOf, flagsOf_and_pull]
  split_ifs <;> simp_all [gpiofPullDown, gpiofPullUp]

/-- The getter's flags are those of the configuration in the bits. -/
theorem confOf_flagsOf : confOf (flagsOf bits) = some (pinConf bits) := by
  rw [confOf, pullOf_flagsOf, Option.map_some, pinConf]
  simp only [flagsOf, hasFlag_or, hasFlag_flagIf, hasFlag_ite]
  cases bits .dir <;>
    simp [hasFlag, gpiofDirIn, gpiofOutputHigh, gpiofInputHigh, gpiofOpenDrain, gpiofFastSlew, gpiofFunc1,
      gpiofFunc2, gpiofPadStr1, gpiofPadStr2, gpiofPullDown, gpiofPullUp]

end Flags

/-! ## One call -/

/-- The getter gives flags of this configuration, and changes nothing. -/
def ShowsConf (pin : Pin) (conf : GpioConf) (s : Regs) : Prop :=
  ∀ gpio : Gpio, gpio.pin.toNat = pin.val →
    ∃ flags, (gpy2xxGpioGet gpio).exec lockedMem s = (.ok flags, s) ∧ confOf flags = some conf

namespace GpioCall

/-- What is configured of a pin after a call: the output call sets the level of an output. -/
def configures (pin : Pin) (conf : Option GpioConf) (c : GpioCall) : Option GpioConf :=
  if c.On pin then
    match c with
    | .cfg gpio => (confOf gpio.flags).or conf
    | .output gpio => conf.map fun conf =>
        { conf with output := conf.output.map fun _ => hasFlag gpio.flags gpiofOutputHigh }
  else conf

/-- The flags of a call are an invalid combination. -/
def Refused : GpioCall → Prop
  | .cfg gpio => pullOf gpio.flags = none
  | .output _ => False

/-- The bits that a refused call puts are in place. -/
def InPlace (pin : Pin) (s : Regs) (c : GpioCall) : Prop :=
  c.Refused → ∀ w ∈ earlyBits c.gpio.flags, pinBits s pin w.1 = w.2

end GpioCall

section OneCall
variable {s : Regs} {c : GpioCall} {pin : Pin} {conf conf' : GpioConf}

theorem exec_getGpio : (getGpio pin).exec memHandler s = (.ok (flagsOf (pinBits s pin)), s) := by
  have hdir : (getGpioDir pin).exec memHandler s = (.ok (if pinBits s pin .dir then
      flagIf (pinBits s pin .output) gpiofOutputHigh
      else gpiofDirIn ||| flagIf (pinBits s pin .input) gpiofInputHigh), s) := by
    simp only [getGpioDir, exec_bind, exec_getPin]
    split_ifs <;> rfl
  have hpull : (getGpioPull pin).exec memHandler s = (.ok (if pinBits s pin .pullEn then
      if pinBits s pin .pullUp then gpiofPullUp else gpiofPullDown else 0), s) := by
    rw [getGpioPull, exec_bind, exec_getPin]
    cases pinBits s pin .pullEn with
    | false => rfl
    | true =>
      simp only [if_true, exec_bind, exec_getPin]
      rfl
  simp only [getGpio, exec_bind, exec_getPin, hdir, hpull, flagsOf]
  rfl

/-- The getter shows the configuration in the bits of its pin. -/
theorem showsConf_iff : ShowsConf pin conf s ↔ pinConf (pinBits s pin) = conf := by
  have hget : ∀ gpio : Gpio, gpio.pin.toNat = pin.val →
      (gpy2xxGpioGet gpio).exec lockedMem s = (.ok (flagsOf (pinBits s pin)), s) := by
    intro gpio hpin
    rw [gpy2xxGpioGet, onPin_of_eq _ hpin, exec_locked, exec_getGpio]
  constructor
  · intro h
    have hpin : (BitVec.ofNat 16 pin.val).toNat = pin.val := by
      have hmax : gpioPinsMax = 18 := rfl
      have hlt := pin.isLt
      rw [BitVec.toNat_ofNat, Nat.mod_eq_of_lt (by omega)]
    obtain ⟨flags, hflags, hconf⟩ := h ⟨BitVec.ofNat 16 pin.val, 0⟩ hpin
    have hsame : flagsOf (pinBits s pin) = flags := by
      have heq := (hget ⟨BitVec.ofNat 16 pin.val, 0⟩ hpin).symm.trans hflags
      injection heq with hok
      injection hok
    rw [← hsame, confOf_flagsOf] at hconf
    exact Option.some.inj hconf
  · rintro rfl gpio hpin
    exact ⟨_, hget gpio hpin, confOf_flagsOf _⟩

/-- A bit that is in place is put without effect. -/
theorem putPin_of_inPlace {reg : GpioReg} {b : Bool} (h : pinBits s pin reg = b) : s.putPin pin reg b = s := by
  have hlt : pin.val % 16 < 16 := Nat.mod_lt _ (by decide)
  have hval : (if b then s.smdio (pinReg pin reg) ||| 1#16 <<< (pin.val % 16)
      else s.smdio (pinReg pin reg) &&& ~~~(1#16 <<< (pin.val % 16))) = s.smdio (pinReg pin reg) := by
    apply BitVec.eq_of_getLsbD_eq
    intro i hi
    subst h
    by_cases hbit : i = pin.val % 16
    · subst hbit
      split
      next hset => rw [getLsbD_setBit hlt]; exact hset.symm
      next hclear => rw [getLsbD_clearBit]; exact (Bool.eq_false_iff.mpr hclear).symm
    · split
      · exact getLsbD_setBit_of_ne hbit
      · exact getLsbD_clearBit_of_ne hbit
  rw [Regs.putPin, hval, Function.update_eq_self]

theorem putPins_of_inPlace {l : List (GpioReg × Bool)} (h : ∀ w ∈ l, pinBits s pin w.1 = w.2) :
    s.putPins pin l = s := by
  induction l with
  | nil => rfl
  | cons w l ih =>
    calc (s.putPin pin w.1 w.2).putPins pin l
        = s.putPins pin l := by rw [putPin_of_inPlace (h w List.mem_cons_self)]
      _ = s := ih fun w' hw' => h w' (List.mem_cons_of_mem _ hw')

/-- A call with valid flags sets the configuration of its pin. -/
theorem pinConf_putPins_cfgBits {flags : BitVec 32} (h : confOf flags = some conf) :
    pinConf (pinBits (s.putPins pin (cfgBits flags)) pin) = conf := by
  obtain ⟨pull, hpull, rfl⟩ := Option.map_eq_some_iff.mp h
  rw [cfgBits, hpull, Option.elim_some, lateBits, earlyBits]
  split_ifs <;> cases pull <;> simp [Regs.putPins, GpioPull.bits, pinConf]

/-- A refused call has put its first bits when it looks at the pull bits. -/
theorem after_of_refused (hon : c.On pin) (hrefused : c.Refused) :
    c.after s = s.putPins pin (earlyBits c.gpio.flags) := by
  rw [GpioCall.after, exec_run_on hon]
  cases c with
  | cfg gpio =>
    have hpull : pullOf gpio.flags = none := hrefused
    simp only [GpioCall.bits, GpioCall.gpio, cfgBits, hpull, Option.elim_none, List.append_nil]
  | output gpio => exact hrefused.elim

theorem pinBits_putPins_earlyBits {flags : BitVec 32} {w : GpioReg × Bool} (hw : w ∈ earlyBits flags) :
    pinBits (s.putPins pin (earlyBits flags)) pin w.1 = w.2 := by
  by_cases hdir : hasFlag flags gpiofDirIn
  · simp only [earlyBits, if_pos hdir, List.mem_cons, List.not_mem_nil, or_false] at hw ⊢
    rcases hw with rfl | rfl <;> simp [Regs.putPins]
  · simp only [earlyBits, if_neg hdir, List.mem_cons, List.not_mem_nil, or_false] at hw ⊢
    rcases hw with rfl | rfl | rfl <;> simp [Regs.putPins]

/-- A refused call changes nothing if and only if its first bits are in place. -/
theorem after_eq_self_iff (hon : c.On pin) (hrefused : c.Refused) : c.after s = s ↔ c.InPlace pin s := by
  constructor
  · intro hsame _ w hw
    have hput : pinBits (c.after s) pin w.1 = w.2 := by
      rw [after_of_refused hon hrefused]
      exact pinBits_putPins_earlyBits hw
    rw [← hput, hsame]
  · intro hplace
    rw [after_of_refused hon hrefused]
    exact putPins_of_inPlace (hplace hrefused)

variable {before : Option GpioConf}

/-- A call whose first bits are in place if it is refused leaves its pin configured
    as it says. -/
theorem pinConf_after (hplace : c.On pin → c.InPlace pin s)
    (hbefore : ∀ conf, before = some conf → pinConf (pinBits s pin) = conf)
    (hnext : c.configures pin before = some conf) : pinConf (pinBits (c.after s) pin) = conf := by
  by_cases hon : c.On pin
  · cases c with
    | cfg gpio =>
      simp only [GpioCall.configures, if_pos hon] at hnext
      cases hflags : confOf gpio.flags with
      | some conf' =>
        have hsame : conf' = conf := by simpa [hflags] using hnext
        rw [GpioCall.after, exec_run_on hon]
        exact (pinConf_putPins_cfgBits hflags).trans hsame
      | none =>
        have hrefused : pullOf gpio.flags = none := Option.map_eq_none_iff.mp hflags
        rw [(after_eq_self_iff hon hrefused).mpr (hplace hon)]
        exact hbefore conf (by simpa [hflags] using hnext)
    | output gpio =>
      simp only [GpioCall.configures, if_pos hon] at hnext
      obtain ⟨conf', hconf', rfl⟩ := Option.map_eq_some_iff.mp hnext
      rw [GpioCall.after, exec_run_on hon, ← hbefore conf' hconf']
      simp only [GpioCall.bits, Regs.putPins, List.foldl_cons, List.foldl_nil, pinConf]
      cases hdir : pinBits s pin .dir <;> simp [hdir]
  · simp only [GpioCall.configures, if_neg hon] at hnext
    have hbits : pinBits (c.after s) pin = pinBits s pin := funext (pinBits_after_of_not_on hon)
    rw [hbits]
    exact hbefore conf hnext

end OneCall

/-! ## Runs -/

/-- The configuration last set for a pin by the calls. -/
def lastConf (pin : Pin) (calls : List GpioCall) : Option GpioConf :=
  calls.foldl (GpioCall.configures pin) none

/-- At every point of a run the getter shows what was last configured of the pin, and a
    call on the pin with an invalid combination of flags changes nothing. -/
structure PinIndependent (pin : Pin) (s : Regs) (calls : List GpioCall) : Prop where
  shows : ∀ pre post, calls = pre ++ post → ∀ conf, lastConf pin pre = some conf →
    ShowsConf pin conf (pre.foldl GpioCall.after s)
  refused : ∀ pre c post, calls = pre ++ c :: post → c.On pin → c.Refused →
    c.after (pre.foldl GpioCall.after s) = pre.foldl GpioCall.after s

/-- Every refused call on the pin finds the bits in place that it puts. -/
def InPlaceThroughout (pin : Pin) (s : Regs) (calls : List GpioCall) : Prop :=
  ∀ pre c post, calls = pre ++ c :: post → c.On pin → c.InPlace pin (pre.foldl GpioCall.after s)

section Runs
variable {s : Regs} {pin : Pin} {calls : List GpioCall} {conf : GpioConf}

/-- The run lemma, by induction on the calls made so far. -/
theorem pinConf_run (h : InPlaceThroughout pin s calls) (hlast : lastConf pin calls = some conf) :
    pinConf (pinBits (calls.foldl GpioCall.after s) pin) = conf := by
  induction calls using List.reverseRecOn generalizing conf with
  | nil => exact absurd hlast (by simp [lastConf])
  | append_singleton calls c ih =>
    have hbefore : InPlaceThroughout pin s calls := by
      intro pre c' post hsplit
      exact h pre c' (post ++ [c]) (by rw [hsplit, List.append_assoc, List.cons_append])
    rw [lastConf, List.foldl_append] at hlast
    rw [List.foldl_append]
    exact pinConf_after (h calls c [] rfl) (fun conf hconf => ih hbefore hconf) hlast

/-- A call changes bits of its own pin only, whatever it is and wherever it comes. For
    every pin, every registers at the start and every calls on whatever pins, the pin
    shows what was last set for it and its refused calls change nothing, throughout, if
    and only if each of its refused calls finds direction, output and open drain in
    place. -/
theorem gpio_independent_iff (pin : Pin) (s : Regs) (calls : List GpioCall) :
    (∀ pre c post, calls = pre ++ c :: post →
      PinFrame c (pre.foldl GpioCall.after s) (c.after (pre.foldl GpioCall.after s))) ∧
    (PinIndependent pin s calls ↔ InPlaceThroughout pin s calls) := by
  refine ⟨fun pre c post _ => pinFrame_after c _, ?_⟩
  constructor
  · intro h pre c post hsplit hon hrefused
    have hsame := h.refused pre c post hsplit hon hrefused
    exact (after_eq_self_iff hon hrefused).mp hsame hrefused
  · intro h
    constructor
    · intro pre post hsplit conf hlast
      have hpre : InPlaceThroughout pin s pre := by
        intro pre' c post' hsplit'
        exact h pre' c (post' ++ post) (by rw [hsplit, hsplit', List.append_assoc, List.cons_append])
      exact (showsConf_iff).mpr (pinConf_run hpre hlast)
    · intro pre c post hsplit hon hrefused
      exact (after_eq_self_iff hon hrefused).mpr (h pre c post hsplit hon)

end Runs

/-- Pin 17 as a high output with pull-up, with a refused call on pin 3 after it. -/
theorem pinIndependent_pin17 :
    PinIndependent 17 (zeroRegs true) [.cfg ⟨17, 0x202⟩, .cfg ⟨3, 0x100⟩] := by
  refine (gpio_independent_iff 17 (zeroRegs true) _).2.mpr fun pre c post hsplit hon hrefused => ?_
  have hmem : c ∈ [GpioCall.cfg ⟨17, 0x202⟩, .cfg ⟨3, 0x100⟩] := by
    rw [hsplit]
    exact List.mem_append_right pre List.mem_cons_self
  simp only [List.mem_cons, List.not_mem_nil, or_false] at hmem
  rcases hmem with rfl | rfl
  · exact absurd (show pullOf 0x202 = none from hrefused) (by decide)
  · exact absurd hon (by decide)

/-- Flags 0x100 are refused, after pin 0 is an output. -/
theorem not_gpioIndependent : ¬∀ pin s calls, PinIndependent pin s calls := by
  intro h
  have hsame := (h 0 (zeroRegs true) [.cfg ⟨0, 0x100⟩]).refused
    [] (.cfg ⟨0, 0x100⟩) [] rfl rfl rfl
  have hdir := congrArg (fun s => pinBits s 0 .dir) hsame
  exact absurd hdir (by decide)

end Gpy2xx
