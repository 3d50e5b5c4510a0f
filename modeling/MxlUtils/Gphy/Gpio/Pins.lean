import MxlUtils.Gphy.Chip

/- The GPIO pins. A pin has one bit in each of ten registers of its port, and each
   call changes only bits of its own pin: seen through `pinBits` the registers are
   19 pins side by side. The pull bits of the flags are looked at last, so a call
   that is refused for them has already set direction, output and open drain. -/
namespace Gpy2xx
open Effect Effect.Fallible Effect.Lock Bits

/-! ## Registers and flags -/

/-- `GPIO_PINS_MAX` -/
def gpioPinsMax : Nat := 18

/-- A valid pin; `pin >> 4` and `pin % 16` are its port and its bit. -/
abbrev Pin := Fin (gpioPinsMax + 1)

/-- The columns of `gpio_reg`, without the voltage. -/
inductive GpioReg where
  | output
  | input
  | dir
  | alt0
  | alt1
  | od
  | pullUp
  | pullEn
  | strength0
  | strength1
  | fastSlew
deriving DecidableEq

/-- `gpio_reg[port]` -/
def gpioReg (port : Nat) : GpioReg → Nat
  | .output => if port = 0 then 0xD3CE00 else 0xD3CE20
  | .input => if port = 0 then 0xD3CE04 else 0xD3CE24
  | .dir => if port = 0 then 0xD3CE08 else 0xD3CE28
  | .alt0 => if port = 0 then 0xD3CE0C else 0xD3CE2C
  | .alt1 => if port = 0 then 0xD3CE10 else 0xD3CE30
  | .od => if port = 0 then 0xD3CE14 else 0xD3CE34
  | .pullUp => if port = 0 then 0xD3CE18 else 0xD3CE38
  | .pullEn => if port = 0 then 0xD3CE1C else 0xD3CE3C
  | .strength0 => if port = 0 then 0xD3CE40 else 0xD3CE50
  | .strength1 => if port = 0 then 0xD3CE44 else 0xD3CE54
  | .fastSlew => if port = 0 then 0xD3CE48 else 0xD3CE58

/-- `GPIOF_*` -/
def gpiofDirIn : BitVec 32 := 0x1
def gpiofOutputHigh : BitVec 32 := 0x2
def gpiofInputHigh : BitVec 32 := 0x4
def gpiofOpenDrain : BitVec 32 := 0x8
def gpiofPullUp : BitVec 32 := 0x200
def gpiofPullDown : BitVec 32 := 0x300
def gpiofFunc1 : BitVec 32 := 0x400
def gpiofFunc2 : BitVec 32 := 0x800
def gpiofPadStr1 : BitVec 32 := 0x1000
def gpiofPadStr2 : BitVec 32 := 0x2000
def gpiofFastSlew : BitVec 32 := 0x8000

/-- `flags & flag` as a condition. -/
def hasFlag (flags flag : BitVec 32) : Bool := flags &&& flag != 0

/-- `struct gpy211_gpio`, without the port, which is not read. -/
structure Gpio where
  pin : BitVec 16
  flags : BitVec 32

/-! ## The calls -/

/-- `SMDIO_SET_BIT` or `SMDIO_CLR_BIT` of the pin's bit. -/
def putPin (pin : Pin) (reg : GpioReg) (b : Bool) : Api Unit := do
  let val ← smdioReadAt (gpioReg (pin / 16) reg)
  smdioWriteAt (gpioReg (pin / 16) reg)
    (if b then val ||| 1#16 <<< (pin.val % 16) else val &&& ~~~(1#16 <<< (pin.val % 16)))

/-- `SMDIO_READ`, and the pin's bit. -/
def getPin (pin : Pin) (reg : GpioReg) : Api Bool := do
  let val ← smdioReadAt (gpioReg (pin / 16) reg)
  pure (val.getLsbD (pin.val % 16))

def setGpioDir (pin : Pin) (flags : BitVec 32) : Api Unit :=
  if hasFlag flags gpiofDirIn then putPin pin .dir false
  else do
    putPin pin .output (hasFlag flags gpiofOutputHigh)
    putPin pin .dir true

/-- The pull bits are none, up or down; the fourth value is refused. -/
def setGpioPull (pin : Pin) (flags : BitVec 32) : Api Unit :=
  if flags &&& gpiofPullDown = 0 then putPin pin .pullEn false
  else if flags &&& gpiofPullDown = gpiofPullUp ∨ flags &&& gpiofPullDown = gpiofPullDown then do
    putPin pin .pullEn true
    putPin pin .pullUp (flags &&& gpiofPullDown = gpiofPullUp)
  else throw EINVAL

def setGpio (pin : Pin) (flags : BitVec 32) : Api Unit := do
  setGpioDir pin flags
  putPin pin .od (!hasFlag flags gpiofOpenDrain)
  setGpioPull pin flags
  putPin pin .fastSlew (hasFlag flags gpiofFastSlew)
  putPin pin .alt0 (hasFlag flags gpiofFunc1)
  putPin pin .alt1 (hasFlag flags gpiofFunc2)
  putPin pin .strength0 (hasFlag flags gpiofPadStr1)
  putPin pin .strength1 (hasFlag flags gpiofPadStr2)

/-- The check of the pin, and the lock. -/
def onPin {α : Type} (gpio : Gpio) (body : Pin → Api α) : Call α :=
  if h : gpio.pin.toNat ≤ gpioPinsMax then locked (body ⟨gpio.pin.toNat, Nat.lt_succ_of_le h⟩)
  else throw EINVAL

def gpy2xxGpioCfg (gpio : Gpio) : Call Unit := onPin gpio fun pin => setGpio pin gpio.flags

def gpy2xxGpioOutput (gpio : Gpio) : Call Unit :=
  onPin gpio fun pin => putPin pin .output (hasFlag gpio.flags gpiofOutputHigh)

/-- A flag where its condition holds. -/
def flagIf (b : Bool) (flag : BitVec 32) : BitVec 32 := if b then flag else 0

/-- The direction, with the level that goes with it. -/
def getGpioDir (pin : Pin) : Api (BitVec 32) := do
  let out ← getPin pin .dir
  if out then do
    let high ← getPin pin .output
    pure (flagIf high gpiofOutputHigh)
  else do
    let high ← getPin pin .input
    pure (gpiofDirIn ||| flagIf high gpiofInputHigh)

def getGpioPull (pin : Pin) : Api (BitVec 32) := do
  let en ← getPin pin .pullEn
  if en then do
    let up ← getPin pin .pullUp
    pure (if up then gpiofPullUp else gpiofPullDown)
  else pure 0

def getGpio (pin : Pin) : Api (BitVec 32) := do
  let dir ← getGpioDir pin
  let od ← getPin pin .od
  let pull ← getGpioPull pin
  let slew ← getPin pin .fastSlew
  let alt0 ← getPin pin .alt0
  let alt1 ← getPin pin .alt1
  let strength0 ← getPin pin .strength0
  let strength1 ← getPin pin .strength1
  pure (dir ||| flagIf (!od) gpiofOpenDrain ||| pull ||| flagIf slew gpiofFastSlew |||
    flagIf alt0 gpiofFunc1 ||| flagIf alt1 gpiofFunc2 ||| flagIf strength0 gpiofPadStr1 |||
    flagIf strength1 gpiofPadStr2)

/-- The flags; only the pin is read from the caller's structure. -/
def gpy2xxGpioGet (gpio : Gpio) : Call (BitVec 32) := onPin gpio getGpio

/-! ## The registers as pins -/

/-- The register of a pin, as it is accessed. -/
def pinReg (pin : Pin) (reg : GpioReg) : Nat := smdioReg (gpioReg (pin / 16) reg)

/-- The bits of a pin. -/
def pinBits (s : Regs) (pin : Pin) (reg : GpioReg) : Bool := (s.smdio (pinReg pin reg)).getLsbD (pin.val % 16)

/-- The registers with one bit of a pin put. -/
def Regs.putPin (s : Regs) (pin : Pin) (reg : GpioReg) (b : Bool) : Regs :=
  let val := s.smdio (pinReg pin reg)
  { s with
    smdio := Function.update s.smdio (pinReg pin reg)
      (if b then val ||| 1#16 <<< (pin.val % 16) else val &&& ~~~(1#16 <<< (pin.val % 16))) }

section Pins
variable (s : Regs) (pin pin' : Pin) (reg reg' : GpioReg) (b : Bool)

@[simp] theorem exec_putPin : (putPin pin reg b).exec memHandler s = (.ok (), s.putPin pin reg b) := rfl

@[simp] theorem exec_getPin : (getPin pin reg).exec memHandler s = (.ok (pinBits s pin reg), s) := rfl

/-- The entries of the table are all different. -/
theorem smdioReg_gpioReg_inj {port port' : Nat} (hport : port < 2) (hport' : port' < 2)
    (h : smdioReg (gpioReg port reg) = smdioReg (gpioReg port' reg')) : port = port' ∧ reg = reg' := by
  have hport : port = 0 ∨ port = 1 := by omega
  have hport' : port' = 0 ∨ port' = 1 := by omega
  rcases hport with rfl | rfl <;> rcases hport' with rfl | rfl <;> cases reg <;> cases reg' <;>
    first | exact ⟨rfl, rfl⟩ | exact absurd h (by decide)

/-- Registers of different ports or columns are different. -/
theorem pinReg_inj (h : pinReg pin reg = pinReg pin' reg') : pin.val / 16 = pin'.val / 16 ∧ reg = reg' := by
  have hport : ∀ p : Pin, p.val / 16 < 2 := fun p => by
    have hp := p.isLt
    have hmax : gpioPinsMax = 18 := rfl
    omega
  exact smdioReg_gpioReg_inj reg reg' (hport pin) (hport pin') h

/-- One bit of one pin is put, and no bit of another. -/
@[simp] theorem pinBits_putPin : pinBits (s.putPin pin reg b) pin' reg' =
    if pin' = pin ∧ reg' = reg then b else pinBits s pin' reg' := by
  have hlt : ∀ p : Pin, p.val % 16 < 16 := fun p => Nat.mod_lt _ (by decide)
  by_cases hreg : pinReg pin' reg' = pinReg pin reg
  · obtain ⟨hport, rfl⟩ := pinReg_inj _ _ _ _ hreg
    have hval : (s.putPin pin reg' b).smdio (pinReg pin' reg') =
        if b then s.smdio (pinReg pin' reg') ||| 1#16 <<< (pin.val % 16)
        else s.smdio (pinReg pin' reg') &&& ~~~(1#16 <<< (pin.val % 16)) := by
      rw [hreg]
      exact Function.update_self _ _ _
    rw [pinBits, hval]
    by_cases hbit : pin'.val % 16 = pin.val % 16
    · have hpin : pin' = pin := Fin.ext (by omega)
      subst hpin
      simp only [and_self, if_true]
      cases b with
      | true => exact getLsbD_setBit (hlt pin')
      | false => exact getLsbD_clearBit
    · have hpin : pin' ≠ pin := fun h => hbit (by rw [h])
      simp only [hpin, false_and, if_false]
      cases b with
      | true => exact getLsbD_setBit_of_ne hbit
      | false => exact getLsbD_clearBit_of_ne hbit
  · have hne : ¬(pin' = pin ∧ reg' = reg) := fun h => hreg (by rw [h.1, h.2])
    rw [if_neg hne]
    exact congrArg (BitVec.getLsbD · _) (Function.update_of_ne hreg _ _)

end Pins

/-! ## What a call does to the pins -/

/-- The bits that a call puts, in order. -/
def Regs.putPins (s : Regs) (pin : Pin) (l : List (GpioReg × Bool)) : Regs :=
  l.foldl (fun s w => s.putPin pin w.1 w.2) s

/-- The bits of direction, output and open drain, which are put before the pull bits are looked at. -/
def earlyBits (flags : BitVec 32) : List (GpioReg × Bool) :=
  if hasFlag flags gpiofDirIn then [(.dir, false), (.od, !hasFlag flags gpiofOpenDrain)]
  else [(.output, hasFlag flags gpiofOutputHigh), (.dir, true), (.od, !hasFlag flags gpiofOpenDrain)]

/-- `flags & GPIOF_PULL_DOWN`, where it is valid. -/
inductive GpioPull where
  | off
  | up
  | down
deriving DecidableEq

def pullOf (flags : BitVec 32) : Option GpioPull :=
  if flags &&& gpiofPullDown = 0 then some .off
  else if flags &&& gpiofPullDown = gpiofPullUp then some .up
  else if flags &&& gpiofPullDown = gpiofPullDown then some .down
  else none

def GpioPull.bits : GpioPull → List (GpioReg × Bool)
  | .off => [(.pullEn, false)]
  | .up => [(.pullEn, true), (.pullUp, true)]
  | .down => [(.pullEn, true), (.pullUp, false)]

def lateBits (flags : BitVec 32) (pull : GpioPull) : List (GpioReg × Bool) :=
  pull.bits ++ [(.fastSlew, hasFlag flags gpiofFastSlew), (.alt0, hasFlag flags gpiofFunc1),
    (.alt1, hasFlag flags gpiofFunc2), (.strength0, hasFlag flags gpiofPadStr1),
    (.strength1, hasFlag flags gpiofPadStr2)]

/-- All that a call puts: a refused one stops before the pull bits. -/
def cfgBits (flags : BitVec 32) : List (GpioReg × Bool) :=
  earlyBits flags ++ ((pullOf flags).elim [] (lateBits flags))

section Exec
variable {s : Regs} {pin pin' : Pin} {flags : BitVec 32} {l l' : List (GpioReg × Bool)}

theorem putPins_append : s.putPins pin (l ++ l') = (s.putPins pin l).putPins pin l' := List.foldl_append

theorem exec_setGpioPull : (setGpioPull pin flags).exec memHandler s =
    match pullOf flags with
    | some pull => (.ok (), s.putPins pin pull.bits)
    | none => (.error EINVAL, s) := by
  rw [setGpioPull, pullOf]
  split_ifs <;> simp_all [exec_bind, Regs.putPins, GpioPull.bits]

theorem exec_setGpio : (setGpio pin flags).exec memHandler s =
    (if (pullOf flags).isSome then .ok () else .error EINVAL, s.putPins pin (cfgBits flags)) := by
  have hearly : ∀ rest : Unit → Api Unit, (setGpioDir pin flags >>= fun _ =>
      putPin pin .od (!hasFlag flags gpiofOpenDrain) >>= rest).exec memHandler s =
      (rest ()).exec memHandler (s.putPins pin (earlyBits flags)) := by
    intro rest
    rw [setGpioDir, earlyBits]
    split_ifs with hdir <;> simp [exec_bind, Regs.putPins]
  rw [setGpio, hearly, exec_bind, exec_setGpioPull, cfgBits, putPins_append]
  cases pullOf flags with
  | none => rfl
  | some pull =>
    rw [Option.elim_some, lateBits, putPins_append]
    simp [exec_bind, Regs.putPins]

end Exec

/-! ## Calls -/

/-- A call that changes a pin. -/
inductive GpioCall where
  | cfg (gpio : Gpio)
  | output (gpio : Gpio)

namespace GpioCall

def gpio : GpioCall → Gpio
  | .cfg gpio | .output gpio => gpio

def run : GpioCall → Call Unit
  | .cfg gpio => gpy2xxGpioCfg gpio
  | .output gpio => gpy2xxGpioOutput gpio

/-- The call is one for this pin. -/
def On (c : GpioCall) (pin : Pin) : Prop := c.gpio.pin.toNat = pin.val

instance (c : GpioCall) (pin : Pin) : Decidable (c.On pin) := inferInstanceAs (Decidable (_ = _))

/-- The bits that a call puts. -/
def bits : GpioCall → List (GpioReg × Bool)
  | .cfg gpio => cfgBits gpio.flags
  | .output gpio => [(.output, hasFlag gpio.flags gpiofOutputHigh)]

/-- The result of a call on a valid pin. -/
def result : GpioCall → Except Errno Unit
  | .cfg gpio => if (pullOf gpio.flags).isSome then .ok () else .error EINVAL
  | .output _ => .ok ()

/-- The registers after a call. -/
def after (s : Regs) (c : GpioCall) : Regs := (c.run.exec lockedMem s).2

end GpioCall

section Calls
variable {s : Regs} {c : GpioCall} {pin pin' : Pin}

theorem onPin_of_eq {α : Type} {gpio : Gpio} (body : Pin → Api α) (h : gpio.pin.toNat = pin.val) :
    onPin gpio body = locked (body pin) := by
  have hmax : gpio.pin.toNat ≤ gpioPinsMax := by
    rw [h]
    exact Nat.le_of_lt_succ pin.isLt
  have hpin : (⟨gpio.pin.toNat, Nat.lt_succ_of_le hmax⟩ : Pin) = pin := Fin.ext h
  rw [onPin, dif_pos hmax, hpin]

theorem onPin_of_gt {α : Type} {gpio : Gpio} (body : Pin → Api α) (h : gpio.pin.toNat > gpioPinsMax) :
    onPin gpio body = throw EINVAL := dif_neg (Nat.not_le_of_lt h)

theorem exec_run_on (h : c.On pin) :
    c.run.exec lockedMem s = (c.result, s.putPins pin c.bits) := by
  cases c with
  | cfg gpio =>
    have hpin : gpio.pin.toNat = pin.val := h
    rw [GpioCall.run, gpy2xxGpioCfg, onPin_of_eq _ hpin, exec_locked, exec_setGpio]
    rfl
  | output gpio =>
    have hpin : gpio.pin.toNat = pin.val := h
    rw [GpioCall.run, gpy2xxGpioOutput, onPin_of_eq _ hpin, exec_locked, exec_putPin]
    rfl

/-- A pin that is not valid is refused at once. -/
theorem exec_run_of_invalid (h : c.gpio.pin.toNat > gpioPinsMax) :
    c.run.exec lockedMem s = (.error EINVAL, s) := by
  cases c with
  | cfg gpio =>
    have hgt : gpio.pin.toNat > gpioPinsMax := h
    rw [GpioCall.run, gpy2xxGpioCfg, onPin_of_gt _ hgt]
    rfl
  | output gpio =>
    have hgt : gpio.pin.toNat > gpioPinsMax := h
    rw [GpioCall.run, gpy2xxGpioOutput, onPin_of_gt _ hgt]
    rfl

/-- Every call is on a pin or refused. -/
theorem on_or_invalid (c : GpioCall) : (∃ pin, c.On pin) ∨ c.gpio.pin.toNat > gpioPinsMax := by
  by_cases hmax : c.gpio.pin.toNat ≤ gpioPinsMax
  · exact .inl ⟨⟨_, Nat.lt_succ_of_le hmax⟩, rfl⟩
  · exact .inr (Nat.lt_of_not_le hmax)

theorem pinBits_putPins_of_ne (h : pin' ≠ pin) (l : List (GpioReg × Bool)) (reg : GpioReg) :
    pinBits (s.putPins pin l) pin' reg = pinBits s pin' reg := by
  induction l generalizing s with
  | nil => rfl
  | cons w l ih =>
    calc pinBits ((s.putPin pin w.1 w.2).putPins pin l) pin' reg
        = pinBits (s.putPin pin w.1 w.2) pin' reg := ih
      _ = pinBits s pin' reg := by simp [h]

/-- A call leaves the other pins as they are. -/
theorem pinBits_after_of_not_on (h : ¬c.On pin) (reg : GpioReg) :
    pinBits (c.after s) pin reg = pinBits s pin reg := by
  rcases on_or_invalid c with ⟨pin', hon⟩ | hinvalid
  · have hne : pin ≠ pin' := fun heq => h (heq ▸ hon)
    rw [GpioCall.after, exec_run_on hon]
    exact pinBits_putPins_of_ne hne _ _
  · rw [GpioCall.after, exec_run_of_invalid hinvalid]

/-- What a call changes is in its pin's bit of its pin's registers. -/
structure PinFrame (c : GpioCall) (s s' : Regs) : Prop where
  smdio : ∀ reg i, (s'.smdio reg).getLsbD i ≠ (s.smdio reg).getLsbD i →
    ∃ pin col, c.On pin ∧ reg = pinReg pin col ∧ i = pin.val % 16
  others : { s' with smdio := s.smdio } = s

theorem pinFrame_after (c : GpioCall) (s : Regs) : PinFrame c s (c.after s) := by
  rcases on_or_invalid c with ⟨pin, hon⟩ | hinvalid
  · have hputs : ∀ (l : List (GpioReg × Bool)) (s : Regs),
        (∀ reg i, ((s.putPins pin l).smdio reg).getLsbD i ≠ (s.smdio reg).getLsbD i →
          ∃ col, reg = pinReg pin col ∧ i = pin.val % 16) ∧
        { s.putPins pin l with smdio := s.smdio } = s := by
      intro l
      induction l with
      | nil => exact fun s => ⟨fun reg i h => absurd rfl h, rfl⟩
      | cons w l ih =>
        intro s
        obtain ⟨hbits, hothers⟩ := ih (s.putPin pin w.1 w.2)
        refine ⟨fun reg i hne => ?_, ?_⟩
        · by_cases hlater : (((s.putPin pin w.1 w.2).putPins pin l).smdio reg).getLsbD i ≠
              ((s.putPin pin w.1 w.2).smdio reg).getLsbD i
          · exact hbits reg i hlater
          · have hnow : ((s.putPin pin w.1 w.2).smdio reg).getLsbD i ≠ (s.smdio reg).getLsbD i := by
              rw [← not_ne_iff.mp hlater]
              exact hne
            have hreg : reg = pinReg pin w.1 := by
              by_contra hreg
              exact hnow (congrArg (BitVec.getLsbD · i) (Function.update_of_ne hreg _ _))
            refine ⟨w.1, hreg, ?_⟩
            by_contra hi
            apply hnow
            subst hreg
            simp only [Regs.putPin, Function.update_self]
            split
            · exact getLsbD_setBit_of_ne hi
            · exact getLsbD_clearBit_of_ne hi
        · exact congrArg (fun s' : Regs => { s' with smdio := s.smdio }) hothers
    obtain ⟨hbits, hothers⟩ := hputs c.bits s
    rw [GpioCall.after, exec_run_on hon]
    refine ⟨fun reg i hne => ?_, hothers⟩
    obtain ⟨col, hreg, hi⟩ := hbits reg i hne
    exact ⟨pin, col, hon, hreg, hi⟩
  · rw [GpioCall.after, exec_run_of_invalid hinvalid]
    exact ⟨fun reg i hne => absurd rfl hne, rfl⟩

end Calls

end Gpy2xx
