import MxlUtils.Gphy.Chip
import MxlUtils.Lib.History

/- The LEDs. One register switches the pins of all LEDs, and each LED has a register of its own; the scans and
   blinks of all of them have one, and so has the brightness. Every call checks its settings, reads a register and
   writes it back with its own fields replaced. -/
namespace Gpy2xx
open Effect Effect.Lock Bits

/-! ## Registers -/

/-- `PHY_LED` -/
def phyLed : Nat := 0x1B

/-- `VSPEC1_LEDC` -/
def ledc : Nat := 0

/-- `VSPEC1_LED0 + id * 2`, halved. -/
def ledReg (id : Int) : Nat := 1 + id.toNat

/-- `LED_BCTRL_PDI_REGISTERS_LED_BRT_CTRL` -/
def ledBrtCtrl : Nat := 0x00D3CF84

def ledcNacs : Field 16 := ⟨0x7, 0⟩
def ledcSbf : Field 16 := ⟨0x30, 4⟩
def ledcFbf : Field 16 := ⟨0xC0, 6⟩
def ledcCblink : Field 16 := ⟨0x700, 8⟩
def ledcScan : Field 16 := ⟨0x3800, 11⟩

def led0Blinkf : Field 16 := ⟨0xF, 0⟩
def led0Con : Field 16 := ⟨0xF0, 4⟩
def led0Pulse : Field 16 := ⟨0xF00, 8⟩
def led0Blinks : Field 16 := ⟨0xF000, 12⟩

def brtTwoswen : Field 16 := ⟨0x10, 4⟩
def brtEn : Field 16 := ⟨0x20, 5⟩
def brtEdgeDet : Field 16 := ⟨0x40, 6⟩
def brtMinlevel : Field 16 := ⟨0xF00, 8⟩
def brtMaxlevel : Field 16 := ⟨0xF000, 12⟩

/-! ## Settings -/

/-- `struct gpy211_led_gcfg` -/
@[ext] structure LedGcfg where
  complexScan : BitVec 32
  complexBlink : BitVec 32
  inverseScan : BitVec 32
  fastBlinkFreq : BitVec 32
  slowBlinkFreq : BitVec 32
deriving DecidableEq

/-- `struct gpy211_led_cfg` -/
@[ext] structure LedCfg where
  id : Int
  colorMode : BitVec 32
  slowBlinkSrc : BitVec 32
  fastBlinkSrc : BitVec 32
  constOn : BitVec 32
  pulse : BitVec 32
deriving DecidableEq

/-- `struct gpy211_led_brlvl_cfg` -/
@[ext] structure LedBrlvlCfg where
  mode : BitVec 32
  lvlMax : Int
  lvlMin : Int
  swEdge : BitVec 32
deriving DecidableEq

/-! ## All LEDs -/

/-- `LED_BFRQ_MAX` bounds the frequencies, `LED_SCAN_SRC_MAX` the states. -/
def ledTopAccepts (cfg : LedGcfg) : Bool :=
  cfg.slowBlinkFreq ≤ 3 && cfg.fastBlinkFreq ≤ 3 && cfg.complexScan ≤ 7 && cfg.inverseScan ≤ 7 && cfg.complexBlink ≤ 7

def ledTopFields (cfg : LedGcfg) : List (Field 16 × BitVec 16) := [
  (ledcScan, cfg.complexScan.setWidth 16), (ledcNacs, cfg.inverseScan.setWidth 16),
  (ledcCblink, cfg.complexBlink.setWidth 16), (ledcSbf, cfg.slowBlinkFreq.setWidth 16),
  (ledcFbf, cfg.fastBlinkFreq.setWidth 16)]

/-- Of the builds with `EN_LED_TOP_CFG`. -/
def gpy2xxLedTopCfg (cfg : LedGcfg) : Call Unit :=
  if !ledTopAccepts cfg then throw EINVAL
  else locked do
    phySetMaskBits phyLed 0x0F00 0x0F00
    let ledCfg ← phyReadMmd .vend1 ledc
    phyWriteMmd .vend1 ledc (replaceFields ledCfg (ledTopFields cfg))

/-- The settings in the register. -/
def ledTopOf (ledCfg : BitVec 16) : LedGcfg where
  complexScan := (ledcScan.get ledCfg).setWidth 32
  inverseScan := (ledcNacs.get ledCfg).setWidth 32
  complexBlink := (ledcCblink.get ledCfg).setWidth 32
  slowBlinkFreq := (ledcSbf.get ledCfg).setWidth 32
  fastBlinkFreq := (ledcFbf.get ledCfg).setWidth 32

/-- Of the builds with `EN_LED_TOP_CFG`. -/
def gpy2xxLedTopGet : Call LedGcfg := locked do
  let ledCfg ← phyReadMmd .vend1 ledc
  pure (ledTopOf ledCfg)

/-! ## One LED -/

/-- `max_leds`, `LED_ID_2` or `LED_ID_3`. -/
def maxLeds (family : Family) : Int := if family = .p34x then 2 else 3

def ledIdAccepts (family : Family) (id : Int) : Bool := !(id < 0 || id > maxLeds family)

/-- `LED_PULSE_MAX`, `LED_CM_MAX` and `LED_BSRC_MAX` are the bounds. -/
def ledIfAccepts (family : Family) (cfg : LedCfg) : Bool :=
  ledIdAccepts family cfg.id && !(cfg.pulse > 15) && cfg.colorMode ≤ 1 && cfg.constOn ≤ 15 && cfg.slowBlinkSrc ≤ 15 &&
    cfg.fastBlinkSrc ≤ 15

/-- `LEDxDA` off, `LEDxEN` on, and the color mode. -/
def ledPins (id : Nat) (colorMode : BitVec 32) (ledCfg : BitVec 16) : BitVec 16 :=
  (ledCfg &&& ~~~(1#16 <<< id) ||| 1#16 <<< (id + 8)) &&& ~~~(1#16 <<< (id + 12)) |||
    colorMode.setWidth 16 <<< (id + 12)

def ledIfFields (cfg : LedCfg) : List (Field 16 × BitVec 16) := [
  (led0Blinkf, cfg.fastBlinkSrc.setWidth 16), (led0Blinks, cfg.slowBlinkSrc.setWidth 16),
  (led0Con, cfg.constOn.setWidth 16), (led0Pulse, cfg.pulse.setWidth 16)]

def gpy2xxLedIfCfg (phy : Gpy211Device) (cfg : LedCfg) : Call Unit :=
  if !ledIfAccepts phy.family cfg then throw EINVAL
  else locked do
    let pins ← phyRead phyLed
    phyWrite phyLed (ledPins cfg.id.toNat cfg.colorMode pins)
    let ledCfg ← phyReadMmd .vend1 (ledReg cfg.id)
    phyWriteMmd .vend1 (ledReg cfg.id) (replaceFields ledCfg (ledIfFields cfg))

/-- The settings in the registers. -/
def ledIfOf (id : Int) (pins ledCfg : BitVec 16) : LedCfg where
  id := id
  colorMode := (pins >>> (id.toNat + 12) &&& 0x1).setWidth 32
  fastBlinkSrc := (led0Blinkf.get ledCfg).setWidth 32
  slowBlinkSrc := (led0Blinks.get ledCfg).setWidth 32
  constOn := (led0Con.get ledCfg).setWidth 32
  pulse := (led0Pulse.get ledCfg).setWidth 32

def gpy2xxLedIfGet (phy : Gpy211Device) (id : Int) : Call LedCfg :=
  if !ledIdAccepts phy.family id then throw EINVAL
  else locked do
    let pins ← phyRead phyLed
    let ledCfg ← phyReadMmd .vend1 (ledReg id)
    pure (ledIfOf id pins ledCfg)

/-! ## Brightness -/

/-- `LED_BRLVL_MAX`; the other mode is `LED_BRLVL_CONSTANT`. -/
def ledBrlvlMax : BitVec 32 := 0
def ledBrlvlConstant : BitVec 32 := 1

/-- `LED_EDGE_DETECT_RISING` -/
def ledEdgeRising : BitVec 32 := 1

def ledBrAccepts (cfg : LedBrlvlCfg) : Bool :=
  cfg.mode ≤ 1 && !(cfg.lvlMin < 0 || cfg.lvlMin > 15) && !(cfg.lvlMax < 0 || cfg.lvlMax > 15) && cfg.swEdge ≤ 1

def ledBrFields (cfg : LedBrlvlCfg) : List (Field 16 × BitVec 16) := [
  (brtTwoswen, 0), (brtEn, if cfg.mode ≠ ledBrlvlMax then 1 else 0),
  (brtEdgeDet, if cfg.swEdge = ledEdgeRising then 1 else 0),
  (brtMinlevel, .ofInt 16 cfg.lvlMin), (brtMaxlevel, .ofInt 16 cfg.lvlMax)]

def gpy2xxLedBrCfg (cfg : LedBrlvlCfg) : Call Unit :=
  if !ledBrAccepts cfg then throw EINVAL
  else locked do
    let brtnessCfg ← smdioReadAt ledBrtCtrl
    smdioWriteAt ledBrtCtrl (replaceFields brtnessCfg (ledBrFields cfg))

/-- The settings in the register; two levels are not supported. -/
def ledBrOf (brtnessCfg : BitVec 16) : Except Errno LedBrlvlCfg :=
  let cfg := fun mode => ({
    mode := mode
    lvlMax := (brtMaxlevel.get brtnessCfg).toNat
    lvlMin := (brtMinlevel.get brtnessCfg).toNat
    swEdge := (brtEdgeDet.get brtnessCfg).setWidth 32 } : LedBrlvlCfg)
  if brtTwoswen.get brtnessCfg = 1 ∧ brtEn.get brtnessCfg = 1 then .error EIO
  else if brtTwoswen.get brtnessCfg = 0 ∧ brtEn.get brtnessCfg = 1 then .ok (cfg ledBrlvlConstant)
  else .ok (cfg ledBrlvlMax)

def gpy2xxLedBrGet : Call LedBrlvlCfg := locked do
  let brtnessCfg ← smdioReadAt ledBrtCtrl
  .ofExcept (ledBrOf brtnessCfg)

/-! ## Sessions of calls -/

inductive LedCall where
  | top (cfg : LedGcfg)
  | led (cfg : LedCfg)
  | brightness (cfg : LedBrlvlCfg)

def LedCall.call (phy : Gpy211Device) : LedCall → Call Unit
  | .top cfg => gpy2xxLedTopCfg cfg
  | .led cfg => gpy2xxLedIfCfg phy cfg
  | .brightness cfg => gpy2xxLedBrCfg cfg

/-- The settings of a call are in their ranges. -/
def LedCall.accepted (phy : Gpy211Device) : LedCall → Bool
  | .top cfg => ledTopAccepts cfg
  | .led cfg => ledIfAccepts phy.family cfg
  | .brightness cfg => ledBrAccepts cfg

/-- The registers after a call, where every access succeeds. -/
def ledAfter (phy : Gpy211Device) (regs : Regs) (c : LedCall) : Regs := ((c.call phy).exec lockedMem regs).2

/-- What a call sets for all LEDs. -/
def LedCall.setsTop : LedCall → Option LedGcfg
  | .top cfg => if ledTopAccepts cfg then some cfg else none
  | _ => none

/-- What a call sets for one LED. -/
def LedCall.setsLed (phy : Gpy211Device) (id : Int) : LedCall → Option LedCfg
  | .led cfg => if ledIfAccepts phy.family cfg ∧ cfg.id = id then some cfg else none
  | _ => none

/-- What a call sets for the brightness. -/
def LedCall.setsBrightness : LedCall → Option LedBrlvlCfg
  | .brightness cfg => if ledBrAccepts cfg then some cfg else none
  | _ => none

/-- What the functions that get settings return. -/
def topShown (regs : Regs) : Except Errno LedGcfg := (gpy2xxLedTopGet.exec lockedMem regs).1
def ledShown (phy : Gpy211Device) (id : Int) (regs : Regs) : Except Errno LedCfg :=
  ((gpy2xxLedIfGet phy id).exec lockedMem regs).1
def brightnessShown (regs : Regs) : Except Errno LedBrlvlCfg := (gpy2xxLedBrGet.exec lockedMem regs).1

/-- The pins of an LED are its own function's: `LEDxDA` is off and `LEDxEN` on. -/
def Integrated (id : Int) (regs : Regs) : Prop :=
  (regs.phy phyLed).getLsbD id.toNat = false ∧ (regs.phy phyLed).getLsbD (id.toNat + 8) = true

/-- After any calls, a get function returns the settings of the last call that was accepted for it, and without
such a call what it returned before. An LED that was configured once stays with its own function. -/
structure LedsExact (phy : Gpy211Device) : Prop where
  top : ∀ (calls : List LedCall) (regs : Regs), topShown (calls.foldl (ledAfter phy) regs) =
    ((History.lastSet LedCall.setsTop none calls).map .ok).getD (topShown regs)
  led : ∀ (id : Int) (calls : List LedCall) (regs : Regs), ledShown phy id (calls.foldl (ledAfter phy) regs) =
    ((History.lastSet (LedCall.setsLed phy id) none calls).map .ok).getD (ledShown phy id regs)
  brightness : ∀ (calls : List LedCall) (regs : Regs), brightnessShown (calls.foldl (ledAfter phy) regs) =
    ((History.lastSet LedCall.setsBrightness none calls).map .ok).getD (brightnessShown regs)
  integrated : ∀ (id : Int) (calls : List LedCall) (regs : Regs) (cfg : LedCfg),
    History.lastSet (LedCall.setsLed phy id) none calls = some cfg → Integrated id (calls.foldl (ledAfter phy) regs)

/-! ## What one call leaves -/

section After
variable {phy : Gpy211Device} {regs : Regs}

theorem ledAfter_top {cfg : LedGcfg} (h : ledTopAccepts cfg = true) : ledAfter phy regs (.top cfg) = { regs with
    phy := Function.update regs.phy phyLed (regs.phy phyLed &&& ~~~0x0F00 ||| 0x0F00)
    mmd := Function.update regs.mmd .vend1
      (Function.update (regs.mmd .vend1) ledc (replaceFields (regs.mmd .vend1 ledc) (ledTopFields cfg))) } := by
  rw [ledAfter, LedCall.call, gpy2xxLedTopCfg, if_neg (by simp [h])]
  rfl

theorem ledAfter_led {cfg : LedCfg} (h : ledIfAccepts phy.family cfg = true) :
    ledAfter phy regs (.led cfg) = { regs with
    phy := Function.update regs.phy phyLed (ledPins cfg.id.toNat cfg.colorMode (regs.phy phyLed))
    mmd := Function.update regs.mmd .vend1
      (Function.update (regs.mmd .vend1) (ledReg cfg.id)
        (replaceFields (regs.mmd .vend1 (ledReg cfg.id)) (ledIfFields cfg))) } := by
  rw [ledAfter, LedCall.call, gpy2xxLedIfCfg, if_neg (by simp [h])]
  rfl

theorem ledAfter_brightness {cfg : LedBrlvlCfg} (h : ledBrAccepts cfg = true) :
    ledAfter phy regs (.brightness cfg) = { regs with
      smdio := Function.update regs.smdio (smdioReg ledBrtCtrl)
        (replaceFields (regs.smdio (smdioReg ledBrtCtrl)) (ledBrFields cfg)) } := by
  rw [ledAfter, LedCall.call, gpy2xxLedBrCfg, if_neg (by simp [h])]
  rfl

theorem ledAfter_refused {c : LedCall} (h : c.accepted phy = false) : ledAfter phy regs c = regs := by
  cases c with
  | top cfg =>
    rw [ledAfter, LedCall.call, gpy2xxLedTopCfg, if_pos (by simpa [LedCall.accepted] using h)]
    rfl
  | led cfg =>
    rw [ledAfter, LedCall.call, gpy2xxLedIfCfg, if_pos (by simpa [LedCall.accepted] using h)]
    rfl
  | brightness cfg =>
    rw [ledAfter, LedCall.call, gpy2xxLedBrCfg, if_pos (by simpa [LedCall.accepted] using h)]
    rfl

end After

/-! ## The fields come back -/

theorem ledTopOf_replaceFields {cfg : LedGcfg} (h : ledTopAccepts cfg = true) (word : BitVec 16) :
    ledTopOf (replaceFields word (ledTopFields cfg)) = cfg := by
  have hbounds : cfg.slowBlinkFreq.toNat < 2 ^ 2 ∧ cfg.fastBlinkFreq.toNat < 2 ^ 2 ∧
      cfg.complexScan.toNat < 2 ^ 3 ∧ cfg.inverseScan.toNat < 2 ^ 3 ∧ cfg.complexBlink.toNat < 2 ^ 3 := by
    simp [ledTopAccepts, BitVec.le_def] at h
    omega
  obtain ⟨hslow, hfast, hscan, hinverse, hblink⟩ := hbounds
  have hapart : ((ledTopFields cfg).map Prod.fst).Pairwise fun f g => f.mask &&& g.mask = 0#16 := by
    show [ledcScan, ledcNacs, ledcCblink, ledcSbf, ledcFbf].Pairwise _
    decide
  apply LedGcfg.ext
  · exact setWidth_get_replaceFields hapart (by simp [ledTopFields]) (by decide) hscan
  · exact setWidth_get_replaceFields hapart (by simp [ledTopFields]) (by decide) hblink
  · exact setWidth_get_replaceFields hapart (by simp [ledTopFields]) (by decide) hinverse
  · exact setWidth_get_replaceFields hapart (by simp [ledTopFields]) (by decide) hfast
  · exact setWidth_get_replaceFields hapart (by simp [ledTopFields]) (by decide) hslow

/-- An accepted LED is one of four. -/
theorem id_of_ledIdAccepts {family : Family} {id : Int} (h : ledIdAccepts family id = true) : 0 ≤ id ∧ id ≤ 3 := by
  have hmax : maxLeds family ≤ 3 := by
    unfold maxLeds
    split <;> omega
  simp [ledIdAccepts] at h
  omega

/-- A value of an enumeration of two. -/
theorem eq_or_eq_of_le {v : BitVec 32} (h : v ≤ 1) : v = 0 ∨ v = 1 := by
  have hcases : v.toNat = 0 ∨ v.toNat = 1 := by
    simp [BitVec.le_def] at h
    omega
  exact hcases.imp (BitVec.eq_of_toNat_eq (x := v) (y := 0)) (BitVec.eq_of_toNat_eq (x := v) (y := 1))

theorem ledIfOf_colorMode (id : Int) (pins ledCfg : BitVec 16) :
    (ledIfOf id pins ledCfg).colorMode = if pins.getLsbD (id.toNat + 12) then 1 else 0 := by
  have hbit : (pins >>> (id.toNat + 12)).getLsbD 0 = pins.getLsbD (id.toNat + 12) := by
    rw [BitVec.getLsbD_ushiftRight, Nat.add_zero]
  show (pins >>> (id.toNat + 12) &&& 1#16).setWidth 32 = _
  rw [BitVec.and_one_eq_setWidth_ofBool_getLsbD, hbit]
  cases pins.getLsbD (id.toNat + 12) <;> rfl

/-! ## The pins -/

section Pins
variable {n m i : Nat} {color : BitVec 32} {v : BitVec 16}

/-- Below the color modes. -/
theorem getLsbD_ledPins_of_lt (hi : i < 12) :
    (ledPins n color v).getLsbD i = (v &&& ~~~(1#16 <<< n) ||| 1#16 <<< (n + 8)).getLsbD i := by
  have hcolor : (color.setWidth 16 <<< (n + 12)).getLsbD i = false := by
    rw [BitVec.getLsbD_shiftLeft]
    simp [show i < n + 12 by omega]
  rw [ledPins, BitVec.getLsbD_or, hcolor, Bool.or_false, getLsbD_clearBit_of_ne (by omega)]

theorem getLsbD_ledPins_off (hn : n ≤ 3) : (ledPins n color v).getLsbD n = false := by
  rw [getLsbD_ledPins_of_lt (by omega), getLsbD_setBit_of_ne (by omega), getLsbD_clearBit]

theorem getLsbD_ledPins_on (hn : n ≤ 3) : (ledPins n color v).getLsbD (n + 8) = true := by
  rw [getLsbD_ledPins_of_lt (by omega), getLsbD_setBit (by omega)]

/-- The bits of other LEDs. -/
theorem getLsbD_ledPins_off_of_ne (hn : n ≤ 3) (hm : m ≤ 3) (hne : m ≠ n) :
    (ledPins n color v).getLsbD m = v.getLsbD m := by
  rw [getLsbD_ledPins_of_lt (by omega), getLsbD_setBit_of_ne (by omega), getLsbD_clearBit_of_ne hne]

theorem getLsbD_ledPins_on_of_ne (hn : n ≤ 3) (hm : m ≤ 3) (hne : m ≠ n) :
    (ledPins n color v).getLsbD (m + 8) = v.getLsbD (m + 8) := by
  rw [getLsbD_ledPins_of_lt (by omega), getLsbD_setBit_of_ne (by omega), getLsbD_clearBit_of_ne (by omega)]

theorem getLsbD_ledPins_color (hn : n ≤ 3) : (ledPins n color v).getLsbD (n + 12) = color.getLsbD 0 := by
  rw [ledPins, BitVec.getLsbD_or, getLsbD_clearBit, BitVec.getLsbD_shiftLeft]
  simp [show n + 12 < 16 by omega]

theorem getLsbD_ledPins_color_of_ne (hn : n ≤ 3) (hm : m ≤ 3) (hne : m ≠ n) (hcolor : color ≤ 1) :
    (ledPins n color v).getLsbD (m + 12) = v.getLsbD (m + 12) := by
  have hother : (color.setWidth 16 <<< (n + 12)).getLsbD (m + 12) = false := by
    rw [BitVec.getLsbD_shiftLeft, BitVec.getLsbD_setWidth]
    by_cases hlt : m < n
    · simp [hlt]
    · -- only the lowest bit of a color mode is set
      have hhigh : color.getLsbD (m - n) = false := by
        rcases eq_or_eq_of_le hcolor with rfl | rfl
        · simp
        · simp
          omega
      simp [hhigh]
  rw [ledPins, BitVec.getLsbD_or, hother, Bool.or_false, getLsbD_clearBit_of_ne (by omega),
    getLsbD_setBit_of_ne (by omega), getLsbD_clearBit_of_ne (by omega)]

/-- The bits that the settings of all LEDs change. -/
theorem getLsbD_enabled (hi : i < 16) :
    (v &&& ~~~0x0F00 ||| 0x0F00).getLsbD i = (v.getLsbD i || (decide (8 ≤ i) && decide (i < 12))) := by
  have hspans : (⟨0x0F00, 8⟩ : Field 16).Spans 4 := by decide
  have hmask : (0x0F00 : BitVec 16).getLsbD i = (decide (8 ≤ i) && decide (i < 12)) := hspans.mask_bit
  rw [BitVec.getLsbD_or, BitVec.getLsbD_and, BitVec.getLsbD_not, hmask]
  cases v.getLsbD i
  · simp
  · simp [hi]
    omega

end Pins

/-! ## The fields of one LED and of the brightness -/

theorem ledIfOf_after {phy : Gpy211Device} {cfg : LedCfg} (h : ledIfAccepts phy.family cfg = true)
    (pins word : BitVec 16) :
    ledIfOf cfg.id (ledPins cfg.id.toNat cfg.colorMode pins) (replaceFields word (ledIfFields cfg)) = cfg := by
  have hbounds : ledIdAccepts phy.family cfg.id = true ∧ cfg.colorMode ≤ 1 ∧ cfg.pulse.toNat < 2 ^ 4 ∧
      cfg.constOn.toNat < 2 ^ 4 ∧ cfg.slowBlinkSrc.toNat < 2 ^ 4 ∧ cfg.fastBlinkSrc.toNat < 2 ^ 4 := by
    simp [ledIfAccepts, BitVec.le_def] at h ⊢
    grind
  obtain ⟨hid, hcolor, hpulse, hcon, hslow, hfast⟩ := hbounds
  have hn : cfg.id.toNat ≤ 3 := by
    have hfour := id_of_ledIdAccepts hid
    omega
  have hapart : ((ledIfFields cfg).map Prod.fst).Pairwise fun f g => f.mask &&& g.mask = 0#16 := by
    show [led0Blinkf, led0Blinks, led0Con, led0Pulse].Pairwise _
    decide
  apply LedCfg.ext
  · rfl
  · calc (ledIfOf cfg.id (ledPins cfg.id.toNat cfg.colorMode pins) _).colorMode
        = if (ledPins cfg.id.toNat cfg.colorMode pins).getLsbD (cfg.id.toNat + 12) then 1 else 0 :=
          ledIfOf_colorMode cfg.id _ _
      _ = if cfg.colorMode.getLsbD 0 then 1 else 0 := by rw [getLsbD_ledPins_color hn]
      _ = cfg.colorMode := by rcases eq_or_eq_of_le hcolor with hzero | hone <;> simp [*]
  · exact setWidth_get_replaceFields hapart (by simp [ledIfFields]) (by decide) hslow
  · exact setWidth_get_replaceFields hapart (by simp [ledIfFields]) (by decide) hfast
  · exact setWidth_get_replaceFields hapart (by simp [ledIfFields]) (by decide) hcon
  · exact setWidth_get_replaceFields hapart (by simp [ledIfFields]) (by decide) hpulse

/-- A level in its range. -/
theorem toNat_ofInt_level {lvl : Int} (h : 0 ≤ lvl ∧ lvl ≤ 15) : ((BitVec.ofInt 16 lvl).toNat : Int) = lvl := by
  rw [BitVec.toNat_ofInt]
  omega

theorem ledBrOf_replaceFields {cfg : LedBrlvlCfg} (h : ledBrAccepts cfg = true) (word : BitVec 16) :
    ledBrOf (replaceFields word (ledBrFields cfg)) = .ok cfg := by
  have hbounds : cfg.mode ≤ 1 ∧ (0 ≤ cfg.lvlMin ∧ cfg.lvlMin ≤ 15) ∧ (0 ≤ cfg.lvlMax ∧ cfg.lvlMax ≤ 15) ∧
      cfg.swEdge ≤ 1 := by
    simp [ledBrAccepts, BitVec.le_def] at h ⊢
    omega
  obtain ⟨hmode, hmin, hmax, hedge⟩ := hbounds
  have hapart : ((ledBrFields cfg).map Prod.fst).Pairwise fun f g => f.mask &&& g.mask = 0#16 := by
    show [brtTwoswen, brtEn, brtEdgeDet, brtMinlevel, brtMaxlevel].Pairwise _
    decide
  have hbit : brtTwoswen.Spans 1 ∧ brtEn.Spans 1 ∧ brtEdgeDet.Spans 1 := by decide
  have hlevel : brtMinlevel.Spans 4 ∧ brtMaxlevel.Spans 4 := by decide
  have htwo : brtTwoswen.get (replaceFields word (ledBrFields cfg)) = 0 :=
    get_replaceFields_of_mem hapart (by simp [ledBrFields]) hbit.1 (by decide)
  have hen : brtEn.get (replaceFields word (ledBrFields cfg)) = if cfg.mode ≠ ledBrlvlMax then 1 else 0 :=
    get_replaceFields_of_mem hapart (by simp [ledBrFields]) hbit.2.1 (by split <;> decide)
  have hdet : brtEdgeDet.get (replaceFields word (ledBrFields cfg)) = if cfg.swEdge = ledEdgeRising then 1 else 0 :=
    get_replaceFields_of_mem hapart (by simp [ledBrFields]) hbit.2.2 (by split <;> decide)
  have hlow : brtMinlevel.get (replaceFields word (ledBrFields cfg)) = .ofInt 16 cfg.lvlMin :=
    get_replaceFields_of_mem hapart (by simp [ledBrFields]) hlevel.1
      (by have hlvl := toNat_ofInt_level hmin; omega)
  have hhigh : brtMaxlevel.get (replaceFields word (ledBrFields cfg)) = .ofInt 16 cfg.lvlMax :=
    get_replaceFields_of_mem hapart (by simp [ledBrFields]) hlevel.2
      (by have hlvl := toNat_ofInt_level hmax; omega)
  obtain ⟨mode, lvlMax, lvlMin, swEdge⟩ := cfg
  rw [ledBrOf, htwo, hen, hdet, hlow, hhigh, toNat_ofInt_level hmin, toNat_ofInt_level hmax]
  rcases eq_or_eq_of_le hmode with rfl | rfl <;> rcases eq_or_eq_of_le hedge with rfl | rfl <;> rfl

/-! ## Sessions -/

section Session
variable {phy : Gpy211Device} {regs : Regs}

theorem ledReg_ne {a b : Int} (ha : 0 ≤ a) (hb : 0 ≤ b) (hne : a ≠ b) : ledReg a ≠ ledReg b := by
  unfold ledReg
  omega

theorem ledShown_of_accepted {id : Int} (h : ledIdAccepts phy.family id = true) :
    ledShown phy id regs = .ok (ledIfOf id (regs.phy phyLed) (regs.mmd .vend1 (ledReg id))) := by
  rw [ledShown, gpy2xxLedIfGet, if_neg (by simp [h])]
  rfl

theorem ledShown_of_refused {id : Int} (h : ledIdAccepts phy.family id = false) :
    ledShown phy id regs = .error EINVAL := by
  rw [ledShown, gpy2xxLedIfGet, if_pos (by simp [h])]
  rfl

/-- What is got for an LED depends on its color mode and on its register. -/
theorem ledShown_congr {id : Int} {regs' : Regs}
    (hcolor : (regs'.phy phyLed).getLsbD (id.toNat + 12) = (regs.phy phyLed).getLsbD (id.toNat + 12))
    (hreg : regs'.mmd .vend1 (ledReg id) = regs.mmd .vend1 (ledReg id)) :
    ledShown phy id regs' = ledShown phy id regs := by
  cases hid : ledIdAccepts phy.family id with
  | true =>
    rw [ledShown_of_accepted hid, ledShown_of_accepted hid, hreg]
    refine congrArg Except.ok (LedCfg.ext rfl ?_ rfl rfl rfl rfl)
    rw [ledIfOf_colorMode, ledIfOf_colorMode, hcolor]
  | false => rw [ledShown_of_refused hid, ledShown_of_refused hid]

theorem sets_of_refused {c : LedCall} (h : c.accepted phy = false) (id : Int) :
    c.setsTop = none ∧ c.setsLed phy id = none ∧ c.setsBrightness = none := by
  cases c <;> simp_all [LedCall.accepted, LedCall.setsTop, LedCall.setsLed, LedCall.setsBrightness]

theorem topShown_eq (regs : Regs) : topShown regs = .ok (ledTopOf (regs.mmd .vend1 ledc)) := rfl

theorem brightnessShown_eq (regs : Regs) :
    brightnessShown regs = ledBrOf (regs.smdio (smdioReg ledBrtCtrl)) := rfl

theorem ledc_ne_ledReg (id : Int) : ledc ≠ ledReg id := by
  unfold ledc ledReg
  omega

theorem topShown_after (regs : Regs) (c : LedCall) :
    topShown (ledAfter phy regs c) = (c.setsTop.map .ok).getD (topShown regs) := by
  cases h : c.accepted phy with
  | false =>
    rw [ledAfter_refused h, (sets_of_refused h 0).1]
    rfl
  | true =>
    cases c with
    | top cfg =>
      have hset : (LedCall.top cfg).setsTop = some cfg := if_pos h
      rw [ledAfter_top h, hset, topShown_eq]
      simp only [Function.update_self, ledTopOf_replaceFields h]
      rfl
    | led cfg =>
      rw [ledAfter_led h, topShown_eq]
      simp only [Function.update_self, Function.update_of_ne (ledc_ne_ledReg cfg.id)]
      rfl
    | brightness cfg =>
      rw [ledAfter_brightness h]
      rfl

/-- What was accepted for an LED is about an LED that the device has. -/
theorem accepted_led {cfg : LedCfg} (h : (LedCall.led cfg).accepted phy = true) :
    ledIdAccepts phy.family cfg.id = true ∧ cfg.colorMode ≤ 1 := by
  simp [LedCall.accepted, ledIfAccepts] at h
  grind

/-- A call for an LED, and what is got for it and for the others. -/
theorem ledShown_after_led {id : Int} {cfg : LedCfg} (hid : ledIdAccepts phy.family id = true)
    (h : (LedCall.led cfg).accepted phy = true) : ledShown phy id (ledAfter phy regs (.led cfg)) =
      (((LedCall.led cfg).setsLed phy id).map .ok).getD (ledShown phy id regs) := by
  obtain ⟨hcfg, hcolor⟩ := accepted_led h
  have hrange := id_of_ledIdAccepts hid
  have hrange' := id_of_ledIdAccepts hcfg
  rw [ledAfter_led h]
  by_cases heq : cfg.id = id
  · have hset : (LedCall.led cfg).setsLed phy id = some cfg := if_pos ⟨h, heq⟩
    rw [hset, ledShown_of_accepted hid, ← heq]
    simp only [Function.update_self, ledIfOf_after h]
    rfl
  · have hset : (LedCall.led cfg).setsLed phy id = none := if_neg fun hboth => heq hboth.2
    rw [hset]
    apply ledShown_congr
    · simp only [Function.update_self]
      exact getLsbD_ledPins_color_of_ne (by omega) (by omega) (by omega) hcolor
    · simp only [Function.update_self, Function.update_of_ne (ledReg_ne hrange.1 hrange'.1 (Ne.symm heq))]

theorem ledShown_after (id : Int) (regs : Regs) (c : LedCall) :
    ledShown phy id (ledAfter phy regs c) = ((c.setsLed phy id).map .ok).getD (ledShown phy id regs) := by
  cases hid : ledIdAccepts phy.family id with
  | false =>
    -- no call is about an LED that the device does not have
    have hnone : c.setsLed phy id = none := by
      cases c with
      | led cfg =>
        refine if_neg fun hboth => ?_
        have hcfg := (accepted_led hboth.1).1
        rw [hboth.2, hid] at hcfg
        cases hcfg
      | top cfg | brightness cfg => rfl
    rw [hnone, ledShown_of_refused hid, ledShown_of_refused hid]
    rfl
  | true =>
    cases h : c.accepted phy with
    | false =>
      rw [ledAfter_refused h, (sets_of_refused h id).2.1]
      rfl
    | true =>
      cases c with
      | top cfg =>
        have hrange := id_of_ledIdAccepts hid
        rw [ledAfter_top h]
        apply ledShown_congr
        · simp only [Function.update_self]
          rw [getLsbD_enabled (by omega)]
          simp [show ¬id.toNat + 12 < 12 by omega]
        · simp only [Function.update_self, Function.update_of_ne (ledc_ne_ledReg id).symm]
      | led cfg => exact ledShown_after_led hid h
      | brightness cfg =>
        rw [ledAfter_brightness h]
        exact ledShown_congr rfl rfl

theorem brightnessShown_after (regs : Regs) (c : LedCall) :
    brightnessShown (ledAfter phy regs c) = (c.setsBrightness.map .ok).getD (brightnessShown regs) := by
  cases h : c.accepted phy with
  | false =>
    rw [ledAfter_refused h, (sets_of_refused h 0).2.2]
    rfl
  | true =>
    cases c with
    | top cfg =>
      rw [ledAfter_top h]
      rfl
    | led cfg =>
      rw [ledAfter_led h]
      rfl
    | brightness cfg =>
      have hset : (LedCall.brightness cfg).setsBrightness = some cfg := if_pos h
      rw [ledAfter_brightness h, hset, brightnessShown_eq]
      simp only [Function.update_self, ledBrOf_replaceFields h]
      rfl

/-- An LED stays with its own function, whatever is called. -/
theorem Integrated.after {id : Int} (hrange : 0 ≤ id ∧ id ≤ 3) (hpins : Integrated id regs) (c : LedCall) :
    Integrated id (ledAfter phy regs c) := by
  cases h : c.accepted phy with
  | false =>
    rw [ledAfter_refused h]
    exact hpins
  | true =>
    cases c with
    | top cfg =>
      rw [ledAfter_top h, Integrated]
      simp only [Function.update_self]
      rw [getLsbD_enabled (by omega), getLsbD_enabled (by omega), hpins.1, hpins.2]
      simp
      omega
    | led cfg =>
      have hrange' := id_of_ledIdAccepts (accepted_led h).1
      rw [ledAfter_led h, Integrated]
      simp only [Function.update_self]
      by_cases heq : id.toNat = cfg.id.toNat
      · rw [heq]
        exact ⟨getLsbD_ledPins_off (by omega), getLsbD_ledPins_on (by omega)⟩
      · rw [getLsbD_ledPins_off_of_ne (by omega) (by omega) heq, getLsbD_ledPins_on_of_ne (by omega) (by omega) heq]
        exact hpins
    | brightness cfg =>
      rw [ledAfter_brightness h]
      exact hpins

theorem integrated_of_set {id : Int} {cfg : LedCfg} {c : LedCall} (h : c.setsLed phy id = some cfg) :
    (0 ≤ id ∧ id ≤ 3) ∧ Integrated id (ledAfter phy regs c) := by
  cases c with
  | top _ | brightness _ => cases h
  | led cfg =>
    obtain ⟨⟨hacc, hid⟩, -⟩ := Option.ite_none_right_eq_some.mp h
    have hrange := id_of_ledIdAccepts (accepted_led hacc).1
    subst hid
    rw [ledAfter_led hacc, Integrated]
    simp only [Function.update_self]
    exact ⟨hrange, getLsbD_ledPins_off (by omega), getLsbD_ledPins_on (by omega)⟩

theorem faithful_integrated (phy : Gpy211Device) (id : Int) : History.Faithful (LedCall.setsLed phy id) (ledAfter phy)
    fun _ regs => (0 ≤ id ∧ id ≤ 3) ∧ Integrated id regs where
  set hset := integrated_of_set hset
  keep _ hshows := ⟨hshows.1, hshows.2.after hshows.1 _⟩

end Session

/-- Every setting of the LEDs is got as it was configured last. -/
theorem leds_exact (phy : Gpy211Device) : LedsExact phy where
  top calls regs := History.shown_foldl topShown_after calls regs
  led id calls regs := History.shown_foldl (ledShown_after id) calls regs
  brightness calls regs := History.shown_foldl brightnessShown_after calls regs
  integrated id calls regs cfg hlast := ((faithful_integrated phy id).lastSet (fun _ hb => by cases hb) hlast).2

end Gpy2xx
