import MxlUtils.Lib.Decimal

/- Rates and bursts of a meter, from the text of an option. The number is converted from the
   front of the text and the unit is taken from its last character; what stands between is not
   looked at, and a burst is cut to 32 bits before it is compared with its bounds. Every rate
   and burst that is written as it should be is stored exactly (on platforms whose long can
   hold it), and `rate_burst_right_iff` says which other texts are taken for one. -/
namespace Sgam
open CString

abbrev Word := List Char

/-- What the platform and `net/sgam_api.h` fix. -/
structure Platform where
  longBits : Nat
  maxLabelLen : Nat
  int_le_long : 32 ≤ longBits
  long_le_long_long : longBits ≤ 64

/-- `SGAM_CMD_OK`, `SGAM_CMD_HELP`, `SGAM_CMD_NOT_AVAIL` and `SGAM_CMD_ERR` -/
inductive Code where
  | ok
  | help
  | notAvail
  | err
deriving DecidableEq

variable (p : Platform) (arg : Word)

/-! ## Rates -/

/-- `MAX_RATE_M` and `MAX_RATE_K` -/
def maxRateM : Nat := 10000
def maxRateK : Nat := maxRateM * 1000

theorem maxRateM_eq : maxRateM = 10000 := rfl

theorem maxRateK_eq : maxRateK = 10000000 := rfl

/-- The rate in bytes per second. -/
def setMeterCirPir : Except Code (BitVec 64) :=
  match arg.getLast? with
  | none => .error .err
  | some last =>
    let tmpRate := BitVec.ofInt 64 (strtol p.longBits arg)
    if last = 'k' ∨ last = 'K' then
      if tmpRate.toNat ≤ 0 ∨ tmpRate.toNat ≥ maxRateK then .error .err else .ok (tmpRate * 125)
    else if last = 'm' ∨ last = 'M' then
      if tmpRate.toNat ≤ 0 ∨ tmpRate.toNat ≥ maxRateM then .error .err else .ok (tmpRate * 125000)
    else .error .err

/-- What `sgam_show_meter_print_data` prints for a rate. -/
def shownKbps (rate : BitVec 64) : BitVec 64 := rate * 8 / 1000

/-- Kilobits or megabits per second. -/
inductive RateUnit where
  | kilo
  | mega
deriving DecidableEq

def RateUnit.max : RateUnit → Nat
  | .kilo => maxRateK
  | .mega => maxRateM

def RateUnit.bytes : RateUnit → Nat
  | .kilo => 125
  | .mega => 125000

def RateUnit.kbps : RateUnit → Nat
  | .kilo => 1
  | .mega => 1000

def rateUnit (c : Char) : Option RateUnit :=
  if c = 'k' ∨ c = 'K' then some .kilo else if c = 'm' ∨ c = 'M' then some .mega else none

/-- A rate as it should be written: a number below the maximum of its unit, and the unit. -/
structure RateText (arg : Word) (n : Nat) (u : RateUnit) : Prop where
  unit : arg.getLast?.bind rateUnit = some u
  digits : DigitText arg.dropLast
  value : decimal arg.dropLast = n
  pos : 0 < n
  lt : n < u.max

/-- What is read as the number of a text lies within the bounds of the unit, but the text is none. -/
def RateSlips : Prop :=
  ∃ u, arg.getLast?.bind rateUnit = some u ∧ ¬ DigitText arg.dropLast ∧
    0 < strtol p.longBits arg ∧ strtol p.longBits arg < u.max

/-- A rate is accepted exactly if it is well written, and stored and shown as it was entered. -/
structure RateRight : Prop where
  accepted : (∃ rate, setMeterCirPir p arg = .ok rate) ↔ ∃ n u, RateText arg n u
  stored : ∀ rate n u, setMeterCirPir p arg = .ok rate → RateText arg n u →
    rate.toNat = n * u.bytes ∧ (shownKbps rate).toNat = n * u.kbps

section Rate
variable {p arg}

theorem strtol_range : -(2 ^ 63) ≤ strtol p.longBits arg ∧ strtol p.longBits arg < 2 ^ 63 := by
  have hpow : (2 : Int) ^ (p.longBits - 1) ≤ 2 ^ 63 := by
    have hnat : (2 : Nat) ^ (p.longBits - 1) ≤ 2 ^ 63 :=
      Nat.pow_le_pow_right (by omega) (by have := p.long_le_long_long; omega)
    exact_mod_cast hnat
  have hpos : (0 : Int) < 2 ^ (p.longBits - 1) := by
    have hnat : 0 < 2 ^ (p.longBits - 1) := Nat.two_pow_pos _
    exact_mod_cast hnat
  rw [strtol, clamp]
  omega

/-- Seen without its sign a number is in the bounds exactly if it is there with it. -/
theorem toNat_tmpRate {max : Nat} (hmax : max ≤ 2 ^ 63) :
    ¬ ((BitVec.ofInt 64 (strtol p.longBits arg)).toNat ≤ 0 ∨
        (BitVec.ofInt 64 (strtol p.longBits arg)).toNat ≥ max) ↔
      0 < strtol p.longBits arg ∧ strtol p.longBits arg < max := by
  have hrange := @strtol_range p arg
  rw [BitVec.toNat_ofInt]
  omega

/-- What the two branches of the switch have in common. -/
theorem setMeterCirPir_eq : setMeterCirPir p arg =
    match arg.getLast?.bind rateUnit with
    | none => .error .err
    | some u =>
      if 0 < strtol p.longBits arg ∧ strtol p.longBits arg < u.max then
        .ok (BitVec.ofInt 64 (strtol p.longBits arg) * BitVec.ofNat 64 u.bytes)
      else .error .err := by
  have hbranch : ∀ (max : Nat) (r : Except Code (BitVec 64)), max ≤ 2 ^ 63 →
      (if (BitVec.ofInt 64 (strtol p.longBits arg)).toNat ≤ 0 ∨
          (BitVec.ofInt 64 (strtol p.longBits arg)).toNat ≥ max then .error .err else r) =
        if 0 < strtol p.longBits arg ∧ strtol p.longBits arg < max then r else .error .err := by
    intro max r hmax
    have hiff := @toNat_tmpRate p arg max hmax
    by_cases h : 0 < strtol p.longBits arg ∧ strtol p.longBits arg < max
    · rw [if_pos h, if_neg (hiff.mpr h)]
    · rw [if_neg h, if_pos (not_not.mp fun hin => h (hiff.mp hin))]
  rw [setMeterCirPir]
  cases arg.getLast? with
  | none => rfl
  | some last =>
    simp only [Option.bind_some, rateUnit]
    by_cases hkilo : last = 'k' ∨ last = 'K'
    · rw [if_pos hkilo, if_pos hkilo, hbranch maxRateK _ (by decide)]
      rfl
    · rw [if_neg hkilo, if_neg hkilo]
      by_cases hmega : last = 'm' ∨ last = 'M'
      · rw [if_pos hmega, if_pos hmega, hbranch maxRateM _ (by decide)]
        rfl
      · rw [if_neg hmega, if_neg hmega]

theorem setMeterCirPir_ok_iff {rate : BitVec 64} : setMeterCirPir p arg = .ok rate ↔
    ∃ u, arg.getLast?.bind rateUnit = some u ∧ 0 < strtol p.longBits arg ∧
      strtol p.longBits arg < u.max ∧
      rate = BitVec.ofInt 64 (strtol p.longBits arg) * BitVec.ofNat 64 u.bytes := by
  rw [setMeterCirPir_eq]
  cases arg.getLast?.bind rateUnit with
  | none => simp
  | some u =>
    by_cases h : 0 < strtol p.longBits arg ∧ strtol p.longBits arg < u.max
    · simp [h, eq_comm]
    · simp only [if_neg h, Option.some.injEq, exists_eq_left']
      refine iff_of_false nofun fun hall => h ⟨hall.1, hall.2.1⟩

theorem not_isDigit_of_rateUnit {c : Char} {u : RateUnit} (h : rateUnit c = some u) : c.isDigit = false := by
  have hc : c ∈ ['k', 'K', 'm', 'M'] := by
    rw [rateUnit] at h
    split at h
    case isTrue hk => simpa using Or.imp_right Or.inl hk
    case isFalse =>
      split at h
      case isTrue hm => simpa using Or.inr (Or.inr hm)
      case isFalse => cases h
  have hnone : ∀ d ∈ ['k', 'K', 'm', 'M'], d.isDigit = false := by decide
  exact hnone c hc

/-- The text is its number and the last character. -/
theorem strtol_rate {u : RateUnit} (hunit : arg.getLast?.bind rateUnit = some u)
    (hdigits : DigitText arg.dropLast) :
    strtol p.longBits arg = clamp p.longBits (decimal arg.dropLast) := by
  obtain ⟨c, hlast, hc⟩ := Option.bind_eq_some_iff.mp hunit
  have harg : arg.dropLast ++ [c] = arg := List.dropLast_append_getLast? c hlast
  have hnot := not_isDigit_of_rateUnit hc
  calc strtol p.longBits arg
      = strtol p.longBits (arg.dropLast ++ [c]) := by rw [harg]
    _ = clamp p.longBits (decimal arg.dropLast) := strtol_digits hdigits (by simpa using hnot)

theorem RateUnit.max_le (u : RateUnit) : u.max ≤ 10000000 := by
  cases u <;> simp [RateUnit.max, maxRateK_eq, maxRateM_eq]

theorem clamp_of_lt_max {n max : Nat} (hmax : max ≤ 2 ^ 31) (h : n < max) : clamp p.longBits n = n := by
  have hpow : 2 ^ 31 ≤ 2 ^ (p.longBits - 1) :=
    Nat.pow_le_pow_right (by omega) (by have := p.int_le_long; omega)
  exact clamp_of_lt (by omega)

/-- A number that is clamped to something below `max` was that number. -/
theorem lt_of_clamp_lt {n max : Nat} (hmax : max < 2 ^ 31) (h : clamp p.longBits n < max) : n < max := by
  by_contra hge
  have hpow : (2 : Int) ^ 31 ≤ 2 ^ (p.longBits - 1) := by
    have hnat : (2 : Nat) ^ 31 ≤ 2 ^ (p.longBits - 1) :=
      Nat.pow_le_pow_right (by omega) (by have := p.int_le_long; omega)
    exact_mod_cast hnat
  rw [clamp] at h
  omega

/-- A well written rate is stored as it is. -/
theorem setMeterCirPir_of_rateText {n : Nat} {u : RateUnit} (h : RateText arg n u) :
    setMeterCirPir p arg = .ok (BitVec.ofNat 64 n * BitVec.ofNat 64 u.bytes) := by
  have hmax := u.max_le
  have hlt := h.lt
  have hstrtol : strtol p.longBits arg = n := by
    rw [strtol_rate h.unit h.digits, h.value]
    exact clamp_of_lt_max (by omega) hlt
  apply (setMeterCirPir_ok_iff).mpr
  refine ⟨u, h.unit, ?_, ?_, ?_⟩
  · rw [hstrtol]
    exact_mod_cast h.pos
  · rw [hstrtol]
    exact_mod_cast hlt
  · rw [hstrtol, BitVec.ofInt_natCast]

theorem toNat_shownKbps {bytes : Nat} (h : bytes * 8 < 2 ^ 64) :
    (shownKbps (BitVec.ofNat 64 bytes)).toNat = bytes * 8 / 1000 := by
  have height : BitVec.ofNat 64 bytes * 8 = BitVec.ofNat 64 (bytes * 8) := (BitVec.ofNat_mul bytes 8).symm
  rw [shownKbps, height, BitVec.toNat_udiv, BitVec.toNat_ofNat, Nat.mod_eq_of_lt h]
  rfl

/-- A kilobit is 125 bytes. -/
theorem RateUnit.bytes_mul_eight (u : RateUnit) : u.bytes * 8 = u.kbps * 1000 := by
  cases u <;> rfl

theorem RateUnit.kbps_le (u : RateUnit) : u.kbps ≤ 1000 := by
  cases u <;> decide

/-- A rate does not get too large for its type, and what is shown of it is in kilobits. -/
theorem toNat_rate {n : Nat} {u : RateUnit} (h : n < u.max) :
    (BitVec.ofNat 64 n * BitVec.ofNat 64 u.bytes).toNat = n * u.bytes ∧
      (shownKbps (BitVec.ofNat 64 n * BitVec.ofNat 64 u.bytes)).toNat = n * u.kbps := by
  have hbits : n * u.bytes * 8 = n * u.kbps * 1000 := by rw [Nat.mul_assoc, u.bytes_mul_eight, Nat.mul_assoc]
  have hkbps : n * u.kbps ≤ 10000000 * 1000 := Nat.mul_le_mul (Nat.le_trans (Nat.le_of_lt h) u.max_le) u.kbps_le
  have hlt : n * u.bytes * 8 < 2 ^ 64 := by omega
  rw [← BitVec.ofNat_mul]
  constructor
  · rw [BitVec.toNat_ofNat, Nat.mod_eq_of_lt (by omega)]
  · rw [toNat_shownKbps hlt, hbits, Nat.mul_div_cancel _ (by decide)]

theorem rateRight_iff : RateRight p arg ↔ ¬ RateSlips p arg := by
  constructor
  · rintro h ⟨u, hunit, hdigits, hpos, hlt⟩
    obtain ⟨n, u', htext⟩ := h.accepted.mp ⟨_, (setMeterCirPir_ok_iff).mpr ⟨u, hunit, hpos, hlt, rfl⟩⟩
    exact hdigits htext.digits
  · intro hslips
    constructor
    · constructor
      · rintro ⟨rate, hrate⟩
        obtain ⟨u, hunit, hpos, hlt, -⟩ := (setMeterCirPir_ok_iff).mp hrate
        have hdigits : DigitText arg.dropLast := by
          by_contra hnot
          exact hslips ⟨u, hunit, hnot, hpos, hlt⟩
        have hstrtol := strtol_rate (p := p) hunit hdigits
        rw [hstrtol] at hpos hlt
        have hmax := u.max_le
        have hn := lt_of_clamp_lt (by omega) hlt
        rw [clamp_of_lt_max (by omega) hn] at hpos
        exact ⟨_, u, hunit, hdigits, rfl, by omega, hn⟩
      · rintro ⟨n, u, htext⟩
        exact ⟨_, setMeterCirPir_of_rateText htext⟩
    · intro rate n u hrate htext
      rw [setMeterCirPir_of_rateText htext] at hrate
      obtain rfl := Except.ok.inj hrate
      exact toNat_rate htext.lt

end Rate

/-! ## Bursts -/

/-- `MAX_BURST` and `MAX_BURST_K` -/
def maxBurst : Nat := 2 ^ 32 - 1
def maxBurstK : Nat := (2 ^ 32 - 1) / 1024

theorem maxBurst_eq : maxBurst = 4294967295 := rfl

theorem maxBurstK_eq : maxBurstK = 4194303 := rfl

/-- What `atoi` yields, in an unsigned int. -/
def tmpSize : BitVec 32 := BitVec.ofInt 32 (strtol p.longBits arg)

/-- The burst in bytes. -/
def setMeterCbsPbs : Except Code (BitVec 32) :=
  match arg.getLast? with
  | none => .error .err
  | some last =>
    let mul :=
      if last.isAlpha then if last = 'k' ∨ last = 'K' then some 1024 else none
      else if last.isDigit then some 1
      else none
    match mul with
    | none => .error .err
    | some mul =>
      if mul = 1024 ∧ ((tmpSize p arg).toNat ≥ maxBurstK ∨ (tmpSize p arg).toNat ≤ 0) then .error .err
      else if mul = 1 ∧ ((tmpSize p arg).toNat ≥ maxBurst ∨ (tmpSize p arg).toNat ≤ 0) then .error .err
      else .ok (tmpSize p arg * BitVec.ofNat 32 mul)

/-- Kilobytes or bytes. -/
inductive BurstUnit where
  | kilo
  | one
deriving DecidableEq

def BurstUnit.max : BurstUnit → Nat
  | .kilo => maxBurstK
  | .one => maxBurst

def BurstUnit.bytes : BurstUnit → Nat
  | .kilo => 1024
  | .one => 1

/-- The text of the number. -/
def BurstUnit.number : BurstUnit → Word → Word
  | .kilo, arg => arg.dropLast
  | .one, arg => arg

def burstUnit (c : Char) : Option BurstUnit :=
  if c = 'k' ∨ c = 'K' then some .kilo else if c.isDigit then some .one else none

/-- A burst as it should be written: a number below the maximum, in bytes or with `k`. -/
structure BurstText (arg : Word) (n : Nat) (u : BurstUnit) : Prop where
  unit : arg.getLast?.bind burstUnit = some u
  digits : DigitText (u.number arg)
  value : decimal (u.number arg) = n
  pos : 0 < n
  lt : n < u.max

/-- The number that is kept is within the bounds of the unit, but is not that of the text. -/
def BurstSlips : Prop :=
  ∃ u, arg.getLast?.bind burstUnit = some u ∧
    ¬ (DigitText (u.number arg) ∧ decimal (u.number arg) = (tmpSize p arg).toNat) ∧
    0 < (tmpSize p arg).toNat ∧ (tmpSize p arg).toNat < u.max

/-- A burst is accepted exactly if it is well written, and stored as it was entered. -/
structure BurstRight : Prop where
  accepted : (∃ size, setMeterCbsPbs p arg = .ok size) ↔ ∃ n u, BurstText arg n u
  stored : ∀ size n u, setMeterCbsPbs p arg = .ok size → BurstText arg n u → size.toNat = n * u.bytes

section Burst
variable {p arg}

theorem not_isAlpha_of_isDigit {c : Char} (h : c.isDigit = true) : c.isAlpha = false := by
  have hdigit : '0'.toNat ≤ c.toNat ∧ c.toNat ≤ '9'.toNat := Char.isDigit_iff_toNat.mp h
  have hnine : c.toNat ≤ 57 := hdigit.2
  have hupper : ¬ c.val ≥ 'A'.val := fun hle => absurd (Nat.le_trans (UInt32.le_iff_toNat_le.mp hle) hnine) (by decide)
  have hlower : ¬ c.val ≥ 'a'.val := fun hle => absurd (Nat.le_trans (UInt32.le_iff_toNat_le.mp hle) hnine) (by decide)
  show (decide (c.val ≥ 'A'.val ∧ c.val ≤ 'Z'.val) || decide (c.val ≥ 'a'.val) && _) = false
  rw [decide_eq_false fun hin => hupper hin.1, decide_eq_false hlower, Bool.false_and, Bool.false_or]

/-- What the chain of conditions comes to. -/
theorem setMeterCbsPbs_eq : setMeterCbsPbs p arg =
    match arg.getLast?.bind burstUnit with
    | none => .error .err
    | some u =>
      if 0 < (tmpSize p arg).toNat ∧ (tmpSize p arg).toNat < u.max then
        .ok (tmpSize p arg * BitVec.ofNat 32 u.bytes)
      else .error .err := by
  have hbranch : ∀ (max : Nat) (r : Except Code (BitVec 32)),
      (if (tmpSize p arg).toNat ≥ max ∨ (tmpSize p arg).toNat ≤ 0 then .error .err else r) =
        if 0 < (tmpSize p arg).toNat ∧ (tmpSize p arg).toNat < max then r else .error .err := by
    intro max r
    by_cases h : 0 < (tmpSize p arg).toNat ∧ (tmpSize p arg).toNat < max
    · rw [if_pos h, if_neg (by omega)]
    · rw [if_neg h, if_pos (by omega)]
  rw [setMeterCbsPbs]
  cases arg.getLast? with
  | none => rfl
  | some last =>
    simp only [Option.bind_some, burstUnit]
    by_cases hkilo : last = 'k' ∨ last = 'K'
    · have halpha : last.isAlpha = true := by
        rcases hkilo with rfl | rfl <;> decide
      simp only [halpha, if_true, if_pos hkilo, true_and, Nat.reduceEqDiff, false_and, if_false]
      exact hbranch maxBurstK _
    · rw [if_neg hkilo, if_neg hkilo]
      by_cases hdigit : last.isDigit = true
      · simp only [not_isAlpha_of_isDigit hdigit, if_pos hdigit, Bool.false_eq_true, if_false,
          Nat.reduceEqDiff, false_and, true_and]
        exact hbranch maxBurst _
      · simp only [if_neg hdigit, ite_self]

theorem setMeterCbsPbs_ok_iff {size : BitVec 32} : setMeterCbsPbs p arg = .ok size ↔
    ∃ u, arg.getLast?.bind burstUnit = some u ∧ 0 < (tmpSize p arg).toNat ∧
      (tmpSize p arg).toNat < u.max ∧ size = tmpSize p arg * BitVec.ofNat 32 u.bytes := by
  rw [setMeterCbsPbs_eq]
  cases arg.getLast?.bind burstUnit with
  | none => simp
  | some u =>
    by_cases h : 0 < (tmpSize p arg).toNat ∧ (tmpSize p arg).toNat < u.max
    · simp [h, eq_comm]
    · simp only [if_neg h, Option.some.injEq, exists_eq_left']
      refine iff_of_false nofun fun hall => h ⟨hall.1, hall.2.1⟩

theorem strtol_burst {u : BurstUnit} (hunit : arg.getLast?.bind burstUnit = some u)
    (hdigits : DigitText (u.number arg)) :
    strtol p.longBits arg = clamp p.longBits (decimal (u.number arg)) := by
  obtain ⟨c, hlast, hc⟩ := Option.bind_eq_some_iff.mp hunit
  cases u with
  | one =>
    have h := @strtol_digits p.longBits arg [] hdigits (by simp)
    rwa [List.append_nil] at h
  | kilo =>
    have harg : arg.dropLast ++ [c] = arg := List.dropLast_append_getLast? c hlast
    have hnot : c.isDigit = false := by
      rw [burstUnit] at hc
      split at hc
      case isTrue hk => rcases hk with rfl | rfl <;> decide
      case isFalse => split at hc <;> cases hc
    calc strtol p.longBits arg
        = strtol p.longBits (arg.dropLast ++ [c]) := by rw [harg]
      _ = clamp p.longBits (decimal arg.dropLast) := strtol_digits hdigits (by simpa using hnot)

/-- Where the number that is kept is that of the text, it is stored in bytes. -/
theorem setMeterCbsPbs_of_burstText {n : Nat} {u : BurstUnit} (h : BurstText arg n u)
    (hkept : (tmpSize p arg).toNat = n) :
    setMeterCbsPbs p arg = .ok (BitVec.ofNat 32 n * BitVec.ofNat 32 u.bytes) := by
  apply (setMeterCbsPbs_ok_iff).mpr
  refine ⟨u, h.unit, by rw [hkept]; exact h.pos, by rw [hkept]; exact h.lt, ?_⟩
  rw [← hkept, BitVec.ofNat_toNat, BitVec.setWidth_eq]

theorem toNat_size {n : Nat} {u : BurstUnit} (h : n < u.max) :
    (BitVec.ofNat 32 n * BitVec.ofNat 32 u.bytes).toNat = n * u.bytes := by
  cases u with
  | kilo =>
    simp only [BurstUnit.max, maxBurstK_eq] at h
    simp only [BitVec.toNat_mul, BitVec.toNat_ofNat, BurstUnit.bytes, Nat.reducePow, Nat.reduceMod]
    omega
  | one =>
    simp only [BurstUnit.max, maxBurst_eq] at h
    simp only [BitVec.toNat_mul, BitVec.toNat_ofNat, BurstUnit.bytes, Nat.reducePow, Nat.reduceMod]
    omega

/-- A well written burst whose number is not kept is one that slips: a shorter long has cut it. -/
theorem tmpSize_of_burstText {n : Nat} {u : BurstUnit} (h : BurstText arg n u)
    (hslips : ¬ BurstSlips p arg) : (tmpSize p arg).toNat = n := by
  have hlt := h.lt
  have hmax : u.max ≤ 4294967295 := by
    cases u <;> simp [BurstUnit.max, maxBurst_eq, maxBurstK_eq]
  have hvalue : (strtol p.longBits arg) = clamp p.longBits n := by
    rw [strtol_burst h.unit h.digits, h.value]
  by_contra hne
  have hout : ¬ (0 < (tmpSize p arg).toNat ∧ (tmpSize p arg).toNat < u.max) := by
    intro hin
    refine hslips ⟨u, h.unit, ?_, hin.1, hin.2⟩
    rintro ⟨-, hkept⟩
    exact hne (hkept.symm.trans h.value)
  by_cases hfits : n < 2 ^ (p.longBits - 1)
  · -- the number fits in a long, and so in 32 bits
    apply hne
    rw [tmpSize, hvalue, clamp_of_lt hfits, BitVec.toNat_ofInt]
    omega
  · -- a long of 32 bits has kept its greatest number, which is a burst too
    have hbits : p.longBits = 32 := by
      by_contra hne
      have hlong := p.int_le_long
      have hpow : 2 ^ 32 ≤ 2 ^ (p.longBits - 1) := Nat.pow_le_pow_right (by omega) (by omega)
      omega
    rw [hbits] at hfits hvalue
    have hclamp : clamp 32 n = 2147483647 := by
      rw [clamp]
      omega
    have hkept : (tmpSize p arg).toNat = 2147483647 := by
      rw [tmpSize, hbits, hvalue, hclamp]
      rfl
    apply hout
    rw [hkept]
    cases u with
    | kilo =>
      simp only [BurstUnit.max, maxBurstK_eq] at hlt
      omega
    | one =>
      rw [BurstUnit.max, maxBurst_eq]
      omega

theorem burstRight_iff : BurstRight p arg ↔ ¬ BurstSlips p arg := by
  constructor
  · rintro h ⟨u, hunit, hbad, hpos, hlt⟩
    have hok := (setMeterCbsPbs_ok_iff).mpr ⟨u, hunit, hpos, hlt, rfl⟩
    obtain ⟨n, u', htext⟩ := h.accepted.mp ⟨_, hok⟩
    obtain rfl : u = u' := Option.some.inj (hunit.symm.trans htext.unit)
    have hn : (tmpSize p arg).toNat < 2 ^ 32 := (tmpSize p arg).isLt
    -- the text is one of a burst, so the one that is stored is that of the text
    have hstored := h.stored _ n u hok htext
    have hkept := @toNat_size (tmpSize p arg).toNat u hlt
    rw [BitVec.ofNat_toNat, BitVec.setWidth_eq, hstored] at hkept
    have hbytes : 0 < u.bytes := by cases u <;> simp [BurstUnit.bytes]
    have heq : n = (tmpSize p arg).toNat := Nat.eq_of_mul_eq_mul_right hbytes hkept
    exact hbad ⟨htext.digits, htext.value.trans heq⟩
  · intro hslips
    constructor
    · constructor
      · rintro ⟨size, hsize⟩
        obtain ⟨u, hunit, hpos, hlt, -⟩ := (setMeterCbsPbs_ok_iff).mp hsize
        have hgood : DigitText (u.number arg) ∧ decimal (u.number arg) = (tmpSize p arg).toNat := by
          by_contra hbad
          exact hslips ⟨u, hunit, hbad, hpos, hlt⟩
        exact ⟨_, u, hunit, hgood.1, hgood.2, hpos, hlt⟩
      · rintro ⟨n, u, htext⟩
        exact ⟨_, setMeterCbsPbs_of_burstText htext (tmpSize_of_burstText htext hslips)⟩
    · intro size n u hsize htext
      rw [setMeterCbsPbs_of_burstText htext (tmpSize_of_burstText htext hslips)] at hsize
      obtain rfl := Except.ok.inj hsize
      exact toNat_size htext.lt

end Burst

/-! ## Both -/

/-- A text is taken for the rate and the burst it is exactly if neither setter takes a number from
it that is not the text's. -/
theorem rate_burst_right_iff :
    (RateRight p arg ↔ ¬ RateSlips p arg) ∧ (BurstRight p arg ↔ ¬ BurstSlips p arg) :=
  ⟨rateRight_iff, burstRight_iff⟩

/-- A long of 64 bits. -/
def lp64 : Platform := ⟨64, 32, by decide, by decide⟩

/-- Text in a rate is skipped, and 2^32 + 1 is taken for a burst of one byte. -/
theorem not_rate_burst_right : ¬ RateRight lp64 ['5', 'x', '7', 'k'] ∧
    ¬ BurstRight lp64 ['4', '2', '9', '4', '9', '6', '7', '2', '9', '7'] := by
  constructor
  · intro h
    exact (rateRight_iff).mp h ⟨.kilo, by decide, by decide, by decide, by decide⟩
  · intro h
    exact (burstRight_iff).mp h ⟨.one, by decide, by decide, by decide, by decide⟩

end Sgam
