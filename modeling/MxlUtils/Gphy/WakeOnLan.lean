import MxlUtils.Gphy.Init
import MxlUtils.Gphy.Msec.PacketNumber
import Mathlib.Data.BitVec
import Mathlib.Data.Fin.VecNotation
import Mathlib.Data.Fintype.Basic
import Mathlib.Tactic.FinCases
import Mathlib.Tactic.IntervalCases

/- Wake-on-LAN. `gpy2xx_wol_cfg` puts the MAC address and the SecureOn password in
   three registers each and switches the two enable bits and the interrupt;
   `gpy2xx_wol_get` shows them again. Only setting the enable bit of the password
   is ever done, so a password once configured is shown with every later magic
   packet. Disabling clears the interrupt bit by its mask where the position is
   due, a shift by more than the width of an int. -/
namespace Gpy2xx
open Effect Effect.Fallible Effect.Lock Bits

/-! ## Registers -/

/-- `VPSPEC2_WOL_CTL`, in the second vendor MMD. -/
def wolCtl : Nat := 0xE06

/-- `mac_reg`: `VPSPEC2_WOL_AD45`, `VPSPEC2_WOL_AD23`, `VPSPEC2_WOL_AD01` -/
def wolMacReg : Fin 3 → Nat := ![0xE0A, 0xE09, 0xE08]

/-- `pwd_reg`: `VPSPEC2_WOL_PW45`, `VPSPEC2_WOL_PW23`, `VPSPEC2_WOL_PW01` -/
def wolPwdReg : Fin 3 → Nat := ![0xE0D, 0xE0C, 0xE0B]

def wakeMagic : BitVec 32 := 0x20
def wakeMagicsecure : BitVec 32 := 0x40

/-- `wol_supported`, as `config_init` sets it. -/
def wolSupported : BitVec 32 := wakeMagic ||| wakeMagicsecure

/-- `struct gpy211_wolinfo` -/
structure WolInfo where
  wolopts : BitVec 32
  mac : Bytes 6
  sopass : Bytes 6

/-- The options that are supported. -/
def WolInfo.granted (wol : WolInfo) : BitVec 32 := wol.wolopts &&& wolSupported

/-! ## The calls -/

/-- `__gpy211_wol_reg_wr` -/
def wolRegWr (reg : Fin 3 → Nat) (data : Bytes 6) : Api Unit := do
  phyWriteMmd .vend2 (reg 0) (data 0 ++ data 1)
  phyWriteMmd .vend2 (reg 1) (data 2 ++ data 3)
  phyWriteMmd .vend2 (reg 2) (data 4 ++ data 5)

/-- The six bytes of three half-words, the high byte of each first. -/
def wolBytes (w : Fin 3 → BitVec 16) : Bytes 6 :=
  ![(w 0).extractLsb' 8 8, (w 0).extractLsb' 0 8, (w 1).extractLsb' 8 8, (w 1).extractLsb' 0 8,
    (w 2).extractLsb' 8 8, (w 2).extractLsb' 0 8]

/-- `__gpy211_wol_reg_rd` -/
def wolRegRd (reg : Fin 3 → Nat) : Api (Bytes 6) := do
  let w₀ ← phyReadMmd .vend2 (reg 0)
  let w₁ ← phyReadMmd .vend2 (reg 1)
  let w₂ ← phyReadMmd .vend2 (reg 2)
  pure (wolBytes ![w₀, w₁, w₂])

/-- The interrupt bit is cleared by `1 << PHY_IMASK_WOL_MASK`, a shift by 32768 that C leaves
undefined; `wolShift` is what the platform makes of it. A failure of it is not returned. -/
def disableWol (wolShift : BitVec 16) : Api Unit := do
  let ret ← (phySetMaskMmdBits .vend2 wolCtl 0x1 0).attempt
  let _ ← (phySetMaskBits phyImask wolShift 0).attempt
  .ofExcept ret

def setSecureOn (wol : WolInfo) : Api Unit :=
  if wol.granted &&& wakeMagicsecure ≠ 0 then do
    wolRegWr wolPwdReg wol.sopass
    phySetMaskMmdBits .vend2 wolCtl 0 0x4
  else pure ()

def enableWol (wol : WolInfo) : Api Unit := do
  wolRegWr wolMacReg wol.mac
  setSecureOn wol
  phySetBits phyImask 0x8000
  phySetMaskMmdBits .vend2 wolCtl 0 0x1

/-- `GPY211_WOL_FLAG_MIN`, `GPY211_WOL_FLAG_MAX` -/
def WolInfo.inRange (wol : WolInfo) : Prop := 1 ≤ wol.wolopts ∧ wol.wolopts ≤ 0x7F

instance (wol : WolInfo) : Decidable wol.inRange := inferInstanceAs (Decidable (_ ∧ _))

/-- The password alone is no way to wake up. -/
def applyWol (wolShift : BitVec 16) (wol : WolInfo) : Api Unit :=
  if wol.granted = 0 then disableWol wolShift
  else if wol.granted &&& wakeMagic ≠ 0 then enableWol wol
  else throw EINVAL

/-- Returns the options that it leaves in the caller's structure. -/
def gpy2xxWolCfg (wolShift : BitVec 16) (wol : WolInfo) : Call (BitVec 32) :=
  if ¬wol.inRange then throw EINVAL
  else locked do
    applyWol wolShift wol
    pure wol.granted

/-- A failure to read the address goes before one to read the password. -/
def readWol (ctl : BitVec 16) : Api WolInfo := do
  let mac ← (wolRegRd wolMacReg).attempt
  if ctl.getLsbD 2 then do
    let sopass ← (wolRegRd wolPwdReg).attempt
    let mac ← .ofExcept mac
    let sopass ← .ofExcept sopass
    pure ⟨wakeMagic ||| wakeMagicsecure, mac, sopass⟩
  else do
    let mac ← .ofExcept mac
    pure ⟨wakeMagic, mac, 0⟩

def gpy2xxWolGet : Call WolInfo :=
  locked do
    let ctl ← phyReadMmd .vend2 wolCtl
    if ctl.getLsbD 0 then readWol ctl else pure ⟨0, 0, 0⟩

/-! ## The calls on registers that are memory -/

section Exec
variable {wolShift : BitVec 16} {wol : WolInfo} {s : Regs}

/-- What the registers show. -/
def shownWol (s : Regs) : WolInfo :=
  if (s.mmd .vend2 wolCtl).getLsbD 0 then
    if (s.mmd .vend2 wolCtl).getLsbD 2 then
      ⟨wakeMagic ||| wakeMagicsecure, wolBytes (fun i => s.mmd .vend2 (wolMacReg i)),
        wolBytes fun i => s.mmd .vend2 (wolPwdReg i)⟩
    else ⟨wakeMagic, wolBytes (fun i => s.mmd .vend2 (wolMacReg i)), 0⟩
  else ⟨0, 0, 0⟩

theorem exec_wolRegRd (reg : Fin 3 → Nat) :
    (wolRegRd reg).exec memHandler s = (.ok (wolBytes fun i => s.mmd .vend2 (reg i)), s) := rfl

theorem exec_gpy2xxWolGet : gpy2xxWolGet.exec lockedMem s = (.ok (shownWol s), s) := by
  rw [gpy2xxWolGet, exec_locked, exec_bind_ok (exec_phyReadMmd _ _ _), exec_ite, shownWol]
  by_cases hen : (s.mmd .vend2 wolCtl).getLsbD 0
  · rw [if_pos hen, if_pos hen, readWol, exec_bind_ok (exec_attempt _ _ _), exec_wolRegRd, exec_ite]
    by_cases hspwd : (s.mmd .vend2 wolCtl).getLsbD 2
    · rw [if_pos hspwd, if_pos hspwd]
      rfl
    · rw [if_neg hspwd, if_neg hspwd]
      rfl
  · rw [if_neg hen, if_neg hen]
    rfl

/-- The four combinations of the supported options. -/
theorem granted_cases (wol : WolInfo) : wol.granted = 0 ∨ wol.granted = wakeMagic ∨
    wol.granted = wakeMagicsecure ∨ wol.granted = wakeMagic ||| wakeMagicsecure := by
  have hsplit : wol.granted = wol.wolopts &&& wakeMagic ||| wol.wolopts &&& wakeMagicsecure := by
    rw [WolInfo.granted, wolSupported, BitVec.and_or_distrib_left]
  have hbit : ∀ i, wol.wolopts &&& BitVec.twoPow 32 i = 0 ∨
      wol.wolopts &&& BitVec.twoPow 32 i = BitVec.twoPow 32 i := by
    intro i
    rw [BitVec.and_twoPow]
    split <;> simp
  have hmagic : wakeMagic = BitVec.twoPow 32 5 := by decide
  have hsecure : wakeMagicsecure = BitVec.twoPow 32 6 := by decide
  rw [hsplit, hmagic, hsecure]
  rcases hbit 5 with h₅ | h₅ <;> rcases hbit 6 with h₆ | h₆ <;> simp [h₅, h₆]

/-- The words of six bytes, as they are written. -/
def wolWords (data : Bytes 6) : Fin 3 → BitVec 16 := ![data 0 ++ data 1, data 2 ++ data 3, data 4 ++ data 5]

theorem wolBytes_wolWords (data : Bytes 6) : wolBytes (wolWords data) = data := by
  funext i
  have high : ∀ a b : BitVec 8, (a ++ b).extractLsb' 8 8 = a := fun a b =>
    (BitVec.extractLsb'_append_eq_of_le (by decide)).trans BitVec.extractLsb'_eq_self
  have low : ∀ a b : BitVec 8, (a ++ b).extractLsb' 0 8 = b := fun a b =>
    (BitVec.extractLsb'_append_eq_of_add_le (by decide)).trans BitVec.extractLsb'_eq_self
  fin_cases i <;> simp [wolBytes, wolWords, high, low]

/-- The second vendor MMD after an address or a password is written. -/
def withWords (mmd : Mmd → Nat → BitVec 16) (reg : Fin 3 → Nat) (data : Bytes 6) : Mmd → Nat → BitVec 16 :=
  Function.update mmd .vend2 (writes (mmd .vend2)
    [(reg 0, data 0 ++ data 1), (reg 1, data 2 ++ data 3), (reg 2, data 4 ++ data 5)])

theorem exec_wolRegWr (reg : Fin 3 → Nat) (data : Bytes 6) :
    (wolRegWr reg data).exec memHandler s = (.ok (), { s with mmd := withWords s.mmd reg data }) := by
  rw [wolRegWr, exec_bind_ok (exec_phyWriteMmd _ _ _ _), exec_bind_ok (exec_phyWriteMmd _ _ _ _),
    exec_phyWriteMmd]
  simp [withWords, writes]

/-- The registers after disabling. -/
def afterDisable (wolShift : BitVec 16) (s : Regs) : Regs := { s with
  mmd := Function.update s.mmd .vend2
    (Function.update (s.mmd .vend2) wolCtl (s.mmd .vend2 wolCtl &&& ~~~0x1#16))
  phy := Function.update s.phy phyImask (s.phy phyImask &&& ~~~wolShift) }

theorem exec_disableWol : (disableWol wolShift).exec memHandler s = (.ok (), afterDisable wolShift s) := by
  simp [disableWol, exec_bind, phySetMaskMmdBits, phySetMaskBits, afterDisable]

/-- The registers after the address is written. -/
def afterMac (wol : WolInfo) (s : Regs) : Regs := { s with mmd := withWords s.mmd wolMacReg wol.mac }

/-- The registers after the password is written, if there is one. -/
def afterSecureOn (wol : WolInfo) (s : Regs) : Regs :=
  if wol.granted &&& wakeMagicsecure ≠ 0 then { s with
    mmd := Function.update s.mmd .vend2 (Function.update (withWords s.mmd wolPwdReg wol.sopass .vend2)
      wolCtl (s.mmd .vend2 wolCtl ||| 0x4)) }
  else s

/-- The registers after the interrupt and the function are enabled. -/
def afterSwitch (s : Regs) : Regs := { s with
  mmd := Function.update s.mmd .vend2
    (Function.update (s.mmd .vend2) wolCtl (s.mmd .vend2 wolCtl ||| 0x1))
  phy := Function.update s.phy phyImask (s.phy phyImask ||| 0x8000) }

theorem exec_setSecureOn : (setSecureOn wol).exec memHandler s = (.ok (), afterSecureOn wol s) := by
  rw [setSecureOn, exec_ite, afterSecureOn]
  by_cases hsecure : wol.granted &&& wakeMagicsecure ≠ 0
  · rw [if_pos hsecure, if_pos hsecure, exec_bind_ok (exec_wolRegWr _ _),
      exec_phySetMaskMmdBits_zero]
    simp [withWords, writes, wolPwdReg, wolCtl]
  · rw [if_neg hsecure, if_neg hsecure]
    rfl

theorem exec_enableWol :
    (enableWol wol).exec memHandler s = (.ok (), afterSwitch (afterSecureOn wol (afterMac wol s))) := by
  rw [enableWol, exec_bind_ok (exec_wolRegWr _ _), exec_bind_ok exec_setSecureOn,
    exec_bind_ok (exec_phySetBits _ _ _), exec_phySetMaskMmdBits_zero]
  rfl

/-- A call that is not refused: the options are in range, and the password is not alone. -/
def WolInfo.accepted (wol : WolInfo) : Prop := wol.inRange ∧ wol.granted ≠ wakeMagicsecure

instance (wol : WolInfo) : Decidable wol.accepted := inferInstanceAs (Decidable (_ ∧ _))

/-- The registers after a call. -/
def afterWolCfg (wolShift : BitVec 16) (wol : WolInfo) (s : Regs) : Regs :=
  if ¬wol.accepted then s
  else if wol.granted = 0 then afterDisable wolShift s
  else afterSwitch (afterSecureOn wol (afterMac wol s))

theorem exec_gpy2xxWolCfg : (gpy2xxWolCfg wolShift wol).exec lockedMem s =
    (if wol.accepted then .ok wol.granted else .error EINVAL, afterWolCfg wolShift wol s) := by
  by_cases hrange : wol.inRange
  · have hon : wol.granted &&& wakeMagic ≠ 0 → wol.accepted ∧ wol.granted ≠ 0 := by
      intro hmagic
      refine ⟨⟨hrange, fun h => hmagic ?_⟩, fun h => hmagic ?_⟩
      · rw [h]
        decide
      · rw [h]
        decide
    have happly : (applyWol wolShift wol).exec memHandler s =
        (if wol.accepted then .ok () else .error EINVAL, afterWolCfg wolShift wol s) := by
      rw [applyWol, afterWolCfg]
      by_cases hzero : wol.granted = 0
      · have hacc : wol.accepted := ⟨hrange, by rw [hzero]; decide⟩
        rw [if_pos hzero, exec_disableWol, if_neg (not_not.mpr hacc), if_pos hacc, if_pos hzero]
      · by_cases hmagic : wol.granted &&& wakeMagic ≠ 0
        · have hacc := (hon hmagic).1
          rw [if_neg hzero, if_pos hmagic, exec_enableWol, if_neg (not_not.mpr hacc), if_pos hacc,
            if_neg hzero]
        · have hacc : ¬wol.accepted := by
            intro hacc
            rcases granted_cases wol with h | h | h | h
            · exact hzero h
            · exact hmagic (by rw [h]; decide)
            · exact hacc.2 h
            · exact hmagic (by rw [h]; decide)
          rw [if_neg hzero, if_neg hmagic, if_pos hacc, if_neg hacc]
          rfl
    rw [gpy2xxWolCfg, if_neg (not_not.mpr hrange), exec_locked, exec_bind, happly]
    by_cases hacc : wol.accepted
    · rw [if_pos hacc, if_pos hacc]
      rfl
    · rw [if_neg hacc, if_neg hacc]
  · have hacc : ¬wol.accepted := fun hacc => hrange hacc.1
    rw [gpy2xxWolCfg, if_pos hrange, afterWolCfg, if_pos hacc, if_neg hacc]
    rfl

/-! ## What one call changes -/

/-- What a call asks to be shown: nothing when it disables, the password with its option only. -/
def WolInfo.settings (wol : WolInfo) : WolInfo :=
  if wol.granted = 0 then ⟨0, 0, 0⟩
  else ⟨wol.granted, wol.mac, if wol.granted = wakeMagic then 0 else wol.sopass⟩

/-- The password's enable bit. -/
def secureOn (s : Regs) : Bool := (s.mmd .vend2 wolCtl).getLsbD 2

/-- The interrupt mask without the bit of Wake-on-LAN. -/
def otherMask (s : Regs) : BitVec 16 := s.phy phyImask &&& 0x7FFF

section Enabled
variable (wol : WolInfo) (s : Regs)

/-- The registers after enabling. -/
def afterEnable : Regs := afterSwitch (afterSecureOn wol (afterMac wol s))

theorem wolCtl_afterEnable : (afterEnable wol s).mmd .vend2 wolCtl =
    s.mmd .vend2 wolCtl ||| (if wol.granted &&& wakeMagicsecure ≠ 0 then 0x5 else 0x1) := by
  by_cases hsecure : wol.granted &&& wakeMagicsecure ≠ 0
  · rw [afterEnable, afterSecureOn, if_pos hsecure, if_pos hsecure]
    simp [afterSwitch, afterMac, withWords, writes, wolMacReg, wolCtl, BitVec.or_assoc]
  · rw [afterEnable, afterSecureOn, if_neg hsecure, if_neg hsecure]
    simp [afterSwitch, afterMac, withWords, writes, wolMacReg, wolCtl]

theorem mac_afterEnable :
    (fun i => (afterEnable wol s).mmd .vend2 (wolMacReg i)) = wolWords wol.mac := by
  funext i
  by_cases hsecure : wol.granted &&& wakeMagicsecure ≠ 0
  · rw [afterEnable, afterSecureOn, if_pos hsecure]
    fin_cases i <;>
      simp [afterSwitch, afterMac, withWords, writes, wolMacReg, wolPwdReg, wolCtl, wolWords]
  · rw [afterEnable, afterSecureOn, if_neg hsecure]
    fin_cases i <;> simp [afterSwitch, afterMac, withWords, writes, wolMacReg, wolCtl, wolWords]

theorem pwd_afterEnable (hsecure : wol.granted &&& wakeMagicsecure ≠ 0) :
    (fun i => (afterEnable wol s).mmd .vend2 (wolPwdReg i)) = wolWords wol.sopass := by
  funext i
  rw [afterEnable, afterSecureOn, if_pos hsecure]
  fin_cases i <;> simp [afterSwitch, withWords, writes, wolPwdReg, wolCtl, wolWords]

end Enabled

/-- An accepted call is shown, but for a password that an earlier one has enabled. -/
theorem shownWol_afterWolCfg (hacc : wol.accepted) :
    shownWol (afterWolCfg wolShift wol s) = wol.settings ↔
      (wol.granted = wakeMagic → secureOn s = false) := by
  rw [afterWolCfg, if_neg (not_not.mpr hacc), WolInfo.settings]
  rcases granted_cases wol with h | h | h | h
  · simp [h, afterDisable, shownWol, wakeMagic]
  · have hplain : ¬wol.granted &&& wakeMagicsecure ≠ 0 := by rw [h]; decide
    have hctl := wolCtl_afterEnable wol s
    rw [if_neg hplain] at hctl
    rw [if_neg (by rw [h]; decide), if_neg (by rw [h]; decide)]
    change shownWol (afterEnable wol s) = _ ↔ _
    rw [shownWol, hctl, mac_afterEnable, wolBytes_wolWords, if_pos h]
    cases hold : secureOn s with
    | false =>
      simp [secureOn] at hold
      simp [hold, h]
    | true =>
      simp [secureOn] at hold
      simp only [BitVec.getLsbD_or, h]
      simp [hold]
      exact fun heq => absurd heq (by decide)
  · exact absurd h hacc.2
  · have hsecure : wol.granted &&& wakeMagicsecure ≠ 0 := by rw [h]; decide
    have hne : ¬wol.granted = wakeMagic := by rw [h]; decide
    have hctl := wolCtl_afterEnable wol s
    rw [if_pos hsecure] at hctl
    rw [if_neg (by rw [h]; decide), if_neg (by rw [h]; decide)]
    change shownWol (afterEnable wol s) = _ ↔ _
    rw [shownWol, hctl, mac_afterEnable, pwd_afterEnable _ _ hsecure, wolBytes_wolWords,
      wolBytes_wolWords, if_neg hne]
    simp [h]
    exact fun heq => absurd heq (by decide)

/-- The password stays enabled, and is enabled by every accepted call that has one. -/
theorem secureOn_afterWolCfg : secureOn (afterWolCfg wolShift wol s) =
    (secureOn s || (wol.accepted ∧ wol.granted &&& wakeMagicsecure ≠ 0)) := by
  rw [afterWolCfg]
  by_cases hacc : wol.accepted
  · rw [if_neg (not_not.mpr hacc)]
    by_cases hzero : wol.granted = 0
    · rw [if_pos hzero]
      simp [secureOn, afterDisable, hzero]
    · rw [if_neg hzero]
      change ((afterEnable wol s).mmd .vend2 wolCtl).getLsbD 2 = _
      rw [wolCtl_afterEnable]
      by_cases hsecure : wol.granted &&& wakeMagicsecure ≠ 0
      · rw [if_pos hsecure, BitVec.getLsbD_or, decide_eq_true ⟨hacc, hsecure⟩, Bool.or_true]
        exact Bool.or_true _
      · rw [if_neg hsecure, BitVec.getLsbD_or, decide_eq_false fun h => hsecure h.2]
        rfl
  · rw [if_pos hacc]
    simp [hacc]

theorem and_not_eq_self_iff {x c : BitVec 16} : x &&& ~~~c = x ↔ x &&& c = 0 := by
  constructor
  · intro h
    calc x &&& c = x &&& ~~~c &&& c := by rw [h]
      _ = 0 := by rw [BitVec.and_assoc, BitVec.not_and_self]; exact BitVec.and_zero
  · intro h
    calc x &&& ~~~c = x &&& c ||| x &&& ~~~c := by rw [h]; exact BitVec.zero_or.symm
      _ = x := by rw [← BitVec.and_or_distrib_left, BitVec.or_not_self, BitVec.and_allOnes]

/-- Which other interrupts a call leaves masked as they were. -/
theorem otherMask_afterWolCfg : otherMask (afterWolCfg wolShift wol s) = otherMask s ↔
    (wol.accepted → wol.granted = 0 → otherMask s &&& wolShift = 0) := by
  rw [afterWolCfg]
  by_cases hacc : wol.accepted
  · rw [if_neg (not_not.mpr hacc)]
    by_cases hzero : wol.granted = 0
    · have hclear : otherMask (afterDisable wolShift s) = otherMask s &&& ~~~wolShift := by
        simp only [otherMask, afterDisable, Function.update_self]
        rw [BitVec.and_assoc, BitVec.and_assoc, BitVec.and_comm (~~~wolShift)]
      rw [if_pos hzero, hclear, and_not_eq_self_iff]
      exact ⟨fun h _ _ => h, fun h => h hacc hzero⟩
    · have hset : otherMask (afterEnable wol s) = otherMask s := by
        have hmask : (afterEnable wol s).phy phyImask = s.phy phyImask ||| 0x8000 := by
          simp only [afterEnable, afterSwitch, Function.update_self]
          rw [afterSecureOn]
          split <;> rfl
        rw [otherMask, otherMask, hmask, BitVec.and_or_distrib_right]
        exact BitVec.or_zero
      rw [if_neg hzero]
      exact ⟨fun _ _ h => absurd h hzero, fun _ => hset⟩
  · rw [if_pos hacc]
    exact ⟨fun _ h => absurd h hacc, fun _ => rfl⟩

end Exec

/-! ## Histories -/

section History
variable {wolShift : BitVec 16} {s : Regs} {wols : List WolInfo}

/-- The registers after a sequence of calls. -/
def afterWolCfgs (wolShift : BitVec 16) : List WolInfo → Regs → Regs
  | [], s => s
  | wol :: wols, s => afterWolCfgs wolShift wols ((gpy2xxWolCfg wolShift wol).exec lockedMem s).2

/-- The last of the calls that was accepted. -/
def lastAccepted (wols : List WolInfo) : Option WolInfo := (wols.filter fun wol => wol.accepted).getLast?

/-- The getter shows the last accepted call. -/
def ShowsLast (wolShift : BitVec 16) (s : Regs) (wols : List WolInfo) : Prop :=
  ∀ wol, lastAccepted wols = some wol →
    (gpy2xxWolGet.exec lockedMem (afterWolCfgs wolShift wols s)).1 = .ok wol.settings

/-- Every call of the sequence leaves the other interrupts masked as they were. -/
def KeepsMask (wolShift : BitVec 16) : List WolInfo → Regs → Prop
  | [], _ => True
  | wol :: wols, s =>
    otherMask ((gpy2xxWolCfg wolShift wol).exec lockedMem s).2 = otherMask s ∧
      KeepsMask wolShift wols ((gpy2xxWolCfg wolShift wol).exec lockedMem s).2

theorem afterWolCfgs_concat (wol : WolInfo) : afterWolCfgs wolShift (wols ++ [wol]) s =
    afterWolCfg wolShift wol (afterWolCfgs wolShift wols s) := by
  induction wols generalizing s with
  | nil => exact congrArg Prod.snd exec_gpy2xxWolCfg
  | cons v wols ih => exact ih

theorem lastAccepted_concat (wol : WolInfo) : lastAccepted (wols ++ [wol]) =
    if wol.accepted then some wol else lastAccepted wols := by
  rw [lastAccepted, List.filter_append]
  by_cases hacc : wol.accepted
  · simp [hacc]
  · simp [hacc, lastAccepted]

/-- A password is enabled after a sequence if it was before or some accepted call had one. -/
theorem secureOn_afterWolCfgs : secureOn (afterWolCfgs wolShift wols s) = true ↔
    secureOn s = true ∨ ∃ wol ∈ wols, wol.accepted ∧ wol.granted &&& wakeMagicsecure ≠ 0 := by
  induction wols generalizing s with
  | nil => simp [afterWolCfgs]
  | cons wol wols ih =>
    rw [afterWolCfgs, ih, exec_gpy2xxWolCfg, secureOn_afterWolCfg]
    simp [or_assoc]

theorem showsLast_iff : ShowsLast wolShift s wols ↔
    ∀ wol, lastAccepted wols = some wol → wol.granted = wakeMagic →
      secureOn s = false ∧ ∀ v ∈ wols, v.accepted → v.granted &&& wakeMagicsecure = 0 := by
  induction wols using List.reverseRecOn with
  | nil => simp [ShowsLast, lastAccepted]
  | append_singleton wols wol ih =>
    by_cases hacc : wol.accepted
    · have hoff : secureOn (afterWolCfgs wolShift wols s) = false ↔
          secureOn s = false ∧ ∀ v ∈ wols, v.accepted → v.granted &&& wakeMagicsecure = 0 := by
        rw [← Bool.not_eq_true, secureOn_afterWolCfgs]
        simp
      have hown : wol.granted = wakeMagic → wol.granted &&& wakeMagicsecure = 0 := by
        intro h
        rw [h]
        decide
      have hshown : ShowsLast wolShift s (wols ++ [wol]) ↔
          (wol.granted = wakeMagic → secureOn (afterWolCfgs wolShift wols s) = false) := by
        rw [← @shownWol_afterWolCfg wolShift wol _ hacc, ShowsLast, lastAccepted_concat, if_pos hacc,
          afterWolCfgs_concat, exec_gpy2xxWolGet]
        simp
      rw [hshown, lastAccepted_concat, if_pos hacc, hoff]
      simp only [Option.some.injEq, forall_eq', List.mem_append, List.mem_singleton]
      constructor
      · intro h hmagic
        refine ⟨(h hmagic).1, fun v hv hvacc => ?_⟩
        rcases hv with hv | rfl
        · exact (h hmagic).2 v hv hvacc
        · exact hown hmagic
      · intro h hmagic
        exact ⟨(h hmagic).1, fun v hv => (h hmagic).2 v (.inl hv)⟩
    · -- a refused call changes neither the registers nor what was accepted last
      have hsame : afterWolCfgs wolShift (wols ++ [wol]) s = afterWolCfgs wolShift wols s := by
        rw [afterWolCfgs_concat, afterWolCfg, if_pos hacc]
      rw [ShowsLast, lastAccepted_concat, if_neg hacc, hsame]
      refine Iff.trans ih ?_
      simp [or_imp, forall_and, hacc]

theorem keepsMask_iff : KeepsMask wolShift wols s ↔
    ((∃ wol ∈ wols, wol.accepted ∧ wol.granted = 0) → otherMask s &&& wolShift = 0) := by
  induction wols generalizing s with
  | nil => simp [KeepsMask]
  | cons wol wols ih =>
    rw [KeepsMask, exec_gpy2xxWolCfg, ih, otherMask_afterWolCfg]
    constructor
    · intro h hany
      obtain ⟨hfirst, hrest⟩ := h
      obtain ⟨v, hv, hacc, hzero⟩ := hany
      rcases List.mem_cons.mp hv with rfl | hv
      · exact hfirst hacc hzero
      · rw [← (otherMask_afterWolCfg).mpr hfirst]
        exact hrest ⟨v, hv, hacc, hzero⟩
    · intro h
      have hfirst : wol.accepted → wol.granted = 0 → otherMask s &&& wolShift = 0 :=
        fun hacc hzero => h ⟨wol, List.mem_cons_self, hacc, hzero⟩
      refine ⟨hfirst, fun hany => ?_⟩
      obtain ⟨v, hv, hacc, hzero⟩ := hany
      rw [(otherMask_afterWolCfg).mpr hfirst]
      exact h ⟨v, List.mem_cons_of_mem _ hv, hacc, hzero⟩

/-- **Wake-on-LAN over any history.** The getter shows the last accepted call if and only if that
call is not for plain magic packets after a password was enabled; and the other interrupts are left
alone if and only if no call disables Wake-on-LAN while one of them is hit by the shift. -/
theorem wol_history_iff (wolShift : BitVec 16) (s : Regs) (wols : List WolInfo) :
    (ShowsLast wolShift s wols ↔
      ∀ wol, lastAccepted wols = some wol → wol.granted = wakeMagic →
        secureOn s = false ∧ ∀ v ∈ wols, v.accepted → v.granted &&& wakeMagicsecure = 0) ∧
    (KeepsMask wolShift wols s ↔
      ((∃ wol ∈ wols, wol.accepted ∧ wol.granted = 0) → otherMask s &&& wolShift = 0)) :=
  ⟨showsLast_iff, keepsMask_iff⟩

/-- A magic packet with a password, and one without. -/
def secureWol : WolInfo := ⟨0x60, ![0x02, 0, 0, 0, 0, 1], ![1, 2, 3, 4, 5, 6]⟩
def plainWol : WolInfo := ⟨0x20, ![0x02, 0, 0, 0, 0, 2], 0⟩

theorem showsLast_plain_secure : ShowsLast 1 (zeroRegs true) [plainWol, secureWol] := by
  refine (wol_history_iff 1 (zeroRegs true) [plainWol, secureWol]).1.mpr fun wol hwol hmagic => ?_
  have hlast : lastAccepted [plainWol, secureWol] = some secureWol := rfl
  cases hlast.symm.trans hwol
  exact absurd hmagic (by decide)

/-- The other way round the password of the first call is still shown. -/
theorem not_showsLast_secure_plain : ¬ShowsLast 1 (zeroRegs true) [secureWol, plainWol] := by
  intro h
  have hlast : lastAccepted [secureWol, plainWol] = some plainWol := rfl
  have hopts := congrArg (Except.map WolInfo.wolopts) (h plainWol hlast)
  exact absurd hopts (by decide)

/-- Bit 0, the link state, is cleared with a shift that wraps around. -/
theorem not_keepsMask_disable :
    ¬KeepsMask 1 [⟨1, 0, 0⟩] { zeroRegs true with phy := fun _ => 0xFFFF } := by
  intro h
  exact absurd h.1 (by decide)

end History

end Gpy2xx
