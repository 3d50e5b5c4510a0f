import MxlUtils.Gphy.Usxgmii.Window

/- The USXGMII test functions: transmit and receive patterns and the loopback. The
   getter of the transmit pattern reads the register of the square wave's period,
   and takes the period from the other one. -/
namespace Gpy2xx
open Effect Effect.Fallible Effect.Lock Bits

/-! ## Registers and configurations -/

/-- `XPCS_SR_PMA_EXT_ABL` -/
def extAbl : XpcsReg := ⟨0x4002C, by decide, by decide⟩

/-- `XPCS_SR_XS_PCS_TP_CTRL` and its fields. -/
def tpCtrl : XpcsReg := ⟨0xC00A8, by decide, by decide⟩
def tpSel : Field 16 := ⟨0x2, 1⟩
def rtpEn : Field 16 := ⟨0x4, 2⟩
def ttpEn : Field 16 := ⟨0x8, 3⟩
def prbs31tEn : Field 16 := ⟨0x10, 4⟩
def prbs31rEn : Field 16 := ⟨0x20, 5⟩
def prbs9tEn : Field 16 := ⟨0x40, 6⟩

/-- `XPCS_VR_XS_PCS_KR_CTRL` and its fields. -/
def krCtrl : XpcsReg := ⟨0xE001C, by decide, by decide⟩
def nvalSel : Field 16 := ⟨0x70, 4⟩
def prbs9rxen : Field 16 := ⟨0x80, 7⟩

/-- `XPCS_SR_PMA_CTRL1_LB` and `XPCS_VR_XS_PCS_DIG_CTRL1_R2TLBE`. -/
def pmaCtrl1Xpcs : XpcsReg := ⟨0x40000, by decide, by decide⟩
def serialLb : Field 16 := ⟨0x1, 0⟩
def digCtrl1 : XpcsReg := ⟨0xE0000, by decide, by decide⟩
def r2tlbe : Field 16 := ⟨0x4000, 14⟩

/-- `enum gpy211_tx_bert_mode`; `past n` is `n` more than the last of them and one. -/
inductive TxBertMode where
  | squarewave
  | pseudoRandom
  | prbs31
  | prbs9
  | disable
  | past (n : Nat)
deriving DecidableEq

/-- `struct gpy211_usxgmii_tx_bert_config` -/
structure TxBert where
  mode : TxBertMode
  nvalSel : BitVec 32

/-- `enum gpy211_rx_bert_mode` -/
inductive RxBertMode where
  | pseudoRandom
  | prbs31
  | prbs9
  | disable
  | past (n : Nat)
deriving DecidableEq

/-- `enum gpy211_usxgmii_loopback_mode`; the invalid mode is `past 0`. -/
inductive UsxgmiiLoopback where
  | disable
  | tx2rx
  | rx2tx
  | past (n : Nat)
deriving DecidableEq

def UsxgmiiLoopback.code : UsxgmiiLoopback → Nat
  | .disable => 0
  | .tx2rx => 1
  | .rx2tx => 2
  | .past n => 3 + n

/-- `USXGMII_LOOPBACK_MAX` -/
def usxgmiiLoopbackMax : Nat := 3

/-! ## The calls -/

/-- 0x50 is the USXGMII flag. -/
def checkUsxgmii : Api Unit := do
  let abl ← phyXpcsHwrd extAbl
  if abl ≠ 0x50 then throw EINVAL else pure ()

/-- What the functions have in common: the family, the lock and the flag. -/
def inUsxgmii {α : Type} (phy : Gpy211Device) (body : Api α) : Call α :=
  if phy.family ≠ .p34x then throw EINVAL
  else locked do
    checkUsxgmii
    body

/-- The fields of `TP_CTRL` for a transmit pattern. -/
def txFields (sel ttp prbs31 prbs9 : BitVec 16) : List (Field 16 × BitVec 16) :=
  [(tpSel, sel), (ttpEn, ttp), (prbs31tEn, prbs31), (prbs9tEn, prbs9)]

/-- An unsupported mode goes to the label with the result of the read, which is not negative. -/
def setTxBert (cfg : TxBert) : Api Unit := do
  let tp ← phyXpcsHwrd tpCtrl
  match cfg.mode with
  | .squarewave => do
    let kr ← phyXpcsHwrd krCtrl
    phyXpcsHwwr krCtrl (nvalSel.replace kr ((cfg.nvalSel &&& 0x7).setWidth 16))
    phyXpcsHwwr tpCtrl (replaceFields tp (txFields 1 1 0 0))
  | .prbs31 => phyXpcsHwwr tpCtrl (replaceFields tp (txFields 0 0 1 0))
  | .prbs9 => phyXpcsHwwr tpCtrl (replaceFields tp (txFields 0 0 0 1))
  | .disable => phyXpcsHwwr tpCtrl (replaceFields tp [(ttpEn, 0), (prbs31tEn, 0), (prbs9tEn, 0)])
  | .pseudoRandom | .past _ => pure ()

def gpy2xxUsxgmiiTxBertCfg (phy : Gpy211Device) (cfg : TxBert) : Call Unit := inUsxgmii phy (setTxBert cfg)

def txModeOf (tpSel squarewave prbs31 prbs9 : BitVec 16) : TxBertMode :=
  if tpSel = 1 ∧ squarewave = 1 ∧ prbs31 = 0 ∧ prbs9 = 0 then .squarewave
  else if tpSel = 0 ∧ squarewave = 0 ∧ prbs31 = 1 ∧ prbs9 = 0 then .prbs31
  else if tpSel = 0 ∧ squarewave = 0 ∧ prbs31 = 0 ∧ prbs9 = 1 then .prbs9
  else .disable

/-- The mode that `TP_CTRL` shows. -/
def txMode (tp : BitVec 16) : TxBertMode :=
  txModeOf (tpSel.get tp) (ttpEn.get tp) (prbs31tEn.get tp) (prbs9tEn.get tp)

/-- Only the square wave has a period. It is read from `KR_CTRL`, and taken from `TP_CTRL`. -/
def readTxBert (cfg : TxBert) : Api TxBert := do
  let tp ← phyXpcsHwrd tpCtrl
  if txMode tp = .squarewave then do
    let _ ← phyXpcsHwrd krCtrl
    pure ⟨.squarewave, (nvalSel.get tp).setWidth 32⟩
  else pure { cfg with mode := txMode tp }

/-- `cfg` is what the caller's structure holds before. -/
def gpy2xxUsxgmiiTxBertGet (phy : Gpy211Device) (cfg : TxBert) : Call TxBert := inUsxgmii phy (readTxBert cfg)

/-- The receive pattern, in the two registers. -/
def writeRxBert (tp kr prbs31 prbs9 : BitVec 16) : Api Unit := do
  phyXpcsHwwr tpCtrl (replaceFields tp [(rtpEn, 0), (prbs31rEn, prbs31)])
  phyXpcsHwwr krCtrl (replaceFields kr [(prbs9rxen, prbs9)])

def setRxBert (mode : RxBertMode) : Api Unit := do
  let tp ← phyXpcsHwrd tpCtrl
  let kr ← phyXpcsHwrd krCtrl
  match mode with
  | .prbs31 => writeRxBert tp kr 1 0
  | .prbs9 => writeRxBert tp kr 0 1
  | .disable => writeRxBert tp kr 0 0
  | .pseudoRandom | .past _ => pure ()

def gpy2xxUsxgmiiRxBertCfg (phy : Gpy211Device) (mode : RxBertMode) : Call Unit :=
  inUsxgmii phy (setRxBert mode)

def rxModeOf (rtp prbs31 prbs9 : BitVec 16) : RxBertMode :=
  if rtp = 0 ∧ prbs31 = 1 ∧ prbs9 = 0 then .prbs31
  else if rtp = 0 ∧ prbs31 = 0 ∧ prbs9 = 1 then .prbs9
  else .disable

/-- The mode that `TP_CTRL` and `KR_CTRL` show. -/
def rxMode (tp kr : BitVec 16) : RxBertMode := rxModeOf (rtpEn.get tp) (prbs31rEn.get tp) (prbs9rxen.get kr)

def readRxBert : Api RxBertMode := do
  let tp ← phyXpcsHwrd tpCtrl
  let kr ← phyXpcsHwrd krCtrl
  pure (rxMode tp kr)

def gpy2xxUsxgmiiRxBertGet (phy : Gpy211Device) : Call RxBertMode := inUsxgmii phy readRxBert

def setUsxgmiiLoopback (mode : UsxgmiiLoopback) : Api Unit := do
  let serial ← phyXpcsHwrd pmaCtrl1Xpcs
  phyXpcsHwwr pmaCtrl1Xpcs (serialLb.replace serial (if mode = .tx2rx then 1 else 0))
  let parallel ← phyXpcsHwrd digCtrl1
  phyXpcsHwwr digCtrl1 (r2tlbe.replace parallel (if mode = .rx2tx then 1 else 0))

def gpy2xxUsxgmiiLoopbackCfg (phy : Gpy211Device) (mode : UsxgmiiLoopback) : Call Unit :=
  if mode.code ≥ usxgmiiLoopbackMax then throw EINVAL else inUsxgmii phy (setUsxgmiiLoopback mode)

/-- `serial_en | (parallel_en << 1)`, decoded. -/
def loopbackOf (serialEn parallelEn : BitVec 16) : UsxgmiiLoopback :=
  if serialEn ||| parallelEn <<< 1 = 0 then .disable
  else if serialEn ||| parallelEn <<< 1 = 1 then .tx2rx
  else if serialEn ||| parallelEn <<< 1 = 2 then .rx2tx
  else .past 0

def readUsxgmiiLoopback : Api UsxgmiiLoopback := do
  let serial ← phyXpcsHwrd pmaCtrl1Xpcs
  let parallel ← phyXpcsHwrd digCtrl1
  pure (loopbackOf (serialLb.get serial) (r2tlbe.get parallel))

def gpy2xxUsxgmiiLoopbackGet (phy : Gpy211Device) : Call UsxgmiiLoopback :=
  inUsxgmii phy readUsxgmiiLoopback

/-! ## One call -/

/-- A PHY that has the functions, in USXGMII mode. -/
def UsxgmiiReady (phy : Gpy211Device) (s : XpcsRegs) : Prop :=
  phy.family = .p34x ∧ s.xpcs extAbl.addr = 0x50

instance (phy : Gpy211Device) (s : XpcsRegs) : Decidable (UsxgmiiReady phy s) :=
  inferInstanceAs (Decidable (_ ∧ _))

section Step
variable {phy : Gpy211Device} {s : XpcsRegs} {α : Type}

theorem exec_checkUsxgmii : checkUsxgmii.exec xpcsHandler s =
    (if s.xpcs extAbl.addr = 0x50 then .ok () else .error EINVAL, s.paged extAbl) := by
  rw [checkUsxgmii, exec_bind_ok (exec_phyXpcsHwrd s extAbl), exec_ite]
  by_cases hflag : s.xpcs extAbl.addr = 0x50
  · rw [if_neg (not_not.mpr hflag), if_pos hflag]
    rfl
  · rw [if_pos hflag, if_neg hflag]
    rfl

theorem exec_inUsxgmii (h : UsxgmiiReady phy s) (body : Api α) :
    (inUsxgmii phy body).exec lockedXpcs s = body.exec xpcsHandler (s.paged extAbl) := by
  rw [inUsxgmii, if_neg (not_not.mpr h.1), exec_locked, exec_bind, exec_checkUsxgmii, if_pos h.2]

/-- Elsewhere the functions fail, and change nothing but the base of the window. -/
theorem exec_inUsxgmii_error (h : ¬UsxgmiiReady phy s) (body : Api α) :
    ∃ base, (inUsxgmii phy body).exec lockedXpcs s = (.error EINVAL, { s with base := base }) := by
  rw [inUsxgmii]
  by_cases hfamily : phy.family = .p34x
  · have hflag : ¬s.xpcs extAbl.addr = 0x50 := fun hflag => h ⟨hfamily, hflag⟩
    rw [if_neg (not_not.mpr hfamily), exec_locked, exec_bind, exec_checkUsxgmii, if_neg hflag]
    exact ⟨_, rfl⟩
  · rw [if_pos hfamily]
    exact ⟨s.base, rfl⟩

end Step

/-- The calls that configure. -/
inductive UsxgmiiCall where
  | tx (cfg : TxBert)
  | rx (mode : RxBertMode)
  | loopback (mode : UsxgmiiLoopback)

namespace UsxgmiiCall

def run (phy : Gpy211Device) : UsxgmiiCall → Call Unit
  | .tx cfg => gpy2xxUsxgmiiTxBertCfg phy cfg
  | .rx mode => gpy2xxUsxgmiiRxBertCfg phy mode
  | .loopback mode => gpy2xxUsxgmiiLoopbackCfg phy mode

/-- The configuration of each kind that a call sets; an unsupported mode sets none. -/
def setsTx : UsxgmiiCall → Option TxBert
  | .tx ⟨.pseudoRandom, _⟩ | .tx ⟨.past _, _⟩ => none
  | .tx cfg => some cfg
  | _ => none

def setsRx : UsxgmiiCall → Option RxBertMode
  | .rx .pseudoRandom | .rx (.past _) => none
  | .rx mode => some mode
  | _ => none

def setsLoopback : UsxgmiiCall → Option UsxgmiiLoopback
  | .loopback (.past _) => none
  | .loopback mode => some mode
  | _ => none

/-- A mode that is supported. -/
def Supported (c : UsxgmiiCall) : Prop :=
  c.setsTx.isSome ∨ c.setsRx.isSome ∨ c.setsLoopback.isSome

instance (c : UsxgmiiCall) : Decidable c.Supported := inferInstanceAs (Decidable (_ ∨ _ ∨ _))

/-- What a call leaves in the registers. -/
def after (x : Nat → BitVec 16) : UsxgmiiCall → Nat → BitVec 16
  | .tx ⟨.squarewave, nval⟩ => writes x
    [(krCtrl.addr, nvalSel.replace (x krCtrl.addr) ((nval &&& 0x7).setWidth 16)),
      (tpCtrl.addr, replaceFields (x tpCtrl.addr) (txFields 1 1 0 0))]
  | .tx ⟨.prbs31, _⟩ =>
    Function.update x tpCtrl.addr (replaceFields (x tpCtrl.addr) (txFields 0 0 1 0))
  | .tx ⟨.prbs9, _⟩ =>
    Function.update x tpCtrl.addr (replaceFields (x tpCtrl.addr) (txFields 0 0 0 1))
  | .tx ⟨.disable, _⟩ => Function.update x tpCtrl.addr
    (replaceFields (x tpCtrl.addr) [(ttpEn, 0), (prbs31tEn, 0), (prbs9tEn, 0)])
  | .rx .prbs31 => afterRx x 1 0
  | .rx .prbs9 => afterRx x 0 1
  | .rx .disable => afterRx x 0 0
  | .loopback .disable => afterLoopback x 0 0
  | .loopback .tx2rx => afterLoopback x 1 0
  | .loopback .rx2tx => afterLoopback x 0 1
  | _ => x
where
  afterRx (x : Nat → BitVec 16) (prbs31 prbs9 : BitVec 16) : Nat → BitVec 16 := writes x
    [(tpCtrl.addr, replaceFields (x tpCtrl.addr) [(rtpEn, 0), (prbs31rEn, prbs31)]),
      (krCtrl.addr, replaceFields (x krCtrl.addr) [(prbs9rxen, prbs9)])]
  afterLoopback (x : Nat → BitVec 16) (serial parallel : BitVec 16) : Nat → BitVec 16 := writes x
    [(pmaCtrl1Xpcs.addr, serialLb.replace (x pmaCtrl1Xpcs.addr) serial),
      (digCtrl1.addr, r2tlbe.replace (x digCtrl1.addr) parallel)]

end UsxgmiiCall

/-- No call changes what the PHY is able to do. -/
theorem after_extAbl {x : Nat → BitVec 16} (c : UsxgmiiCall) : c.after x extAbl.addr = x extAbl.addr := by
  cases c with
  | tx cfg =>
    obtain ⟨mode, nval⟩ := cfg
    cases mode <;> simp [UsxgmiiCall.after, writes, extAbl, tpCtrl, krCtrl]
  | rx mode => cases mode <;> simp [UsxgmiiCall.after, UsxgmiiCall.after.afterRx, writes, extAbl, tpCtrl, krCtrl]
  | loopback mode =>
    cases mode <;> simp [UsxgmiiCall.after, UsxgmiiCall.after.afterLoopback, writes, extAbl, pmaCtrl1Xpcs, digCtrl1]

section Calls
variable {phy : Gpy211Device} {s : XpcsRegs}

/-- The result of a call on a PHY that is ready: only a loopback mode is ever refused. -/
def UsxgmiiCall.result : UsxgmiiCall → Except Errno Unit
  | .loopback (.past _) => .error EINVAL
  | _ => .ok ()

theorem exec_setTxBert (cfg : TxBert) : ∃ base, (setTxBert cfg).exec xpcsHandler s =
    (.ok (), { s with xpcs := UsxgmiiCall.after s.xpcs (.tx cfg), base := base }) := by
  obtain ⟨mode, nval⟩ := cfg
  rw [setTxBert, exec_bind_ok (exec_phyXpcsHwrd s tpCtrl)]
  cases mode with
  | squarewave =>
    simp only [exec_bind, exec_phyXpcsHwrd, exec_phyXpcsHwwr]
    exact ⟨_, rfl⟩
  | _ => exact ⟨_, (by first | exact exec_phyXpcsHwwr _ _ _ | rfl)⟩

theorem exec_setRxBert (mode : RxBertMode) : ∃ base, (setRxBert mode).exec xpcsHandler s =
    (.ok (), { s with xpcs := UsxgmiiCall.after s.xpcs (.rx mode), base := base }) := by
  rw [setRxBert, exec_bind_ok (exec_phyXpcsHwrd s tpCtrl), exec_bind_ok (exec_phyXpcsHwrd _ krCtrl)]
  have hwrite : ∀ prbs31 prbs9 (s' : XpcsRegs), ∃ base,
      (writeRxBert (s'.xpcs tpCtrl.addr) (s'.xpcs krCtrl.addr) prbs31 prbs9).exec xpcsHandler s' =
        (.ok (), { s' with xpcs := UsxgmiiCall.after.afterRx s'.xpcs prbs31 prbs9, base := base }) := by
    intro prbs31 prbs9 s'
    rw [writeRxBert, exec_bind_ok (exec_phyXpcsHwwr _ _ _), exec_phyXpcsHwwr]
    exact ⟨_, rfl⟩
  cases mode with
  | prbs31 => exact hwrite 1 0 ((s.paged tpCtrl).paged krCtrl)
  | prbs9 => exact hwrite 0 1 ((s.paged tpCtrl).paged krCtrl)
  | disable => exact hwrite 0 0 ((s.paged tpCtrl).paged krCtrl)
  | _ => exact ⟨_, rfl⟩

theorem exec_setUsxgmiiLoopback {mode : UsxgmiiLoopback} (h : mode.code < usxgmiiLoopbackMax) :
    ∃ base, (setUsxgmiiLoopback mode).exec xpcsHandler s =
      (.ok (), { s with xpcs := UsxgmiiCall.after s.xpcs (.loopback mode), base := base }) := by
  rw [setUsxgmiiLoopback, exec_bind_ok (exec_phyXpcsHwrd _ _), exec_bind_ok (exec_phyXpcsHwwr _ _ _),
    exec_bind_ok (exec_phyXpcsHwrd _ _), exec_phyXpcsHwwr]
  cases mode with
  | past n =>
    have hmax : usxgmiiLoopbackMax = 3 := rfl
    simp [UsxgmiiLoopback.code] at h
    omega
  | _ => exact ⟨_, rfl⟩

/-- A call on a PHY that is ready. -/
theorem exec_run (h : UsxgmiiReady phy s) (c : UsxgmiiCall) : ∃ base,
    (c.run phy).exec lockedXpcs s = (c.result, { s with xpcs := c.after s.xpcs, base := base }) := by
  cases c with
  | tx cfg =>
    obtain ⟨base, hexec⟩ := @exec_setTxBert (s.paged extAbl) cfg
    exact ⟨base, (exec_inUsxgmii h _).trans hexec⟩
  | rx mode =>
    obtain ⟨base, hexec⟩ := @exec_setRxBert (s.paged extAbl) mode
    exact ⟨base, (exec_inUsxgmii h _).trans hexec⟩
  | loopback mode =>
    by_cases hmode : mode.code < usxgmiiLoopbackMax
    · obtain ⟨base, hexec⟩ := @exec_setUsxgmiiLoopback (s.paged extAbl) mode hmode
      refine ⟨base, ?_⟩
      rw [UsxgmiiCall.run, gpy2xxUsxgmiiLoopbackCfg, if_neg (by omega), exec_inUsxgmii h, hexec]
      cases mode with
      | past n => exact absurd hmode (by simp [UsxgmiiLoopback.code, usxgmiiLoopbackMax])
      | _ => rfl
    · rw [UsxgmiiCall.run, gpy2xxUsxgmiiLoopbackCfg, if_pos (by omega)]
      cases mode with
      | past n => exact ⟨s.base, rfl⟩
      | _ => exact absurd (by decide) hmode

end Calls

end Gpy2xx
