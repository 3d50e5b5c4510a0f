import MxlUtils.Gphy.Msec.EngineConfig

/- Consistency-check rules of the ingress engine. A rule is three words of a slot; the
   Ethertype is in the first one with its bytes swapped. The function that reads a
   rule takes the bytes as they are. -/
namespace Gpy2xx
open Effect Effect.Lock Bits

/-! ## The calls -/

/-- `struct icc_match_param`; `iccMisc` is the raw word of its bit fields. -/
structure IccMatchParam where
  iccIndex : BitVec 8
  payloadEType : BitVec 16
  iccMisc : BitVec 32
deriving DecidableEq

/-- `EIPI_EIP_160S_I_32_CC_RULES_PAGE0_MODULE_BASE` -/
def ccRulesPage0Base : Nat := 0x00B0E000

/-- `ICC_MAX_MATCH_SIZE_BYTES` -/
def iccMaxMatchSizeBytes : Nat := 16

def ccRuleAddr (iccIndex : BitVec 8) : Nat :=
  ccRulesPage0Base + (if iccIndex > 127 then 0x10000 else 0) + (iccIndex % 128).toNat * iccMaxMatchSizeBytes

/-- `_byte_swapped` of the function that writes a rule. -/
def swappedEType (payloadEType : BitVec 16) : BitVec 32 :=
  ((payloadEType.setWidth 32 >>> 8 &&& 0xFF) <<< 0) ||| ((payloadEType.setWidth 32 &&& 0xFF) <<< 8)

/-- `_byte_swapped` of the function that reads one. -/
def readEType (word : BitVec 32) : BitVec 32 :=
  ((word >>> 24 &&& 0xFF) <<< 8) ||| ((word >>> 16 &&& 0xFF) <<< 0)

/-- `_icc_match` -/
def IccMatchParam.words (inCc : IccMatchParam) : List (BitVec 32) :=
  [swappedEType inCc.payloadEType <<< 16, inCc.iccMisc, 0]

def gpy2xxMsecConfigIngCcRule (inCc : IccMatchParam) : Call Unit :=
  locked (mboxWriteWords (ccRuleAddr inCc.iccIndex) inCc.words)

def gpy2xxMsecGetIngCcRule (iccIndex : BitVec 8) : Call IccMatchParam :=
  locked do
    let iccMatch ← mboxReadWords (ccRuleAddr iccIndex) 3
    pure ⟨iccIndex, (readEType (Mem.rawWords iccMatch 0)).setWidth 16, Mem.rawWords iccMatch 1⟩

/-! ## What the two calls should do -/

/-- What is read at an index, where every access succeeds. -/
def ccRuleShown (iccIndex : BitVec 8) (regs : Regs) : Except Errno IccMatchParam :=
  ((gpy2xxMsecGetIngCcRule iccIndex).exec lockedMem regs).1

/-- A rule is read back as it was written, and the rules at the other indices as they were. -/
def CcRuleRoundTrip (inCc : IccMatchParam) : Prop :=
  ∀ regs regs', (gpy2xxMsecConfigIngCcRule inCc).exec lockedMem regs = (.ok (), regs') →
    ccRuleShown inCc.iccIndex regs' = .ok inCc ∧
    ∀ iccIndex, iccIndex ≠ inCc.iccIndex → ccRuleShown iccIndex regs' = ccRuleShown iccIndex regs

/-! ## The Ethertype -/

/-- The bytes come back in the other order. -/
theorem readEType_swapped (e : BitVec 16) :
    (readEType (swappedEType e <<< 16)).setWidth 16 = e.extractLsb' 0 8 ++ e.extractLsb' 8 8 := by
  have hmask : (0xFF : BitVec 32) = BitVec.ofNat 32 (2 ^ 8 - 1) := rfl
  apply BitVec.eq_of_getLsbD_eq
  intro i hi
  rw [readEType, swappedEType, hmask]
  simp only [BitVec.getLsbD_setWidth, BitVec.getLsbD_or, BitVec.getLsbD_and, BitVec.getLsbD_shiftLeft,
    BitVec.getLsbD_ushiftRight, BitVec.getLsbD_ofNat, Nat.testBit_two_pow_sub_one, BitVec.getLsbD_append,
    BitVec.getLsbD_extractLsb']
  by_cases hlow : i < 8
  · simp [hlow, hi, show i < 32 by omega, show 16 + i < 32 by omega, show 8 + i < 32 by omega]
  · have hback : 24 + (i - 8) - 16 = i := by omega
    simp [hlow, hi, hback, show i < 32 by omega, show 24 + (i - 8) < 32 by omega, show ¬24 + (i - 8) < 16 by omega,
      show i - 8 < 32 by omega, show i - 8 < 8 by omega]

/-- Two bytes in the other order are the same number if and only if they are equal. -/
theorem swapped_eq_self_iff (e : BitVec 16) :
    e.extractLsb' 0 8 ++ e.extractLsb' 8 8 = e ↔ e.extractLsb' 0 8 = e.extractLsb' 8 8 := by
  have hsplit : e.extractLsb' 8 8 ++ e.extractLsb' 0 8 = e := BitVec.extractLsb'_append_extractLsb'
  constructor
  · intro h
    have hlow := congrArg (BitVec.extractLsb' 0 8) h
    rwa [BitVec.extractLsb'_append_eq_right, eq_comm] at hlow
  · intro h
    rw [h] at hsplit ⊢
    exact hsplit

/-! ## Slots -/

section Slots
variable {iccIndex iccIndex' : BitVec 8} {inCc : IccMatchParam} {regs : Regs}

theorem toNat_ccRuleAddr (iccIndex : BitVec 8) : ccRuleAddr iccIndex =
    0x00B0E000 + iccIndex.toNat / 128 * 0x10000 + iccIndex.toNat % 128 * 16 := by
  have hlt := iccIndex.isLt
  have h127 : (127 : BitVec 8).toNat = 127 := rfl
  have h128 : (128 : BitVec 8).toNat = 128 := rfl
  rw [ccRuleAddr, ccRulesPage0Base, iccMaxMatchSizeBytes, BitVec.toNat_umod, h128]
  by_cases hpage : iccIndex > 127
  · have hnat := BitVec.lt_def.mp hpage
    rw [if_pos hpage]
    omega
  · have hnat := BitVec.le_def.mp (BitVec.not_lt.mp hpage)
    rw [if_neg hpage]
    omega

/-- Different rules have different slots. -/
theorem ccRuleAddr_apart (hne : iccIndex ≠ iccIndex') :
    ccRuleAddr iccIndex + 16 ≤ ccRuleAddr iccIndex' ∨ ccRuleAddr iccIndex' + 16 ≤ ccRuleAddr iccIndex := by
  have hlt := iccIndex.isLt
  have hlt' := iccIndex'.isLt
  have hnat : iccIndex.toNat ≠ iccIndex'.toNat := fun h => hne (BitVec.eq_of_toNat_eq h)
  rw [toNat_ccRuleAddr, toNat_ccRuleAddr]
  omega

theorem exec_configIngCcRule : (gpy2xxMsecConfigIngCcRule inCc).exec lockedMem regs =
    (.ok (), { regs with mbox := regs.mbox.storeWords (ccRuleAddr inCc.iccIndex) inCc.words }) := by
  rw [gpy2xxMsecConfigIngCcRule, exec_locked, exec_mboxWriteWords]

theorem ccRuleShown_eq : ccRuleShown iccIndex regs = .ok ⟨iccIndex,
    (readEType (Mem.rawWords (regs.mbox.loadWords (ccRuleAddr iccIndex) 3) 0)).setWidth 16,
    Mem.rawWords (regs.mbox.loadWords (ccRuleAddr iccIndex) 3) 1⟩ := by
  rw [ccRuleShown, gpy2xxMsecGetIngCcRule, exec_locked, Fallible.exec_bind_ok (exec_mboxReadWords regs _ 3)]
  rfl

/-- The slot of a rule that has just been written. -/
theorem ccRuleShown_same :
    ccRuleShown inCc.iccIndex { regs with mbox := regs.mbox.storeWords (ccRuleAddr inCc.iccIndex) inCc.words } =
      .ok { inCc with payloadEType := inCc.payloadEType.extractLsb' 0 8 ++ inCc.payloadEType.extractLsb' 8 8 } := by
  have hwords : (regs.mbox.storeWords (ccRuleAddr inCc.iccIndex) inCc.words).loadWords (ccRuleAddr inCc.iccIndex) 3 =
      inCc.words := Mem.loadWords_storeWords inCc.words
  rw [ccRuleShown_eq, hwords, ← readEType_swapped]
  rfl

theorem ccRuleShown_other (hne : iccIndex ≠ inCc.iccIndex) :
    ccRuleShown iccIndex { regs with mbox := regs.mbox.storeWords (ccRuleAddr inCc.iccIndex) inCc.words } =
      ccRuleShown iccIndex regs := by
  have hapart := ccRuleAddr_apart hne
  have hwords : (regs.mbox.storeWords (ccRuleAddr inCc.iccIndex) inCc.words).loadWords (ccRuleAddr iccIndex) 3 =
      regs.mbox.loadWords (ccRuleAddr iccIndex) 3 := by
    have hlen : inCc.words.length = 3 := rfl
    simp only [Mem.loadWords]
    rw [Mem.load32_storeWords_of_disjoint (by omega), Mem.load32_storeWords_of_disjoint (by omega),
      Mem.load32_storeWords_of_disjoint (by omega)]
  rw [ccRuleShown_eq, ccRuleShown_eq, hwords]

end Slots

/-- The round trip works for the Ethertypes whose two bytes are the same. -/
theorem ccRule_roundTrip_iff (inCc : IccMatchParam) : CcRuleRoundTrip inCc ↔
    inCc.payloadEType.extractLsb' 0 8 = inCc.payloadEType.extractLsb' 8 8 := by
  rw [← swapped_eq_self_iff]
  constructor
  · intro h
    have hshown := (h (zeroRegs true) _ exec_configIngCcRule).1
    rw [ccRuleShown_same] at hshown
    exact congrArg IccMatchParam.payloadEType (Except.ok.inj hshown)
  · intro h regs regs' hexec
    obtain rfl := (Prod.mk.inj (exec_configIngCcRule.symm.trans hexec)).2
    refine ⟨?_, fun iccIndex hne => ccRuleShown_other hne⟩
    rw [ccRuleShown_same, h]

/-- The rule for IPv4 is read as one for Ethertype 8. -/
theorem ccRule_ipv4_swapped : ¬∀ inCc, CcRuleRoundTrip inCc := by
  intro h
  have hshown := (h ⟨0, 0x0800, 0⟩ (zeroRegs true) _ exec_configIngCcRule).1
  rw [ccRuleShown_same] at hshown
  exact absurd (congrArg IccMatchParam.payloadEType (Except.ok.inj hshown)) (by decide)

end Gpy2xx
