import MxlUtils.Gphy.Msec.PacketNumber
import MxlUtils.Gphy.Msec.SamRule
import Mathlib.Data.Fin.VecNotation
import Mathlib.Data.Fintype.Basic
import Mathlib.Tactic.FinCases
import Mathlib.Tactic.IntervalCases

/- The matching rules as codes. `SamRuleFields` is a rule with its bit fields,
   `SamRuleFields.param` the structure the caller passes, whose unions the driver
   sees as words, and `decodeSam` reads the words of the table back, in the byte
   orders of the packing. What `get_*_sam_rule` returns decodes to the rule that
   was configured, unless the configuration ran out of memory, which it does not
   report. -/
namespace Gpy2xx
open Effect Effect.Lock Bits
open Bits.Mem (rawWords)

/-! ## The fields of a rule -/

/-- `struct sam_misc_param`; the first five are reserved bits without `SUPPORT_MACSEC_VLAN`. -/
structure SamMiscParam where
  vlanValid : BitVec 1
  qinqFound : BitVec 1
  stagValid : BitVec 1
  qtagValid1 : BitVec 1
  vlanUp : BitVec 3
  controlPacket : BitVec 1
  untagged : BitVec 1
  tagged : BitVec 1
  badTag : BitVec 1
  kayTag : BitVec 1
  sourcePort : BitVec 2
  reserved1 : BitVec 2
  matchPriority : BitVec 4
  reserved2 : BitVec 4
  macsecTciAn : BitVec 8

/-- `struct sam_mask_param`; the VLAN masks are reserved bits without `SUPPORT_MACSEC_VLAN`. The
masks of the MAC bytes are `mac_sa_0_mask` to `mac_sa_5_mask` and the same for `da`. -/
structure SamMaskParam where
  macSaMask : Fin 6 → BitVec 1
  macDaMask : Fin 6 → BitVec 1
  macEtypeMask : BitVec 1
  vlanVldMask : BitVec 1
  qinqFoundMask : BitVec 1
  stagVldMask : BitVec 1
  qtagVldMask : BitVec 1
  vlanUpMask : BitVec 1
  vlanIdMask : BitVec 1
  sourcePortMask : BitVec 1
  ctrlPacketMask : BitVec 1
  vlanUpInnerMask : BitVec 1
  vlanIdInnerMask : BitVec 1
  macsecSciMask : BitVec 1
  tciAnMask : BitVec 8

/-- `struct sam_extn_param` -/
structure SamExtnParam where
  vlanIdInner : BitVec 12
  vlanUpInner : BitVec 3
  reserved1 : BitVec 1
  flowIndex : BitVec 8
  reserved2 : BitVec 8

/-- `struct sa_match_param` with its bit fields. -/
structure SamRuleFields where
  ruleIndex : BitVec 8
  saMac : Bytes 6
  daMac : Bytes 6
  ethType : BitVec 16
  vlanId : BitVec 16
  miscPar : SamMiscParam
  sci : Bytes 8
  maskPar : SamMaskParam
  extnPar : SamExtnParam

/-! ## The unions -/

/-- `misc_par.misc` -/
def SamMiscParam.misc (p : SamMiscParam) : BitVec 32 :=
  packFrom 32 0 [⟨1, p.vlanValid⟩, ⟨1, p.qinqFound⟩, ⟨1, p.stagValid⟩, ⟨1, p.qtagValid1⟩,
    ⟨3, p.vlanUp⟩, ⟨1, p.controlPacket⟩, ⟨1, p.untagged⟩, ⟨1, p.tagged⟩, ⟨1, p.badTag⟩,
    ⟨1, p.kayTag⟩, ⟨2, p.sourcePort⟩, ⟨2, p.reserved1⟩, ⟨4, p.matchPriority⟩, ⟨4, p.reserved2⟩,
    ⟨8, p.macsecTciAn⟩]

def SamMiscParam.ofMisc (w : BitVec 32) : SamMiscParam where
  vlanValid := w.extractLsb' 0 1
  qinqFound := w.extractLsb' 1 1
  stagValid := w.extractLsb' 2 1
  qtagValid1 := w.extractLsb' 3 1
  vlanUp := w.extractLsb' 4 3
  controlPacket := w.extractLsb' 7 1
  untagged := w.extractLsb' 8 1
  tagged := w.extractLsb' 9 1
  badTag := w.extractLsb' 10 1
  kayTag := w.extractLsb' 11 1
  sourcePort := w.extractLsb' 12 2
  reserved1 := w.extractLsb' 14 2
  matchPriority := w.extractLsb' 16 4
  reserved2 := w.extractLsb' 20 4
  macsecTciAn := w.extractLsb' 24 8

/-- `mask_par.mask` -/
def SamMaskParam.mask (p : SamMaskParam) : BitVec 32 :=
  packFrom 32 0 [⟨1, p.macSaMask 0⟩, ⟨1, p.macSaMask 1⟩, ⟨1, p.macSaMask 2⟩, ⟨1, p.macSaMask 3⟩,
    ⟨1, p.macSaMask 4⟩, ⟨1, p.macSaMask 5⟩, ⟨1, p.macDaMask 0⟩, ⟨1, p.macDaMask 1⟩,
    ⟨1, p.macDaMask 2⟩, ⟨1, p.macDaMask 3⟩, ⟨1, p.macDaMask 4⟩, ⟨1, p.macDaMask 5⟩,
    ⟨1, p.macEtypeMask⟩, ⟨1, p.vlanVldMask⟩, ⟨1, p.qinqFoundMask⟩, ⟨1, p.stagVldMask⟩,
    ⟨1, p.qtagVldMask⟩, ⟨1, p.vlanUpMask⟩, ⟨1, p.vlanIdMask⟩, ⟨1, p.sourcePortMask⟩,
    ⟨1, p.ctrlPacketMask⟩, ⟨1, p.vlanUpInnerMask⟩, ⟨1, p.vlanIdInnerMask⟩, ⟨1, p.macsecSciMask⟩,
    ⟨8, p.tciAnMask⟩]

def SamMaskParam.ofMask (w : BitVec 32) : SamMaskParam where
  macSaMask i := w.extractLsb' i 1
  macDaMask i := w.extractLsb' (6 + i) 1
  macEtypeMask := w.extractLsb' 12 1
  vlanVldMask := w.extractLsb' 13 1
  qinqFoundMask := w.extractLsb' 14 1
  stagVldMask := w.extractLsb' 15 1
  qtagVldMask := w.extractLsb' 16 1
  vlanUpMask := w.extractLsb' 17 1
  vlanIdMask := w.extractLsb' 18 1
  sourcePortMask := w.extractLsb' 19 1
  ctrlPacketMask := w.extractLsb' 20 1
  vlanUpInnerMask := w.extractLsb' 21 1
  vlanIdInnerMask := w.extractLsb' 22 1
  macsecSciMask := w.extractLsb' 23 1
  tciAnMask := w.extractLsb' 24 8

/-- `extn_par.extn` -/
def SamExtnParam.extn (p : SamExtnParam) : BitVec 32 :=
  packFrom 32 0 [⟨12, p.vlanIdInner⟩, ⟨3, p.vlanUpInner⟩, ⟨1, p.reserved1⟩, ⟨8, p.flowIndex⟩,
    ⟨8, p.reserved2⟩]

def SamExtnParam.ofExtn (w : BitVec 32) : SamExtnParam where
  vlanIdInner := w.extractLsb' 0 12
  vlanUpInner := w.extractLsb' 12 3
  reserved1 := w.extractLsb' 15 1
  flowIndex := w.extractLsb' 16 8
  reserved2 := w.extractLsb' 24 8

/-- The rule as the driver reads it, with the words of the unions. -/
def SamRuleFields.param (r : SamRuleFields) : SaMatchParam where
  ruleIndex := r.ruleIndex
  saMac := r.saMac
  daMac := r.daMac
  ethType := r.ethType
  vlanId := r.vlanId
  misc := r.miscPar.misc
  sci := r.sci
  mask := r.maskPar.mask
  extn := r.extnPar.extn

/-- The words of the table as a rule: bytes from the lowest on, the Ethertype back to front. -/
def decodeSam (ruleIndex : BitVec 8) (raw : Nat → BitVec 32) : SamRuleFields where
  ruleIndex := ruleIndex
  saMac i := leByte (raw (i / 4)) (i % 4)
  ethType := byteSwap16 ((raw 1).extractLsb' 16 16)
  daMac i := leByte (raw (2 + i / 4)) (i % 4)
  vlanId := (raw 3).extractLsb' 16 16
  miscPar := .ofMisc (raw 4)
  sci i := leByte (raw (5 + i / 4)) (i % 4)
  maskPar := .ofMask (raw 7)
  extnPar := .ofExtn (raw 8)

/-! ## Nothing is lost in the packing -/

theorem SamMiscParam.ofMisc_misc (p : SamMiscParam) : ofMisc p.misc = p := by
  simp [ofMisc, misc, extract_packFrom_cons, extract_packFrom_skip]

theorem SamExtnParam.ofExtn_extn (p : SamExtnParam) : ofExtn p.extn = p := by
  simp [ofExtn, extn, extract_packFrom_cons, extract_packFrom_skip]

theorem SamMaskParam.ofMask_mask (p : SamMaskParam) : ofMask p.mask = p := by
  have hsa : (fun i : Fin 6 => p.mask.extractLsb' i 1) = p.macSaMask := by
    funext i
    fin_cases i <;> simp [mask, extract_packFrom_cons, extract_packFrom_skip]
  have hda : (fun i : Fin 6 => p.mask.extractLsb' (6 + i) 1) = p.macDaMask := by
    funext i
    fin_cases i <;> simp [mask, extract_packFrom_cons, extract_packFrom_skip]
  rw [ofMask, hsa, hda]
  simp [mask, extract_packFrom_cons, extract_packFrom_skip]

theorem byteSwap16_byteSwap16 (a : BitVec 16) : byteSwap16 (byteSwap16 a) = a := by
  apply BitVec.eq_of_getLsbD_eq
  intro i hi
  interval_cases i <;> simp [byteSwap16]

theorem packBytes_eq (b₀ b₁ b₂ b₃ : BitVec 8) :
    packBytes b₀ b₁ b₂ b₃ = packFrom 32 0 [⟨8, b₀⟩, ⟨8, b₁⟩, ⟨8, b₂⟩, ⟨8, b₃⟩] := by
  simp [packBytes, packFrom, BitVec.or_assoc]

/-- Two bytes and a half word. -/
theorem packHalf_eq (b₀ b₁ : BitVec 8) (h : BitVec 16) :
    b₀.setWidth 32 ||| b₁.setWidth 32 <<< 8 ||| h.setWidth 32 <<< 16 =
      packFrom 32 0 [⟨8, b₀⟩, ⟨8, b₁⟩, ⟨16, h⟩] := by
  simp [packFrom, BitVec.or_assoc]

/-- The words of a packed rule decode to the rule. -/
theorem decodeSam_buildSam (r : SamRuleFields) :
    decodeSam r.ruleIndex (rawWords (buildSam r.param)) = r := by
  have hsa : (fun i : Fin 6 => leByte (rawWords (buildSam r.param) (i / 4)) (i % 4)) = r.saMac := by
    funext i
    fin_cases i <;> simp [buildSam, SamRuleFields.param, rawWords, leByte, packBytes_eq, packHalf_eq,
      extract_packFrom_cons, extract_packFrom_skip]
  have hda : (fun i : Fin 6 => leByte (rawWords (buildSam r.param) (2 + i / 4)) (i % 4)) =
      r.daMac := by
    funext i
    fin_cases i <;> simp [buildSam, SamRuleFields.param, rawWords, leByte, packBytes_eq, packHalf_eq,
      extract_packFrom_cons, extract_packFrom_skip]
  have hsci : (fun i : Fin 8 => leByte (rawWords (buildSam r.param) (5 + i / 4)) (i % 4)) = r.sci := by
    funext i
    fin_cases i <;> simp [buildSam, SamRuleFields.param, rawWords, leByte, packBytes_eq,
      extract_packFrom_cons, extract_packFrom_skip]
  have heth : (rawWords (buildSam r.param) 1).extractLsb' 16 16 = byteSwap16 r.ethType := by
    simp [buildSam, SamRuleFields.param, rawWords, packHalf_eq, extract_packFrom_cons,
      extract_packFrom_skip]
  have hvlan : (rawWords (buildSam r.param) 3).extractLsb' 16 16 = r.vlanId := by
    simp [buildSam, SamRuleFields.param, rawWords, packHalf_eq, extract_packFrom_cons,
      extract_packFrom_skip]
  rw [decodeSam, hsa, hda, hsci, heth, hvlan, byteSwap16_byteSwap16]
  simp [buildSam, SamRuleFields.param, rawWords, SamMiscParam.ofMisc_misc,
    SamMaskParam.ofMask_mask, SamExtnParam.ofExtn_extn]

/-- Rules of one index that are packed alike are the same rule. -/
theorem buildSam_injective {r₁ r₂ : SamRuleFields} (hindex : r₁.ruleIndex = r₂.ruleIndex)
    (h : buildSam r₁.param = buildSam r₂.param) : r₁ = r₂ := by
  calc r₁ = decodeSam r₁.ruleIndex (rawWords (buildSam r₁.param)) := (decodeSam_buildSam r₁).symm
    _ = decodeSam r₂.ruleIndex (rawWords (buildSam r₂.param)) := by rw [hindex, h]
    _ = r₂ := decodeSam_buildSam r₂

/-! ## Configured, then read back -/

section ReadBack
variable {dir : MsecDir} {phy : MsecDevice} {s : Regs}

/-- The registers after `config_*_sam_rule`. -/
def afterConfigSamRule (dir : MsecDir) (inSam : SaMatchParam) (s : Regs) : Regs :=
  if s.heapOk then
    { s with mbox := s.mbox.storeWords (samRuleAddr dir inSam.ruleIndex) (buildSam inSam) }
  else s

theorem exec_configSamRule {inSam : SaMatchParam} (hrule : inSam.ruleIndex < phy.nrOfSas) :
    (configSamRule dir phy inSam).exec lockedMem s = (.ok (), afterConfigSamRule dir inSam s) := by
  have hbody : ((configSamRuleBody dir inSam).exec memHandler s).2 =
      afterConfigSamRule dir inSam s := by
    rw [configSamRuleBody, afterConfigSamRule, Fallible.exec_bind_ok (exec_osAlloc s)]
    by_cases hheap : s.heapOk
    · simp [hheap, exec_mboxWriteWords]
    · simp [hheap]
  rw [configSamRule, if_neg (BitVec.not_le.mpr hrule), exec_locked,
    Fallible.exec_bind_ok (Fallible.exec_attempt _ _ _), hbody]
  rfl

/-- The words of a rule's entry. -/
def samEntry (dir : MsecDir) (ruleIndex : BitVec 8) (s : Regs) : List (BitVec 32) :=
  s.mbox.loadWords (samRuleAddr dir ruleIndex) maxSamSizeWords

theorem exec_getSamRule {ruleIndex : BitVec 8} (hrule : ruleIndex < phy.nrOfSas) :
    (getSamRule dir phy ruleIndex).exec lockedMem s =
      (.ok (rawWords (samEntry dir ruleIndex s)), s) := by
  rw [getSamRule, if_neg (BitVec.not_le.mpr hrule), exec_locked,
    Fallible.exec_bind_ok (exec_mboxReadWords _ _ _)]
  rfl

/-- A rule that finds memory is in its entry afterwards. -/
theorem samEntry_afterConfigSamRule {inSam : SaMatchParam} (hheap : s.heapOk) :
    samEntry dir inSam.ruleIndex (afterConfigSamRule dir inSam s) = buildSam inSam := by
  rw [samEntry, afterConfigSamRule, if_pos hheap, ← length_buildSam inSam]
  exact Mem.loadWords_storeWords _

/-- What is read after a successful configuration is the packed rule, and decodes to it. -/
def SamRuleKept (dir : MsecDir) (phy : MsecDevice) (rule : SamRuleFields) (s : Regs) : Prop :=
  ((configSamRule dir phy rule.param).exec lockedMem s).1.isOk →
    ∃ raw, ((getSamRule dir phy rule.ruleIndex).exec lockedMem
        ((configSamRule dir phy rule.param).exec lockedMem s).2).1 = .ok raw ∧
      raw = rawWords (buildSam rule.param) ∧ decodeSam rule.ruleIndex raw = rule

theorem rawWords_injective {l₁ l₂ : List (BitVec 32)} (hlen : l₁.length = l₂.length)
    (h : rawWords l₁ = rawWords l₂) : l₁ = l₂ := by
  apply List.ext_getElem hlen
  intro i h₁ h₂
  have hi := congrFun h i
  rwa [rawWords, rawWords, List.getD_eq_getElem _ _ h₁, List.getD_eq_getElem _ _ h₂] at hi

theorem samRuleKept_iff (rule : SamRuleFields) :
    SamRuleKept dir phy rule s ↔
      rule.ruleIndex ≥ phy.nrOfSas ∨ s.heapOk = true ∨
        samEntry dir rule.ruleIndex s = buildSam rule.param := by
  by_cases hge : rule.ruleIndex ≥ phy.nrOfSas
  · have hconfig : configSamRule dir phy rule.param = throw EINVAL := if_pos hge
    simp [SamRuleKept, hconfig, hge, Except.isOk, Except.toBool]
  · have hlt : rule.ruleIndex < phy.nrOfSas := BitVec.not_le.mp hge
    have hconfig : (configSamRule dir phy rule.param).exec lockedMem s =
        (.ok (), afterConfigSamRule dir rule.param s) := exec_configSamRule hlt
    have hkept : SamRuleKept dir phy rule s ↔
        samEntry dir rule.ruleIndex (afterConfigSamRule dir rule.param s) = buildSam rule.param := by
      rw [SamRuleKept, hconfig, exec_getSamRule hlt]
      constructor
      · intro hread
        obtain ⟨raw, hraw, hpacked, -⟩ := hread rfl
        exact rawWords_injective (by simp [samEntry, length_buildSam])
          ((Except.ok.inj hraw).trans hpacked)
      · intro hentry _
        exact ⟨_, rfl, congrArg rawWords hentry, by rw [hentry, decodeSam_buildSam]⟩
    rw [hkept]
    by_cases hheap : s.heapOk = true
    · have hentry := @samEntry_afterConfigSamRule dir s rule.param hheap
      simp only [hheap, true_or, or_true, iff_true]
      exact hentry
    · simp [hge, hheap, afterConfigSamRule]

/-- **Matching-rule content.** A rule that is configured successfully is read back field by field
if and only if the call rejected it, had memory for it or found it in the table already; and then
rules of one index that differ leave different words. -/
theorem samRule_lossless_iff (dir : MsecDir) (phy : MsecDevice) (rule : SamRuleFields) (s : Regs) :
    (SamRuleKept dir phy rule s ↔
      rule.ruleIndex ≥ phy.nrOfSas ∨ s.heapOk = true ∨
        samEntry dir rule.ruleIndex s = buildSam rule.param) ∧
    ∀ (other : SamRuleFields) (s' : Regs), rule.ruleIndex < phy.nrOfSas →
      other.ruleIndex = rule.ruleIndex → other ≠ rule → s.heapOk → s'.heapOk →
      samEntry dir rule.ruleIndex ((configSamRule dir phy other.param).exec lockedMem s').2 ≠
        samEntry dir rule.ruleIndex ((configSamRule dir phy rule.param).exec lockedMem s).2 := by
  refine ⟨samRuleKept_iff rule, fun other s' hlt hindex hne hheap hheap' hsame => hne ?_⟩
  have hother : other.ruleIndex < phy.nrOfSas := by rwa [hindex]
  have hentry := @samEntry_afterConfigSamRule dir s' other.param hheap'
  rw [@exec_configSamRule dir phy s' other.param hother,
    @exec_configSamRule dir phy s rule.param hlt] at hsame
  refine buildSam_injective hindex ?_
  calc buildSam other.param
      = samEntry dir other.ruleIndex (afterConfigSamRule dir other.param s') := hentry.symm
    _ = samEntry dir rule.ruleIndex (afterConfigSamRule dir rule.param s) := by rw [hindex, hsame]
    _ = buildSam rule.param := samEntry_afterConfigSamRule hheap

/-- A rule on one source address, accepting tagged packets. -/
def taggedRule : SamRuleFields where
  ruleIndex := 3
  saMac := ![0x02, 0x11, 0x22, 0x33, 0x44, 0x55]
  daMac := fun _ => 0
  ethType := 0x88E5
  vlanId := 0
  miscPar := ⟨0, 0, 0, 0, 0, 0, 0, 1, 0, 0, 0, 0, 5, 0, 0⟩
  sci := fun _ => 0
  maskPar := ⟨fun _ => 1, fun _ => 0, 1, 0, 0, 0, 0, 0, 0, 0, 0, 0, 0, 0, 0⟩
  extnPar := ⟨0, 0, 0, 3, 0⟩

theorem samRuleKept_taggedRule : SamRuleKept .ingress ⟨16⟩ taggedRule (zeroRegs true) :=
  (samRule_lossless_iff .ingress ⟨16⟩ taggedRule (zeroRegs true)).1.mpr (.inr (.inl rfl))

/-- Without memory the call returns 0 and the entry holds what it held. -/
theorem not_samRuleKept_no_memory : ¬SamRuleKept .ingress ⟨16⟩ taggedRule (zeroRegs false) := by
  rw [samRuleKept_iff]
  have hentry : samEntry .ingress 3 (zeroRegs false) ≠ buildSam taggedRule.param := by
    intro h
    have hword := congrArg (fun l => rawWords l 8) h
    exact absurd hword (by decide)
  simpa [taggedRule, zeroRegs] using hentry

end ReadBack

end Gpy2xx
