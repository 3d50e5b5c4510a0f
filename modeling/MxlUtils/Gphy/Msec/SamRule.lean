import MxlUtils.Gphy.Msec.TransformRecord

/- The SA matching rules. They are addressed modulo 128 inside their page by every
   call. Like `config_*_tr`, `config_*_sam_rule` returns 0 for every rule index in
   range, whatever became of its writes. -/
namespace Gpy2xx
open Effect Effect.Lock Bits
open Bits.Mem (rawWords)

/-- `EIPI_EIP_160S_I_32_SAM_RULES_PAGE0_MODULE_BASE` and the egress base. -/
def samRulesPage0Base : MsecDir → Nat
  | .ingress => 0x00B04000
  | .egress => 0x00B24000

/-- `IE_MAX_SAM_SIZE_WORDS` -/
def maxSamSizeWords : Nat := 16

/-- The address of a rule, for `config`, `get` and `clear` alike. -/
def samRuleAddr (dir : MsecDir) (ruleIndex : BitVec 8) : Nat :=
  samRulesPage0Base dir + pageOffset ruleIndex + ruleIndex.toNat % 128 * (maxSamSizeWords * 4)

/-- `BYTE_SWAP_16BIT` -/
def byteSwap16 (a : BitVec 16) : BitVec 16 := (a &&& 0xFF00) >>> 8 ||| (a &&& 0x00FF) <<< 8

/-- `(b0 << 0) | (b1 << 8) | (b2 << 16) | (b3 << 24)` -/
def packBytes (b₀ b₁ b₂ b₃ : BitVec 8) : BitVec 32 :=
  b₀.setWidth 32 ||| b₁.setWidth 32 <<< 8 ||| b₂.setWidth 32 <<< 16 ||| b₃.setWidth 32 <<< 24

/-- The nine words of a rule, and zero up to the size of an entry. -/
def buildSam (r : SaMatchParam) : List (BitVec 32) :=
  [packBytes (r.saMac 0) (r.saMac 1) (r.saMac 2) (r.saMac 3),
    (r.saMac 4).setWidth 32 ||| (r.saMac 5).setWidth 32 <<< 8 |||
      (byteSwap16 r.ethType).setWidth 32 <<< 16,
    packBytes (r.daMac 0) (r.daMac 1) (r.daMac 2) (r.daMac 3),
    (r.daMac 4).setWidth 32 ||| (r.daMac 5).setWidth 32 <<< 8 ||| r.vlanId.setWidth 32 <<< 16,
    r.misc,
    packBytes (r.sci 0) (r.sci 1) (r.sci 2) (r.sci 3),
    packBytes (r.sci 4) (r.sci 5) (r.sci 6) (r.sci 7),
    r.mask, r.extn] ++ List.replicate 7 0

/-- The body of `config_*_sam_rule`, up to its `END` label. -/
def configSamRuleBody (dir : MsecDir) (inSam : SaMatchParam) : Api Unit := do
  let sam ← osAlloc
  if !sam then throw ENOMEM
  else mboxWriteWords (samRuleAddr dir inSam.ruleIndex) (buildSam inSam)

def configSamRule (dir : MsecDir) (phy : MsecDevice) (inSam : SaMatchParam) : Call Unit :=
  if inSam.ruleIndex ≥ phy.nrOfSas then throw EINVAL
  else locked do
    -- `ret = 0` after the unlock
    let _ ← (configSamRuleBody dir inSam).attempt
    pure ()

def gpy2xxMsecConfigIngSamRule : MsecDevice → SaMatchParam → Call Unit := configSamRule .ingress

def gpy2xxMsecConfigEgrSamRule : MsecDevice → SaMatchParam → Call Unit := configSamRule .egress

def getSamRule (dir : MsecDir) (phy : MsecDevice) (ruleIndex : BitVec 8) :
    Call (Nat → BitVec 32) :=
  if ruleIndex ≥ phy.nrOfSas then throw EINVAL
  else locked do
    let ws ← mboxReadWords (samRuleAddr dir ruleIndex) maxSamSizeWords
    pure (rawWords ws)

def gpy2xxMsecGetIngSamRule : MsecDevice → BitVec 8 → Call (Nat → BitVec 32) :=
  getSamRule .ingress

def gpy2xxMsecGetEgrSamRule : MsecDevice → BitVec 8 → Call (Nat → BitVec 32) :=
  getSamRule .egress

def clearSamRule (dir : MsecDir) (phy : MsecDevice) (ruleIndex : BitVec 8) : Call Unit :=
  if ruleIndex ≥ phy.nrOfSas then throw EINVAL
  else locked do
    isSamInFlightSafe dir
    let sam ← osAlloc
    if !sam then throw ENOMEM
    else mboxWriteWords (samRuleAddr dir ruleIndex) (List.replicate maxSamSizeWords 0)

def gpy2xxMsecClearIngSamRule : MsecDevice → BitVec 8 → Call Unit := clearSamRule .ingress

def gpy2xxMsecClearEgrSamRule : MsecDevice → BitVec 8 → Call Unit := clearSamRule .egress

/-- `config_*_sam_rule` rejects an index outside the table; else it writes the rule, or runs out of
memory first. -/
theorem runs_configSamRule {dir : MsecDir} {phy : MsecDevice} {inSam : SaMatchParam}
    {t : Trace regSig.locking} {r : Except Errno Unit} (h : (configSamRule dir phy inSam).Runs t r) :
    (inSam.ruleIndex ≥ phy.nrOfSas ∧ t = [] ∧ r = .error EINVAL) ∨
    (inSam.ruleIndex < phy.nrOfSas ∧ r = .ok () ∧
      (accesses t = [⟨.osAlloc, false⟩] ∨
        ∃ t' r', accesses t = ⟨.osAlloc, true⟩ :: t' ∧
          (mboxWriteWords (samRuleAddr dir inSam.ruleIndex) (buildSam inSam)).Runs t' r')) := by
  rw [configSamRule, Fallible.runs_ite] at h
  by_cases hsa : inSam.ruleIndex ≥ phy.nrOfSas
  · rw [if_pos hsa] at h
    exact .inl ⟨hsa, h.1, h.2⟩
  · rw [if_neg hsa] at h
    rcases (Fallible.runs_bind).mp (Lock.Runs.accesses_locked h) with
      ⟨e, he, _⟩ | ⟨t₁, x, t₂, ht, hx, hend⟩
    · obtain ⟨_, _, h₀⟩ := (Fallible.runs_attempt).mp he
      cases h₀
    · obtain ⟨r', hr', _⟩ := (Fallible.runs_attempt).mp hx
      obtain ⟨rfl, hr⟩ := hend
      rw [List.append_nil] at ht
      refine .inr ⟨BitVec.not_le.mp hsa, hr, ?_⟩
      obtain ⟨b, t', rfl, hb⟩ := (runs_osAlloc_bind).mp hr'
      cases b with
      | false =>
        obtain ⟨rfl, -⟩ := (Fallible.runs_throw).mp hb
        exact .inl ht
      | true => exact .inr ⟨t', r', ht, hb⟩

theorem length_buildSam (r : SaMatchParam) : (buildSam r).length = maxSamSizeWords := rfl

end Gpy2xx
