import MxlUtils.Gphy.Msec.Windows

/- What a MACsec table write that reports success has done. `config_*_tr` and
   `config_*_sam_rule` set `ret = 0` after the unlock, so every call past the index
   check reports success; `tableWrite_complete_iff` says when that is true. The
   calls that clear and read the same tables return `ret`. -/
namespace Gpy2xx
open Effect Effect.Lock Bits

/-- A request to write a transform record or a matching rule. -/
inductive TableWrite where
  | tr (aesEncrypt : AesEncrypt) (inTr : TransformRec)
  | samRule (inSam : SaMatchParam)

namespace TableWrite

def index : TableWrite → BitVec 8
  | tr _ inTr => inTr.saIndex
  | samRule inSam => inSam.ruleIndex

/-- `t` is a run of the call; `ok` says whether it returned a non-negative value. -/
def Run (dir : MsecDir) (phy : MsecDevice) : TableWrite → Trace regSig.locking → Bool → Prop
  | tr aesEncrypt inTr, t, ok => ∃ r, (configTr aesEncrypt dir phy inTr).Runs t r ∧ ok = r.isOk
  | samRule inSam, t, ok => ∃ r, (configSamRule dir phy inSam).Runs t r ∧ ok = r.isOk

/-- Every word of the table `ws` at `a` was written, and the device said so. -/
def AllWritten (a : Nat) (ws : List (BitVec 32)) (t : RegTrace) : Prop :=
  ∀ k, ∀ hk : k < ws.length, ⟨.mboxWrite32 (a + 4 * k) ws[k], .ok ()⟩ ∈ t

/-- The run wrote every word of the record or rule the request stands for. -/
def Complete (dir : MsecDir) : TableWrite → RegTrace → Prop
  | tr aesEncrypt inTr, t => ∃ ccw rnd, popCcw dir inTr.ccw = .ok ccw ∧ ⟨.rand, rnd⟩ ∈ t ∧
    AllWritten (trWriteAddr dir inTr.saIndex)
      (buildTr dir ccw (ctxIdOf rnd inTr.saIndex) (fillTr aesEncrypt inTr)) t
  | samRule inSam, t => AllWritten (samRuleAddr dir inSam.ruleIndex) (buildSam inSam) t

/-- The request can be put in a record: a known suite, and on egress an association number below
four. -/
def Supported (dir : MsecDir) : TableWrite → Prop
  | tr _ inTr => (∀ v, inTr.ccw.caType ≠ .other v) ∧ (dir = .egress → inTr.ccw.an.toNat < 4)
  | samRule _ => True

end TableWrite

/-- A run of the write loop wrote every word exactly if no access of it failed. -/
theorem allWritten_iff_allOk {a : Nat} {ws : List (BitVec 32)} {t : RegTrace}
    {r : Except Errno Unit} (h : (mboxWriteWords a ws).Runs t r) :
    TableWrite.AllWritten a ws t ↔ AllOk t := by
  rcases runs_mboxWriteWords h with ⟨rfl, _⟩ | ⟨j, hj, e, _, rfl⟩
  · exact ⟨fun _ => allOk_okWrites a ws, fun _ k hk => mem_okWrites hk⟩
  · constructor
    · intro hall
      -- the word whose write failed is written nowhere else
      rcases List.mem_append.mp (hall j hj) with hmem | hmem
      · obtain ⟨k, hk, hkj⟩ := (mem_tableAddrs).mp (addr_of_mem_okWrites hmem)
        rw [List.length_take] at hk
        omega
      · cases List.mem_singleton.mp hmem
    · intro hok
      cases hok _ (List.mem_append_right _ List.mem_cons_self)

/-- Accesses before the loop that write nothing do not matter. -/
theorem allWritten_append {a : Nat} {ws : List (BitVec 32)} {t₁ t₂ : RegTrace}
    (h : ∀ e ∈ t₁, e.op.mboxWriteAddr = none) :
    TableWrite.AllWritten a ws (t₁ ++ t₂) ↔ TableWrite.AllWritten a ws t₂ := by
  constructor
  · intro hall k hk
    rcases List.mem_append.mp (hall k hk) with hmem | hmem
    · cases h _ hmem
    · exact hmem
  · intro hall k hk
    exact List.mem_append_right _ (hall k hk)

section Complete
variable {dir : MsecDir} {phy : MsecDevice} {t : Trace regSig.locking} {ok : Bool}

/-- A rejected request reports failure and touches nothing. -/
theorem TableWrite.Run.rejected {w : TableWrite} (h : w.Run dir phy t ok)
    (hge : w.index ≥ phy.nrOfSas) : ok = false := by
  cases w with
  | tr aesEncrypt inTr =>
    obtain ⟨r, hrun, rfl⟩ := h
    rcases runs_configTr hrun with ⟨_, _, rfl⟩ | ⟨hlt, _, _⟩
    · rfl
    · exact absurd hge (BitVec.not_le.mpr hlt)
  | samRule inSam =>
    obtain ⟨r, hrun, rfl⟩ := h
    rcases runs_configSamRule hrun with ⟨_, _, rfl⟩ | ⟨hlt, _, _⟩
    · rfl
    · exact absurd hge (BitVec.not_le.mpr hlt)

/-- A request that is not rejected reports success, whatever happened. -/
theorem TableWrite.Run.accepted {w : TableWrite} (h : w.Run dir phy t ok)
    (hlt : w.index < phy.nrOfSas) : ok = true := by
  cases w with
  | tr aesEncrypt inTr =>
    obtain ⟨r, hrun, rfl⟩ := h
    rcases runs_configTr hrun with ⟨hge, _, _⟩ | ⟨_, rfl, _⟩
    · exact absurd hge (BitVec.not_le.mpr hlt)
    · rfl
  | samRule inSam =>
    obtain ⟨r, hrun, rfl⟩ := h
    rcases runs_configSamRule hrun with ⟨hge, _, _⟩ | ⟨_, rfl, _⟩
    · exact absurd hge (BitVec.not_le.mpr hlt)
    · rfl

/-- The record or rule is complete exactly if it could be built and no access failed. -/
theorem TableWrite.Run.complete_iff {w : TableWrite} (h : w.Run dir phy t ok)
    (hlt : w.index < phy.nrOfSas) :
    w.Complete dir (accesses t) ↔ w.Supported dir ∧ AllOk (accesses t) := by
  cases w with
  | tr aesEncrypt inTr =>
    obtain ⟨r, hrun, -⟩ := h
    rw [Complete, Supported, ← popCcw_ok_iff]
    rcases runs_configTr hrun with ⟨hge, _, _⟩ | ⟨_, _, r', hbody⟩
    · exact absurd hge (BitVec.not_le.mpr hlt)
    · rcases runs_configTrBody hbody with
        ⟨e, he, _, _⟩ | ⟨ccw, hccw, ht, _⟩ | ⟨ccw, rnd, t', hccw, ht, hw⟩
      · simp [he]
      · rw [ht]
        constructor
        · intro hcomplete
          obtain ⟨_, _, _, hrnd, _⟩ := hcomplete
          cases List.mem_singleton.mp hrnd
        · intro hok
          cases hok.2 _ List.mem_cons_self
      · have hpre : ∀ e ∈ ([⟨.osAlloc, true⟩, ⟨.rand, rnd⟩] : RegTrace),
            e.op.mboxWriteAddr = none := by simp [RegOp.mboxWriteAddr]
        -- the loop draws no random number, so the record is the one built from `rnd`
        have hrnd : ∀ rnd', ⟨.rand, rnd'⟩ ∈ accesses t → rnd' = rnd := by
          intro rnd' hmem
          rw [ht] at hmem
          rcases List.mem_append.mp hmem with hmem | hmem
          · simpa using hmem
          · have hwrites : (mboxWriteWords (trWriteAddr dir inTr.saIndex) (buildTr dir ccw
                (ctxIdOf rnd inTr.saIndex) (fillTr aesEncrypt inTr))).All fun (o : RegOp) => o.mboxWriteAddr.isSome :=
              all_mboxWriteWords fun _ _ _ _ => rfl
            cases Prog.Runs.all hw hwrites _ hmem
        rw [ht] at hrnd ⊢
        rw [allOk_append_iff (by simp [AllOk, RegOp.succeeded]), ← allWritten_iff_allOk hw,
          ← allWritten_append hpre]
        constructor
        · intro hcomplete
          obtain ⟨ccw', rnd', hccw', hmem, hall⟩ := hcomplete
          rw [hccw] at hccw'
          cases hccw'
          cases hrnd rnd' hmem
          exact ⟨⟨ccw, hccw⟩, hall⟩
        · intro hok
          exact ⟨ccw, rnd, hccw, by simp, hok.2⟩
  | samRule inSam =>
    obtain ⟨r, hrun, -⟩ := h
    rw [Complete, Supported, true_and]
    rcases runs_configSamRule hrun with ⟨hge, _, _⟩ | ⟨_, _, ht | ⟨t', r', ht, hw⟩⟩
    · exact absurd hge (BitVec.not_le.mpr hlt)
    · rw [ht]
      constructor
      · intro hall
        cases List.mem_singleton.mp (hall 0 (Nat.succ_pos _))
      · intro hok
        cases hok _ List.mem_cons_self
    · have hpre : ∀ e ∈ ([⟨.osAlloc, true⟩] : RegTrace), e.op.mboxWriteAddr = none := by
        simp [RegOp.mboxWriteAddr]
      have happ : accesses t = [⟨.osAlloc, true⟩] ++ t' := ht
      rw [happ, allOk_append_iff (by simp [AllOk, RegOp.succeeded]), allWritten_append hpre]
      exact allWritten_iff_allOk hw

/-- **A table write that reports success.** Whatever fails, the reported success means a complete
record or rule exactly if the call was rejected, or the parameters fit a record and neither the
allocation nor a mailbox write failed. -/
theorem tableWrite_complete_iff (dir : MsecDir) (phy : MsecDevice) (w : TableWrite)
    (t : Trace regSig.locking) (ok : Bool) (h : w.Run dir phy t ok) :
    (ok = true → w.Complete dir (accesses t)) ↔
      (w.index ≥ phy.nrOfSas ∨ (w.Supported dir ∧ AllOk (accesses t))) := by
  by_cases hge : w.index ≥ phy.nrOfSas
  · have hok := h.rejected hge
    simp [hge, hok]
  · have hlt := BitVec.not_le.mp hge
    rw [h.complete_iff hlt, h.accepted hlt]
    simp [hge]

/-- A run of `config_ing_sam_rule` whose allocation failed: reported as success. -/
theorem samRule_run_no_memory : (TableWrite.samRule (plainSam 0)).Run .ingress ⟨1⟩
    [⟨.lock, ()⟩, ⟨.acc .osAlloc, false⟩, ⟨.unlock, ()⟩] true :=
  ⟨.ok (), ⟨(), _, rfl, false, _, rfl, (), _, rfl, rfl, rfl⟩, rfl⟩

theorem samRule_no_memory_iff :
    (true = true → (TableWrite.samRule (plainSam 0)).Complete .ingress [⟨.osAlloc, false⟩]) ↔
      ((0#8) ≥ (1#8) ∨ ((TableWrite.samRule (plainSam 0)).Supported .ingress ∧
        AllOk [⟨.osAlloc, false⟩])) :=
  tableWrite_complete_iff .ingress ⟨1⟩ (.samRule (plainSam 0)) _ true samRule_run_no_memory

/-- The rule is not in the device, and the call returned 0. -/
theorem not_tableWrite_complete : ¬ ∀ (dir : MsecDir) (phy : MsecDevice) (w : TableWrite)
    (t : Trace regSig.locking) (ok : Bool), w.Run dir phy t ok → ok = true →
      w.Complete dir (accesses t) := by
  intro h
  have hall := h .ingress ⟨1⟩ _ _ true samRule_run_no_memory rfl
  cases List.mem_singleton.mp (hall 0 (by decide))

end Complete

end Gpy2xx
