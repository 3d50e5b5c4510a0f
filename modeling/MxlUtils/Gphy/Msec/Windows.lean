import MxlUtils.Gphy.Msec.Addressing

/- The windows of the transform records and of the SA matching rules. The records
   of two SAs never overlap. The records of the upper half run from index 128 on
   past the end of their half page and reach the matching rules of page 1 at
   record 204 (ingress) or 170 (egress); `windowsApart_iff` says that tables up to
   that size, and no larger ones, keep records and rules apart in every run. -/
namespace Gpy2xx
open Effect Effect.Lock Bits

/-- A call that writes the transform record of one SA. -/
inductive RecordCall where
  | config (aesEncrypt : AesEncrypt) (inTr : TransformRec)
  | clear (sa : BitVec 8)

namespace RecordCall

def saIndex : RecordCall → BitVec 8
  | config _ inTr => inTr.saIndex
  | clear sa => sa

/-- `t` is a run of the call, with some result. -/
def Run (dir : MsecDir) (phy : MsecDevice) : RecordCall → Trace regSig.locking → Prop
  | config aesEncrypt inTr, t => ∃ r, (configTr aesEncrypt dir phy inTr).Runs t r
  | clear sa, t => ∃ r, (clearTr dir phy sa).Runs t r

end RecordCall

/-- The addresses a call writes, but for the SAM in-flight handshake that every clear makes. -/
def windowAddrs (dir : MsecDir) (t : Trace regSig.locking) : List Nat :=
  ((accesses t).filterMap (·.op.mboxWriteAddr)).filter (· ≠ samInFlight dir)

/-- No two 32-bit words of the two lists share a byte. -/
def Apart (l l' : List Nat) : Prop := ∀ a ∈ l, ∀ b ∈ l', a + 4 ≤ b ∨ b + 4 ≤ a

/-- The record of an SA in the registers. -/
def recordAt (dir : MsecDir) (m : Mem) (sa : BitVec 8) : List (BitVec 32) :=
  m.loadWords (trWriteAddr dir sa) (maxTrSizeWords dir)

/-- A matching rule in the registers. -/
def ruleAt (dir : MsecDir) (m : Mem) (rule : BitVec 8) : List (BitVec 32) :=
  m.loadWords (samRuleAddr dir rule) maxSamSizeWords

/-- The registers that sequences of configure and clear calls lead to, whatever accesses fail. -/
inductive Reached (dir : MsecDir) (phy : MsecDevice) (m₀ : Mem) : Mem → Prop where
  | start : Reached dir phy m₀ m₀
  | record {m m' : Mem} {c : RecordCall} {t : Trace regSig.locking} :
    Reached dir phy m₀ m → c.Run dir phy t → faultyDev.Path m (accesses t) m' →
      Reached dir phy m₀ m'
  | rule {m m' : Mem} {inSam : SaMatchParam} {t : Trace regSig.locking} {r : Except Errno Unit} :
    Reached dir phy m₀ m → (configSamRule dir phy inSam).Runs t r →
      faultyDev.Path m (accesses t) m' → Reached dir phy m₀ m'

/-- The windows of one direction never collide. -/
structure WindowsApart (dir : MsecDir) (phy : MsecDevice) : Prop where
  records : ∀ (c c' : RecordCall) t t', c.saIndex ≠ c'.saIndex → c.Run dir phy t →
    c'.Run dir phy t' → Apart (windowAddrs dir t) (windowAddrs dir t')
  rules : ∀ (c : RecordCall) inSam t t' r', c.Run dir phy t →
    (configSamRule dir phy inSam).Runs t' r' → Apart (windowAddrs dir t) (windowAddrs dir t')
  unchanged : ∀ m₀ m m' (c : RecordCall) t, Reached dir phy m₀ m → c.Run dir phy t →
    faultyDev.Path m (accesses t) m' →
    (∀ j < phy.nrOfSas, j ≠ c.saIndex → recordAt dir m' j = recordAt dir m j) ∧
    ∀ r < phy.nrOfSas, ruleAt dir m' r = ruleAt dir m r

/-- The number of records that fit below the matching rules of their page. -/
def windowLimit : MsecDir → Nat
  | .ingress => 204
  | .egress => 170

/-- A rule with nothing to match, for `rule`. -/
def plainSam (rule : BitVec 8) : SaMatchParam where
  ruleIndex := rule
  saMac := fun _ => 0
  daMac := fun _ => 0
  ethType := 0
  vlanId := 0
  misc := 0
  sci := fun _ => 0
  mask := 0
  extn := 0

/-! ## Addresses -/

/-- The byte at `x` belongs to the record of SA `i`. -/
def InRecord (dir : MsecDir) (i : BitVec 8) (x : Nat) : Prop :=
  trWriteAddr dir i ≤ x ∧ x < trWriteAddr dir i + 4 * maxTrSizeWords dir

/-- The byte at `x` belongs to matching rule `r`. -/
def InRule (dir : MsecDir) (r : BitVec 8) (x : Nat) : Prop :=
  samRuleAddr dir r ≤ x ∧ x < samRuleAddr dir r + 4 * maxSamSizeWords

/-- Two records have no byte in common, whatever the size of the table. -/
theorem records_apart {dir : MsecDir} {i j : BitVec 8} (hij : i ≠ j) {x : Nat}
    (hx : InRecord dir i x) : ¬ InRecord dir j x := by
  intro hy
  have hi := i.isLt
  have hj := j.isLt
  have hne : i.toNat ≠ j.toNat := fun h => hij (BitVec.eq_of_toNat_eq h)
  cases dir with
  | ingress =>
    simp only [InRecord, trWriteAddr, maxTrSizeBytes, maxTrSizeWords, pageOffset] at hx hy
    split_ifs at hx hy <;> omega
  | egress =>
    simp only [InRecord, trWriteAddr, maxTrSizeBytes, maxTrSizeWords, pageOffset] at hx hy
    split_ifs at hx hy <;> omega

/-- A record below the limit has no byte in common with any matching rule. -/
theorem record_rule_apart {dir : MsecDir} {i r : BitVec 8} (hi : i.toNat < windowLimit dir)
    {x : Nat} (hx : InRecord dir i x) : ¬ InRule dir r x := by
  intro hy
  have hr := r.isLt
  cases dir with
  | ingress =>
    simp only [windowLimit] at hi
    simp only [InRecord, trWriteAddr, maxTrSizeBytes, maxTrSizeWords, pageOffset, trPage0Base] at hx
    simp only [InRule, samRuleAddr, maxSamSizeWords, pageOffset, samRulesPage0Base] at hy
    split_ifs at hx hy <;> omega
  | egress =>
    simp only [windowLimit] at hi
    simp only [InRecord, trWriteAddr, maxTrSizeBytes, maxTrSizeWords, pageOffset, trPage0Base] at hx
    simp only [InRule, samRuleAddr, maxSamSizeWords, pageOffset, samRulesPage0Base] at hy
    split_ifs at hx hy <;> omega

/-- The in-flight register has no byte in common with a record. -/
theorem inFlight_record_apart {dir : MsecDir} {i : BitVec 8} {x : Nat} (hx : InRecord dir i x) :
    x < samInFlight dir ∨ samInFlight dir + 4 ≤ x := by
  have hi := i.isLt
  cases dir with
  | ingress =>
    simp only [InRecord, trWriteAddr, maxTrSizeBytes, maxTrSizeWords, pageOffset, trPage0Base] at hx
    simp only [samInFlight]
    split_ifs at hx <;> omega
  | egress =>
    simp only [InRecord, trWriteAddr, maxTrSizeBytes, maxTrSizeWords, pageOffset, trPage0Base] at hx
    simp only [samInFlight]
    split_ifs at hx <;> omega

theorem inFlight_rule_apart {dir : MsecDir} {r : BitVec 8} {x : Nat} (hx : InRule dir r x) :
    x < samInFlight dir ∨ samInFlight dir + 4 ≤ x := by
  have hr := r.isLt
  cases dir with
  | ingress =>
    simp only [InRule, samRuleAddr, maxSamSizeWords, pageOffset, samRulesPage0Base] at hx
    simp only [samInFlight]
    split_ifs at hx <;> omega
  | egress =>
    simp only [InRule, samRuleAddr, maxSamSizeWords, pageOffset, samRulesPage0Base] at hx
    simp only [samInFlight]
    split_ifs at hx <;> omega

/-- Words of two tables with no byte in common are apart. -/
theorem words_apart {a b n m k l : Nat} (hk : k < n) (hl : l < m)
    (h : ∀ x, a ≤ x → x < a + 4 * n → b ≤ x → x < b + 4 * m → False) :
    a + 4 * k + 4 ≤ b + 4 * l ∨ b + 4 * l + 4 ≤ a + 4 * k := by
  by_contra hover
  exact h (max (a + 4 * k) (b + 4 * l)) (by omega) (by omega) (by omega) (by omega)

/-! ## What the calls write -/

section Writes
variable {dir : MsecDir} {phy : MsecDevice} {t : Trace regSig.locking} {e : Event regSig} {a : Nat}

theorem RecordCall.writes {c : RecordCall} (h : c.Run dir phy t) (he : e ∈ accesses t)
    (ha : e.op.mboxWriteAddr = some a) :
    c.saIndex < phy.nrOfSas ∧
      (a = samInFlight dir ∨ a ∈ tableAddrs (trWriteAddr dir c.saIndex) (maxTrSizeWords dir)) := by
  have haddr := mboxAddr_of_mboxWriteAddr ha
  cases c with
  | config aesEncrypt inTr =>
    obtain ⟨r, h⟩ := h
    rcases runs_configTr h with ⟨_, rfl, -⟩ | ⟨hsa, _, r', hbody⟩
    · cases he
    · refine ⟨hsa, .inr ((mboxAddrs_configTrBody hbody).1.subset ?_)⟩
      exact List.mem_filterMap.mpr ⟨e, he, haddr⟩
  | clear sa =>
    obtain ⟨r, h⟩ := h
    have hinFlight : ∀ {o : RegOp}, Handshake dir o → o.mboxAddr = some a → a = samInFlight dir := by
      intro o ho hoa
      rcases ho with hnone | hsome
      · rw [hnone] at hoa
        cases hoa
      · rw [hsome] at hoa
        exact (Option.some.inj hoa).symm
    rcases runs_clearTr h with ⟨_, rfl⟩ | ⟨hsa, hhs | ⟨t₁, t₂, ht, hhs, hw⟩⟩
    · cases he
    · exact ⟨hsa, .inl (hinFlight (hhs e he) haddr)⟩
    · refine ⟨hsa, ?_⟩
      rw [ht] at he
      rcases List.mem_append.mp he with he | he
      · exact .inl (hinFlight (hhs e he) haddr)
      · have hpre := (mboxAddrs_mboxWriteWords hw).1
        rw [List.length_replicate] at hpre
        exact .inr (hpre.subset (List.mem_filterMap.mpr ⟨e, he, haddr⟩))

theorem writes_configSamRule {inSam : SaMatchParam} {r : Except Errno Unit}
    (h : (configSamRule dir phy inSam).Runs t r) (he : e ∈ accesses t)
    (ha : e.op.mboxWriteAddr = some a) :
    a ∈ tableAddrs (samRuleAddr dir inSam.ruleIndex) maxSamSizeWords := by
  have haddr := mboxAddr_of_mboxWriteAddr ha
  rcases runs_configSamRule h with ⟨_, rfl, -⟩ | ⟨_, _, ht | ⟨t', r', ht, hw⟩⟩
  · cases he
  · rw [ht, List.mem_singleton] at he
    subst he
    cases haddr
  · rw [ht] at he
    rcases List.mem_cons.mp he with rfl | he
    · cases haddr
    · exact (mboxAddrs_mboxWriteWords hw).1.subset (List.mem_filterMap.mpr ⟨e, he, haddr⟩)

theorem mem_windowAddrs : a ∈ windowAddrs dir t ↔
    (∃ e ∈ accesses t, e.op.mboxWriteAddr = some a) ∧ a ≠ samInFlight dir := by
  rw [windowAddrs, List.mem_filter, List.mem_filterMap, decide_eq_true_iff]

/-- A record call changes no byte outside the record of its SA and the in-flight register. -/
theorem RecordCall.frame {c : RecordCall} {m m' : Mem} {x : Nat} (h : c.Run dir phy t)
    (hpath : faultyDev.Path m (accesses t) m')
    (hflight : x < samInFlight dir ∨ samInFlight dir + 4 ≤ x)
    (hrec : c.saIndex < phy.nrOfSas → ¬ InRecord dir c.saIndex x) : m' x = m x := by
  refine faultyDev_frame hpath fun e he b hb => ?_
  obtain ⟨hsa, rfl | hmem⟩ := c.writes h he hb
  · exact hflight
  · have hout := hrec hsa
    obtain ⟨k, hk, rfl⟩ := (mem_tableAddrs).mp hmem
    rw [InRecord] at hout
    omega

/-- With every access successful, `config_*_tr` writes every word of the record. -/
theorem mem_writes_configTr {aesEncrypt : AesEncrypt} {inTr : TransformRec} {ccw : BitVec 32}
    {r : Except Errno TransformRec} (h : (configTr aesEncrypt dir phy inTr).Runs t r)
    (hsa : inTr.saIndex < phy.nrOfSas) (hccw : popCcw dir inTr.ccw = .ok ccw)
    (hok : AllOk (accesses t)) {k : Nat} (hk : k < maxTrSizeWords dir) :
    ∃ e ∈ accesses t, e.op.mboxWriteAddr = some (trWriteAddr dir inTr.saIndex + 4 * k) := by
  rcases runs_configTr h with ⟨hge, _, _⟩ | ⟨_, _, r', hbody⟩
  · exact absurd hge (BitVec.not_le.mpr hsa)
  · rcases runs_configTrBody hbody with ⟨e, he, _, _⟩ | ⟨_, _, ht, _⟩ | ⟨ccw', rnd, t', _, ht, hw⟩
    · rw [he] at hccw
      cases hccw
    · rw [ht] at hok
      cases hok _ List.mem_cons_self
    · rw [ht] at hok ⊢
      have hok' : AllOk t' := fun e he => hok e (List.mem_append_right _ he)
      rcases runs_mboxWriteWords hw with ⟨rfl, _⟩ | ⟨j, hj, e, hr, _⟩
      · have hlen := length_buildTr dir ccw' (ctxIdOf rnd inTr.saIndex) (fillTr aesEncrypt inTr)
        exact ⟨_, List.mem_append_right _ (mem_okWrites (hlen ▸ hk)), rfl⟩
      · cases hr.symm.trans (ok_of_allOk_mboxWriteWords hw hok')

theorem mem_writes_configSamRule {inSam : SaMatchParam} {r : Except Errno Unit}
    (h : (configSamRule dir phy inSam).Runs t r) (hsa : inSam.ruleIndex < phy.nrOfSas)
    (hok : AllOk (accesses t)) {k : Nat} (hk : k < maxSamSizeWords) :
    ∃ e ∈ accesses t, e.op.mboxWriteAddr = some (samRuleAddr dir inSam.ruleIndex + 4 * k) := by
  rcases runs_configSamRule h with ⟨hge, _, _⟩ | ⟨_, _, ht | ⟨t', r', ht, hw⟩⟩
  · exact absurd hge (BitVec.not_le.mpr hsa)
  · rw [ht] at hok
    cases hok _ List.mem_cons_self
  · rw [ht] at hok ⊢
    have hok' : AllOk t' := fun e he => hok e (List.mem_cons_of_mem _ he)
    rcases runs_mboxWriteWords hw with ⟨rfl, _⟩ | ⟨j, hj, e, hr, _⟩
    · exact ⟨_, List.mem_cons_of_mem _ (mem_okWrites (length_buildSam inSam ▸ hk)), rfl⟩
    · cases hr.symm.trans (ok_of_allOk_mboxWriteWords hw hok')

end Writes

/-! ## Tables that keep their windows apart -/

theorem windowsApart_of_le {dir : MsecDir} {phy : MsecDevice}
    (hn : phy.nrOfSas.toNat ≤ windowLimit dir) : WindowsApart dir phy := by
  have hlimit : ∀ {i : BitVec 8}, i < phy.nrOfSas → i.toNat < windowLimit dir :=
    fun hi => Nat.lt_of_lt_of_le (BitVec.lt_def.mp hi) hn
  refine ⟨?_, ?_, ?_⟩
  · intro c c' t t' hne h h' a ha b hb
    obtain ⟨⟨e, he, hea⟩, hflight⟩ := (mem_windowAddrs).mp ha
    obtain ⟨⟨e', he', heb⟩, hflight'⟩ := (mem_windowAddrs).mp hb
    obtain ⟨k, hk, rfl⟩ := (mem_tableAddrs).mp ((c.writes h he hea).2.resolve_left hflight)
    obtain ⟨l, hl, rfl⟩ := (mem_tableAddrs).mp ((c'.writes h' he' heb).2.resolve_left hflight')
    exact words_apart hk hl fun x h₁ h₂ h₃ h₄ => records_apart hne ⟨h₁, h₂⟩ ⟨h₃, h₄⟩
  · intro c inSam t t' r' h h' a ha b hb
    obtain ⟨⟨e, he, hea⟩, hflight⟩ := (mem_windowAddrs).mp ha
    obtain ⟨⟨e', he', heb⟩, -⟩ := (mem_windowAddrs).mp hb
    obtain ⟨hsa, hmem⟩ := c.writes h he hea
    obtain ⟨k, hk, rfl⟩ := (mem_tableAddrs).mp (hmem.resolve_left hflight)
    obtain ⟨l, hl, rfl⟩ := (mem_tableAddrs).mp (writes_configSamRule h' he' heb)
    exact words_apart hk hl fun x h₁ h₂ h₃ h₄ =>
      record_rule_apart (hlimit hsa) ⟨h₁, h₂⟩ ⟨h₃, h₄⟩
  · intro m₀ m m' c t _ h hpath
    refine ⟨fun j _ hj => ?_, fun r _ => ?_⟩
    · refine Mem.loadWords_congr fun x h₁ h₂ => ?_
      have hx : InRecord dir j x := ⟨h₁, h₂⟩
      exact c.frame h hpath (inFlight_record_apart hx) fun _ => records_apart hj hx
    · refine Mem.loadWords_congr fun x h₁ h₂ => ?_
      have hx : InRule dir r x := ⟨h₁, h₂⟩
      exact c.frame h hpath (inFlight_rule_apart hx) fun hsa hin =>
        record_rule_apart (hlimit hsa) hin hx

/-- In a larger table the record at the limit and matching rule 128 share a word. -/
theorem le_of_windowsApart {dir : MsecDir} {phy : MsecDevice} (h : WindowsApart dir phy) :
    phy.nrOfSas.toNat ≤ windowLimit dir := by
  by_contra hn
  have hlimit : windowLimit dir < 256 := by cases dir <;> decide
  have hsa : BitVec.ofNat 8 (windowLimit dir) < phy.nrOfSas := by
    rw [BitVec.lt_def, BitVec.toNat_ofNat, Nat.mod_eq_of_lt hlimit]
    omega
  have hrule : (128#8) < phy.nrOfSas := by
    have hge : 128 < windowLimit dir := by cases dir <;> decide
    rw [BitVec.lt_def]
    exact Nat.lt_of_lt_of_le hge (by omega)
  obtain ⟨ccw, hccw⟩ := popCcw_plainTr dir (BitVec.ofNat 8 (windowLimit dir))
  obtain ⟨t, r, hrun, hok⟩ := exists_allOk_run
    (configTr (fun _ _ _ => 0) dir phy (plainTr (BitVec.ofNat 8 (windowLimit dir))))
  obtain ⟨t', r', hrun', hok'⟩ := exists_allOk_run (configSamRule dir phy (plainSam 128))
  have hk : 16 < maxTrSizeWords dir := by cases dir <;> decide
  have hsame : trWriteAddr dir (BitVec.ofNat 8 (windowLimit dir)) + 4 * 16 =
      samRuleAddr dir 128 + 4 * 0 := by cases dir <;> decide
  have hnot : samRuleAddr dir 128 + 4 * 0 ≠ samInFlight dir := by cases dir <;> decide
  have hw := mem_writes_configTr hrun hsa hccw hok hk
  have hw' := mem_writes_configSamRule (k := 0) hrun' hrule hok' (by decide)
  have hapart := h.rules (.config _ _) _ t t' r' ⟨r, hrun⟩ hrun'
    _ (mem_windowAddrs.mpr ⟨hw, hsame ▸ hnot⟩) _ (mem_windowAddrs.mpr ⟨hw', hnot⟩)
  rw [show trWriteAddr dir (plainTr (BitVec.ofNat 8 (windowLimit dir))).saIndex + 4 * 16 = _
    from hsame] at hapart
  simp only [plainSam] at hapart
  omega

/-- **Windows.** Configuring or clearing one SA touches no other record and no matching rule, in
every run, exactly for tables of at most 204 ingress or 170 egress records. -/
theorem windowsApart_iff (dir : MsecDir) (phy : MsecDevice) :
    WindowsApart dir phy ↔ phy.nrOfSas.toNat ≤ windowLimit dir :=
  ⟨le_of_windowsApart, windowsApart_of_le⟩

/-- A full ingress table: configuring the last SA overwrites a matching rule. -/
theorem not_windowsApart_full : ¬ ∀ (dir : MsecDir) (phy : MsecDevice), WindowsApart dir phy := by
  intro h
  exact absurd (le_of_windowsApart (h .ingress ⟨255⟩)) (by decide)

end Gpy2xx
