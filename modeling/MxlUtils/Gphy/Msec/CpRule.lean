import MxlUtils.Gphy.Msec.EngineConfig

/- Control packet classification. The table has slots for five types of rules; the
   calls for the two directions differ in its base only. A rule is written to its
   slot, and with it the words that say which comparisons count. -/
namespace Gpy2xx
open Effect Effect.Lock Bits

/-! ## The calls -/

/-- `enum cpc_entry_type` -/
inductive CpcEntryType where
  | daEth
  | daRange
  | daConst44
  | daConst48
  | eth
  | other (v : BitVec 32)
deriving DecidableEq, Repr

/-- `struct cp_class_param` -/
structure CpClassParam where
  cpcIndex : BitVec 8
  cpcType : CpcEntryType
  macDa : Bytes 6
  macDaEnd : Bytes 6
  etherType : BitVec 16
  cpMatchMask : BitVec 32
  cpMatchEn : BitVec 32

/-- `EIPI_EIP_160S_I_32_CLASSIFIER_CONTROL_PACKET_MODULE_BASE` and the egress base. -/
def controlPacketBase : MsecDir → Nat
  | .ingress => 0x00B07800
  | .egress => 0x00B27800

/-- `CP_MATCH_MODE`, `CP_MATCH_ENABLE` -/
def cpMatchMode (dir : MsecDir) : Nat := controlPacketBase dir + 0xF8
def cpMatchEnable (dir : MsecDir) : Nat := controlPacketBase dir + 0xFC

/-- A MAC address in two words. -/
def macWords (mac : Bytes 6) : List (BitVec 32) :=
  [packBytes (mac 0) (mac 1) (mac 2) (mac 3), (mac 4).setWidth 32 ||| (mac 5).setWidth 32 <<< 8]

/-- `_offset` and `_cpc_rule`, or `none` for an index that is refused. -/
def cpcRule (inCpc : CpClassParam) : Option (Nat × List (BitVec 32)) :=
  match inCpc.cpcType with
  | .eth =>
    if inCpc.cpcIndex < 10 ∨ inCpc.cpcIndex < 17 then none
    else some ((inCpc.cpcIndex.toNat - 10) * 4 + 0x50, [(byteSwap16 inCpc.etherType).setWidth 32 <<< 16])
  | .daEth =>
    if inCpc.cpcIndex > 9 then none
    else some (inCpc.cpcIndex.toNat * 8,
      [packBytes (inCpc.macDa 0) (inCpc.macDa 1) (inCpc.macDa 2) (inCpc.macDa 3),
        (inCpc.macDa 4).setWidth 32 ||| (inCpc.macDa 5).setWidth 32 <<< 8 |||
          (byteSwap16 inCpc.etherType).setWidth 32 <<< 16])
  | .daRange => some (0x80, macWords inCpc.macDa ++ macWords inCpc.macDaEnd)
  | .daConst44 => some (0x90, macWords inCpc.macDa)
  | .daConst48 => some (0x98, macWords inCpc.macDa)
  | .other _ => none

/-- The body of the calls, up to the `END` label. -/
def configCpRuleBody (dir : MsecDir) (inCpc : CpClassParam) : Api Unit := do
  let rule ← osAlloc
  if !rule then throw ENOMEM
  else match cpcRule inCpc with
    | none => throw EINVAL
    | some (offset, words) => do
      mboxWriteWords (controlPacketBase dir + offset) words
      phyMboxWrite (cpMatchMode dir) inCpc.cpMatchMask
      phyMboxWrite (cpMatchEnable dir) inCpc.cpMatchEn

def configCpRule (dir : MsecDir) (inCpc : CpClassParam) : Call Unit :=
  match inCpc.cpcType with
  | .other _ => throw EINVAL
  | _ => locked (configCpRuleBody dir inCpc)

def gpy2xxMsecConfigIngCpRule : CpClassParam → Call Unit := configCpRule .ingress

def gpy2xxMsecConfigEgrCpRule : CpClassParam → Call Unit := configCpRule .egress

/-! ## The table -/

/-- The registers of a slot: ten for an address with an Ethertype, seven for an Ethertype alone, and one
each for a range and the two constants. -/
def cpSlot (dir : MsecDir) (cpcType : CpcEntryType) (cpcIndex : BitVec 8) : Option (List Nat) :=
  match cpcType with
  | .daEth => if cpcIndex.toNat ≤ 9 then some (tableAddrs (controlPacketBase dir + cpcIndex.toNat * 8) 2) else none
  | .eth =>
    if 10 ≤ cpcIndex.toNat ∧ cpcIndex.toNat ≤ 16 then
      some (tableAddrs (controlPacketBase dir + ((cpcIndex.toNat - 10) * 4 + 0x50)) 1)
    else none
  | .daRange => some (tableAddrs (controlPacketBase dir + 0x80) 4)
  | .daConst44 => some (tableAddrs (controlPacketBase dir + 0x90) 2)
  | .daConst48 => some (tableAddrs (controlPacketBase dir + 0x98) 2)
  | .other _ => none

/-- An operation that programming a rule has to do with. -/
def CpRuleOp (dir : MsecDir) (inCpc : CpClassParam) (regs : List Nat) (o : RegOp) : Prop :=
  o = .osAlloc ∨ (∃ a ∈ regs, o.mboxWriteAddr = some a) ∨
    o = .mboxWrite32 (cpMatchMode dir) inCpc.cpMatchMask ∨ o = .mboxWrite32 (cpMatchEnable dir) inCpc.cpMatchEn

/-- A rule of the table is accepted and goes to its slot; any other is refused. -/
structure CpRuleExact (dir : MsecDir) (inCpc : CpClassParam) : Prop where
  accepts_iff : (∃ t, (configCpRule dir inCpc).Runs t (.ok ())) ↔ (cpSlot dir inCpc.cpcType inCpc.cpcIndex).isSome
  refused : cpSlot dir inCpc.cpcType inCpc.cpcIndex = none → ∀ t r, (configCpRule dir inCpc).Runs t r →
    (∃ e, r = .error e) ∧ ∀ ev ∈ accesses t, ev.op.mboxWriteAddr = none
  only : ∀ regs, cpSlot dir inCpc.cpcType inCpc.cpcIndex = some regs → ∀ t r, (configCpRule dir inCpc).Runs t r →
    ∀ ev ∈ accesses t, CpRuleOp dir inCpc regs ev.op
  others : ∀ regs, cpSlot dir inCpc.cpcType inCpc.cpcIndex = some regs → ∀ t r, (configCpRule dir inCpc).Runs t r →
    ∀ cpcType cpcIndex regs', cpSlot dir cpcType cpcIndex = some regs' → regs' ≠ regs →
      ∀ ev ∈ accesses t, ∀ a ∈ regs', ev.op.mboxWriteAddr ≠ some a

/-! ## Slots -/

/-- The slot a word of the table belongs to: its offset and its size. -/
def cpSlotAt (o : Nat) : Nat × Nat :=
  if o < 0x50 then (o / 8 * 8, 2)
  else if o < 0x6C then (o, 1)
  else if o < 0x90 then (0x80, 4)
  else if o < 0x98 then (0x90, 2)
  else (0x98, 2)

section Slots
variable {dir : MsecDir} {cpcType cpcType' : CpcEntryType} {cpcIndex cpcIndex' : BitVec 8} {regs regs' : List Nat}

/-- A word of a slot determines the slot. -/
theorem cpSlot_of_mem (h : cpSlot dir cpcType cpcIndex = some regs) {a : Nat} (ha : a ∈ regs) :
    ∃ o < 0xA0, a = controlPacketBase dir + o ∧
      regs = tableAddrs (controlPacketBase dir + (cpSlotAt o).1) (cpSlotAt o).2 := by
  -- each type has its part of the offsets
  have hpart : ∀ off n, regs = tableAddrs (controlPacketBase dir + off) n →
      (∀ k < n, off + 4 * k < 0xA0 ∧ cpSlotAt (off + 4 * k) = (off, n)) →
      ∃ o < 0xA0, a = controlPacketBase dir + o ∧
        regs = tableAddrs (controlPacketBase dir + (cpSlotAt o).1) (cpSlotAt o).2 := by
    intro off n hregs hwords
    obtain ⟨k, hk, rfl⟩ := (mem_tableAddrs).mp (hregs ▸ ha)
    obtain ⟨hlt, hat⟩ := hwords k hk
    refine ⟨off + 4 * k, hlt, Nat.add_assoc _ _ _, ?_⟩
    rw [hat, hregs]
  cases cpcType with
  | daEth =>
    obtain ⟨hle, hregs⟩ := Option.ite_none_right_eq_some.mp h
    refine hpart _ 2 (Option.some.inj hregs).symm fun k hk => ⟨by omega, ?_⟩
    have hoff : (cpcIndex.toNat * 8 + 4 * k) / 8 * 8 = cpcIndex.toNat * 8 := by omega
    rw [cpSlotAt, if_pos (by omega), hoff]
  | eth =>
    obtain ⟨hrange, hregs⟩ := Option.ite_none_right_eq_some.mp h
    refine hpart _ 1 (Option.some.inj hregs).symm fun k hk => ⟨by omega, ?_⟩
    have hoff : (cpcIndex.toNat - 10) * 4 + 0x50 + 4 * k = (cpcIndex.toNat - 10) * 4 + 0x50 := by omega
    rw [hoff, cpSlotAt, if_neg (by omega), if_pos (by omega)]
  | daRange =>
    refine hpart 0x80 4 (Option.some.inj h).symm fun k hk => ⟨by omega, ?_⟩
    rw [cpSlotAt, if_neg (by omega), if_neg (by omega), if_pos (by omega)]
  | daConst44 =>
    refine hpart 0x90 2 (Option.some.inj h).symm fun k hk => ⟨by omega, ?_⟩
    rw [cpSlotAt, if_neg (by omega), if_neg (by omega), if_neg (by omega), if_pos (by omega)]
  | daConst48 =>
    refine hpart 0x98 2 (Option.some.inj h).symm fun k hk => ⟨by omega, ?_⟩
    rw [cpSlotAt, if_neg (by omega), if_neg (by omega), if_neg (by omega), if_neg (by omega)]
  | other v => cases h

/-- Two slots have no word in common. -/
theorem cpSlot_apart (h : cpSlot dir cpcType cpcIndex = some regs) (h' : cpSlot dir cpcType' cpcIndex' = some regs')
    (hne : regs' ≠ regs) {a : Nat} (ha : a ∈ regs') : a ∉ regs := by
  intro hmem
  obtain ⟨o, -, heq, hregs⟩ := cpSlot_of_mem h hmem
  obtain ⟨o', -, heq', hregs'⟩ := cpSlot_of_mem h' ha
  obtain rfl : o = o' := by omega
  exact hne (hregs'.trans hregs.symm)

/-- The match-mode and enable words are behind the slots. -/
theorem lt_cpMatchMode (h : cpSlot dir cpcType cpcIndex = some regs) {a : Nat} (ha : a ∈ regs) :
    a < cpMatchMode dir := by
  obtain ⟨o, hlt, heq, -⟩ := cpSlot_of_mem h ha
  rw [cpMatchMode]
  omega

theorem lt_cpMatchEnable (h : cpSlot dir cpcType cpcIndex = some regs) {a : Nat} (ha : a ∈ regs) :
    a < cpMatchEnable dir := by
  have hmode := lt_cpMatchMode h ha
  rw [cpMatchMode] at hmode
  rw [cpMatchEnable]
  omega

end Slots

/-! ## Runs -/

section Calls
variable {dir : MsecDir} {inCpc : CpClassParam}

/-- Where the index of a rule is taken for an index of its type, the call goes to the slot. -/
theorem cpcRule_eq_slot (h : inCpc.cpcType = .eth → inCpc.cpcIndex < 10) :
    cpSlot dir inCpc.cpcType inCpc.cpcIndex =
      (cpcRule inCpc).map fun rule => tableAddrs (controlPacketBase dir + rule.1) rule.2.length := by
  rw [cpcRule]
  cases htype : inCpc.cpcType with
  | eth =>
    have hlt := BitVec.lt_def.mp (h htype)
    have hten : (10 : BitVec 8).toNat = 10 := rfl
    simp only [cpSlot]
    rw [if_neg (by omega), if_pos (.inl (h htype))]
    rfl
  | daEth =>
    have hnine : (9 : BitVec 8).toNat = 9 := rfl
    simp only [cpSlot]
    by_cases hgt : inCpc.cpcIndex > 9
    · have hnat := BitVec.lt_def.mp hgt
      rw [if_pos hgt, if_neg (by omega)]
      rfl
    · have hnat := BitVec.le_def.mp (BitVec.not_lt.mp hgt)
      rw [if_neg hgt, if_pos (by omega)]
      rfl
  | daRange => rfl
  | daConst44 => rfl
  | daConst48 => rfl
  | other v => rfl

/-- A type of the table is given. -/
theorem configCpRule_eq (h : ∀ v, inCpc.cpcType ≠ .other v) :
    configCpRule dir inCpc = locked (configCpRuleBody dir inCpc) := by
  rw [configCpRule]
  split
  · next v hv => exact absurd hv (h v)
  · rfl

/-- A rule that is refused is an error, and nothing is written. -/
theorem refused_of_cpcRule (h : cpcRule inCpc = none) {t : Trace regSig.locking} {r : Except Errno Unit}
    (hrun : (configCpRule dir inCpc).Runs t r) :
    (∃ e, r = .error e) ∧ ∀ ev ∈ accesses t, ev.op.mboxWriteAddr = none := by
  rw [configCpRule] at hrun
  split at hrun
  · obtain ⟨rfl, rfl⟩ := (Fallible.runs_throw).mp hrun
    exact ⟨⟨_, rfl⟩, by simp⟩
  · obtain ⟨b, t', ht, hrest⟩ := (runs_osAlloc_bind).mp (Runs.accesses_locked hrun)
    have hend : t' = [] ∧ ∃ e, r = .error e := by
      cases b with
      | false =>
        obtain ⟨rfl, rfl⟩ := (Fallible.runs_throw).mp hrest
        exact ⟨rfl, _, rfl⟩
      | true =>
        rw [h] at hrest
        obtain ⟨rfl, rfl⟩ := (Fallible.runs_throw).mp hrest
        exact ⟨rfl, _, rfl⟩
    refine ⟨hend.2, fun ev hev => ?_⟩
    rw [ht, hend.1, List.mem_singleton] at hev
    rw [hev]
    rfl

/-- A rule that is not refused is written where every access succeeds. -/
theorem accepted_of_cpcRule {rule : Nat × List (BitVec 32)} (h : cpcRule inCpc = some rule) :
    ∃ t, (configCpRule dir inCpc).Runs t (.ok ()) := by
  have htype : ∀ v, inCpc.cpcType ≠ .other v := by
    intro v hv
    rw [cpcRule, hv] at h
    cases h
  have hexec : ((configCpRule dir inCpc).exec lockedMem (zeroRegs true)).1 = .ok () := by
    rw [configCpRule_eq htype, exec_locked, configCpRuleBody, Fallible.exec_bind_ok (exec_osAlloc _), h]
    simp [zeroRegs, Fallible.exec_bind_ok (exec_mboxWriteWords _ _ _), Fallible.exec_bind_ok (exec_phyMboxWrite _ _ _)]
  obtain ⟨t, hrun, -⟩ := (Fallible.exec_eq_iff).mp (Prod.ext hexec rfl :
    (configCpRule dir inCpc).exec lockedMem (zeroRegs true) = (.ok (), _))
  exact ⟨t, hrun⟩

/-- What programming a rule does, whatever accesses fail. -/
theorem accesses_configCpRule {rule : Nat × List (BitVec 32)} (h : cpcRule inCpc = some rule) :
    Accesses (CpRuleOp dir inCpc (tableAddrs (controlPacketBase dir + rule.1) rule.2.length))
      (configCpRule dir inCpc) := by
  rw [configCpRule]
  split
  · exact Accesses.throw _
  · refine Accesses.locked (Fallible.All.bind (Fallible.All.always ⟨.inl rfl, fun _ => trivial⟩) fun b => ?_)
    refine Fallible.All.ite (fun _ => Fallible.All.throw _) fun _ => ?_
    rw [h]
    refine Fallible.All.bind (all_mboxWriteWords fun a ha _ _ => .inr (.inl ⟨a, ha, rfl⟩)) fun _ => ?_
    refine Fallible.All.bind ⟨.inr (.inr (.inl rfl)), fun _ => trivial⟩ fun _ => ?_
    exact ⟨.inr (.inr (.inr rfl)), fun _ => trivial⟩

/-- The accesses of a rule leave the other slots alone. -/
theorem not_writes_other {regs regs' : List Nat} {cpcType : CpcEntryType} {cpcIndex : BitVec 8}
    (h : cpSlot dir inCpc.cpcType inCpc.cpcIndex = some regs) (h' : cpSlot dir cpcType cpcIndex = some regs')
    (hne : regs' ≠ regs) {o : RegOp} (ho : CpRuleOp dir inCpc regs o) {a : Nat} (ha : a ∈ regs') :
    o.mboxWriteAddr ≠ some a := by
  intro hwrite
  have hmode := lt_cpMatchMode h' ha
  have henable := lt_cpMatchEnable h' ha
  rcases ho with rfl | ⟨b, hb, hob⟩ | rfl | rfl
  · cases hwrite
  · obtain rfl := Option.some.inj (hob.symm.trans hwrite)
    exact cpSlot_apart h h' hne ha hb
  · exact Nat.ne_of_gt hmode (Option.some.inj hwrite)
  · exact Nat.ne_of_gt henable (Option.some.inj hwrite)

end Calls

/-- Rules stay in the table but for Ethertypes: of their slots none can be programmed, and an index from
17 on is taken for one. -/
theorem cpRuleExact_iff (dir : MsecDir) (inCpc : CpClassParam) :
    CpRuleExact dir inCpc ↔ (inCpc.cpcType = .eth → inCpc.cpcIndex < 10) := by
  constructor
  · intro h htype
    by_contra hge
    have hten : (10 : BitVec 8).toNat = 10 := rfl
    have hnat := BitVec.le_def.mp (BitVec.not_lt.mp hge)
    have haccepts := h.accepts_iff
    rw [htype] at haccepts
    by_cases hlt : inCpc.cpcIndex < 17
    · -- a slot of the table, and the call refuses it
      have hseventeen : (17 : BitVec 8).toNat = 17 := rfl
      have hslot := BitVec.lt_def.mp hlt
      have hnone : cpcRule inCpc = none := by
        rw [cpcRule, htype]
        exact if_pos (.inr hlt)
      obtain ⟨t, hrun⟩ := haccepts.mpr (by rw [cpSlot, if_pos (by omega)]; rfl)
      obtain ⟨e, he⟩ := (refused_of_cpcRule hnone hrun).1
      cases he
    · -- no slot of the table, and the call writes it
      have hseventeen : (17 : BitVec 8).toNat = 17 := rfl
      have hslot := BitVec.le_def.mp (BitVec.not_lt.mp hlt)
      have hsome : cpcRule inCpc = some ((inCpc.cpcIndex.toNat - 10) * 4 + 0x50,
          [(byteSwap16 inCpc.etherType).setWidth 32 <<< 16]) := by
        rw [cpcRule, htype]
        exact if_neg fun hor => hor.elim hge hlt
      have hnone := haccepts.mp (accepted_of_cpcRule hsome)
      rw [cpSlot, if_neg (by omega)] at hnone
      cases hnone
  · intro h
    have hslot : cpSlot dir inCpc.cpcType inCpc.cpcIndex = _ := cpcRule_eq_slot h
    cases hrule : cpcRule inCpc with
    | none =>
      rw [hrule, Option.map_none] at hslot
      refine ⟨?_, fun _ t r => refused_of_cpcRule hrule, ?_, ?_⟩
      · rw [hslot]
        refine ⟨fun ⟨t, hrun⟩ => ?_, fun hsome => by cases hsome⟩
        obtain ⟨e, he⟩ := (refused_of_cpcRule hrule hrun).1
        cases he
      · intro regs hregs
        cases hslot.symm.trans hregs
      · intro regs hregs
        cases hslot.symm.trans hregs
    | some rule =>
      rw [hrule, Option.map_some] at hslot
      have honly : ∀ regs, cpSlot dir inCpc.cpcType inCpc.cpcIndex = some regs → ∀ t r,
          (configCpRule dir inCpc).Runs t r → ∀ ev ∈ accesses t, CpRuleOp dir inCpc regs ev.op := by
        intro regs hregs t r hrun
        obtain rfl := Option.some.inj (hslot.symm.trans hregs)
        exact accesses_configCpRule hrule t r hrun
      refine ⟨?_, ?_, honly, ?_⟩
      · rw [hslot]
        exact ⟨fun _ => rfl, fun _ => accepted_of_cpcRule hrule⟩
      · intro hnone
        cases hslot.symm.trans hnone
      · intro regs hregs t r hrun cpcType cpcIndex regs' hregs' hne ev hev a ha
        exact not_writes_other hregs hregs' hne (honly regs hregs t r hrun ev hev) ha

/-- The first slot for an Ethertype is refused. -/
theorem cpRule_eth_refused : ¬∀ dir inCpc, CpRuleExact dir inCpc := by
  intro h
  have hrule := h .ingress ⟨10, .eth, fun _ => 0, fun _ => 0, 0x888E, 0, 0⟩
  obtain ⟨t, hrun⟩ := hrule.accepts_iff.mpr (by decide)
  obtain ⟨e, he⟩ := (refused_of_cpcRule (by decide) hrun).1
  cases he

end Gpy2xx
