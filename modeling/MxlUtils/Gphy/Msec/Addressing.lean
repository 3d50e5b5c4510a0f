import MxlUtils.Gphy.Msec.SamRule

/- Where the MACsec table calls access the mailbox. Writers of a transform record
   place it by the whole SA index past the page offset, readers by the index
   modulo 128; `addressingAgrees_iff` says that the two agree exactly on the lower
   half of the table. The second part is about windows: which tables stay free of
   overlap between records and matching rules, and what that means for the
   registers over whole runs. -/
namespace Gpy2xx
open Effect Effect.Lock Bits

/-- The addresses of a call, but for the SAM in-flight handshake, which is no part of a record. -/
def recordAddrs (dir : MsecDir) (t : Trace regSig.locking) : List Nat :=
  (mboxAddrs (accesses t)).filter (· ≠ samInFlight dir)

/-- The record words `get_*_pn` reads, placed by the control word it read. -/
def pnWords : RegTrace → List Nat
  | ⟨.mboxRead32 _, .ok ccw⟩ :: _ =>
    match snWord ccw with
    | some k => [0, k, k + 1]
    | none => [0]
  | _ => [0]

/-- Word `k` of the record of SA `sa` is at `W k` for every call: what `config` writes in order is
what the others read, update and clear. -/
structure AddressingAgrees (phy : MsecDevice) (dir : MsecDir) (sa : BitVec 8) (W : Nat → Nat) :
    Prop where
  config : ∀ aesEncrypt inTr t r, inTr.saIndex = sa → (configTr aesEncrypt dir phy inTr).Runs t r →
    mboxAddrs (accesses t) <+: (List.range (maxTrSizeWords dir)).map W
  configAll : ∀ aesEncrypt inTr t r ccw, inTr.saIndex = sa → popCcw dir inTr.ccw = .ok ccw →
    (configTr aesEncrypt dir phy inTr).Runs t r → AllOk (accesses t) →
    mboxAddrs (accesses t) = (List.range (maxTrSizeWords dir)).map W
  clear : ∀ t r, (clearTr dir phy sa).Runs t r →
    recordAddrs dir t <+: (List.range (maxTrSizeWords dir)).map W
  getTr : ∀ t r, (getTr dir phy sa).Runs t r →
    mboxAddrs (accesses t) <+: (List.range (maxTrSizeWords dir)).map W
  getPn : ∀ t r, (getPn dir phy sa).Runs t r →
    mboxAddrs (accesses t) <+: (pnWords (accesses t)).map W
  updateSaCw : dir = .egress → ∀ inTr t r, inTr.saIndex = sa →
    (gpy2xxMsecUpdateEgrSaCw phy inTr).Runs t r →
    mboxAddrs (accesses t) <+: (saUpdWord inTr.ccw).toList.map W

/-! ## Addresses of one record -/

/-- The in-flight register lies outside the records a writer can address. -/
theorem ne_samInFlight_of_mem {dir : MsecDir} {sa : BitVec 8} {a : Nat}
    (h : a ∈ tableAddrs (trWriteAddr dir sa) (maxTrSizeWords dir)) : a ≠ samInFlight dir := by
  obtain ⟨k, hk, rfl⟩ := List.mem_map.mp h
  have hk := List.mem_range.mp hk
  have hsa := sa.isLt
  cases dir with
  | ingress =>
    simp only [maxTrSizeWords] at hk
    simp only [trWriteAddr, maxTrSizeBytes, maxTrSizeWords, trPage0Base, pageOffset, samInFlight]
    split_ifs <;> omega
  | egress =>
    simp only [maxTrSizeWords] at hk
    simp only [trWriteAddr, maxTrSizeBytes, maxTrSizeWords, trPage0Base, pageOffset, samInFlight]
    split_ifs <;> omega

/-- A prefix of the record's addresses is untouched by the filter. -/
theorem filter_of_prefix {dir : MsecDir} {sa : BitVec 8} {l : List Nat}
    (h : l <+: tableAddrs (trWriteAddr dir sa) (maxTrSizeWords dir)) :
    l.filter (· ≠ samInFlight dir) = l := by
  refine List.filter_eq_self.mpr fun a ha => ?_
  exact decide_eq_true (ne_samInFlight_of_mem (h.subset ha))

/-! ## Addresses of the calls -/

section Calls
variable {aesEncrypt : AesEncrypt} {dir : MsecDir} {phy : MsecDevice} {inTr : TransformRec}
variable {sa : BitVec 8} {t : Trace regSig.locking}

/-- The body of `config_*_tr` accesses the record in order, all of it if nothing fails. -/
theorem mboxAddrs_configTrBody {t : RegTrace} {r : Except Errno Unit}
    (h : (configTrBody aesEncrypt dir inTr).Runs t r) :
    mboxAddrs t <+: tableAddrs (trWriteAddr dir inTr.saIndex) (maxTrSizeWords dir) ∧
      (AllOk t → (∃ ccw, popCcw dir inTr.ccw = .ok ccw) →
        mboxAddrs t = tableAddrs (trWriteAddr dir inTr.saIndex) (maxTrSizeWords dir)) := by
  rcases runs_configTrBody h with ⟨e, he, rfl, -⟩ | ⟨ccw, hccw, rfl, -⟩ | ⟨ccw, rnd, t', hccw, rfl, hw⟩
  · refine ⟨List.nil_prefix, fun _ hok => ?_⟩
    obtain ⟨ccw, hccw⟩ := hok
    rw [he] at hccw
    cases hccw
  · refine ⟨List.nil_prefix, fun hok _ => ?_⟩
    have hfalse := hok _ List.mem_cons_self
    cases hfalse
  · have hlen := length_buildTr dir ccw (ctxIdOf rnd inTr.saIndex) (fillTr aesEncrypt inTr)
    have haddr := mboxAddrs_mboxWriteWords hw
    rw [hlen] at haddr
    refine ⟨haddr.1, fun hok _ => haddr.2 ?_⟩
    exact ok_of_allOk_mboxWriteWords hw fun e he => hok e (List.mem_append_right _ he)

theorem mboxAddrs_configTr {r : Except Errno TransformRec}
    (h : (configTr aesEncrypt dir phy inTr).Runs t r) :
    mboxAddrs (accesses t) <+: tableAddrs (trWriteAddr dir inTr.saIndex) (maxTrSizeWords dir) := by
  rcases runs_configTr h with ⟨_, rfl, -⟩ | ⟨_, _, r', hbody⟩
  · exact List.nil_prefix
  · exact (mboxAddrs_configTrBody hbody).1

theorem mboxAddrs_configTr_of_allOk {r : Except Errno TransformRec} {ccw : BitVec 32}
    (h : (configTr aesEncrypt dir phy inTr).Runs t r) (hsa : inTr.saIndex < phy.nrOfSas)
    (hccw : popCcw dir inTr.ccw = .ok ccw) (hok : AllOk (accesses t)) :
    mboxAddrs (accesses t) = tableAddrs (trWriteAddr dir inTr.saIndex) (maxTrSizeWords dir) := by
  rcases runs_configTr h with ⟨hge, _, _⟩ | ⟨_, _, r', hbody⟩
  · exact absurd hge (BitVec.not_le.mpr hsa)
  · exact (mboxAddrs_configTrBody hbody).2 hok ⟨ccw, hccw⟩

/-- Accesses of the handshake leave no record address. -/
theorem filter_handshake {t : RegTrace} (h : ∀ e ∈ t, Handshake dir e.op) :
    (mboxAddrs t).filter (· ≠ samInFlight dir) = [] := by
  refine List.filter_eq_nil_iff.mpr fun a ha => ?_
  obtain ⟨e, he, hea⟩ := List.mem_filterMap.mp ha
  rcases h e he with hnone | hsome
  · rw [hnone] at hea
    cases hea
  · rw [hsome] at hea
    cases hea
    simp

theorem recordAddrs_clearTr {r : Except Errno Unit} (h : (clearTr dir phy sa).Runs t r) :
    recordAddrs dir t <+: tableAddrs (trWriteAddr dir sa) (maxTrSizeWords dir) := by
  rcases runs_clearTr h with ⟨_, rfl⟩ | ⟨_, hhs | ⟨t₁, t₂, ht, hhs, hw⟩⟩
  · exact List.nil_prefix
  · rw [recordAddrs, filter_handshake hhs]
    exact List.nil_prefix
  · have hpre := (mboxAddrs_mboxWriteWords hw).1
    rw [List.length_replicate] at hpre
    rw [recordAddrs, ht, mboxAddrs_append, List.filter_append, filter_handshake hhs,
      filter_of_prefix hpre]
    exact hpre

theorem mboxAddrs_getTr {r : Except Errno (Nat → BitVec 32)} (h : (getTr dir phy sa).Runs t r) :
    mboxAddrs (accesses t) <+: tableAddrs (trReadAddr dir sa) (maxTrSizeWords dir) := by
  rw [getTr, Fallible.runs_ite] at h
  by_cases hsa : sa ≥ phy.nrOfSas
  · rw [if_pos hsa] at h
    rw [h.1]
    exact List.nil_prefix
  · rw [if_neg hsa] at h
    rcases (Fallible.runs_bind).mp (Lock.Runs.accesses_locked h) with
      ⟨e, he, _⟩ | ⟨t₁, ws, t₂, ht, hws, hend⟩
    · exact (mboxAddrs_mboxReadWords he).1
    · obtain ⟨rfl, -⟩ := hend
      rw [ht, List.append_nil]
      exact (mboxAddrs_mboxReadWords hws).1

theorem mboxAddrs_getTr_of_allOk {r : Except Errno (Nat → BitVec 32)}
    (h : (getTr dir phy sa).Runs t r) (hsa : sa < phy.nrOfSas) (hok : AllOk (accesses t)) :
    mboxAddrs (accesses t) = tableAddrs (trReadAddr dir sa) (maxTrSizeWords dir) := by
  rw [getTr, if_neg (BitVec.not_le.mpr hsa)] at h
  rcases (Fallible.runs_bind).mp (Lock.Runs.accesses_locked h) with
    ⟨e, he, _⟩ | ⟨t₁, ws, t₂, ht, hws, hend⟩
  · cases ok_of_allOk_mboxReadWords he hok
  · obtain ⟨rfl, -⟩ := hend
    rw [ht, List.append_nil]
    exact (mboxAddrs_mboxReadWords hws).2 ⟨ws, rfl⟩

/-- `get_*_pn` reads the control word and the sequence words that word places. -/
theorem mboxAddrs_getPn {r : Except Errno (BitVec 64)} (h : (getPn dir phy sa).Runs t r) :
    mboxAddrs (accesses t) <+: (pnWords (accesses t)).map (trReadAddr dir sa + 4 * ·) := by
  rw [getPn, Fallible.runs_ite] at h
  by_cases hsa : sa ≥ phy.nrOfSas
  · rw [if_pos hsa] at h
    rw [h.1]
    exact List.nil_prefix
  · rw [if_neg hsa] at h
    obtain ⟨x, hbody, -⟩ := Lock.Runs.accesses_lockedExit h
    generalize accesses t = t' at hbody
    rcases (runs_phyMboxRead_bind).mp hbody with ⟨e, rfl, -⟩ | ⟨ccw, t₁, rfl, hrest⟩
    · exact List.prefix_rfl
    · rw [pnWords]
      cases hk : snWord ccw with
      | none =>
        rw [hk] at hrest
        obtain ⟨rfl, -⟩ := hrest
        exact List.prefix_rfl
      | some k =>
        rw [hk] at hrest
        refine List.cons_prefix_cons.mpr ⟨rfl, ?_⟩
        rcases (runs_phyMboxRead_bind).mp hrest with ⟨e, rfl, -⟩ | ⟨sn0, t₂, rfl, hsn⟩
        · exact ⟨_, rfl⟩
        · refine List.cons_prefix_cons.mpr ⟨rfl, ?_⟩
          rw [Fallible.runs_ite] at hsn
          by_cases h64 : sn64 ccw
          · rw [if_pos h64] at hsn
            rcases (runs_phyMboxRead_bind).mp hsn with ⟨e, rfl, -⟩ | ⟨sn1, t₃, rfl, hend⟩
            · exact List.prefix_rfl
            · obtain ⟨rfl, -⟩ := hend
              exact List.prefix_rfl
          · rw [if_neg h64] at hsn
            obtain ⟨rfl, -⟩ := hsn
            exact List.nil_prefix

theorem mboxAddrs_updateSaCw {r : Except Errno Unit}
    (h : (gpy2xxMsecUpdateEgrSaCw phy inTr).Runs t r) :
    mboxAddrs (accesses t) <+:
      (saUpdWord inTr.ccw).toList.map (trReadAddr .egress inTr.saIndex + 4 * ·) := by
  rw [gpy2xxMsecUpdateEgrSaCw, Fallible.runs_ite] at h
  by_cases hsa : inTr.saIndex ≥ phy.nrOfSas
  · rw [if_pos hsa] at h
    rw [h.1]
    exact List.nil_prefix
  · rw [if_neg hsa] at h
    obtain ⟨x, hbody, -⟩ := Lock.Runs.accesses_lockedExit h
    cases hk : saUpdWord inTr.ccw with
    | none =>
      rw [hk] at hbody
      rw [hbody.1]
      exact List.nil_prefix
    | some k =>
      rw [hk] at hbody
      rcases (runs_phyMboxWrite_bind).mp hbody with ⟨e, ht, -⟩ | ⟨_, t', ht, hend⟩
      · rw [ht]
        exact List.prefix_rfl
      · rw [ht, hend.1]
        exact List.prefix_rfl

end Calls

/-! ## Agreement of the writers and the readers -/

/-- A record that every suite check lets through, for `sa`. -/
def plainTr (sa : BitVec 8) : TransformRec where
  saIndex := sa
  ccw := ⟨.gcmAes128, 0, .sn32Bit⟩
  cp := ⟨fun _ => 0, fun _ => 0, fun _ => 0, ⟨fun _ => 0, fun _ => 0⟩⟩
  pnRc := ⟨0, 0, 0⟩
  saUpdate := ⟨0, 0, 0, 0, 0⟩

theorem popCcw_plainTr (dir : MsecDir) (sa : BitVec 8) :
    ∃ ccw, popCcw dir (plainTr sa).ccw = .ok ccw := by
  cases dir with
  | ingress => exact ⟨_, rfl⟩
  | egress => exact ⟨_, rfl⟩

/-- A run of any call in which every access succeeds. -/
theorem exists_allOk_run {α : Type} (x : Call α) : ∃ t r, x.Runs t r ∧ AllOk (accesses t) := by
  obtain ⟨t, r, h, hans⟩ := Lock.exists_runs okAnswer x
  refine ⟨t, r, h, fun e he => ?_⟩
  rw [hans e he]
  exact succeeded_okAnswer e.op

theorem addressingAgrees_of_lt {phy : MsecDevice} {dir : MsecDir} {sa : BitVec 8}
    (hsa : sa < phy.nrOfSas) (hlow : sa.toNat < 128) :
    AddressingAgrees phy dir sa (trWriteAddr dir sa + 4 * ·) := by
  have hread := (trReadAddr_eq_trWriteAddr_iff dir sa).mpr hlow
  refine ⟨?_, ?_, ?_, ?_, ?_, ?_⟩
  · intro aesEncrypt inTr t r hi h
    rw [← hi]
    exact mboxAddrs_configTr h
  · intro aesEncrypt inTr t r ccw hi hccw h hok
    rw [← hi] at hsa ⊢
    exact mboxAddrs_configTr_of_allOk h hsa hccw hok
  · intro t r h
    exact recordAddrs_clearTr h
  · intro t r h
    rw [← hread]
    exact mboxAddrs_getTr h
  · intro t r h
    rw [← hread]
    exact mboxAddrs_getPn h
  · intro hdir inTr t r hi h
    subst hdir
    rw [← hread, ← hi]
    exact mboxAddrs_updateSaCw h

theorem lt_of_addressingAgrees {phy : MsecDevice} {dir : MsecDir} {sa : BitVec 8} {W : Nat → Nat}
    (hsa : sa < phy.nrOfSas) (hW : AddressingAgrees phy dir sa W) : sa.toNat < 128 := by
  obtain ⟨ccw, hccw⟩ := popCcw_plainTr dir sa
  have hpos : 0 < maxTrSizeWords dir := by cases dir <;> decide
  obtain ⟨n, hn⟩ := Nat.exists_eq_succ_of_ne_zero (Nat.ne_of_gt hpos)
  -- word 0 of the record, as a successful `config` writes it
  obtain ⟨t, r, hrun, hok⟩ := exists_allOk_run (configTr (fun _ _ _ => 0) dir phy (plainTr sa))
  have hwrite := hW.configAll _ _ t r ccw rfl hccw hrun hok
  rw [mboxAddrs_configTr_of_allOk hrun hsa hccw hok, hn, tableAddrs_succ,
    List.range_succ_eq_map, List.map_cons] at hwrite
  -- and as `get` reads it
  obtain ⟨t', r', hrun', hok'⟩ := exists_allOk_run (getTr dir phy sa)
  have hread := hW.getTr t' r' hrun'
  rw [mboxAddrs_getTr_of_allOk hrun' hsa hok', hn, tableAddrs_succ, List.range_succ_eq_map,
    List.map_cons] at hread
  refine (trReadAddr_eq_trWriteAddr_iff dir sa).mp ?_
  calc trReadAddr dir sa = W 0 := (List.cons_prefix_cons.mp hread).1
    _ = trWriteAddr dir sa := (List.cons.inj hwrite).1.symm

/-- **Transform-record addressing.** The calls that write, clear, read and update the record of one
SA address the same words exactly when the SA lies in the lower half of the table. -/
theorem addressingAgrees_iff (phy : MsecDevice) (dir : MsecDir) (sa : BitVec 8)
    (hsa : sa < phy.nrOfSas) :
    (∃ W, AddressingAgrees phy dir sa W) ↔ sa.toNat < 128 := by
  constructor
  · intro h
    obtain ⟨W, hW⟩ := h
    exact lt_of_addressingAgrees hsa hW
  · intro hlow
    exact ⟨_, addressingAgrees_of_lt hsa hlow⟩

theorem addressingAgrees_low : (∃ W, AddressingAgrees ⟨64⟩ .ingress 3 W) ↔ (3#8).toNat < 128 :=
  addressingAgrees_iff ⟨64⟩ .ingress 3 (by decide)

/-- A table of 200 records: the first of the upper half is written past the place it is read at. -/
theorem not_addressingAgrees_upper :
    ¬ ∀ (phy : MsecDevice) (dir : MsecDir) (sa : BitVec 8), sa < phy.nrOfSas →
      ∃ W, AddressingAgrees phy dir sa W := by
  intro h
  obtain ⟨W, hW⟩ := h ⟨200⟩ .ingress 128 (by decide)
  exact absurd (lt_of_addressingAgrees (by decide) hW) (by decide)

end Gpy2xx
