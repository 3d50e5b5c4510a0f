import MxlUtils.Gphy.Usxgmii.Control
import MxlUtils.Lib.History

/- What is set last is what is read. The three settings share two registers, and
   each call leaves the fields of the others; so over any sequence of calls the
   settings are independent, but for the period of the square wave, which is shown
   as 2 or 0 by a bit of the receiver. -/
namespace Gpy2xx
open Effect Effect.Fallible Effect.Lock Bits

/-! ## What the registers show -/

section Shows
variable {x : Nat → BitVec 16} {tp kr v a b c d : BitVec 16}

theorem txMode_replaceFields (word : BitVec 16) : txMode (replaceFields word (txFields a b c d)) =
    txMode (replaceFields 0 (txFields a b c d)) := by
  have hget : ∀ f, f ∈ (txFields a b c d).map Prod.fst → f.get (replaceFields word (txFields a b c d)) =
      f.get (replaceFields 0 (txFields a b c d)) := fun f hf => get_replaceFields_replaced hf
  rw [txMode, txMode, hget tpSel (by simp [txFields]), hget ttpEn (by simp [txFields]),
    hget prbs31tEn (by simp [txFields]), hget prbs9tEn (by simp [txFields])]

theorem txMode_disabled (word : BitVec 16) :
    txMode (replaceFields word [(ttpEn, 0), (prbs31tEn, 0), (prbs9tEn, 0)]) = .disable := by
  have hget : ∀ f, f ∈ [ttpEn, prbs31tEn, prbs9tEn] →
      f.get (replaceFields word [(ttpEn, 0), (prbs31tEn, 0), (prbs9tEn, 0)]) =
        f.get (replaceFields 0 [(ttpEn, 0), (prbs31tEn, 0), (prbs9tEn, 0)]) :=
    fun f hf => get_replaceFields_replaced hf
  have hzero : replaceFields 0 [(ttpEn, 0), (prbs31tEn, 0), (prbs9tEn, 0)] = 0 := by decide
  rw [txMode, hget ttpEn (by simp), hget prbs31tEn (by simp), hget prbs9tEn (by simp), hzero]
  simp [txModeOf, Field.get]

/-- The receive fields are apart from the transmit fields. -/
theorem txMode_rxFields : txMode (replaceFields tp [(rtpEn, 0), (prbs31rEn, v)]) = txMode tp := by
  have hget : ∀ f, f ∈ [tpSel, ttpEn, prbs31tEn, prbs9tEn] →
      f.get (replaceFields tp [(rtpEn, 0), (prbs31rEn, v)]) = f.get tp := by
    intro f hf
    refine get_replaceFields_of_apart fun g hg => ?_
    have hapart : ∀ f ∈ [tpSel, ttpEn, prbs31tEn, prbs9tEn], ∀ g ∈ [rtpEn, prbs31rEn],
        f.mask &&& g.mask = 0#16 := by decide
    exact hapart f hf g.1 (List.mem_map_of_mem (f := Prod.fst) hg)
  rw [txMode, txMode, hget tpSel (by simp), hget ttpEn (by simp), hget prbs31tEn (by simp),
    hget prbs9tEn (by simp)]

theorem rxMode_rxFields (word kr : BitVec 16) (ha : a.toNat < 2) (hb : b.toNat < 2) :
    rxMode (replaceFields word [(rtpEn, 0), (prbs31rEn, a)]) (replaceFields kr [(prbs9rxen, b)]) =
      rxModeOf 0 a b := by
  have hrtp : rtpEn.get (replaceFields word [(rtpEn, 0), (prbs31rEn, a)]) = 0 :=
    get_replaceFields_bit (by decide) (by decide) (by simp [rtpEn, prbs31rEn])
  have hprbs31 : prbs31rEn.get (replaceFields word [(rtpEn, 0), (prbs31rEn, a)]) = a :=
    get_replaceFields_skip fun _ => get_replaceFields_bit (by decide) ha (by simp)
  have hprbs9 : prbs9rxen.get (replaceFields kr [(prbs9rxen, b)]) = b :=
    get_replaceFields_bit (by decide) hb (by simp)
  rw [rxMode, hrtp, hprbs31, hprbs9]

/-- The transmit fields, and the period, are apart from the receive fields. -/
theorem rxMode_txFields {fields krFields : List (Field 16 × BitVec 16)}
    (h : ∀ g ∈ fields.map Prod.fst, g ∈ [tpSel, ttpEn, prbs31tEn, prbs9tEn])
    (hkr : ∀ g ∈ krFields.map Prod.fst, g = nvalSel) :
    rxMode (replaceFields tp fields) (replaceFields kr krFields) = rxMode tp kr := by
  have hprbs9 : prbs9rxen.get (replaceFields kr krFields) = prbs9rxen.get kr := by
    refine get_replaceFields_of_apart fun g hg => ?_
    rw [hkr g.1 (List.mem_map_of_mem (f := Prod.fst) hg)]
    decide
  have hget : ∀ f, f ∈ [rtpEn, prbs31rEn] → f.get (replaceFields tp fields) = f.get tp := by
    intro f hf
    refine get_replaceFields_of_apart fun g hg => ?_
    have hapart : ∀ f ∈ [rtpEn, prbs31rEn], ∀ g ∈ [tpSel, ttpEn, prbs31tEn, prbs9tEn],
        f.mask &&& g.mask = 0#16 := by decide
    exact hapart f hf g.1 (h g.1 (List.mem_map_of_mem (f := Prod.fst) hg))
  rw [rxMode, rxMode, hget rtpEn (by simp), hget prbs31rEn (by simp), hprbs9]

theorem loopbackOf_replace (serial parallel : BitVec 16) (ha : a.toNat < 2) (hb : b.toNat < 2) :
    loopbackOf (serialLb.get (serialLb.replace serial a)) (r2tlbe.get (r2tlbe.replace parallel b)) =
      loopbackOf a b := by
  rw [Field.get_replace_bit (by decide) ha, Field.get_replace_bit (by decide) hb]

/-- The registers of the loopback, as far as a call leaves them. -/
def shownLoopback (x : Nat → BitVec 16) : UsxgmiiLoopback :=
  loopbackOf (serialLb.get (x pmaCtrl1Xpcs.addr)) (r2tlbe.get (x digCtrl1.addr))

open UsxgmiiCall UsxgmiiCall.after History

theorem afterRx_tpCtrl : afterRx x a b tpCtrl.addr =
    replaceFields (x tpCtrl.addr) [(rtpEn, 0), (prbs31rEn, a)] := by
  simp [afterRx, writes, tpCtrl, krCtrl]

theorem afterRx_krCtrl : afterRx x a b krCtrl.addr =
    replaceFields (x krCtrl.addr) [(prbs9rxen, b)] := by
  simp [afterRx, writes]

/-- The registers of the patterns are not those of the loopback. -/
@[simp] theorem afterRx_loopback : shownLoopback (afterRx x a b) = shownLoopback x := by
  simp [shownLoopback, afterRx, writes, tpCtrl, krCtrl, pmaCtrl1Xpcs, digCtrl1]

@[simp] theorem afterLoopback_tpCtrl : afterLoopback x a b tpCtrl.addr = x tpCtrl.addr := by
  simp [afterLoopback, writes, tpCtrl, pmaCtrl1Xpcs, digCtrl1]

@[simp] theorem afterLoopback_krCtrl : afterLoopback x a b krCtrl.addr = x krCtrl.addr := by
  simp [afterLoopback, writes, krCtrl, pmaCtrl1Xpcs, digCtrl1]

theorem shownLoopback_after (ha : a.toNat < 2) (hb : b.toNat < 2) :
    shownLoopback (afterLoopback x a b) = loopbackOf a b := by
  rw [← loopbackOf_replace (x pmaCtrl1Xpcs.addr) (x digCtrl1.addr) ha hb]
  simp [shownLoopback, afterLoopback, writes, pmaCtrl1Xpcs, digCtrl1]

/-- What a transmit pattern leaves is shown as that pattern, whatever the registers held. -/
theorem txMode_after {mode : TxBertMode} {nval : BitVec 32} (h : (setsTx (.tx ⟨mode, nval⟩)).isSome) :
    txMode (UsxgmiiCall.after x (.tx ⟨mode, nval⟩) tpCtrl.addr) = mode := by
  cases mode with
  | squarewave =>
    simp only [UsxgmiiCall.after, writes, List.foldl_cons, List.foldl_nil, Function.update_self]
    exact (txMode_replaceFields _).trans (by decide)
  | prbs31 =>
    simp only [UsxgmiiCall.after, Function.update_self]
    exact (txMode_replaceFields _).trans (by decide)
  | prbs9 =>
    simp only [UsxgmiiCall.after, Function.update_self]
    exact (txMode_replaceFields _).trans (by decide)
  | disable =>
    simp only [UsxgmiiCall.after, Function.update_self]
    exact txMode_disabled _
  | _ => cases h

/-- A transmit pattern changes its own fields of `TP_CTRL`, the period in `KR_CTRL`, and no more. -/
theorem after_tx (cfg : TxBert) :
    (∃ fields : List (Field 16 × BitVec 16),
      (∀ g ∈ fields.map Prod.fst, g ∈ [tpSel, ttpEn, prbs31tEn, prbs9tEn]) ∧
      UsxgmiiCall.after x (.tx cfg) tpCtrl.addr = replaceFields (x tpCtrl.addr) fields) ∧
    (∃ fields : List (Field 16 × BitVec 16), (∀ g ∈ fields.map Prod.fst, g = nvalSel) ∧
      UsxgmiiCall.after x (.tx cfg) krCtrl.addr = replaceFields (x krCtrl.addr) fields) ∧
    shownLoopback (UsxgmiiCall.after x (.tx cfg)) = shownLoopback x := by
  have hnone : ∀ {old new : BitVec 16}, new = old → ∃ fields : List (Field 16 × BitVec 16),
      (∀ g ∈ fields.map Prod.fst, g = nvalSel) ∧ new = replaceFields old fields :=
    fun h => ⟨[], by simp, h⟩
  obtain ⟨mode, nval⟩ := cfg
  cases mode with
  | squarewave =>
    refine ⟨⟨txFields 1 1 0 0, by simp [txFields], ?_⟩,
      ⟨[(nvalSel, (nval &&& 0x7).setWidth 16)], by simp, ?_⟩, ?_⟩
    · simp only [UsxgmiiCall.after, writes, List.foldl_cons, List.foldl_nil, Function.update_self]
    · simp [UsxgmiiCall.after, writes, tpCtrl, krCtrl]
      rfl
    · simp [UsxgmiiCall.after, shownLoopback, writes, tpCtrl, krCtrl, pmaCtrl1Xpcs, digCtrl1]
  | prbs31 =>
    refine ⟨⟨txFields 0 0 1 0, by simp [txFields], by simp [UsxgmiiCall.after]⟩, hnone ?_, ?_⟩
    · simp [UsxgmiiCall.after, tpCtrl, krCtrl]
    · simp [UsxgmiiCall.after, shownLoopback, tpCtrl, pmaCtrl1Xpcs, digCtrl1]
  | prbs9 =>
    refine ⟨⟨txFields 0 0 0 1, by simp [txFields], by simp [UsxgmiiCall.after]⟩, hnone ?_, ?_⟩
    · simp [UsxgmiiCall.after, tpCtrl, krCtrl]
    · simp [UsxgmiiCall.after, shownLoopback, tpCtrl, pmaCtrl1Xpcs, digCtrl1]
  | disable =>
    refine ⟨⟨[(ttpEn, 0), (prbs31tEn, 0), (prbs9tEn, 0)], by simp, by simp [UsxgmiiCall.after]⟩,
      hnone ?_, ?_⟩
    · simp [UsxgmiiCall.after, tpCtrl, krCtrl]
    · simp [UsxgmiiCall.after, shownLoopback, tpCtrl, pmaCtrl1Xpcs, digCtrl1]
  | pseudoRandom => exact ⟨⟨[], by simp, rfl⟩, hnone rfl, rfl⟩
  | past n => exact ⟨⟨[], by simp, rfl⟩, hnone rfl, rfl⟩

theorem faithful_tx : Faithful setsTx UsxgmiiCall.after fun cfg x => txMode (x tpCtrl.addr) = cfg.mode where
  set {c x cfg} h := by
    cases c with
    | tx cfg' =>
      have hsome : (setsTx (.tx cfg')).isSome := by rw [h]; rfl
      have hcfg : cfg' = cfg := by
        obtain ⟨mode, nval⟩ := cfg'
        cases mode <;> cases h <;> rfl
      rw [← hcfg]
      exact txMode_after hsome
    | _ => cases h
  keep {c x cfg} h hshown := by
    cases c with
    | tx cfg' =>
      obtain ⟨mode, nval⟩ := cfg'
      cases mode with
      | pseudoRandom => exact hshown
      | past n => exact hshown
      | _ => cases h
    | rx mode =>
      have hrx : ∀ a b, txMode (afterRx x a b tpCtrl.addr) = cfg.mode := fun a b => by
        rw [afterRx_tpCtrl, txMode_rxFields, hshown]
      cases mode <;> simp only [UsxgmiiCall.after, hrx, hshown]
    | loopback mode => cases mode <;> simp [UsxgmiiCall.after, hshown]

theorem faithful_rx : Faithful setsRx UsxgmiiCall.after
    fun mode x => rxMode (x tpCtrl.addr) (x krCtrl.addr) = mode where
  set {c x mode} h := by
    have hrx : ∀ a b : BitVec 16, a.toNat < 2 → b.toNat < 2 →
        rxMode (afterRx x a b tpCtrl.addr) (afterRx x a b krCtrl.addr) = rxModeOf 0 a b := by
      intro a b ha hb
      rw [afterRx_tpCtrl, afterRx_krCtrl, rxMode_rxFields _ _ ha hb]
    cases c with
    | rx mode' =>
      cases mode' with
      | prbs31 => cases h; exact hrx 1 0 (by decide) (by decide)
      | prbs9 => cases h; exact hrx 0 1 (by decide) (by decide)
      | disable => cases h; exact hrx 0 0 (by decide) (by decide)
      | _ => cases h
    | tx cfg =>
      obtain ⟨mode', nval⟩ := cfg
      cases mode' <;> cases h
    | loopback mode' => cases mode' <;> cases h
  keep {c x mode} h hshown := by
    cases c with
    | tx cfg =>
      obtain ⟨⟨fields, hfields, htp⟩, ⟨krFields, hkrFields, hkr⟩, -⟩ := @after_tx x cfg
      rw [htp, hkr, rxMode_txFields hfields hkrFields, hshown]
    | rx mode' =>
      cases mode' with
      | pseudoRandom => exact hshown
      | past n => exact hshown
      | _ => cases h
    | loopback mode' => cases mode' <;> simp [UsxgmiiCall.after, hshown]

theorem faithful_loopback : Faithful setsLoopback UsxgmiiCall.after
    fun mode x => shownLoopback x = mode where
  set {c x mode} h := by
    cases c with
    | loopback mode' =>
      cases mode' with
      | disable => cases h; exact shownLoopback_after (by decide) (by decide)
      | tx2rx => cases h; exact shownLoopback_after (by decide) (by decide)
      | rx2tx => cases h; exact shownLoopback_after (by decide) (by decide)
      | past n => cases h
    | tx cfg =>
      obtain ⟨mode', nval⟩ := cfg
      cases mode' <;> cases h
    | rx mode' => cases mode' <;> cases h
  keep {c x mode} h hshown := by
    cases c with
    | tx cfg => exact (after_tx cfg).2.2.trans hshown
    | rx mode' => cases mode' <;> simp [UsxgmiiCall.after, hshown]
    | loopback mode' =>
      cases mode' with
      | past n => exact hshown
      | _ => cases h

/-- The PRBS31 bit of the receiver, which is where the getter looks for the period. -/
def UsxgmiiCall.setsPrbs31r : UsxgmiiCall → Option Bool
  | .rx .prbs31 => some true
  | .rx .prbs9 | .rx .disable => some false
  | _ => none

theorem faithful_prbs31r : Faithful setsPrbs31r UsxgmiiCall.after
    fun b x => (x tpCtrl.addr).getLsbD 5 = b where
  set {c x v} h := by
    have hrx : ∀ a b : BitVec 16, (afterRx x a b tpCtrl.addr).getLsbD 5 = a.getLsbD 0 := by
      intro a b
      rw [afterRx_tpCtrl]
      exact getLsbD_replaceFields_skip fun word =>
        @getLsbD_replaceFields_cons _ prbs31rEn word _ [] (by decide) (by simp)
    cases c with
    | rx mode => cases mode <;> cases h <;> exact hrx _ _
    | _ => cases h
  keep {c x v} h hshown := by
    cases c with
    | tx cfg =>
      obtain ⟨⟨fields, hfields, htp⟩, -⟩ := @after_tx x cfg
      rw [htp, ← hshown]
      refine @getLsbD_replaceFields_of_apart _ prbs31rEn _ _ (by decide) fun g hg => ?_
      have hapart : ∀ g ∈ [tpSel, ttpEn, prbs31tEn, prbs9tEn], prbs31rEn.mask &&& g.mask = 0#16 := by decide
      exact hapart g.1 (hfields g.1 (List.mem_map_of_mem (f := Prod.fst) hg))
    | rx mode =>
      cases mode with
      | pseudoRandom => exact hshown
      | past n => exact hshown
      | _ => cases h
    | loopback mode => cases mode <;> simp only [UsxgmiiCall.after, afterLoopback_tpCtrl, hshown]

/-- For a square wave the period that is shown is 2 or 0. -/
theorem nvalSel_of_squarewave (h : txMode tp = .squarewave) :
    (nvalSel.get tp).setWidth 32 = if tp.getLsbD 5 then 2#32 else 0 := by
  have hfields : prbs31tEn.get tp = 0 ∧ prbs9tEn.get tp = 0 := by
    rw [txMode, txModeOf] at h
    split_ifs at h with hsq
    exact hsq.2.2
  have hbit₄ : tp.getLsbD 4 = false := (Field.get_bit_eq_zero_iff (show prbs31tEn.Spans 1 by decide)).mp hfields.1
  have hbit₆ : tp.getLsbD 6 = false := (Field.get_bit_eq_zero_iff (show prbs9tEn.Spans 1 by decide)).mp hfields.2
  have hget : ∀ i, (nvalSel.get tp).getLsbD i = (decide (i = 1) && tp.getLsbD 5) := by
    intro i
    have hspans : nvalSel.Spans 3 := by decide
    rw [Field.get, BitVec.getLsbD_ushiftRight, BitVec.getLsbD_and, hspans.mask_bit]
    have hi : i = 0 ∨ i = 1 ∨ i = 2 ∨ 3 ≤ i := by omega
    rcases hi with hi | hi | hi | hi
    · subst hi
      simpa [nvalSel] using hbit₄
    · subst hi
      simp [nvalSel]
    · subst hi
      simpa [nvalSel] using hbit₆
    · simp [show ¬nvalSel.pos + i < nvalSel.pos + 3 by omega, show i ≠ 1 by omega]
  apply BitVec.eq_of_getLsbD_eq
  intro i hi
  rw [BitVec.getLsbD_setWidth, hget]
  by_cases hone : i = 1
  · subst hone
    cases tp.getLsbD 5 <;> decide
  · have htwo : (2#32).getLsbD i = false := by
      rw [show (2#32) = BitVec.twoPow 32 1 by decide, BitVec.getLsbD_twoPow]
      simp [Ne.symm hone]
    cases tp.getLsbD 5 <;> simp [hone, htwo]

end Shows

/-! ## Runs of calls -/

section Runs
variable {phy : Gpy211Device} {s : XpcsRegs} {calls : List UsxgmiiCall}

/-- The registers after a sequence of calls. -/
def afterUsxgmii (phy : Gpy211Device) (calls : List UsxgmiiCall) (s : XpcsRegs) : XpcsRegs :=
  calls.foldl (fun s c => ((c.run phy).exec lockedXpcs s).2) s

theorem afterUsxgmii_spec (h : UsxgmiiReady phy s) :
    UsxgmiiReady phy (afterUsxgmii phy calls s) ∧
      (afterUsxgmii phy calls s).xpcs = calls.foldl UsxgmiiCall.after s.xpcs := by
  induction calls generalizing s with
  | nil => exact ⟨h, rfl⟩
  | cons c calls ih =>
    obtain ⟨base, hexec⟩ := exec_run h c
    have hafter : afterUsxgmii phy (c :: calls) s =
        afterUsxgmii phy calls { s with xpcs := c.after s.xpcs, base := base } :=
      congrArg (fun r : Except Errno Unit × XpcsRegs => afterUsxgmii phy calls r.2) hexec
    rw [hafter]
    exact ih ⟨h.1, (after_extAbl c).trans h.2⟩

theorem exec_txBertGet (h : UsxgmiiReady phy s) (out : TxBert) :
    ((gpy2xxUsxgmiiTxBertGet phy out).exec lockedXpcs s).1 =
      .ok (if txMode (s.xpcs tpCtrl.addr) = .squarewave then
          ⟨.squarewave, (nvalSel.get (s.xpcs tpCtrl.addr)).setWidth 32⟩
        else { out with mode := txMode (s.xpcs tpCtrl.addr) }) := by
  rw [gpy2xxUsxgmiiTxBertGet, exec_inUsxgmii h, readTxBert, exec_bind_ok (exec_phyXpcsHwrd _ _), exec_ite]
  by_cases hsq : txMode (s.xpcs tpCtrl.addr) = .squarewave
  · rw [XpcsRegs.paged_xpcs, if_pos hsq, if_pos hsq, exec_bind_ok (exec_phyXpcsHwrd _ _)]
    rfl
  · rw [XpcsRegs.paged_xpcs, if_neg hsq, if_neg hsq]
    rfl

theorem exec_rxBertGet (h : UsxgmiiReady phy s) : ((gpy2xxUsxgmiiRxBertGet phy).exec lockedXpcs s).1 =
    .ok (rxMode (s.xpcs tpCtrl.addr) (s.xpcs krCtrl.addr)) := by
  rw [gpy2xxUsxgmiiRxBertGet, exec_inUsxgmii h, readRxBert, exec_bind_ok (exec_phyXpcsHwrd _ _),
    exec_bind_ok (exec_phyXpcsHwrd _ _)]
  rfl

theorem exec_loopbackGet (h : UsxgmiiReady phy s) :
    ((gpy2xxUsxgmiiLoopbackGet phy).exec lockedXpcs s).1 = .ok (shownLoopback s.xpcs) := by
  rw [gpy2xxUsxgmiiLoopbackGet, exec_inUsxgmii h, readUsxgmiiLoopback, exec_bind_ok (exec_phyXpcsHwrd _ _),
    exec_bind_ok (exec_phyXpcsHwrd _ _)]
  rfl

open History UsxgmiiCall

/-- The configuration of each kind set last in a sequence of calls. -/
def lastTx (calls : List UsxgmiiCall) : Option TxBert := lastSet setsTx none calls
def lastRx (calls : List UsxgmiiCall) : Option RxBertMode := lastSet setsRx none calls
def lastLoopback (calls : List UsxgmiiCall) : Option UsxgmiiLoopback := lastSet setsLoopback none calls

/-- Whether the receiver is set to PRBS31 after the calls: by the last that sets it, or before. -/
def rxPrbs31 (calls : List UsxgmiiCall) (s : XpcsRegs) : Bool :=
  (lastSet setsPrbs31r (some ((s.xpcs tpCtrl.addr).getLsbD 5)) calls).getD false

/-- The transmit pattern is read back, into a structure that holds `out`: the mode, and for a square
wave its period. -/
def TxReadBack (phy : Gpy211Device) (s : XpcsRegs) (out cfg : TxBert) : Prop :=
  ∃ shown, ((gpy2xxUsxgmiiTxBertGet phy out).exec lockedXpcs s).1 = .ok shown ∧
    shown.mode = cfg.mode ∧ (cfg.mode = .squarewave → shown.nvalSel = cfg.nvalSel)

theorem getLsbD_afterUsxgmii (h : UsxgmiiReady phy s) :
    ((afterUsxgmii phy calls s).xpcs tpCtrl.addr).getLsbD 5 = rxPrbs31 calls s := by
  obtain ⟨b, hb⟩ := @exists_lastSet _ _ setsPrbs31r ((s.xpcs tpCtrl.addr).getLsbD 5) calls
  rw [rxPrbs31, hb, (afterUsxgmii_spec h).2]
  exact Faithful.lastSet faithful_prbs31r (fun b hb => Option.some.inj hb) hb

theorem txReadBack_iff (h : UsxgmiiReady phy s) {out cfg : TxBert} (hlast : lastTx calls = some cfg) :
    TxReadBack phy (afterUsxgmii phy calls s) out cfg ↔
      (cfg.mode = .squarewave → cfg.nvalSel = if rxPrbs31 calls s then 2 else 0) := by
  obtain ⟨hready, hxpcs⟩ := @afterUsxgmii_spec phy s calls h
  have hmode : txMode ((afterUsxgmii phy calls s).xpcs tpCtrl.addr) = cfg.mode := by
    rw [hxpcs]
    exact Faithful.lastSet faithful_tx (fun b hb => by cases hb) hlast
  rw [TxReadBack, exec_txBertGet hready, hmode]
  by_cases hsq : cfg.mode = .squarewave
  · have hnval := nvalSel_of_squarewave (hmode.trans hsq)
    rw [getLsbD_afterUsxgmii h] at hnval
    simp only [hsq, forall_const, hnval, if_true, Except.ok.injEq]
    constructor
    · intro h
      obtain ⟨shown, hshown, -, heq⟩ := h
      rw [← heq, ← hshown]
      rfl
    · intro heq
      exact ⟨_, rfl, rfl, heq.symm⟩
  · simp only [hsq, false_implies, and_true, iff_true]
    exact ⟨_, rfl, rfl⟩

/-- A call that is refused, with the registers as they were. -/
def Refused (phy : Gpy211Device) (c : UsxgmiiCall) (s : XpcsRegs) : Prop :=
  (∃ e, ((c.run phy).exec lockedXpcs s).1 = .error e) ∧ ((c.run phy).exec lockedXpcs s).2.xpcs = s.xpcs

theorem after_of_not_supported {c : UsxgmiiCall} (h : ¬c.Supported) (x : Nat → BitVec 16) :
    c.after x = x := by
  cases c with
  | tx cfg =>
    obtain ⟨mode, nval⟩ := cfg
    cases mode <;> first | rfl | exact absurd (.inl rfl) h
  | rx mode => cases mode <;> first | rfl | exact absurd (.inr (.inl rfl)) h
  | loopback mode => cases mode <;> first | rfl | exact absurd (.inr (.inr rfl)) h

/-- An unsupported mode is refused as a mode of the loopback only; for a pattern the call fails
where every call does. -/
theorem refused_iff {c : UsxgmiiCall} (h : ¬c.Supported) :
    Refused phy c s ↔ (∃ mode, c = .loopback mode) ∨ ¬UsxgmiiReady phy s := by
  by_cases hready : UsxgmiiReady phy s
  · obtain ⟨base, hexec⟩ := exec_run hready c
    rw [Refused, hexec, after_of_not_supported h]
    cases c with
    | loopback mode =>
      cases mode with
      | past n => exact ⟨fun _ => .inl ⟨_, rfl⟩, fun _ => ⟨⟨_, rfl⟩, rfl⟩⟩
      | _ => exact absurd (.inr (.inr rfl)) h
    | _ => simp [UsxgmiiCall.result, hready]
  · have hbody : ∀ body : Api Unit, ∃ base, (inUsxgmii phy body).exec lockedXpcs s =
        (.error EINVAL, { s with base := base }) := exec_inUsxgmii_error hready
    refine ⟨fun _ => .inr hready, fun _ => ?_⟩
    cases c with
    | tx cfg =>
      obtain ⟨base, hexec⟩ := hbody (setTxBert cfg)
      exact ⟨⟨EINVAL, congrArg Prod.fst hexec⟩, congrArg (fun r => r.2.xpcs) hexec⟩
    | rx mode =>
      obtain ⟨base, hexec⟩ := hbody (setRxBert mode)
      exact ⟨⟨EINVAL, congrArg Prod.fst hexec⟩, congrArg (fun r => r.2.xpcs) hexec⟩
    | loopback mode =>
      cases mode with
      | past n =>
        have hrun : (UsxgmiiCall.loopback (.past n)).run phy = throw EINVAL :=
          if_pos (by simp [UsxgmiiLoopback.code, usxgmiiLoopbackMax])
        rw [Refused, hrun]
        exact ⟨⟨EINVAL, rfl⟩, rfl⟩
      | _ => exact absurd (.inr (.inr rfl)) h

/-- **The USXGMII settings.** After any sequence of configuration calls the receive pattern and the
loopback are those set last. So is the transmit pattern, but for the period of a square wave, which
is right only where it is 2 and the receiver is set to PRBS31, or 0 and it is not. An unsupported
mode is refused, with the registers as they were, if and only if it is one of the loopback or the
PHY is not ready for any call. -/
theorem usxgmii_last_set_iff (phy : Gpy211Device) (s : XpcsRegs) :
    (UsxgmiiReady phy s → ∀ calls : List UsxgmiiCall,
      (∀ out cfg, lastTx calls = some cfg → (TxReadBack phy (afterUsxgmii phy calls s) out cfg ↔
        (cfg.mode = .squarewave → cfg.nvalSel = if rxPrbs31 calls s then 2 else 0))) ∧
      (∀ mode, lastRx calls = some mode →
        ((gpy2xxUsxgmiiRxBertGet phy).exec lockedXpcs (afterUsxgmii phy calls s)).1 = .ok mode) ∧
      ∀ mode, lastLoopback calls = some mode →
        ((gpy2xxUsxgmiiLoopbackGet phy).exec lockedXpcs (afterUsxgmii phy calls s)).1 = .ok mode) ∧
    ∀ c : UsxgmiiCall, ¬c.Supported →
      (Refused phy c s ↔ (∃ mode, c = .loopback mode) ∨ ¬UsxgmiiReady phy s) := by
  refine ⟨fun h calls => ?_, fun c hc => refused_iff hc⟩
  obtain ⟨hready, hxpcs⟩ := @afterUsxgmii_spec phy s calls h
  refine ⟨fun out cfg hlast => txReadBack_iff h hlast, fun mode hlast => ?_, fun mode hlast => ?_⟩
  · rw [exec_rxBertGet hready, hxpcs]
    exact congrArg Except.ok (Faithful.lastSet faithful_rx (fun b hb => by cases hb) hlast)
  · rw [exec_loopbackGet hready, hxpcs]
    exact congrArg Except.ok (Faithful.lastSet faithful_loopback (fun b hb => by cases hb) hlast)

end Runs

/-- A PHY in USXGMII mode with all other registers 0. -/
def usxgmiiPhy : Gpy211Device := ⟨⟨0⟩, .p34x, 0, false, 0, 0, 0, 0⟩
def usxgmiiRegs : XpcsRegs := ⟨Function.update (fun _ => 0) extAbl.addr 0x50, 0, zeroRegs true⟩

/-- Every transmit pattern is read back, and an unsupported one is refused. -/
def TxBertRoundTrips (phy : Gpy211Device) : Prop :=
  ∀ s out cfg, UsxgmiiReady phy s → if (UsxgmiiCall.tx cfg).Supported then
    TxReadBack phy (afterUsxgmii phy [.tx cfg] s) out cfg else Refused phy (.tx cfg) s

theorem usxgmiiReady_regs : UsxgmiiReady usxgmiiPhy usxgmiiRegs := ⟨rfl, rfl⟩

/-- PRBS9 after a square wave and a receive pattern, and an unsupported mode of the loopback. -/
theorem txReadBack_prbs9 :
    TxReadBack usxgmiiPhy (afterUsxgmii usxgmiiPhy
      [.tx ⟨.squarewave, 5⟩, .rx .prbs31, .tx ⟨.prbs9, 0⟩] usxgmiiRegs) ⟨.disable, 0⟩ ⟨.prbs9, 0⟩ ∧
    Refused usxgmiiPhy (.loopback (.past 0)) usxgmiiRegs :=
  ⟨(((usxgmii_last_set_iff usxgmiiPhy usxgmiiRegs).1 usxgmiiReady_regs
      [.tx ⟨.squarewave, 5⟩, .rx .prbs31, .tx ⟨.prbs9, 0⟩]).1 ⟨.disable, 0⟩ ⟨.prbs9, 0⟩ rfl).mpr
      (fun h => by cases h),
    ((usxgmii_last_set_iff usxgmiiPhy usxgmiiRegs).2 (.loopback (.past 0)) (by decide)).mpr
      (.inl ⟨.past 0, rfl⟩)⟩

/-- A square wave of 5 is read as one of 0. -/
theorem not_txBertRoundTrips : ¬TxBertRoundTrips usxgmiiPhy := by
  intro h
  have hback := h usxgmiiRegs ⟨.disable, 0⟩ ⟨.squarewave, 5⟩ usxgmiiReady_regs
  rw [if_pos (by decide)] at hback
  have hnval := (@txReadBack_iff usxgmiiPhy usxgmiiRegs [.tx ⟨.squarewave, 5⟩] usxgmiiReady_regs
    ⟨.disable, 0⟩ ⟨.squarewave, 5⟩ rfl).mp hback rfl
  have hrx : rxPrbs31 [.tx ⟨.squarewave, 5⟩] usxgmiiRegs = false := by decide
  rw [hrx] at hnval
  exact absurd hnval (by decide)

end Gpy2xx
