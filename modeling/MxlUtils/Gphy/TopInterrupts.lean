import MxlUtils.Gphy.Chip
import Mathlib.Data.List.Basic

/- The package interrupts. Events are enabled through a masked update whose mask is
   the new value, so that it only ever adds; they are cleared through the same update
   on registers that clear what is written as 1, and a read-modify-write of these
   clears every event that is pending. -/
namespace Gpy2xx
open Effect Effect.Fallible Effect.Lock Bits

/-! ## The registers -/

/-- The registers `ICU_PDI_REGISTERS_*` that the functions use. -/
inductive IcuReg where
  | im0Ier (i : Fin 4)
  | im0Eint0Ier
  | im0Eint1Ier
  | im1Ier
  | im2Ier
  | eiuExinConf
  | im0Isr
  | im1Isr
  | im2Isr
deriving DecidableEq

/-- The status registers. -/
def IcuReg.isStatus : IcuReg → Bool
  | .im0Isr | .im1Isr | .im2Isr => true
  | _ => false

/-- The register header of the interrupt unit: addresses of distinct registers, the four of `IM0_IER`
one after the other, and two fields that hold an `enum gpy211_extin_ipc`. -/
structure IcuHeader where
  addr : IcuReg → Nat
  exinConfEin0 : Field 16
  exinConfEin1 : Field 16
  spaced : ∀ i : Fin 4, addr (.im0Ier i) = addr (.im0Ier 0) + 2 * i
  distinct : Function.Injective fun r => smdioReg (addr r)
  ein0_spans : exinConfEin0.Spans 3
  ein1_spans : exinConfEin1.Spans 3
  apart : exinConfEin0.mask &&& exinConfEin1.mask = 0#16

/-! ## The calls -/

/-- `struct gpy211_extin`; the enumerations are unsigned. -/
structure Extin where
  id : Int
  ipChar : BitVec 32
  im0 : BitVec 32
  im1 : BitVec 32
  im2 : BitVec 32
deriving DecidableEq

/-- `EXTIN_IM0_MAX`, `EXTIN_IM1_MAX`, `EXTIN_IM2_MAX` and `EXTIN_IR_LOW` -/
def extinIm0Max : BitVec 32 := 0x1FFF
def extinIm1Max : BitVec 32 := 0x1FFF
def extinIm2Max : BitVec 32 := 0x7
def extinIrLow : BitVec 32 := 6

def extinIdAccepts (id : Int) : Bool := 0 ≤ id ∧ id ≤ 1

/-- The argument checks of `topin_cfg` and `topin_clr`. -/
def extinAccepts (extin : Extin) : Bool :=
  extinIdAccepts extin.id ∧ extin.ipChar ≤ extinIrLow ∧ (1 ≤ extin.im0 ∧ extin.im0 ≤ extinIm0Max) ∧
    (1 ≤ extin.im1 ∧ extin.im1 ≤ extinIm1Max) ∧ (1 ≤ extin.im2 ∧ extin.im2 ≤ extinIm2Max)

variable (icu : IcuHeader)

def gpy2xxTopinCfg (extin : Extin) : Call Unit :=
  let im0 := extin.im0.setWidth 16
  let im1 := extin.im1.setWidth 16
  let im2 := extin.im2.setWidth 16
  if !extinAccepts extin then throw EINVAL
  else locked do
    [0, 1, 2, 3].forM fun i => smdioSetMaskBits (icu.addr (.im0Ier 0) + i * 2) im0 im0
    if extin.id = 0 then smdioSetMaskBits (icu.addr .im0Eint0Ier) im0 im0
    else smdioSetMaskBits (icu.addr .im0Eint1Ier) im0 im0
    smdioSetMaskBits (icu.addr .im1Ier) im1 im1
    smdioSetMaskBits (icu.addr .im2Ier) im2 im2
    if extin.id = 0 then
      smdioSetMaskBits (icu.addr .eiuExinConf) icu.exinConfEin0.mask
        (icu.exinConfEin0.set (extin.ipChar.setWidth 16))
    else
      smdioSetMaskBits (icu.addr .eiuExinConf) icu.exinConfEin1.mask
        (icu.exinConfEin1.set (extin.ipChar.setWidth 16))

def gpy2xxTopinGet (id : Int) : Call Extin :=
  if !extinIdAccepts id then throw EINVAL
  else locked do
    let im0 ← smdioReadAt (if id = 0 then icu.addr .im0Eint0Ier else icu.addr .im0Eint1Ier)
    let im1 ← smdioReadAt (icu.addr .im1Ier)
    let im2 ← smdioReadAt (icu.addr .im2Ier)
    let val ← smdioReadAt (icu.addr .eiuExinConf)
    let ipChar := if id = 0 then icu.exinConfEin0.get val else icu.exinConfEin1.get val
    pure ⟨id, ipChar.setWidth 32, im0.setWidth 32, im1.setWidth 32, im2.setWidth 32⟩

/-- The last update takes the events of module 1 for those of module 2. -/
def gpy2xxTopinClr (extin : Extin) : Call Unit :=
  let im0 := extin.im0.setWidth 16
  let im1 := extin.im1.setWidth 16
  if !extinAccepts extin then throw EINVAL
  else locked do
    smdioSetMaskBits (icu.addr .im0Isr) im0 im0
    smdioSetMaskBits (icu.addr .im1Isr) im1 im1
    smdioSetMaskBits (icu.addr .im2Isr) im1 im1

/-! ## What configuring and clearing are for -/

/-- Registers as memory, of which the status registers clear what is written as 1. -/
def icuHandler : Handler regSig (Nat → BitVec 16)
  | .smdioRead reg, s => (.ok (s reg), s)
  | .smdioWrite reg v, s =>
    (.ok (), Function.update s reg
      (if reg ∈ [IcuReg.im0Isr, .im1Isr, .im2Isr].map fun r => smdioReg (icu.addr r) then s reg &&& ~~~v else v))
  | o, s => (okAnswer o, s)

/-- What a register holds. -/
def IcuHeader.held (s : Nat → BitVec 16) (r : IcuReg) : BitVec 16 := s (smdioReg (icu.addr r))

/-- The registers after a sequence of `topin_cfg` calls. -/
def afterCfgs (s : Nat → BitVec 16) (calls : List Extin) : Nat → BitVec 16 :=
  calls.foldl (fun s extin => ((gpy2xxTopinCfg icu extin).exec (handler (icuHandler icu)) s).2) s

/-- The configurations that are accepted, and those of a pin. -/
def accepted (calls : List Extin) : List Extin := calls.filter extinAccepts
def acceptedFor (calls : List Extin) (id : Int) : List Extin := (accepted calls).filter (·.id = id)

/-- On both pins, what was configured last is returned. -/
def CfgExact (s : Nat → BitVec 16) (calls : List Extin) : Prop :=
  ∀ id, extinIdAccepts id → ∃ shown,
    ((gpy2xxTopinGet icu id).exec (handler (icuHandler icu)) (afterCfgs icu s calls)).1 = .ok shown ∧
    (∀ last ∈ (acceptedFor calls id).getLast?, shown.im0 = last.im0 ∧ shown.ipChar = last.ipChar) ∧
    ∀ last ∈ (accepted calls).getLast?, shown.im1 = last.im1 ∧ shown.im2 = last.im2

/-- The requested events are cleared, and nothing else changes. -/
def ClrExact (s : Nat → BitVec 16) (extin : Extin) : Prop := extinAccepts extin →
  ∃ s', (gpy2xxTopinClr icu extin).exec (handler (icuHandler icu)) s = (.ok (), s') ∧
    icu.held s' .im0Isr = icu.held s .im0Isr &&& ~~~extin.im0.setWidth 16 ∧
    icu.held s' .im1Isr = icu.held s .im1Isr &&& ~~~extin.im1.setWidth 16 ∧
    icu.held s' .im2Isr = icu.held s .im2Isr &&& ~~~extin.im2.setWidth 16 ∧
    ∀ r : IcuReg, r.isStatus = false → icu.held s' r = icu.held s r

/-- Every event of `v` is one of `w`. -/
def EventsIn (v w : BitVec 16) : Prop := v &&& ~~~w = 0

/-- The events that a register has at first, and all that are configured before the last, are among the last
ones. -/
def LastHasAll (first : BitVec 16) (events : List (BitVec 32)) : Prop :=
  ∀ last ∈ events.getLast?, EventsIn first (last.setWidth 16) ∧
    ∀ v ∈ events, EventsIn (v.setWidth 16) (last.setWidth 16)

/-- The enable register of a pin. -/
def eintIer (id : Int) : IcuReg := if id = 0 then .im0Eint0Ier else .im0Eint1Ier

/-- Nothing is configured that a later configuration leaves out. -/
def NothingLeftOut (s : Nat → BitVec 16) (calls : List Extin) : Prop :=
  (∀ id, extinIdAccepts id →
    LastHasAll (icu.held s (eintIer id)) ((acceptedFor calls id).map (·.im0))) ∧
  LastHasAll (icu.held s .im1Ier) ((accepted calls).map (·.im1)) ∧
  LastHasAll (icu.held s .im2Ier) ((accepted calls).map (·.im2))

/-- Every pending event is one of those to be cleared. -/
def AllRequested (s : Nat → BitVec 16) (extin : Extin) : Prop := extinAccepts extin →
  EventsIn (icu.held s .im0Isr) (extin.im0.setWidth 16) ∧
  EventsIn (icu.held s .im1Isr) (extin.im1.setWidth 16) ∧
  EventsIn (icu.held s .im2Isr) (extin.im2.setWidth 16)

/-! ## Masked updates -/

variable {icu}

theorem held_update (s : Nat → BitVec 16) (r : IcuReg) (v : BitVec 16) :
    icu.held (Function.update s (smdioReg (icu.addr r)) v) = Function.update (icu.held s) r v :=
  Function.update_comp_eq_of_injective s icu.distinct r v

theorem mem_statusRegs {r : IcuReg} :
    (smdioReg (icu.addr r) ∈ [IcuReg.im0Isr, .im1Isr, .im2Isr].map fun r => smdioReg (icu.addr r)) ↔
      r.isStatus = true := by
  rw [List.mem_map_of_injective icu.distinct]
  cases r <;> simp [IcuReg.isStatus]

/-- The registers after a masked update: a status register keeps what is not written as 1. -/
def updated (r : IcuReg) (mask bits : BitVec 16) (f : IcuReg → BitVec 16) : IcuReg → BitVec 16 :=
  Function.update f r
    (if r.isStatus then f r &&& ~~~(f r &&& ~~~mask ||| bits) else f r &&& ~~~mask ||| bits)

/-- `x` succeeds and turns what the registers hold into `f` of it. -/
def Turns (icu : IcuHeader) (x : Api Unit) (f : (IcuReg → BitVec 16) → IcuReg → BitVec 16) : Prop :=
  ∀ s, ∃ s', x.exec (icuHandler icu) s = (.ok (), s') ∧ icu.held s' = f (icu.held s)

theorem turns_smdioSetMaskBits (r : IcuReg) (mask bits : BitVec 16) :
    Turns icu (smdioSetMaskBits (icu.addr r) mask bits) (updated r mask bits) := by
  intro s
  refine ⟨_, rfl, ?_⟩
  simp only [icuHandler, mem_statusRegs]
  exact held_update s r _

theorem Turns.bind {x y : Api Unit} {f g : (IcuReg → BitVec 16) → IcuReg → BitVec 16} (hx : Turns icu x f)
    (hy : Turns icu y g) : Turns icu (x >>= fun _ => y) (g ∘ f) := by
  intro s
  obtain ⟨s₁, hx, hf⟩ := hx s
  obtain ⟨s₂, hy, hg⟩ := hy s₁
  exact ⟨s₂, by rw [exec_bind_ok hx, hy], by rw [hg, hf]; rfl⟩

theorem Turns.ite {c : Prop} [Decidable c] {x y : Api Unit} {f g : (IcuReg → BitVec 16) → IcuReg → BitVec 16}
    (hx : Turns icu x f) (hy : Turns icu y g) : Turns icu (if c then x else y) (if c then f else g) := by
  split
  · exact hx
  · exact hy

/-! ## Configuring -/

/-- The enable registers of module 0. -/
def ierUpdated (im0 : BitVec 16) (f : IcuReg → BitVec 16) : IcuReg → BitVec 16 :=
  updated (.im0Ier 3) im0 im0 (updated (.im0Ier 2) im0 im0 (updated (.im0Ier 1) im0 im0
    (updated (.im0Ier 0) im0 im0 f)))

/-- The field of a pin. -/
def IcuHeader.ein (icu : IcuHeader) (id : Int) : Field 16 := if id = 0 then icu.exinConfEin0 else icu.exinConfEin1

/-- What an accepted configuration does. -/
def cfgUpdated (icu : IcuHeader) (extin : Extin) (f : IcuReg → BitVec 16) : IcuReg → BitVec 16 :=
  updated .eiuExinConf (icu.ein extin.id).mask ((icu.ein extin.id).set (extin.ipChar.setWidth 16))
    (updated .im2Ier (extin.im2.setWidth 16) (extin.im2.setWidth 16)
      (updated .im1Ier (extin.im1.setWidth 16) (extin.im1.setWidth 16)
        (updated (eintIer extin.id) (extin.im0.setWidth 16) (extin.im0.setWidth 16)
          (ierUpdated (extin.im0.setWidth 16) f))))

theorem turns_ierLoop (im0 : BitVec 16) :
    Turns icu ([0, 1, 2, 3].forM fun i => smdioSetMaskBits (icu.addr (.im0Ier 0) + i * 2) im0 im0)
      (ierUpdated im0) := by
  have hstep : ∀ i : Fin 4, Turns icu (smdioSetMaskBits (icu.addr (.im0Ier 0) + (i : Nat) * 2) im0 im0)
      (updated (.im0Ier i) im0 im0) := fun i => by
    have haddr : icu.addr (.im0Ier 0) + (i : Nat) * 2 = icu.addr (.im0Ier i) := by
      rw [icu.spaced i, Nat.mul_comm]
    rw [haddr]
    exact turns_smdioSetMaskBits _ im0 im0
  have hnil : Turns icu (pure ()) id := fun s => ⟨s, rfl, rfl⟩
  exact (hstep 0).bind ((hstep 1).bind ((hstep 2).bind ((hstep 3).bind hnil)))

/-- The body of `topin_cfg`, for one pin. -/
theorem turns_cfgBody (extin : Extin) (eint : IcuReg) (ein : Field 16) : Turns icu (do
      [0, 1, 2, 3].forM fun i =>
        smdioSetMaskBits (icu.addr (.im0Ier 0) + i * 2) (extin.im0.setWidth 16) (extin.im0.setWidth 16)
      smdioSetMaskBits (icu.addr eint) (extin.im0.setWidth 16) (extin.im0.setWidth 16)
      smdioSetMaskBits (icu.addr .im1Ier) (extin.im1.setWidth 16) (extin.im1.setWidth 16)
      smdioSetMaskBits (icu.addr .im2Ier) (extin.im2.setWidth 16) (extin.im2.setWidth 16)
      smdioSetMaskBits (icu.addr .eiuExinConf) ein.mask (ein.set (extin.ipChar.setWidth 16)))
    (fun f => updated .eiuExinConf ein.mask (ein.set (extin.ipChar.setWidth 16))
      (updated .im2Ier (extin.im2.setWidth 16) (extin.im2.setWidth 16)
        (updated .im1Ier (extin.im1.setWidth 16) (extin.im1.setWidth 16)
          (updated eint (extin.im0.setWidth 16) (extin.im0.setWidth 16)
            (ierUpdated (extin.im0.setWidth 16) f))))) := by
  refine (turns_ierLoop _).bind (Turns.bind (f := updated eint _ _) ?_ (Turns.bind (f := updated .im1Ier _ _) ?_
    (Turns.bind (f := updated .im2Ier _ _) (g := updated .eiuExinConf _ _) ?_ ?_)))
  · exact turns_smdioSetMaskBits _ _ _
  · exact turns_smdioSetMaskBits _ _ _
  · exact turns_smdioSetMaskBits _ _ _
  · exact turns_smdioSetMaskBits _ _ _

/-- The registers after one call. -/
theorem held_topinCfg (s : Nat → BitVec 16) (extin : Extin) :
    icu.held ((gpy2xxTopinCfg icu extin).exec (handler (icuHandler icu)) s).2 =
      if extinAccepts extin then cfgUpdated icu extin (icu.held s) else icu.held s := by
  unfold gpy2xxTopinCfg
  by_cases haccepts : extinAccepts extin
  · rw [if_neg (by simpa using haccepts), exec_locked, if_pos haccepts]
    by_cases hid : extin.id = 0
    · obtain ⟨s', hexec, hheld⟩ := @turns_cfgBody icu extin .im0Eint0Ier icu.exinConfEin0 s
      simp only [hid, if_true, hexec, hheld, cfgUpdated, eintIer, IcuHeader.ein]
    · obtain ⟨s', hexec, hheld⟩ := @turns_cfgBody icu extin .im0Eint1Ier icu.exinConfEin1 s
      simp only [hid, if_false, hexec, hheld, cfgUpdated, eintIer, IcuHeader.ein]
  · rw [if_pos (by simpa using haccepts), if_neg haccepts]
    rfl

section Updates
variable {r r' : IcuReg} {mask bits : BitVec 16} {f : IcuReg → BitVec 16}

theorem updated_ne (h : r' ≠ r) : updated r mask bits f r' = f r' := Function.update_of_ne h _ _

/-- An update whose mask is the new value only adds. -/
theorem updated_same (hr : r.isStatus = false) : updated r bits bits f r = f r ||| bits := by
  rw [updated, Function.update_self, if_neg (by simp [hr])]
  ext i hi
  simp
  grind

theorem ierUpdated_of_ne {im0 : BitVec 16} (h : ∀ i, r ≠ .im0Ier i) : ierUpdated im0 f r = f r := by
  rw [ierUpdated, updated_ne (h 3), updated_ne (h 2), updated_ne (h 1), updated_ne (h 0)]

theorem ne_eintIer {id : Int} (h₀ : r ≠ .im0Eint0Ier) (h₁ : r ≠ .im0Eint1Ier) : r ≠ eintIer id := by
  unfold eintIer
  split
  · exact h₀
  · exact h₁

theorem im1Ier_ne_eintIer (id : Int) : IcuReg.im1Ier ≠ eintIer id := ne_eintIer (by decide) (by decide)
theorem im2Ier_ne_eintIer (id : Int) : IcuReg.im2Ier ≠ eintIer id := ne_eintIer (by decide) (by decide)
theorem exinConf_ne_eintIer (id : Int) : IcuReg.eiuExinConf ≠ eintIer id := ne_eintIer (by decide) (by decide)
theorem eintIer_ne_ier (id : Int) (i : Fin 4) : eintIer id ≠ .im0Ier i :=
  (ne_eintIer (r := .im0Ier i) nofun nofun).symm

theorem isStatus_eintIer (id : Int) : (eintIer id).isStatus = false := by
  unfold eintIer
  split <;> rfl

theorem cfgUpdated_im1Ier (c : Extin) : cfgUpdated icu c f .im1Ier = f .im1Ier ||| c.im1.setWidth 16 := by
  rw [cfgUpdated, updated_ne (show IcuReg.im1Ier ≠ .eiuExinConf by decide),
    updated_ne (show IcuReg.im1Ier ≠ .im2Ier by decide), updated_same rfl, updated_ne (im1Ier_ne_eintIer c.id),
    ierUpdated_of_ne (show ∀ i, IcuReg.im1Ier ≠ .im0Ier i from nofun)]

theorem cfgUpdated_im2Ier (c : Extin) : cfgUpdated icu c f .im2Ier = f .im2Ier ||| c.im2.setWidth 16 := by
  rw [cfgUpdated, updated_ne (show IcuReg.im2Ier ≠ .eiuExinConf by decide), updated_same rfl,
    updated_ne (show IcuReg.im2Ier ≠ .im1Ier by decide), updated_ne (im2Ier_ne_eintIer c.id),
    ierUpdated_of_ne (show ∀ i, IcuReg.im2Ier ≠ .im0Ier i from nofun)]

/-- A configuration adds to the enable register of its own pin. -/
theorem cfgUpdated_eintIer (c : Extin) (id : Int) : cfgUpdated icu c f (eintIer id) =
    if eintIer id = eintIer c.id then f (eintIer id) ||| c.im0.setWidth 16 else f (eintIer id) := by
  rw [cfgUpdated, updated_ne (exinConf_ne_eintIer id).symm, updated_ne (im2Ier_ne_eintIer id).symm,
    updated_ne (im1Ier_ne_eintIer id).symm]
  split
  · next h => rw [h, updated_same (isStatus_eintIer _), ierUpdated_of_ne (eintIer_ne_ier _)]
  · next h => rw [updated_ne h, ierUpdated_of_ne (eintIer_ne_ier _)]

theorem cfgUpdated_eiuExinConf (c : Extin) : cfgUpdated icu c f .eiuExinConf =
    (icu.ein c.id).replace (f .eiuExinConf) (c.ipChar.setWidth 16) := by
  rw [cfgUpdated, updated, Function.update_self, if_neg (by decide),
    updated_ne (show IcuReg.eiuExinConf ≠ .im2Ier by decide),
    updated_ne (show IcuReg.eiuExinConf ≠ .im1Ier by decide), updated_ne (exinConf_ne_eintIer c.id),
    ierUpdated_of_ne (show ∀ i, IcuReg.eiuExinConf ≠ .im0Ier i from nofun)]
  rfl

end Updates

/-! ## Sequences of configurations -/

section Sequences
variable {s : Nat → BitVec 16} {calls : List Extin} {id : Int}

theorem accepted_cons (c : Extin) (calls : List Extin) :
    accepted (c :: calls) = if extinAccepts c then c :: accepted calls else accepted calls := List.filter_cons

/-- What every call updates by itself is updated by the sequence of those that matter to it. -/
theorem view_afterCfgs {β : Type} (view : (IcuReg → BitVec 16) → β) (p : Extin → Bool) (g : β → Extin → β)
    (hstep : ∀ f c, extinAccepts c → view (cfgUpdated icu c f) = if p c then g (view f) c else view f)
    (s : Nat → BitVec 16) (calls : List Extin) :
    view (icu.held (afterCfgs icu s calls)) = ((accepted calls).filter p).foldl g (view (icu.held s)) := by
  induction calls generalizing s with
  | nil => rfl
  | cons c calls ih =>
    rw [afterCfgs, List.foldl_cons, ← afterCfgs, ih, held_topinCfg, accepted_cons]
    by_cases h : extinAccepts c
    · rw [if_pos h, if_pos h, hstep _ c h, List.filter_cons]
      split
      · rfl
      · rfl
    · rw [if_neg h, if_neg h]

theorem id_cases (h : extinIdAccepts id) : id = 0 ∨ id = 1 := by
  simp only [extinIdAccepts, decide_eq_true_eq] at h
  omega

theorem extinIdAccepts_of_extinAccepts {c : Extin} (h : extinAccepts c) : extinIdAccepts c.id := by
  simp only [extinAccepts, decide_eq_true_eq] at h
  exact h.1

/-- What is accepted fits the registers and the trigger's field. -/
theorem fits_of_extinAccepts {c : Extin} (h : extinAccepts c) : c.ipChar.toNat < 2 ^ 3 ∧
    c.im0.toNat < 2 ^ 16 ∧ c.im1.toNat < 2 ^ 16 ∧ c.im2.toNat < 2 ^ 16 := by
  simp only [extinAccepts, decide_eq_true_eq, BitVec.le_def] at h
  obtain ⟨-, hip, ⟨-, h0⟩, ⟨-, h1⟩, -, h2⟩ := h
  have hip : c.ipChar.toNat ≤ 6 := hip
  have h0 : c.im0.toNat ≤ 0x1FFF := h0
  have h1 : c.im1.toNat ≤ 0x1FFF := h1
  have h2 : c.im2.toNat ≤ 0x7 := h2
  omega

theorem eintIer_eq_iff {id id' : Int} (h : extinIdAccepts id) (h' : extinIdAccepts id') :
    eintIer id = eintIer id' ↔ id = id' := by
  rcases id_cases h with rfl | rfl
  · rcases id_cases h' with rfl | rfl
    · decide
    · decide
  · rcases id_cases h' with rfl | rfl
    · decide
    · decide

/-- The events of a register, with those configured. -/
def orEvents (first : BitVec 16) (events : List (BitVec 32)) : BitVec 16 :=
  events.foldl (fun v e => v ||| e.setWidth 16) first

theorem held_im1Ier : icu.held (afterCfgs icu s calls) .im1Ier =
    orEvents (icu.held s .im1Ier) ((accepted calls).map (·.im1)) := by
  have h := @view_afterCfgs icu _ (· .im1Ier) (fun _ => true) (fun v c => v ||| c.im1.setWidth 16)
    (fun f c _ => cfgUpdated_im1Ier c) s calls
  rw [List.filter_true] at h
  rw [h, orEvents, List.foldl_map]

theorem held_im2Ier : icu.held (afterCfgs icu s calls) .im2Ier =
    orEvents (icu.held s .im2Ier) ((accepted calls).map (·.im2)) := by
  have h := @view_afterCfgs icu _ (· .im2Ier) (fun _ => true) (fun v c => v ||| c.im2.setWidth 16)
    (fun f c _ => cfgUpdated_im2Ier c) s calls
  rw [List.filter_true] at h
  rw [h, orEvents, List.foldl_map]

theorem held_eintIer (hid : extinIdAccepts id) : icu.held (afterCfgs icu s calls) (eintIer id) =
    orEvents (icu.held s (eintIer id)) ((acceptedFor calls id).map (·.im0)) := by
  have h := @view_afterCfgs icu _ (· (eintIer id)) (·.id = id) (fun v c => v ||| c.im0.setWidth 16)
    (fun f c hc => ?_) s calls
  · rw [h, orEvents, List.foldl_map]
    rfl
  · have heq : eintIer id = eintIer c.id ↔ c.id = id :=
      (eintIer_eq_iff hid (extinIdAccepts_of_extinAccepts hc)).trans eq_comm
    simp only [cfgUpdated_eintIer, heq, decide_eq_true_eq]

/-- The pin's trigger is the one configured last. -/
theorem get_exinConf (hid : extinIdAccepts id) :
    (icu.ein id).get (icu.held (afterCfgs icu s calls) .eiuExinConf) =
      (acceptedFor calls id).foldl (fun _ c => c.ipChar.setWidth 16)
        ((icu.ein id).get (icu.held s .eiuExinConf)) := by
  refine @view_afterCfgs icu _ (fun f => (icu.ein id).get (f .eiuExinConf)) (·.id = id)
    (fun _ c => c.ipChar.setWidth 16) (fun f c hc => ?_) s calls
  show (icu.ein id).get (cfgUpdated icu c f .eiuExinConf) = _
  rw [cfgUpdated_eiuExinConf]
  have hcid := extinIdAccepts_of_extinAccepts hc
  by_cases heq : c.id = id
  · rw [if_pos (by simpa using heq), heq]
    have hfits : (c.ipChar.setWidth 16).toNat < 2 ^ 3 := by
      have := (fits_of_extinAccepts hc).1
      rw [BitVec.toNat_setWidth]
      omega
    refine Field.get_replace (?_ : (icu.ein id).Spans 3) hfits
    unfold IcuHeader.ein
    split
    · exact icu.ein0_spans
    · exact icu.ein1_spans
  · rw [if_neg (by simpa using heq)]
    refine Field.get_replace_of_disjoint ?_
    rcases id_cases hid with rfl | rfl
    · obtain hone : c.id = 1 := (id_cases hcid).resolve_left heq
      rw [hone]
      exact icu.apart
    · obtain hzero : c.id = 0 := (id_cases hcid).resolve_right heq
      rw [hzero, BitVec.and_comm]
      exact icu.apart

/-! ## What is returned -/

theorem eventsIn_iff {v w : BitVec 16} : EventsIn v w ↔ v ||| w = w := by
  unfold EventsIn
  constructor
  · intro h
    ext i hi
    have hbit := congrArg (·.getLsbD i) h
    simp at hbit ⊢
    grind
  · intro h
    rw [← h]
    ext i hi
    simp
    grind

theorem eventsIn_or {v v' w : BitVec 16} : EventsIn (v ||| v') w ↔ EventsIn v w ∧ EventsIn v' w := by
  unfold EventsIn
  rw [BitVec.and_or_distrib_right]
  exact BitVec.or_eq_zero_iff

theorem eventsIn_orEvents {first w : BitVec 16} {events : List (BitVec 32)} :
    EventsIn (orEvents first events) w ↔ EventsIn first w ∧ ∀ v ∈ events, EventsIn (v.setWidth 16) w := by
  induction events generalizing first with
  | nil => simp [orEvents]
  | cons e events ih =>
    rw [orEvents, List.foldl_cons, ← orEvents, ih, eventsIn_or, List.forall_mem_cons, and_assoc]

theorem EventsIn.antisymm {v w : BitVec 16} (h : EventsIn v w) (h' : EventsIn w v) : v = w := by
  rw [eventsIn_iff] at h h'
  rw [← h, BitVec.or_comm, h']

/-- The last events are what the register has exactly when nothing is left out. -/
theorem lastHasAll_iff {first : BitVec 16} {events : List (BitVec 32)} : LastHasAll first events ↔
    ∀ last ∈ events.getLast?, orEvents first events = last.setWidth 16 := by
  unfold LastHasAll
  refine forall₂_congr fun last hlast => ?_
  rw [← eventsIn_orEvents]
  constructor
  · intro h
    have hself : EventsIn (orEvents first events) (orEvents first events) := (eventsIn_iff).mpr BitVec.or_self
    exact h.antisymm ((eventsIn_orEvents.mp hself).2 last (List.mem_of_getLast? hlast))
  · intro h
    rw [h]
    exact (eventsIn_iff).mpr BitVec.or_self

theorem exec_topinGet (hid : extinIdAccepts id) (s : Nat → BitVec 16) :
    ((gpy2xxTopinGet icu id).exec (handler (icuHandler icu)) s).1 =
      .ok ⟨id, ((icu.ein id).get (icu.held s .eiuExinConf)).setWidth 32,
        (icu.held s (eintIer id)).setWidth 32, (icu.held s .im1Ier).setWidth 32,
        (icu.held s .im2Ier).setWidth 32⟩ := by
  unfold gpy2xxTopinGet
  rw [if_neg (by simpa using hid), exec_locked]
  rcases id_cases hid with rfl | rfl
  · rfl
  · rfl

theorem shown_eq_iff {v : BitVec 16} {w : BitVec 32} (hw : w.toNat < 2 ^ 16) :
    v.setWidth 32 = w ↔ v = w.setWidth 16 := by
  constructor
  · intro h
    rw [← h, setWidth_setWidth_of_lt (by have := v.isLt; omega)]
  · intro h
    rw [h, setWidth_setWidth_of_lt hw]

theorem foldl_last {α β : Type} (g : α → β) (init : β) {l : List α} {last : α} (h : last ∈ l.getLast?) :
    l.foldl (fun _ c => g c) init = g last := by
  obtain ⟨front, rfl⟩ := List.getLast?_eq_some_iff.mp h
  rw [List.foldl_append, List.foldl_cons, List.foldl_nil]

theorem mem_accepted_of_getLast? {last : Extin} (h : last ∈ (accepted calls).getLast?) : extinAccepts last :=
  (List.mem_filter.mp (List.mem_of_getLast? h)).2

theorem mem_acceptedFor_of_getLast? {last : Extin} (h : last ∈ (acceptedFor calls id).getLast?) :
    extinAccepts last :=
  (List.mem_filter.mp (List.mem_filter.mp (List.mem_of_getLast? h)).1).2

theorem lastHasAll_map_iff {first : BitVec 16} {cs : List Extin} {g : Extin → BitVec 32} :
    LastHasAll first (cs.map g) ↔
      ∀ last ∈ cs.getLast?, orEvents first (cs.map g) = (g last).setWidth 16 := by
  rw [lastHasAll_iff, List.getLast?_map]
  constructor
  · intro h last hlast
    exact h (g last) (Option.mem_map_of_mem g hlast)
  · intro h e he
    obtain ⟨last, hlast, rfl⟩ := Option.map_eq_some_iff.mp he
    exact h last hlast

/-- What was configured last is returned exactly when nothing is left out. -/
theorem cfgExact_iff : CfgExact icu s calls ↔ NothingLeftOut icu s calls := by
  unfold CfgExact NothingLeftOut
  rw [lastHasAll_map_iff, lastHasAll_map_iff]
  have hget : ∀ id, extinIdAccepts id → ((∃ shown,
      ((gpy2xxTopinGet icu id).exec (handler (icuHandler icu)) (afterCfgs icu s calls)).1 = .ok shown ∧
      (∀ last ∈ (acceptedFor calls id).getLast?, shown.im0 = last.im0 ∧ shown.ipChar = last.ipChar) ∧
      ∀ last ∈ (accepted calls).getLast?, shown.im1 = last.im1 ∧ shown.im2 = last.im2) ↔
      LastHasAll (icu.held s (eintIer id)) ((acceptedFor calls id).map (·.im0)) ∧
      ((∀ last ∈ (accepted calls).getLast?, orEvents (icu.held s .im1Ier) ((accepted calls).map (·.im1)) =
        last.im1.setWidth 16) ∧
      ∀ last ∈ (accepted calls).getLast?, orEvents (icu.held s .im2Ier) ((accepted calls).map (·.im2)) =
        last.im2.setWidth 16)) := fun id hid => by
    simp only [exec_topinGet hid, Except.ok.injEq, exists_eq_left', held_im1Ier, held_im2Ier, held_eintIer hid,
      get_exinConf hid, lastHasAll_map_iff]
    refine and_congr (forall₂_congr fun last hlast => ?_) ?_
    · have hfits := fits_of_extinAccepts (mem_acceptedFor_of_getLast? hlast)
      rw [shown_eq_iff hfits.2.1, foldl_last _ _ hlast]
      refine and_iff_left ?_
      exact setWidth_setWidth_of_lt (by omega)
    · rw [← forall₂_and]
      refine forall₂_congr fun last hlast => ?_
      have hfits := fits_of_extinAccepts (mem_accepted_of_getLast? hlast)
      rw [shown_eq_iff hfits.2.2.1, shown_eq_iff hfits.2.2.2]
  constructor
  · intro h
    exact ⟨fun id hid => ((hget id hid).mp (h id hid)).1, ((hget 0 (by decide)).mp (h 0 (by decide))).2⟩
  · intro h id hid
    exact (hget id hid).mpr ⟨h.1 id hid, h.2⟩

end Sequences

/-! ## Clearing -/

/-- A masked update of a status register writes back every event that is pending, and so clears them all. -/
theorem updated_status {r : IcuReg} {bits : BitVec 16} {f : IcuReg → BitVec 16} (hr : r.isStatus) :
    updated r bits bits f r = 0 := by
  rw [updated, Function.update_self, if_pos hr]
  ext i hi
  simp
  grind

/-- What an accepted clearing does. -/
def clrUpdated (im0 im1 : BitVec 16) (f : IcuReg → BitVec 16) : IcuReg → BitVec 16 :=
  updated .im2Isr im1 im1 (updated .im1Isr im1 im1 (updated .im0Isr im0 im0 f))

theorem turns_clrBody (im0 im1 : BitVec 16) : Turns icu (do
      smdioSetMaskBits (icu.addr .im0Isr) im0 im0
      smdioSetMaskBits (icu.addr .im1Isr) im1 im1
      smdioSetMaskBits (icu.addr .im2Isr) im1 im1) (clrUpdated im0 im1) := by
  refine Turns.bind (f := updated .im0Isr _ _) ?_ (Turns.bind (f := updated .im1Isr _ _)
    (g := updated .im2Isr _ _) ?_ ?_)
  · exact turns_smdioSetMaskBits _ _ _
  · exact turns_smdioSetMaskBits _ _ _
  · exact turns_smdioSetMaskBits _ _ _

/-- Exactly the requested events are cleared exactly when no other is pending. -/
theorem clrExact_iff {s : Nat → BitVec 16} {extin : Extin} : ClrExact icu s extin ↔ AllRequested icu s extin := by
  unfold ClrExact AllRequested
  refine imp_congr_right fun haccepts => ?_
  obtain ⟨s', hexec, hheld⟩ := @turns_clrBody icu (extin.im0.setWidth 16) (extin.im1.setWidth 16) s
  have hcall : (gpy2xxTopinClr icu extin).exec (handler (icuHandler icu)) s = (.ok (), s') := by
    unfold gpy2xxTopinClr
    rw [if_neg (by simpa using haccepts), exec_locked]
    exact hexec
  have h0 : icu.held s' .im0Isr = 0 := by
    rw [hheld, clrUpdated, updated_ne (show IcuReg.im0Isr ≠ .im2Isr by decide),
      updated_ne (show IcuReg.im0Isr ≠ .im1Isr by decide), updated_status rfl]
  have h1 : icu.held s' .im1Isr = 0 := by
    rw [hheld, clrUpdated, updated_ne (show IcuReg.im1Isr ≠ .im2Isr by decide), updated_status rfl]
  have h2 : icu.held s' .im2Isr = 0 := by rw [hheld, clrUpdated, updated_status rfl]
  have hothers : ∀ r : IcuReg, r.isStatus = false → icu.held s' r = icu.held s r := fun r hr => by
    have hne : ∀ r' : IcuReg, r'.isStatus → r ≠ r' := fun r' hr' heq => by
      rw [← heq, hr] at hr'
      cases hr'
    rw [hheld, clrUpdated, updated_ne (hne _ rfl), updated_ne (hne _ rfl), updated_ne (hne _ rfl)]
  rw [hcall]
  simp only [EventsIn, Prod.mk.injEq, true_and, exists_eq_left', h0, h1, h2, eq_comm (a := (0 : BitVec 16))]
  constructor
  · intro h
    exact ⟨h.1, h.2.1, h.2.2.1⟩
  · intro h
    exact ⟨h.1, h.2.1, h.2.2, hothers⟩

/-- For every register contents, every sequence of configurations and every clearing: both do what they are
for exactly when nothing is configured that a later configuration leaves out, and every pending event is to
be cleared. -/
theorem topInterrupts_iff {s s' : Nat → BitVec 16} {calls : List Extin} {extin : Extin} :
    (CfgExact icu s calls ∧ ClrExact icu s' extin) ↔
      NothingLeftOut icu s calls ∧ AllRequested icu s' extin :=
  and_congr cfgExact_iff clrExact_iff

/-- Registers one after the other. -/
def sampleAddr : IcuReg → Nat
  | .im0Ier i => 2 * i
  | .im0Eint0Ier => 8
  | .im0Eint1Ier => 10
  | .im1Ier => 12
  | .im2Ier => 14
  | .eiuExinConf => 16
  | .im0Isr => 18
  | .im1Isr => 20
  | .im2Isr => 22

theorem sampleAddr_distinct : Function.Injective fun r => smdioReg (sampleAddr r) := by
  refine Function.LeftInverse.injective (g := fun n =>
    if h : n < 4 then .im0Ier ⟨n, h⟩
    else ([.im0Eint0Ier, .im0Eint1Ier, .im1Ier, .im2Ier, .eiuExinConf, .im0Isr, .im1Isr].getD (n - 4) .im2Isr)) ?_
  intro r
  cases r with
  | im0Ier i =>
    have hreg : smdioReg (2 * i) = i := by
      unfold smdioReg
      omega
    simp [sampleAddr, hreg]
  | _ => rfl

def sampleIcu : IcuHeader where
  addr := sampleAddr
  exinConfEin0 := ⟨0x7, 0⟩
  exinConfEin1 := ⟨0x70, 4⟩
  spaced := fun i => (Nat.zero_add _).symm
  distinct := sampleAddr_distinct
  ein0_spans := by decide
  ein1_spans := by decide
  apart := by decide

/-- Pin 0 is configured for one event of each module, and then for other ones: the first are still shown. -/
theorem not_cfgExact_replaced : ¬CfgExact sampleIcu (fun _ => 0) [⟨0, 1, 1, 1, 1⟩, ⟨0, 1, 2, 2, 2⟩] := by
  intro h
  obtain ⟨shown, hshown, hlast, -⟩ := h 0 (by decide)
  have hok : ((gpy2xxTopinGet sampleIcu 0).exec (handler (icuHandler sampleIcu))
    (afterCfgs sampleIcu (fun _ => 0) [⟨0, 1, 1, 1, 1⟩, ⟨0, 1, 2, 2, 2⟩])).1 = .ok ⟨0, 1, 3, 3, 3⟩ := by decide
  rw [hok] at hshown
  cases hshown
  exact absurd (hlast _ rfl).1 (by decide)

end Gpy2xx
