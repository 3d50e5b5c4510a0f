import MxlUtils.Lib.Annex22
import MxlUtils.Lib.Prog

/- The MDIO callbacks of the utilities. The MAC driver is asked in which clause it talks
   to the PHY, and then makes one access in clause 45, or in clause 22 one access or the
   four that reach a register of an MMD indirectly. The driver answers with an int; what
   is negative is a failure. The two copies of the callbacks are the same. -/
namespace Gpy2xx
open Effect Annex22

/-! ## The driver -/

/-- `MAC_CLI_GET_MDIO_CL`, `MAC_CLI_SET_MDIO_RD` and `MAC_CLI_SET_MDIO_WR` with their values. -/
inductive MacOp where
  | getMdioCl (phyaddr : BitVec 16)
  | mdioRd (dev phyaddr : BitVec 16) (reg : BitVec 32)
  | mdioWr (dev phyaddr : BitVec 16) (reg : BitVec 32) (data : BitVec 16)

/-- What `ioctl` returns. -/
@[reducible] def macSig : Sig := ⟨MacOp, fun _ => Int⟩

def ioctl (o : MacOp) : Prog macSig Int := .call o .done

/-! ## The callbacks -/

/-- `MII_ADDR_C45` -/
def miiAddrC45 : BitVec 32 := 1 <<< 30

def devId (regnum : BitVec 32) : BitVec 16 := (regnum >>> 16 &&& 0x1F).setWidth 16

def regNum (regnum : BitVec 32) : BitVec 16 := (regnum &&& 0xFFFF).setWidth 16

/-- `STD_MMDCTRL / 2` -/
def stdMmdctrl : BitVec 32 := 13

/-- `STD_MMDDATA / 2` -/
def stdMmddata : BitVec 32 := 14

def c22mdioRead (phyaddr : BitVec 16) (regnum : BitVec 32) : Prog macSig Int :=
  ioctl (.mdioRd 0 phyaddr regnum)

def c22mdioWrite (phyaddr : BitVec 16) (regnum : BitVec 32) (data : BitVec 16) : Prog macSig Int :=
  ioctl (.mdioWr 0 phyaddr regnum data)

def c45mdioRead (phyaddr : BitVec 16) (regnum : BitVec 32) : Prog macSig Int :=
  ioctl (.mdioRd (devId regnum) phyaddr ((regNum regnum).setWidth 32))

def c45mdioWrite (phyaddr : BitVec 16) (regnum : BitVec 32) (data : BitVec 16) : Prog macSig Int :=
  ioctl (.mdioWr (devId regnum) phyaddr ((regNum regnum).setWidth 32) data)

/-- The three writes that select a register, and then `last`; a failure is returned at once. -/
def c22extnd (phyaddr : BitVec 16) (regnum : BitVec 32) (last : Prog macSig Int) : Prog macSig Int := do
  let ret ← c22mdioWrite phyaddr stdMmdctrl (devId regnum)
  if ret < 0 then pure ret
  else
    let ret ← c22mdioWrite phyaddr stdMmddata (regNum regnum)
    if ret < 0 then pure ret
    else
      let ret ← c22mdioWrite phyaddr stdMmdctrl (0x4000 + devId regnum)
      if ret < 0 then pure ret
      else last

def c22extndRead (phyaddr : BitVec 16) (regnum : BitVec 32) : Prog macSig Int :=
  c22extnd phyaddr regnum (c22mdioRead phyaddr stdMmddata)

def c22extndWrite (phyaddr : BitVec 16) (regnum : BitVec 32) (data : BitVec 16) : Prog macSig Int :=
  c22extnd phyaddr regnum do
    let ret ← c22mdioWrite phyaddr stdMmddata data
    if ret < 0 then pure ret else pure 0

/-- The answer of the driver is kept in a `u8`: zero is clause 45, anything else clause 22. -/
def inClause (phyaddr : BitVec 16) (regnum : BitVec 32) (c45 extnd c22 : Prog macSig Int) :
    Prog macSig Int := do
  let clause := BitVec.ofInt 8 (← ioctl (.getMdioCl phyaddr))
  if clause = 0 then c45
  else if regnum &&& miiAddrC45 ≠ 0 then extnd
  else c22

def gpy211MdioRead (phyaddr : BitVec 16) (regnum : BitVec 32) : Prog macSig Int :=
  inClause phyaddr regnum (c45mdioRead phyaddr regnum) (c22extndRead phyaddr regnum)
    (c22mdioRead phyaddr regnum)

def gpy211MdioWrite (phyaddr : BitVec 16) (regnum : BitVec 32) (data : BitVec 16) : Prog macSig Int :=
  inClause phyaddr regnum (c45mdioWrite phyaddr regnum data) (c22extndWrite phyaddr regnum data)
    (c22mdioWrite phyaddr regnum data)

/-! ## The bus -/

inductive Clause where
  | c22
  | c45
deriving DecidableEq

/-- What the driver says for a clause. -/
def Clause.code : Clause → Int
  | .c22 => 1
  | .c45 => 0

variable {σ : Type}

/-- The frame for a read, in the clause set for the PHY. In clause 22 there is no device. -/
def readFrame (m : Mmds σ) (dev : BitVec 16) (reg : BitVec 32) : Clause → Phy σ → BitVec 16 × Phy σ
  | .c22, x => x.read22 m (reg.setWidth 5)
  | .c45, x => x.read45 m (dev.setWidth 5) (reg.setWidth 16)

def writeFrame (m : Mmds σ) (dev : BitVec 16) (reg : BitVec 32) (data : BitVec 16) : Clause → Phy σ → Phy σ
  | .c22, x => x.write22 m (reg.setWidth 5) data
  | .c45, x => x.write45 m (dev.setWidth 5) (reg.setWidth 16) data

/-- The PHYs on the bus. -/
abbrev BusState (σ : Type) := BitVec 16 → Phy σ

/-- An access that would succeed with `value` and leave `x` at `p` may also fail, and then it may
have had its effect or not. -/
def MmdAccess {τ : Type} (value : Int) (p : BitVec 16) (x : τ) (s s' : BitVec 16 → τ) (r : Int) : Prop :=
  (r = value ∧ s' = Function.update s p x) ∨ (r < 0 ∧ (s' = s ∨ s' = Function.update s p x))

/-- The driver and the bus, the clause being set for each PHY address. A query may fail, too. -/
def bus (m : Mmds σ) (clause : BitVec 16 → Clause) : Dev macSig (BusState σ)
  | s, ⟨.getMdioCl p, r⟩, s' => (r = (clause p).code ∨ r < 0) ∧ s' = s
  | s, ⟨.mdioRd dev p reg, r⟩, s' =>
    MmdAccess (readFrame m dev reg (clause p) (s p)).1.toNat p (readFrame m dev reg (clause p) (s p)).2 s s' r
  | s, ⟨.mdioWr dev p reg data, r⟩, s' =>
    MmdAccess 0 p (writeFrame m dev reg data (clause p) (s p)) s s' r

/-! ## Calls, and what they stand for -/

inductive MdioCall where
  | read (phyaddr : BitVec 16) (regnum : BitVec 32)
  | write (phyaddr : BitVec 16) (regnum : BitVec 32) (data : BitVec 16)

namespace MdioCall

def phyaddr : MdioCall → BitVec 16
  | .read p _ | .write p _ _ => p

def regnum : MdioCall → BitVec 32
  | .read _ n | .write _ n _ => n

def run : MdioCall → Prog macSig Int
  | .read p n => gpy211MdioRead p n
  | .write p n data => gpy211MdioWrite p n data

/-- The device of a register number. -/
def dev (c : MdioCall) : BitVec 5 := (devId c.regnum).setWidth 5

/-- The access to the register itself: what is returned, and what it leaves in the MMDs. -/
def transfer (m : Mmds σ) (x : σ) : MdioCall → Int × σ
  | .read _ n => ((m.read ((devId n).setWidth 5) (regNum n) x).1.toNat,
      (m.read ((devId n).setWidth 5) (regNum n) x).2)
  | .write _ n data => (0, m.write ((devId n).setWidth 5) (regNum n) data x)

/-- The call as one access to the MMDs of its PHY. -/
def Direct (m : Mmds σ) (c : MdioCall) (s s' : BitVec 16 → σ) (r : Int) : Prop :=
  MmdAccess (c.transfer m (s c.phyaddr)).1 c.phyaddr (c.transfer m (s c.phyaddr)).2 s s' r

/-- The access that reaches the register, in clause 22 once it is selected. -/
def lastOp : MdioCall → Clause → MacOp
  | .read p n, .c45 => .mdioRd (devId n) p ((regNum n).setWidth 32)
  | .write p n data, .c45 => .mdioWr (devId n) p ((regNum n).setWidth 32) data
  | .read p _, .c22 => .mdioRd 0 p stdMmddata
  | .write p _ data, .c22 => .mdioWr 0 p stdMmddata data

/-- What is returned of its answer. -/
def lastRet : MdioCall → Clause → Int → Int
  | .write _ _ _, .c22, q => if q < 0 then q else 0
  | _, _, q => q

/-- The program that makes it. -/
def last : MdioCall → Clause → Prog macSig Int
  | .read p n, .c45 => c45mdioRead p n
  | .write p n data, .c45 => c45mdioWrite p n data
  | .read p _, .c22 => c22mdioRead p stdMmddata
  | .write p _ data, .c22 => do
    let ret ← c22mdioWrite p stdMmddata data
    if ret < 0 then pure ret else pure 0

/-- What follows the query, for a register number of clause 45. -/
def path (c : MdioCall) : Clause → Prog macSig Int
  | .c45 => c.last .c45
  | .c22 => c22extnd c.phyaddr c.regnum (c.last .c22)

end MdioCall

/-- The clause that an answer to the query selects. -/
def chosen (answer : Int) : Clause := if BitVec.ofInt 8 answer = 0 then .c45 else .c22

@[simp] theorem chosen_code (cl : Clause) : chosen cl.code = cl := by cases cl <;> rfl

/-! ## The MMDs of the bus -/

/-- What the MMDs of each PHY hold. -/
def contents (s : BusState σ) : BitVec 16 → σ := fun p => (s p).mmds

theorem contents_update (s : BusState σ) (p : BitVec 16) (x : Phy σ) :
    contents (Function.update s p x) = Function.update (contents s) p x.mmds := by
  funext q
  by_cases h : q = p
  · subst h
    simp [contents]
  · simp [contents, h]

theorem contents_update_of_eq {s : BusState σ} {p : BitVec 16} {x : Phy σ} (h : x.mmds = (s p).mmds) :
    contents (Function.update s p x) = contents s := by
  rw [contents_update, h]
  exact Function.update_eq_self p (contents s)

/-- An access that does not reach the MMDs. -/
theorem MmdAccess.contents_eq {value : Int} {p : BitVec 16} {x : Phy σ} {s s' : BusState σ} {r : Int}
    (h : MmdAccess value p x s s' r) (hx : x.mmds = (s p).mmds) : contents s' = contents s := by
  rcases h with ⟨-, rfl⟩ | ⟨-, rfl | rfl⟩
  · exact contents_update_of_eq hx
  · rfl
  · exact contents_update_of_eq hx

/-- One that does. -/
theorem MmdAccess.contents {value : Int} {p : BitVec 16} {x : Phy σ} {s s' : BusState σ} {r : Int}
    (h : MmdAccess value p x s s' r) : MmdAccess value p x.mmds (contents s) (contents s') r := by
  rcases h with ⟨hr, rfl⟩ | ⟨hr, rfl | rfl⟩
  · exact .inl ⟨hr, contents_update s p x⟩
  · exact .inr ⟨hr, .inl rfl⟩
  · exact .inr ⟨hr, .inr (contents_update s p x)⟩

/-- It can come out in every way that the access to the MMDs can. -/
theorem MmdAccess.exists_of_contents {value : Int} {p : BitVec 16} {x : Phy σ} {s : BusState σ}
    {u : BitVec 16 → σ} {r : Int} (h : MmdAccess value p x.mmds (Gpy2xx.contents s) u r) :
    ∃ s', MmdAccess value p x s s' r ∧ Gpy2xx.contents s' = u := by
  rcases h with ⟨hr, rfl⟩ | ⟨hr, rfl | rfl⟩
  · exact ⟨_, .inl ⟨hr, rfl⟩, contents_update s p x⟩
  · exact ⟨s, .inr ⟨hr, .inl rfl⟩, rfl⟩
  · exact ⟨_, .inr ⟨hr, .inr rfl⟩, contents_update s p x⟩

/-! ## One call -/

variable {m : Mmds σ} {clause : BitVec 16 → Clause} {s s' : BusState σ} {t : Trace macSig} {r : Int}

/-- The register that is to be reached is selected, if it has to be. -/
def CallReady (c : MdioCall) (s : BusState σ) : Clause → Prop
  | .c45 => True
  | .c22 => (s c.phyaddr).Selects c.dev (regNum c.regnum)

theorem setWidth_regNum (n : BitVec 32) : ((regNum n).setWidth 32).setWidth 16 = regNum n := by
  simp

/-- The last access is the transfer from or to the register. -/
theorem bus_lastOp {c : MdioCall} (h : CallReady c s (clause c.phyaddr)) :
    ∃ x : Phy σ, x.mmds = (c.transfer m (contents s c.phyaddr)).2 ∧
      ∀ q s', bus m clause s ⟨c.lastOp (clause c.phyaddr), q⟩ s' ↔
        MmdAccess (c.transfer m (contents s c.phyaddr)).1 c.phyaddr x s s' q := by
  cases hcl : clause c.phyaddr with
  | c45 =>
    cases c with
    | read p n =>
      have hcl : clause p = .c45 := hcl
      refine ⟨((s p).read45 m ((devId n).setWidth 5) (regNum n)).2, rfl, fun q s' => ?_⟩
      simp only [MdioCall.lastOp, bus, readFrame, hcl, setWidth_regNum]
      rfl
    | write p n data =>
      have hcl : clause p = .c45 := hcl
      refine ⟨(s p).write45 m ((devId n).setWidth 5) (regNum n) data, rfl, fun q s' => ?_⟩
      simp only [MdioCall.lastOp, bus, writeFrame, hcl, setWidth_regNum]
      rfl
  | c22 =>
    rw [hcl] at h
    have hdata : stdMmddata.setWidth 5 = dataReg := rfl
    cases c with
    | read p n =>
      have hcl : clause p = .c22 := hcl
      have hread : (s p).readData m = _ := h.readData
      refine ⟨((s p).readData m).2, ?_, fun q s' => ?_⟩
      · rw [hread]
        rfl
      · simp only [MdioCall.lastOp, bus, readFrame, hcl, hdata, Phy.read22_data]
        rw [hread]
        rfl
    | write p n data =>
      have hcl : clause p = .c22 := hcl
      have hwrite : (s p).writeData m data = _ := h.writeData
      refine ⟨(s p).writeData m data, ?_, fun q s' => ?_⟩
      · rw [hwrite]
        rfl
      · simp only [MdioCall.lastOp, bus, writeFrame, hcl, hdata, Phy.write22_data]
        rfl

theorem runs_last {c : MdioCall} {cl : Clause} :
    (c.last cl).Runs t r ↔ ∃ q, t = [⟨c.lastOp cl, q⟩] ∧ r = c.lastRet cl q := by
  have hone (o : MacOp) : (ioctl o).Runs t r ↔ ∃ q, t = [⟨o, q⟩] ∧ r = q := by
    constructor
    · rintro ⟨q, _, rfl, rfl, hr⟩
      exact ⟨q, rfl, hr⟩
    · rintro ⟨q, rfl, hr⟩
      exact ⟨q, [], rfl, rfl, hr⟩
  have hset (o : MacOp) : (ioctl o >>= fun ret => if ret < 0 then pure ret else pure 0).Runs t r ↔
      ∃ q, t = [⟨o, q⟩] ∧ r = if q < 0 then q else 0 := by
    constructor
    · rintro ⟨q, t', rfl, h⟩
      change Prog.Runs (if q < 0 then pure q else pure 0) t' r at h
      refine ⟨q, ?_⟩
      split at h
      all_goals
        obtain ⟨rfl, rfl⟩ := h
        simp [*]
    · rintro ⟨q, rfl, hr⟩
      refine ⟨q, [], rfl, ?_⟩
      change Prog.Runs (if q < 0 then pure q else pure 0) [] r
      split at hr
      all_goals
        subst hr
        simp [*]
  cases c with
  | read p n => cases cl <;> exact hone _
  | write p n data =>
    cases cl with
    | c45 => exact hone _
    | c22 => exact hset _

/-- An answer to the last access is returned as it is. -/
theorem lastRet_of_access {c : MdioCall} {cl : Clause} {x : σ} {p : BitVec 16} {y : Phy σ} {q : Int}
    (h : MmdAccess (c.transfer m x).1 p y s s' q) : c.lastRet cl q = q := by
  cases c with
  | read p n => cases cl <;> rfl
  | write p n data =>
    cases cl with
    | c45 => rfl
    | c22 =>
      by_cases hneg : q < 0
      · exact if_pos hneg
      · obtain ⟨rfl, -⟩ := h.resolve_right fun hfail => hneg hfail.1
        rfl

/-- One access whose failure is returned at once. -/
theorem runs_checked {o : MacOp} {k : Prog macSig Int} :
    (ioctl o >>= fun ret => if ret < 0 then pure ret else k).Runs t r ↔
      (∃ q, q < 0 ∧ t = [⟨o, q⟩] ∧ r = q) ∨ ∃ q u, 0 ≤ q ∧ t = ⟨o, q⟩ :: u ∧ k.Runs u r := by
  constructor
  · rintro ⟨q, u, rfl, h⟩
    change Prog.Runs (if q < 0 then pure q else k) u r at h
    by_cases hneg : q < 0
    · rw [if_pos hneg] at h
      obtain ⟨rfl, hr⟩ := h
      exact .inl ⟨q, hneg, rfl, hr⟩
    · rw [if_neg hneg] at h
      exact .inr ⟨q, u, Int.not_lt.mp hneg, rfl, h⟩
  · intro h
    rcases h with ⟨q, hneg, rfl, rfl⟩ | ⟨q, u, hpos, rfl, h⟩
    · refine ⟨r, [], rfl, ?_⟩
      change Prog.Runs (if r < 0 then pure r else k) [] r
      rw [if_pos hneg]
      exact ⟨rfl, rfl⟩
    · refine ⟨q, u, rfl, ?_⟩
      change Prog.Runs (if q < 0 then pure q else k) u r
      rw [if_neg (Int.not_lt.mpr hpos)]
      exact h

/-- The query, and the path that its answer selects. -/
theorem runs_run {c : MdioCall} (hc : c.regnum &&& miiAddrC45 ≠ 0) :
    c.run.Runs t r ↔ ∃ q u, t = ⟨.getMdioCl c.phyaddr, q⟩ :: u ∧ (c.path (chosen q)).Runs u r := by
  have hpath (q : Int) : c.path (chosen q) =
      if BitVec.ofInt 8 q = 0 then c.last .c45 else c22extnd c.phyaddr c.regnum (c.last .c22) := by
    rw [chosen]
    split <;> rfl
  have hclause {c22 : Prog macSig Int} : (inClause c.phyaddr c.regnum (c.last .c45)
      (c22extnd c.phyaddr c.regnum (c.last .c22)) c22).Runs t r ↔
      ∃ q u, t = ⟨.getMdioCl c.phyaddr, q⟩ :: u ∧ (c.path (chosen q)).Runs u r := by
    simp only [hpath]
    rw [inClause, if_pos hc]
    rfl
  cases c with
  | read p n => exact hclause
  | write p n data => exact hclause

/-! ## What fails -/

def isAccess : MacOp → Bool
  | .getMdioCl _ => false
  | _ => true

def answer (e : Event macSig) : Int := e.ret

def fails (e : Event macSig) : Bool := answer e < 0

/-- The program makes accesses only, and returns the answer of one that fails. -/
def Surfaces (x : Prog macSig Int) : Prop :=
  ∀ t r, x.Runs t r → ∀ e ∈ t, isAccess e.op ∧ (fails e → r = answer e)

theorem Surfaces.checked {o : MacOp} {k : Prog macSig Int} (ho : isAccess o) (hk : Surfaces k) :
    Surfaces (ioctl o >>= fun ret => if ret < 0 then pure ret else k) := by
  intro t r hrun e he
  rcases (runs_checked).mp hrun with ⟨q, -, rfl, rfl⟩ | ⟨q, u, hpos, rfl, h⟩
  · rw [List.mem_singleton] at he
    subst he
    exact ⟨ho, fun _ => rfl⟩
  · rcases List.mem_cons.mp he with rfl | he
    · exact ⟨ho, fun hneg => absurd (of_decide_eq_true hneg) (Int.not_lt.mpr hpos)⟩
    · exact hk u r h e he

theorem surfaces_last (c : MdioCall) (cl : Clause) : Surfaces (c.last cl) := by
  intro t r hrun e he
  obtain ⟨q, rfl, rfl⟩ := (runs_last).mp hrun
  rw [List.mem_singleton] at he
  subst he
  cases c with
  | read p n => cases cl <;> exact ⟨rfl, fun _ => rfl⟩
  | write p n data =>
    cases cl with
    | c45 => exact ⟨rfl, fun _ => rfl⟩
    | c22 => exact ⟨rfl, fun hneg => if_pos (of_decide_eq_true hneg)⟩

theorem surfaces_path (c : MdioCall) (cl : Clause) : Surfaces (c.path cl) := by
  cases cl with
  | c45 => exact surfaces_last c .c45
  | c22 => exact .checked rfl (.checked rfl (.checked rfl (surfaces_last c .c22)))

/-! ## A call is one access to the MMDs -/

theorem toNat_devId (n : BitVec 32) : (devId n).toNat = n.toNat / 65536 % 32 := by
  have hmask : (0x1F : BitVec 32).toNat = 2 ^ 5 - 1 := rfl
  rw [devId, BitVec.toNat_setWidth, BitVec.toNat_and, BitVec.toNat_ushiftRight, hmask,
    Nat.and_two_pow_sub_one_eq_mod, Nat.shiftRight_eq_div_pow]
  omega

/-- The control register names the device with the address function, and then with the data
function. -/
theorem function_address (n : BitVec 32) : (devId n).extractLsb' 14 2 = 0 := by
  have hzero : (0 : BitVec 2).toNat = 0 := rfl
  apply BitVec.eq_of_toNat_eq
  rw [BitVec.extractLsb'_toNat, toNat_devId, Nat.shiftRight_eq_div_pow, hzero]
  omega

theorem toNat_data (n : BitVec 32) : (0x4000 + devId n).toNat = 0x4000 + n.toNat / 65536 % 32 := by
  have hdata : (0x4000 : BitVec 16).toNat = 0x4000 := rfl
  rw [BitVec.toNat_add, toNat_devId, hdata]
  omega

theorem devad_data (n : BitVec 32) : (0x4000 + devId n).setWidth 5 = (devId n).setWidth 5 := by
  apply BitVec.eq_of_toNat_eq
  rw [BitVec.toNat_setWidth, BitVec.toNat_setWidth, toNat_data, toNat_devId]
  omega

theorem function_data (n : BitVec 32) : (0x4000 + devId n).extractLsb' 14 2 = 1 := by
  have hone : (1 : BitVec 2).toNat = 1 := rfl
  apply BitVec.eq_of_toNat_eq
  rw [BitVec.extractLsb'_toNat, toNat_data, Nat.shiftRight_eq_div_pow, hone]
  omega

theorem direct_of_lastOp {c : MdioCall} (hrun : (c.last (clause c.phyaddr)).Runs t r)
    (hpath : (bus m clause).Path s t s') (hready : CallReady c s (clause c.phyaddr)) :
    c.Direct m (contents s) (contents s') r := by
  obtain ⟨x, hx, hbus⟩ := bus_lastOp (m := m) hready
  obtain ⟨q, rfl, rfl⟩ := (runs_last).mp hrun
  obtain ⟨s₁, hstep, rfl⟩ := hpath
  have haccess := (hbus q s').mp hstep
  rw [lastRet_of_access haccess, MdioCall.Direct, ← hx]
  exact haccess.contents

/-- Whatever fails before that, the MMDs are left alone. -/
theorem direct_of_fails {c : MdioCall} (hneg : r < 0) (h : contents s' = contents s) :
    c.Direct m (contents s) (contents s') r := .inr ⟨hneg, .inl h⟩

theorem MmdAccess.of_nonneg {τ : Type} {value : Int} {p : BitVec 16} {x : τ} {u u' : BitVec 16 → τ} {q : Int}
    (h : MmdAccess value p x u u' q) (hq : 0 ≤ q) : u' = Function.update u p x :=
  (h.resolve_right fun hfail => absurd hq (Int.not_le.mpr hfail.1)).2

/-! The three writes that select a register. -/

/-- Write the control register. -/
def withCtrl (p : BitVec 16) (v : BitVec 16) (s : BusState σ) : BusState σ :=
  Function.update s p { s p with ctrl := v }

/-- Write the data register. -/
def withData (m : Mmds σ) (p : BitVec 16) (v : BitVec 16) (s : BusState σ) : BusState σ :=
  Function.update s p ((s p).writeData m v)

theorem bus_mmdctrl {p v : BitVec 16} {q : Int} (hcl : clause p = .c22) :
    bus m clause s ⟨.mdioWr 0 p stdMmdctrl v, q⟩ s' ↔ MmdAccess 0 p { s p with ctrl := v } s s' q := by
  rw [bus, hcl]
  rfl

theorem bus_mmddata {p v : BitVec 16} {q : Int} (hcl : clause p = .c22) :
    bus m clause s ⟨.mdioWr 0 p stdMmddata v, q⟩ s' ↔ MmdAccess 0 p ((s p).writeData m v) s s' q := by
  rw [bus, hcl]
  rfl

/-- After the first one. -/
def latched (c : MdioCall) (s : BusState σ) : BusState σ := withCtrl c.phyaddr (devId c.regnum) s

/-- After the second. -/
def addressed (m : Mmds σ) (c : MdioCall) (s : BusState σ) : BusState σ :=
  withData m c.phyaddr (regNum c.regnum) (latched c s)

/-- After the third. -/
def selected (m : Mmds σ) (c : MdioCall) (s : BusState σ) : BusState σ :=
  withCtrl c.phyaddr (0x4000 + devId c.regnum) (addressed m c s)

theorem latches_latched (c : MdioCall) (s : BusState σ) : (latched c s c.phyaddr).Latches c.dev := by
  rw [latched, withCtrl, Function.update_self]
  exact ⟨rfl, function_address c.regnum⟩

theorem contents_withCtrl (p v : BitVec 16) (s : BusState σ) : contents (withCtrl p v s) = contents s :=
  contents_update_of_eq rfl

theorem contents_latched (c : MdioCall) (s : BusState σ) : contents (latched c s) = contents s :=
  contents_withCtrl _ _ s

theorem mmds_addressed (c : MdioCall) (s : BusState σ) :
    ((latched c s c.phyaddr).writeData m (regNum c.regnum)).mmds = (latched c s c.phyaddr).mmds := by
  rw [(latches_latched c s).writeData]

theorem contents_addressed (c : MdioCall) (s : BusState σ) : contents (addressed m c s) = contents s := by
  rw [addressed, withData, contents_update_of_eq (mmds_addressed c s), contents_latched]

theorem contents_selected (c : MdioCall) (s : BusState σ) : contents (selected m c s) = contents s := by
  rw [selected, contents_withCtrl, contents_addressed]

theorem ready_selected (c : MdioCall) (s : BusState σ) : CallReady c (selected m c s) .c22 := by
  rw [CallReady, selected, withCtrl, Function.update_self, addressed, withData, Function.update_self]
  exact (latches_latched c s).selects (devad_data c.regnum) (function_data c.regnum)

/-- A path through the calls of a clause is an access to the MMDs, however it comes out. -/
theorem direct_of_path {c : MdioCall} (hrun : (c.path (clause c.phyaddr)).Runs t r)
    (hpath : (bus m clause).Path s t s') : c.Direct m (contents s) (contents s') r := by
  cases hcl : clause c.phyaddr with
  | c45 =>
    rw [hcl] at hrun
    exact direct_of_lastOp (by rwa [hcl]) hpath (by rw [hcl]; trivial)
  | c22 =>
    rw [hcl] at hrun
    rcases (runs_checked).mp hrun with ⟨q, hneg, rfl, rfl⟩ | ⟨q, t, hpos, rfl, hrun₁⟩
    · obtain ⟨_, hstep, rfl⟩ := hpath
      exact direct_of_fails hneg (((bus_mmdctrl hcl).mp hstep).contents_eq rfl)
    obtain ⟨_, hstep, hpath⟩ := hpath
    obtain rfl : _ = latched c s := ((bus_mmdctrl hcl).mp hstep).of_nonneg hpos
    rcases (runs_checked).mp hrun₁ with ⟨q, hneg, rfl, rfl⟩ | ⟨q, t, hpos, rfl, hrun₂⟩
    · obtain ⟨_, hstep, rfl⟩ := hpath
      apply direct_of_fails hneg
      rw [((bus_mmddata hcl).mp hstep).contents_eq (mmds_addressed c s), contents_latched]
    obtain ⟨_, hstep, hpath⟩ := hpath
    obtain rfl : _ = addressed m c s := ((bus_mmddata hcl).mp hstep).of_nonneg hpos
    rcases (runs_checked).mp hrun₂ with ⟨q, hneg, rfl, rfl⟩ | ⟨q, t, hpos, rfl, hrun₃⟩
    · obtain ⟨_, hstep, rfl⟩ := hpath
      apply direct_of_fails hneg
      rw [((bus_mmdctrl hcl).mp hstep).contents_eq rfl, contents_addressed]
    obtain ⟨_, hstep, hpath⟩ := hpath
    obtain rfl : _ = selected m c s := ((bus_mmdctrl hcl).mp hstep).of_nonneg hpos
    rw [← contents_selected (m := m) c s]
    rw [← hcl] at hrun₃
    exact direct_of_lastOp hrun₃ hpath (by rw [hcl]; exact ready_selected c s)

/-- Every way in which the access can come out is one of the path. -/
theorem exists_path_of_direct {c : MdioCall} {u : BitVec 16 → σ} (h : c.Direct m (contents s) u r) :
    ∃ t s', (c.path (clause c.phyaddr)).Runs t r ∧ (bus m clause).Path s t s' ∧ contents s' = u := by
  have hlast {s : BusState σ} (hready : CallReady c s (clause c.phyaddr)) (h : c.Direct m (contents s) u r) :
      ∃ s', (c.last (clause c.phyaddr)).Runs [⟨c.lastOp (clause c.phyaddr), r⟩] r ∧
        bus m clause s ⟨c.lastOp (clause c.phyaddr), r⟩ s' ∧ contents s' = u := by
    obtain ⟨x, hx, hbus⟩ := bus_lastOp (m := m) hready
    rw [MdioCall.Direct, ← hx] at h
    obtain ⟨s', haccess, hs'⟩ := h.exists_of_contents
    exact ⟨s', (runs_last).mpr ⟨r, rfl, (lastRet_of_access haccess).symm⟩, (hbus r s').mpr haccess, hs'⟩
  cases hcl : clause c.phyaddr with
  | c45 =>
    rw [hcl] at hlast
    obtain ⟨s', hrun, hstep, hs'⟩ := hlast trivial h
    exact ⟨_, s', hrun, ⟨s', hstep, rfl⟩, hs'⟩
  | c22 =>
    rw [hcl] at hlast
    obtain ⟨s', hrun, hstep, hs'⟩ := hlast (ready_selected (m := m) c s) (by rwa [contents_selected])
    have hchecked {o : MacOp} {k : Prog macSig Int} {t : Trace macSig} (hk : k.Runs t r) :
        (ioctl o >>= fun ret => if ret < 0 then pure ret else k).Runs (⟨o, (0 : Int)⟩ :: t) r :=
      (runs_checked).mpr (.inr ⟨0, t, Int.le_refl 0, rfl, hk⟩)
    refine ⟨_, s', hchecked (hchecked (hchecked hrun)), ?_, hs'⟩
    exact ⟨latched c s, (bus_mmdctrl hcl).mpr (.inl ⟨rfl, rfl⟩),
      addressed m c s, (bus_mmddata hcl).mpr (.inl ⟨rfl, rfl⟩),
      selected m c s, (bus_mmdctrl hcl).mpr (.inl ⟨rfl, rfl⟩), s', hstep, rfl⟩

/-! ## A sequence of calls -/

/-- The calls in order, each with its accesses and what it returned. -/
def mdioSession : List MdioCall → Prog macSig (List (Trace macSig × Int))
  | [] => pure []
  | c :: calls => do
    let outcome ← c.run.traced
    let outcomes ← mdioSession calls
    pure (outcome :: outcomes)

/-- A query that the driver could not answer. -/
def queryFails (e : Event macSig) : Prop := isAccess e.op = false ∧ fails e

structure PathsAgree (m : Mmds σ) (calls : List MdioCall) (s : BusState σ)
    (outcomes : List (Trace macSig × Int)) (s' : BusState σ) : Prop where
  /-- Whatever the clause of each PHY, the calls may return the same and leave the same. -/
  sameInEveryClause : ∀ clause, ∃ t outcomes' s'', (mdioSession calls).Runs t outcomes' ∧
    (bus m clause).Path s t s'' ∧ (∀ e ∈ t, ¬queryFails e) ∧
    outcomes'.map (·.2) = outcomes.map (·.2) ∧ contents s'' = contents s'
  /-- A failed access is what its call returns. -/
  accessReported : ∀ o ∈ outcomes, ∀ e ∈ o.1, isAccess e.op → fails e → o.2 = answer e ∧ o.2 < 0
  /-- A failed query is reported, and no access is made. -/
  queryReported : ∀ o ∈ outcomes, ∀ e ∈ o.1, queryFails e → o.2 < 0 ∧ ∀ e' ∈ o.1, isAccess e'.op = false

theorem runs_mdioSession_cons {c : MdioCall} {calls : List MdioCall} {outcomes : List (Trace macSig × Int)} :
    (mdioSession (c :: calls)).Runs t outcomes ↔ ∃ u r v os, t = u ++ v ∧ c.run.Runs u r ∧
      (mdioSession calls).Runs v os ∧ outcomes = (u, r) :: os := by
  rw [mdioSession, Prog.runs_bind]
  constructor
  · rintro ⟨u, o, v, rfl, hrun, hrest⟩
    obtain ⟨r, hr, rfl⟩ := (Prog.runs_traced).mp hrun
    obtain ⟨v, os, _, rfl, hos, rfl, rfl⟩ := (Prog.runs_bind).mp hrest
    exact ⟨u, r, v, os, by rw [List.append_nil], hr, hos, rfl⟩
  · rintro ⟨u, r, v, os, rfl, hr, hos, rfl⟩
    exact ⟨u, (u, r), v, rfl, (Prog.runs_traced).mpr ⟨r, hr, rfl⟩,
      (Prog.runs_bind).mpr ⟨v, os, [], (List.append_nil v).symm, hos, rfl, rfl⟩⟩

/-- The calls one after the other as accesses to the MMDs. -/
inductive DirectRun (m : Mmds σ) : List MdioCall → (BitVec 16 → σ) → List Int → (BitVec 16 → σ) → Prop where
  | nil {u : BitVec 16 → σ} : DirectRun m [] u [] u
  | cons {c : MdioCall} {calls : List MdioCall} {u v w : BitVec 16 → σ} {r : Int} {rs : List Int}
      (h : c.Direct m u v r) (hrest : DirectRun m calls v rs w) : DirectRun m (c :: calls) u (r :: rs) w

theorem chosen_of_answered {p : BitVec 16} {q : Int} (hstep : bus m clause s ⟨.getMdioCl p, q⟩ s')
    (hq : ¬queryFails ⟨.getMdioCl p, q⟩) : chosen q = clause p ∧ s' = s := by
  obtain ⟨hans, rfl⟩ := hstep
  have hcode : q = (clause p).code := hans.resolve_right fun hneg => hq ⟨rfl, decide_eq_true hneg⟩
  exact ⟨by rw [hcode, chosen_code], rfl⟩

/-- Where every query is answered, a sequence of calls is the sequence of their accesses. -/
theorem directRun_of_mdioSession {calls : List MdioCall} (hcalls : ∀ c ∈ calls, c.regnum &&& miiAddrC45 ≠ 0)
    {outcomes : List (Trace macSig × Int)} (hrun : (mdioSession calls).Runs t outcomes)
    (hpath : (bus m clause).Path s t s') (hq : ∀ e ∈ t, ¬queryFails e) :
    DirectRun m calls (contents s) (outcomes.map (·.2)) (contents s') := by
  induction calls generalizing s t outcomes with
  | nil =>
    obtain ⟨rfl, rfl⟩ := hrun
    rw [(Dev.path_nil).mp hpath]
    exact .nil
  | cons c calls ih =>
    obtain ⟨u, r, v, os, rfl, hr, hos, rfl⟩ := (runs_mdioSession_cons).mp hrun
    obtain ⟨s₁, hu, hv⟩ := (Dev.path_append).mp hpath
    obtain ⟨q, w, rfl, hw⟩ := (runs_run (hcalls c List.mem_cons_self)).mp hr
    obtain ⟨s₀, hstep, hu⟩ := hu
    obtain ⟨hchosen, rfl⟩ := chosen_of_answered hstep (hq _ (by simp))
    rw [hchosen] at hw
    exact .cons (direct_of_path hw hu) (ih (fun c hc => hcalls c (List.mem_cons_of_mem _ hc)) hos hv
      fun e he => hq e (List.mem_append_right _ he))

/-- Every sequence of accesses can be had in every clause. -/
theorem exists_mdioSession_of_directRun {calls : List MdioCall}
    (hcalls : ∀ c ∈ calls, c.regnum &&& miiAddrC45 ≠ 0) {rs : List Int} {u : BitVec 16 → σ}
    (h : DirectRun m calls (contents s) rs u) : ∃ t outcomes s', (mdioSession calls).Runs t outcomes ∧
      (bus m clause).Path s t s' ∧ (∀ e ∈ t, ¬queryFails e) ∧ outcomes.map (·.2) = rs ∧ contents s' = u := by
  induction calls generalizing s rs with
  | nil =>
    cases h
    exact ⟨[], [], s, ⟨rfl, rfl⟩, rfl, by simp, rfl, rfl⟩
  | cons c calls ih =>
    cases h with
    | @cons _ _ _ v _ r rs h hrest =>
      obtain ⟨t₁, s₁, hrun, hpath, rfl⟩ := exists_path_of_direct h
      obtain ⟨t₂, os, s₂, hos, hpath₂, hq, hrs, hu⟩ :=
        ih (fun c hc => hcalls c (List.mem_cons_of_mem _ hc)) hrest
      have hcall : c.run.Runs (⟨.getMdioCl c.phyaddr, (clause c.phyaddr).code⟩ :: t₁) r :=
        (runs_run (hcalls c List.mem_cons_self)).mpr ⟨_, t₁, rfl, by rwa [chosen_code]⟩
      refine ⟨_, _, s₂, (runs_mdioSession_cons).mpr ⟨_, r, t₂, os, rfl, hcall, hos, rfl⟩, ?_, ?_, ?_, hu⟩
      · exact ⟨s, ⟨.inl rfl, rfl⟩, (Dev.path_append).mpr ⟨s₁, hpath, hpath₂⟩⟩
      · intro e he
        rcases List.mem_cons.mp he with rfl | he
        · cases clause c.phyaddr <;> simp [queryFails, fails, answer, Clause.code]
        · rcases List.mem_append.mp he with he | he
          · intro hfails
            have := (surfaces_path c _ t₁ r hrun e he).1
            simp [hfails.1] at this
          · exact hq e he
      · rw [List.map_cons, hrs]

/-- A query and the path that its answer selects. -/
structure IsCall (o : Trace macSig × Int) : Prop where
  shape : ∃ (c : MdioCall) (q : Int) (u : Trace macSig),
    o.1 = ⟨.getMdioCl c.phyaddr, q⟩ :: u ∧ (c.path (chosen q)).Runs u o.2

theorem calls_of_mdioSession {calls : List MdioCall} (hcalls : ∀ c ∈ calls, c.regnum &&& miiAddrC45 ≠ 0)
    {outcomes : List (Trace macSig × Int)} (hrun : (mdioSession calls).Runs t outcomes) :
    t = outcomes.flatMap (·.1) ∧ ∀ o ∈ outcomes, IsCall o := by
  induction calls generalizing t outcomes with
  | nil =>
    obtain ⟨rfl, rfl⟩ := hrun
    simp
  | cons c calls ih =>
    obtain ⟨u, r, v, os, rfl, hr, hos, rfl⟩ := (runs_mdioSession_cons).mp hrun
    obtain ⟨q, w, rfl, hw⟩ := (runs_run (hcalls c List.mem_cons_self)).mp hr
    obtain ⟨hv, hall⟩ := ih (fun c hc => hcalls c (List.mem_cons_of_mem _ hc)) hos
    refine ⟨by rw [List.flatMap_cons, ← hv], ?_⟩
    intro o ho
    rcases List.mem_cons.mp ho with rfl | ho
    · exact ⟨c, q, w, rfl, hw⟩
    · exact hall o ho

theorem path_ne_nil {c : MdioCall} {cl : Clause} (h : (c.path cl).Runs t r) : t ≠ [] := by
  cases cl with
  | c45 =>
    obtain ⟨q, rfl, -⟩ := (runs_last).mp h
    simp
  | c22 =>
    obtain ⟨q, u, rfl, -⟩ := h
    simp

/-- An access follows the query, whatever the answer. -/
theorem IsCall.exists_access {o : Trace macSig × Int} (h : IsCall o) : ∃ e ∈ o.1, isAccess e.op := by
  obtain ⟨c, q, u, hu, hrun⟩ := h.shape
  obtain ⟨e, he⟩ := List.exists_mem_of_ne_nil u (path_ne_nil hrun)
  exact ⟨e, by rw [hu]; exact List.mem_cons_of_mem _ he, (surfaces_path c _ u o.2 hrun e he).1⟩

theorem IsCall.access_reported {o : Trace macSig × Int} (h : IsCall o) {e : Event macSig} (he : e ∈ o.1)
    (haccess : isAccess e.op) (hfails : fails e) : o.2 = answer e ∧ o.2 < 0 := by
  obtain ⟨c, q, u, hu, hrun⟩ := h.shape
  rw [hu] at he
  rcases List.mem_cons.mp he with rfl | he
  · simp [isAccess] at haccess
  · have hret := (surfaces_path c _ u o.2 hrun e he).2 hfails
    exact ⟨hret, hret ▸ of_decide_eq_true hfails⟩

/-- The two paths agree, and every failure is reported, if and only if no query fails: for every bus,
whatever the clause of each PHY and whatever its MMDs do, and for all failures of accesses. -/
theorem mdio_paths_agree_iff {m : Mmds σ} {clause : BitVec 16 → Clause} {calls : List MdioCall}
    (hcalls : ∀ c ∈ calls, c.regnum &&& miiAddrC45 ≠ 0) {s s' : BusState σ} {t : Trace macSig}
    {outcomes : List (Trace macSig × Int)} (hrun : (mdioSession calls).Runs t outcomes)
    (hpath : (bus m clause).Path s t s') :
    PathsAgree m calls s outcomes s' ↔ ∀ e ∈ t, ¬queryFails e := by
  obtain ⟨ht, hall⟩ := calls_of_mdioSession hcalls hrun
  constructor
  · intro h e he hfails
    rw [ht] at he
    obtain ⟨o, ho, he⟩ := List.mem_flatMap.mp he
    obtain ⟨e', he', haccess⟩ := (hall o ho).exists_access
    have hnone := (h.queryReported o ho e he hfails).2 e' he'
    simp [haccess] at hnone
  · intro hq
    refine ⟨fun clause' => ?_, fun o ho e he => (hall o ho).access_reported he, ?_⟩
    · exact exists_mdioSession_of_directRun hcalls (directRun_of_mdioSession hcalls hrun hpath hq)
    · intro o ho e he hfails
      have hmem : e ∈ t := by
        rw [ht]
        exact List.mem_flatMap.mpr ⟨o, ho, he⟩
      exact (hq e hmem hfails).elim

/-! One read of register 7 of device 1. -/

/-- MMDs that are memory. -/
def memMmds : Mmds (BitVec 5 → BitVec 16 → BitVec 16) where
  read dev reg x := (x dev reg, x)
  write dev reg v x := Function.update x dev (Function.update (x dev) reg v)

/-- Every register holds `0x1234`. -/
def filledBus : BusState (BitVec 5 → BitVec 16 → BitVec 16) := fun _ => ⟨fun _ => 0, 0, fun _ => 0, fun _ _ => 0x1234⟩

def oneRead : List MdioCall := [.read 3 0x40010007]

theorem oneRead_c45 : ∀ c ∈ oneRead, c.regnum &&& miiAddrC45 ≠ 0 := by decide

/-- In clause 45. -/
def directRead : Trace macSig := [⟨.getMdioCl 3, (0 : Int)⟩, ⟨.mdioRd 1 3 7, (0x1234 : Int)⟩]

theorem pathsAgree_directRead : ∃ s', PathsAgree memMmds oneRead filledBus [(directRead, 0x1234)] s' := by
  have hlast : ((MdioCall.read 3 0x40010007).path .c45).Runs [⟨.mdioRd 1 3 7, (0x1234 : Int)⟩] 0x1234 :=
    ⟨(0x1234 : Int), [], rfl, rfl, rfl⟩
  have hrun : (mdioSession oneRead).Runs directRead [(directRead, 0x1234)] :=
    (runs_mdioSession_cons).mpr ⟨_, _, [], [], rfl,
      (runs_run (oneRead_c45 _ List.mem_cons_self)).mpr ⟨0, _, rfl, hlast⟩, ⟨rfl, rfl⟩, rfl⟩
  have hpath : (bus memMmds fun _ => .c45).Path filledBus directRead
      (Function.update filledBus 3 ((filledBus 3).read45 memMmds 1 7).2) :=
    ⟨filledBus, ⟨.inl rfl, rfl⟩, _, .inl ⟨rfl, rfl⟩, rfl⟩
  refine ⟨_, (mdio_paths_agree_iff oneRead_c45 hrun hpath).mpr ?_⟩
  simp [directRead, queryFails, fails, answer, isAccess]

/-- The PHY is accessed in clause 45, but the query has failed. -/
def strayRead : Trace macSig := [⟨.getMdioCl 3, (-1 : Int)⟩, ⟨.mdioWr 0 3 13 1, (0 : Int)⟩,
  ⟨.mdioWr 0 3 14 7, (0 : Int)⟩, ⟨.mdioWr 0 3 13 0x4001, (0 : Int)⟩, ⟨.mdioRd 0 3 14, (7 : Int)⟩]

/-- The number of the register is returned as its value. -/
theorem not_pathsAgree_strayRead : ∃ s', (mdioSession oneRead).Runs strayRead [(strayRead, 7)] ∧
    (bus memMmds fun _ => .c45).Path filledBus strayRead s' ∧
    ¬PathsAgree memMmds oneRead filledBus [(strayRead, 7)] s' := by
  have hzero {o : MacOp} {k : Prog macSig Int} {t : Trace macSig} {r : Int} (hk : k.Runs t r) :
      (ioctl o >>= fun ret => if ret < 0 then pure ret else k).Runs (⟨o, (0 : Int)⟩ :: t) r :=
    (runs_checked).mpr (.inr ⟨0, t, Int.le_refl 0, rfl, hk⟩)
  have hlast : (c22mdioRead 3 stdMmddata).Runs [⟨.mdioRd 0 3 14, (7 : Int)⟩] 7 := ⟨(7 : Int), [], rfl, rfl, rfl⟩
  have hcall : (MdioCall.read 3 0x40010007).run.Runs strayRead 7 :=
    (runs_run (oneRead_c45 _ List.mem_cons_self)).mpr ⟨-1, _, rfl, hzero (hzero (hzero hlast))⟩
  have hrun : (mdioSession oneRead).Runs strayRead [(strayRead, 7)] :=
    (runs_mdioSession_cons).mpr ⟨_, _, [], [], rfl, hcall, ⟨rfl, rfl⟩, rfl⟩
  let s₁ := Function.update filledBus 3 ((filledBus 3).write45 memMmds 0 13 1)
  let s₂ := Function.update s₁ 3 ((s₁ 3).write45 memMmds 0 14 7)
  let s₃ := Function.update s₂ 3 ((s₂ 3).write45 memMmds 0 13 0x4001)
  have hpath : (bus memMmds fun _ => .c45).Path filledBus strayRead
      (Function.update s₃ 3 ((s₃ 3).read45 memMmds 0 14).2) :=
    ⟨filledBus, ⟨.inr (by decide), rfl⟩, s₁, .inl ⟨rfl, rfl⟩, s₂, .inl ⟨rfl, rfl⟩, s₃, .inl ⟨rfl, rfl⟩,
      _, .inl ⟨rfl, rfl⟩, rfl⟩
  refine ⟨_, hrun, hpath, ?_⟩
  intro h
  have hquery := (h.queryReported _ List.mem_cons_self ⟨.getMdioCl 3, (-1 : Int)⟩ List.mem_cons_self
    ⟨rfl, rfl⟩).1
  exact absurd hquery (by decide)

end Gpy2xx
