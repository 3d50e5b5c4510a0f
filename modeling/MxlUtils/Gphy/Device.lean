import MxlUtils.Lib.Lock
import MxlUtils.Lib.Bits

/- What the API sees of a PHY: MDIO registers (clause 22, MMD and SMDIO), the
   mailbox behind them, the heap and the random source. A C function returning
   a negative int is a program that fails with that `Errno`; a non-negative
   result is success, and what the caller gets through pointers is the value.
   Log output is left out. -/
namespace Gpy2xx
open Effect Bits

-- The interface has arrays of 3, 4 and 6 elements.
instance neZero_three : NeZero 3 := ⟨by decide⟩
instance neZero_four : NeZero 4 := ⟨by decide⟩
instance neZero_six : NeZero 6 := ⟨by decide⟩

/-- A negative return value. -/
structure Errno where
  code : Int
  neg : code < 0
deriving DecidableEq

/-- The bare `-1` some helpers return. -/
def errRet : Errno := ⟨-1, by decide⟩
def EIO : Errno := ⟨-5, by decide⟩
def ENXIO : Errno := ⟨-6, by decide⟩
def ENOMEM : Errno := ⟨-12, by decide⟩
def EINVAL : Errno := ⟨-22, by decide⟩

/-- MDIO manageable devices. -/
inductive Mmd where
  | pmapmd
  | pcs
  | an
  | vend1
  | vend2
deriving DecidableEq, Repr

/-- The accesses a function of the API makes. -/
inductive RegOp where
  | phyRead (reg : Nat)
  | phyWrite (reg : Nat) (val : BitVec 16)
  | mmdRead (devad : Mmd) (reg : Nat)
  | mmdWrite (devad : Mmd) (reg : Nat) (val : BitVec 16)
  | smdioRead (reg : Nat)
  | smdioWrite (reg : Nat) (val : BitVec 16)
  | mboxRead16 (addr : Nat)
  | mboxWrite16 (addr : Nat) (val : BitVec 16)
  | mboxRead32 (addr : Nat)
  | mboxWrite32 (addr : Nat) (val : BitVec 32)
  | osAlloc
  | rand
deriving DecidableEq, Repr

/-- What each access answers. -/
@[reducible] def RegOp.Ret : RegOp → Type
  | .phyRead _ | .mmdRead _ _ | .smdioRead _ | .mboxRead16 _ => Except Errno (BitVec 16)
  | .mboxRead32 _ => Except Errno (BitVec 32)
  | .phyWrite _ _ | .mmdWrite _ _ _ | .smdioWrite _ _ | .mboxWrite16 _ _ | .mboxWrite32 _ _ =>
    Except Errno Unit
  | .osAlloc => Bool
  | .rand => BitVec 32

@[reducible] def regSig : Sig := ⟨RegOp, RegOp.Ret⟩

/-- A function that does not use `phy->lock`. -/
abbrev Api := Fallible regSig Errno

/-- A public function: it may take and release `phy->lock`. -/
abbrev Call := Fallible regSig.locking Errno

abbrev RegTrace := Trace regSig

/-- Whether an access succeeded; for `os_alloc`, whether there was memory. -/
def RegOp.succeeded : (o : RegOp) → o.Ret → Bool
  | .phyRead _, r | .mmdRead _ _, r | .smdioRead _, r | .mboxRead16 _, r => r.isOk
  | .mboxRead32 _, r => r.isOk
  | .phyWrite _ _, r | .mmdWrite _ _ _, r | .smdioWrite _ _, r | .mboxWrite16 _ _, r
  | .mboxWrite32 _ _, r => r.isOk
  | .osAlloc, b => b
  | .rand, _ => true

/-- The access failed. -/
def refused (e : Event regSig) : Bool := !e.op.succeeded e.ret

/-- No access of the run failed. -/
def AllOk (t : RegTrace) : Prop := ∀ e ∈ t, e.op.succeeded e.ret

instance (t : RegTrace) : Decidable (AllOk t) :=
  inferInstanceAs (Decidable (∀ e ∈ t, e.op.succeeded e.ret = true))

/-- A successful answer to each access. -/
def okAnswer : (o : RegOp) → o.Ret
  | .phyRead _ | .mmdRead _ _ | .smdioRead _ | .mboxRead16 _ => .ok 0
  | .mboxRead32 _ => .ok 0
  | .phyWrite _ _ | .mmdWrite _ _ _ | .smdioWrite _ _ | .mboxWrite16 _ _ | .mboxWrite32 _ _ =>
    .ok ()
  | .osAlloc => true
  | .rand => 0

theorem succeeded_okAnswer (o : RegOp) : o.succeeded (okAnswer o) := by
  cases o <;> rfl

/-! ## Register accesses

The macros `PHY_READ`, `PHY_READ_MMD` and `SMDIO_READ` halve the register address of the headers;
the register numbers here are the halved ones. -/

def phyRead (reg : Nat) : Api (BitVec 16) := .ofProg (.call (.phyRead reg) .done)

def phyWrite (reg : Nat) (val : BitVec 16) : Api Unit := .ofProg (.call (.phyWrite reg val) .done)

def phyReadMmd (devad : Mmd) (reg : Nat) : Api (BitVec 16) :=
  .ofProg (.call (.mmdRead devad reg) .done)

def phyWriteMmd (devad : Mmd) (reg : Nat) (val : BitVec 16) : Api Unit :=
  .ofProg (.call (.mmdWrite devad reg val) .done)

def smdioRead (reg : Nat) : Api (BitVec 16) := .ofProg (.call (.smdioRead reg) .done)

def smdioWrite (reg : Nat) (val : BitVec 16) : Api Unit :=
  .ofProg (.call (.smdioWrite reg val) .done)

def phyMboxHwrd (addr : Nat) : Api (BitVec 16) := .ofProg (.call (.mboxRead16 addr) .done)

def phyMboxHwwr (addr : Nat) (val : BitVec 16) : Api Unit :=
  .ofProg (.call (.mboxWrite16 addr val) .done)

def phyMboxRead (addr : Nat) : Api (BitVec 32) := .ofProg (.call (.mboxRead32 addr) .done)

def phyMboxWrite (addr : Nat) (val : BitVec 32) : Api Unit :=
  .ofProg (.call (.mboxWrite32 addr val) .done)

/-- `os_alloc`: false is a null pointer. -/
def osAlloc : Api Bool := .always (.call .osAlloc .done)

/-- Four random bytes. -/
def rand : Api (BitVec 32) := .always (.call .rand .done)

/-- `PHY_SET_MASK_BITS`: read, clear `mask`, set `bits`, write. -/
def phySetMaskBits (reg : Nat) (mask bits : BitVec 16) : Api Unit := do
  let val ← phyRead reg
  phyWrite reg (val &&& ~~~mask ||| bits)

def phySetBits (reg : Nat) (bits : BitVec 16) : Api Unit := phySetMaskBits reg 0 bits

def phySetMaskMmdBits (devad : Mmd) (reg : Nat) (mask bits : BitVec 16) : Api Unit := do
  let val ← phyReadMmd devad reg
  phyWriteMmd devad reg (val &&& ~~~mask ||| bits)

/-- The loop that writes a table to the mailbox, one word at a time. -/
def mboxWriteWords (addr : Nat) : List (BitVec 32) → Api Unit
  | [] => pure ()
  | w :: ws => do
    phyMboxWrite addr w
    mboxWriteWords (addr + 4) ws

/-- The loop that reads `n` words of a table. -/
def mboxReadWords (addr : Nat) : (n : Nat) → Api (List (BitVec 32))
  | 0 => pure []
  | n + 1 => do
    let w ← phyMboxRead addr
    let ws ← mboxReadWords (addr + 4) n
    pure (w :: ws)

/-! ## Runs of the accesses -/

section Runs
variable {β : Type} {t : RegTrace} {r : Except Errno β} {reg addr : Nat} {devad : Mmd}
variable {val : BitVec 16} {word : BitVec 32}

theorem runs_phyRead {c : Except Errno (BitVec 16)} :
    (phyRead reg).Runs t c ↔ t = [⟨.phyRead reg, c⟩] :=
  Fallible.runs_access (S := regSig) (o := .phyRead reg) id id (fun _ => rfl) fun _ => rfl

theorem runs_phyReadMmd {c : Except Errno (BitVec 16)} :
    (phyReadMmd devad reg).Runs t c ↔ t = [⟨.mmdRead devad reg, c⟩] :=
  Fallible.runs_access (S := regSig) (o := .mmdRead devad reg) id id (fun _ => rfl) fun _ => rfl

theorem runs_phyWriteMmd {c : Except Errno Unit} :
    (phyWriteMmd devad reg val).Runs t c ↔ t = [⟨.mmdWrite devad reg val, c⟩] :=
  Fallible.runs_access (S := regSig) (o := .mmdWrite devad reg val) id id (fun _ => rfl) fun _ => rfl

theorem runs_smdioRead {c : Except Errno (BitVec 16)} :
    (smdioRead reg).Runs t c ↔ t = [⟨.smdioRead reg, c⟩] :=
  Fallible.runs_access (S := regSig) (o := .smdioRead reg) id id (fun _ => rfl) fun _ => rfl

theorem runs_smdioWrite {c : Except Errno Unit} :
    (smdioWrite reg val).Runs t c ↔ t = [⟨.smdioWrite reg val, c⟩] :=
  Fallible.runs_access (S := regSig) (o := .smdioWrite reg val) id id (fun _ => rfl) fun _ => rfl

theorem runs_phyMboxHwwr {c : Except Errno Unit} :
    (phyMboxHwwr addr val).Runs t c ↔ t = [⟨.mboxWrite16 addr val, c⟩] :=
  Fallible.runs_access (S := regSig) (o := .mboxWrite16 addr val) id id (fun _ => rfl) fun _ => rfl

theorem runs_phyRead_bind {f : BitVec 16 → Api β} :
    (phyRead reg >>= f).Runs t r ↔
      (∃ e, t = [⟨.phyRead reg, .error e⟩] ∧ r = .error e) ∨
      (∃ v t', t = ⟨.phyRead reg, .ok v⟩ :: t' ∧ (f v).Runs t' r) :=
  Fallible.runs_access_bind (S := regSig) (o := .phyRead reg) id id (fun _ => rfl) fun _ => rfl

theorem runs_phyWrite_bind {f : Unit → Api β} :
    (phyWrite reg val >>= f).Runs t r ↔
      (∃ e, t = [⟨.phyWrite reg val, .error e⟩] ∧ r = .error e) ∨
      (∃ v t', t = ⟨.phyWrite reg val, .ok v⟩ :: t' ∧ (f v).Runs t' r) :=
  Fallible.runs_access_bind (S := regSig) (o := .phyWrite reg val) id id (fun _ => rfl) fun _ => rfl

theorem runs_phyReadMmd_bind {f : BitVec 16 → Api β} :
    (phyReadMmd devad reg >>= f).Runs t r ↔
      (∃ e, t = [⟨.mmdRead devad reg, .error e⟩] ∧ r = .error e) ∨
      (∃ v t', t = ⟨.mmdRead devad reg, .ok v⟩ :: t' ∧ (f v).Runs t' r) :=
  Fallible.runs_access_bind (S := regSig) (o := .mmdRead devad reg) id id (fun _ => rfl) fun _ => rfl

theorem runs_phyWriteMmd_bind {f : Unit → Api β} :
    (phyWriteMmd devad reg val >>= f).Runs t r ↔
      (∃ e, t = [⟨.mmdWrite devad reg val, .error e⟩] ∧ r = .error e) ∨
      (∃ v t', t = ⟨.mmdWrite devad reg val, .ok v⟩ :: t' ∧ (f v).Runs t' r) :=
  Fallible.runs_access_bind (S := regSig) (o := .mmdWrite devad reg val) id id (fun _ => rfl) fun _ => rfl

theorem runs_phyMboxRead_bind {f : BitVec 32 → Api β} :
    (phyMboxRead addr >>= f).Runs t r ↔
      (∃ e, t = [⟨.mboxRead32 addr, .error e⟩] ∧ r = .error e) ∨
      (∃ v t', t = ⟨.mboxRead32 addr, .ok v⟩ :: t' ∧ (f v).Runs t' r) :=
  Fallible.runs_access_bind (S := regSig) (o := .mboxRead32 addr) id id (fun _ => rfl) fun _ => rfl

theorem runs_phyMboxWrite_bind {f : Unit → Api β} :
    (phyMboxWrite addr word >>= f).Runs t r ↔
      (∃ e, t = [⟨.mboxWrite32 addr word, .error e⟩] ∧ r = .error e) ∨
      (∃ v t', t = ⟨.mboxWrite32 addr word, .ok v⟩ :: t' ∧ (f v).Runs t' r) :=
  Fallible.runs_access_bind (S := regSig) (o := .mboxWrite32 addr word) id id (fun _ => rfl) fun _ => rfl

theorem runs_phyMboxHwrd_bind {f : BitVec 16 → Api β} :
    (phyMboxHwrd addr >>= f).Runs t r ↔
      (∃ e, t = [⟨.mboxRead16 addr, .error e⟩] ∧ r = .error e) ∨
      (∃ v t', t = ⟨.mboxRead16 addr, .ok v⟩ :: t' ∧ (f v).Runs t' r) :=
  Fallible.runs_access_bind (S := regSig) (o := .mboxRead16 addr) id id (fun _ => rfl) fun _ => rfl

theorem runs_phyMboxHwwr_bind {f : Unit → Api β} :
    (phyMboxHwwr addr val >>= f).Runs t r ↔
      (∃ e, t = [⟨.mboxWrite16 addr val, .error e⟩] ∧ r = .error e) ∨
      (∃ v t', t = ⟨.mboxWrite16 addr val, .ok v⟩ :: t' ∧ (f v).Runs t' r) :=
  Fallible.runs_access_bind (S := regSig) (o := .mboxWrite16 addr val) id id (fun _ => rfl) fun _ => rfl

theorem runs_smdioRead_bind {f : BitVec 16 → Api β} :
    (smdioRead reg >>= f).Runs t r ↔
      (∃ e, t = [⟨.smdioRead reg, .error e⟩] ∧ r = .error e) ∨
      (∃ v t', t = ⟨.smdioRead reg, .ok v⟩ :: t' ∧ (f v).Runs t' r) :=
  Fallible.runs_access_bind (S := regSig) (o := .smdioRead reg) id id (fun _ => rfl) fun _ => rfl

theorem runs_smdioWrite_bind {f : Unit → Api β} :
    (smdioWrite reg val >>= f).Runs t r ↔
      (∃ e, t = [⟨.smdioWrite reg val, .error e⟩] ∧ r = .error e) ∨
      (∃ v t', t = ⟨.smdioWrite reg val, .ok v⟩ :: t' ∧ (f v).Runs t' r) :=
  Fallible.runs_access_bind (S := regSig) (o := .smdioWrite reg val) id id (fun _ => rfl) fun _ => rfl

theorem runs_osAlloc_bind {f : Bool → Api β} :
    (osAlloc >>= f).Runs t r ↔ ∃ b t', t = ⟨.osAlloc, b⟩ :: t' ∧ (f b).Runs t' r :=
  Fallible.runs_always_bind (S := regSig) (o := .osAlloc)

theorem runs_rand_bind {f : BitVec 32 → Api β} :
    (rand >>= f).Runs t r ↔ ∃ v t', t = ⟨.rand, v⟩ :: t' ∧ (f v).Runs t' r :=
  Fallible.runs_always_bind (S := regSig) (o := .rand)

end Runs

/-! ## Accesses that fail exactly when they are refused -/

section Refused
variable {reg addr : Nat} {val : BitVec 16}

theorem failsOn_phyRead : Fallible.FailsOn (fun e => refused e) (phyRead reg) :=
  Fallible.FailsOn.access fun c => Iff.of_eq (Bool.not_eq_true' c.isOk).symm

theorem failsOn_phyWrite : Fallible.FailsOn (fun e => refused e) (phyWrite reg val) :=
  Fallible.FailsOn.access fun c => Iff.of_eq (Bool.not_eq_true' c.isOk).symm

theorem failsOn_phyReadMmd {devad : Mmd} : Fallible.FailsOn (fun e => refused e) (phyReadMmd devad reg) :=
  Fallible.FailsOn.access fun c => Iff.of_eq (Bool.not_eq_true' c.isOk).symm

theorem failsOn_phyWriteMmd {devad : Mmd} : Fallible.FailsOn (fun e => refused e) (phyWriteMmd devad reg val) :=
  Fallible.FailsOn.access fun c => Iff.of_eq (Bool.not_eq_true' c.isOk).symm

theorem failsOn_smdioRead : Fallible.FailsOn (fun e => refused e) (smdioRead reg) :=
  Fallible.FailsOn.access fun c => Iff.of_eq (Bool.not_eq_true' c.isOk).symm

theorem failsOn_smdioWrite : Fallible.FailsOn (fun e => refused e) (smdioWrite reg val) :=
  Fallible.FailsOn.access fun c => Iff.of_eq (Bool.not_eq_true' c.isOk).symm

theorem failsOn_phyMboxHwrd : Fallible.FailsOn (fun e => refused e) (phyMboxHwrd addr) :=
  Fallible.FailsOn.access fun c => Iff.of_eq (Bool.not_eq_true' c.isOk).symm

theorem failsOn_phyMboxHwwr : Fallible.FailsOn (fun e => refused e) (phyMboxHwwr addr val) :=
  Fallible.FailsOn.access fun c => Iff.of_eq (Bool.not_eq_true' c.isOk).symm

theorem makes_smdioRead : Fallible.Makes 1 (smdioRead reg) :=
  Fallible.Makes.access (S := regSig) (o := .smdioRead reg) (g := id)

theorem makes_smdioWrite : Fallible.Makes 1 (smdioWrite reg val) :=
  Fallible.Makes.access (S := regSig) (o := .smdioWrite reg val) (g := id)

end Refused

/-! ## Runs of the table loops -/

/-- The mailbox address of an access. -/
def RegOp.mboxAddr : RegOp → Option Nat
  | .mboxRead16 a | .mboxWrite16 a _ | .mboxRead32 a | .mboxWrite32 a _ => some a
  | _ => none

/-- The mailbox addresses of a run, in order. -/
def mboxAddrs (t : RegTrace) : List Nat := t.filterMap (·.op.mboxAddr)

/-- The addresses of `n` words from `a` on. -/
def tableAddrs (a n : Nat) : List Nat := (List.range n).map (a + 4 * ·)

theorem tableAddrs_succ (a n : Nat) : tableAddrs a (n + 1) = a :: tableAddrs (a + 4) n := by
  rw [tableAddrs, List.range_succ_eq_map, List.map_cons, List.map_map, tableAddrs]
  refine congrArg (a :: ·) (List.map_congr_left fun k _ => ?_)
  show a + 4 * (k + 1) = a + 4 + 4 * k
  omega

/-- The writes of a table, all successful. -/
def okWrites (a : Nat) : List (BitVec 32) → RegTrace
  | [] => []
  | w :: ws => ⟨.mboxWrite32 a w, .ok ()⟩ :: okWrites (a + 4) ws

theorem mboxAddrs_append (t₁ t₂ : RegTrace) :
    mboxAddrs (t₁ ++ t₂) = mboxAddrs t₁ ++ mboxAddrs t₂ := List.filterMap_append

theorem mboxAddrs_okWrites (a : Nat) (ws : List (BitVec 32)) :
    mboxAddrs (okWrites a ws) = tableAddrs a ws.length := by
  induction ws generalizing a with
  | nil => rfl
  | cons w ws ih =>
    rw [List.length_cons, tableAddrs_succ, ← ih]
    rfl

theorem mem_okWrites {a : Nat} {ws : List (BitVec 32)} {k : Nat} (hk : k < ws.length) :
    ⟨.mboxWrite32 (a + 4 * k) ws[k], .ok ()⟩ ∈ okWrites a ws := by
  induction ws generalizing a k with
  | nil => simp at hk
  | cons w ws ih =>
    cases k with
    | zero => exact List.mem_cons_self
    | succ k =>
      have h := ih (a := a + 4) (k := k) (by simpa using hk)
      have ha : a + 4 * (k + 1) = a + 4 + 4 * k := by omega
      rw [ha]
      exact List.mem_cons_of_mem _ h

theorem mem_tableAddrs {a b n : Nat} : b ∈ tableAddrs a n ↔ ∃ k < n, b = a + 4 * k := by
  simp only [tableAddrs, List.mem_map, List.mem_range, eq_comm]

theorem allOk_okWrites (a : Nat) (ws : List (BitVec 32)) : AllOk (okWrites a ws) := by
  induction ws generalizing a with
  | nil => intro e he; cases he
  | cons w ws ih =>
    intro e he
    rcases List.mem_cons.mp he with rfl | he
    · rfl
    · exact ih (a + 4) e he

theorem addr_of_mem_okWrites {a b : Nat} {ws : List (BitVec 32)} {v : BitVec 32}
    {r : Except Errno Unit} (h : ⟨.mboxWrite32 b v, r⟩ ∈ okWrites a ws) :
    b ∈ tableAddrs a ws.length := by
  rw [← mboxAddrs_okWrites]
  exact List.mem_filterMap.mpr ⟨_, h, rfl⟩

theorem allOk_cons {e : Event regSig} {t : RegTrace} : AllOk (e :: t) ↔ e.op.succeeded e.ret ∧ AllOk t :=
  List.forall_mem_cons

/-- A program that fails on nothing but an access that fails. -/
theorem allOk_iff_of_failsOn {α : Type} {x : Api α} {t : RegTrace} {r : Except Errno α}
    (hx : Fallible.FailsOn (fun e => refused e) x) (h : x.Runs t r) : AllOk t ↔ r.isOk := by
  have hgoes := hx t r h
  rw [show AllOk t ↔ ∀ e ∈ t, ¬refused e = true by simp [AllOk, refused], ← hgoes]
  cases r with
  | error e => simp [Except.isOk, Except.toBool]
  | ok a => simp [Except.isOk, Except.toBool]

theorem allOk_append_iff {t₁ t₂ : RegTrace} (h : AllOk t₁) : AllOk (t₁ ++ t₂) ↔ AllOk t₂ := by
  constructor
  · intro hall e he
    exact hall e (List.mem_append_right _ he)
  · intro hall e he
    rcases List.mem_append.mp he with he | he
    · exact h e he
    · exact hall e he

/-- The mailbox address of a write access. -/
def RegOp.mboxWriteAddr : RegOp → Option Nat
  | .mboxWrite16 a _ | .mboxWrite32 a _ => some a
  | _ => none

theorem all_mboxWriteWords {P : RegOp → Prop} {a : Nat} {ws : List (BitVec 32)}
    (h : ∀ b ∈ tableAddrs a ws.length, ∀ w ∈ ws, P (.mboxWrite32 b w)) : (mboxWriteWords a ws).All P := by
  induction ws generalizing a with
  | nil => exact Fallible.All.pure _
  | cons w ws ih =>
    rw [List.length_cons, tableAddrs_succ] at h
    refine Fallible.All.bind ⟨h a List.mem_cons_self w List.mem_cons_self, fun _ => trivial⟩ fun _ => ih ?_
    intro b hb v hv
    exact h b (List.mem_cons_of_mem _ hb) v (List.mem_cons_of_mem _ hv)

theorem all_mboxReadWords {P : RegOp → Prop} {a n : Nat} (h : ∀ b ∈ tableAddrs a n, P (.mboxRead32 b)) :
    (mboxReadWords a n).All P := by
  induction n generalizing a with
  | zero => exact Fallible.All.pure _
  | succ n ih =>
    rw [tableAddrs_succ] at h
    refine Fallible.All.bind ⟨h a List.mem_cons_self, fun _ => trivial⟩ fun _ => ?_
    exact Fallible.All.bind (ih fun b hb => h b (List.mem_cons_of_mem _ hb)) fun _ => Fallible.All.pure _

/-- The write loop either writes the whole table or stops at the word whose write failed. -/
theorem runs_mboxWriteWords {a : Nat} {ws : List (BitVec 32)} {t : RegTrace}
    {r : Except Errno Unit} (h : (mboxWriteWords a ws).Runs t r) :
    (t = okWrites a ws ∧ r = .ok ()) ∨
    (∃ j, ∃ hj : j < ws.length, ∃ e, r = .error e ∧
      t = okWrites a (ws.take j) ++ [⟨.mboxWrite32 (a + 4 * j) ws[j], .error e⟩]) := by
  induction ws generalizing a t with
  | nil => exact .inl h
  | cons w ws ih =>
    rcases (runs_phyMboxWrite_bind).mp h with ⟨e, ht, hr⟩ | ⟨_, t', ht, hrest⟩
    · exact .inr ⟨0, Nat.succ_pos _, e, hr, ht⟩
    · rcases ih hrest with ⟨rfl, hr⟩ | ⟨j, hj, e, hr, rfl⟩
      · exact .inl ⟨ht, hr⟩
      · refine .inr ⟨j + 1, Nat.succ_lt_succ hj, e, hr, ?_⟩
        have ha : a + 4 + 4 * j = a + 4 * (j + 1) := by omega
        rw [ht, ha]
        rfl

theorem ok_of_allOk_mboxWriteWords {a : Nat} {ws : List (BitVec 32)} {t : RegTrace}
    {r : Except Errno Unit} (h : (mboxWriteWords a ws).Runs t r) (hok : AllOk t) : r = .ok () := by
  rcases runs_mboxWriteWords h with ⟨_, hr⟩ | ⟨j, hj, e, _, rfl⟩
  · exact hr
  · have hfalse := hok _ (List.mem_append_right _ List.mem_cons_self)
    cases hfalse

/-- The addresses the write loop accesses are the table's, in order, up to a failure. -/
theorem mboxAddrs_mboxWriteWords {a : Nat} {ws : List (BitVec 32)} {t : RegTrace}
    {r : Except Errno Unit} (h : (mboxWriteWords a ws).Runs t r) :
    mboxAddrs t <+: tableAddrs a ws.length ∧
      (r = .ok () → mboxAddrs t = tableAddrs a ws.length) := by
  induction ws generalizing a t with
  | nil =>
    obtain ⟨rfl, -⟩ := h
    exact ⟨List.prefix_rfl, fun _ => rfl⟩
  | cons w ws ih =>
    rw [List.length_cons, tableAddrs_succ]
    rcases (runs_phyMboxWrite_bind).mp h with ⟨e, rfl, hr⟩ | ⟨_, t', rfl, hrest⟩
    · refine ⟨⟨tableAddrs (a + 4) ws.length, rfl⟩, fun hok => ?_⟩
      rw [hr] at hok
      cases hok
    · obtain ⟨hpre, hall⟩ := ih hrest
      refine ⟨List.cons_prefix_cons.mpr ⟨rfl, hpre⟩, fun hok => ?_⟩
      exact congrArg (a :: ·) (hall hok)

theorem mboxAddrs_mboxReadWords {a n : Nat} {t : RegTrace} {r : Except Errno (List (BitVec 32))}
    (h : (mboxReadWords a n).Runs t r) :
    mboxAddrs t <+: tableAddrs a n ∧ ((∃ ws, r = .ok ws) → mboxAddrs t = tableAddrs a n) := by
  induction n generalizing a t r with
  | zero =>
    obtain ⟨rfl, -⟩ := h
    exact ⟨List.prefix_rfl, fun _ => rfl⟩
  | succ n ih =>
    rw [tableAddrs_succ]
    rcases (runs_phyMboxRead_bind).mp h with ⟨e, rfl, rfl⟩ | ⟨w, t', rfl, hrest⟩
    · refine ⟨⟨tableAddrs (a + 4) n, rfl⟩, fun hok => ?_⟩
      obtain ⟨ws, hok⟩ := hok
      cases hok
    · rcases (Fallible.runs_bind).mp hrest with ⟨e, hws, rfl⟩ | ⟨t₁, ws, t₂, rfl, hws, hend⟩
      · refine ⟨List.cons_prefix_cons.mpr ⟨rfl, (ih hws).1⟩, fun hok => ?_⟩
        obtain ⟨ws, hok⟩ := hok
        cases hok
      · obtain ⟨rfl, rfl⟩ := hend
        have hall := (ih hws).2 ⟨ws, rfl⟩
        have heq : mboxAddrs (⟨.mboxRead32 a, .ok w⟩ :: (t₁ ++ [])) = a :: tableAddrs (a + 4) n := by
          rw [List.append_nil]
          exact congrArg (a :: ·) hall
        exact ⟨heq ▸ List.prefix_rfl, fun _ => heq⟩

theorem ok_of_allOk_mboxReadWords {a n : Nat} {t : RegTrace}
    {r : Except Errno (List (BitVec 32))} (h : (mboxReadWords a n).Runs t r) (hok : AllOk t) :
    r.isOk := by
  induction n generalizing a t r with
  | zero =>
    rw [h.2]
    rfl
  | succ n ih =>
    rcases (runs_phyMboxRead_bind).mp h with ⟨e, rfl, rfl⟩ | ⟨w, t', rfl, hrest⟩
    · cases hok _ List.mem_cons_self
    · rcases (Fallible.runs_bind).mp hrest with ⟨e, hws, rfl⟩ | ⟨t₁, ws, t₂, rfl, hws, hend⟩
      · cases ih hws fun e he => hok e (List.mem_cons_of_mem _ he)
      · rw [hend.2]
        rfl

/-! ## A device whose registers are memory -/

/-- Registers that hold what was written; whether the heap has memory, and the random source's
answers to come. -/
structure Regs where
  phy : Nat → BitVec 16
  mmd : Mmd → Nat → BitVec 16
  smdio : Nat → BitVec 16
  mbox : Mem
  heapOk : Bool
  rng : Nat → BitVec 32

/-- Registers that hold zero. -/
def zeroRegs (heapOk : Bool) : Regs := ⟨fun _ => 0, fun _ _ => 0, fun _ => 0, fun _ => 0, heapOk,
  fun _ => 0⟩

/-- Registers as memory, every access succeeding. -/
def memHandler : Handler regSig Regs
  | .phyRead r, s => (.ok (s.phy r), s)
  | .phyWrite r v, s => (.ok (), { s with phy := Function.update s.phy r v })
  | .mmdRead d r, s => (.ok (s.mmd d r), s)
  | .mmdWrite d r v, s =>
    (.ok (), { s with mmd := Function.update s.mmd d (Function.update (s.mmd d) r v) })
  | .smdioRead r, s => (.ok (s.smdio r), s)
  | .smdioWrite r v, s => (.ok (), { s with smdio := Function.update s.smdio r v })
  | .mboxRead16 a, s => (.ok (s.mbox.load16 a), s)
  | .mboxWrite16 a v, s => (.ok (), { s with mbox := s.mbox.store16 a v })
  | .mboxRead32 a, s => (.ok (s.mbox.load32 a), s)
  | .mboxWrite32 a v, s => (.ok (), { s with mbox := s.mbox.store32 a v })
  | .osAlloc, s => (s.heapOk, s)
  | .rand, s => (s.rng 0, { s with rng := fun n => s.rng (n + 1) })

/-- Registers as memory, for calls that take the lock. -/
abbrev lockedMem : Handler regSig.locking Regs := Lock.handler memHandler

section Memory
variable (s : Regs) (addr : Nat)

@[simp] theorem exec_phyMboxRead :
    (phyMboxRead addr).exec memHandler s = (.ok (s.mbox.load32 addr), s) := rfl

@[simp] theorem exec_phyMboxWrite (v : BitVec 32) :
    (phyMboxWrite addr v).exec memHandler s = (.ok (), { s with mbox := s.mbox.store32 addr v }) :=
  rfl

@[simp] theorem exec_phyMboxHwrd :
    (phyMboxHwrd addr).exec memHandler s = (.ok (s.mbox.load16 addr), s) := rfl

@[simp] theorem exec_phyMboxHwwr (v : BitVec 16) :
    (phyMboxHwwr addr v).exec memHandler s = (.ok (), { s with mbox := s.mbox.store16 addr v }) :=
  rfl

@[simp] theorem exec_phyRead (reg : Nat) :
    (phyRead reg).exec memHandler s = (.ok (s.phy reg), s) := rfl

@[simp] theorem exec_phyWrite (reg : Nat) (v : BitVec 16) :
    (phyWrite reg v).exec memHandler s =
      (.ok (), { s with phy := Function.update s.phy reg v }) := rfl

@[simp] theorem exec_phyReadMmd (d : Mmd) (reg : Nat) :
    (phyReadMmd d reg).exec memHandler s = (.ok (s.mmd d reg), s) := rfl

@[simp] theorem exec_phyWriteMmd (d : Mmd) (reg : Nat) (v : BitVec 16) :
    (phyWriteMmd d reg v).exec memHandler s =
      (.ok (), { s with mmd := Function.update s.mmd d (Function.update (s.mmd d) reg v) }) := rfl

@[simp] theorem exec_smdioRead (reg : Nat) :
    (smdioRead reg).exec memHandler s = (.ok (s.smdio reg), s) := rfl

@[simp] theorem exec_smdioWrite (reg : Nat) (v : BitVec 16) :
    (smdioWrite reg v).exec memHandler s =
      (.ok (), { s with smdio := Function.update s.smdio reg v }) := rfl

@[simp] theorem exec_osAlloc : osAlloc.exec memHandler s = (.ok s.heapOk, s) := rfl

@[simp] theorem exec_rand :
    rand.exec memHandler s = (.ok (s.rng 0), { s with rng := fun n => s.rng (n + 1) }) := rfl

theorem exec_phySetMaskBits (reg : Nat) (mask bits : BitVec 16) :
    (phySetMaskBits reg mask bits).exec memHandler s =
      (.ok (), { s with phy := Function.update s.phy reg (s.phy reg &&& ~~~mask ||| bits) }) := rfl

theorem exec_phySetBits (reg : Nat) (bits : BitVec 16) :
    (phySetBits reg bits).exec memHandler s =
      (.ok (), { s with phy := Function.update s.phy reg (s.phy reg ||| bits) }) := by
  have hkeep : s.phy reg &&& ~~~(0 : BitVec 16) = s.phy reg :=
    (congrArg (s.phy reg &&& ·) BitVec.not_zero).trans BitVec.and_allOnes
  rw [phySetBits, exec_phySetMaskBits, hkeep]

theorem exec_phySetMaskMmdBits (d : Mmd) (reg : Nat) (mask bits : BitVec 16) :
    (phySetMaskMmdBits d reg mask bits).exec memHandler s =
      (.ok (), { s with
        mmd := Function.update s.mmd d
          (Function.update (s.mmd d) reg (s.mmd d reg &&& ~~~mask ||| bits)) }) := rfl

/-- Where no bit is cleared. -/
theorem exec_phySetMaskMmdBits_zero (d : Mmd) (reg : Nat) (bits : BitVec 16) :
    (phySetMaskMmdBits d reg 0 bits).exec memHandler s =
      (.ok (), { s with
        mmd := Function.update s.mmd d
          (Function.update (s.mmd d) reg (s.mmd d reg ||| bits)) }) := by
  have hkeep : s.mmd d reg &&& ~~~(0 : BitVec 16) = s.mmd d reg :=
    (congrArg (s.mmd d reg &&& ·) BitVec.not_zero).trans BitVec.and_allOnes
  rw [exec_phySetMaskMmdBits, hkeep]

theorem exec_mboxWriteWords (ws : List (BitVec 32)) :
    (mboxWriteWords addr ws).exec memHandler s =
      (.ok (), { s with mbox := s.mbox.storeWords addr ws }) := by
  induction ws generalizing s addr with
  | nil => rfl
  | cons w ws ih =>
    rw [mboxWriteWords, Fallible.exec_bind_ok (exec_phyMboxWrite s addr w), ih]
    rfl

theorem exec_mboxReadWords (n : Nat) :
    (mboxReadWords addr n).exec memHandler s = (.ok (s.mbox.loadWords addr n), s) := by
  induction n generalizing addr with
  | zero => rfl
  | succ n ih =>
    rw [mboxReadWords, Fallible.exec_bind_ok (exec_phyMboxRead s addr),
      Fallible.exec_bind_ok (ih (addr + 4))]
    rfl

end Memory

/-! ## A mailbox that may fail

A write that is answered with success is in memory; one that is answered with a failure may or may
not be. Reads answer anything. -/

theorem mboxAddr_of_mboxWriteAddr {o : RegOp} {a : Nat} (h : o.mboxWriteAddr = some a) :
    o.mboxAddr = some a := by
  cases o <;> first | exact h | cases h

def faultyDev : Dev regSig Mem := fun m e m' =>
  match e with
  | ⟨.mboxWrite32 a v, .ok _⟩ => m' = m.store32 a v
  | ⟨.mboxWrite32 a v, .error _⟩ => m' = m ∨ m' = m.store32 a v
  | ⟨.mboxWrite16 a v, .ok _⟩ => m' = m.store16 a v
  | ⟨.mboxWrite16 a v, .error _⟩ => m' = m ∨ m' = m.store16 a v
  | _ => m' = m

/-- One access changes no byte its write does not cover. -/
theorem faultyDev_step {m m' : Mem} {e : Event regSig} {x : Nat} (h : faultyDev m e m')
    (hx : ∀ b, e.op.mboxWriteAddr = some b → x < b ∨ b + 4 ≤ x) : m' x = m x := by
  obtain ⟨o, r⟩ := e
  cases o with
  | mboxWrite32 a v =>
    have hstore : m.store32 a v x = m x := Mem.store_apply_of_disjoint (hx a rfl)
    cases r with
    | ok _ =>
      rw [show m' = m.store32 a v from h]
      exact hstore
    | error _ =>
      rcases (h : m' = m ∨ m' = m.store32 a v) with rfl | rfl
      · rfl
      · exact hstore
  | mboxWrite16 a v =>
    have hcover : x < a ∨ a + 2 ≤ x := by
      have := hx a rfl
      omega
    have hstore : m.store16 a v x = m x := Mem.store_apply_of_disjoint hcover
    cases r with
    | ok _ =>
      rw [show m' = m.store16 a v from h]
      exact hstore
    | error _ =>
      rcases (h : m' = m ∨ m' = m.store16 a v) with rfl | rfl
      · rfl
      · exact hstore
  | _ => exact congrFun (show m' = m from h) x

/-- A run changes no byte its writes do not cover. -/
theorem faultyDev_frame {m m' : Mem} {t : RegTrace} {x : Nat} (h : faultyDev.Path m t m')
    (hx : ∀ e ∈ t, ∀ b, e.op.mboxWriteAddr = some b → x < b ∨ b + 4 ≤ x) : m' x = m x := by
  induction t generalizing m with
  | nil => exact congrFun h x
  | cons e t ih =>
    obtain ⟨m₁, hstep, hpath⟩ := h
    calc m' x = m₁ x := ih hpath fun e he => hx e (List.mem_cons_of_mem _ he)
      _ = m x := faultyDev_step hstep (hx e List.mem_cons_self)

end Gpy2xx
