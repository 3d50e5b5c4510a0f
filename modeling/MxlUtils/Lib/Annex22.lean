import Mathlib.Logic.Function.Basic

/- Indirect access to the registers of an MMD by the two clause 22 registers for it,
   as Annex 22D of IEEE 802.3 has it. The control register names a device and a
   function; with the address function the data register is the address register of
   the device, with the others it is the register that the address points at. The
   MMDs themselves are any state that answers reads and takes writes, so that a read
   may have an effect. -/
namespace Annex22

variable {σ : Type}

/-- The MMDs of a PHY, by device and register. -/
structure Mmds (σ : Type) where
  read : BitVec 5 → BitVec 16 → σ → BitVec 16 × σ
  write : BitVec 5 → BitVec 16 → BitVec 16 → σ → σ

/-- A PHY: the clause 22 registers but for these two, the control register, the address register of
each device, and the MMDs. -/
structure Phy (σ : Type) where
  basic : BitVec 5 → BitVec 16
  ctrl : BitVec 16
  addr : BitVec 5 → BitVec 16
  mmds : σ

def ctrlReg : BitVec 5 := 13

def dataReg : BitVec 5 := 14

namespace Phy

/-- The device that the control register names. -/
def devad (x : Phy σ) : BitVec 5 := x.ctrl.setWidth 5

/-- Its function: address, data, data with the address counting up, or counting up on writes. -/
def function (x : Phy σ) : BitVec 2 := x.ctrl.extractLsb' 14 2

def setAddr (x : Phy σ) (a : BitVec 16) : Phy σ := { x with addr := Function.update x.addr x.devad a }

def countUp (x : Phy σ) : Phy σ := x.setAddr (x.addr x.devad + 1)

def setMmds (x : Phy σ) (s : σ) : Phy σ := { x with mmds := s }

def readData (m : Mmds σ) (x : Phy σ) : BitVec 16 × Phy σ :=
  if x.function = 0 then (x.addr x.devad, x)
  else
    let r := m.read x.devad (x.addr x.devad) x.mmds
    (r.1, if x.function = 2 then (x.setMmds r.2).countUp else x.setMmds r.2)

def writeData (m : Mmds σ) (v : BitVec 16) (x : Phy σ) : Phy σ :=
  if x.function = 0 then x.setAddr v
  else
    let y := x.setMmds (m.write x.devad (x.addr x.devad) v x.mmds)
    if x.function = 1 then y else y.countUp

/-- A clause 22 access. -/
def read22 (m : Mmds σ) (reg : BitVec 5) (x : Phy σ) : BitVec 16 × Phy σ :=
  if reg = ctrlReg then (x.ctrl, x)
  else if reg = dataReg then x.readData m
  else (x.basic reg, x)

def write22 (m : Mmds σ) (reg : BitVec 5) (v : BitVec 16) (x : Phy σ) : Phy σ :=
  if reg = ctrlReg then { x with ctrl := v }
  else if reg = dataReg then x.writeData m v
  else { x with basic := Function.update x.basic reg v }

/-- A clause 45 access: the address cycle, then the data. -/
def read45 (m : Mmds σ) (dev : BitVec 5) (reg : BitVec 16) (x : Phy σ) : BitVec 16 × Phy σ :=
  ((m.read dev reg x.mmds).1, { x with
    addr := Function.update x.addr dev reg
    mmds := (m.read dev reg x.mmds).2 })

def write45 (m : Mmds σ) (dev : BitVec 5) (reg v : BitVec 16) (x : Phy σ) : Phy σ := { x with
  addr := Function.update x.addr dev reg
  mmds := m.write dev reg v x.mmds }

/-! ## The MMDs behind the two registers -/

variable {m : Mmds σ} {x : Phy σ} {v w : BitVec 16} {dev : BitVec 5} {reg : BitVec 16}

@[simp] theorem write22_ctrl : x.write22 m ctrlReg v = { x with ctrl := v } := rfl

@[simp] theorem write22_data : x.write22 m dataReg v = x.writeData m v := rfl

@[simp] theorem read22_data : x.read22 m dataReg = x.readData m := rfl

/-- `x` names the device with the address function. -/
structure Latches (x : Phy σ) (dev : BitVec 5) : Prop where
  devad : x.devad = dev
  function : x.function = 0

/-- `x` names the device with the data function, and its address register holds `reg`. -/
structure Selects (x : Phy σ) (dev : BitVec 5) (reg : BitVec 16) : Prop where
  devad : x.devad = dev
  function : x.function = 1
  addr : x.addr dev = reg

theorem Latches.writeData (h : x.Latches dev) :
    x.writeData m reg = { x with addr := Function.update x.addr dev reg } := by
  rw [Phy.writeData, if_pos h.function, setAddr, h.devad]

theorem Latches.selects (h : x.Latches dev) (hdev : w.setWidth 5 = dev) (hfun : w.extractLsb' 14 2 = 1) :
    Selects { x.writeData m reg with ctrl := w } dev reg := by
  rw [h.writeData]
  exact ⟨hdev, hfun, Function.update_self dev reg x.addr⟩

/-- Through the data register a selected register is read as by a clause 45 access. -/
theorem Selects.readData (h : x.Selects dev reg) :
    x.readData m = ((x.read45 m dev reg).1, x.setMmds (x.read45 m dev reg).2.mmds) := by
  have hfun : x.function ≠ 0 := by simp [h.function]
  have hfun₂ : x.function ≠ 2 := by simp [h.function]
  simp only [Phy.readData, if_neg hfun, if_neg hfun₂, h.devad, h.addr]
  rfl

theorem Selects.writeData (h : x.Selects dev reg) :
    x.writeData m v = x.setMmds (x.write45 m dev reg v).mmds := by
  have hfun : x.function ≠ 0 := by simp [h.function]
  rw [Phy.writeData, if_neg hfun, if_pos h.function, h.devad, h.addr]
  rfl

end Phy

end Annex22
