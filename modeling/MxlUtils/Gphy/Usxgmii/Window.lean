import MxlUtils.Gphy.Chip

/- The registers of the XPCS are behind a window of the mailbox, whose base register
   is written before each access. -/
namespace Gpy2xx
open Effect Effect.Fallible Effect.Lock Bits

/-- `USXGMII_PDI_REGISTERS_MODULE_BASE`, and `USXGMII_PDI_BASEADRR` at the end of it. -/
def usxgmiiModuleBase : Nat := 0xD3DC00
def usxgmiiPdiBaseadrr : Nat := 0xD3DFFC

/-- A register of the XPCS: its place in the window is not that of the base register. -/
structure XpcsReg where
  addr : Nat
  inWindow : addr % 0x400 < 0x3FC
  fits : addr < 2 ^ 32

/-- `PHY_XPCS_HWRD` -/
def phyXpcsHwrd (reg : XpcsReg) : Api (BitVec 16) := do
  phyMboxWrite usxgmiiPdiBaseadrr (BitVec.ofNat 32 (reg.addr >>> 10))
  phyMboxHwrd (usxgmiiModuleBase + reg.addr % 0x400)

/-- `PHY_XPCS_HWWR` -/
def phyXpcsHwwr (reg : XpcsReg) (val : BitVec 16) : Api Unit := do
  phyMboxWrite usxgmiiPdiBaseadrr (BitVec.ofNat 32 (reg.addr >>> 10))
  phyMboxHwwr (usxgmiiModuleBase + reg.addr % 0x400) val

/-- The registers of the XPCS, the base of the window, and the other registers. -/
structure XpcsRegs where
  xpcs : Nat → BitVec 16
  base : BitVec 32
  other : Regs

namespace XpcsRegs

/-- The register that an address in the window stands for. -/
def behind (s : XpcsRegs) (addr : Nat) : Nat := s.base.toNat <<< 10 + (addr - usxgmiiModuleBase)

def inWindow (addr : Nat) : Bool :=
  decide (usxgmiiModuleBase ≤ addr) && decide (addr < usxgmiiPdiBaseadrr)

/-- An access to a register outside the window. -/
def outside (s : XpcsRegs) (o : RegOp) : o.Ret × XpcsRegs :=
  ((memHandler o s.other).1, { s with other := (memHandler o s.other).2 })

end XpcsRegs

/-- Registers as memory, those of the XPCS behind the window; every access succeeds. -/
def xpcsHandler : Handler regSig XpcsRegs
  | .mboxWrite32 a v, s =>
    if a = usxgmiiPdiBaseadrr then (.ok (), { s with base := v }) else s.outside (.mboxWrite32 a v)
  | .mboxRead16 a, s =>
    if XpcsRegs.inWindow a then (.ok (s.xpcs (s.behind a)), s) else s.outside (.mboxRead16 a)
  | .mboxWrite16 a v, s =>
    if XpcsRegs.inWindow a then (.ok (), { s with xpcs := Function.update s.xpcs (s.behind a) v })
    else s.outside (.mboxWrite16 a v)
  | o, s => s.outside o

/-- The same, for calls that take the lock. -/
abbrev lockedXpcs : Handler regSig.locking XpcsRegs := Lock.handler xpcsHandler

section Window
variable (s : XpcsRegs) (reg : XpcsReg)

/-- The window with its base set for a register. -/
def XpcsRegs.paged (s : XpcsRegs) (reg : XpcsReg) : XpcsRegs :=
  { s with base := BitVec.ofNat 32 (reg.addr >>> 10) }

@[simp] theorem XpcsRegs.paged_paged (reg' : XpcsReg) : (s.paged reg).paged reg' = s.paged reg' := rfl

@[simp] theorem XpcsRegs.paged_xpcs : (s.paged reg).xpcs = s.xpcs := rfl

/-- With the base set, the window shows the register. -/
theorem behind_paged : (s.paged reg).behind (usxgmiiModuleBase + reg.addr % 0x400) = reg.addr := by
  have hfits := reg.fits
  have hbase : (BitVec.ofNat 32 (reg.addr >>> 10)).toNat = reg.addr / 2 ^ 10 := by
    rw [BitVec.toNat_ofNat, Nat.shiftRight_eq_div_pow]
    omega
  rw [XpcsRegs.behind, XpcsRegs.paged, hbase, Nat.shiftLeft_eq]
  omega

theorem inWindow_reg : XpcsRegs.inWindow (usxgmiiModuleBase + reg.addr % 0x400) = true := by
  have hwindow := reg.inWindow
  have hbase : usxgmiiModuleBase = 0xD3DC00 := rfl
  have hend : usxgmiiPdiBaseadrr = 0xD3DFFC := rfl
  simp only [XpcsRegs.inWindow, Bool.and_eq_true, decide_eq_true_eq]
  omega

theorem exec_base : (phyMboxWrite usxgmiiPdiBaseadrr (BitVec.ofNat 32 (reg.addr >>> 10))).exec
    xpcsHandler s = (.ok (), s.paged reg) := rfl

@[simp] theorem exec_phyXpcsHwrd :
    (phyXpcsHwrd reg).exec xpcsHandler s = (.ok (s.xpcs reg.addr), s.paged reg) := by
  rw [phyXpcsHwrd, exec_bind_ok (exec_base s reg)]
  show (if XpcsRegs.inWindow _ then _ else _) = _
  rw [inWindow_reg, if_pos rfl, behind_paged]
  rfl

@[simp] theorem exec_phyXpcsHwwr (val : BitVec 16) : (phyXpcsHwwr reg val).exec xpcsHandler s =
    (.ok (), { s.paged reg with xpcs := Function.update s.xpcs reg.addr val }) := by
  rw [phyXpcsHwwr, exec_bind_ok (exec_base s reg)]
  show (if XpcsRegs.inWindow _ then _ else _) = _
  rw [inWindow_reg, if_pos rfl, behind_paged]
  rfl

end Window

end Gpy2xx
