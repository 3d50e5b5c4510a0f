import MxlUtils.Lib.WordTable
import MxlUtils.Gphy.Msec.Content
import MxlUtils.Gphy.Msec.Windows

/- The control word of an egress record. `update_egr_sa_cw` takes the place of the word from the
   suite and from the caller's type of the sequence number, while the record was laid out by the
   suite alone. Where the two agree the record becomes the one that would have been configured;
   where they do not, the word lands in the salt, or where nothing is. -/
namespace Gpy2xx
open Effect Effect.Lock Bits
open Bits.Mem (rawWords)

/-- A record is built: the index is in the table, the suite and the number of the association are
known, and there is memory. -/
structure Built (dir : MsecDir) (phy : MsecDevice) (inTr : TransformRec) (s : Regs) : Prop where
  sa : inTr.saIndex < phy.nrOfSas
  suite : ∀ v, inTr.ccw.caType ≠ .other v
  an : dir = .egress → inTr.ccw.an.toNat < 4
  heap : s.heapOk = true

/-- The record in the registers, where `config_*_tr` puts it. -/
def storedRecord (dir : MsecDir) (inTr : TransformRec) (s : Regs) : TrView :=
  decodeTr dir inTr.ccw.caType
    (rawWords (s.mbox.loadWords (trWriteAddr dir inTr.saIndex) (maxTrSizeWords dir)))

/-! ## Words of a record -/

section Layouts
variable {n : Nat} {w : BitVec 32}

end Layouts

/-! ## The call -/

section Calls
variable {aesEncrypt : AesEncrypt} {phy : MsecDevice} {inTr newTr : TransformRec} {s : Regs}

end Calls

/-! ## Where the word lands -/

section Places
variable {m : Mem} {sa sa' : BitVec 8} {k : Nat} {w : BitVec 32}

end Places

/-! ## The update -/

/-- Registers with the record configured for the parameters. -/
def configured (aesEncrypt : AesEncrypt) (phy : MsecDevice) (inTr : TransformRec) (s : Regs) : Regs :=
  ((gpy2xxMsecConfigEgrTr aesEncrypt phy inTr).exec lockedMem s).2

section Updated
variable {aesEncrypt : AesEncrypt} {phy : MsecDevice} {inTr newTr : TransformRec} {s : Regs}

end Updated

end Gpy2xx
