import MxlUtils.Lib.Bits

/- One word of a table in memory. Writing it is writing the table with that word replaced. -/
namespace Bits.Mem

variable {m : Mem} {a b k l : Nat}

end Bits.Mem
