/-!
# The MMIO packet

Source: `ase/sw/ase_common.h:107-114,343-355,412-419`. One packet type carries requests
from the application to the simulator and responses back.
-/
namespace OpaeSim.Source.Mmio

/-- `write_en`: `MMIO_READ_REQ` or `MMIO_WRITE_REQ`. -/
inductive WriteEn where
  | readReq | writeReq
  deriving DecidableEq, Repr

/-- `mmio_t`; `qword` has eight entries. -/
structure MmioPkt where
  tid : Nat
  writeEn : WriteEn
  width : Nat
  addr : Nat
  qword : Nat → BitVec 64
  respEn : Nat
  slotIdx : Nat
  afuIdx : Int

def mmioTidBitmask : BitVec 32 := 0x1ff#32

def mmioMaxOutstanding : Nat := 64

end OpaeSim.Source.Mmio
