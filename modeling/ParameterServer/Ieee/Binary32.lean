import ParameterServer.Ieee.Format

/-!
# Single precision numbers

Parameters are stored as words, so that a value travels without a change to any
bit of it.
-/

namespace ParameterServer.Ieee

/-- A number in the 32-bit format, as its word. -/
structure Binary32 where
  bits : UInt32
deriving DecidableEq, Repr

namespace Binary32

/-- The number one. -/
def one : Binary32 := ⟨0x3F800000⟩

def isNaN (value : Binary32) : Bool :=
  single.isNaN value.bits.toNat

def add (left right : Binary32) : Binary32 :=
  ⟨(single.add left.bits.toNat right.bits.toNat).toUInt32⟩

def multiply (left right : Binary32) : Binary32 :=
  ⟨(single.multiply left.bits.toNat right.bits.toNat).toUInt32⟩

end Binary32

end ParameterServer.Ieee
