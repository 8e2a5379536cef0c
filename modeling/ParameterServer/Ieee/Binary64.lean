import ParameterServer.Ieee.Binary32

/-!
# Double precision numbers
-/

namespace ParameterServer.Ieee

/-- A number in the 64-bit format, as its word. -/
structure Binary64 where
  bits : UInt64
deriving DecidableEq, Repr

namespace Binary64

/-- The number zero. -/
def zero : Binary64 := ⟨0⟩

/-- The number one. -/
def one : Binary64 := ⟨0x3FF0000000000000⟩

def isNaN (value : Binary64) : Bool :=
  double.isNaN value.bits.toNat

def isFinite (value : Binary64) : Bool :=
  double.isFinite value.bits.toNat

def isZero (value : Binary64) : Bool :=
  double.isZero value.bits.toNat

/-- The number with the sign and the magnitude given. -/
def ofMagnitude (negative : Bool) (magnitude : Nat) : Binary64 :=
  ⟨(double.withSign negative magnitude).toUInt64⟩

/-- The nearest single precision number. -/
def toBinary32 (value : Binary64) : Binary32 :=
  ⟨(double.convert single value.bits.toNat).toUInt32⟩

end Binary64

end ParameterServer.Ieee
