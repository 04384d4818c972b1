import RelayGateway.Floating.Format

namespace RelayGateway

open Floating (Format)

-- A number is its bit pattern, so no payload of a value that is not a number is lost.
structure Binary32 where
  bits : UInt32
  deriving DecidableEq, Repr

structure Binary64 where
  bits : UInt64
  deriving DecidableEq, Repr

namespace Binary64

def negative (x : Binary64) : Bool := decide (2 ^ 63 ≤ x.bits.toNat)

def magnitude (x : Binary64) : Nat := x.bits.toNat % 2 ^ 63

def isNaN (x : Binary64) : Bool := decide (Format.binary64.infinity < x.magnitude)

def isFinite (x : Binary64) : Bool := decide (x.magnitude < Format.binary64.infinity)

def ofMagnitude (negative : Bool) (magnitude : Nat) : Binary64 :=
  ⟨((if negative then 2 ^ 63 else 0) + magnitude).toUInt64⟩

def ofInt (n : Int) : Binary64 :=
  ofMagnitude (n < 0) (Format.binary64.ofNat n.natAbs)

-- The number rounded to two decimals: a hundred times it, rounded to a whole number with
-- halves away from zero, over a hundred. Infinities and what is not a number stay as they are.
def toHundredths (x : Binary64) : Binary64 :=
  let f := Format.binary64
  let hundred := f.ofNat 100
  if x.isFinite then
    let scaled := f.mul x.magnitude hundred
    if scaled < f.infinity then ofMagnitude x.negative (f.div (f.round scaled) hundred)
    else ofMagnitude x.negative f.infinity
  else x

end Binary64

namespace Binary32

def negative (x : Binary32) : Bool := decide (2 ^ 31 ≤ x.bits.toNat)

def magnitude (x : Binary32) : Nat := x.bits.toNat % 2 ^ 31

def isNaN (x : Binary32) : Bool := decide (Format.binary32.infinity < x.magnitude)

def isFinite (x : Binary32) : Bool := decide (x.magnitude < Format.binary32.infinity)

def ofMagnitude (negative : Bool) (magnitude : Nat) : Binary32 :=
  ⟨((if negative then 2 ^ 31 else 0) + magnitude).toUInt32⟩

def ofInt (n : Int) : Binary32 :=
  ofMagnitude (n < 0) (Format.binary32.ofNat n.natAbs)

-- The same number in double precision.
def widen (x : Binary32) : Binary64 :=
  let f := Format.binary32
  let g := Format.binary64
  Binary64.ofMagnitude x.negative <|
    if x.isFinite then f.convert g x.magnitude
    else if x.isNaN then g.infinity + 2 ^ 51
    else g.infinity

end Binary32

-- The nearest number in single precision; what is too large becomes infinite.
def Binary64.narrow (x : Binary64) : Binary32 :=
  let f := Format.binary64
  let g := Format.binary32
  Binary32.ofMagnitude x.negative <|
    if x.isFinite then f.convert g x.magnitude
    else if x.isNaN then g.infinity + 2 ^ 22
    else g.infinity

end RelayGateway
