import RelayGateway.Basic

namespace RelayGateway.Floating

def roundHalfEven (num den : Nat) : Nat :=
  let quotient := num / den
  let twice := 2 * (num % den)
  if twice < den then quotient
  else if den < twice then quotient + 1
  else if quotient % 2 = 0 then quotient
  else quotient + 1

def roundHalfUp (num den : Nat) : Nat :=
  (2 * num + den) / (2 * den)

-- A format with `precision` bits of significand, the leading one included. Magnitudes are bit
-- patterns without the sign, and every finite one is a whole number of units: multiples of the
-- least positive number.
structure Format where
  precision : Nat
  exponentBits : Nat
  deriving DecidableEq, Repr

namespace Format

def binary32 : Format := ⟨24, 8⟩

def binary64 : Format := ⟨53, 11⟩

-- The unit of the format is two to the power of minus this.
def unitShift (f : Format) : Nat := 2 ^ (f.exponentBits - 1) + f.precision - 3

-- The magnitude of infinity. Larger magnitudes are not numbers.
def infinity (f : Format) : Nat := (2 ^ f.exponentBits - 1) * 2 ^ (f.precision - 1)

def units (f : Format) (magnitude : Nat) : Nat :=
  let hidden := 2 ^ (f.precision - 1)
  let exponent := magnitude / hidden
  let fraction := magnitude % hidden
  if exponent = 0 then fraction else (hidden + fraction) * 2 ^ (exponent - 1)

-- The magnitude nearest to `num / den` units, an exact half going to the even significand.
-- The significand starts at the leading bit of the integer part, unless it would then reach
-- below one unit. Rounding up to the next power of two carries into the exponent by itself.
def nearest (f : Format) (num den : Nat) : Nat :=
  let exponent := Nat.log2 (num / den) + 1 - f.precision
  let significand := roundHalfEven num (den * 2 ^ exponent)
  min f.infinity (exponent * 2 ^ (f.precision - 1) + significand)

def ofNat (f : Format) (n : Nat) : Nat :=
  f.nearest (n * 2 ^ f.unitShift) 1

def mul (f : Format) (a b : Nat) : Nat :=
  f.nearest (f.units a * f.units b) (2 ^ f.unitShift)

def div (f : Format) (a b : Nat) : Nat :=
  f.nearest (f.units a * 2 ^ f.unitShift) (f.units b)

def round (f : Format) (a : Nat) : Nat :=
  f.ofNat (roundHalfUp (f.units a) (2 ^ f.unitShift))

def convert (f g : Format) (a : Nat) : Nat :=
  g.nearest (f.units a * 2 ^ g.unitShift) (2 ^ f.unitShift)

end Format

end RelayGateway.Floating
