import RelayGateway.Floating.Shortest
import RelayGateway.Floating.Binary

namespace RelayGateway.Floating

-- How shortest digits are laid out. The point position is the number of digits before the
-- decimal point; outside the given range the number is written with an exponent.
structure Layout where
  lowestPoint : Int
  highestPoint : Int
  exponentPlus : String
  tie : Tie
  deriving DecidableEq, Repr

namespace Layout

-- Positional from 0.00001 up to 10^16, else with a signed exponent, such as 1.5e+16.
def document : Layout := ⟨-4, 16, "+", .toEven⟩

-- Positional from 0.0001 up to 10^16, else with an exponent without plus, such as 1.5e16.
def report : Layout := ⟨-3, 16, "", .up⟩

def zeros (n : Int) : String := String.ofList (List.replicate n.toNat '0')

def decimal (l : Layout) (d : Decimal) : String :=
  let digits := toString d.digits
  let point := digits.length + d.exponent
  if point < l.lowestPoint ∨ l.highestPoint < point then
    let lead := digits.toList.take 1
    let rest := digits.toList.drop 1
    let fraction := if rest.isEmpty then "" else "." ++ String.ofList rest
    let sign := if 0 < point - 1 then l.exponentPlus else ""
    String.ofList lead ++ fraction ++ "e" ++ sign ++ toString (point - 1)
  else if point ≤ 0 then
    "0." ++ zeros (-point) ++ digits
  else if 0 ≤ d.exponent then
    digits ++ zeros d.exponent ++ ".0"
  else
    String.ofList (digits.toList.take point.toNat) ++ "." ++
      String.ofList (digits.toList.drop point.toNat)

def finite (l : Layout) (f : Format) (negative : Bool) (magnitude : Nat) : String :=
  let sign := if negative then "-" else ""
  sign ++ if magnitude = 0 then "0.0" else l.decimal (f.shortest l.tie magnitude)

end Layout

def fixedPlaces (places num den : Nat) : String :=
  let scaled := roundHalfEven (num * 10 ^ places) den
  let fraction := toString (scaled % 10 ^ places)
  toString (scaled / 10 ^ places) ++ "." ++ Layout.zeros (places - fraction.length) ++ fraction

end RelayGateway.Floating

namespace RelayGateway

open Floating

def Binary64.documentText? (x : Binary64) : Option String :=
  if x.isFinite then some (Layout.document.finite .binary64 x.negative x.magnitude) else none

-- The texts of what is not a finite number, or `finite`.
def Binary32.textOr (x : Binary32) (finite : String) : String :=
  if x.isNaN then "NaN"
  else if x.isFinite then finite
  else if x.negative then "-inf" else "inf"

def Binary32.reportText (x : Binary32) : String :=
  x.textOr (Layout.report.finite .binary32 x.negative x.magnitude)

-- The text of a number with one decimal. The sign of a negative number is kept, also where
-- nothing but zeros is left.
def Binary32.oneDecimal (x : Binary32) : String :=
  let sign := if x.negative then "-" else ""
  let units := Format.binary32.units x.magnitude
  x.textOr (sign ++ fixedPlaces 1 units (2 ^ Format.binary32.unitShift))

end RelayGateway
