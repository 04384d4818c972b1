import RelayGateway.Floating.Format

namespace RelayGateway.Floating

structure Decimal where
  digits : Nat
  exponent : Int
  deriving DecidableEq, Repr

inductive Tie where
  | toEven
  | up
  deriving DecidableEq, Repr

namespace Format

-- A point of the grid of multiples of `10 ^ exponent` that rounds to `magnitude`, if there is
-- one: the one nearest to the number itself.
def gridPoint? (f : Format) (tie : Tie) (magnitude : Nat) (exponent : Int) : Option Nat :=
  -- in half units, times a power of ten if the grid is finer than one
  let factor := 10 ^ (-exponent).toNat
  let step := 10 ^ exponent.toNat * 2 ^ (f.unitShift + 1)
  let value := 2 * f.units magnitude * factor
  let low := (f.units (magnitude - 1) + f.units magnitude) * factor
  let high := (f.units magnitude + f.units (magnitude + 1)) * factor
  let inside (point : Nat) : Bool :=
    if magnitude % 2 = 0 then low ≤ point * step && point * step ≤ high
    else low < point * step && point * step < high
  let below := value / step
  let above := below + 1
  if inside below then
    if inside above then
      let down := value - below * step
      let up := above * step - value
      if down < up then some below
      else if up < down then some above
      else if tie = .toEven ∧ below % 2 = 0 then some below
      else some above
    else some below
  else if inside above then some above
  else none

-- An exponent whose power of ten is above the number, but not by much.
def decimalBound (f : Format) (magnitude : Nat) : Int :=
  ((Nat.log2 (f.units magnitude) : Int) + 1 - f.unitShift) * 30103 / 100000 + 1

-- The shortest decimal that reads back as a positive finite magnitude. Seventeen digits always
-- suffice, and the bound exceeds the first of them by at most two places.
def shortest (f : Format) (tie : Tie) (magnitude : Nat) : Decimal :=
  let top := f.decimalBound magnitude
  let grids := (List.range 20).map fun (down : Nat) => top - down
  (grids.findSome? fun exponent =>
    (f.gridPoint? tie magnitude exponent).map (Decimal.mk · exponent)).getD ⟨0, 0⟩

end Format

end RelayGateway.Floating
