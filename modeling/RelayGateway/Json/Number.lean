import RelayGateway.Json.Token
import RelayGateway.Floating.Binary

namespace RelayGateway.Json

inductive Number where
  | natural (value : Nat)
  | negative (value : Int)
  | binary (value : Binary64)
  deriving DecidableEq, Repr

open Floating (Format)

namespace Numeral

def maxSignificand : Nat := 2 ^ 64 - 1

def maxExponent : Nat := 2 ^ 31 - 1

-- Append digits to `value` as long as the result stays within `limit`; the digits left over.
def accumulate (limit value : Nat) : List Nat → Nat × List Nat
  | [] => (value, [])
  | d :: rest =>
    if value * 10 + d ≤ limit then accumulate limit (value * 10 + d) rest
    else (value, d :: rest)

-- The significand and the power of ten that digits before and after the point give. Digits
-- left over before the point count into the power; those after it are dropped.
def significand (n : Numeral) : Nat × Int :=
  let (leading, spilled) := accumulate maxSignificand 0 n.whole
  match n.fraction with
  | none => (leading, spilled.length)
  | some fraction =>
    let (all, dropped) := accumulate maxSignificand leading fraction
    (all, (spilled.length : Int) - ((fraction.length : Int) - dropped.length))

def powerOfTen (exponent : Nat) : Nat :=
  Format.binary64.ofNat (10 ^ exponent)

-- A magnitude divided by ten to the power of `exponent`, 308 places at a time.
def scaleDown (magnitude exponent : Nat) : Nat :=
  if exponent ≤ 308 then Format.binary64.div magnitude (powerOfTen exponent)
  else if magnitude = 0 then 0
  else scaleDown (Format.binary64.div magnitude (powerOfTen 308)) (exponent - 308)
termination_by exponent

def scale? (significand : Nat) (exponent : Int) : Option Nat :=
  let format := Format.binary64
  let magnitude := format.ofNat significand
  if exponent < 0 then some (scaleDown magnitude (-exponent).toNat)
  else if 308 < exponent then if magnitude = 0 then some 0 else none
  else
    let scaled := format.mul magnitude (powerOfTen exponent.toNat)
    if scaled < format.infinity then some scaled else none

-- A significand of as many leading digits as fit 64 bits is rounded, and then multiplied or divided
-- once by a rounded power of ten. The last place can differ from that of the nearest number.
def magnitude? (n : Numeral) : Option Nat :=
  let (digits, power) := n.significand
  match n.exponent with
  | none => scale? digits power
  | some (down, exponent) =>
    match accumulate maxExponent 0 exponent with
    | (value, []) =>
      let power := if down then power - value else power + value
      -- powers beyond 32 bits are held at the limit
      scale? digits (max (-(2 ^ 31)) (min power maxExponent))
    -- an exponent too long to be written out
    | (_, _ :: _) => if digits ≠ 0 ∧ down = false then none else some 0

def number? (n : Numeral) : Option Number :=
  let (digits, spilled) := accumulate maxSignificand 0 n.whole
  if n.fraction.isNone ∧ n.exponent.isNone ∧ spilled.isEmpty ∧ n.negative = false then
    some (.natural digits)
  else if n.fraction.isNone ∧ n.exponent.isNone ∧ spilled.isEmpty ∧
      0 < digits ∧ digits ≤ 2 ^ 63 then
    some (.negative (-(digits : Int)))
  else n.magnitude?.map fun magnitude => .binary (.ofMagnitude n.negative magnitude)

end Numeral

namespace Number

-- The number in single precision, rounded once from what was read.
def toBinary32 : Number → Binary32
  | natural n => .ofInt n
  | negative n => .ofInt n
  | binary x => x.narrow

end Number

end RelayGateway.Json
