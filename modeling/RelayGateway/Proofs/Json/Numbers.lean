import RelayGateway.Proofs.Floating.Finite
import RelayGateway.Proofs.Json.Numerals

namespace RelayGateway

open Floating Floating.Format

namespace Json

namespace Numeral

theorem significand_le (n : Numeral) : n.significand.1 ≤ maxSignificand := by
  have hleading := accumulate_fst_le n.whole (Nat.zero_le maxSignificand)
  unfold significand
  cases n.fraction with
  | none => exact hleading
  | some fraction => exact accumulate_fst_le fraction hleading

theorem one_le_powerOfTen (exponent : Nat) :
    2 ^ binary64.unitShift ≤ binary64.units (powerOfTen exponent) :=
  one_le_ofNat (Nat.pow_pos (by decide))

theorem scaleDown_le (magnitude exponent : Nat) : scaleDown magnitude exponent ≤ magnitude := by
  induction exponent using Nat.strong_induction_on generalizing magnitude with
  | _ exponent ih =>
      have hprecision : 2 ≤ binary64.precision := by decide
      have hstep (k : Nat) : binary64.div magnitude (powerOfTen k) ≤ magnitude :=
        div_le_dividend hprecision (one_le_powerOfTen k)
      rw [scaleDown]
      split
      · exact hstep exponent
      · split
        · exact Nat.zero_le _
        · exact Nat.le_trans (ih (exponent - 308) (by omega) _) (hstep 308)

theorem ofNat_lt_infinity {n : Nat} (h : n ≤ maxSignificand) :
    binary64.ofNat n < binary64.infinity := by
  have hle : binary64.ofNat n ≤ (1086 + 1) * binary64.hidden :=
    ofNat_le_pow (by decide) (k := 64) (by rw [maxSignificand] at h; omega) (by decide)
  exact Nat.lt_of_le_of_lt hle (by decide)

theorem scale?_lt {significand magnitude : Nat} {exponent : Int} (h : significand ≤ maxSignificand)
    (hscale : scale? significand exponent = some magnitude) : magnitude < binary64.infinity := by
  have hwhole := ofNat_lt_infinity h
  unfold scale? at hscale
  dsimp only at hscale
  split at hscale
  · obtain rfl := Option.some.inj hscale
    exact Nat.lt_of_le_of_lt (scaleDown_le _ _) hwhole
  · split at hscale
    · split at hscale
      · obtain rfl := Option.some.inj hscale
        decide
      · cases hscale
    · split at hscale
      · rename_i hfits
        obtain rfl := Option.some.inj hscale
        exact hfits
      · cases hscale

theorem magnitude?_lt {n : Numeral} {magnitude : Nat} (h : n.magnitude? = some magnitude) :
    magnitude < binary64.infinity := by
  have hdigits := n.significand_le
  unfold magnitude? at h
  rcases n.significand with ⟨digits, power⟩
  dsimp only at h hdigits
  split at h
  · exact scale?_lt hdigits h
  · split at h
    · exact scale?_lt hdigits h
    · split at h
      · cases h
      · obtain rfl := Option.some.inj h
        decide

end Numeral

namespace Number

def IsFinite : Number → Prop
  | natural _ => True
  | negative _ => True
  | binary x => x.isFinite = true

def isNegative : Number → Bool
  | natural _ => false
  | negative n => decide (n < 0)
  | binary x => x.negative

-- The size of a number, in units of single precision, as a quotient.
def inUnits : Number → Nat × Nat
  | natural n => (n * 2 ^ binary32.unitShift, 1)
  | negative n => (n.natAbs * 2 ^ binary32.unitShift, 1)
  | binary x => (binary64.units x.magnitude * 2 ^ binary32.unitShift, 2 ^ binary64.unitShift)

-- Whether a number of single precision is the one nearest to a number, infinity included, where
-- the even one of two is taken.
def RoundsTo (x : Number) (y : Binary32) : Prop :=
  y.negative = x.isNegative ∧ binary32.Rounds x.inUnits.1 x.inUnits.2 y.magnitude

end Number

theorem Numeral.number?_isFinite {n : Numeral} {x : Number} (h : n.number? = some x) : x.IsFinite := by
  unfold number? at h
  rcases accumulate maxSignificand 0 n.whole with ⟨digits, spilled⟩
  dsimp only at h
  split at h
  · obtain rfl := Option.some.inj h
    trivial
  · split at h
    · obtain rfl := Option.some.inj h
      trivial
    · obtain ⟨magnitude, hmagnitude, rfl⟩ := Option.map_eq_some_iff.mp h
      have hlt := magnitude?_lt hmagnitude
      have hword : magnitude < 2 ^ 63 := Nat.lt_trans hlt (by decide)
      change Binary64.isFinite _ = true
      rw [Binary64.isFinite_ofMagnitude hword]
      exact decide_eq_true hlt

namespace Number

theorem toBinary32_eq {x : Number} (h : x.IsFinite) :
    x.toBinary32 = .ofMagnitude x.isNegative (binary32.nearest x.inUnits.1 x.inUnits.2) := by
  cases x with
  | natural n => rfl
  | negative n => rfl
  | binary x =>
      have hfinite : x.isFinite = true := h
      change x.narrow = _
      rw [Binary64.narrow, if_pos hfinite]
      rfl

theorem inUnits_pos (x : Number) : 0 < x.inUnits.2 := by
  cases x with
  | natural n => exact Nat.one_pos
  | negative n => exact Nat.one_pos
  | binary x => exact Nat.two_pow_pos _

-- A finite number rounds to what it becomes in single precision, and to nothing else.
theorem roundsTo_iff {x : Number} (h : x.IsFinite) {y : Binary32} : x.RoundsTo y ↔ x.toBinary32 = y := by
  have hnearest : binary32.Rounds x.inUnits.1 x.inUnits.2
      (binary32.nearest x.inUnits.1 x.inUnits.2) := rounds_nearest (by decide) x.inUnits_pos
  have hword : binary32.nearest x.inUnits.1 x.inUnits.2 < 2 ^ 31 :=
    Nat.lt_of_le_of_lt hnearest.bounded (by decide)
  rw [toBinary32_eq h]
  constructor
  · rintro ⟨hsign, hrounds⟩
    apply Binary32.eq_of_magnitude
    · rw [Binary32.negative_ofMagnitude hword, hsign]
    · rw [Binary32.magnitude_ofMagnitude hword]
      exact hnearest.unique x.inUnits_pos hrounds
  · rintro rfl
    rw [RoundsTo, Binary32.negative_ofMagnitude hword, Binary32.magnitude_ofMagnitude hword]
    exact ⟨rfl, hnearest⟩

end Number

end Json

end RelayGateway
