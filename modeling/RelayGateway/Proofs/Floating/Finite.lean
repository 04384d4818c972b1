import RelayGateway.Floating.Binary
import RelayGateway.Proofs.Floating.Rounding

namespace RelayGateway

namespace Floating

theorem roundHalfUp_le {num den k : Nat} (hden : 0 < den) (h : num ≤ den * k) :
    roundHalfUp num den ≤ k := by
  have hlt : 2 * num + den < (k + 1) * (2 * den) := by
    have hring : (k + 1) * (2 * den) = 2 * (den * k) + 2 * den := by ring
    omega
  rw [roundHalfUp]
  exact Nat.le_of_lt_succ ((Nat.div_lt_iff_lt_mul (by omega)).mpr hlt)

namespace Format

variable {f : Format}

-- Bounds are powers of two, given by the exponent of the magnitude.
theorem units_le_pow {magnitude e : Nat} (h : magnitude ≤ (e + 1) * f.hidden) :
    f.units magnitude ≤ 2 ^ (e + (f.precision - 1)) := by
  have hunits := f.units_strictMono.monotone h
  rwa [units_binade, hidden, ← Nat.pow_add] at hunits

theorem nearest_le_pow (hf : 2 ≤ f.precision) {num den e : Nat} (hden : 0 < den)
    (h : num ≤ den * 2 ^ (e + (f.precision - 1))) : f.nearest num den ≤ (e + 1) * f.hidden := by
  apply (rounds_nearest hf hden).le_of_le hden
  rwa [units_binade, hidden, ← Nat.pow_add]

theorem ofNat_le_pow (hf : 2 ≤ f.precision) {n k e : Nat} (hn : n ≤ 2 ^ k)
    (he : k + f.unitShift ≤ e + (f.precision - 1)) : f.ofNat n ≤ (e + 1) * f.hidden := by
  apply nearest_le_pow hf Nat.one_pos
  calc
    n * 2 ^ f.unitShift ≤ 2 ^ k * 2 ^ f.unitShift := Nat.mul_le_mul_right _ hn
    _ = 2 ^ (k + f.unitShift) := (Nat.pow_add 2 _ _).symm
    _ ≤ 2 ^ (e + (f.precision - 1)) := Nat.pow_le_pow_right (by decide) he
    _ = 1 * 2 ^ (e + (f.precision - 1)) := (Nat.one_mul _).symm

theorem mul_le_pow (hf : 2 ≤ f.precision) {a b ea eb e : Nat} (ha : a ≤ (ea + 1) * f.hidden)
    (hb : b ≤ (eb + 1) * f.hidden) (he : ea + eb + (f.precision - 1) ≤ f.unitShift + e) :
    f.mul a b ≤ (e + 1) * f.hidden := by
  apply nearest_le_pow hf (Nat.two_pow_pos _)
  calc
    f.units a * f.units b ≤ 2 ^ (ea + (f.precision - 1)) * 2 ^ (eb + (f.precision - 1)) :=
      Nat.mul_le_mul (units_le_pow ha) (units_le_pow hb)
    _ = 2 ^ (ea + (f.precision - 1) + (eb + (f.precision - 1))) := (Nat.pow_add 2 _ _).symm
    _ ≤ 2 ^ (f.unitShift + (e + (f.precision - 1))) :=
      Nat.pow_le_pow_right (by decide) (by omega)
    _ = 2 ^ f.unitShift * 2 ^ (e + (f.precision - 1)) := Nat.pow_add 2 _ _

theorem convert_le_pow {g : Format} (hg : 2 ≤ g.precision) {a ea e : Nat}
    (ha : a ≤ (ea + 1) * f.hidden)
    (he : ea + (f.precision - 1) + g.unitShift ≤ f.unitShift + (e + (g.precision - 1))) :
    f.convert g a ≤ (e + 1) * g.hidden := by
  apply nearest_le_pow hg (Nat.two_pow_pos _)
  calc
    f.units a * 2 ^ g.unitShift ≤ 2 ^ (ea + (f.precision - 1)) * 2 ^ g.unitShift :=
      Nat.mul_le_mul_right _ (units_le_pow ha)
    _ = 2 ^ (ea + (f.precision - 1) + g.unitShift) := (Nat.pow_add 2 _ _).symm
    _ ≤ 2 ^ (f.unitShift + (e + (g.precision - 1))) := Nat.pow_le_pow_right (by decide) he
    _ = 2 ^ f.unitShift * 2 ^ (e + (g.precision - 1)) := Nat.pow_add 2 _ _

theorem round_le_pow (hf : 2 ≤ f.precision) {a e : Nat} (ha : a ≤ (e + 1) * f.hidden)
    (he : f.unitShift ≤ e + (f.precision - 1)) : f.round a ≤ (e + 1) * f.hidden := by
  obtain ⟨k, hk⟩ := Nat.exists_eq_add_of_le he
  have hunits : f.units a ≤ 2 ^ f.unitShift * 2 ^ k := by
    rw [← Nat.pow_add, ← hk]
    exact units_le_pow ha
  exact ofNat_le_pow hf (roundHalfUp_le (Nat.two_pow_pos _) hunits) (by omega)

theorem div_le_dividend (hf : 2 ≤ f.precision) {a b : Nat} (hb : 2 ^ f.unitShift ≤ f.units b) :
    f.div a b ≤ a := by
  have hden : 0 < f.units b := Nat.lt_of_lt_of_le (Nat.two_pow_pos _) hb
  apply (rounds_nearest hf hden).le_of_le hden
  rw [Nat.mul_comm (f.units b)]
  exact Nat.mul_le_mul_left _ hb

theorem one_le_ofNat {n : Nat} (hn : 0 < n) :
    2 ^ binary64.unitShift ≤ binary64.units (binary64.ofNat n) := by
  have hexponent : 1022 + (binary64.precision - 1) = binary64.unitShift := by decide
  have hone : binary64.units ((1022 + 1) * binary64.hidden) = 2 ^ binary64.unitShift := by
    rw [units_binade, hidden, ← Nat.pow_add, hexponent]
  have hrounds : binary64.Rounds (n * 2 ^ binary64.unitShift) 1 (binary64.ofNat n) :=
    rounds_nearest (by decide) Nat.one_pos
  have hleast : (1022 + 1) * binary64.hidden ≤ binary64.ofNat n := by
    apply hrounds.ge_of_ge Nat.one_pos (by decide)
    rw [hone, Nat.one_mul]
    exact Nat.le_mul_of_pos_left _ hn
  rw [← hone]
  exact binary64.units_strictMono.monotone hleast

end Format

end Floating

open Floating Floating.Format

namespace Binary64

theorem toNat_ofMagnitude {negative : Bool} {magnitude : Nat} (h : magnitude < 2 ^ 63) :
    (ofMagnitude negative magnitude).bits.toNat =
      (if negative then 2 ^ 63 else 0) + magnitude :=
  Nat.mod_eq_of_lt (by split <;> omega)

theorem magnitude_ofMagnitude {negative : Bool} {magnitude : Nat} (h : magnitude < 2 ^ 63) :
    (ofMagnitude negative magnitude).magnitude = magnitude := by
  rw [Binary64.magnitude, toNat_ofMagnitude h]
  split <;> omega

theorem isFinite_ofMagnitude {negative : Bool} {magnitude : Nat} (h : magnitude < 2 ^ 63) :
    (ofMagnitude negative magnitude).isFinite = decide (magnitude < binary64.infinity) := by
  rw [isFinite, magnitude_ofMagnitude h]

-- Far enough from the largest numbers, two decimals are finite.
theorem toHundredths_isFinite {x : Binary64} (h : x.magnitude ≤ (1150 + 1) * binary64.hidden) :
    x.toHundredths.isFinite = true := by
  have hprecision : 2 ≤ binary64.precision := by decide
  have hhundred : binary64.ofNat 100 ≤ (1029 + 1) * binary64.hidden :=
    ofNat_le_pow hprecision (k := 7) (by decide) (by decide)
  have hscaled : binary64.mul x.magnitude (binary64.ofNat 100) ≤ (1157 + 1) * binary64.hidden :=
    mul_le_pow hprecision h hhundred (by decide)
  have hrounded := round_le_pow hprecision hscaled (by decide)
  have hlast := Nat.le_trans (div_le_dividend hprecision (one_le_ofNat (n := 100) (by decide))) hrounded
  have hbound : (1150 + 1) * binary64.hidden < binary64.infinity := by decide
  have hfinite : x.isFinite = true := decide_eq_true (Nat.lt_of_le_of_lt h hbound)
  have hinfinity : (1157 + 1) * binary64.hidden < binary64.infinity := by decide
  have hword : (1157 + 1) * binary64.hidden < 2 ^ 63 := by decide
  simp only [toHundredths, hfinite, if_true, Nat.lt_of_le_of_lt hscaled hinfinity]
  rw [isFinite_ofMagnitude (Nat.lt_of_le_of_lt hlast hword)]
  exact decide_eq_true (Nat.lt_of_le_of_lt hlast hinfinity)

end Binary64

namespace Binary32

theorem toNat_ofMagnitude {negative : Bool} {magnitude : Nat} (h : magnitude < 2 ^ 31) :
    (ofMagnitude negative magnitude).bits.toNat = (if negative then 2 ^ 31 else 0) + magnitude :=
  Nat.mod_eq_of_lt (by split <;> omega)

theorem magnitude_ofMagnitude {negative : Bool} {magnitude : Nat} (h : magnitude < 2 ^ 31) :
    (ofMagnitude negative magnitude).magnitude = magnitude := by
  rw [Binary32.magnitude, toNat_ofMagnitude h]
  split <;> omega

theorem negative_ofMagnitude {negative : Bool} {magnitude : Nat} (h : magnitude < 2 ^ 31) :
    (ofMagnitude negative magnitude).negative = negative := by
  rw [Binary32.negative, toNat_ofMagnitude h]
  cases negative with
  | true =>
      rw [if_pos rfl]
      exact decide_eq_true (Nat.le_add_right _ _)
  | false =>
      rw [if_neg Bool.false_ne_true, Nat.zero_add]
      exact decide_eq_false (Nat.not_le.mpr h)

theorem eq_of_magnitude {x y : Binary32} (hsign : x.negative = y.negative)
    (hmagnitude : x.magnitude = y.magnitude) : x = y := by
  have hx := x.bits.toNat_lt
  have hy := y.bits.toNat_lt
  have hhalf : 2 ^ 31 ≤ x.bits.toNat ↔ 2 ^ 31 ≤ y.bits.toNat := decide_eq_decide.mp hsign
  simp only [Binary32.magnitude] at hmagnitude
  have hbits : x.bits.toNat = y.bits.toNat := by omega
  obtain ⟨x⟩ := x
  obtain ⟨y⟩ := y
  exact congrArg Binary32.mk (UInt32.toNat_inj.mp hbits)

theorem widen_magnitude_le {x : Binary32} (h : x.isFinite = true) :
    x.widen.magnitude ≤ (1150 + 1) * binary64.hidden := by
  have hmagnitude : x.magnitude ≤ (254 + 1) * binary32.hidden :=
    Nat.le_of_lt (of_decide_eq_true h)
  have hwide : binary32.convert binary64 x.magnitude ≤ (1150 + 1) * binary64.hidden :=
    convert_le_pow (by decide) hmagnitude (by decide)
  have hword : (1150 + 1) * binary64.hidden < 2 ^ 63 := by decide
  rw [widen, if_pos h, Binary64.magnitude_ofMagnitude (Nat.lt_of_le_of_lt hwide hword)]
  exact hwide

-- What is not finite stays so, also when it is rounded.
theorem widen_not_isFinite {x : Binary32} (h : x.isFinite = false) : x.widen.isFinite = false := by
  simp only [widen, h, Bool.false_eq_true, if_false]
  split
  · rw [Binary64.isFinite_ofMagnitude (by decide)]
    decide
  · rw [Binary64.isFinite_ofMagnitude (by decide)]
    decide

theorem widen_isFinite (x : Binary32) : x.widen.isFinite = x.isFinite := by
  have hbound : (1150 + 1) * binary64.hidden < binary64.infinity := by decide
  cases hfinite : x.isFinite with
  | true =>
      exact decide_eq_true (Nat.lt_of_le_of_lt (widen_magnitude_le hfinite) hbound)
  | false => exact widen_not_isFinite hfinite

theorem toHundredths_widen_isFinite (x : Binary32) :
    x.widen.toHundredths.isFinite = x.isFinite := by
  cases hfinite : x.isFinite with
  | true => exact Binary64.toHundredths_isFinite (widen_magnitude_le hfinite)
  | false =>
      have hwide := widen_not_isFinite hfinite
      simp only [Binary64.toHundredths, hwide, Bool.false_eq_true, if_false]

end Binary32

end RelayGateway
