import RelayGateway.Floating.Format
import Mathlib.Order.Monotone.Basic
import Mathlib.Tactic.Ring

namespace RelayGateway.Floating

-- The quotient is at most half a unit below the exact one, and half a unit only if it is even.
theorem roundHalfEven_above (num : Nat) {den : Nat} (hden : 0 < den) :
    2 * num ≤ (2 * roundHalfEven num den + 1) * den ∧
      (2 * num = (2 * roundHalfEven num den + 1) * den → roundHalfEven num den % 2 = 0) := by
  have hdiv : den * (num / den) + num % den = num := Nat.div_add_mod num den
  have hmod : num % den < den := Nat.mod_lt num hden
  have hnext : (2 * (num / den) + 1) * den = 2 * (den * (num / den)) + den := by ring
  have hlarge : (2 * (num / den + 1) + 1) * den = 2 * (den * (num / den)) + 3 * den := by ring
  unfold roundHalfEven
  dsimp only
  split
  · omega
  · split
    · omega
    · split <;> omega

theorem roundHalfEven_below (num : Nat) {den : Nat} (hden : 0 < den) :
    2 * roundHalfEven num den * den ≤ 2 * num + den ∧
      (2 * roundHalfEven num den * den = 2 * num + den → roundHalfEven num den % 2 = 0) := by
  have hdiv : den * (num / den) + num % den = num := Nat.div_add_mod num den
  have hmod : num % den < den := Nat.mod_lt num hden
  have hsame : 2 * (num / den) * den = 2 * (den * (num / den)) := by ring
  have hlarge : 2 * (num / den + 1) * den = 2 * (den * (num / den)) + 2 * den := by ring
  unfold roundHalfEven
  dsimp only
  split
  · omega
  · split
    · omega
    · split <;> omega

theorem roundHalfEven_le {num den k : Nat} (hden : 0 < den) (h : num ≤ k * den) :
    roundHalfEven num den ≤ k := by
  have hbelow := (roundHalfEven_below num hden).1
  by_contra hlarge
  have hstep : 2 * (k + 1) * den ≤ 2 * roundHalfEven num den * den :=
    Nat.mul_le_mul_right den (by omega)
  have hring : 2 * (k + 1) * den = 2 * (k * den) + 2 * den := by ring
  omega

theorem le_roundHalfEven {num den k : Nat} (hden : 0 < den) (h : k * den ≤ num) :
    k ≤ roundHalfEven num den := by
  have habove := (roundHalfEven_above num hden).1
  by_contra hsmall
  have hstep : (2 * roundHalfEven num den + 1) * den ≤ (2 * k - 1) * den :=
    Nat.mul_le_mul_right den (by omega)
  have hring : (2 * k - 1) * den + den = 2 * (k * den) := by
    rw [← Nat.succ_mul, Nat.succ_eq_add_one, Nat.sub_add_cancel (by omega)]
    ring
  omega

namespace Format

variable {f : Format}

def hidden (f : Format) : Nat := 2 ^ (f.precision - 1)

theorem hidden_pos (f : Format) : 0 < f.hidden := Nat.two_pow_pos _

theorem two_mul_hidden (hf : 2 ≤ f.precision) : 2 * f.hidden = 2 ^ f.precision := by
  rw [hidden, ← Nat.pow_succ', Nat.succ_eq_add_one, Nat.sub_add_cancel (by omega)]

theorem hidden_even (hf : 2 ≤ f.precision) : f.hidden % 2 = 0 := by
  obtain ⟨n, hn⟩ : ∃ n, f.precision - 1 = n + 1 := ⟨f.precision - 2, by omega⟩
  rw [hidden, hn, Nat.pow_succ]
  exact Nat.mul_mod_left _ 2

-- A magnitude made of an exponent and a significand; a significand of its full length carries into
-- the next exponent by itself.
theorem units_of_significand {exponent significand : Nat} (hlength : significand ≤ 2 * f.hidden)
    (hnormal : 0 < exponent → f.hidden ≤ significand) :
    f.units (exponent * f.hidden + significand) = significand * 2 ^ exponent := by
  have hpos := f.hidden_pos
  have hfield (e r : Nat) (hr : r < f.hidden) :
      (e * f.hidden + r) / f.hidden = e ∧ (e * f.hidden + r) % f.hidden = r := by
    rw [Nat.mul_comm, Nat.mul_add_div hpos, Nat.mul_add_mod, Nat.div_eq_of_lt hr, Nat.mod_eq_of_lt hr]
    exact ⟨rfl, rfl⟩
  unfold units
  dsimp only
  rw [← hidden]
  by_cases hsmall : significand < f.hidden
  · obtain rfl : exponent = 0 := by
      by_contra hne
      have := hnormal (Nat.pos_of_ne_zero hne)
      omega
    obtain ⟨hdiv, hmod⟩ := hfield 0 significand hsmall
    rw [hdiv, hmod, if_pos rfl, Nat.pow_zero, Nat.mul_one]
  · by_cases hfull : significand = 2 * f.hidden
    · have hsplit : exponent * f.hidden + significand = (exponent + 2) * f.hidden + 0 := by
        rw [hfull]
        ring
      obtain ⟨hdiv, hmod⟩ := hfield (exponent + 2) 0 hpos
      have hpower : exponent + 2 - 1 = exponent + 1 := rfl
      rw [hsplit, hdiv, hmod, if_neg (by omega), hfull, hpower, Nat.add_zero, Nat.pow_succ]
      ring
    · have hsplit : exponent * f.hidden + significand =
          (exponent + 1) * f.hidden + (significand - f.hidden) := by
        rw [Nat.succ_mul]
        omega
      obtain ⟨hdiv, hmod⟩ := hfield (exponent + 1) (significand - f.hidden) (by omega)
      rw [hsplit, hdiv, hmod, if_neg (by omega), Nat.add_sub_cancel,
        Nat.add_sub_cancel' (Nat.not_lt.mp hsmall)]

theorem exists_significand (f : Format) (magnitude : Nat) :
    ∃ exponent significand, magnitude = exponent * f.hidden + significand ∧
      significand < 2 * f.hidden ∧ (0 < exponent → f.hidden ≤ significand) := by
  have hpos := f.hidden_pos
  have hdiv : f.hidden * (magnitude / f.hidden) + magnitude % f.hidden = magnitude :=
    Nat.div_add_mod magnitude f.hidden
  have hmod : magnitude % f.hidden < f.hidden := Nat.mod_lt magnitude hpos
  by_cases hfield : magnitude / f.hidden = 0
  · rw [hfield, Nat.mul_zero, Nat.zero_add] at hdiv
    exact ⟨0, magnitude, by omega, by omega, fun h => (Nat.lt_irrefl 0 h).elim⟩
  · obtain ⟨exponent, hexponent⟩ := Nat.exists_eq_succ_of_ne_zero hfield
    refine ⟨exponent, f.hidden + magnitude % f.hidden, ?_, by omega, by omega⟩
    rw [hexponent, Nat.mul_succ, Nat.mul_comm] at hdiv
    omega

-- Twice the point halfway between a magnitude and the next one.
def halfway (f : Format) (magnitude : Nat) : Nat := f.units magnitude + f.units (magnitude + 1)

theorem halfway_of_significand {exponent significand : Nat}
    (hlength : significand < 2 * f.hidden) (hnormal : 0 < exponent → f.hidden ≤ significand) :
    f.halfway (exponent * f.hidden + significand) = (2 * significand + 1) * 2 ^ exponent := by
  have hnext : f.units (exponent * f.hidden + (significand + 1)) =
      (significand + 1) * 2 ^ exponent :=
    units_of_significand hlength fun h => Nat.le_succ_of_le (hnormal h)
  rw [halfway, Nat.add_assoc, hnext, units_of_significand (Nat.le_of_lt hlength) hnormal]
  ring

theorem units_strictMono (f : Format) : StrictMono f.units := by
  refine strictMono_nat_of_lt_succ fun magnitude => ?_
  obtain ⟨exponent, significand, rfl, hlength, hnormal⟩ := f.exists_significand magnitude
  have hnext : f.units (exponent * f.hidden + (significand + 1)) =
      (significand + 1) * 2 ^ exponent :=
    units_of_significand hlength fun h => Nat.le_succ_of_le (hnormal h)
  rw [Nat.add_assoc, hnext, units_of_significand (Nat.le_of_lt hlength) hnormal]
  exact Nat.mul_lt_mul_of_pos_right (Nat.lt_succ_self significand) (Nat.two_pow_pos exponent)

theorem halfway_strictMono (f : Format) : StrictMono f.halfway := fun _ _ h =>
  Nat.add_lt_add (f.units_strictMono h) (f.units_strictMono (Nat.succ_lt_succ h))

theorem units_binade (f : Format) (exponent : Nat) :
    f.units ((exponent + 1) * f.hidden) = 2 ^ exponent * f.hidden := by
  have hlength : f.hidden ≤ 2 * f.hidden := Nat.le_mul_of_pos_left _ (by decide)
  have hunits : f.units (exponent * f.hidden + f.hidden) = f.hidden * 2 ^ exponent :=
    units_of_significand hlength fun _ => Nat.le_refl _
  rw [Nat.succ_mul, hunits, Nat.mul_comm]

-- Whether a magnitude is `num / den` units rounded: they lie between the points halfway to its
-- neighbours, and at one of these only if it is even. Infinity has no neighbour above it.
structure Rounds (f : Format) (num den magnitude : Nat) : Prop where
  bounded : magnitude ≤ f.infinity
  above : ∀ lower, lower + 1 = magnitude → den * f.halfway lower ≤ 2 * num ∧
    (den * f.halfway lower = 2 * num → magnitude % 2 = 0)
  below : magnitude < f.infinity → 2 * num ≤ den * f.halfway magnitude ∧
    (2 * num = den * f.halfway magnitude → magnitude % 2 = 0)

namespace Rounds

variable {num den magnitude : Nat}

theorem unique (hden : 0 < den) {other : Nat} (h : f.Rounds num den magnitude)
    (hother : f.Rounds num den other) : magnitude = other := by
  have hnot {a b : Nat} (ha : f.Rounds num den a) (hb : f.Rounds num den b) : ¬ a < b := by
    intro hlt
    obtain ⟨lower, rfl⟩ := Nat.exists_eq_succ_of_ne_zero (Nat.ne_of_gt (Nat.zero_lt_of_lt hlt))
    obtain ⟨hbelow, heven⟩ := ha.below (Nat.lt_of_lt_of_le hlt hb.bounded)
    obtain ⟨habove, heven'⟩ := hb.above lower rfl
    have hmono : f.halfway a ≤ f.halfway lower :=
      f.halfway_strictMono.monotone (Nat.le_of_lt_succ hlt)
    have hscaled : den * f.halfway a ≤ den * f.halfway lower := Nat.mul_le_mul_left den hmono
    have hsame : f.halfway a = f.halfway lower :=
      Nat.eq_of_mul_eq_mul_left hden (by omega)
    -- both are even and yet neighbours
    have hneighbours : a = lower := f.halfway_strictMono.injective hsame
    have h1 := heven (by omega)
    have h2 := heven' (by omega)
    omega
  have h1 := hnot h hother
  have h2 := hnot hother h
  omega

theorem le_of_le (hden : 0 < den) (h : f.Rounds num den magnitude) {bound : Nat}
    (hnum : num ≤ den * f.units bound) : magnitude ≤ bound := by
  by_contra hlarge
  obtain ⟨lower, rfl⟩ := Nat.exists_eq_succ_of_ne_zero (show magnitude ≠ 0 by omega)
  have habove := (h.above lower rfl).1
  have hlower : f.units bound ≤ f.units lower := f.units_strictMono.monotone (by omega)
  have hupper : f.units bound < f.units (lower + 1) := f.units_strictMono (by omega)
  have hlt : den * (2 * f.units bound) < den * f.halfway lower :=
    Nat.mul_lt_mul_of_pos_left (by rw [halfway]; omega) hden
  have hring : den * (2 * f.units bound) = 2 * (den * f.units bound) := by ring
  omega

theorem ge_of_ge (hden : 0 < den) (h : f.Rounds num den magnitude) {bound : Nat}
    (hbound : bound ≤ f.infinity) (hnum : den * f.units bound ≤ num) : bound ≤ magnitude := by
  by_contra hsmall
  have hbelow := (h.below (by omega)).1
  have hlower : f.units magnitude < f.units bound := f.units_strictMono (by omega)
  have hupper : f.units (magnitude + 1) ≤ f.units bound := f.units_strictMono.monotone (by omega)
  have hlt : den * f.halfway magnitude < den * (2 * f.units bound) :=
    Nat.mul_lt_mul_of_pos_left (by rw [halfway]; omega) hden
  have hring : den * (2 * f.units bound) = 2 * (den * f.units bound) := by ring
  omega

theorem min_infinity (hden : 0 < den)
    (habove : ∀ lower, lower + 1 = magnitude → den * f.halfway lower ≤ 2 * num ∧
      (den * f.halfway lower = 2 * num → magnitude % 2 = 0))
    (hbelow : 2 * num ≤ den * f.halfway magnitude ∧
      (2 * num = den * f.halfway magnitude → magnitude % 2 = 0)) :
    f.Rounds num den (min f.infinity magnitude) := by
  by_cases hwithin : magnitude ≤ f.infinity
  · rw [Nat.min_eq_right hwithin]
    exact ⟨hwithin, habove, fun _ => hbelow⟩
  · rw [Nat.min_eq_left (by omega)]
    refine ⟨Nat.le_refl _, ?_, fun h => (Nat.lt_irrefl _ h).elim⟩
    intro lower hlower
    obtain ⟨previous, rfl⟩ := Nat.exists_eq_succ_of_ne_zero (show magnitude ≠ 0 by omega)
    have hprevious := (habove previous rfl).1
    have hlt : den * f.halfway lower < den * f.halfway previous :=
      Nat.mul_lt_mul_of_pos_left (f.halfway_strictMono (by omega)) hden
    constructor <;> omega

end Rounds

def exponentOf (f : Format) (num den : Nat) : Nat := Nat.log2 (num / den) + 1 - f.precision

theorem lt_of_exponentOf (hf : 2 ≤ f.precision) {num den : Nat} (hden : 0 < den) :
    num < 2 * f.hidden * (den * 2 ^ f.exponentOf num den) := by
  have hwhole : num / den < 2 ^ (Nat.log2 (num / den) + 1) := Nat.lt_log2_self
  have hpower : 2 ^ (Nat.log2 (num / den) + 1) ≤ 2 ^ (f.exponentOf num den + f.precision) :=
    Nat.pow_le_pow_right (by decide) (by rw [exponentOf]; omega)
  have hnum : num < 2 ^ (f.exponentOf num den + f.precision) * den :=
    (Nat.div_lt_iff_lt_mul hden).mp (Nat.lt_of_lt_of_le hwhole hpower)
  rw [two_mul_hidden hf]
  calc
    num < 2 ^ (f.exponentOf num den + f.precision) * den := hnum
    _ = 2 ^ f.precision * (den * 2 ^ f.exponentOf num den) := by
      rw [Nat.pow_add]
      ring

theorem le_of_exponentOf (hf : 2 ≤ f.precision) {num den : Nat} (hden : 0 < den)
    (h : 0 < f.exponentOf num den) : f.hidden * (den * 2 ^ f.exponentOf num den) ≤ num := by
  have hlog : Nat.log2 (num / den) = f.exponentOf num den + (f.precision - 1) := by
    rw [exponentOf] at h ⊢
    omega
  have hne : num / den ≠ 0 := by
    intro hzero
    rw [exponentOf, hzero, Nat.log2_zero] at h
    omega
  have hwhole : 2 ^ (f.exponentOf num den + (f.precision - 1)) ≤ num / den := by
    rw [← hlog]
    exact Nat.log2_self_le hne
  calc
    f.hidden * (den * 2 ^ f.exponentOf num den) =
        2 ^ (f.exponentOf num den + (f.precision - 1)) * den := by
      rw [hidden, Nat.pow_add]
      ring
    _ ≤ num := (Nat.le_div_iff_mul_le hden).mp hwhole

theorem significand_parity (hf : 2 ≤ f.precision) (exponent significand : Nat) :
    (exponent * f.hidden + significand) % 2 = significand % 2 := by
  rw [Nat.add_mod, Nat.mul_mod, hidden_even hf, Nat.mul_zero, Nat.zero_mod, Nat.zero_add,
    Nat.mod_mod]

-- The magnitude that is computed is the one that rounding means.
theorem rounds_nearest (hf : 2 ≤ f.precision) {num den : Nat} (hden : 0 < den) :
    f.Rounds num den (f.nearest num den) := by
  let exponent := f.exponentOf num den
  let unit := den * 2 ^ exponent
  let significand := roundHalfEven num unit
  have hpos := f.hidden_pos
  have hunit : 0 < unit := Nat.mul_pos hden (Nat.two_pow_pos exponent)
  have hlength : significand ≤ 2 * f.hidden :=
    roundHalfEven_le hunit (Nat.le_of_lt (lt_of_exponentOf hf hden))
  have hnormal : 0 < exponent → f.hidden ≤ significand := fun h =>
    le_roundHalfEven hunit (le_of_exponentOf hf hden h)
  have hparity := significand_parity hf exponent significand
  change f.Rounds num den (min f.infinity (exponent * f.hidden + significand))
  apply Rounds.min_infinity hden
  · intro lower hlower
    by_cases hedge : 0 < exponent ∧ significand = f.hidden
    -- the neighbour below is nearer than a unit, but the quotient is not below the magnitude
    · have hnum : f.hidden * unit ≤ num := le_of_exponentOf hf hden hedge.1
      have hunits : f.units (lower + 1) = f.hidden * 2 ^ exponent := by
        rw [hlower, units_of_significand hlength hnormal, hedge.2]
      have hless : f.units lower < f.units (lower + 1) :=
        f.units_strictMono (Nat.lt_succ_self lower)
      have hlt : den * f.halfway lower < den * (2 * (f.hidden * 2 ^ exponent)) :=
        Nat.mul_lt_mul_of_pos_left (by rw [halfway]; omega) hden
      have hring : den * (2 * (f.hidden * 2 ^ exponent)) = 2 * (f.hidden * unit) := by
        simp only [unit]
        ring
      constructor <;> omega
    · have hsignificand : significand ≠ 0 := by
        intro hzero
        have hexponent : exponent = 0 := by
          by_contra hne
          have := hnormal (Nat.pos_of_ne_zero hne)
          omega
        rw [hzero, hexponent] at hlower
        omega
      obtain ⟨previous, hprevious⟩ : ∃ previous, significand = previous + 1 :=
        Nat.exists_eq_succ_of_ne_zero hsignificand
      obtain rfl : lower = exponent * f.hidden + previous := by omega
      have hbelow : 2 * significand * unit ≤ 2 * num + unit ∧
          (2 * significand * unit = 2 * num + unit → significand % 2 = 0) :=
        roundHalfEven_below num hunit
      have hhalf : den * f.halfway (exponent * f.hidden + previous) + unit =
          2 * significand * unit := by
        rw [halfway_of_significand (by omega) (by omega), hprevious]
        simp only [unit]
        ring
      rw [hparity]
      constructor
      · omega
      · intro htie
        exact hbelow.2 (by omega)
  · have habove : 2 * num ≤ (2 * significand + 1) * unit ∧
        (2 * num = (2 * significand + 1) * unit → significand % 2 = 0) :=
      roundHalfEven_above num hunit
    by_cases hfull : significand = 2 * f.hidden
    · have hcarry : exponent * f.hidden + significand = (exponent + 1) * f.hidden + f.hidden := by
        rw [hfull]
        ring
      have hhalf : den * f.halfway (exponent * f.hidden + significand) =
          (2 * significand + 1) * unit + unit := by
        rw [hcarry, halfway_of_significand (by omega) (fun _ => Nat.le_refl _), hfull, Nat.pow_succ]
        simp only [unit]
        ring
      have heven : significand % 2 = 0 := by omega
      rw [hparity]
      constructor <;> omega
    · have hhalf : den * f.halfway (exponent * f.hidden + significand) =
          (2 * significand + 1) * unit := by
        rw [halfway_of_significand (by omega) hnormal]
        simp only [unit]
        ring
      rw [hparity, hhalf]
      exact habove

end Format

end RelayGateway.Floating
