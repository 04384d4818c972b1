import RelayGateway.Duration

namespace RelayGateway.Duration

-- A duration as words hold it.
structure Words where
  seconds : UInt64
  nanos : UInt32
  bounded : nanos.toNat < 10 ^ 9
  deriving DecidableEq, Repr

def word? (n : Nat) : Option UInt64 := if n < 2 ^ 64 then some n.toUInt64 else none

theorem word?_spec (n : Nat) :
    match word? n with
    | some w => w.toNat = n
    | none => 2 ^ 64 ≤ n := by
  by_cases h : n < 2 ^ 64
  · rw [word?, if_pos h]
    exact Nat.mod_eq_of_lt h
  · rw [word?, if_neg h]
    exact Nat.not_lt.mp h

theorem eq_of_nanos {d e : Duration} (h : d.nanos = e.nanos) : d = e := by
  obtain ⟨nanos, _⟩ := d
  obtain rfl : nanos = e.nanos := h
  rfl

theorem subsecNanos_lt (d : Duration) : d.subsecNanos < 10 ^ 9 := Nat.mod_lt _ (by decide)

theorem toNat_toUInt32_of_subsecond {n : Nat} (h : n < 10 ^ 9) : n.toUInt32.toNat = n :=
  Nat.mod_eq_of_lt (by omega)

def toWords (d : Duration) : Words where
  seconds := d.seconds.toUInt64
  nanos := d.subsecNanos.toUInt32
  bounded := by
    rw [toNat_toUInt32_of_subsecond d.subsecNanos_lt]
    exact d.subsecNanos_lt

namespace Words

def total (w : Words) : Nat := w.seconds.toNat * 10 ^ 9 + w.nanos.toNat

theorem total_lt (w : Words) : w.total < 2 ^ 64 * 10 ^ 9 := by
  have hseconds := w.seconds.toNat_lt
  have hnanos := w.bounded
  unfold total
  omega

def toDuration (w : Words) : Duration := ⟨w.total, w.total_lt⟩

theorem eq_of_toNat {v w : Words} (hseconds : v.seconds.toNat = w.seconds.toNat)
    (hnanos : v.nanos.toNat = w.nanos.toNat) : v = w := by
  obtain ⟨seconds, nanos, _⟩ := v
  obtain ⟨seconds', nanos', _⟩ := w
  obtain rfl : seconds = seconds' := UInt64.toNat_inj.mp hseconds
  obtain rfl : nanos = nanos' := UInt32.toNat_inj.mp hnanos
  rfl

end Words

@[simp] theorem toNat_seconds_toWords (d : Duration) : d.toWords.seconds.toNat = d.seconds :=
  Nat.mod_eq_of_lt (Nat.div_lt_of_lt_mul (by have := d.bounded; omega))

@[simp] theorem toNat_nanos_toWords (d : Duration) : d.toWords.nanos.toNat = d.subsecNanos :=
  toNat_toUInt32_of_subsecond d.subsecNanos_lt

@[simp] theorem toDuration_toWords (d : Duration) : d.toWords.toDuration = d := by
  apply eq_of_nanos
  simp only [Words.toDuration, Words.total, toNat_seconds_toWords, toNat_nanos_toWords, seconds,
    subsecNanos]
  omega

@[simp] theorem Words.toWords_toDuration (w : Words) : w.toDuration.toWords = w := by
  have hnanos := w.bounded
  refine Words.eq_of_toNat ?_ ?_
  · rw [toNat_seconds_toWords]
    simp only [Duration.seconds, toDuration, total]
    omega
  · rw [toNat_nanos_toWords]
    simp only [subsecNanos, toDuration, total]
    omega

namespace Words

def nanosTimes (w : Words) (k : UInt32) : UInt64 := w.nanos.toUInt64 * k.toUInt64

theorem nanos_mul_lt (w : Words) (k : UInt32) : w.nanos.toNat * k.toNat < 2 ^ 64 := by
  have hle : w.nanos.toNat * k.toNat ≤ 10 ^ 9 * 2 ^ 32 :=
    Nat.mul_le_mul (Nat.le_of_lt w.bounded) (Nat.le_of_lt k.toNat_lt)
  exact Nat.lt_of_le_of_lt hle (by decide)

-- This product is not checked, and need not be: it never wraps around.
theorem toNat_nanosTimes (w : Words) (k : UInt32) :
    (w.nanosTimes k).toNat = w.nanos.toNat * k.toNat := by
  rw [nanosTimes, UInt64.toNat_mul, UInt32.toNat_toUInt64, UInt32.toNat_toUInt64]
  exact Nat.mod_eq_of_lt (w.nanos_mul_lt k)

def carry (w : Words) (k : UInt32) : UInt64 := w.nanosTimes k / 1000000000

def rest (w : Words) (k : UInt32) : UInt32 := (w.nanosTimes k % 1000000000).toUInt32

theorem toNat_carry (w : Words) (k : UInt32) :
    (w.carry k).toNat = w.nanos.toNat * k.toNat / 10 ^ 9 := by
  rw [carry, UInt64.toNat_div, toNat_nanosTimes]
  rfl

theorem toNat_rest (w : Words) (k : UInt32) :
    (w.rest k).toNat = w.nanos.toNat * k.toNat % 10 ^ 9 := by
  rw [rest, UInt64.toNat_toUInt32, UInt64.toNat_mod, toNat_nanosTimes]
  exact Nat.mod_eq_of_lt (Nat.lt_trans (Nat.mod_lt _ (by decide)) (by decide))

theorem rest_lt (w : Words) (k : UInt32) : (w.rest k).toNat < 10 ^ 9 := by
  rw [toNat_rest]
  exact Nat.mod_lt _ (by decide)

def longest : Words := ⟨0xFFFFFFFFFFFFFFFF, 999999999, by decide⟩

def scale? (w : Words) (k : UInt32) : Option Words := do
  let whole ← word? (w.seconds.toNat * k.toNat)
  let seconds ← word? (whole.toNat + (w.carry k).toNat)
  return ⟨seconds, w.rest k, w.rest_lt k⟩

def scale (w : Words) (k : UInt32) : Words := (w.scale? k).getD longest

theorem total_longest : longest.total = 2 ^ 64 * 10 ^ 9 - 1 := by decide

theorem total_mul (w : Words) (k : Nat) :
    w.total * k = w.seconds.toNat * k * 10 ^ 9 + w.nanos.toNat * k := by
  rw [total, Nat.add_mul, Nat.mul_right_comm]

-- The seconds do not fit only where the product is longer than any duration.
theorem scale?_spec (w : Words) (k : UInt32) :
    match w.scale? k with
    | some v => v.total = w.total * k.toNat
    | none => longest.total < w.total * k.toNat := by
  have hwhole := word?_spec (w.seconds.toNat * k.toNat)
  rw [total_mul, scale?]
  cases hproduct : word? (w.seconds.toNat * k.toNat) with
  | none =>
      rw [hproduct] at hwhole
      simp only [Option.bind_eq_bind, Option.bind_none, total_longest]
      omega
  | some whole =>
      have hseconds := word?_spec (whole.toNat + (w.carry k).toNat)
      simp only [hproduct] at hwhole
      cases hsum : word? (whole.toNat + (w.carry k).toNat) with
      | none =>
          rw [hsum, toNat_carry, hwhole] at hseconds
          simp only [Option.bind_eq_bind, Option.bind_some, hsum, Option.bind_none, total_longest]
          omega
      | some seconds =>
          simp only [hsum] at hseconds
          rw [toNat_carry, hwhole] at hseconds
          simp only [Option.bind_eq_bind, Option.bind_some, hsum, Option.pure_def, total, hseconds,
            toNat_rest]
          omega

theorem total_scale (w : Words) (k : UInt32) :
    (w.scale k).total = min (w.total * k.toNat) longest.total := by
  have hspec := w.scale?_spec k
  rw [scale]
  cases hscale : w.scale? k with
  | none =>
      rw [hscale] at hspec
      exact (Nat.min_eq_right (Nat.le_of_lt hspec)).symm
  | some v =>
      simp only [hscale] at hspec
      have hlt := v.total_lt
      rw [Option.getD_some, ← hspec, total_longest]
      omega

theorem toDuration_scale (w : Words) (k : UInt32) :
    (w.scale k).toDuration = w.toDuration.scale k.toNat := by
  apply eq_of_nanos
  rw [nanos_scale]
  exact (w.total_scale k).trans (congrArg _ total_longest)

end Words

theorem toWords_scale (d : Duration) (k : UInt32) :
    (d.scale k.toNat).toWords = d.toWords.scale k := by
  rw [← Words.toWords_toDuration (d.toWords.scale k), Words.toDuration_scale, toDuration_toWords]

end RelayGateway.Duration
