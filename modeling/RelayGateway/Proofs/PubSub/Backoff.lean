import Mathlib.Order.Monotone.Defs
import Mathlib.Order.Nat
import RelayGateway.Proofs.Duration
import RelayGateway.Proofs.PubSub.Recovery

namespace RelayGateway.PubSub

namespace ReconnectPolicy

theorem factor_eq_min (attempt : Nat) : factor attempt = min (2 ^ attempt) (2 ^ 32 - 1) := by
  by_cases h : attempt < 32
  · have hle : 2 ^ attempt ≤ 2 ^ 31 := Nat.pow_le_pow_right (by decide) (by omega)
    rw [factor, if_pos h]
    omega
  · have hle : 2 ^ 32 ≤ 2 ^ attempt := Nat.pow_le_pow_right (by decide) (by omega)
    rw [factor, if_neg h]
    omega

theorem factor_mono : Monotone factor := by
  intro m n hle
  have hpow : 2 ^ m ≤ 2 ^ n := Nat.pow_le_pow_right (by decide) hle
  rw [factor_eq_min, factor_eq_min]
  omega

theorem factor_pos (attempt : Nat) : 0 < factor attempt := by
  have hpow := Nat.two_pow_pos attempt
  rw [factor_eq_min]
  omega

-- The factor as it is counted in a word of 32 bits: doubled where the double fits, and else as large
-- as the word can be.
def factorWord : (attempt : Nat) → UInt32
  | 0 => 1
  | attempt + 1 =>
    if (factorWord attempt).toNat * 2 < 2 ^ 32 then factorWord attempt * 2 else 0xFFFFFFFF

theorem toNat_factorWord (attempt : Nat) : (factorWord attempt).toNat = factor attempt := by
  induction attempt with
  | zero => rfl
  | succ attempt ih =>
      rw [factor_eq_min] at ih
      rw [factorWord, factor_eq_min, Nat.pow_succ]
      split
      · rename_i hfits
        rw [UInt32.toNat_mul, UInt32.toNat_ofNat, Nat.mod_eq_of_lt hfits]
        omega
      · rename_i hfull
        have hword : (0xFFFFFFFF : UInt32).toNat = 2 ^ 32 - 1 := rfl
        rw [hword]
        omega

theorem nanos_delay (policy : ReconnectPolicy) (attempt : Nat) :
    (policy.delay attempt).nanos =
      min (policy.base.nanos * factor attempt) Duration.longest.nanos := rfl

theorem delay_mono (policy : ReconnectPolicy) :
    Monotone fun attempt => (policy.delay attempt).nanos := by
  intro m n hle
  have hproduct := Nat.mul_le_mul_left policy.base.nanos (factor_mono hle)
  simp only [nanos_delay]
  omega

theorem base_le_delay (policy : ReconnectPolicy) (attempt : Nat) :
    policy.base.nanos ≤ (policy.delay attempt).nanos := by
  have hbase : policy.base.nanos ≤ Duration.longest.nanos := Nat.le_pred_of_lt policy.base.bounded
  rw [nanos_delay, Nat.le_min]
  exact ⟨Nat.le_mul_of_pos_right _ (factor_pos attempt), hbase⟩

theorem toWords_delay (policy : ReconnectPolicy) (attempt : Nat) :
    (policy.delay attempt).toWords = policy.base.toWords.scale (factorWord attempt) := by
  rw [delay, ← toNat_factorWord, Duration.toWords_scale]

-- Whatever the base, the wait after an attempt is the base doubled as often as its number says, or the
-- longest duration if that is shorter. Where the factor is held, so is the wait. The waits never get
-- shorter, none is shorter than the base, and words of 32 and 64 bits come to the same: what they hold
-- on the way either fits or is seen not to.
theorem delay_doubles (policy : ReconnectPolicy) :
    (∀ attempt < 32, (policy.delay attempt).nanos =
        min (policy.base.nanos * 2 ^ attempt) Duration.longest.nanos) ∧
      (∀ attempt ≥ 32, policy.delay attempt = policy.delay 32) ∧
      (Monotone fun attempt => (policy.delay attempt).nanos) ∧
      (∀ attempt, policy.base.nanos ≤ (policy.delay attempt).nanos) ∧
      ∀ attempt, policy.base.toWords.nanos.toNat * (factorWord attempt).toNat < 2 ^ 64 ∧
        (policy.delay attempt).toWords = policy.base.toWords.scale (factorWord attempt) := by
  refine ⟨fun attempt hlt => ?_, fun attempt hge => ?_, policy.delay_mono, policy.base_le_delay,
    fun attempt => ⟨policy.base.toWords.nanos_mul_lt _, policy.toWords_delay attempt⟩⟩
  · rw [nanos_delay, factor, if_pos hlt]
  · rw [delay, delay, factor, factor, if_neg (Nat.not_lt.mpr hge), if_neg (Nat.lt_irrefl 32)]

-- Half of the longest duration, rounded down, doubles to one nanosecond less than it.
example : (ReconnectPolicy.delay ⟨⟨(2 ^ 64 * 10 ^ 9 - 1) / 2, by decide⟩, 5⟩ 1).nanos =
    2 ^ 64 * 10 ^ 9 - 2 := by decide

end ReconnectPolicy

theorem Client.recover_waits {Handler Hook : Type} {c : Client Handler Hook} {attempt remaining : Nat}
    {xs : List (Exchange Handler Hook)} {back : Bool}
    (h : Dialogue.Transcript (c.recover attempt remaining) xs back) :
    (waits xs).Pairwise (·.nanos ≤ ·.nanos) ∧ ∀ d ∈ waits xs, c.policy.base.nanos ≤ d.nanos := by
  obtain ⟨blocks, hblocks, hattempts⟩ := recover_course h
  rw [← waits_effects, hblocks, waits_course hattempts.attempt]
  constructor
  · rw [List.pairwise_map]
    refine List.pairwise_le_range.imp fun hle => c.policy.delay_mono ?_
    exact Nat.add_le_add_left hle attempt
  · intro d hd
    obtain ⟨n, -, rfl⟩ := List.mem_map.mp hd
    exact c.policy.base_le_delay (attempt + n)

end RelayGateway.PubSub
