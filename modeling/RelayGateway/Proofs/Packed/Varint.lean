import RelayGateway.Command.Packed
import RelayGateway.Basic
import RelayGateway.Proofs.Packed.Whole

namespace RelayGateway

namespace Packed

theorem toNat_toUInt8 {n : Nat} (h : n < 256) : n.toUInt8.toNat = n :=
  Nat.mod_eq_of_lt h

theorem writeVarint_of_small {n : Nat} (h : n < 128) : writeVarint n = [n.toUInt8] := by
  rw [writeVarint, if_pos h]

theorem writeVarint_of_large {n : Nat} (h : ¬ n < 128) :
    writeVarint n = (n % 128 + 128).toUInt8 :: writeVarint (n / 128) := by
  rw [writeVarint, if_neg h]

theorem takesWhole_of_last {lastMax limit : Nat} (b : UInt8) (hlow : b.toNat < 128)
    (hlast : limit = 0 → b.toNat ≤ lastMax) :
    TakesWhole (readVarint lastMax (limit + 1)) [b] b.toNat := by
  have hallowed : ¬ (limit = 0 ∧ lastMax < b.toNat) := by omega
  refine (TakesWhole.readByte b).bind ?_
  rw [if_neg (Nat.not_le.mpr hlow), if_neg hallowed]
  exact .pure b.toNat

theorem takesWhole_of_more {lastMax limit high : Nat} {b : UInt8} {bytes : List UInt8}
    (hmore : 128 ≤ b.toNat) (h : TakesWhole (readVarint lastMax limit) bytes high) :
    TakesWhole (readVarint lastMax (limit + 1)) (b :: bytes) (b.toNat - 128 + 128 * high) := by
  refine (TakesWhole.readByte b).bind ?_
  rw [if_pos hmore]
  exact h.map fun high => b.toNat - 128 + 128 * high

-- The number has to fit into the bytes allowed for it, of which the last one is limited further.
theorem takesWhole_readVarint {lastMax limit n : Nat} (hlast : lastMax < 128)
    (h : n < 128 ^ limit * (lastMax + 1)) :
    TakesWhole (readVarint lastMax (limit + 1)) (writeVarint n) n := by
  induction limit generalizing n with
  | zero =>
      have hbyte : n.toUInt8.toNat = n := toNat_toUInt8 (by omega)
      have hwhole : TakesWhole (readVarint lastMax 1) [n.toUInt8] n.toUInt8.toNat :=
        takesWhole_of_last n.toUInt8 (by omega) (by omega)
      rwa [hbyte, ← writeVarint_of_small (by omega)] at hwhole
  | succ limit ih =>
      by_cases hsmall : n < 128
      · have hbyte : n.toUInt8.toNat = n := toNat_toUInt8 (by omega)
        have hwhole : TakesWhole (readVarint lastMax (limit + 2)) [n.toUInt8] n.toUInt8.toNat :=
          takesWhole_of_last n.toUInt8 (by omega) (by omega)
        rwa [hbyte, ← writeVarint_of_small hsmall] at hwhole
      · have hbyte : (n % 128 + 128).toUInt8.toNat = n % 128 + 128 := toNat_toUInt8 (by omega)
        have hhigh : n / 128 < 128 ^ limit * (lastMax + 1) := by
          apply Nat.div_lt_of_lt_mul
          rw [← Nat.mul_assoc, Nat.mul_comm 128, ← Nat.pow_succ]
          exact h
        have hvalue : n % 128 + 128 - 128 + 128 * (n / 128) = n := by omega
        have hwhole := takesWhole_of_more (b := (n % 128 + 128).toUInt8) (by omega) (ih hhigh)
        rwa [hbyte, hvalue, ← writeVarint_of_large hsmall] at hwhole

theorem takesWhole_readWord (n : UInt32) : TakesWhole readWord (writeVarint n.toNat) n.toNat :=
  takesWhole_readVarint (by decide) n.toNat_lt

theorem readBits_writeBits (n : UInt32) (rest : List UInt8) :
    readBits (writeBits n ++ rest) = .ok (n, rest) := by
  simp only [writeBits, readBits, List.cons_append, List.nil_append]
  congr 2
  apply UInt32.toNat_inj.mp
  apply Nat.eq_of_testBit_eq
  intro i
  have hhigh : 32 ≤ i → n.toNat.testBit i = false := by
    intro hi
    exact Nat.testBit_lt_two_pow (Nat.lt_of_lt_of_le n.toNat_lt (Nat.pow_le_pow_right (by decide) hi))
  simp only [UInt32.toNat_or, UInt32.toNat_shiftLeft, UInt32.toNat_shiftRight,
    UInt8.toNat_toUInt32, UInt32.toNat_toUInt8, Nat.testBit_or, Nat.testBit_mod_two_pow,
    Nat.testBit_shiftLeft, Nat.testBit_shiftRight, UInt32.reduceToNat, Nat.reduceMod]
  grind

theorem takesWhole_readBits (n : UInt32) : TakesWhole readBits (writeBits n) n where
  reads := readBits_writeBits n
  cut front hfront hne := by
    have hlength : front.length < 4 :=
      Nat.lt_of_le_of_ne hfront.length_le fun hsame => hne (hfront.eq_of_length hsame)
    match front, hlength with
    | [], _ => rfl
    | [_], _ => rfl
    | [_, _], _ => rfl
    | [_, _, _], _ => rfl

end Packed

namespace DeviceCommand

open Packed

theorem takesWhole_read (command : DeviceCommand) :
    TakesWhole read command.toBytes command := by
  have hword (n : UInt32) : n.toNat.toUInt32 = n := UInt32.ofNat_toNat
  cases command with
  | toggleRelay relay =>
      have hrelay := (takesWhole_readWord relay).map fun n => toggleRelay n.toUInt32
      rw [hword] at hrelay
      apply (takesWhole_readWord 0).bind
      exact hrelay
  | calibrateProbe sensor value =>
      have hbytes : (calibrateProbe sensor value).toBytes =
          writeVarint 1 ++ (writeVarint sensor.toNat ++ writeBits value.bits) :=
        List.append_assoc _ _ _
      rw [hbytes]
      apply (takesWhole_readWord 1).bind
      apply (takesWhole_readWord sensor).bind
      rw [hword]
      exact (takesWhole_readBits value.bits).map fun bits => calibrateProbe sensor ⟨bits⟩

theorem ofBytes_toBytes (command : DeviceCommand) : ofBytes command.toBytes = .ok command := by
  rw [ofBytes, (takesWhole_read command).reads_all]
  rfl

end DeviceCommand

end RelayGateway
