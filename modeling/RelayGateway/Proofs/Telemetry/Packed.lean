import RelayGateway.Frame.Decoder
import RelayGateway.Proofs.Packed.Varint
import RelayGateway.Telemetry.Reading

namespace RelayGateway

namespace Packed

variable {α : Type} {read : Reader α} {write : α → List UInt8}

theorem takesWhole_readList (h : ∀ item, TakesWhole read (write item) item) {items : List α}
    (hlength : items.length < 2 ^ 64) :
    TakesWhole (readList read) (writeList write items) items := by
  have hcount : TakesWhole measuring (writeVarint items.length) items.length :=
    takesWhole_readVarint (by decide) hlength
  exact hcount.bind (takesWhole_readItems h items)

theorem takesWhole_readBool (b : Bool) : TakesWhole readBool (writeBool b) b := by
  have hbyte := TakesWhole.readByte (if b then 1 else 0)
  cases b with
  | false => exact hbyte.bind (.pure false)
  | true => exact hbyte.bind (.pure true)

theorem length_le_flatMap (hwrite : ∀ item, 0 < (write item).length) (items : List α) :
    items.length ≤ (items.flatMap write).length := by
  induction items with
  | nil => exact Nat.le_refl 0
  | cons item items ih =>
      have hitem := hwrite item
      rw [List.flatMap_cons, List.length_append, List.length_cons]
      omega

end Packed

namespace Telemetry.Reading

open Packed

theorem takesWhole_readNumber (x : Binary32) : TakesWhole readNumber (writeNumber x) x :=
  (takesWhole_readBits x.bits).map Binary32.mk

theorem takesWhole_read {r : Reading} (hlevels : r.phLevels.length < 2 ^ 64)
    (hstates : r.relayStates.length < 2 ^ 64) : TakesWhole read r.toBytes r := by
  have hbytes : r.toBytes = writeNumber r.temperature ++ (writeNumber r.humidity ++
      (writeNumber r.lightLevel ++
        (writeList writeNumber r.phLevels ++ writeList writeBool r.relayStates))) := by
    simp only [toBytes, List.append_assoc]
  rw [hbytes]
  apply (takesWhole_readNumber r.temperature).bind
  apply (takesWhole_readNumber r.humidity).bind
  apply (takesWhole_readNumber r.lightLevel).bind
  apply (takesWhole_readList takesWhole_readNumber hlevels).bind
  exact (takesWhole_readList takesWhole_readBool hstates).map fun states =>
    { r with relayStates := states }

theorem length_le_toBytes (r : Reading) :
    r.phLevels.length + r.relayStates.length ≤ r.toBytes.length := by
  have hlevels : r.phLevels.length ≤ (r.phLevels.flatMap writeNumber).length :=
    length_le_flatMap (fun _ => by simp [writeNumber, writeBits]) r.phLevels
  have hstates : r.relayStates.length ≤ (r.relayStates.flatMap writeBool).length :=
    length_le_flatMap (fun _ => by simp [writeBool]) r.relayStates
  simp only [toBytes, writeList, List.length_append]
  omega

theorem toBytes_length_pos (r : Reading) : 0 < r.toBytes.length := by
  simp only [toBytes, writeNumber, writeBits, List.length_append, List.length_cons]
  omega

theorem ofBytes_toBytes {r : Reading} (h : r.toBytes.length ≤ Frame.payloadLimit) :
    ofBytes r.toBytes = .ok r := by
  have hlength := r.length_le_toBytes
  have hlimit : Frame.payloadLimit < 2 ^ 64 := by decide
  have hwhole := takesWhole_read (show r.phLevels.length < 2 ^ 64 by omega)
    (show r.relayStates.length < 2 ^ 64 by omega)
  rw [ofBytes, hwhole.reads_all]
  rfl

-- The lengths are those that lists of the device can have. Whatever stands behind the bytes of a
-- reading, the reading is found in front, and bytes that end within it hold no reading.
theorem ofBytes_only_whole {r : Reading} (hlevels : r.phLevels.length < 2 ^ 64)
    (hstates : r.relayStates.length < 2 ^ 64) :
    (∀ rest, ofBytes (r.toBytes ++ rest) = .ok r) ∧
      ∀ front, front <+: r.toBytes → front ≠ r.toBytes →
        ofBytes front = .error .unexpectedEnd := by
  have hwhole := takesWhole_read hlevels hstates
  constructor
  · intro rest
    rw [ofBytes, hwhole.reads rest]
    rfl
  · intro front hfront hne
    rw [ofBytes, hwhole.cut front hfront hne]
    rfl

def longReading : Reading where
  temperature := ⟨0x7FC00001⟩
  humidity := ⟨0x80000000⟩
  lightLevel := ⟨0xFF800000⟩
  phLevels := List.replicate 128 ⟨0xFFFFFFFF⟩
  relayStates := [true, false]

theorem ofBytes_only_whole_longLists :
    longReading.phLevels.length < 2 ^ 64 ∧ longReading.relayStates.length < 2 ^ 64 ∧
      ofBytes (longReading.toBytes ++ [0xFF]) = .ok longReading ∧
      ofBytes (longReading.toBytes.take 13) = .error .unexpectedEnd := by
  have hlevels : longReading.phLevels.length < 2 ^ 64 := by decide +kernel
  have hstates : longReading.relayStates.length < 2 ^ 64 := by decide
  have hshort : longReading.toBytes.take 13 ≠ longReading.toBytes := by decide +kernel
  obtain ⟨hwhole, hcut⟩ := ofBytes_only_whole hlevels hstates
  exact ⟨hlevels, hstates, hwhole [0xFF], hcut _ (List.take_prefix 13 _) hshort⟩

end Telemetry.Reading

end RelayGateway
