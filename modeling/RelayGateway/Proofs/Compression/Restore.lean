import RelayGateway.Compression.Basic
import RelayGateway.Proofs.Compression.Base64
import RelayGateway.Proofs.Compression.Steady
import RelayGateway.Proofs.Json.Numerals

namespace RelayGateway.Compression

theorem lowBits_succ (count n : Nat) :
    lowBits (count + 1) n = n.testBit 0 :: lowBits count (n / 2) := by
  rw [lowBits, List.range_succ_eq_map, List.map_cons, List.map_map, lowBits]
  congr 2
  funext i
  exact Nat.testBit_succ n i

theorem takeNumber?_lowBits (count n : Nat) (rest : Bits) :
    takeNumber? count (lowBits count n ++ rest) = some (n % 2 ^ count, rest) := by
  induction count generalizing n with
  | zero =>
      rw [Nat.pow_zero, Nat.mod_one]
      rfl
  | succ count ih =>
      have hvalue : (n.testBit 0).toNat + 2 * (n / 2 % 2 ^ count) = n % 2 ^ (count + 1) := by
        rw [Nat.testBit_zero, Nat.pow_succ', Nat.mod_mul]
        have hbit := Nat.mod_two_eq_zero_or_one n
        rcases hbit with hbit | hbit <;> simp [hbit]
      rw [lowBits_succ, List.cons_append, takeNumber?, ih, ← hvalue]
      rfl

theorem bitsOfBytes_cons (b : UInt8) (bytes : List UInt8) :
    bitsOfBytes (b :: bytes) = lowBits 8 b.toNat ++ bitsOfBytes bytes := rfl

theorem bitsOfBytes_append (front back : List UInt8) :
    bitsOfBytes (front ++ back) = bitsOfBytes front ++ bitsOfBytes back :=
  List.flatMap_append

theorem length_bitsOfBytes (bytes : List UInt8) : (bitsOfBytes bytes).length = 8 * bytes.length := by
  induction bytes with
  | nil => rfl
  | cons b bytes ih =>
      rw [bitsOfBytes_cons, List.length_append, ih, lowBits, List.length_map, List.length_range,
        List.length_cons]
      omega

theorem dvd_length_bitsOfBytes (bytes : List UInt8) : 8 ∣ (bitsOfBytes bytes).length := by
  rw [length_bitsOfBytes]
  exact Nat.dvd_mul_right 8 _

theorem takeNumber?_byte (b : UInt8) (rest : Bits) :
    takeNumber? 8 (lowBits 8 b.toNat ++ rest) = some (b.toNat, rest) := by
  rw [takeNumber?_lowBits, Nat.mod_eq_of_lt b.toNat_lt]

theorem takeBytes?_bitsOfBytes (out : Array UInt8) (bytes : List UInt8) (rest : Bits) :
    takeBytes? bytes.length out (bitsOfBytes bytes ++ rest) = some (out ++ bytes.toArray, rest) := by
  induction bytes generalizing out with
  | nil => simp [takeBytes?, bitsOfBytes]
  | cons b bytes ih =>
      rw [bitsOfBytes_cons, List.append_assoc, List.length_cons, takeBytes?, takeNumber?_byte]
      dsimp only
      rw [ih]
      simp

theorem lowBits_add (low high n : Nat) :
    lowBits (low + high) n = lowBits low n ++ lowBits high (n / 2 ^ low) := by
  rw [lowBits, List.range_add, List.map_append, List.map_map]
  congr 2
  funext i
  rw [Nat.testBit_div_two_pow, Nat.add_comm i low]
  rfl

theorem lowBits_mod (count n : Nat) : lowBits count (n % 2 ^ count) = lowBits count n := by
  refine List.map_congr_left fun i hi => ?_
  rw [Nat.testBit_mod_two_pow, decide_eq_true (List.mem_range.mp hi), Bool.true_and]

theorem takeNumber?_twoBytes {n : Nat} (h : n ≤ maxStored) (rest : Bits) :
    takeNumber? 16 (bitsOfBytes [n.toUInt8, (n / 256).toUInt8] ++ rest) = some (n, rest) := by
  have hbits : bitsOfBytes [n.toUInt8, (n / 256).toUInt8] = lowBits 16 n := by
    rw [bitsOfBytes_cons, bitsOfBytes_cons, lowBits_add 8 8]
    change lowBits 8 (n % 2 ^ 8) ++ (lowBits 8 (n / 256 % 2 ^ 8) ++ []) = _
    rw [lowBits_mod, lowBits_mod, List.append_nil]
    rfl
  have hfits : n < 2 ^ 16 := Nat.lt_succ_of_le h
  rw [hbits, takeNumber?_lowBits, Nat.mod_eq_of_lt hfits]

theorem alignToByte_bitsOfBytes {bits : Bits} (h : bits.length < 8) (bytes : List UInt8) :
    alignToByte (bits ++ bitsOfBytes bytes) = bitsOfBytes bytes := by
  rw [alignToByte_append bits (dvd_length_bitsOfBytes bytes), alignToByte, Nat.mod_eq_of_lt h,
    List.drop_length, List.nil_append]

def sizeBytes (n : Nat) : List UInt8 :=
  [n.toUInt8, (n / 256).toUInt8, (maxStored - n).toUInt8, ((maxStored - n) / 256).toUInt8]

theorem inflateStored?_sizeBytes (out : Array UInt8) {bits : Bits} (hbits : bits.length < 8)
    {bytes : List UInt8} (h : bytes.length ≤ maxStored) (behind : List UInt8) :
    inflateStored? out (bits ++ bitsOfBytes (sizeBytes bytes.length ++ (bytes ++ behind))) =
      some (out ++ bytes.toArray, bitsOfBytes behind) := by
  have hsplit : sizeBytes bytes.length ++ (bytes ++ behind) =
      [bytes.length.toUInt8, (bytes.length / 256).toUInt8] ++
        ([(maxStored - bytes.length).toUInt8, ((maxStored - bytes.length) / 256).toUInt8] ++
          (bytes ++ behind)) := rfl
  have hsum : bytes.length + (maxStored - bytes.length) = 0xFFFF := Nat.add_sub_cancel' h
  have hcomplement : maxStored - bytes.length ≤ maxStored := Nat.sub_le _ _
  rw [inflateStored?, alignToByte_bitsOfBytes hbits, hsplit, bitsOfBytes_append,
    takeNumber?_twoBytes h, bitsOfBytes_append]
  simp only [Option.bind_eq_bind, Option.bind_some]
  rw [takeNumber?_twoBytes hcomplement]
  simp only [Option.bind_some]
  rw [if_pos hsum, bitsOfBytes_append, takeBytes?_bitsOfBytes]

-- A stored block is taken as a whole, and what comes behind it is decoded further.
theorem inflateBlocks?_storedBlock (fuel : Nat) (out : Array UInt8) (last : Bool)
    {bytes : List UInt8} (h : bytes.length ≤ maxStored) (behind : List UInt8) :
    inflateBlocks? (fuel + 1) out (bitsOfBytes (storedBlock last bytes ++ behind)) =
      if last then some (out ++ bytes.toArray, bitsOfBytes behind)
      else inflateBlocks? fuel (out ++ bytes.toArray) (bitsOfBytes behind) := by
  have hheader : lowBits 8 (if last then 1 else 0 : UInt8).toNat =
      last :: false :: false :: List.replicate 5 false := by
    cases last <;> decide
  have hsplit : storedBlock last bytes ++ behind =
      (if last then 1 else 0) :: (sizeBytes bytes.length ++ (bytes ++ behind)) := by
    rw [storedBlock, List.append_assoc]
    rfl
  have hskipped : (List.replicate 5 false).length < 8 := by decide
  have hblock := inflateStored?_sizeBytes out hskipped h behind
  have hlast (rest : Bits) : takeNumber? 1 (last :: rest) = some (last.toNat, rest) := rfl
  have hkind (rest : Bits) : takeNumber? 2 (false :: false :: rest) = some (0, rest) := rfl
  rw [hsplit, bitsOfBytes_cons, hheader, inflateBlocks?]
  simp only [List.cons_append, hlast, hkind, Option.bind_eq_bind, Option.bind_some]
  rw [hblock]
  cases last <;> rfl

-- Every block but the last takes bytes away, so the bytes are fuel enough.
theorem inflateBlocks?_deflate {fuel : Nat} (out : Array UInt8) {bytes : List UInt8}
    (h : bytes.length < fuel) :
    inflateBlocks? fuel out (bitsOfBytes (deflate bytes)) = some (out ++ bytes.toArray, []) := by
  fun_induction deflate bytes generalizing fuel out with
  | case1 bytes hfits =>
      obtain _ | fuel := fuel
      · exact absurd h (Nat.not_lt_zero _)
      · have hblock := inflateBlocks?_storedBlock fuel out true hfits []
        rwa [List.append_nil] at hblock
  | case2 bytes hlong ih =>
      obtain _ | fuel := fuel
      · exact absurd h (Nat.not_lt_zero _)
      · have hfits : (bytes.take maxStored).length ≤ maxStored := List.length_take_le _ _
        have hfuel : (bytes.drop maxStored).length < fuel := by
          rw [List.length_drop]
          simp only [maxStored] at hlong ⊢
          omega
        have hjoin : (bytes.take maxStored).toArray ++ (bytes.drop maxStored).toArray =
            bytes.toArray := by
          simp [List.take_append_drop]
        rw [inflateBlocks?_storedBlock fuel out false hfits, if_neg Bool.false_ne_true, ih _ hfuel,
          Array.append_assoc, hjoin]

theorem length_lt_deflate (bytes : List UInt8) : bytes.length < (deflate bytes).length := by
  fun_induction deflate bytes with
  | case1 bytes hfits =>
      simp only [storedBlock, List.length_append, List.length_cons]
      omega
  | case2 bytes hlong ih =>
      rw [List.length_append, storedBlock, List.length_append, List.length_take]
      rw [List.length_drop] at ih
      simp only [List.length_cons, List.length_nil]
      omega

theorem inflate?_deflate (bytes : List UInt8) :
    inflate? (bitsOfBytes (deflate bytes)) = some (bytes.toArray, []) := by
  have hfuel : bytes.length < (bitsOfBytes (deflate bytes)).length := by
    have hlength := length_lt_deflate bytes
    rw [length_bitsOfBytes]
    omega
  have hblocks := inflateBlocks?_deflate #[] hfuel
  rwa [Array.empty_append] at hblocks

theorem zlibDecode?_zlibEncode (bytes : List UInt8) :
    zlibDecode? (zlibEncode bytes) = some bytes := by
  let checksum := bigEndian (adler32 bytes)
  have hinflate : inflate? (bitsOfBytes (deflate bytes) ++ bitsOfBytes checksum) =
      some (bytes.toArray, bitsOfBytes checksum) :=
    steady_inflate?.reads (inflate?_deflate bytes) (dvd_length_bitsOfBytes checksum)
  have halign : alignToByte (bitsOfBytes checksum) = bitsOfBytes checksum :=
    alignToByte_bitsOfBytes (show ([] : Bits).length < 8 by decide) checksum
  have hchecksum : takeBytes? 4 #[] (bitsOfBytes checksum) = some (checksum.toArray, []) := by
    have htake := takeBytes?_bitsOfBytes #[] checksum []
    rwa [List.append_nil, Array.empty_append] at htake
  have hheader : isZlibHeader 0x78 0xDA = true := by decide
  rw [zlibEncode]
  simp only [List.cons_append, List.nil_append, zlibDecode?, hheader, if_true, bitsOfBytes_append,
    Option.bind_eq_bind]
  rw [hinflate, Option.bind_some, halign, hchecksum]
  exact if_pos rfl

theorem decompress_compress (text : String) : decompress (compress text) = .ok text := by
  rw [decompress, compress, String.toList_ofList, Base64.decode?_encode]
  dsimp only
  rw [zlibDecode?_zlibEncode]
  dsimp only
  rw [Json.ofBytes?_toBytes]

end RelayGateway.Compression
