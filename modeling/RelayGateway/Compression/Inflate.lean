import RelayGateway.Compression.PrefixCode

namespace RelayGateway.Compression

inductive Symbol where
  | literal (byte : UInt8)
  | copy (length distance : Nat)
  | endOfBlock
  deriving DecidableEq, Repr

structure Codes where
  literals : CodeTree
  distances : CodeTree

-- The least length that each symbol from 257 on stands for, and how many bits are added to it.
def lengthRanges : List (Nat × Nat) := [
  (3, 0), (4, 0), (5, 0), (6, 0), (7, 0), (8, 0), (9, 0), (10, 0), (11, 1), (13, 1), (15, 1),
  (17, 1), (19, 2), (23, 2), (27, 2), (31, 2), (35, 3), (43, 3), (51, 3), (59, 3), (67, 4),
  (83, 4), (99, 4), (115, 4), (131, 5), (163, 5), (195, 5), (227, 5), (258, 0)]

-- The least distance that each symbol stands for, and how many bits are added to it.
def distanceRanges : List (Nat × Nat) := [
  (1, 0), (2, 0), (3, 0), (4, 0), (5, 1), (7, 1), (9, 2), (13, 2), (17, 3), (25, 3), (33, 4),
  (49, 4), (65, 5), (97, 5), (129, 6), (193, 6), (257, 7), (385, 7), (513, 8), (769, 8),
  (1025, 9), (1537, 9), (2049, 10), (3073, 10), (4097, 11), (6145, 11), (8193, 12), (12289, 12),
  (16385, 13), (24577, 13)]

def takeRanged? (ranges : List (Nat × Nat)) (symbol : Nat) (bits : Bits) :
    Option (Nat × Bits) := do
  let (least, extra) ← ranges[symbol]?
  let (more, bits) ← takeNumber? extra bits
  return (least + more, bits)

def Codes.take? (codes : Codes) (bits : Bits) : Option (Symbol × Bits) := do
  let (symbol, bits) ← codes.literals.decode? bits
  if symbol < 256 then return (.literal symbol.toUInt8, bits)
  else if symbol = 256 then return (.endOfBlock, bits)
  else
    let (length, bits) ← takeRanged? lengthRanges (symbol - 257) bits
    let (distance, bits) ← codes.distances.decode? bits
    let (distance, bits) ← takeRanged? distanceRanges distance bits
    return (.copy length distance, bits)

-- Append a copy of what stands `distance` bytes before the end, byte by byte, so that the copy
-- may run into itself.
def copyBack (distance : Nat) : (length : Nat) → Array UInt8 → Array UInt8
  | 0, out => out
  | length + 1, out => copyBack distance length (out.push (out[out.size - distance]?.getD 0))

-- Decode a coded block. Every symbol takes at least one bit, so the number of bits is fuel.
def Codes.inflate? (codes : Codes) : (fuel : Nat) → Array UInt8 → Bits → Option (Array UInt8 × Bits)
  | 0, _, _ => none
  | fuel + 1, out, bits =>
    match codes.take? bits with
    | none => none
    | some (.endOfBlock, bits) => some (out, bits)
    | some (.literal byte, bits) => codes.inflate? fuel (out.push byte) bits
    | some (.copy length distance, bits) =>
      if out.size < distance then none
      else codes.inflate? fuel (copyBack distance length out) bits

-- Drop the bits up to the next byte. The whole stream consists of whole bytes.
def alignToByte (bits : Bits) : Bits := bits.drop (bits.length % 8)

def takeBytes? : (count : Nat) → Array UInt8 → Bits → Option (Array UInt8 × Bits)
  | 0, out, bits => some (out, bits)
  | count + 1, out, bits =>
    match takeNumber? 8 bits with
    | none => none
    | some (byte, bits) => takeBytes? count (out.push byte.toUInt8) bits

def inflateStored? (out : Array UInt8) (bits : Bits) : Option (Array UInt8 × Bits) := do
  let (length, bits) ← takeNumber? 16 (alignToByte bits)
  let (complement, bits) ← takeNumber? 16 bits
  if length + complement = 0xFFFF then takeBytes? length out bits else none

def fixedLengths : List Nat :=
  List.replicate 144 8 ++ List.replicate 112 9 ++ List.replicate 24 7 ++ List.replicate 8 8

def fixedCodes? : Option Codes := do
  let literals ← CodeTree.ofLengths? false fixedLengths
  let distances ← CodeTree.ofLengths? false (List.replicate 32 5)
  return { literals, distances }

-- The order in which the word lengths of the code for word lengths are sent.
def metaOrder : List Nat := [16, 17, 18, 0, 8, 7, 9, 6, 10, 5, 11, 4, 12, 3, 13, 2, 14, 1, 15]

def takeTriples? : (count : Nat) → Bits → Option (List Nat × Bits)
  | 0, bits => some ([], bits)
  | count + 1, bits => do
    let (first, bits) ← takeNumber? 3 bits
    let (rest, bits) ← takeTriples? count bits
    return (first :: rest, bits)

-- Take word lengths until there are `count` of them. They are held last one first; a symbol
-- can repeat the last length or give a run of zeros.
def takeLengths? (code : CodeTree) (count : Nat) :
    (fuel : Nat) → List Nat → Bits → Option (List Nat × Bits)
  | 0, _, _ => none
  | fuel + 1, found, bits =>
    if count = found.length then some (found.reverse, bits)
    else if count < found.length then none
    else do
      let (symbol, bits) ← code.decode? bits
      if symbol < 16 then takeLengths? code count fuel (symbol :: found) bits
      else
        let (least, extra, repeated) ←
          if symbol = 16 then found.head?.map fun last => (3, 2, last)
          else if symbol = 17 then some (3, 3, 0)
          else some (11, 7, 0)
        let (more, bits) ← takeNumber? extra bits
        takeLengths? code count fuel (List.replicate (least + more) repeated ++ found) bits

def takeCodes? (bits : Bits) : Option (Codes × Bits) := do
  let (literals, bits) ← takeNumber? 5 bits
  let (distances, bits) ← takeNumber? 5 bits
  let (metas, bits) ← takeNumber? 4 bits
  let literals := literals + 257
  let distances := distances + 1
  if 286 < literals ∨ 30 < distances then none
  else
    let (sent, bits) ← takeTriples? (metas + 4) bits
    let metaLengths := (List.range 19).map fun symbol => (sent[metaOrder.idxOf symbol]?).getD 0
    let metaCode ← CodeTree.ofLengths? false metaLengths
    let total := literals + distances
    let (lengths, bits) ← takeLengths? metaCode total (total + 1) [] bits
    let literalCode ← CodeTree.ofLengths? true (lengths.take literals)
    let distanceCode ← CodeTree.ofLengths? true (lengths.drop literals)
    return (⟨literalCode, distanceCode⟩, bits)

-- Decode blocks up to the last one. Every block takes bits, so the number of bits is fuel.
def inflateBlocks? : (fuel : Nat) → Array UInt8 → Bits → Option (Array UInt8 × Bits)
  | 0, _, _ => none
  | fuel + 1, out, bits => do
    let (last, bits) ← takeNumber? 1 bits
    let (kind, bits) ← takeNumber? 2 bits
    let (out, bits) ←
      match kind with
      | 0 => inflateStored? out bits
      | 1 => do
        let codes ← fixedCodes?
        codes.inflate? bits.length out bits
      | 2 => do
        let (codes, bits) ← takeCodes? bits
        codes.inflate? bits.length out bits
      | _ => none
    if last = 1 then return (out, bits) else inflateBlocks? fuel out bits

def inflate? (bits : Bits) : Option (Array UInt8 × Bits) :=
  inflateBlocks? bits.length #[] bits

end RelayGateway.Compression
