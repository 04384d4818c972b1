namespace RelayGateway.Packed

inductive ReadError where
  | unexpectedEnd
  | badVarint
  | badBool
  | unknownVariant
  deriving DecidableEq, Repr

abbrev Reader := StateT (List UInt8) (Except ReadError)

-- An unsigned integer in groups of seven bits; each byte but the last has its high bit set.
def writeVarint (n : Nat) : List UInt8 :=
  if n < 128 then [n.toUInt8] else (n % 128 + 128).toUInt8 :: writeVarint (n / 128)
termination_by n

def readByte : Reader UInt8
  | [] => .error .unexpectedEnd
  | b :: rest => .ok (b, rest)

-- Read an unsigned integer of at most `limit` bytes, of which a byte in the last place is at
-- most `lastMax`. The shortest form is not required.
def readVarint (lastMax : Nat) : (limit : Nat) → Reader Nat
  | 0 => throw .badVarint
  | limit + 1 => do
    let b ← readByte
    if 128 ≤ b.toNat then
      let high ← readVarint lastMax limit
      return b.toNat - 128 + 128 * high
    else if limit = 0 ∧ lastMax < b.toNat then throw .badVarint
    else return b.toNat

def readWord : Reader Nat := readVarint 0x0F 5

def measuring : Reader Nat := readVarint 0x01 10

def writeBool (b : Bool) : List UInt8 := [if b then 1 else 0]

def readBool : Reader Bool := do
  let b ← readByte
  if b = 0 then return false
  else if b = 1 then return true
  else throw .badBool

-- A 32-bit pattern in four bytes, the low one first.
def writeBits (n : UInt32) : List UInt8 :=
  [n.toUInt8, (n >>> 8).toUInt8, (n >>> 16).toUInt8, (n >>> 24).toUInt8]

def readBits : Reader UInt32
  | a :: b :: c :: d :: rest =>
    .ok (a.toUInt32 ||| b.toUInt32 <<< 8 ||| c.toUInt32 <<< 16 ||| d.toUInt32 <<< 24, rest)
  | _ => .error .unexpectedEnd

def writeList {α : Type} (write : α → List UInt8) (items : List α) : List UInt8 :=
  writeVarint items.length ++ items.flatMap write

def readItems {α : Type} (read : Reader α) : (count : Nat) → Reader (List α)
  | 0 => return []
  | count + 1 => do
    let item ← read
    let items ← readItems read count
    return item :: items

def readList {α : Type} (read : Reader α) : Reader (List α) := do
  let count ← measuring
  readItems read count

end RelayGateway.Packed
