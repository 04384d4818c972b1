namespace RelayGateway.Frame

def payloadLimit : Nat := 512

def lengthWidth : Nat := 2

-- FF FE | length, two bytes, low byte first | payload | FD FC
def openingMarker : List UInt8 := [0xFF, 0xFE]

def closingMarker : List UInt8 := [0xFD, 0xFC]

inductive EncodeError where
  | empty
  | tooLarge (size : Nat)
  deriving DecidableEq, Repr

def EncodeError.message : EncodeError → String
  | empty => "empty payload"
  | tooLarge size => s!"payload of {size} bytes exceeds {payloadLimit}"

-- A length below 2^16 as two bytes, the low one first.
def lengthField (n : Nat) : List UInt8 := [n.toUInt8, (n / 256).toUInt8]

def lengthValue : List UInt8 → Nat
  | [] => 0
  | b :: rest => b.toNat + 256 * lengthValue rest

-- The frame sent to the device: the length and the payload.
def encode (payload : List UInt8) : Except EncodeError (List UInt8) :=
  if payload.isEmpty then .error .empty
  else if payload.length > payloadLimit then .error (.tooLarge payload.length)
  else .ok (lengthField payload.length ++ payload)

-- The frame as the device sends it, between the two markers.
def enclose (payload : List UInt8) : Except EncodeError (List UInt8) := do
  let inner ← encode payload
  return openingMarker ++ inner ++ closingMarker

inductive Fault where
  | zeroLength
  | oversized (length : Nat)
  | brokenEnd
  deriving DecidableEq, Repr

def Fault.message : Fault → String
  | zeroLength => "zero length"
  | oversized length => s!"length {length} exceeds {payloadLimit}"
  | brokenEnd => "invalid end marker"

inductive Phase where
  | hunting
  | opening
  | measuring (collected : Nat)
  | filling (expected : Nat)
  | closing (collected : Nat)
  deriving DecidableEq, Repr

inductive Step where
  | pending
  | frame (payload : List UInt8)
  | invalid (fault : Fault)
  deriving DecidableEq, Repr

structure Decoder where
  phase : Phase := .hunting
  lengthBytes : List UInt8 := [0, 0]
  payload : List UInt8 := []
  deriving DecidableEq, Repr

namespace Decoder

def reset (d : Decoder) : Decoder :=
  { d with phase := .hunting, payload := [] }

def isMidFrame (d : Decoder) : Bool :=
  match d.phase with
  | .hunting | .opening => false
  | _ => true

-- Drop the partial frame. The byte that showed the fault may open the next one.
def fail (d : Decoder) (byte : UInt8) (fault : Fault) : Step × Decoder :=
  let cleared := d.reset
  (.invalid fault, if byte = 0xFF then { cleared with phase := .opening } else cleared)

def extend (payload : List UInt8) (byte : UInt8) : List UInt8 :=
  if payload.length < payloadLimit then payload ++ [byte] else payload

def push (d : Decoder) (byte : UInt8) : Step × Decoder :=
  match d.phase with
  | .hunting =>
    (.pending, if byte = 0xFF then { d with phase := .opening } else d)
  | .opening =>
    let phase :=
      if byte = 0xFE then .measuring 0
      -- in FF FF FE the second byte may open the marker
      else if byte = 0xFF then .opening
      else .hunting
    (.pending, { d with phase })
  | .measuring collected =>
    let d := { d with lengthBytes := d.lengthBytes.set collected byte }
    if collected + 1 < lengthWidth then
      (.pending, { d with phase := .measuring (collected + 1) })
    else
      let expected := lengthValue d.lengthBytes
      if expected = 0 then d.fail byte .zeroLength
      else if expected > payloadLimit then d.fail byte (.oversized expected)
      else (.pending, { d with phase := .filling expected, payload := [] })
  | .filling expected =>
    let payload := extend d.payload byte
    let phase := if payload.length = expected then .closing 0 else d.phase
    (.pending, { d with payload, phase })
  | .closing collected =>
    if closingMarker[collected]? ≠ some byte then d.fail byte .brokenEnd
    else if collected + 1 < closingMarker.length then
      (.pending, { d with phase := .closing (collected + 1) })
    else
      (.frame d.payload, { d with phase := .hunting, payload := [] })

-- Take bytes in order, the first of which has the given offset, and list what they led to with
-- the offset of the byte that did.
def eventsFrom (d : Decoder) (offset : Nat) : List UInt8 → List (Nat × Step) × Decoder
  | [] => ([], d)
  | byte :: rest =>
    let (step, next) := d.push byte
    let (found, last) := next.eventsFrom (offset + 1) rest
    match step with
    | .pending => (found, last)
    | step => ((offset, step) :: found, last)

def events (d : Decoder) (bytes : List UInt8) : List (Nat × Step) × Decoder :=
  d.eventsFrom 0 bytes

end Decoder

end RelayGateway.Frame
