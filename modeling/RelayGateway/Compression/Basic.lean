import RelayGateway.Compression.Base64
import RelayGateway.Text.Utf8
import RelayGateway.Basic
import RelayGateway.Compression.Inflate

namespace RelayGateway.Compression

def maxStored : Nat := 0xFFFF

def storedBlock (last : Bool) (bytes : List UInt8) : List UInt8 :=
  let n := bytes.length
  let complement := maxStored - n
  [if last then 1 else 0, n.toUInt8, (n / 256).toUInt8, complement.toUInt8,
    (complement / 256).toUInt8] ++ bytes

-- A stream for the bytes. Any that decodes to them will do, so they are stored as they are.
def deflate (bytes : List UInt8) : List UInt8 :=
  if bytes.length ≤ maxStored then storedBlock true bytes
  else storedBlock false (bytes.take maxStored) ++ deflate (bytes.drop maxStored)
termination_by bytes.length
decreasing_by
  simp only [List.length_drop, maxStored] at *
  omega

def adlerModulus : Nat := 65521

-- The Adler-32 checksum: one more than the sum of the bytes, and the sum of those sums.
def adler32 (bytes : List UInt8) : Nat :=
  let (low, high) := bytes.foldl (fun (low, high) b =>
    let low := (low + b.toNat) % adlerModulus
    (low, (high + low) % adlerModulus)) (1, 0)
  high * 65536 + low

def bigEndian (n : Nat) : List UInt8 :=
  [(n / 16777216).toUInt8, (n / 65536).toUInt8, (n / 256).toUInt8, n.toUInt8]

-- Whether two bytes are the header of a deflate stream with a window of at most 32768 bytes
-- and no preset dictionary.
def isZlibHeader (method flags : UInt8) : Bool :=
  (method.toNat * 256 + flags.toNat) % 31 == 0 && method.toNat % 16 == 8 &&
    method.toNat / 16 ≤ 7 && flags.toNat / 32 % 2 == 0

def zlibEncode (bytes : List UInt8) : List UInt8 :=
  [0x78, 0xDA] ++ deflate bytes ++ bigEndian (adler32 bytes)

def zlibDecode? : List UInt8 → Option (List UInt8)
  | method :: flags :: stream =>
    if isZlibHeader method flags then do
      let (out, rest) ← inflate? (bitsOfBytes stream)
      let (checksum, _) ← takeBytes? 4 #[] (alignToByte rest)
      if checksum.toList = bigEndian (adler32 out.toList) then some out.toList else none
    else none
  | _ => none

inductive RestoreError where
  | badBase64
  | badContainer
  | notText
  deriving DecidableEq, Repr

-- The notice about a text that cannot be restored, up to the words of the reason. Bytes that
-- are no text are passed over silently.
def RestoreError.notice? : RestoreError → Option Notice
  | badBase64 => some (.warning "decompress: base64 error: *")
  | badContainer => some (.warning "decompress: zlib error: *")
  | notText => none

def compress (text : String) : String :=
  String.ofList (Base64.encode (zlibEncode (Text.toBytes text)))

def decompress (text : String) : Except RestoreError String :=
  match Base64.decode? text.toList with
  | none => .error .badBase64
  | some container =>
    match zlibDecode? container with
    | none => .error .badContainer
    | some bytes =>
      match Text.ofBytes? bytes with
      | none => .error .notText
      | some text => .ok text

end RelayGateway.Compression
