import RelayGateway.Basic

namespace RelayGateway.Text

def toBytes (text : String) : List UInt8 := text.toUTF8.data.toList

def ofBytes? (bytes : List UInt8) : Option String := String.fromUTF8? ⟨bytes.toArray⟩

def replacement : Char := Char.ofNat 0xFFFD

-- How many continuation bytes follow a first byte, and the bounds of the first of them.
def sequence? (first : UInt8) : Option (Nat × UInt8 × UInt8) :=
  if 0xC2 ≤ first && first ≤ 0xDF then some (1, 0x80, 0xBF)
  else if first = 0xE0 then some (2, 0xA0, 0xBF)
  else if first = 0xED then some (2, 0x80, 0x9F)
  else if 0xE1 ≤ first && first ≤ 0xEF then some (2, 0x80, 0xBF)
  else if first = 0xF0 then some (3, 0x90, 0xBF)
  else if 0xF1 ≤ first && first ≤ 0xF3 then some (3, 0x80, 0xBF)
  else if first = 0xF4 then some (3, 0x80, 0x8F)
  else none

def continuation (low high : UInt8) : (count : Nat) → List UInt8 → List UInt8
  | 0, _ => []
  | _ + 1, [] => []
  | count + 1, b :: rest =>
    if low ≤ b && b ≤ high then b :: continuation 0x80 0xBF count rest else []

def codePoint (first : UInt8) (more : List UInt8) : Nat :=
  let lead := first.toNat % 2 ^ (6 - more.length)
  more.foldl (fun n b => n * 64 + b.toNat % 64) lead

-- The text of bytes, where each longest beginning of a sequence that is not completed, and
-- each byte that cannot begin one, gives one replacement.
def ofBytesLossy (bytes : List UInt8) : List Char :=
  match bytes with
  | [] => []
  | first :: rest =>
    if first < 0x80 then Char.ofNat first.toNat :: ofBytesLossy rest
    else
      match sequence? first with
      | none => replacement :: ofBytesLossy rest
      | some (count, low, high) =>
        let more := continuation low high count rest
        let c := if more.length = count then Char.ofNat (codePoint first more) else replacement
        c :: ofBytesLossy (rest.drop more.length)
termination_by bytes.length
decreasing_by
  all_goals simp only [List.length_drop, List.length_cons]; omega

end RelayGateway.Text
