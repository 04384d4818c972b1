import RelayGateway.Json.Tree
import RelayGateway.Json.Number

namespace RelayGateway.Sorted

variable {κ ν : Type} [LT κ] [DecidableLT κ] [DecidableEq κ]

-- The list with `value` at `key`, in place of any value it had there.
def insert (key : κ) (value : ν) : List (κ × ν) → List (κ × ν)
  | [] => [(key, value)]
  | (k, v) :: rest =>
    if key = k then (key, value) :: rest
    else if key < k then (key, value) :: (k, v) :: rest
    else (k, v) :: insert key value rest

-- The entries in the order of their keys; of several with one key, the last.
def ofList (entries : List (κ × ν)) : List (κ × ν) :=
  entries.foldl (fun sorted (key, value) => insert key value sorted) []

end RelayGateway.Sorted

namespace RelayGateway.Json

inductive Value where
  | null
  | bool (value : Bool)
  | number (value : Number)
  | string (value : String)
  | array (items : List Value)
  | object (members : List (String × Value))

namespace Text

def encodePoint (point : Nat) : List UInt8 := String.utf8EncodeChar (Char.ofNat point)

def isHighHalf (u : UInt16) : Bool := 0xD800 ≤ u && u ≤ 0xDBFF

def isLowHalf (u : UInt16) : Bool := 0xDC00 ≤ u && u ≤ 0xDFFF

-- The bytes of a string. Each half of a pair of units needs the other.
def bytes? : Text → Option (List UInt8)
  | [] => some []
  | .byte b :: rest => (bytes? rest).map (b :: ·)
  | .unit high :: .unit low :: rest =>
    if isHighHalf high then
      if isLowHalf low then
        let point := 0x10000 + (high.toNat - 0xD800) * 0x400 + (low.toNat - 0xDC00)
        (bytes? rest).map (encodePoint point ++ ·)
      else none
    else if isLowHalf high then none
    else (bytes? (.unit low :: rest)).map (encodePoint high.toNat ++ ·)
  | .unit u :: rest =>
    if isHighHalf u || isLowHalf u then none
    else (bytes? rest).map (encodePoint u.toNat ++ ·)

def string? (t : Text) : Option String := do
  String.fromUTF8? ⟨(← bytes? t).toArray⟩

end Text

def maxDepth : Nat := 127

mutual

-- The value of a tree in which at most `depth` containers stand within one another.
def Tree.keep? (depth : Nat) : Tree → Option Value
  | .null => some .null
  | .bool b => some (.bool b)
  | .number n => n.number?.map .number
  | .string s => (Text.string? s).map .string
  | .array items =>
    match depth with
    | 0 => none
    | depth + 1 => (keepItems? depth items).map .array
  | .object members =>
    match depth with
    | 0 => none
    | depth + 1 => (keepMembers? depth members).map .object

def Tree.keepItems? (depth : Nat) : List Tree → Option (List Value)
  | [] => some []
  | item :: rest => do
    let value ← item.keep? depth
    let values ← keepItems? depth rest
    return value :: values

def Tree.keepMembers? (depth : Nat) : List (Text × Tree) → Option (List (String × Value))
  | [] => some []
  | (key, item) :: rest => do
    let key ← Text.string? key
    let value ← item.keep? depth
    let members ← keepMembers? depth rest
    return (key, value) :: members

end

-- The members of an object as a mapping: in the order of their keys, the last of equal ones.
abbrev Mapping := List (String × Value)

-- Read a mapping in which at most `depth` containers stand within one another, itself
-- included.
def Tree.mapping? (depth : Nat) (t : Tree) : Option Mapping := do
  match ← t.keep? depth with
  | .object members => some (Sorted.ofList members)
  | _ => none

namespace Value

def get? (v : Value) (key : String) : Option Value :=
  match v with
  | .object members => (members.reverse.find? (·.1 == key)).map (·.2)
  | _ => none

def bool? : Value → Option Bool
  | .bool b => some b
  | _ => none

def ofBinary64 (x : Binary64) : Value :=
  if x.isFinite then .number (.binary x) else .null

def ofMapping (members : List (String × Value)) : Value := .object (Sorted.ofList members)

end Value

end RelayGateway.Json
