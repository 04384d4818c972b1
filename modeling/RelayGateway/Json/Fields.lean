import RelayGateway.Json.Value

namespace RelayGateway.Json

inductive Fields where
  | named (members : List (String × Tree))
  | ordered (items : List Tree)

def namedField? (member : Text × Tree) : Option (String × Tree) :=
  (Text.string? member.1).map (·, member.2)

-- The fields of a structure that has `count` of them. All keys have to be well-formed.
def Tree.fields? (count : Nat) : Tree → Option Fields
  | .object members => (members.mapM namedField?).map .named
  | .array items => if items.length ≤ count then some (.ordered items) else none
  | _ => none

namespace Fields

-- The field of a given place and name, or that it is missing. A name given twice is refused.
def get? (fields : Fields) (place : Nat) (name : String) : Option (Option Tree) :=
  match fields with
  | ordered items => some items[place]?
  | named members =>
    match members.filter (·.1 == name) with
    | [] => some none
    | [(_, item)] => some (some item)
    | _ => none

def read {α : Type} (fields : Fields) (place : Nat) (name : String) (fallback : α)
    (decode : Tree → Option α) : Option α := do
  match ← fields.get? place name with
  | none => some fallback
  | some item => decode item

end Fields

namespace Tree

def bool? : Tree → Option Bool
  | .bool b => some b
  | _ => none

def string? : Tree → Option String
  | .string s => Text.string? s
  | _ => none

def number? : Tree → Option Number
  | .number n => n.number?
  | _ => none

def natural? (limit : Nat) (t : Tree) : Option Nat :=
  match t.number? with
  | some (.natural n) => if n ≤ limit then some n else none
  | _ => none

def integer? (t : Tree) : Option Int :=
  match t.number? with
  | some (.natural n) => if n < 2 ^ 63 then some n else none
  | some (.negative n) => some n
  | _ => none

def strings? : Tree → Option (List String)
  | .array items => items.mapM string?
  | _ => none

-- Null is nothing; all else is read by `decode`.
def optional? {α : Type} (decode : Tree → Option α) : Tree → Option (Option α)
  | .null => some none
  | t => (decode t).map some

end Tree

end RelayGateway.Json
