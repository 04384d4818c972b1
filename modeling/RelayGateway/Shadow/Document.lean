import RelayGateway.Json.Fields
import RelayGateway.Json.Writer
import RelayGateway.Basic

namespace RelayGateway.Shadow

open Json

def keyOfIndex (index : Nat) : String := s!"relay{index + 1}"

-- A number of 64 bits in ASCII digits. A plus sign and leading zeros are allowed.
def unsigned? (text : List Char) : Option Nat :=
  let digits :=
    match text with
    | '+' :: rest => rest
    | _ => text
  if digits.isEmpty || !digits.all Char.isDigit then none
  else
    let value := digits.foldl (fun n c => 10 * n + (c.toNat - 48)) 0
    if value < 2 ^ 64 then some value else none

def afterRelay? : List Char → Option (List Char)
  | 'r' :: 'e' :: 'l' :: 'a' :: 'y' :: rest => some rest
  | _ => none

-- The relay that a key names. There is no relay 0 in a shadow.
def indexOfKey? (key : String) : Option Nat := do
  match ← unsigned? (← afterRelay? key.toList) with
  | 0 => none
  | n + 1 => some n

abbrev Targets := List (Nat × Bool)

inductive Entry where
  | target (index : Nat) (state : Bool)
  | unrelated
  | refused (notice : Notice)
  deriving DecidableEq, Repr

def Entry.of (relays : Nat) (key : String) (value : Value) : Entry :=
  match indexOfKey? key with
  | none =>
    if (afterRelay? key.toList).isSome then
      refused (.warning s!"Shadow: invalid relay key '{key}'")
    else unrelated
  | some index =>
    if relays ≤ index then
      refused (.warning s!"Shadow: '{key}' beyond {relays} relays, skipped")
    else
      match (value.get? "state").bind Value.bool? with
      | some state => target index state
      | none => refused (.warning s!"Shadow: '{key}' has no boolean state, skipped")

def Entry.target? : Entry → Option (Nat × Bool)
  | target index state => some (index, state)
  | _ => none

def Entry.notice? : Entry → Option Notice
  | refused notice => some notice
  | _ => none

-- What the entries of a partition say, in the order of their keys.
def entries (relays : Nat) (partition : Mapping) : List Entry :=
  partition.map fun (key, value) => Entry.of relays key value

-- The targets of a partition. Where two keys name one relay, the later key counts.
def targets (relays : Nat) (partition : Mapping) : Targets :=
  Sorted.ofList ((entries relays partition).filterMap Entry.target?)

def complaints (relays : Nat) (partition : Mapping) : List Notice :=
  (entries relays partition).filterMap Entry.notice?

def deltaState? (payload : List UInt8) : Option Mapping := do
  let fields ← (← Tree.parse? payload).fields? 1
  fields.read 0 "state" [] (Tree.mapping? (maxDepth - 1))

structure Partitions where
  desired : Mapping := []
  reported : Mapping := []

def Partitions.ofTree? (t : Tree) : Option Partitions := do
  let fields ← t.fields? 2
  let partition (place : Nat) (name : String) : Option (Option Mapping) :=
    fields.read place name none (Tree.optional? (Tree.mapping? (maxDepth - 2)))
  let desired ← partition 0 "desired"
  let reported ← partition 1 "reported"
  return { desired := desired.getD [], reported := reported.getD [] }

def partitions? (payload : List UInt8) : Option Partitions := do
  let fields ← (← Tree.parse? payload).fields? 1
  fields.read 0 "state" {} Partitions.ofTree?

structure Delta where
  targets : Targets
  notices : List Notice
  deriving DecidableEq, Repr

def Delta.ofBytes? (relays : Nat) (payload : List UInt8) : Option Delta :=
  (deltaState? payload).map fun state =>
    ⟨Shadow.targets relays state, complaints relays state⟩

structure Full where
  desired : Targets
  reported : Targets
  notices : List Notice
  deriving DecidableEq, Repr

-- Read a full shadow; none if the document is malformed.
def Full.ofBytes? (relays : Nat) (payload : List UInt8) : Option Full :=
  (partitions? payload).map fun p =>
    ⟨Shadow.targets relays p.desired, Shadow.targets relays p.reported,
      complaints relays p.desired ++ complaints relays p.reported⟩

structure Rejection where
  code : Option Int := none
  message : Option String := none
  deriving DecidableEq, Repr

def Rejection.ofBytes? (payload : List UInt8) : Option Rejection := do
  let fields ← (← Tree.parse? payload).fields? 2
  let code ← fields.read 0 "code" none (Tree.optional? Tree.integer?)
  let message ← fields.read 1 "message" none (Tree.optional? Tree.string?)
  return { code, message }

-- Read a rejection; a malformed one says nothing.
def Rejection.ofBytes (payload : List UInt8) : Rejection := (ofBytes? payload).getD {}

def reportedEntry (index : Nat) (state : Bool) : String × Value :=
  (keyOfIndex index, .object [("state", .bool state)])

def reported (states : List (Nat × Bool)) : Value :=
  let partition := Value.ofMapping (states.map fun (index, state) => reportedEntry index state)
  .object [("state", .object [("reported", partition)])]

def relayReport (index : Nat) (state : Bool) : String := (reported [(index, state)]).write

def boardReport (states : List Bool) : String :=
  (reported (states.zipIdx.map fun (state, index) => (index, state))).write

end RelayGateway.Shadow
