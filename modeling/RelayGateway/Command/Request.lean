import RelayGateway.Command.Basic
import RelayGateway.Json.Fields

namespace RelayGateway

open Json

def Json.Mapping.once? (members : List (String × Value)) (key : String) : Option Value :=
  match members.filter (·.1 == key) with
  | [(_, value)] => some value
  | _ => none

namespace Command

-- A whole number up to `limit`, written without fraction or exponent.
def natural? (limit : Nat) : Value → Option Nat
  | .number (.natural n) => if n ≤ limit then some n else none
  | _ => none

def requestedState? (members : List (String × Value)) : Option (Option Bool) :=
  match members.filter (·.1 == "state") with
  | [] => some none
  | [(_, .null)] => some none
  | [(_, .bool b)] => some (some b)
  | _ => none

def relayRequest? (members : List (String × Value)) : Option Command := do
  let index ← natural? (2 ^ 64 - 1) (← Mapping.once? members "relay_index")
  let desired ← requestedState? members
  return toggleRelay index desired

def calibrationRequest? (members : List (String × Value)) : Option Command := do
  let sensor ← natural? (2 ^ 32 - 1) (← Mapping.once? members "sensor_index")
  match ← Mapping.once? members "calibration_value" with
  | .number value => some (calibrateProbe sensor.toUInt32 value.toBinary32)
  | _ => none

-- The command that a document asks for. If it names both a relay and a probe, the relay is meant.
def ofValue? : Value → Option Command
  | .object members => relayRequest? members <|> calibrationRequest? members
  | _ => none

def parse? (text : List UInt8) : Option Command := do
  let tree ← Tree.parse? text
  ofValue? (← tree.keep? maxDepth)

end Command

end RelayGateway
