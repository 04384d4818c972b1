import RelayGateway.Config.Document
import RelayGateway.Proofs.Json.Members

namespace RelayGateway

open Json (Tree Value Fields objectText treeOf)
open Telemetry (SensorTopics)
open RelayGateway.Text (toBytes)

namespace Json

def memberTrees (members : List (String × Value)) : List (String × Tree) :=
  members.map fun (key, value) => (key, value.tree)

end Json

namespace Telemetry.SensorTopics

def members (t : SensorTopics) : List (String × Value) := [
  ("temperature", .string t.temperature),
  ("humidity", .string t.humidity),
  ("light_level", .string t.lightLevel),
  ("ph_levels", .string t.phLevels),
  ("relay_states", .string t.relayStates)]

def names : List String := members {} |>.map Prod.fst

end Telemetry.SensorTopics

namespace Config

def names : List String := (members {}).map Prod.fst

end Config

end RelayGateway
