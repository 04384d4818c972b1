import RelayGateway.Telemetry.Snapshot
import RelayGateway.Command.Basic

namespace RelayGateway

open Telemetry (Record)

inductive Event where
  -- A reading was decoded.
  | telemetry (record : Record)
  -- A command was carried out; the record shows the state after it.
  | broadcast (command : Command) (record : Record)
  -- A command was refused or could not be written.
  | failure (command : Command) (reason : String)
  deriving DecidableEq, Repr

namespace Telemetry.Record

def relayDigits (r : Record) : String :=
  String.ofList (r.relayStates.map fun state => if state then '1' else '0')

def scalarText (x : Option Binary32) : String :=
  match x with
  | some x => x.oneDecimal
  | none => "--"

def levelsText (r : Record) : String :=
  "[" ++ ", ".intercalate (r.phLevels.map Binary32.reportText) ++ "]"

def summary (r : Record) : String :=
  "T=" ++ scalarText r.temperature ++ "°C | RH=" ++ scalarText r.humidity ++
    "% | light=" ++ scalarText r.lightLevel ++ " | pH=" ++ r.levelsText ++
    " | relays=" ++ r.relayDigits

end Telemetry.Record

def Event.notice : Event → Notice
  | telemetry record => .info s!"TELEM | {record.summary}"
  | broadcast command record =>
    .info s!"STATE | after {command.describe} | relays={record.relayDigits}"
  | failure command reason => .warning s!"FAIL  | {command.describe} | {reason}"

end RelayGateway
