import RelayGateway.Telemetry.Snapshot
import RelayGateway.Json.Writer

namespace RelayGateway.Telemetry

open Json (Value)

def Record.scalar (x : Option Binary32) : Value :=
  match x with
  | some x => .ofBinary64 x.widen
  | none => .null

def Record.toValue (r : Record) : Value :=
  .ofMapping [
    ("temperature", Record.scalar r.temperature),
    ("humidity", Record.scalar r.humidity),
    ("light_level", Record.scalar r.lightLevel),
    ("ph_levels", .array (r.phLevels.map fun x => Record.scalar (some x))),
    ("relay_states", .array (r.relayStates.map .bool)),
    ("relay_labels", .array (r.relayLabels.map .string))]

-- What stands for a value that the device could not give: minus one.
def missing : Binary64 := .ofInt (-1)

def sanitizeScalar (x : Option Binary32) : Binary64 :=
  match x with
  | some x => if x.isNaN then missing else x.widen.toHundredths
  | none => missing

def sanitizeLevel (x : Binary32) : Binary64 :=
  let wide := x.widen
  if wide = missing then wide else wide.toHundredths

def sanitizedLevels (r : Record) : Value :=
  .array (r.phLevels.map fun x => .ofBinary64 (sanitizeLevel x))

-- The fields of a record that the cloud gets. The relay states are left out.
def sanitized (r : Record) : List (String × Value) := [
  ("temperature", .ofBinary64 (sanitizeScalar r.temperature)),
  ("humidity", .ofBinary64 (sanitizeScalar r.humidity)),
  ("light_level", .ofBinary64 (sanitizeScalar r.lightLevel)),
  ("ph_levels", sanitizedLevels r)]

end RelayGateway.Telemetry
