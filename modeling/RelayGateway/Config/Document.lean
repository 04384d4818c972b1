import RelayGateway.Config.Basic
import RelayGateway.Json.Fields
import RelayGateway.Json.Writer

namespace RelayGateway

open Json Telemetry

def Telemetry.SensorTopics.ofTree? (t : Tree) : Option SensorTopics := do
  let fields ← t.fields? 5
  let defaults : SensorTopics := {}
  let temperature ← fields.read 0 "temperature" defaults.temperature Tree.string?
  let humidity ← fields.read 1 "humidity" defaults.humidity Tree.string?
  let lightLevel ← fields.read 2 "light_level" defaults.lightLevel Tree.string?
  let phLevels ← fields.read 3 "ph_levels" defaults.phLevels Tree.string?
  let relayStates ← fields.read 4 "relay_states" defaults.relayStates Tree.string?
  return { temperature, humidity, lightLevel, phLevels, relayStates }

def Telemetry.SensorTopics.toValue (t : SensorTopics) : Value :=
  .object [
    ("temperature", .string t.temperature),
    ("humidity", .string t.humidity),
    ("light_level", .string t.lightLevel),
    ("ph_levels", .string t.phLevels),
    ("relay_states", .string t.relayStates)]

namespace Config

def word? (t : Tree) : Option UInt32 := (t.natural? (2 ^ 32 - 1)).map (·.toUInt32)

def longWord? (t : Tree) : Option UInt64 := (t.natural? (2 ^ 64 - 1)).map (·.toUInt64)

-- Read a configuration without checking it.
def ofTree? (t : Tree) : Option Config := do
  let fields ← t.fields? 18
  let d : Config := {}
  let port ← fields.read 0 "port" d.port Tree.string?
  let baudRate ← fields.read 1 "baud_rate" d.baudRate word?
  let readTimeout ← fields.read 2 "read_timeout_ms" d.readTimeout longWord?
  let maxReadRetries ← fields.read 3 "max_read_retries" d.maxReadRetries word?
  let reconnectDelay ← fields.read 4 "reconnect_delay_ms" d.reconnectDelay longWord?
  let readInterval ← fields.read 5 "read_interval_ms" d.readInterval longWord?
  let relayLabels ← fields.read 6 "relay_labels" d.relayLabels Tree.strings?
  let thingName ← fields.read 7 "thing_name" d.thingName Tree.string?
  let shadowName ← fields.read 8 "shadow_name" d.shadowName Tree.string?
  let settleDelay ← fields.read 9 "settle_delay_ms" d.settleDelay longWord?
  let interCommandDelay ← fields.read 10 "inter_command_delay_ms" d.interCommandDelay longWord?
  let reconnectBaseDelay ← fields.read 11 "reconnect_base_delay_ms" d.reconnectBaseDelay longWord?
  let reconnectMaxRetries ← fields.read 12 "reconnect_max_retries" d.reconnectMaxRetries word?
  let publishInterval ← fields.read 13 "publish_interval_ms" d.publishInterval longWord?
  let useUnifiedTopic ← fields.read 14 "use_unified_topic" d.useUnifiedTopic Tree.bool?
  let unifiedTopic ← fields.read 15 "unified_topic" d.unifiedTopic Tree.string?
  let sensorTopics ← fields.read 16 "sensor_topics" d.sensorTopics SensorTopics.ofTree?
  let compressSplitPayloads ←
    fields.read 17 "compress_split_payloads" d.compressSplitPayloads Tree.bool?
  return {
    port, baudRate, readTimeout, maxReadRetries, reconnectDelay, readInterval, relayLabels,
    thingName, shadowName, settleDelay, interCommandDelay, reconnectBaseDelay,
    reconnectMaxRetries, publishInterval, useUnifiedTopic, unifiedTopic, sensorTopics,
    compressSplitPayloads }

def members (c : Config) : List (String × Value) := [
  ("port", .string c.port),
  ("baud_rate", .number (.natural c.baudRate.toNat)),
  ("read_timeout_ms", .number (.natural c.readTimeout.toNat)),
  ("max_read_retries", .number (.natural c.maxReadRetries.toNat)),
  ("reconnect_delay_ms", .number (.natural c.reconnectDelay.toNat)),
  ("read_interval_ms", .number (.natural c.readInterval.toNat)),
  ("relay_labels", .array (c.relayLabels.map .string)),
  ("thing_name", .string c.thingName),
  ("shadow_name", .string c.shadowName),
  ("settle_delay_ms", .number (.natural c.settleDelay.toNat)),
  ("inter_command_delay_ms", .number (.natural c.interCommandDelay.toNat)),
  ("reconnect_base_delay_ms", .number (.natural c.reconnectBaseDelay.toNat)),
  ("reconnect_max_retries", .number (.natural c.reconnectMaxRetries.toNat)),
  ("publish_interval_ms", .number (.natural c.publishInterval.toNat)),
  ("use_unified_topic", .bool c.useUnifiedTopic),
  ("unified_topic", .string c.unifiedTopic),
  ("sensor_topics", c.sensorTopics.toValue),
  ("compress_split_payloads", .bool c.compressSplitPayloads)]

def toText (c : Config) : String := (Value.object c.members).write

def parse (text : List UInt8) : Except Error Config :=
  match (Tree.parse? text).bind ofTree? with
  | none => .error (.malformed "not a configuration document")
  | some c => (validate c).map fun _ => c

end Config

end RelayGateway
