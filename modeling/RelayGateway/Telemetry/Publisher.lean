import RelayGateway.Compression.Basic
import RelayGateway.PubSub.Broker
import RelayGateway.Telemetry.Document

namespace RelayGateway.Telemetry

open Json (Value)
open PubSub (Message)

structure SensorTopics where
  temperature : String := "verdure/sensors/temperature"
  humidity : String := "verdure/sensors/humidity"
  lightLevel : String := "verdure/sensors/light"
  phLevels : String := "verdure/sensors/ph"
  relayStates : String := "verdure/relays/status"
  deriving DecidableEq, Repr

-- How records are published: all in one message, or one message per value, compressed or not.
structure PublisherSettings where
  unified : Bool
  unifiedTopic : String
  topics : SensorTopics
  compress : Bool
  deriving DecidableEq, Repr

structure Draft where
  topic : String
  text : String
  deriving DecidableEq, Repr

namespace PublisherSettings

def unifiedDocument (record : Record) (timestamp : Nat) : Value :=
  .ofMapping ([
    ("data_type", .string "sensor_data"),
    ("timestamp", .number (.natural timestamp))] ++ sanitized record)

def scalarDraft (topic key : String) (x : Option Binary32) : List Draft :=
  match x with
  | some x =>
    if x.isNaN then []
    else [⟨topic, (Value.ofMapping [(key, .ofBinary64 x.widen.toHundredths)]).write⟩]
  | none => []

def levelsDraft (topic : String) (record : Record) : List Draft :=
  if record.phLevels.isEmpty then []
  else [⟨topic, (Value.ofMapping [("ph_levels", sanitizedLevels record)]).write⟩]

def relaysDraft (topic : String) (record : Record) : List Draft :=
  if record.relayStates.isEmpty then []
  else [⟨topic, (Value.ofMapping [
    ("relay_states", .array (record.relayStates.map .bool)),
    ("relay_labels", .array (record.relayLabels.map .string))]).write⟩]

def splitDrafts (topics : SensorTopics) (record : Record) : List Draft :=
  scalarDraft topics.temperature "temperature" record.temperature ++
  scalarDraft topics.humidity "humidity" record.humidity ++
  scalarDraft topics.lightLevel "light_level" record.lightLevel ++
  levelsDraft topics.phLevels record ++
  relaysDraft topics.relayStates record

def drafts (s : PublisherSettings) (record : Record) (timestamp : Nat) : List Draft :=
  if s.unified then [⟨s.unifiedTopic, (unifiedDocument record timestamp).write⟩]
  else splitDrafts s.topics record

-- The message of a document. Only the split layout is ever compressed.
def message (s : PublisherSettings) (draft : Draft) : Message :=
  let text := if !s.unified && s.compress then Compression.compress draft.text else draft.text
  ⟨draft.topic, Text.toBytes text⟩

def messages (s : PublisherSettings) (record : Record) (timestamp : Nat) : List Message :=
  (s.drafts record timestamp).map s.message

def refusal (s : PublisherSettings) (message : Message) : Notice :=
  if s.unified then .error s!"PubSub: failed to publish unified telemetry to {message.topic}"
  else .error s!"PubSub: failed to publish to {message.topic}"

end PublisherSettings

structure Outlet (σ : Type) where
  post : Message → σ → Bool × σ
  say : Notice → σ → σ

-- Offer messages in order, whatever was refused before; gives how many were accepted.
def Outlet.offer {σ : Type} (outlet : Outlet σ) (refusal : Message → Notice) :
    List Message → σ → Nat × σ
  | [], s => (0, s)
  | message :: rest, s =>
    match outlet.post message s with
    | (true, s) =>
      let (count, s) := outlet.offer refusal rest s
      (count + 1, s)
    | (false, s) => outlet.offer refusal rest (outlet.say (refusal message) s)

def PublisherSettings.publish {σ : Type} (s : PublisherSettings) (outlet : Outlet σ)
    (record : Record) (timestamp : Nat) (world : σ) : Nat × σ :=
  outlet.offer s.refusal (s.messages record timestamp) world

end RelayGateway.Telemetry
