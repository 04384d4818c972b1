import RelayGateway.Link.Retry
import RelayGateway.Link.Wire
import RelayGateway.PubSub.Client
import RelayGateway.Shadow.Topics
import RelayGateway.Telemetry.Publisher

namespace RelayGateway

open Telemetry (SensorTopics PublisherSettings)

-- All times are in milliseconds.
structure Config where
  port : String := "/dev/ttyUSB0"
  baudRate : UInt32 := 9600
  readTimeout : UInt64 := 1000
  -- Attempts at a frame within one poll cycle.
  maxReadRetries : UInt32 := 3
  -- The pause between closing and opening again.
  reconnectDelay : UInt64 := 1000
  readInterval : UInt64 := 1000
  -- There is one relay per label.
  relayLabels : List String := ["Relay 0", "Relay 1", "Relay 2", "Relay 3", "Relay 4"]
  thingName : String := "verdure"
  shadowName : String := "relays"
  settleDelay : UInt64 := 500
  interCommandDelay : UInt64 := 100
  reconnectBaseDelay : UInt64 := 5000
  reconnectMaxRetries : UInt32 := 5
  publishInterval : UInt64 := 5000
  useUnifiedTopic : Bool := true
  unifiedTopic : String := "verdure/sensors/realtime"
  sensorTopics : SensorTopics := {}
  compressSplitPayloads : Bool := false
  deriving DecidableEq, Repr

namespace Config

inductive Fault where
  | emptyPort
  | zeroBaudRate
  | noReadAttempts
  | noRelays
  | emptyShadowNames
  | noReconnectAttempts
  | emptyTopics
  deriving DecidableEq, Repr

def Fault.message : Fault → String
  | emptyPort => "port must not be empty"
  | zeroBaudRate => "baud_rate must be > 0"
  | noReadAttempts => "max_read_retries must be > 0"
  | noRelays => "at least one relay label is required"
  | emptyShadowNames => "thing_name and shadow_name must not be empty"
  | noReconnectAttempts => "reconnect_max_retries must be > 0"
  | emptyTopics => "telemetry topics must not be empty"

inductive Error where
  | malformed (reason : String)
  | invalid (fault : Fault)
  deriving DecidableEq, Repr

def Error.message : Error → String
  | malformed reason => s!"parse error: {reason}"
  | invalid fault => s!"validation failed: {fault.message}"

def telemetryTopics (c : Config) : List String :=
  [c.unifiedTopic, c.sensorTopics.temperature, c.sensorTopics.humidity, c.sensorTopics.lightLevel,
    c.sensorTopics.phLevels, c.sensorTopics.relayStates]

-- The checks in order, each with whether it fails.
def checks (c : Config) : List (Bool × Fault) := [
  (c.port.isEmpty, .emptyPort),
  (c.baudRate == 0, .zeroBaudRate),
  (c.maxReadRetries == 0, .noReadAttempts),
  (c.relayLabels.isEmpty, .noRelays),
  (c.thingName.isEmpty || c.shadowName.isEmpty, .emptyShadowNames),
  (c.reconnectMaxRetries == 0, .noReconnectAttempts),
  (c.telemetryTopics.any String.isEmpty, .emptyTopics)]

def fault? (c : Config) : Option Fault :=
  (c.checks.find? (·.1)).map (·.2)

def validate (c : Config) : Except Error Unit :=
  match c.fault? with
  | some fault => .error (.invalid fault)
  | none => .ok ()

def relayCount (c : Config) : Nat := c.relayLabels.length

def linkSettings (c : Config) : Link.Settings :=
  { port := c.port, baudRate := c.baudRate, timeout := .ofMillis c.readTimeout.toNat }

-- Reads are attempted a tenth of a second apart.
def retryPolicy (c : Config) : RetryPolicy := ⟨c.maxReadRetries.toNat, .ofMillis 100⟩

def reconnectPolicy (c : Config) : PubSub.ReconnectPolicy :=
  ⟨.ofMillis c.reconnectBaseDelay.toNat, c.reconnectMaxRetries.toNat⟩

def shadowSettings (c : Config) : Shadow.Settings :=
  { settle := .ofMillis c.settleDelay.toNat, gap := .ofMillis c.interCommandDelay.toNat }

def shadowTopics (c : Config) : Shadow.Topics := .ofNames c.thingName c.shadowName

def publisherSettings (c : Config) : PublisherSettings where
  unified := c.useUnifiedTopic
  unifiedTopic := c.unifiedTopic
  topics := c.sensorTopics
  compress := c.compressSplitPayloads

end Config

end RelayGateway
