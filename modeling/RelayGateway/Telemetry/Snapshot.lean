import RelayGateway.Telemetry.Reading

namespace RelayGateway.Telemetry

-- The last reading. The version tells a new reading that equals the one before it from no reading
-- at all.
structure Snapshot where
  version : Nat := 0
  reading : Option Reading := none
  -- When the reading was taken, in milliseconds of uptime.
  updatedAt : Nat := 0
  deriving DecidableEq, Repr

def Snapshot.update (s : Snapshot) (reading : Reading) (now : Nat) : Snapshot :=
  { version := s.version + 1, reading := some reading, updatedAt := now }

structure Record where
  temperature : Option Binary32 := none
  humidity : Option Binary32 := none
  lightLevel : Option Binary32 := none
  phLevels : List Binary32 := []
  relayStates : List Bool := []
  relayLabels : List String := []
  deriving DecidableEq, Repr

-- The record of a reading. The relay states are those of the store and never those of the
-- frame, since the store holds what the device was last told.
def Record.merge (reading : Option Reading) (states : List Bool) (labels : List String) :
    Record where
  temperature := reading.map (·.temperature)
  humidity := reading.map (·.humidity)
  lightLevel := reading.map (·.lightLevel)
  phLevels := (reading.map (·.phLevels)).getD []
  relayStates := states
  relayLabels := labels

-- What a record shows: the sensor values of a reading, or none as long as there is no reading, with
-- the relays and their labels.
inductive Record.Shows (states : List Bool) (labels : List String) : Option Reading → Record → Prop
  | relays :
      Shows states labels none
        { temperature := none
          humidity := none
          lightLevel := none
          phLevels := []
          relayStates := states
          relayLabels := labels }
  | sensors (reading : Reading) :
      Shows states labels (some reading)
        { temperature := some reading.temperature
          humidity := some reading.humidity
          lightLevel := some reading.lightLevel
          phLevels := reading.phLevels
          relayStates := states
          relayLabels := labels }

theorem Record.shows_merge (reading : Option Reading) (states : List Bool) (labels : List String) :
    Shows states labels reading (.merge reading states labels) := by
  cases reading with
  | none => exact .relays
  | some reading => exact .sensors reading

end RelayGateway.Telemetry
