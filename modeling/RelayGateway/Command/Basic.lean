import RelayGateway.Floating.Text

namespace RelayGateway

-- What the outside world can ask for. A relay command without a desired state toggles.
inductive Command where
  | toggleRelay (index : Nat) (desired : Option Bool)
  | calibrateProbe (sensor : UInt32) (value : Binary32)
  deriving DecidableEq, Repr

-- A command as the board understands it. The board flips a relay whenever it is named.
inductive DeviceCommand where
  | toggleRelay (relay : UInt32)
  | calibrateProbe (sensor : UInt32) (value : Binary32)
  deriving DecidableEq, Repr

namespace Command

def setRelay (index : Nat) (state : Bool) : Command := toggleRelay index (some state)

-- The desired state stays here: only the low 32 bits of the index cross the link.
def toDevice : Command → DeviceCommand
  | toggleRelay index _ => .toggleRelay index.toUInt32
  | calibrateProbe sensor value => .calibrateProbe sensor value

def describe : Command → String
  | toggleRelay index desired =>
    let state :=
      match desired with
      | none => "None"
      | some b => s!"Some({b})"
    s!"ToggleRelay \x7b index: {index}, desired_state: {state} \x7d"
  | calibrateProbe sensor value =>
    s!"CalibratePh \x7b sensor_index: {sensor}, value: {value.reportText} \x7d"

end Command

end RelayGateway
