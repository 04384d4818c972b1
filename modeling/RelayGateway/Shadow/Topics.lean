import RelayGateway.Duration

namespace RelayGateway.Shadow

structure Settings where
  -- The wait between a command and the first look at the store.
  settle : Duration := .ofMillis 500
  -- The pause between two commands of one batch.
  gap : Duration := .ofMillis 100
  deriving DecidableEq, Repr

inductive Channel where
  | getAccepted
  | getRejected
  | updateDelta
  | updateAccepted
  | updateRejected
  deriving DecidableEq, Repr

def Channel.all : List Channel :=
  [.getAccepted, .getRejected, .updateDelta, .updateAccepted, .updateRejected]

def Channel.name : Channel → String
  | getAccepted => "GetAccepted"
  | getRejected => "GetRejected"
  | updateDelta => "UpdateDelta"
  | updateAccepted => "UpdateAccepted"
  | updateRejected => "UpdateRejected"

def Channel.ofName? (name : String) : Option Channel := Channel.all.find? fun c => c.name == name

-- The topics of one shadow all start with its root.
structure Topics where
  root : String
  deriving DecidableEq, Repr

namespace Topics

def ofNames (thing shadow : String) : Topics :=
  ⟨s!"$aws/things/{thing}/shadow/name/{shadow}"⟩

def get (t : Topics) : String := t.root ++ "/get"

def update (t : Topics) : String := t.root ++ "/update"

def topic (t : Topics) : Channel → String
  | .getAccepted => t.get ++ "/accepted"
  | .getRejected => t.get ++ "/rejected"
  | .updateDelta => t.update ++ "/delta"
  | .updateAccepted => t.update ++ "/accepted"
  | .updateRejected => t.update ++ "/rejected"

def classify (t : Topics) (topic : String) : Option Channel :=
  Channel.all.find? fun channel => t.topic channel == topic

end Topics

end RelayGateway.Shadow
