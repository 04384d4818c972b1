namespace RelayGateway

namespace PubSub

inductive Error where
  | connectRefused (reason : String)
  | subscribeRefused (reason : String)
  | noSession
  deriving DecidableEq, Repr

def Error.message : Error → String
  | connectRefused reason => s!"connect failed: {reason}"
  | subscribeRefused reason => s!"subscribe failed: {reason}"
  | noSession => "not connected"

end PubSub

namespace Shadow

inductive Error where
  | connectRefused (reason : String)
  | subscribeRefused (topic reason : String)
  | publishRefused (topic : String)
  -- The store did not show a relay's target in time.
  | unverified (index : Nat) (target : Bool)
  | malformed (reason : String)
  deriving DecidableEq, Repr

def Error.message : Error → String
  | connectRefused reason => s!"connect failed: {reason}"
  | subscribeRefused topic reason => s!"subscribe to '{topic}' failed: {reason}"
  | publishRefused topic => s!"publish to '{topic}' failed"
  | unverified index target =>
    let state := if target then "ON" else "OFF"
    s!"relay {index} did not reach {state} before the deadline"
  | malformed reason => s!"malformed document: {reason}"

end Shadow

end RelayGateway
