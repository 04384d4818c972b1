import RelayGateway.Frame.Decoder

namespace RelayGateway

-- The kinds of stream failure. The first three only mean that nothing arrived in time.
inductive FailureKind where
  | timedOut
  | wouldBlock
  | interrupted
  | other (name : String)
  deriving DecidableEq, Repr

namespace FailureKind

def name : FailureKind → String
  | timedOut => "TimedOut"
  | wouldBlock => "WouldBlock"
  | interrupted => "Interrupted"
  | other name => name

def ofName (name : String) : FailureKind :=
  ([timedOut, wouldBlock, interrupted].find? (·.name == name)).getD (other name)

end FailureKind

structure StreamFailure where
  kind : FailureKind
  message : String
  deriving DecidableEq, Repr

def StreamFailure.isDry (failure : StreamFailure) : Bool :=
  match failure.kind with
  | .timedOut | .wouldBlock | .interrupted => true
  | .other _ => false

inductive ReadResult where
  | byte (value : UInt8)
  | nothing
  | failed (failure : StreamFailure)
  deriving DecidableEq, Repr

namespace Frame

inductive Outcome where
  | frame (payload : List UInt8)
  | incomplete
  | invalid (fault : Fault)
  deriving DecidableEq, Repr

structure Pulled where
  outcome : Except StreamFailure Outcome
  decoder : Decoder
  unread : List ReadResult

-- Read until a frame is complete, a fault shows, nothing more arrives, or the stream fails.
-- Once the given results are used up, reads return nothing.
def Decoder.pull (d : Decoder) : List ReadResult → Pulled
  | [] => ⟨.ok .incomplete, d, []⟩
  | .nothing :: unread => ⟨.ok .incomplete, d, unread⟩
  | .failed failure :: unread =>
    ⟨if failure.isDry then .ok .incomplete else .error failure, d, unread⟩
  | .byte value :: unread =>
    match d.push value with
    | (.pending, d) => d.pull unread
    | (.frame payload, d) => ⟨.ok (.frame payload), d, unread⟩
    | (.invalid fault, d) => ⟨.ok (.invalid fault), d, unread⟩

end Frame

end RelayGateway
