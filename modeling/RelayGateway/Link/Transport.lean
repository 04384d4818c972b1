import RelayGateway.Link.Wire
import RelayGateway.Link.Retry
import RelayGateway.Basic
import RelayGateway.Text.Quoted

namespace RelayGateway.Link

inductive State where
  | disconnected
  | connecting
  | connected
  | reading
  | writing
  deriving DecidableEq, Repr

def State.name : State → String
  | disconnected => "Disconnected"
  | connecting => "Connecting"
  | connected => "Open"
  | reading => "Reading"
  | writing => "Writing"

structure Transport where
  settings : Settings
  retry : RetryPolicy := .standard
  reconnectDelay : Duration := .ofSeconds 1
  state : State := .disconnected
  -- Whether there is a stream.
  isOpen : Bool := false
  hasUptime : Bool := false
  decoder : Frame.Decoder := {}

-- A transport at its wire, with what it has left to tell: the sleeps it asked for and its
-- notices, the last ones first.
structure Station where
  transport : Transport
  wire : Wire
  sleeps : List Duration := []
  notices : List Notice := []

namespace Station

def say (s : Station) (notice : Notice) : Station := { s with notices := notice :: s.notices }

def sleep (s : Station) (length : Duration) : Station := { s with sleeps := length :: s.sleeps }

def quiet (s : Station) : Station :=
  { s with sleeps := [], notices := [], wire := { s.wire with calls := [] } }

def enter (s : Station) (state : State) : Station :=
  { s with transport := { s.transport with state } }

-- Give up connecting. A stream that was open before stays in place.
def refuse (s : Station) (e : Error) : Except Error Unit × Station :=
  (.error e, s.enter .disconnected)

def settleWire (w : Wire) : Except String Unit × Wire :=
  match w.clear with
  | (.error reason, w) => (.error reason, w)
  | (.ok (), w) => w.flush

def install (s : Station) : Station :=
  { s with transport := { s.transport with
      isOpen := true
      hasUptime := true
      decoder := s.transport.decoder.reset
      state := .connected } }

def connect (s : Station) : Except Error Unit × Station :=
  let s := s.enter .connecting
  let port := s.transport.settings.port
  match s.wire.listPorts with
  | .error reason =>
    s.refuse (.cannotOpen port s!"endpoint enumeration failed: {reason}")
  | .ok available =>
    if available.contains port then
      match s.wire.openStream s.transport.settings with
      | (.error reason, wire) =>
        let s := { s with wire }.say (.error s!"Serial: failed to open '{port}': {reason}")
        s.refuse (.cannotOpen port reason)
      | (.ok (), wire) =>
        match settleWire wire with
        | (.error reason, wire) =>
          { s with wire }.refuse (.cannotOpen port s!"initial flush failed: {reason}")
        | (.ok (), wire) => (.ok (), { s with wire }.install)
    else
      let s := s.say (.error s!"Serial: port '{port}' not among {Text.quoteList available}")
      s.refuse (.noSuchPort port available)

def close (s : Station) : Station :=
  { s with transport := { s.transport with
      isOpen := false
      hasUptime := false
      decoder := s.transport.decoder.reset
      state := .disconnected } }

def reconnect (s : Station) : Bool × Station :=
  match (s.close.sleep s.transport.reconnectDelay).connect with
  | (.ok (), s) => (true, s)
  | (.error e, s) => (false, s.say (.error s!"Serial: failed to reconnect: {e.message}"))

def attemptFrame (s : Station) (number : Nat) :
    Except Error (Attempt (List UInt8)) × Station :=
  let pulled := s.transport.decoder.pull s.wire.unread
  let s := { s with
    transport := { s.transport with decoder := pulled.decoder }
    wire := { s.wire with unread := pulled.unread } }
  match pulled.outcome with
  | .ok (.frame payload) => (.ok (.done payload), s)
  | .ok (.invalid fault) =>
    (.ok .retry,
      s.say (.warning s!"Serial: discarded frame ({fault.message}), attempt {number + 1}"))
  | .ok .incomplete => (.ok .retry, s)
  | .error failure => (.error (.io failure.message), s)

def answerRetry : (q : RetryPolicy.Query) → Station →
    RetryPolicy.Reply Error (List UInt8) q × Station
  | .attempt number, s => s.attemptFrame number
  | .sleep length, s => ((), s.sleep length)

-- Read a frame within a retry budget. No frame in time is no error; a failure of the stream is
-- one and closes the link.
def readWithin (s : Station) (policy : RetryPolicy) :
    Except Error (Option (List UInt8)) × Station :=
  if s.transport.isOpen then
    match policy.run.run answerRetry (s.enter .reading) with
    | (.ok frame, s) => (.ok frame, s.enter .connected)
    | (.error e, s) => (.error e, (s.say (.error s!"Serial: read failed: {e.message}")).close)
  else (.error .closed, s)

def readFrame (s : Station) : Except Error (Option (List UInt8)) × Station :=
  s.readWithin s.transport.retry

-- Write a frame in one call, between two flushes, up to the first failure. What has not been
-- read is cleared.
def writeWhole (frame : List UInt8) (w : Wire) : Except Error Unit × Wire :=
  match w.flush with
  | (.error reason, w) => (.error (.io reason), w)
  | (.ok (), w) =>
    match w.clear with
    | (.error reason, w) => (.error (.io reason), w)
    | (.ok (), w) =>
      match w.write frame with
      | (.error reason, w) => (.error (.io reason), w)
      | (.ok written, w) =>
        if written = frame.length then
          match w.flush with
          | (.error reason, w) => (.error (.io reason), w)
          | (.ok (), w) => (.ok (), w)
        else (.error (.shortWrite frame.length written), w)

-- Write a payload as a frame. A partial inbound frame is dropped, since the input is cleared.
def writeFrame (s : Station) (payload : List UInt8) : Except Error Unit × Station :=
  match Frame.encode payload with
  | .error reason => (.error (.encode reason), s)
  | .ok frame =>
    if s.transport.isOpen then
      let s := s.enter .writing
      let (result, wire) := writeWhole frame s.wire
      let s := { s with
        wire
        transport := { s.transport with
          decoder := s.transport.decoder.reset
          state := .connected } }
      match result with
      | .ok () => (.ok (), s)
      | .error e =>
        (.error e, s.say (.error s!"Serial: failed to write command: {e.message}"))
    else (.error .closed, s)

end Station

end RelayGateway.Link
