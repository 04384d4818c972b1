import RelayGateway.Dispatch.Dispatcher

namespace RelayGateway.Bench

open Dispatch (Dispatcher Board)

inductive WriterMode where
  | works
  | closed
  | short
  | unframed
  | fails (reason : String)
  deriving DecidableEq, Repr

def WriterMode.result (mode : WriterMode) (payload : List UInt8) : Except Link.Error Unit :=
  match mode with
  | works => .ok ()
  | closed => .error .closed
  | short => .error (.shortWrite (payload.length + 2) 0)
  | unframed => .error (.encode .empty)
  | fails reason => .error (.io reason)

structure Dispatching where
  dispatcher : Dispatcher
  mode : WriterMode := .works
  stalled : Bool := false
  -- The payloads written, last one first.
  writes : List (List UInt8) := []
  events : List Event := []

namespace Dispatching

def write (mode : WriterMode) : Board.Writer (List (List UInt8)) := fun payload writes =>
  match mode.result payload with
  | .ok () => (.ok (), payload :: writes)
  | .error e => (.error e, writes)

-- Go on until nothing waits, or until a write is held.
def settle (b : Dispatching) : Dispatching :=
  if b.stalled then
    let (events, dispatcher) := b.dispatcher.advance
    { b with dispatcher, events := b.events ++ events }
  else
    let (events, dispatcher, writes) := b.dispatcher.drain (write b.mode) b.writes
    { b with dispatcher, writes, events := b.events ++ events }

def submit (b : Dispatching) (command : Command) : Except Dispatch.Error Unit × Dispatching :=
  let (result, dispatcher) := b.dispatcher.submit command
  (result, { b with dispatcher }.settle)

def submitTimes (b : Dispatching) (command : Command) :
    Nat → List (Except Dispatch.Error Unit) × Dispatching
  | 0 => ([], b)
  | times + 1 =>
    let (first, b) := b.submit command
    let (rest, b) := b.submitTimes command times
    (first :: rest, b)

def letThrough (b : Dispatching) : Dispatching :=
  match b.dispatcher.writing with
  | none => b
  | some command =>
    let (result, writes) := write b.mode (Board.payload command) b.writes
    let (events, dispatcher) := b.dispatcher.complete result
    { b with dispatcher, writes, events := b.events ++ events }.settle

def release (b : Dispatching) : Dispatching := { b with stalled := false }.settle

def shutdown (b : Dispatching) : Dispatching :=
  let (events, dispatcher, writes) := b.dispatcher.shutdown (write b.mode) b.writes
  { b with dispatcher, writes, stalled := false, events := b.events ++ events }

def withBoard (b : Dispatching) (board : Board) : Dispatching :=
  { b with dispatcher := { b.dispatcher with board } }

def keep (b : Dispatching) (reading : Telemetry.Reading) (now : Nat) : Nat × Dispatching :=
  let board := b.dispatcher.board
  let snapshot := board.snapshot.update reading now
  (snapshot.version, b.withBoard { board with snapshot })

def setRelay (b : Dispatching) (index : Nat) (state : Bool) :
    Except Relay.StoreError Unit × Dispatching :=
  let board := b.dispatcher.board
  match board.store.set index state with
  | .ok store => (.ok (), b.withBoard { board with store })
  | .error e => (.error e, b)

end Dispatching

end RelayGateway.Bench
