import RelayGateway.Dispatch.Queue
import RelayGateway.Command.Packed
import RelayGateway.Link.Wire
import RelayGateway.Relay.Store
import RelayGateway.Telemetry.Event
import RelayGateway.Telemetry.Snapshot

namespace RelayGateway.Dispatch

open Telemetry (Record Snapshot)

structure Board where
  store : Relay.Store
  labels : List String
  snapshot : Snapshot := {}

namespace Board

def change (b : Board) : Command → Except Relay.StoreError Relay.Store
  | .toggleRelay index (some state) => b.store.set index state
  | .toggleRelay index none => (b.store.toggle index).map (·.2)
  | .calibrateProbe _ _ => .ok b.store

def record (b : Board) : Record := .merge b.snapshot.reading b.store.states b.labels

def payload (command : Command) : List UInt8 := command.toDevice.toBytes

def conclude (b : Board) (command : Command) (written : Except Link.Error Unit) : List Event :=
  let failures :=
    match written with
    | .ok () => []
    | .error e => [Event.failure command e.message]
  failures ++ [.broadcast command b.record]

-- A way to write payloads to the device.
abbrev Writer (σ : Type) := List UInt8 → σ → Except Link.Error Unit × σ

-- Carry out a command: the store changes before the write, and a change that could not be written
-- stays.
def execute {σ : Type} (b : Board) (write : Writer σ) (command : Command) (world : σ) :
    List Event × Board × σ :=
  match b.change command with
  | .error e => ([.failure command e.message], b, world)
  | .ok store =>
    let b := { b with store }
    let (written, world) := write (payload command) world
    (b.conclude command written, b, world)

end Board

structure Dispatcher where
  queue : Queue := {}
  board : Board
  writing : Option Command := none
  stopped : Bool := false

namespace Dispatcher

def submit (d : Dispatcher) (command : Command) : Except Error Unit × Dispatcher :=
  let (result, queue) := d.queue.submit command
  (result, { d with queue })

-- Hand the next job to the worker, if it is free. A command that the store refuses is done with at
-- once; any other is then being written.
def receive (d : Dispatcher) : List Event × Dispatcher :=
  match d.writing, d.queue.receive? with
  | none, some (.run command, queue) =>
    match d.board.change command with
    | .error e => ([.failure command e.message], { d with queue })
    | .ok store =>
      ([], { d with queue, board := { d.board with store }, writing := some command })
  | none, some (.stop, queue) => ([], { d with queue, stopped := true })
  | _, _ => ([], d)

def complete (d : Dispatcher) (written : Except Link.Error Unit) : List Event × Dispatcher :=
  match d.writing with
  | some command => (d.board.conclude command written, { d with writing := none })
  | none => ([], d)

def receiveAll (d : Dispatcher) : (jobs : Nat) → List Event × Dispatcher
  | 0 => ([], d)
  | jobs + 1 =>
    let (events, d) := d.receive
    let (more, d) := d.receiveAll jobs
    (events ++ more, d)

-- Hand jobs to the worker until it writes or nothing waits; every call of `receive` either
-- takes a job or changes nothing.
def advance (d : Dispatcher) : List Event × Dispatcher := d.receiveAll d.queue.pending

def drainJobs {σ : Type} (write : Board.Writer σ) :
    (jobs : Nat) → Dispatcher → σ → List Event × Dispatcher × σ
  | 0, d, world => ([], d, world)
  | jobs + 1, d, world =>
    match d.writing with
    | some command =>
      let (written, world) := write (Board.payload command) world
      let (events, d) := d.complete written
      let (more, d, world) := drainJobs write jobs d world
      (events ++ more, d, world)
    | none =>
      let (events, d) := d.receive
      let (more, d, world) := drainJobs write jobs d world
      (events ++ more, d, world)

-- Run until nothing waits and nothing is being written. Each job takes two steps at most.
def drain {σ : Type} (write : Board.Writer σ) (d : Dispatcher) (world : σ) :
    List Event × Dispatcher × σ :=
  drainJobs write (2 * d.queue.pending + 1) d world

def shutdown {σ : Type} (write : Board.Writer σ) (d : Dispatcher) (world : σ) :
    List Event × Dispatcher × σ :=
  let (events, d, world) := drain write { d with queue := d.queue.close } world
  let queue := d.queue.requestStop?.getD d.queue
  let (more, d) := { d with queue }.receive
  (events ++ more, d, world)

end Dispatcher

end RelayGateway.Dispatch
