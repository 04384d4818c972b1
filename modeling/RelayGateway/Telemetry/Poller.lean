import RelayGateway.Link.Transport
import RelayGateway.Telemetry.Event
import RelayGateway.Telemetry.Publisher
import RelayGateway.Telemetry.Snapshot

namespace RelayGateway.Telemetry

open Link (Station)

inductive Received where
  | reading (value : Reading)
  | nothing
  | undecodable
  | linkLost (reconnected : Bool)
  deriving DecidableEq, Repr

def Received.afterLoss (s : Station) : Received × Station :=
  let (reconnected, s) := s.reconnect
  (.linkLost reconnected, s)

def Received.ofPayload (s : Station) (payload : List UInt8) : Received × Station :=
  match Reading.ofBytes payload with
  | .ok r => (.reading r, s)
  | .error _ =>
    (.undecodable, (s.say Reading.undecodedNotice).say
      (.warning s!"Serial: dropped undecodable {payload.length} byte frame"))

def receive (s : Station) : Received × Station :=
  if s.transport.isOpen then
    match s.readFrame with
    | (.ok (some payload), s) => Received.ofPayload s payload
    | (.ok none, s) => (.nothing, s)
    | (.error e, s) =>
      Received.afterLoss (s.say (.error s!"Serial: read error in poll loop: {e.message}"))
  else Received.afterLoss s

inductive CycleResult where
  | telemetry (published : Bool)
  | silent
  | undecodable
  | linkLost (reconnected : Bool)
  deriving DecidableEq, Repr

structure Poller where
  labels : List String
  publisher : Option PublisherSettings
  -- The least time between two attempts to publish, in milliseconds.
  publishInterval : Nat
  -- The uptime of the last attempt.
  lastAttempt : Option Nat := none

namespace Poller

def isDue (p : Poller) (now : Nat) : Bool :=
  match p.lastAttempt with
  | none => true
  | some last => p.publishInterval ≤ now - last

def attempt? (p : Poller) (now : Nat) : Option PublisherSettings :=
  if p.isDue now then p.publisher else none

end Poller

structure PollSurroundings (σ : Type) where
  receive : σ → Received × σ
  states : σ → List Bool
  uptime : σ → Nat
  epoch : σ → Nat
  keep : Reading → Nat → σ → σ
  emit : Event → σ → σ
  outlet : Outlet σ

-- Pass on a reading: keep it, emit it, and publish it if that is due.
def Poller.distribute {σ : Type} (p : Poller) (env : PollSurroundings σ) (reading : Reading)
    (world : σ) : CycleResult × Poller × σ :=
  let now := env.uptime world
  let record := Record.merge (some reading) (env.states world) p.labels
  let world := env.emit (.telemetry record) (env.keep reading now world)
  match p.attempt? now with
  | none => (.telemetry false, p, world)
  | some settings =>
    let (accepted, world) := settings.publish env.outlet record (env.epoch world) world
    (.telemetry (0 < accepted), { p with lastAttempt := some now }, world)

def Poller.poll {σ : Type} (p : Poller) (env : PollSurroundings σ) (world : σ) :
    CycleResult × Poller × σ :=
  match env.receive world with
  | (.reading reading, world) => p.distribute env reading world
  | (.nothing, world) => (.silent, p, world)
  | (.undecodable, world) => (.undecodable, p, world)
  | (.linkLost reconnected, world) => (.linkLost reconnected, p, world)

end RelayGateway.Telemetry
