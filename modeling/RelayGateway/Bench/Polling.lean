import RelayGateway.Duration
import RelayGateway.Relay.Store
import RelayGateway.Telemetry.Poller

namespace RelayGateway.Bench

open PubSub (Port)
open Telemetry (PollSurroundings Snapshot)

-- A poller alone at a wire and a broker without subscribers. Sleeping does not move its clock.
structure Polling where
  station : Link.Station
  store : Relay.Store
  port : Port Unit
  clock : Clock := {}
  snapshot : Snapshot := {}
  events : List Event := []

namespace Polling

def setRelay (b : Polling) (index : Nat) (state : Bool) :
    Except Relay.StoreError Unit × Polling :=
  match b.store.set index state with
  | .ok store => (.ok (), { b with store })
  | .error e => (.error e, { b with station := b.station.say e.notice })

def surroundings : PollSurroundings Polling where
  receive b :=
    let (received, station) := Telemetry.receive b.station
    (received, { b with station })
  states b := b.store.states
  uptime b := b.clock.now
  epoch b := b.clock.epoch
  keep reading now b := { b with snapshot := b.snapshot.update reading now }
  emit event b := { b with events := event :: b.events }
  outlet := {
    post := fun message b =>
      let (handlers, port) := b.port.publish message
      (handlers.isSome, { b with port })
    say := fun notice b => { b with station := b.station.say notice } }

end Polling

end RelayGateway.Bench
