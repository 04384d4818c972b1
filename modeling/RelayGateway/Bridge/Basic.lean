import RelayGateway.Bridge.Plant
import RelayGateway.Config.Basic

namespace RelayGateway

open Bridge (Plant)
open PubSub (Message)
open Telemetry (Poller)

structure Bridge where
  session : Shadow.Session Plant
  poller : Poller
  readInterval : Duration
  running : Bool := false

namespace Bridge

inductive StartError where
  | invalidConfig (reason : Config.Error)
  | link (port : String) (reason : Link.Error)
  | shadow (reason : Shadow.Error)
  deriving DecidableEq, Repr

def StartError.message : StartError → String
  | invalidConfig reason => s!"invalid bridge configuration: {reason.message}"
  | link port reason => s!"opening serial link '{port}': {reason.message}"
  | shadow reason => s!"starting shadow sync: {reason.message}"

def assemble (c : Config) (wire : Link.Wire) (port : PubSub.Port Unit) : Bridge where
  session := {
    engine := { topics := c.shadowTopics, settings := c.shadowSettings }
    client := { policy := c.reconnectPolicy }
    port
    sync := List.replicate c.relayCount .waiting
    rest := {
      station := {
        transport := {
          settings := c.linkSettings
          retry := c.retryPolicy
          reconnectDelay := .ofMillis c.reconnectDelay.toNat }
        wire }
      dispatcher := { board := { store := .new c.relayCount, labels := c.relayLabels } } } }
  poller := {
    labels := c.relayLabels
    publisher := some c.publisherSettings
    publishInterval := c.publishInterval.toNat }
  readInterval := .ofMillis c.readInterval.toNat

-- What a poll cycle needs; its messages may come back to the engine.
def pollSurroundings : Telemetry.PollSurroundings (Shadow.Session Plant) where
  receive s :=
    let (received, rest) := s.rest.receive
    (received, { s with rest })
  states s := s.rest.states
  uptime s := s.rest.clock.now
  epoch s := s.rest.clock.epoch
  keep reading now s := { s with rest := s.rest.keep reading now }
  emit event s := { s with rest := s.rest.emit event }
  outlet := {
    post := fun message s => s.publish Plant.surroundings message
    say := fun notice s => { s with rest := s.rest.say notice } }

def cycle (b : Bridge) : Bridge :=
  let (_, poller, session) := b.poller.poll pollSurroundings b.session
  { b with poller, session := { session with rest := session.rest.sleep .poll b.readInterval } }

def onPlant {α : Type} (b : Bridge) (act : Plant → α × Plant) : α × Bridge :=
  let (a, rest) := act b.session.rest
  (a, { b with session := { b.session with rest } })

def connectLink (b : Bridge) : Except Link.Error Unit × Bridge :=
  b.onPlant fun p =>
    let (result, station) := p.station.connect
    (result, { p with station }.collect .main)

-- Start a bridge up to the end of its first poll cycle. The bridge that is given with an error
-- only shows what has happened.
def start (c : Config) (wire : Link.Wire) (port : PubSub.Port Unit) :
    Except StartError Unit × Bridge :=
  let b := assemble c wire port
  match c.validate with
  | .error e => (.error (.invalidConfig e), b)
  | .ok () =>
    match b.connectLink with
    | (.error e, b) => (.error (.link c.port e), b)
    | (.ok (), b) =>
      match b.session.start Plant.surroundings with
      | (.error e, session) => (.error (.shadow e), { b with session })
      | (.ok (), session) => (.ok (), { b with session, running := true }.cycle)

def submit (b : Bridge) (command : Command) : Except Dispatch.Error Unit × Bridge :=
  b.onPlant (·.submit command)

def deliver (b : Bridge) (topic : String) (payload : List UInt8) : Nat × Bridge :=
  let (count, session) := b.session.deliver Plant.surroundings topic payload
  (count, { b with session })

def publish (b : Bridge) (message : Message) : Bool × Bridge :=
  let (accepted, session) := b.session.publish Plant.surroundings message
  (accepted, { b with session })

def interrupt (b : Bridge) (reason : String) : Bridge :=
  if b.running then { b with session := b.session.interrupt Plant.surroundings reason }
  else { b with session := { b.session with port := b.session.port.interrupt } }

def reportAll (b : Bridge) : Bool × Bridge :=
  let (accepted, session) := b.session.reportAll Plant.surroundings
  (accepted, { b with session })

def dropLink (b : Bridge) : Bridge :=
  (b.onPlant fun p => ((), { p with station := p.station.close })).2

def shutdown (b : Bridge) : Bridge :=
  let session := { b.session with rest := b.session.rest.shutdown }.disconnect Plant.surroundings
  { b with session, running := false }

end Bridge

end RelayGateway
