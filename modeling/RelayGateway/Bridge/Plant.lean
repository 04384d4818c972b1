import RelayGateway.Duration
import RelayGateway.Dispatch.Dispatcher
import RelayGateway.Link.Transport
import RelayGateway.Shadow.Session
import RelayGateway.Telemetry.Poller

namespace RelayGateway.Bridge

open Dispatch (Dispatcher Board)
open Link (Station)
open Telemetry (Reading Received)

inductive Sleeper where
  | main
  | poll
  deriving DecidableEq, Repr

-- Everything of a gateway but its connection to the broker. Commands are carried out as soon as
-- they are taken, and every sleep moves the clock on.
structure Plant where
  station : Station
  dispatcher : Dispatcher
  clock : Clock := {}
  -- Who slept for how long, last first.
  slept : List (Sleeper × Duration) := []
  events : List Event := []
  notices : List Notice := []

namespace Plant

def states (p : Plant) : List Bool := p.dispatcher.board.store.states

def say (notice : Notice) (p : Plant) : Plant := { p with notices := notice :: p.notices }

def emit (event : Event) (p : Plant) : Plant := { p with events := event :: p.events }

def sleep (sleeper : Sleeper) (length : Duration) (p : Plant) : Plant :=
  { p with
    clock := p.clock.sleep length
    slept := (sleeper, length) :: p.slept }

def collect (sleeper : Sleeper) (p : Plant) : Plant :=
  let told := { p with
    notices := p.station.notices ++ p.notices
    station := { p.station with sleeps := [], notices := [] } }
  p.station.sleeps.foldr (fun length p => p.sleep sleeper length) told

def submit (command : Command) (p : Plant) : Except Dispatch.Error Unit × Plant :=
  let (result, dispatcher) := p.dispatcher.submit command
  let (events, dispatcher, station) :=
    dispatcher.drain (fun payload station => station.writeFrame payload) p.station
  (result, ({ p with dispatcher, station, events := events.reverse ++ p.events }).collect .main)

def receive (p : Plant) : Received × Plant :=
  let (received, station) := Telemetry.receive p.station
  (received, { p with station }.collect .poll)

def keep (reading : Reading) (now : Nat) (p : Plant) : Plant :=
  let board := p.dispatcher.board
  { p with dispatcher := { p.dispatcher with
      board := { board with snapshot := board.snapshot.update reading now } } }

def shutdown (p : Plant) : Plant :=
  let (events, dispatcher, station) :=
    p.dispatcher.shutdown (fun payload station => station.writeFrame payload) p.station
  { p with dispatcher, station := station.close, events := events.reverse ++ p.events }

def surroundings : Shadow.Surroundings Plant where
  states := states
  submit := submit
  uptime p := p.clock.now
  sleep := sleep .main
  say := say

end Plant

end RelayGateway.Bridge
