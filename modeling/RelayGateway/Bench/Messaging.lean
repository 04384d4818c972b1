import RelayGateway.PubSub.Broker
import RelayGateway.Text.Utf8

namespace RelayGateway.Bench

open PubSub (Port Client ConnectionState Message Reactions)

structure Handler where
  tag : String
  forward : Option String := none
  deriving DecidableEq, Repr

structure Hook where
  tag : String
  publish : Option String := none
  deriving DecidableEq, Repr

inductive Note where
  | handled (tag topic : String) (payload : List UInt8)
  | forwarded (topic : String) (accepted : Bool)
  | interrupted (tag reason : String)
  | resumed (tag : String) (state : ConnectionState)
  deriving DecidableEq, Repr

-- A wait, the state that the client showed, and what an interruption during it came to.
structure Wait where
  length : Duration
  state : ConnectionState
  nested : Option Bool
  deriving DecidableEq, Repr

structure Notes where
  notes : List Note := []
  waits : List Wait := []
  notices : List Notice := []
  -- The reason of an interruption that comes during every wait.
  nestedReason : Option String := none

namespace Notes

def add (n : Notes) (note : Note) : Notes := { n with notes := note :: n.notes }

def say (notice : Notice) (n : Notes) : Notes := { n with notices := notice :: n.notices }

end Notes

abbrev Place := Port Handler × Notes

def runHandlers (forward : Message → Place → Bool × Place) (message : Message) :
    List Handler → Place → Place
  | [], place => place
  | handler :: rest, (port, notes) =>
    let place := (port, notes.add (.handled handler.tag message.topic message.payload))
    match handler.forward with
    | none => runHandlers forward message rest place
    | some topic =>
      let (accepted, port, notes) := forward { message with topic } place
      runHandlers forward message rest (port, notes.add (.forwarded topic accepted))

def publishWith (forward : Message → Place → Bool × Place) (message : Message) (place : Place) :
    Bool × Place :=
  match place.1.publish message with
  | (none, port) => (false, (port, place.2))
  | (some handlers, port) => (true, runHandlers forward message handlers (port, place.2))

def publishTimes : (forwards : Nat) → Message → Place → Bool × Place
  | 0 => publishWith fun _ place => (false, place)
  | forwards + 1 => publishWith (publishTimes forwards)

-- How often a message can be forwarded without coming to a topic twice.
def forwards (place : Place) : Nat := place.1.broker.subscriptions.length

def publish (message : Message) (place : Place) : Bool × Place :=
  publishTimes (forwards place) message place

def deliver (message : Message) (place : Place) : Nat × Place :=
  let (handlers, port) := place.1.deliver message.topic
  (handlers.length,
    runHandlers (publishTimes (forwards place)) message handlers (port, place.2))

def quiet (place : Place) : Place :=
  (place.1.quiet, { place.2 with notes := [], waits := [], notices := [] })

structure Listening where
  listener : Option String := none
  place : Place := ({}, {})

namespace Listening

def atPlace {α : Type} (b : Listening) (act : Place → α × Place) : α × Listening :=
  let (a, place) := act b.place
  (a, { b with place })

def atPort {α : Type} (b : Listening) (act : Port Handler → α × Port Handler) : α × Listening :=
  b.atPlace fun (port, notes) =>
    let (a, port) := act port
    (a, (port, notes))

def interrupt (b : Listening) (reason : String) : Listening :=
  let (port, notes) := b.place
  let notes := notes.say (PubSub.droppedNotice reason)
  let notes :=
    match b.listener with
    | some tag => notes.add (.interrupted tag reason)
    | none => notes
  { b with place := (port.interrupt, notes) }

end Listening

structure Messaging where
  client : Client Handler Hook
  place : Place := ({}, {})

namespace Messaging

-- What surrounds a client on the bench. An interruption that comes during a wait is one of a
-- client that is recovering already.
def reactions (client : Client Handler Hook) : Reactions Handler Hook Notes where
  wait length state n :=
    let during : Client Handler Hook := { client with state }
    let nothing : Reactions Handler Hook Unit :=
      { wait := fun _ _ s => s, resume := fun _ place => place, say := fun _ s => s }
    let nested := n.nestedReason.map fun reason =>
      ((during.afterDrop reason).run nothing.answer ({}, ())).1.1
    { n with waits := ⟨length, state, nested⟩ :: n.waits }
  resume hook place :=
    let place : Place := (place.1, place.2.add (.resumed hook.tag .connected))
    match hook.publish with
    | none => place
    | some topic => (publish ⟨topic, Text.toBytes "hook"⟩ place).2
  say := Notes.say

def speak {α : Type} (b : Messaging) (talk : PubSub.Talk Handler Hook (α × Client Handler Hook)) :
    α × Messaging :=
  let ((a, client), place) := talk.run (reactions b.client).answer b.place
  (a, { client, place })

def connect (b : Messaging) : Except Shadow.Error Unit × Messaging := b.speak b.client.connect

def disconnect (b : Messaging) : Messaging :=
  (b.speak do
    let client ← b.client.disconnect
    return ((), client)).2

def subscribe (b : Messaging) (topic : String) (handler : Handler) :
    Except Shadow.Error Unit × Messaging :=
  b.speak (b.client.subscribe topic handler)

def afterDrop (b : Messaging) (reason : String) : Bool × Messaging :=
  b.speak (b.client.afterDrop reason)

def interrupt (b : Messaging) (reason : String) : Messaging :=
  let (port, notes) := b.place
  let place := (port.interrupt, notes.say (PubSub.droppedNotice reason))
  ({ b with place }.afterDrop reason).2

def atPlace {α : Type} (b : Messaging) (act : Place → α × Place) : α × Messaging :=
  let (a, place) := act b.place
  (a, { b with place })

end Messaging

end RelayGateway.Bench
