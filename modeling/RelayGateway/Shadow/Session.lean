import RelayGateway.PubSub.Broker
import RelayGateway.Shadow.Engine
import RelayGateway.Text.Utf8

namespace RelayGateway.Shadow

open PubSub (Port Client Message)

structure Surroundings (σ : Type) where
  states : σ → List Bool
  submit : Command → σ → Except Dispatch.Error Unit × σ
  uptime : σ → Nat
  sleep : Duration → σ → σ
  say : Notice → σ → σ

namespace Surroundings

variable {σ : Type} (env : Surroundings σ)

-- The answer to a query of the engine. It publishes on topics that are none of its channels,
-- so none of its messages comes back to it.
def answer : (q : Query) → Port Unit × σ → Reply q × (Port Unit × σ)
  | .read index, (port, s) => ((Relay.Store.mk (env.states s)).get index, (port, s))
  | .submit command, (port, s) =>
    let (result, s) := env.submit command s
    (result, (port, s))
  | .uptime, (port, s) => (env.uptime s, (port, s))
  | .sleep length, (port, s) => ((), (port, env.sleep length s))
  | .publish topic text, (port, s) =>
    let (handlers, port) := port.publish ⟨topic, Text.toBytes text⟩
    (handlers.isSome, (port, s))
  | .say notice, (port, s) => ((), (port, env.say notice s))

def reactions (engine : Engine) : PubSub.Reactions Unit Unit σ where
  wait length _ s := env.sleep length s
  resume _ place := (engine.requestShadow.run env.answer place).2
  say := env.say

end Surroundings

structure Session (σ : Type) where
  engine : Engine
  client : Client Unit Unit
  port : Port Unit
  sync : Sync
  rest : σ

namespace Session

variable {σ : Type} (env : Surroundings σ)

def speak {α : Type} (s : Session σ) (talk : Talk α) : α × Session σ :=
  let (a, port, rest) := talk.run env.answer (s.port, s.rest)
  (a, { s with port, rest })

def clientSpeak {α : Type} (s : Session σ) (talk : PubSub.Talk Unit Unit α) : α × Session σ :=
  let (a, port, rest) := talk.run (env.reactions s.engine).answer (s.port, s.rest)
  (a, { s with port, rest })

def connect (s : Session σ) : Except Error Unit × Session σ :=
  let ((result, client), s) := s.clientSpeak env s.client.connect
  (result, { s with client })

def disconnect (s : Session σ) : Session σ :=
  let (client, s) := s.clientSpeak env s.client.disconnect
  { s with client }

def subscribeAll (s : Session σ) : List Channel → Except Error Unit × Session σ
  | [] => (.ok (), s)
  | channel :: rest =>
    match s.clientSpeak env (s.client.subscribe (s.engine.topics.topic channel) ()) with
    | ((.ok (), client), s) => { s with client }.subscribeAll rest
    | ((.error e, client), s) => (.error e, { s with client })

def request (s : Session σ) : Bool × Session σ := s.speak env s.engine.requestShadow

-- Connect if there is no session, subscribe to all channels and ask for the full shadow, now
-- and after each recovery.
def start (s : Session σ) : Except Error Unit × Session σ :=
  let (connected, s) := if s.client.state = .connected then (.ok (), s) else s.connect env
  match connected with
  | .error e => (.error e, s)
  | .ok () =>
    match s.subscribeAll env Channel.all with
    | (.error e, s) => (.error e, s)
    | (.ok (), s) =>
      match { s with client := s.client.addHook () }.request env with
      | (true, s) => (.ok (), s)
      | (false, s) => (.error (.publishRefused s.engine.topics.get), s)

def handle (s : Session σ) (topic : String) (payload : List UInt8) : Session σ :=
  match s.speak env (s.engine.handle s.sync topic payload) with
  | (some sync, s) => { s with sync }
  | (none, s) => s

def handleEach (s : Session σ) (handlers : List Unit) (topic : String) (payload : List UInt8) :
    Session σ :=
  handlers.foldl (fun s _ => s.handle env topic payload) s

def deliver (s : Session σ) (topic : String) (payload : List UInt8) : Nat × Session σ :=
  let (handlers, port) := s.port.deliver topic
  (handlers.length, { s with port }.handleEach env handlers topic payload)

def publish (s : Session σ) (message : Message) : Bool × Session σ :=
  let (handlers, port) := s.port.publish message
  let s := { s with port }
  match handlers with
  | some handlers => (true, s.handleEach env handlers message.topic message.payload)
  | none => (false, s)

def interrupt (s : Session σ) (reason : String) : Session σ :=
  let s := { s with port := s.port.interrupt, rest := env.say (PubSub.droppedNotice reason) s.rest }
  let ((_, client), s) := s.clientSpeak env (s.client.afterDrop reason)
  { s with client }

def reportAll (s : Session σ) : Bool × Session σ :=
  s.speak env (s.engine.reportAll (env.states s.rest))

end Session

end RelayGateway.Shadow
