import RelayGateway.PubSub.Client

namespace RelayGateway.PubSub

structure Message where
  topic : String
  payload : List UInt8
  deriving DecidableEq, Repr

inductive Operation where
  | connect (accepted : Bool)
  | subscribe (topic : String)
  | publish (topic : String)
  | deliver (topic : String)
  | interrupt
  deriving DecidableEq, Repr

structure Broker (Handler : Type) where
  connected : Bool := false
  refusals : Nat := 0
  -- The live subscriptions, oldest first.
  subscriptions : List (String × Handler) := []
  published : List Message := []
  -- What has happened, last first.
  operations : List Operation := []

namespace Broker

variable {Handler : Type}

def record (b : Broker Handler) (op : Operation) : Broker Handler :=
  { b with operations := op :: b.operations }

def topics (b : Broker Handler) : List String := b.subscriptions.map (·.1)

def connect (b : Broker Handler) : Except Error Unit × Broker Handler :=
  if 0 < b.refusals then
    (.error (.connectRefused "loopback refused"),
      { b with refusals := b.refusals - 1 }.record (.connect false))
  else (.ok (), { b with connected := true }.record (.connect true))

-- End the session. All subscriptions go with it.
def disconnect (b : Broker Handler) : Broker Handler :=
  { b with connected := false, subscriptions := [] }

-- Subscribe a handler in place of any other on the topic.
def subscribe (b : Broker Handler) (topic : String) (handler : Handler) :
    Except Error Unit × Broker Handler :=
  if b.connected then
    let others := b.subscriptions.filter (·.1 != topic)
    (.ok (), { b with subscriptions := others ++ [(topic, handler)] }.record (.subscribe topic))
  else (.error .noSession, b)

def deliver (b : Broker Handler) (topic : String) : List Handler × Broker Handler :=
  if b.connected then
    let handlers := (b.subscriptions.filter (·.1 == topic)).map (·.2)
    (handlers, if handlers.isEmpty then b else b.record (.deliver topic))
  else ([], b)

-- Accept a message and give its handlers; there is no session to accept it otherwise.
def publish (b : Broker Handler) (message : Message) : Option (List Handler) × Broker Handler :=
  if b.connected then
    let b := { b with published := message :: b.published }.record (.publish message.topic)
    let (handlers, b) := b.deliver message.topic
    (some handlers, b)
  else (none, b)

def interrupt (b : Broker Handler) : Broker Handler := b.disconnect.record .interrupt

def clear (b : Broker Handler) : Broker Handler := { b with published := [] }

def payloadsOn (b : Broker Handler) (topic : String) : List (List UInt8) :=
  ((b.published.filter (·.topic == topic)).map (·.payload)).reverse

end Broker

structure Port (Handler : Type) where
  broker : Broker Handler := {}
  refusePublish : List String := []
  refuseSubscribe : List String := []

namespace Port

variable {Handler : Type}

def connect (p : Port Handler) : Except Error Unit × Port Handler :=
  let (result, broker) := p.broker.connect
  (result, { p with broker })

def disconnect (p : Port Handler) : Port Handler := { p with broker := p.broker.disconnect }

def subscribe (p : Port Handler) (topic : String) (handler : Handler) :
    Except Error Unit × Port Handler :=
  if p.refuseSubscribe.contains topic then (.error (.subscribeRefused "refused"), p)
  else
    let (result, broker) := p.broker.subscribe topic handler
    (result, { p with broker })

def publish (p : Port Handler) (message : Message) : Option (List Handler) × Port Handler :=
  if p.refusePublish.contains message.topic then (none, p)
  else
    let (result, broker) := p.broker.publish message
    (result, { p with broker })

def deliver (p : Port Handler) (topic : String) : List Handler × Port Handler :=
  let (handlers, broker) := p.broker.deliver topic
  (handlers, { p with broker })

def clear (p : Port Handler) : Port Handler := { p with broker := p.broker.clear }

def quiet (p : Port Handler) : Port Handler :=
  { p with broker := { p.broker with operations := [] } }

def interrupt (p : Port Handler) : Port Handler := { p with broker := p.broker.interrupt }

end Port

structure Reactions (Handler Hook σ : Type) where
  wait : Duration → ConnectionState → σ → σ
  resume : Hook → Port Handler × σ → Port Handler × σ
  say : Notice → σ → σ

def Reactions.answer {Handler Hook σ : Type} (r : Reactions Handler Hook σ) :
    (q : Query Handler Hook) → Port Handler × σ → Reply q × (Port Handler × σ)
  | .connect, (port, s) =>
    let (result, port) := port.connect
    (result, (port, s))
  | .disconnect, (port, s) => ((), (port.disconnect, s))
  | .subscribe topic handler, (port, s) =>
    let (result, port) := port.subscribe topic handler
    (result, (port, s))
  -- no message arrives between two queries of the client, so the gate holds nothing up
  | .gate _, place => ((), place)
  | .wait length state, (port, s) => ((), (port, r.wait length state s))
  | .resume hook, place => ((), r.resume hook place)
  | .say notice, (port, s) => ((), (port, r.say notice s))

def droppedNotice (reason : String) : Notice :=
  .warning s!"PubSub: loopback session dropped ({reason})"

end RelayGateway.PubSub
