import RelayGateway.Dialogue
import RelayGateway.Basic
import RelayGateway.Duration
import RelayGateway.PubSub.Error

namespace RelayGateway.PubSub

structure ReconnectPolicy where
  base : Duration
  maxRetries : Nat
  deriving DecidableEq, Repr

namespace ReconnectPolicy

def standard : ReconnectPolicy := ⟨.ofSeconds 5, 5⟩

-- The factor of the wait after an attempt, counted from 0: a power of two, held at 32 bits.
def factor (attempt : Nat) : Nat :=
  if attempt < 32 then 2 ^ attempt else 2 ^ 32 - 1

def delay (policy : ReconnectPolicy) (attempt : Nat) : Duration :=
  policy.base.scale (factor attempt)

end ReconnectPolicy

inductive ConnectionState where
  | disconnected
  | connected
  | reconnecting (attempt : Nat)
  | failed
  deriving DecidableEq, Repr

def ConnectionState.name : ConnectionState → String
  | disconnected => "Disconnected"
  | connected => "Connected"
  | reconnecting attempt => s!"Reconnecting \x7b attempt: {attempt} \x7d"
  | failed => "Failed"

inductive Query (Handler Hook : Type) where
  | connect
  | disconnect
  | subscribe (topic : String) (handler : Handler)
  -- Shut the gate that every handler has to pass before it runs, or open it again.
  | gate (shut : Bool)
  | wait (length : Duration) (state : ConnectionState)
  | resume (hook : Hook)
  | say (notice : Notice)

def Reply {Handler Hook : Type} : Query Handler Hook → Type
  | .connect => Except Error Unit
  | .subscribe _ _ => Except Error Unit
  | .disconnect => Unit
  | .gate _ => Unit
  | .wait _ _ => Unit
  | .resume _ => Unit
  | .say _ => Unit

abbrev Talk (Handler Hook α : Type) := Dialogue (Query Handler Hook) Reply α

-- When the session drops, the client connects again with growing waits, subscribes to everything
-- anew, and runs its resume hooks.
structure Client (Handler Hook : Type) where
  policy : ReconnectPolicy
  state : ConnectionState := .disconnected
  -- The subscriptions to keep, oldest first.
  registry : List (String × Handler) := []
  hooks : List Hook := []

namespace Client

variable {Handler Hook : Type}

def say (notice : Notice) : Talk Handler Hook Unit := .ask (.say notice) .done

def subscriptions (c : Client Handler Hook) : List String := c.registry.map (·.1)

def connect (c : Client Handler Hook) :
    Talk Handler Hook (Except Shadow.Error Unit × Client Handler Hook) :=
  .ask .connect fun reply =>
    match reply with
    | .ok () => .done (.ok (), { c with state := .connected })
    | .error e => do
      say (.error s!"PubSub: connect failed: {e.message}")
      return (.error (.connectRefused e.message), { c with state := .disconnected })

def disconnect (c : Client Handler Hook) : Talk Handler Hook (Client Handler Hook) :=
  .ask .disconnect fun () => .done { c with state := .disconnected }

def subscribeLive (topic : String) (handler : Handler) :
    Talk Handler Hook (Except Shadow.Error Unit) :=
  .ask (.subscribe topic handler) fun reply =>
    match reply with
    | .ok () => .done (.ok ())
    | .error e => .done (.error (.subscribeRefused topic e.message))

-- The registry with a handler for a topic, in place of any other and in the last place.
def register (registry : List (String × Handler)) (topic : String) (handler : Handler) :
    List (String × Handler) :=
  registry.filter (·.1 != topic) ++ [(topic, handler)]

def subscribe (c : Client Handler Hook) (topic : String) (handler : Handler) :
    Talk Handler Hook (Except Shadow.Error Unit × Client Handler Hook) := do
  match ← subscribeLive topic handler with
  | .ok () => return (.ok (), { c with registry := register c.registry topic handler })
  | .error e => return (.error e, c)

def resubscribe : List (String × Handler) → Talk Handler Hook Bool
  | [] => return true
  | (topic, handler) :: rest => do
    match ← subscribeLive topic handler with
    | .ok () => resubscribe rest
    | .error e =>
      say (.error s!"PubSub: resubscribe to {topic} failed: {e.message}")
      return false

-- Subscribe to everything in the registry while no handler can run.
def resubscribeAll (c : Client Handler Hook) : Talk Handler Hook Bool :=
  .ask (.gate true) fun () => do
    let complete ← resubscribe c.registry
    .ask (.gate false) fun () => return complete

def attemptSession (c : Client Handler Hook) (attempt : Nat) : Talk Handler Hook Bool :=
  .ask .connect fun reply =>
    match reply with
    | .ok () => c.resubscribeAll
    | .error e => do
      say (.warning s!"PubSub: reconnect attempt {attempt + 1} failed: {e.message}")
      return false

def runHooks : List Hook → Talk Handler Hook Unit
  | [] => return ()
  | hook :: rest => .ask (.resume hook) fun () => runHooks rest

def recover (c : Client Handler Hook) (attempt : Nat) :
    (remaining : Nat) → Talk Handler Hook Bool
  | 0 => return false
  | remaining + 1 => do
    if ← c.attemptSession attempt then return true
    else if 0 < remaining then
      .ask (.wait (c.policy.delay attempt) (.reconnecting attempt)) fun () =>
        recover c (attempt + 1) remaining
    else return false

-- React to a dropped session; tells whether there is one again. While a recovery is under way,
-- another one is not begun.
def afterDrop (c : Client Handler Hook) (reason : String) :
    Talk Handler Hook (Bool × Client Handler Hook) := do
  match c.state with
  | .reconnecting _ => return (false, c)
  | _ =>
    say (.warning s!"PubSub: connection interrupted: {reason}")
    if ← c.recover 0 c.policy.maxRetries then
      runHooks c.hooks
      return (true, { c with state := .connected })
    else
      say (.error s!"PubSub: giving up after {c.policy.maxRetries} reconnect attempts")
      return (false, { c with state := .failed })

def addHook (c : Client Handler Hook) (hook : Hook) : Client Handler Hook :=
  { c with hooks := c.hooks ++ [hook] }

end Client

end RelayGateway.PubSub
