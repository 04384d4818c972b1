import RelayGateway.Duration
import RelayGateway.Shadow.Session

namespace RelayGateway.Bench

-- What the submitter does with a command that has an explicit state.
inductive Submitter where
  | apply
  | ignore
  | invertAll
  | full
  | stopped
  | later (ms : Nat)
  deriving DecidableEq, Repr

structure Change where
  due : Nat
  index : Nat
  state : Bool
  deriving DecidableEq, Repr

structure Shadowing where
  store : Relay.Store
  submitter : Submitter
  clock : Clock := {}
  -- The changes still to come, in the order of their commands.
  changes : List Change := []
  commands : List Command := []
  slept : List Duration := []
  notices : List Notice := []

namespace Shadowing

def setRelay (store : Relay.Store) (index : Nat) (state : Bool) : Relay.Store :=
  match store.set index state with
  | .ok store => store
  | .error _ => store

def setByHand (b : Shadowing) (index : Nat) (state : Bool) :
    Except Relay.StoreError Unit × Shadowing :=
  match b.store.set index state with
  | .ok store => (.ok (), { b with store })
  | .error e => (.error e, { b with notices := e.notice :: b.notices })

def advance (b : Shadowing) (ms : Nat) : Shadowing :=
  let clock := b.clock.advance ms
  let (due, later) := b.changes.partition (·.due ≤ clock.now)
  { b with
    clock
    changes := later
    store := due.foldl (fun store change => setRelay store change.index change.state) b.store }

def take (b : Shadowing) (index : Nat) (state : Bool) : Except Dispatch.Error Unit × Shadowing :=
  match b.submitter with
  | .apply => (.ok (), { b with store := setRelay b.store index state })
  | .ignore => (.ok (), b)
  | .invertAll => (.ok (), { b with store := ⟨b.store.states.map not⟩ })
  | .full => (.error .full, b)
  | .stopped => (.error .stopped, b)
  | .later ms => (.ok (), { b with changes := b.changes ++ [⟨b.clock.now + ms, index, state⟩] })

def submit (command : Command) (b : Shadowing) : Except Dispatch.Error Unit × Shadowing :=
  let b := { b with commands := command :: b.commands }
  match command with
  | .toggleRelay index (some state) => b.take index state
  | _ => (.ok (), b)

def surroundings : Shadow.Surroundings Shadowing where
  states b := b.store.states
  submit := submit
  uptime b := b.clock.now
  sleep length b := { b.advance length.millis with slept := length :: b.slept }
  say notice b := { b with notices := notice :: b.notices }

end Shadowing

end RelayGateway.Bench
