import RelayGateway.Dispatch.Dispatcher

namespace RelayGateway.Dispatch

-- A submit that holds the lock of the gate, and whether it found the gate closed.
structure Entry where
  producer : Nat
  command : Command
  barred : Bool
  deriving DecidableEq, Repr

structure Answer where
  producer : Nat
  command : Command
  result : Except Error Unit

-- How far the shutdown has come: not asked for, the gate closed, the stop sent, returned.
inductive Stage where
  | running
  | closing
  | stopping
  | ended
  deriving DecidableEq, Repr

structure Traffic where
  dispatcher : Dispatcher
  entry : Option Entry := none
  stage : Stage := .running
  answers : List Answer := []
  received : List Command := []
  -- The commands that the worker is done with, each with what it told of it.
  executed : List (Command × List Event) := []

inductive Action where
  | enter (producer : Nat) (command : Command)
  | answer
  | receive
  | complete (written : Except Link.Error Unit)
  | close
  | sendStop
  | join

def Entry.send (entry : Entry) (q : Queue) : Except Error Unit × Queue :=
  if entry.barred then (.error .stopped, q)
  else
    match q.offer? (.run entry.command) with
    | some q => (.ok (), q)
    | none => (.error .full, q)

def Answer.accepted? (answer : Answer) : Option Command :=
  match answer.result with
  | .ok () => some answer.command
  | .error _ => none

def Job.command? : Job → Option Command
  | .run command => some command
  | .stop => none

namespace Traffic

def accepted (t : Traffic) : List Command := t.answers.filterMap Answer.accepted?

def waiting (t : Traffic) : List Command := t.dispatcher.queue.jobs.filterMap Job.command?

def start (board : Board) : Traffic := { dispatcher := { board } }

def enter (t : Traffic) (producer : Nat) (command : Command) : Traffic :=
  match t.entry with
  | some _ => t
  | none => { t with entry := some ⟨producer, command, t.dispatcher.queue.closed⟩ }

def answer (t : Traffic) : Traffic :=
  match t.entry with
  | none => t
  | some entry =>
    { t with
      dispatcher := { t.dispatcher with queue := (entry.send t.dispatcher.queue).2 }
      entry := none
      answers := t.answers ++
        [⟨entry.producer, entry.command, (entry.send t.dispatcher.queue).1⟩] }

-- The worker takes a job if it has none. A command that the store refuses is done with at once.
def receive (t : Traffic) : Traffic :=
  if t.dispatcher.stopped ∨ t.dispatcher.writing.isSome then t
  else
    let (events, dispatcher) := t.dispatcher.receive
    match t.dispatcher.queue.jobs with
    | .run command :: _ =>
      { t with
        dispatcher
        received := t.received ++ [command]
        executed :=
          if dispatcher.writing.isSome then t.executed else t.executed ++ [(command, events)] }
    | _ => { t with dispatcher }

def complete (t : Traffic) (written : Except Link.Error Unit) : Traffic :=
  match t.dispatcher.writing with
  | none => t
  | some command =>
    let (events, dispatcher) := t.dispatcher.complete written
    { t with dispatcher, executed := t.executed ++ [(command, events)] }

def close (t : Traffic) : Traffic :=
  if t.stage = .running ∧ t.entry = none then
    { t with
      dispatcher := { t.dispatcher with queue := t.dispatcher.queue.close }
      stage := .closing }
  else t

def sendStop (t : Traffic) : Traffic :=
  match t.stage, t.dispatcher.queue.requestStop? with
  | .closing, some queue => { t with dispatcher := { t.dispatcher with queue }, stage := .stopping }
  | _, _ => t

def join (t : Traffic) : Traffic :=
  if t.stage = .stopping ∧ t.dispatcher.stopped then { t with stage := .ended } else t

def act (t : Traffic) : Action → Traffic
  | .enter producer command => t.enter producer command
  | .answer => t.answer
  | .receive => t.receive
  | .complete written => t.complete written
  | .close => t.close
  | .sendStop => t.sendStop
  | .join => t.join

def run (t : Traffic) (actions : List Action) : Traffic := actions.foldl act t

end Traffic

end RelayGateway.Dispatch
