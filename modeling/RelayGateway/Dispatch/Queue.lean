import RelayGateway.Command.Basic

namespace RelayGateway.Dispatch

inductive Error where
  | full
  | stopped
  deriving DecidableEq, Repr

def Error.message : Error → String
  | full => "command queue full"
  | stopped => "dispatcher stopped"

inductive Job where
  | run (command : Command)
  | stop
  deriving DecidableEq, Repr

def queueCapacity : Nat := 64

structure Queue where
  -- The jobs that wait, oldest first.
  jobs : List Job := []
  closed : Bool := false
  deriving DecidableEq, Repr

namespace Queue

def offer? (q : Queue) (job : Job) : Option Queue :=
  if q.jobs.length < queueCapacity then some { q with jobs := q.jobs ++ [job] } else none

def submit (q : Queue) (command : Command) : Except Error Unit × Queue :=
  if q.closed then (.error .stopped, q)
  else
    match q.offer? (.run command) with
    | some q => (.ok (), q)
    | none => (.error .full, q)

def close (q : Queue) : Queue := { q with closed := true }

-- Have the worker stop after the jobs that wait, once there is room to say so.
def requestStop? (q : Queue) : Option Queue := q.offer? .stop

def receive? (q : Queue) : Option (Job × Queue) :=
  match q.jobs with
  | [] => none
  | job :: rest => some (job, { q with jobs := rest })

def pending (q : Queue) : Nat := q.jobs.length

end Queue

end RelayGateway.Dispatch
