import RelayGateway.Command.Basic
import RelayGateway.Dialogue
import RelayGateway.Error
import RelayGateway.Shadow.Document
import RelayGateway.Shadow.Topics

namespace RelayGateway.Shadow

inductive SyncState where
  | waiting
  | verifying
  | synced
  | reported
  deriving DecidableEq, Repr

def SyncState.name : SyncState → String
  | waiting => "AwaitingDelta"
  | verifying => "Verifying"
  | synced => "Synced"
  | reported => "Reported"

abbrev Sync := List SyncState

-- What the engine asks of its surroundings.
inductive Query where
  | read (index : Nat)
  | submit (command : Command)
  | uptime
  | sleep (length : Duration)
  | publish (topic text : String)
  | say (notice : Notice)
  deriving DecidableEq, Repr

def Reply : Query → Type
  | .read _ => Except Relay.StoreError Bool
  | .submit _ => Except Dispatch.Error Unit
  | .uptime => Nat
  | .sleep _ => Unit
  | .publish _ _ => Bool
  | .say _ => Unit

abbrev Talk := Dialogue Query Reply

def read (index : Nat) : Talk (Except Relay.StoreError Bool) := .ask (.read index) .done

def submit (command : Command) : Talk (Except Dispatch.Error Unit) := .ask (.submit command) .done

def uptime : Talk Nat := .ask .uptime .done

def sleep (length : Duration) : Talk Unit := .ask (.sleep length) .done

def publish (topic text : String) : Talk Bool := .ask (.publish topic text) .done

def say (notice : Notice) : Talk Unit := .ask (.say notice) .done

def pollInterval : Duration := .ofMillis 25

inductive Verdict where
  | reached
  | late
  | unreadable (reason : Relay.StoreError)
  deriving DecidableEq, Repr

-- Relays are brought to their targets one at a time, and only states that the store has reached are
-- reported.
structure Engine where
  topics : Topics
  settings : Settings := {}

namespace Engine

def report (e : Engine) (text : String) (failure : String) : Talk Bool := do
  let accepted ← publish e.topics.update text
  if !accepted then say (.error failure)
  return accepted

def reportRelay (e : Engine) (index : Nat) (state : Bool) : Talk Bool :=
  e.report (relayReport index state) s!"Shadow: failed to report {keyOfIndex index}"

def reportAll (e : Engine) (states : List Bool) : Talk Bool :=
  e.report (boardReport states) "Shadow: failed to report relay states"

def requestShadow (e : Engine) : Talk Bool := do
  let accepted ← publish e.topics.get "\x7b\x7d"
  if !accepted then say (.error "Shadow: failed to request shadow state")
  return accepted

-- Look at a relay. If it does not show the target and the deadline has not passed, go on with
-- `again`.
def look (index : Nat) (target : Bool) (deadline : Nat) (again : Talk (Option Verdict)) :
    Talk (Option Verdict) := do
  match ← read index with
  | .error reason => return some (.unreadable reason)
  | .ok state =>
    if state = target then return some .reached
    else if deadline ≤ (← uptime) then return some .late
    else again

-- Look at a relay until it shows the target or the deadline has passed. There is no verdict if
-- that takes more than `polls` pauses.
def verify (index : Nat) (target : Bool) (deadline : Nat) :
    (polls : Nat) → Talk (Option Verdict)
  | 0 => look index target deadline (return none)
  | polls + 1 => look index target deadline do
    sleep pollInterval
    verify index target deadline polls

-- The longest wait that a verification can need, in pauses, while the clock keeps time.
def pollBudget (e : Engine) : Nat := e.settings.settle.millis / 25 + 1

def maxUptime : Nat := 2 ^ 64 - 1

-- When a verification that begins at a given uptime gives up: after twice the settle time.
def deadline (e : Engine) (start : Nat) : Nat :=
  min (start + min (2 * min e.settings.settle.millis maxUptime) maxUptime) maxUptime

abbrev Applied := Except GatewayError Unit × Sync

-- Bring one relay to its target and report it. There is no outcome if the verification would
-- take more than `polls` pauses.
def apply (e : Engine) (polls : Nat) (sync : Sync) (index : Nat) (target : Bool) :
    Talk (Option Applied) := do
  match ← submit (.setRelay index target) with
  | .error reason => return some (.error (.dispatch reason), sync.set index .waiting)
  | .ok () =>
    let deadline := e.deadline (← uptime)
    sleep e.settings.settle
    match ← verify index target deadline polls with
    | none => return none
    | some (.unreadable reason) => return some (.error (.relay reason), sync.set index .verifying)
    | some .late =>
      return some (.error (.shadow (.unverified index target)),
        sync.set index .waiting)
    | some .reached =>
      if ← e.reportRelay index target then return some (.ok (), sync.set index .reported)
      else
        return some (.error (.shadow (.publishRefused e.topics.update)), sync.set index .synced)

def sayOutcome (index : Nat) : Except GatewayError Unit → Talk Unit
  | .ok () => return ()
  | .error reason =>
    say (.warning s!"Shadow: relay {index} not reconciled: {reason.message}")

def reconcile (e : Engine) (polls : Nat) :
    (issued : Bool) → Targets → Sync → Talk (Option Sync)
  | _, [], sync => return some sync
  | issued, (index, target) :: rest, sync => do
    match ← read index with
    | .error reason =>
      say (.warning s!"Shadow: {reason.message}")
      e.reconcile polls issued rest sync
    | .ok current =>
      if current = target then e.reconcile polls issued rest (sync.set index .synced)
      else
        if issued then sleep e.settings.gap
        match ← e.apply polls sync index target with
        | none => return none
        | some (outcome, sync) =>
          sayOutcome index outcome
          e.reconcile polls true rest sync

def sayAll : List Notice → Talk Unit
  | [] => return ()
  | notice :: rest => do
    say notice
    sayAll rest

def codeText : Option Int → String
  | none => "None"
  | some code => s!"Some({code})"

def malformedNotice (what : String) : Notice :=
  let reason := Error.malformed "*"
  .error s!"Shadow: {what}: {reason.message}"

def rejectionText (r : Rejection) : String := r.message.getD "Unknown error"

def handleWithin (e : Engine) (polls : Nat) (sync : Sync) (topic : String)
    (payload : List UInt8) : Talk (Option Sync) :=
  match e.topics.classify topic with
  | none => return some sync
  | some .updateDelta =>
    match Delta.ofBytes? sync.length payload with
    | none => do
      say (malformedNotice "bad delta")
      return some sync
    | some delta => do
      sayAll delta.notices
      e.reconcile polls false delta.targets sync
  | some .getAccepted =>
    match Full.ofBytes? sync.length payload with
    | none => do
      say (malformedNotice "bad get response")
      return some sync
    | some full => do
      sayAll full.notices
      e.reconcile polls false full.desired sync
  | some .getRejected => do
    let r := Rejection.ofBytes payload
    say (.error s!"Shadow: get rejected (code {codeText r.code}): {rejectionText r}")
    return some sync
  | some .updateAccepted => return some sync
  | some .updateRejected => do
    say (.error s!"Shadow: update rejected: {rejectionText (Rejection.ofBytes payload)}")
    return some sync

-- Handle a message. While the clock keeps time, the budget is never used up.
def handle (e : Engine) (sync : Sync) (topic : String) (payload : List UInt8) :
    Talk (Option Sync) :=
  e.handleWithin e.pollBudget sync topic payload

end Engine

end RelayGateway.Shadow
