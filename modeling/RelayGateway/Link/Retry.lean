import RelayGateway.Dialogue
import RelayGateway.Duration

namespace RelayGateway

structure RetryPolicy where
  maxAttempts : Nat
  pause : Duration
  deriving DecidableEq, Repr

inductive Attempt (α : Type) where
  | done (value : α)
  | retry
  deriving Repr

namespace RetryPolicy

-- Three attempts, a tenth of a second apart.
def standard : RetryPolicy := ⟨3, .ofMillis 100⟩

inductive Query where
  | attempt (number : Nat)
  | sleep (length : Duration)
  deriving DecidableEq, Repr

def Reply (ε α : Type) : Query → Type
  | .attempt _ => Except ε (Attempt α)
  | .sleep _ => Unit

-- Attempt while `remaining` attempts are left, the next of which has the given number.
def runFrom {ε α : Type} (pause : Duration) (number : Nat) :
    (remaining : Nat) → Dialogue Query (Reply ε α) (Except ε (Option α))
  | 0 => .done (.ok none)
  | remaining + 1 => .ask (.attempt number) fun reply =>
    match reply with
    | .error e => .done (.error e)
    | .ok (.done value) => .done (.ok (some value))
    | .ok .retry =>
      if 0 < remaining ∧ pause.isZero = false then
        .ask (.sleep pause) fun _ => runFrom pause (number + 1) remaining
      else runFrom pause (number + 1) remaining

def run {ε α : Type} (policy : RetryPolicy) : Dialogue Query (Reply ε α) (Except ε (Option α)) :=
  runFrom policy.pause 0 policy.maxAttempts

end RetryPolicy

end RelayGateway
