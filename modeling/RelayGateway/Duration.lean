import RelayGateway.Basic

namespace RelayGateway

structure Duration where
  nanos : Nat
  bounded : nanos < 2 ^ 64 * 10 ^ 9
  deriving DecidableEq, Repr

namespace Duration

-- The longest duration, one nanosecond short of 2^64 seconds.
def longest : Duration := ⟨2 ^ 64 * 10 ^ 9 - 1, by decide⟩

def ofNanos (n : Nat) : Duration :=
  ⟨min n (2 ^ 64 * 10 ^ 9 - 1), by omega⟩

def ofMillis (ms : Nat) : Duration :=
  ofNanos (ms * 10 ^ 6)

def ofSeconds (s : Nat) : Duration :=
  ofNanos (s * 10 ^ 9)

instance : Inhabited Duration := ⟨ofNanos 0⟩

def millis (d : Duration) : Nat := d.nanos / 10 ^ 6

def seconds (d : Duration) : Nat := d.nanos / 10 ^ 9

def subsecNanos (d : Duration) : Nat := d.nanos % 10 ^ 9

def isZero (d : Duration) : Bool := d.nanos == 0

-- The duration `k` times as long, or the longest one.
def scale (d : Duration) (k : Nat) : Duration :=
  ofNanos (d.nanos * k)

-- Equal neighbours in a list put together, with their number.
def runs : List Duration → List (Duration × Nat)
  | [] => []
  | d :: rest =>
    match runs rest with
    | [] => [(d, 1)]
    | (e, n) :: others => if d = e then (d, n + 1) :: others else (d, 1) :: (e, n) :: others

@[simp] theorem nanos_scale (d : Duration) (k : Nat) :
    (d.scale k).nanos = min (d.nanos * k) longest.nanos := rfl

end Duration

structure Clock where
  now : Nat := 0
  deriving DecidableEq, Repr

namespace Clock

-- The latest time, in milliseconds.
def maxTime : Nat := 2 ^ 64 - 1

def startOfDay : Nat := 1700000000000

def advance (c : Clock) (ms : Nat) : Clock := ⟨min (c.now + ms) maxTime⟩

def sleep (c : Clock) (length : Duration) : Clock := c.advance length.millis

def epoch (c : Clock) : Nat := min (startOfDay + c.now) maxTime

end Clock

end RelayGateway
