namespace RelayGateway

-- Also where other powers are imported, one with a natural exponent is that of the core library, so
-- that a limit such as `2 ^ 64` is the same term wherever it is written.
@[default_instance 20000]
instance (priority := 20000) instPowNumber {M : Type} [NatPow M] : Pow M Nat := instPowNat

inductive Severity where
  | info
  | warning
  | error
  deriving DecidableEq, Repr

def Severity.name : Severity → String
  | info => "INFO"
  | warning => "WARN"
  | error => "ERROR"

structure Notice where
  severity : Severity
  text : String
  deriving DecidableEq, Repr

namespace Notice

def info (text : String) : Notice := ⟨.info, text⟩

def warning (text : String) : Notice := ⟨.warning, text⟩

def error (text : String) : Notice := ⟨.error, text⟩

end Notice

end RelayGateway
