import RelayGateway.Frame.Reader
import RelayGateway.Duration
import RelayGateway.Text.Hex

namespace RelayGateway.Link

structure Settings where
  port : String
  baudRate : UInt32
  timeout : Duration
  deriving DecidableEq, Repr

inductive Error where
  -- The configured endpoint is not among those that exist.
  | noSuchPort (port : String) (available : List String)
  | cannotOpen (port reason : String)
  | closed
  | io (reason : String)
  -- The stream took only part of a frame.
  | shortWrite (expected written : Nat)
  | encode (reason : Frame.EncodeError)
  deriving DecidableEq, Repr

def Error.message : Error → String
  | noSuchPort port available =>
    let others :=
      if available.isEmpty then "" else ". Available ports: " ++ ", ".intercalate available
    s!"port '{port}' not found" ++ others
  | cannotOpen port reason => s!"failed to open '{port}': {reason}"
  | closed => "connection is not open"
  | io reason => s!"I/O error: {reason}"
  | shortWrite expected written => s!"only {written}/{expected} bytes written"
  | encode reason => s!"encode: {reason.message}"

inductive Call where
  | openStream (settings : Settings)
  | clear
  | flush
  | write (accepted : List UInt8)
  | writeFailed
  deriving DecidableEq, Repr

def Call.text : Call → String
  | openStream s => s!"open {s.port} {s.baudRate} {s.timeout.millis}"
  | clear => "clear"
  | flush => "flush"
  | write accepted => s!"write {Text.toHex accepted}"
  | writeFailed => "write failed"

structure Wire where
  ports : List String
  listFailure : Option String := none
  openFailure : Option String := none
  writeLimit : Option Nat := none
  writeFailure : Option String := none
  -- Why each coming flush fails, if it does; further ones succeed.
  flushPlan : List (Option String) := []
  clearPlan : List (Option String) := []
  -- Whether clearing drops the reads to come.
  clearDrops : Bool := false
  -- The results of the reads to come; further ones give nothing.
  unread : List ReadResult := []
  -- The calls made, last one first.
  calls : List Call := []

namespace Wire

def record (w : Wire) (call : Call) : Wire := { w with calls := call :: w.calls }

def listPorts (w : Wire) : Except String (List String) :=
  match w.listFailure with
  | some reason => .error reason
  | none => .ok w.ports

def openStream (w : Wire) (settings : Settings) : Except String Unit × Wire :=
  let w := w.record (.openStream settings)
  match w.openFailure with
  | some reason => (.error reason, w)
  | none => (.ok (), w)

def planned : List (Option String) → Except String Unit
  | some reason :: _ => .error reason
  | _ => .ok ()

def flush (w : Wire) : Except String Unit × Wire :=
  (planned w.flushPlan, { w.record .flush with flushPlan := w.flushPlan.drop 1 })

def clear (w : Wire) : Except String Unit × Wire :=
  let cleared := { w.record .clear with clearPlan := w.clearPlan.drop 1 }
  match planned w.clearPlan with
  | .error reason => (.error reason, cleared)
  | .ok () => (.ok (), if w.clearDrops then { cleared with unread := [] } else cleared)

def write (w : Wire) (bytes : List UInt8) : Except String Nat × Wire :=
  match w.writeFailure with
  | some reason => (.error reason, w.record .writeFailed)
  | none =>
    let accepted :=
      match w.writeLimit with
      | some limit => bytes.take limit
      | none => bytes
    (.ok accepted.length, w.record (.write accepted))

end Wire

end RelayGateway.Link
