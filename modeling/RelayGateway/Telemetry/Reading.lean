import RelayGateway.Packed.Varint
import RelayGateway.Floating.Binary
import RelayGateway.Basic

namespace RelayGateway.Telemetry

structure Reading where
  temperature : Binary32
  humidity : Binary32
  lightLevel : Binary32
  phLevels : List Binary32
  relayStates : List Bool
  deriving DecidableEq, Repr

namespace Reading

open Packed

def writeNumber (x : Binary32) : List UInt8 := writeBits x.bits

def readNumber : Reader Binary32 := do
  let bits ← readBits
  return ⟨bits⟩

def toBytes (r : Reading) : List UInt8 :=
  writeNumber r.temperature ++ writeNumber r.humidity ++ writeNumber r.lightLevel ++
    writeList writeNumber r.phLevels ++ writeList writeBool r.relayStates

def read : Reader Reading := do
  let temperature ← readNumber
  let humidity ← readNumber
  let lightLevel ← readNumber
  let phLevels ← readList readNumber
  let relayStates ← readList readBool
  return { temperature, humidity, lightLevel, phLevels, relayStates }

-- The reading at the front of the bytes; bytes after it are ignored.
def ofBytes (bytes : List UInt8) : Except ReadError Reading :=
  (read bytes).map (·.1)

-- The notice about a payload that holds no reading, up to the words of the reason.
def undecodedNotice : Notice := .warning "Serial: sensor payload decode failed: *"

end Reading

end RelayGateway.Telemetry
