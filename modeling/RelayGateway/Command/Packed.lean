import RelayGateway.Command.Basic
import RelayGateway.Packed.Varint

namespace RelayGateway.DeviceCommand

open Packed

def toBytes : DeviceCommand → List UInt8
  | toggleRelay relay => writeVarint 0 ++ writeVarint relay.toNat
  | calibrateProbe sensor value =>
    writeVarint 1 ++ writeVarint sensor.toNat ++ writeBits value.bits

def read : Reader DeviceCommand := do
  match ← readWord with
  | 0 =>
    let relay ← readWord
    return toggleRelay relay.toUInt32
  | 1 =>
    let sensor ← readWord
    let bits ← readBits
    return calibrateProbe sensor.toUInt32 ⟨bits⟩
  | _ => throw .unknownVariant

-- The command at the front of the bytes; bytes after it are ignored.
def ofBytes (bytes : List UInt8) : Except ReadError DeviceCommand :=
  (read bytes).map (·.1)

end RelayGateway.DeviceCommand
