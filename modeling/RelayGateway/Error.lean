import RelayGateway.Config.Basic
import RelayGateway.Dispatch.Queue
import RelayGateway.Link.Wire
import RelayGateway.Relay.Store
import RelayGateway.PubSub.Error

namespace RelayGateway

inductive GatewayError where
  | transport (reason : Link.Error)
  | relay (reason : Relay.StoreError)
  | dispatch (reason : Dispatch.Error)
  | shadow (reason : Shadow.Error)
  | config (reason : Config.Error)
  deriving DecidableEq, Repr

namespace GatewayError

def cause : GatewayError → String
  | transport reason => reason.message
  | relay reason => reason.message
  | dispatch reason => reason.message
  | shadow reason => reason.message
  | config reason => reason.message

def part : GatewayError → String
  | transport _ => "transport"
  | relay _ => "relay"
  | dispatch _ => "dispatch"
  | shadow _ => "shadow"
  | config _ => "config"

def message (e : GatewayError) : String := s!"{e.part}: {e.cause}"

end GatewayError

end RelayGateway
