import RelayGateway.Bench.Dispatching
import RelayGateway.Bench.Messaging
import RelayGateway.Bench.Polling
import RelayGateway.Bench.Shadowing
import RelayGateway.Bridge.Basic
import RelayGateway.Command.Request
import RelayGateway.Config.Document
import RelayGateway.Link.Endpoint
import RelayGateway.Proofs.Dispatch.Shutdown
import RelayGateway.Proofs.Floating.Finite
import RelayGateway.Proofs.Frame.Tracking
import RelayGateway.Proofs.Frame.Bounds
import RelayGateway.Proofs.Frame.Cut
import RelayGateway.Proofs.Link.Coherence
import RelayGateway.Proofs.Shadow.Agreement
import RelayGateway.Proofs.Shadow.Convergence
import RelayGateway.Proofs.PubSub.Backoff
import RelayGateway.Proofs.PubSub.Recovery
import RelayGateway.Proofs.PubSub.Liveness
import RelayGateway.Proofs.PubSub.Gate
import RelayGateway.Proofs.PubSub.Handlers
import RelayGateway.Proofs.Json.Numerals
import RelayGateway.Proofs.Json.Numbers
import RelayGateway.Proofs.Json.Tokens
import RelayGateway.Proofs.Json.ReadBack
import RelayGateway.Proofs.Shadow.Reports
import RelayGateway.Proofs.Shadow.Resync
import RelayGateway.Proofs.Link.Provenance
import RelayGateway.Proofs.Dispatch.Delivery
import RelayGateway.Proofs.Frame.Noise
import RelayGateway.Proofs.Telemetry.Packed
import RelayGateway.Proofs.Telemetry.Polling
import RelayGateway.Proofs.Telemetry.Pacing
import RelayGateway.Proofs.Telemetry.Documents
import RelayGateway.Proofs.Config.Partial
import RelayGateway.Proofs.Command.Requests
import RelayGateway.Proofs.Shadow.Entries
import RelayGateway.Proofs.Shadow.Documents
import RelayGateway.Proofs.Shadow.Verification
import RelayGateway.Proofs.Shadow.SyncStates
import RelayGateway.Proofs.Relay.History
import RelayGateway.Proofs.Link.Retrying
import RelayGateway.Proofs.Frame.Resync
import RelayGateway.Proofs.Telemetry.Layouts
