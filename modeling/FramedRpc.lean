import FramedRpc.Client
import FramedRpc.Client.Caller
import FramedRpc.Client.Config
import FramedRpc.Client.Connection
import FramedRpc.Client.PendingCalls
import FramedRpc.Client.Pool
import FramedRpc.CommandLine.Command
import FramedRpc.CommandLine.Grammar
import FramedRpc.CommandLine.Layout
import FramedRpc.CommandLine.Program
import FramedRpc.Demo.Greeting
import FramedRpc.Demo.Kitchen
import FramedRpc.Demo.Names
import FramedRpc.Discovery.Balancer
import FramedRpc.Discovery.Directory
import FramedRpc.Discovery.Random
import FramedRpc.Discovery.Registry
import FramedRpc.Endpoint
import FramedRpc.Endpoint.Socket
import FramedRpc.Fault
import FramedRpc.Fault.Description
import FramedRpc.Frame
import FramedRpc.Frame.Stream
import FramedRpc.Liveness
import FramedRpc.Main
import FramedRpc.Message
import FramedRpc.Network.Isolated
import FramedRpc.Network.Lookup
import FramedRpc.Proofs.Client.Attempts
import FramedRpc.Proofs.Client.Correlation
import FramedRpc.Proofs.Client.Delivery
import FramedRpc.Proofs.Client.Effects
import FramedRpc.Proofs.Client.Entries
import FramedRpc.Proofs.Client.Guards
import FramedRpc.Proofs.Client.Holding
import FramedRpc.Proofs.Client.Losses
import FramedRpc.Proofs.Client.Numbers
import FramedRpc.Proofs.Client.Operations
import FramedRpc.Proofs.Client.Order
import FramedRpc.Proofs.Client.Pacing
import FramedRpc.Proofs.Client.PendingCalls
import FramedRpc.Proofs.Client.Pool
import FramedRpc.Proofs.Client.PoolSteps
import FramedRpc.Proofs.Client.Registrations
import FramedRpc.Proofs.Client.Sharing
import FramedRpc.Proofs.Client.Slots
import FramedRpc.Proofs.Client.Sweeps
import FramedRpc.Proofs.Client.Teardown
import FramedRpc.Proofs.Client.Tickets
import FramedRpc.Proofs.Client.Turns
import FramedRpc.Proofs.Discovery.Callers
import FramedRpc.Proofs.Discovery.History
import FramedRpc.Proofs.Discovery.Lookups
import FramedRpc.Proofs.Discovery.Registry
import FramedRpc.Proofs.Discovery.Rotation
import FramedRpc.Proofs.Discovery.Selections
import FramedRpc.Proofs.Endpoints
import FramedRpc.Proofs.Frame.Acceptance
import FramedRpc.Proofs.Frame.Decisions
import FramedRpc.Proofs.Frame.Fragmentation
import FramedRpc.Proofs.Frame.RoundTrip
import FramedRpc.Proofs.Frame.Step
import FramedRpc.Proofs.Heartbeats
import FramedRpc.Proofs.Lists
import FramedRpc.Proofs.Liveness
import FramedRpc.Proofs.Responses
import FramedRpc.Proofs.SerializerRoundTrip
import FramedRpc.Proofs.Server.Accounts
import FramedRpc.Proofs.Server.Answers
import FramedRpc.Proofs.Server.Attending
import FramedRpc.Proofs.Server.Capacity
import FramedRpc.Proofs.Server.Dispatch
import FramedRpc.Proofs.Server.Endings
import FramedRpc.Proofs.Server.Handovers
import FramedRpc.Proofs.Server.OneWorker
import FramedRpc.Proofs.Server.Overloads
import FramedRpc.Proofs.Server.Sessions
import FramedRpc.Proofs.Server.Shutdown
import FramedRpc.Proofs.Server.Silence
import FramedRpc.Proofs.Server.Startup
import FramedRpc.Proofs.Server.Steps
import FramedRpc.Proofs.Server.Tasks
import FramedRpc.Proofs.Server.Workers
import FramedRpc.Proofs.Service.Arguments
import FramedRpc.Proofs.Service.RemoteCall
import FramedRpc.Proofs.Text.Numerals
import FramedRpc.Proofs.Text.Utf8RoundTrip
import FramedRpc.Proofs.Wire.BincodeRoundTrip
import FramedRpc.Proofs.Wire.Json.Lexemes
import FramedRpc.Proofs.Wire.Json.Parts
import FramedRpc.Proofs.Wire.Json.Passing
import FramedRpc.Proofs.Wire.Json.RoundTrip
import FramedRpc.Proofs.Wire.PostcardRoundTrip
import FramedRpc.Proofs.Wire.Reading
import FramedRpc.Proofs.Wire.Values
import FramedRpc.RequestId
import FramedRpc.Serializer
import FramedRpc.Server.Catalogue
import FramedRpc.Server.Config
import FramedRpc.Server.Dispatcher
import FramedRpc.Server.Lifecycle
import FramedRpc.Server.Serving
import FramedRpc.Server.Session
import FramedRpc.Server.WorkerPool
import FramedRpc.Service.Declared
import FramedRpc.Service.Handler
import FramedRpc.Status
import FramedRpc.Text.Double
import FramedRpc.Text.Hex
import FramedRpc.Text.Numeral
import FramedRpc.Text.Quoted
import FramedRpc.Text.Unprintable
import FramedRpc.Text.Utf8
import FramedRpc.Wire.Bincode
import FramedRpc.Wire.Json.Cursor
import FramedRpc.Wire.Json.Decoder
import FramedRpc.Wire.Json.Document
import FramedRpc.Wire.Json.Encoder
import FramedRpc.Wire.Json.Flaw
import FramedRpc.Wire.Json.Lexeme
import FramedRpc.Wire.Json.Structure
import FramedRpc.Wire.Postcard
import FramedRpc.Wire.Reader
import FramedRpc.Wire.Shape
import FramedRpc.Proofs.CommandLine.Options
import FramedRpc.Proofs.Server.Ranges
