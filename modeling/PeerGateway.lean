import PeerGateway.Address.Ip
import PeerGateway.Address.Socket
import PeerGateway.Binary64.Arithmetic
import PeerGateway.Binary64.Basic
import PeerGateway.Binary64.Decimal
import PeerGateway.Control.Answer
import PeerGateway.Control.Command
import PeerGateway.Control.Tables
import PeerGateway.Directory.Basic
import PeerGateway.Directory.Join
import PeerGateway.Directory.Sweep
import PeerGateway.Domain.Basic
import PeerGateway.Domain.Character
import PeerGateway.Domain.Label
import PeerGateway.Domain.Punycode
import PeerGateway.Files
import PeerGateway.Frame
import PeerGateway.Gateway.Basic
import PeerGateway.Gateway.Daemon
import PeerGateway.Gateway.Fleet
import PeerGateway.Gateway.Interface
import PeerGateway.Gateway.Relay
import PeerGateway.Gateway.Service
import PeerGateway.Gateway.Tracking
import PeerGateway.Http.Basic
import PeerGateway.Http.Url
import PeerGateway.Http.Wire
import PeerGateway.Identity
import PeerGateway.Json.Container
import PeerGateway.Json.Lexeme
import PeerGateway.Json.Value
import PeerGateway.Load.Host
import PeerGateway.Load.Record
import PeerGateway.Load.Score
import PeerGateway.Main
import PeerGateway.Mesh
import PeerGateway.Message.Basic
import PeerGateway.Message.Codec
import PeerGateway.Node.Activity
import PeerGateway.Node.Basic
import PeerGateway.Node.Errand
import PeerGateway.Node.Inbound
import PeerGateway.Node.Responder
import PeerGateway.Node.Round
import PeerGateway.Node.Walk
import PeerGateway.Overlay
import PeerGateway.Proofs.Address.Pinning
import PeerGateway.Proofs.Address.Text
import PeerGateway.Proofs.Binary64.Powers
import PeerGateway.Proofs.Binary64.Rounding
import PeerGateway.Proofs.Binary64.Shortest
import PeerGateway.Proofs.Control.Drop
import PeerGateway.Proofs.Directory.Consistent
import PeerGateway.Proofs.Directory.Heard
import PeerGateway.Proofs.Directory.Joins
import PeerGateway.Proofs.Directory.Link
import PeerGateway.Proofs.Directory.Lookup
import PeerGateway.Proofs.Directory.Silence
import PeerGateway.Proofs.Directory.States
import PeerGateway.Proofs.Frame.Ending
import PeerGateway.Proofs.Frame.Stream
import PeerGateway.Proofs.Gateway.Answers
import PeerGateway.Proofs.Gateway.Course
import PeerGateway.Proofs.Gateway.Executions
import PeerGateway.Proofs.Gateway.Forwards
import PeerGateway.Proofs.Gateway.Relaying
import PeerGateway.Proofs.Gateway.Selection
import PeerGateway.Proofs.Gateway.Targets
import PeerGateway.Proofs.Gateway.Tracking
import PeerGateway.Proofs.Http.Url
import PeerGateway.Proofs.Json.Containers
import PeerGateway.Proofs.Json.Finite
import PeerGateway.Proofs.Json.Grammar
import PeerGateway.Proofs.Json.Numerals
import PeerGateway.Proofs.Json.Reals
import PeerGateway.Proofs.Json.Skipping
import PeerGateway.Proofs.Json.Spaced
import PeerGateway.Proofs.Json.Strings
import PeerGateway.Proofs.Lists
import PeerGateway.Proofs.Load.Bounds
import PeerGateway.Proofs.Load.Exact
import PeerGateway.Proofs.Load.Lifecycle
import PeerGateway.Proofs.Load.PeerTables
import PeerGateway.Proofs.Load.Requests
import PeerGateway.Proofs.Load.Snapshots
import PeerGateway.Proofs.Mesh.Delivery
import PeerGateway.Proofs.Mesh.HonestWalk
import PeerGateway.Proofs.Mesh.TookIn
import PeerGateway.Proofs.Message.Finite
import PeerGateway.Proofs.Message.RoundTrip
import PeerGateway.Proofs.Message.Variants
import PeerGateway.Proofs.Node.Addresses
import PeerGateway.Proofs.Node.Exchanges
import PeerGateway.Proofs.Node.Forgetting
import PeerGateway.Proofs.Node.Liveness
import PeerGateway.Proofs.Node.Operations
import PeerGateway.Proofs.Node.Pending
import PeerGateway.Proofs.Node.Presence
import PeerGateway.Proofs.Node.Reached
import PeerGateway.Proofs.Node.Rounds
import PeerGateway.Proofs.Node.Surroundings
import PeerGateway.Proofs.Node.Talks
import PeerGateway.Proofs.Node.Traversal
import PeerGateway.Proofs.Overlay.Addresses
import PeerGateway.Proofs.Routing.Choice
import PeerGateway.Proofs.Routing.Ranking
import PeerGateway.Proofs.Schema.Finite
import PeerGateway.Proofs.Schema.Retold
import PeerGateway.Proofs.Schema.RoundTrip
import PeerGateway.Proofs.Schema.Tables
import PeerGateway.Proofs.Schema.Variants
import PeerGateway.Proofs.Settings.Layers
import PeerGateway.Proofs.Settings.Literals
import PeerGateway.Proofs.Text.Bytes
import PeerGateway.Proofs.Text.Digits
import PeerGateway.Proofs.Text.Order
import PeerGateway.Proofs.Text.Parts
import PeerGateway.Proofs.Text.Percent
import PeerGateway.Proofs.Time
import PeerGateway.Proofs.Transport.Datagrams
import PeerGateway.Proofs.Transport.Ledger
import PeerGateway.Proofs.Transport.Replies
import PeerGateway.Proofs.Transport.Run
import PeerGateway.Proofs.Walk.Accounts
import PeerGateway.Proofs.Walk.Admission
import PeerGateway.Proofs.Walk.Course
import PeerGateway.Proofs.Walk.Errands
import PeerGateway.Proofs.Walk.Reservations
import PeerGateway.Proofs.Walk.Stages
import PeerGateway.Routing
import PeerGateway.Schema.Basic
import PeerGateway.Schema.Kept
import PeerGateway.Schema.Read
import PeerGateway.Schema.Tabular
import PeerGateway.Settings.Basic
import PeerGateway.Settings.File
import PeerGateway.Settings.Layer
import PeerGateway.Text.Blank
import PeerGateway.Text.Bytes
import PeerGateway.Text.CharTable
import PeerGateway.Text.Composition
import PeerGateway.Text.Digit
import PeerGateway.Text.Direction
import PeerGateway.Text.Joining
import PeerGateway.Text.Mark
import PeerGateway.Text.Percent
import PeerGateway.Time
import PeerGateway.Toml.Basic
import PeerGateway.Toml.Document
import PeerGateway.Toml.Scalar
import PeerGateway.Transport.Datagrams
import PeerGateway.Transport.Pool
import PeerGateway.Transport.Punch
import PeerGateway.Transport.Session
