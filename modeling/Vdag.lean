import Vdag.Assignment
import Vdag.Assignment.Resolution
import Vdag.Block
import Vdag.BlockGraph.Basic
import Vdag.BlockGraph.Indegree
import Vdag.BlockGraph.Splicing
import Vdag.Closure
import Vdag.CommandLine
import Vdag.Compilation
import Vdag.CompiledGraph
import Vdag.ConnectionCache
import Vdag.Definition
import Vdag.Document.CompiledGraph
import Vdag.Document.DryRun
import Vdag.Document.LogicalGraph
import Vdag.Document.Node
import Vdag.Document.PhysicalGraph
import Vdag.Document.Reply
import Vdag.Document.Task
import Vdag.Document.Vdag
import Vdag.Failure
import Vdag.Gateway
import Vdag.Gateway.MediaType
import Vdag.Id
import Vdag.Ingress
import Vdag.Json.Bytes
import Vdag.Json.Numeral
import Vdag.Json.Printer
import Vdag.Json.Reading
import Vdag.Json.Token
import Vdag.Json.Tree
import Vdag.Json.Value
import Vdag.Launch
import Vdag.LogicalGraph
import Vdag.Main
import Vdag.Memory.Broker
import Vdag.Memory.Discovery
import Vdag.Memory.Queue
import Vdag.Memory.Registry
import Vdag.Memory.Search
import Vdag.Memory.Tasks
import Vdag.Node
import Vdag.Number.Binary64
import Vdag.Number.Shortest
import Vdag.Order
import Vdag.Packet.Basic
import Vdag.Packet.Framing
import Vdag.Packet.Wire
import Vdag.PhysicalGraph
import Vdag.Processing
import Vdag.Proofs.Addressing
import Vdag.Proofs.Addressing.Mirroring
import Vdag.Proofs.Assignment
import Vdag.Proofs.Assignment.Inverse
import Vdag.Proofs.Assignment.Resolving
import Vdag.Proofs.Block.Agreement
import Vdag.Proofs.Block.Applying
import Vdag.Proofs.Block.Connections
import Vdag.Proofs.Block.Crew
import Vdag.Proofs.Block.Dialling
import Vdag.Proofs.Block.Forwarding
import Vdag.Proofs.Block.Isolation
import Vdag.Proofs.Block.Passing
import Vdag.Proofs.Block.Policies
import Vdag.Proofs.Block.Recall
import Vdag.Proofs.Block.Settling
import Vdag.Proofs.Block.Workshop
import Vdag.Proofs.BlockGraph.Chains
import Vdag.Proofs.BlockGraph.Cycles
import Vdag.Proofs.BlockGraph.Edges
import Vdag.Proofs.BlockGraph.Flattening
import Vdag.Proofs.BlockGraph.Nesting
import Vdag.Proofs.BlockGraph.Paths
import Vdag.Proofs.BlockGraph.Peeling
import Vdag.Proofs.BlockGraph.Refusals
import Vdag.Proofs.BlockGraph.Rooted
import Vdag.Proofs.BlockGraph.Rounds
import Vdag.Proofs.BlockGraph.Verdict
import Vdag.Proofs.Broker
import Vdag.Proofs.Definition
import Vdag.Proofs.Definition.Faults
import Vdag.Proofs.Delivery
import Vdag.Proofs.Document
import Vdag.Proofs.Document.NormalForm
import Vdag.Proofs.Document.Survival
import Vdag.Proofs.Effects
import Vdag.Proofs.Ingress
import Vdag.Proofs.Json.Characters
import Vdag.Proofs.Json.Keeping
import Vdag.Proofs.Json.Lexing
import Vdag.Proofs.Json.Nesting
import Vdag.Proofs.Json.Records
import Vdag.Proofs.Json.RoundTrip
import Vdag.Proofs.Naming
import Vdag.Proofs.Outcome
import Vdag.Proofs.Packet
import Vdag.Proofs.Packet.Documents
import Vdag.Proofs.Packet.PrefixCode
import Vdag.Proofs.Packet.Streaming
import Vdag.Proofs.Packet.Truncation
import Vdag.Proofs.Planning
import Vdag.Proofs.Queue.Returns
import Vdag.Proofs.Queue.Sharing
import Vdag.Proofs.Recency.List
import Vdag.Proofs.Recency.Mirroring
import Vdag.Proofs.Recency.Ordering
import Vdag.Proofs.RecencyCache
import Vdag.Proofs.Registry.Asking
import Vdag.Proofs.Registry.Atomicity
import Vdag.Proofs.Registry.Consistency
import Vdag.Proofs.Registry.DryRun
import Vdag.Proofs.Registry.EmbeddingOrder
import Vdag.Proofs.Registry.Forestalling
import Vdag.Proofs.Registry.Guarding
import Vdag.Proofs.Registry.Hoisting
import Vdag.Proofs.Registry.Hosting
import Vdag.Proofs.Registry.Interchange
import Vdag.Proofs.Registry.Interleaving
import Vdag.Proofs.Registry.Mapping
import Vdag.Proofs.Registry.Operations
import Vdag.Proofs.Registry.Paused
import Vdag.Proofs.Registry.Performing
import Vdag.Proofs.Registry.Previews
import Vdag.Proofs.Registry.Reaching
import Vdag.Proofs.Registry.Running
import Vdag.Proofs.Registry.Separation
import Vdag.Proofs.Registry.Walking
import Vdag.Proofs.Routing
import Vdag.Proofs.Session
import Vdag.Proofs.Session.Grammar
import Vdag.Proofs.SortedMap
import Vdag.Proofs.Submission.Callbacks
import Vdag.Proofs.Submission.InOrder
import Vdag.Proofs.Submission.Office
import Vdag.Proofs.Submission.Passage
import Vdag.Proofs.Text
import Vdag.RecencyCache
import Vdag.Remote.ListServer
import Vdag.Remote.Registry
import Vdag.Remote.Services
import Vdag.Remote.StatusLine
import Vdag.Remote.WebClient
import Vdag.Route
import Vdag.Router
import Vdag.Service
import Vdag.Session
import Vdag.Settings
import Vdag.Simulation.Script
import Vdag.Simulation.World
import Vdag.SortedMap
import Vdag.StagePolicy
import Vdag.Status
import Vdag.Submission
import Vdag.Target
import Vdag.Task
import Vdag.Text.Basic
import Vdag.Text.Hex
import Vdag.Text.Hidden
import Vdag.Text.Quoted
import Vdag.Proofs.Registry.Reaching
