import FeedGraph.Members
import FeedGraph.Number.Shortest
import FeedGraph.Text.Position
import FeedGraph.Text.Parser
import FeedGraph.Text.Blank
import FeedGraph.Text.Split
import FeedGraph.Text.Ranges
import FeedGraph.Text.Substitution
import FeedGraph.Text.Marks
import FeedGraph.Text.LowerCase
import FeedGraph.Text.Quoted
import FeedGraph.Json.Number
import FeedGraph.Json.Basic
import FeedGraph.Json.Writer
import FeedGraph.Json.Reader
import FeedGraph.Document.Literal
import FeedGraph.Document.Value
import FeedGraph.Document.Constant
import FeedGraph.Document.Basic
import FeedGraph.Document.BlockString
import FeedGraph.Document.Token
import FeedGraph.Document.Reader
import FeedGraph.Schema.Basic
import FeedGraph.Schema.Reader
import FeedGraph.Plan.Rejection
import FeedGraph.Plan.Field
import FeedGraph.Plan.Coercion
import FeedGraph.Plan.Merge
import FeedGraph.Plan.Collect
import FeedGraph.Plan.OfDocument
import FeedGraph.Execution.Fiber
import FeedGraph.Execution.Resolver
import FeedGraph.Execution.Response
import FeedGraph.Execution.Executor
import FeedGraph.Document.Tagged
import FeedGraph.Execution.Request
import FeedGraph.Execution.Engine
import FeedGraph.Number.IntegerFormat
import FeedGraph.Settings.Environment
import FeedGraph.Settings.Config
import FeedGraph.Http.Headers
import FeedGraph.Url.Percent
import FeedGraph.Url.Form
import FeedGraph.Url.Basic
import FeedGraph.Url.Error
import FeedGraph.Url.Domain.Barred
import FeedGraph.Url.Domain.Composition
import FeedGraph.Url.Domain.Direction
import FeedGraph.Url.Domain.Joiner
import FeedGraph.Url.Domain.Mapping
import FeedGraph.Url.Domain.Name
import FeedGraph.Url.Domain.Punycode
import FeedGraph.Url.Ip
import FeedGraph.Url.Host
import FeedGraph.Url.Escape
import FeedGraph.Url.Segments
import FeedGraph.Url.Authority
import FeedGraph.Url.Reader
import FeedGraph.Catalog.Exchange
import FeedGraph.Catalog.Basic
import FeedGraph.Feed.Store
import FeedGraph.Feed.State
import FeedGraph.Feed.Schema
import FeedGraph.Feed.Resolvers
import FeedGraph.Http.Router
import FeedGraph.Http.MediaType
import FeedGraph.Http.Server
import FeedGraph.Feed.Service
import FeedGraph.Proofs.Plan.Conformance
import FeedGraph.Proofs.Plan.Collection
import FeedGraph.Proofs.Plan.Typing
import FeedGraph.Proofs.Plan.Visits
import FeedGraph.Proofs.Execution.Recording
import FeedGraph.Proofs.Plan.Inlining
import FeedGraph.Proofs.Execution.Evaluation
import FeedGraph.Proofs.Execution.Completions
import FeedGraph.Proofs.Execution.Answers
import FeedGraph.Proofs.Execution.Places
import FeedGraph.Proofs.Execution.NullPropagation
import FeedGraph.Proofs.Execution.Scheduling
import FeedGraph.Proofs.Execution.Mutations
import FeedGraph.Proofs.Feed.Identity
import FeedGraph.Proofs.Document.Variables
import FeedGraph.Proofs.Plan.Coercibility
import FeedGraph.Proofs.Plan.Readings
import FeedGraph.Proofs.Plan.Defaults
import FeedGraph.Proofs.Plan.Faults
import FeedGraph.Proofs.Plan.Termination
import FeedGraph.Proofs.Execution.Frames
import FeedGraph.Proofs.Feed.Selections
import FeedGraph.Proofs.Feed.Views
import FeedGraph.Proofs.Feed.Reads
import FeedGraph.Proofs.Feed.Writes
import FeedGraph.Proofs.Feed.Asking
import FeedGraph.Proofs.Feed.Effects
import FeedGraph.Proofs.Document.Equality
import FeedGraph.Proofs.Plan.Regrouping
import FeedGraph.Proofs.Plan.Normalization
import FeedGraph.Proofs.Plan.Checks
import FeedGraph.Proofs.Plan.Limits
import FeedGraph.Proofs.Execution.Tallies
import FeedGraph.Proofs.Feed.Traffic
import FeedGraph.Proofs.Plan.Sources
import FeedGraph.Proofs.Feed.Serving
import FeedGraph.Proofs.Plan.Bindings
import FeedGraph.Proofs.Plan.Cycles
import FeedGraph.Proofs.Plan.Rewriting
import FeedGraph.Proofs.Plan.Constants
import FeedGraph.Proofs.Plan.Supply
import FeedGraph.Proofs.Plan.Unbound
import FeedGraph.Proofs.Execution.Rounds
import FeedGraph.Proofs.Execution.Journals
import FeedGraph.Proofs.Execution.Reports
import FeedGraph.Proofs.Execution.Inquiries
import FeedGraph.Proofs.Feed.Targets
import FeedGraph.Proofs.Feed.Films
import FeedGraph.Proofs.Feed.Numbering
import FeedGraph.Proofs.Schema.Redefinitions
import FeedGraph.Proofs.Plan.Lookups
import FeedGraph.Proofs.Plan.Isolation
import FeedGraph.Proofs.Document.Conversions
import FeedGraph.Proofs.Plan.Stability
import FeedGraph.Proofs.Feed.Outages
import FeedGraph.Proofs.Document.Encoding
import FeedGraph.Proofs.Http.Routing
import FeedGraph.Proofs.Settings.Numbers
