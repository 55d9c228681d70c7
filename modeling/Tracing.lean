import Tracing.Dict
import Tracing.Text.Split
import Tracing.Text.Case
import Tracing.Ident
import Tracing.Log
import Tracing.Sampling.Priority
import Tracing.Decimal.Shortest
import Tracing.Decimal.Text
import Tracing.Text.Quoted
import Tracing.Json.Basic
import Tracing.Json.Reader
import Tracing.Json.Writer
import Tracing.Propagation.B3
import Tracing.Propagation.Style
import Tracing.Propagation.Composite
import Tracing.Config.Basic
import Tracing.Config.Builder
import Tracing.Pattern.Basic
import Tracing.Pattern.Reader
import Tracing.Pattern.Engine
import Tracing.Sampling.Decision
import Tracing.Sampling.Rate
import Tracing.Sampling.Sampler
import Tracing.Span.Handle
import Tracing.Trace.Completion
import Tracing.Payload.Packer
import Tracing.Error
import Tracing.Export.Delivery
import Tracing.Export.Url
import Tracing.Export.Endpoint
import Tracing.Export.Exporter
import Tracing.Export.Timing
import Tracing.Tracer
import Tracing.Proofs.Trace.ExactlyOnce
import Tracing.Proofs.Export.Run
import Tracing.Proofs.Trace.DecisionOnce
import Tracing.Proofs.Export.Conservation
import Tracing.Proofs.Text.Reading
import Tracing.Proofs.Propagation.DatadogTags
import Tracing.Proofs.Propagation.Hops
import Tracing.Proofs.Propagation.DatadogRoundTrip
import Tracing.Proofs.Propagation.DatadogToTraceContext
import Tracing.Proofs.Propagation.TraceContextToDatadog
import Tracing.Proofs.Payload.Sizes
import Tracing.Proofs.Propagation.TraceContextRoundTrip
import Tracing.Proofs.Payload.Accounting
import Tracing.Proofs.Payload.Draining
import Tracing.Proofs.Payload.Splitting
import Tracing.Proofs.Config.Fields
import Tracing.Proofs.Config.Durations
import Tracing.Proofs.Config.Startup
import Tracing.Proofs.Config.Isolation
import Tracing.Proofs.Trace.Identity
import Tracing.Proofs.Trace.RootNames
import Tracing.Proofs.Payload.Identity
import Tracing.Proofs.Export.Drops
import Tracing.Proofs.Tracer.Run
import Tracing.Proofs.Tracer.Traces
import Tracing.Proofs.Tracer.Accounting
import Tracing.Proofs.Export.Flow
import Tracing.Proofs.Export.Ledger
import Tracing.Proofs.Export.Counters
import Tracing.Proofs.Export.Delivered
import Tracing.Proofs.Export.Backlog
import Tracing.Proofs.Export.Progress
import Tracing.Proofs.Export.Shutdown
import Tracing.Proofs.Propagation.FirstStyle
import Tracing.Proofs.Propagation.B3RoundTrip
import Tracing.Proofs.Trace.Context
import Tracing.Proofs.Propagation.LocalContext
import Tracing.Proofs.Propagation.Reinjection
import Tracing.Proofs.Propagation.SideBySide
import Tracing.Proofs.Sampling.Layers
import Tracing.Proofs.Tracer.Ancestry
import Tracing.Proofs.Json.RoundTrip
import Tracing.Proofs.Payload.Decoding
import Tracing.Proofs.Text.Numerals
import Tracing.Proofs.Propagation.Tokens
import Tracing.Proofs.Propagation.B3Grammar
import Tracing.Proofs.Propagation.DatadogGrammar
import Tracing.Proofs.Propagation.TraceContextGrammar
import Tracing.Proofs.Export.Retries
import Tracing.Proofs.Sampling.Share
import Tracing.Proofs.Sampling.Budget
import Tracing.Proofs.Sampling.AgentRates
import Tracing.Proofs.Tracer.Stamping
import Tracing.Proofs.Propagation.Documents
import Tracing.Proofs.Propagation.LetterCase
import Tracing.Proofs.Config.Rebuild
import Tracing.Proofs.Sampling.InvalidRules
import Tracing.Proofs.Export.Backpressure
import Tracing.Proofs.Payload.Values
import Tracing.Proofs.Config.Leaves
import Tracing.Proofs.Config.Grammar
import Tracing.Proofs.Config.Texts
