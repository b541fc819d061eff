import Floodgate.Number.Quantity
import Floodgate.Json.Record
import Floodgate.Http.Request
import Floodgate.Rejection
import Floodgate.Circuit.Basic
import Floodgate.Circuit.Classifier
import Floodgate.Admission.Controller
import Floodgate.Admission.Event
import Floodgate.Latency.Recorder
import Floodgate.Settings.Reader
import Floodgate.Settings.Check
import Floodgate.Coalescing.Signature
import Floodgate.Http.Body
import Floodgate.Admission.Limiter
import Floodgate.Coalescing.Event
import Floodgate.Coalescing.Flights
import Floodgate.Latency.Event
import Floodgate.Circuit.Breaker
import Floodgate.Gzip.Stream
import Floodgate.Gzip.Totals
import Floodgate.Pipeline.Limited
import Floodgate.Pipeline.Guarded
import Floodgate.Pipeline.Metered
import Floodgate.Pipeline.Rendered
import Floodgate.Pipeline.Coalesced
import Floodgate.Pipeline.Compressed
import Floodgate.Pipeline.Build
import Floodgate.Session.Handler
import Floodgate.Gzip.Deflate
import Floodgate.Gzip.Member
import Floodgate.Session.Basic
import Floodgate.Proofs.Circuit.History
import Floodgate.Proofs.Admission.Window
import Floodgate.Proofs.Pipeline.Edge
import Floodgate.Proofs.Coalescing.Course
import Floodgate.Proofs.Coalescing.Manifest
import Floodgate.Proofs.Coalescing.Sharing
import Floodgate.Proofs.Compression.Framing
import Floodgate.Proofs.Gzip.Stored
import Floodgate.Proofs.Compression.Response
import Floodgate.Proofs.Traffic.Survey
import Floodgate.Proofs.Coalescing.Delivery
import Floodgate.Proofs.Pipeline.Negotiation
import Floodgate.Proofs.Admission.Reaping
import Floodgate.Proofs.Coalescing.Transparency
import Floodgate.Proofs.Pipeline.SharedFailure
import Floodgate.Proofs.Traffic.Counter
import Floodgate.Proofs.Pipeline.Shells
import Floodgate.Proofs.Pipeline.Balance
import Floodgate.Proofs.Admission.Isolation
import Floodgate.Proofs.Admission.Residency
import Floodgate.Proofs.Circuit.Cooldown
import Floodgate.Proofs.Circuit.Transitions
import Floodgate.Proofs.Admission.Waiting
import Floodgate.Proofs.Traffic.Perusal
import Floodgate.Proofs.Compression.Members
import Floodgate.Proofs.Compression.Ledger
import Floodgate.Proofs.Compression.Breaks
import Floodgate.Proofs.Settings.Documents
import Floodgate.Proofs.Latency.Percentiles
import Floodgate.Proofs.Admission.Varying
import Floodgate.Proofs.Latency.Resolution
import Floodgate.Proofs.Number.Positive
import Floodgate.Proofs.Admission.Adjustments
import Floodgate.Proofs.Latency.Figures
import Floodgate.Proofs.Http.Codings
import Floodgate.Proofs.Traffic.Chronicle
import Floodgate.Proofs.Coalescing.Gauge
import Floodgate.Proofs.Compression.Savings
import Floodgate.Proofs.Settings.Usable
import Floodgate.Proofs.Pipeline.Held
