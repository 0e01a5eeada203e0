import LiveRuns.Main
import LiveRuns.Watch.Offline
import LiveRuns.Proofs.Feed.Course
import LiveRuns.Proofs.Feed.Trace
import LiveRuns.Proofs.Feed.Replay
import LiveRuns.Proofs.Feed.Renewal
import LiveRuns.Proofs.Feed.Erasure
import LiveRuns.Proofs.Feed.Accounts
import LiveRuns.Proofs.Feed.Bounds
import LiveRuns.Proofs.Channel.Trace
import LiveRuns.Proofs.Roster.Clamp
import LiveRuns.Proofs.Roster.Reconcile
import LiveRuns.Proofs.Roster.History
import LiveRuns.Proofs.Roster.Coalesce
import LiveRuns.Proofs.Utf8.Encode
import LiveRuns.Proofs.Fields
import LiveRuns.Proofs.Text.Digits
import LiveRuns.Proofs.Json.Literal
import LiveRuns.Proofs.Json.Value
import LiveRuns.Proofs.Run.Null
import LiveRuns.Proofs.Run.Merge
import LiveRuns.Proofs.Run.Object
import LiveRuns.Proofs.Wire.RoundTrip
import LiveRuns.Proofs.EventStream.Whole
import LiveRuns.Proofs.EventStream.Lines
import LiveRuns.Proofs.EventStream.Chunks
import LiveRuns.Proofs.EventStream.Buffer
import LiveRuns.Proofs.EventStream.Limit
import LiveRuns.Proofs.EventStream.Recovery
import LiveRuns.Proofs.EventStream.Rendering
import LiveRuns.Proofs.EventStream.Delivery
import LiveRuns.Proofs.Json.Grammar
import LiveRuns.Proofs.Json.Depth
import LiveRuns.Proofs.Wire.Lawful
import LiveRuns.Proofs.Run.Members
import LiveRuns.Proofs.Snapshot
import LiveRuns.Proofs.Url.Endpoint
import LiveRuns.Proofs.Url.Beneath
import LiveRuns.Proofs.Feed.Close
import LiveRuns.Proofs.Roster.Commute
import LiveRuns.Proofs.Feed.Clock
import LiveRuns.Proofs.Feed.Kept
import LiveRuns.Proofs.Feed.Retry
import LiveRuns.Proofs.Http.Request
import LiveRuns.Proofs.Wire.Envelope
import LiveRuns.Proofs.Settings.Agent
import LiveRuns.Proofs.Settings.Coherence
