import WorkloadIdentity.Clock.Calendar
import WorkloadIdentity.Clock.Manual
import WorkloadIdentity.Endpoint.Address
import WorkloadIdentity.Endpoint.Host
import WorkloadIdentity.Endpoint.IpLiteral
import WorkloadIdentity.Endpoint.Percent
import WorkloadIdentity.Endpoint.Uri
import WorkloadIdentity.Fault.Adopt
import WorkloadIdentity.Fault.Report
import WorkloadIdentity.Fault.Standard
import WorkloadIdentity.Fault.Written
import WorkloadIdentity.Json.Access
import WorkloadIdentity.Json.Basic
import WorkloadIdentity.Json.Reader
import WorkloadIdentity.Json.Tagged
import WorkloadIdentity.Log.Abridged
import WorkloadIdentity.Log.Entry
import WorkloadIdentity.Log.Printer
import WorkloadIdentity.Log.Recorder
import WorkloadIdentity.Log.Severity
import WorkloadIdentity.Number.Rounding
import WorkloadIdentity.Number.Shortest
import WorkloadIdentity.Number.Written
import WorkloadIdentity.Settings.EnvFile
import WorkloadIdentity.Settings.FileTree
import WorkloadIdentity.Settings.Loaded
import WorkloadIdentity.Settings.Schema
import WorkloadIdentity.Settings.Source
import WorkloadIdentity.Settings.Workload
import WorkloadIdentity.Spiffe.Bundle
import WorkloadIdentity.Spiffe.Id
import WorkloadIdentity.Spiffe.Rejection
import WorkloadIdentity.Spiffe.Svid
import WorkloadIdentity.Spiffe.TrustDomain
import WorkloadIdentity.Table
import WorkloadIdentity.Text.Blank
import WorkloadIdentity.Text.Hex
import WorkloadIdentity.Text.Pattern
import WorkloadIdentity.Text.Upper
import WorkloadIdentity.Text.Utf8
import WorkloadIdentity.Value
import WorkloadIdentity.Watch.Client
import WorkloadIdentity.Watch.Creation
import WorkloadIdentity.Watch.Gate
import WorkloadIdentity.Watch.Selector
import WorkloadIdentity.Watch.Session
import WorkloadIdentity.Watch.Source
import WorkloadIdentity.Proofs.Source.Run
import WorkloadIdentity.Proofs.Source.Change
import WorkloadIdentity.Proofs.Source.Invariant
import WorkloadIdentity.Proofs.Source.Serving
import WorkloadIdentity.Proofs.Source.Teardown
import WorkloadIdentity.Proofs.Source.Release
import WorkloadIdentity.Proofs.Source.Verdict
import WorkloadIdentity.Proofs.Source.Lifecycle
import WorkloadIdentity.Proofs.Source.Sink
import WorkloadIdentity.Proofs.Source.Reading
import WorkloadIdentity.Proofs.Source.Containment
import WorkloadIdentity.Proofs.Source.Aftermath
import WorkloadIdentity.Proofs.Source.Timer
import WorkloadIdentity.Proofs.Session.Steady
import WorkloadIdentity.Proofs.Session.Course
import WorkloadIdentity.Proofs.Session.Timer
import WorkloadIdentity.Proofs.Spiffe.Grammar
import WorkloadIdentity.Proofs.Spiffe.Parse
import WorkloadIdentity.Proofs.Spiffe.Segments
import WorkloadIdentity.Proofs.Spiffe.Text
import WorkloadIdentity.Proofs.Session.Guest
import WorkloadIdentity.Proofs.Session.Shared
import WorkloadIdentity.Proofs.Session.Delivery
import WorkloadIdentity.Proofs.Session.Agreement
import WorkloadIdentity.Proofs.Number.Digits
import WorkloadIdentity.Proofs.Spiffe.Domain
import WorkloadIdentity.Proofs.Endpoint.Literal
import WorkloadIdentity.Proofs.Endpoint.Stages
import WorkloadIdentity.Proofs.Endpoint.RoundTrip
import WorkloadIdentity.Proofs.Settings.Rule
import WorkloadIdentity.Proofs.Settings.Accepted
import WorkloadIdentity.Proofs.Settings.Provenance
import WorkloadIdentity.Proofs.Session.Opening
import WorkloadIdentity.Proofs.Settings.Startup
import WorkloadIdentity.Proofs.Settings.Emptied
import WorkloadIdentity.Proofs.Number.Order
import WorkloadIdentity.Proofs.Clock.Sleeps
import WorkloadIdentity.Proofs.Clock.Punctual
import WorkloadIdentity.Proofs.Session.Refused
import WorkloadIdentity.Proofs.Source.Entries
import WorkloadIdentity.Proofs.Source.Chronicle
import WorkloadIdentity.Proofs.Source.Choice
import WorkloadIdentity.Proofs.Spiffe.BundleSet
import WorkloadIdentity.Proofs.Number.Notation
import WorkloadIdentity.Proofs.Json.ReadBack
import WorkloadIdentity.Proofs.Fault.Causes
import WorkloadIdentity.Proofs.Log.Layers
import WorkloadIdentity.Proofs.Log.Lines
import WorkloadIdentity.Proofs.Log.OwnMembers
import WorkloadIdentity.Proofs.Log.Desk
import WorkloadIdentity.Proofs.Fault.Adoption
import WorkloadIdentity.Proofs.Client.Owed
import WorkloadIdentity.Proofs.Client.Subscriptions
import WorkloadIdentity.Proofs.Client.Marked
import WorkloadIdentity.Proofs.Client.Once
import WorkloadIdentity.Proofs.Client.Silence
import WorkloadIdentity.Proofs.Session.Shown
import WorkloadIdentity.Proofs.Settings.Contributors
import WorkloadIdentity.Proofs.Text.Lines
import WorkloadIdentity.Proofs.Log.Pretty
import WorkloadIdentity.Proofs.Client.Order
import WorkloadIdentity.Proofs.Gate.Passage
