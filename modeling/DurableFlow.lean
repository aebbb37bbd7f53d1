import DurableFlow.Data.Basic
import DurableFlow.Data.Compact
import DurableFlow.Data.Fields
import DurableFlow.Data.Ordered
import DurableFlow.Definition.Basic
import DurableFlow.Definition.Build
import DurableFlow.Definition.Exchange
import DurableFlow.Definition.Loading
import DurableFlow.Definition.Validate
import DurableFlow.Desk.Basic
import DurableFlow.Desk.Errand
import DurableFlow.Desk.Step
import DurableFlow.Engine.Basic
import DurableFlow.Event.Basic
import DurableFlow.Event.Matching
import DurableFlow.Expr.Basic
import DurableFlow.Expr.Eval
import DurableFlow.Expr.Parser
import DurableFlow.Expr.Token
import DurableFlow.Failure
import DurableFlow.Id
import DurableFlow.Ledger.Basic
import DurableFlow.Ledger.Record
import DurableFlow.Metrics
import DurableFlow.Net.Url
import DurableFlow.Number.Basic
import DurableFlow.Number.Binary64
import DurableFlow.Number.Bounded
import DurableFlow.Number.Decimal
import DurableFlow.Number.Power
import DurableFlow.Pause.Basic
import DurableFlow.Procedure.Basic
import DurableFlow.Procedure.Builtin
import DurableFlow.Proofs.Data.Fields
import DurableFlow.Proofs.Data.Table
import DurableFlow.Proofs.Definition.Forks
import DurableFlow.Proofs.Definition.Validity
import DurableFlow.Proofs.Run.Completion
import DurableFlow.Proofs.Run.Interleaving
import DurableFlow.Proofs.Run.Reference
import DurableFlow.Proofs.Run.Rest
import DurableFlow.Proofs.Run.Soundness
import DurableFlow.Proofs.Run.Tending
import DurableFlow.Proofs.Run.Termination
import DurableFlow.Proofs.Run.Transparency
import DurableFlow.Proofs.Run.Work
import DurableFlow.Run.Advance
import DurableFlow.Run.Basic
import DurableFlow.Run.Context
import DurableFlow.Run.Node
import DurableFlow.Run.Notice
import DurableFlow.Run.Result
import DurableFlow.Run.Status
import DurableFlow.Run.Suspended
import DurableFlow.Service.Basic
import DurableFlow.Settings
import DurableFlow.Source.Basic
import DurableFlow.Source.Decode
import DurableFlow.Source.Reader
import DurableFlow.Source.Text
import DurableFlow.Template.Basic
import DurableFlow.Template.Fill
import DurableFlow.Template.Filters
import DurableFlow.Template.Parser
import DurableFlow.Template.Placeholder
import DurableFlow.Text.Case
import DurableFlow.Text.Letters
import DurableFlow.Text.Shown
import DurableFlow.Time.Instant
import DurableFlow.Time.Layout
import DurableFlow.Time.Rfc3339
import DurableFlow.Trigger.Subscription
import DurableFlow.Trigger.Switchboard
import DurableFlow.Trigger.TimeoutPolicy
import DurableFlow.World.Basic
import DurableFlow.World.Perform
import DurableFlow.Yaml.Cursor
import DurableFlow.Yaml.Node
import DurableFlow.Yaml.Reader
import DurableFlow.Yaml.Scalar
import DurableFlow.Yaml.Token
import DurableFlow.Proofs.Desk.Pending
import DurableFlow.Proofs.Desk.Deciding
import DurableFlow.Proofs.Engine.Runs
import DurableFlow.Proofs.Id
import DurableFlow.Proofs.Desk.Charge
import DurableFlow.Proofs.Desk.Dealing
import DurableFlow.Proofs.Desk.Custody
import DurableFlow.Proofs.Desk.Accounts
import DurableFlow.Proofs.Desk.AtMostOnce
import DurableFlow.Proofs.World.Site
import DurableFlow.Proofs.Run.Effects
import DurableFlow.Proofs.Run.History
import DurableFlow.Proofs.Desk.Paper
import DurableFlow.Proofs.Desk.Filing
import DurableFlow.Proofs.Desk.Safekeeping
import DurableFlow.Proofs.Desk.Restoring
import DurableFlow.Proofs.Desk.CrashSafety
import DurableFlow.Proofs.Run.Fate
import DurableFlow.Proofs.Run.Failing
import DurableFlow.Proofs.Run.Redirect
import DurableFlow.Proofs.Run.Handling
import DurableFlow.Proofs.Run.Mirror
import DurableFlow.Proofs.Run.Lockstep
import DurableFlow.Proofs.Run.Waits
import DurableFlow.Proofs.Desk.Career
import DurableFlow.Proofs.Desk.Recording
import DurableFlow.Proofs.Desk.Records
import DurableFlow.Proofs.Desk.Leftovers
import DurableFlow.Proofs.Desk.Apart
import DurableFlow.Proofs.Desk.Reviving
import DurableFlow.Proofs.Desk.Redelivery
import DurableFlow.Proofs.Desk.Delivering
import DurableFlow.Proofs.Desk.Deploying
import DurableFlow.Proofs.Desk.Wiring
import DurableFlow.Proofs.Desk.Stopping
import DurableFlow.Proofs.Desk.Outage
import DurableFlow.Proofs.Desk.Coherence
import DurableFlow.Proofs.Desk.Accord
import DurableFlow.Proofs.Desk.Bystanders
import DurableFlow.Proofs.Run.Blocks
import DurableFlow.Proofs.Desk.Telling
import DurableFlow.Proofs.Desk.Chronicle
import DurableFlow.Proofs.Desk.Script
import DurableFlow.Proofs.Desk.Narrating
import DurableFlow.Proofs.Desk.Passes
import DurableFlow.Proofs.Desk.Conducting
import DurableFlow.Proofs.Desk.Lifecycle
import DurableFlow.Proofs.Expr.Parsing
import DurableFlow.Proofs.Expr.RoundTrip
import DurableFlow.Proofs.Run.Exchange
import DurableFlow.Proofs.Run.Branching
import DurableFlow.Proofs.Number.Value
import DurableFlow.Proofs.Number.Rounding
import DurableFlow.Proofs.Data.ByValue
import DurableFlow.Proofs.Event.Answering
import DurableFlow.Proofs.Expr.Comparing
import DurableFlow.Proofs.Time.Deadline
import DurableFlow.Proofs.Desk.Purposes
import DurableFlow.Proofs.Desk.Confined
import DurableFlow.Proofs.Desk.Turns
import DurableFlow.Proofs.Desk.Routing
import DurableFlow.Proofs.Desk.Aftercare
import DurableFlow.Proofs.Desk.Lapsing
import DurableFlow.Proofs.Run.Undated
import DurableFlow.Proofs.Run.Cutting
import DurableFlow.Proofs.Desk.Recovery
import DurableFlow.Proofs.Desk.Attempts
import DurableFlow.Proofs.Desk.Contest
import DurableFlow.Proofs.Run.Timeless
import DurableFlow.Proofs.Desk.Pursuit
import DurableFlow.Proofs.Desk.Abreast
import DurableFlow.Proofs.Desk.Commuting
import DurableFlow.Proofs.Trigger.Switchboard
import DurableFlow.Proofs.Template.Rendering
import DurableFlow.Proofs.Desk.Reckoning
import DurableFlow.Proofs.Procedure.Adding
import DurableFlow.Proofs.Run.Announcing
import DurableFlow.Proofs.Ledger.Listing
import DurableFlow.Proofs.Desk.Survival
import DurableFlow.Proofs.Desk.Resuming
