import Stageflow.Automation.Watch
import Stageflow.Dispatch.Pool
import Stageflow.Document.Builtin
import Stageflow.Document.Resolution
import Stageflow.Document.Source
import Stageflow.Document.Team
import Stageflow.Element.Defect
import Stageflow.Element.Level
import Stageflow.Element.Predicate
import Stageflow.Element.Reading
import Stageflow.Element.Rule
import Stageflow.Element.Stage
import Stageflow.Element.Threshold
import Stageflow.Element.Transition
import Stageflow.Event
import Stageflow.Fault
import Stageflow.Item.Basic
import Stageflow.Item.Change
import Stageflow.Item.Gate
import Stageflow.Item.Route
import Stageflow.Json.Basic
import Stageflow.Json.Display
import Stageflow.Json.Parser
import Stageflow.Json.Printer
import Stageflow.Log.Book
import Stageflow.Log.Journal
import Stageflow.Main
import Stageflow.Metrics.Track
import Stageflow.Number.Binary64
import Stageflow.Number.Decimal
import Stageflow.Project.CommandLine
import Stageflow.Project.Folder
import Stageflow.Project.Start
import Stageflow.Project.Tree
import Stageflow.Proofs.Absorption
import Stageflow.Proofs.Actions
import Stageflow.Proofs.Activations
import Stageflow.Proofs.Alerts
import Stageflow.Proofs.Announcements
import Stageflow.Proofs.Applied
import Stageflow.Proofs.BareDocuments
import Stageflow.Proofs.Bindings
import Stageflow.Proofs.BulkActivation
import Stageflow.Proofs.Choices
import Stageflow.Proofs.Chronicles
import Stageflow.Proofs.Comparisons
import Stageflow.Proofs.Compiled
import Stageflow.Proofs.Continuity
import Stageflow.Proofs.Core.Cascade
import Stageflow.Proofs.Core.Items
import Stageflow.Proofs.Core.Session
import Stageflow.Proofs.Decided
import Stageflow.Proofs.Deliveries
import Stageflow.Proofs.Depths
import Stageflow.Proofs.Editions
import Stageflow.Proofs.Effects
import Stageflow.Proofs.Endings
import Stageflow.Proofs.Evolution.Actions
import Stageflow.Proofs.Evolution.Basic
import Stageflow.Proofs.Evolution.Cascade
import Stageflow.Proofs.Evolution.Moves
import Stageflow.Proofs.Evolution.Session
import Stageflow.Proofs.Extensions
import Stageflow.Proofs.FlowMetrics
import Stageflow.Proofs.Folders
import Stageflow.Proofs.GateSafety
import Stageflow.Proofs.Histories
import Stageflow.Proofs.IdWords
import Stageflow.Proofs.Identifiers
import Stageflow.Proofs.Inheritance
import Stageflow.Proofs.Intake
import Stageflow.Proofs.Isolation
import Stageflow.Proofs.ItemSteps
import Stageflow.Proofs.JsonText
import Stageflow.Proofs.Keeps
import Stageflow.Proofs.LostUpdates
import Stageflow.Proofs.Measured
import Stageflow.Proofs.MoveTable
import Stageflow.Proofs.Nesting
import Stageflow.Proofs.NextRequests
import Stageflow.Proofs.NextStage
import Stageflow.Proofs.Outcomes
import Stageflow.Proofs.Placeholders
import Stageflow.Proofs.ProjectStarts
import Stageflow.Proofs.Publications
import Stageflow.Proofs.Reach
import Stageflow.Proofs.Readings
import Stageflow.Proofs.References
import Stageflow.Proofs.Refusals
import Stageflow.Proofs.Regimes.Basic
import Stageflow.Proofs.Regimes.Cascade
import Stageflow.Proofs.Regimes.Items
import Stageflow.Proofs.Regimes.Session
import Stageflow.Proofs.Registries
import Stageflow.Proofs.Requests
import Stageflow.Proofs.Results
import Stageflow.Proofs.RuleBooks
import Stageflow.Proofs.Searches
import Stageflow.Proofs.Serving
import Stageflow.Proofs.Tables
import Stageflow.Proofs.Ticks
import Stageflow.Proofs.Triggers
import Stageflow.Proofs.Twins.Actions
import Stageflow.Proofs.Twins.Basic
import Stageflow.Proofs.Twins.Cascade
import Stageflow.Proofs.Twins.Moves
import Stageflow.Proofs.Twins.Session
import Stageflow.Proofs.Unnoticed
import Stageflow.Proofs.UsableSettings
import Stageflow.Proofs.Vaults
import Stageflow.Proofs.VersionHistories
import Stageflow.Proofs.View
import Stageflow.Proofs.Visits
import Stageflow.Proofs.Waits
import Stageflow.Proofs.Warnings
import Stageflow.Proofs.WatchTable
import Stageflow.Proofs.WellBound
import Stageflow.Proofs.WellFormed
import Stageflow.Proofs.Workers
import Stageflow.Record.Element
import Stageflow.Record.System
import Stageflow.Record.Workflow
import Stageflow.Settings
import Stageflow.Sorted
import Stageflow.System.Actions
import Stageflow.System.Answers
import Stageflow.System.Archive
import Stageflow.System.Cascade
import Stageflow.System.Documents
import Stageflow.System.Fleet
import Stageflow.System.Items
import Stageflow.System.Moves
import Stageflow.System.Notice
import Stageflow.System.Press
import Stageflow.System.Registry
import Stageflow.System.Session
import Stageflow.System.State
import Stageflow.System.Vault
import Stageflow.Table
import Stageflow.Text.Character
import Stageflow.Text.Identifier
import Stageflow.Text.Message
import Stageflow.Text.Numeral
import Stageflow.Text.Order
import Stageflow.Text.Printable
import Stageflow.Text.Quoted
import Stageflow.Text.Template
import Stageflow.Text.Template.Fault
import Stageflow.Text.Template.Layout
import Stageflow.Text.Template.Scan
import Stageflow.Time.Duration
import Stageflow.Time.Instant
import Stageflow.Workflow.Basic
import Stageflow.Workflow.Edges
import Stageflow.Workflow.Parsed
import Stageflow.Workflow.Validation
import Stageflow.Yaml.Cursor
import Stageflow.Yaml.Parser
import Stageflow.Yaml.Scalar
import Stageflow.Yaml.Text
