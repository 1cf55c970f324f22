import OpenRig.Table
import OpenRig.JsText
import OpenRig.Sessions
import OpenRig.Closure
import OpenRig.QueueDb
import OpenRig.SqlLike
import OpenRig.Watchdogs
import OpenRig.Outbox
import OpenRig.Verbs
import OpenRig.Handoff
import OpenRig.Update
import OpenRig.Firing
import OpenRig.Runs
import OpenRig.Lifecycle
import OpenRig.RowEffects
import OpenRig.Propagation
import OpenRig.Moves
import OpenRig.Refinement
import OpenRig.ClosedRows
import OpenRig.ParkedRows
import OpenRig.Blockers
import OpenRig.Frontier
import OpenRig.ClosureFields
import OpenRig.ParkLedger
import OpenRig.ParkTimers
import OpenRig.Json
import OpenRig.Digraph
import OpenRig.WorkflowTypes
import OpenRig.WorkflowValidator
import OpenRig.WorkflowStore
import OpenRig.WorkflowRouting
import OpenRig.WorkflowProjector
import OpenRig.WorkflowRuntime
import OpenRig.Instantiation
import OpenRig.GraphCalls
import OpenRig.FrontierBindings
import OpenRig.Scheduling
import OpenRig.GraphBoard
import OpenRig.GraphProgress
import OpenRig.ProjectLifecycle
import OpenRig.RequiredSteps
import OpenRig.RowFrames
import OpenRig.Reconciliation
import OpenRig.DaemonRuns
import OpenRig.GraphRevisions
import OpenRig.Redrives
import OpenRig.Reruns
import OpenRig.StaleInputs
import OpenRig.EventBus
import OpenRig.EventDelivery
import OpenRig.EventRuns
import OpenRig.DeliveryNotes
import OpenRig.DeliveryDeferral
import OpenRig.QuietRelease
import OpenRig.OutboundDriver
import OpenRig.SlackRecovery
import OpenRig.RelayEnvelope
import OpenRig.RelayOutbound
import OpenRig.SlackParts
import OpenRig.SlackDelivery
import OpenRig.UriText
import OpenRig.FieldText
import OpenRig.ReceiptNotes
import OpenRig.MarkdownAddress
import OpenRig.WakeIntents
import OpenRig.Handovers
import OpenRig.Dependents
import OpenRig.HistoryTables
import OpenRig.RecentActivity
import OpenRig.HistoryReaders
import OpenRig.Archiving
import OpenRig.Appended
import OpenRig.Reroutes
import OpenRig.SecretRedaction
import OpenRig.SlackSplit
import OpenRig.StreamRetention
import OpenRig.TopologicalSort
import OpenRig.LaunchOrder
import OpenRig.LocalClock
import OpenRig.QuietWindows
import OpenRig.DeliverySchedules
import OpenRig.HeldReminders
import OpenRig.TextSearch
import OpenRig.PersonWords
import OpenRig.SlidingWindow
import OpenRig.Decimals
import OpenRig.Placeholders
import OpenRig.BotInbox
import OpenRig.BotRouter
import OpenRig.BotAdmissions
import OpenRig.SlackMrkdwn
import OpenRig.MrkdwnLinks
import OpenRig.Escalation
import OpenRig.EscalationRoutes
import OpenRig.Utf8
import OpenRig.RecoveryIndex
import OpenRig.RecoveryLookups
import OpenRig.Delimited
import OpenRig.ManagedBlocks
import OpenRig.ManagedMarkers
import OpenRig.ManagedMerges
import OpenRig.HumanAnswers
import OpenRig.DecisionRevision
import OpenRig.KeptDecisions
import OpenRig.RevisionRuns
import OpenRig.CreatedEvents
import OpenRig.CrossHost
import OpenRig.Custody
import OpenRig.ReopenedHandoffs
import OpenRig.ClassifierLeases
import OpenRig.Paging
import OpenRig.StreamStore
import OpenRig.ClassificationLedger
import OpenRig.ClassificationRuns
import OpenRig.ClassificationFence
import OpenRig.EligibleItems
import OpenRig.ReaderPages
import OpenRig.StreamReaders
import OpenRig.StreamIntake
import OpenRig.StreamIntakeQueue
import OpenRig.StreamIntakeRuns
