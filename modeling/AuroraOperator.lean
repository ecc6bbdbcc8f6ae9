import AuroraOperator.Lib.Absence
import AuroraOperator.Lib.Machine
import AuroraOperator.Lib.Program
import AuroraOperator.Lib.Words
import AuroraOperator.Lib.Hysteresis
import AuroraOperator.Lib.Journal
import AuroraOperator.Lib.Ini
import AuroraOperator.Lib.Choice
import AuroraOperator.Lib.Heap
import AuroraOperator.Lib.Keyed
import AuroraOperator.Lib.Url
import AuroraOperator.Go
import AuroraOperator.Sha1
import AuroraOperator.WatchNames
import AuroraOperator.Kube
import AuroraOperator.Api
import AuroraOperator.Postgres
import AuroraOperator.Discovery
import AuroraOperator.Discovery.Views
import AuroraOperator.Discovery.Metadata
import AuroraOperator.Discovery.RowSource
import AuroraOperator.Discovery.MetadataWorker
import AuroraOperator.Discovery.Cache
import AuroraOperator.Planner
import AuroraOperator.Render.Names
import AuroraOperator.Render.Labels
import AuroraOperator.Render.DNSLabel
import AuroraOperator.Render.Config
import AuroraOperator.Render.Resources
import AuroraOperator.Render.Scheduling
import AuroraOperator.Render.Overrides
import AuroraOperator.Render.MapOrder
import AuroraOperator.Render.Ini
import AuroraOperator.Render.Endpoints
import AuroraOperator.Render.Ports
import AuroraOperator.Monitor
import AuroraOperator.Monitor.Pool
import AuroraOperator.Monitor.Timing
import AuroraOperator.Monitor.Deadline
import AuroraOperator.Controller.FinalPlan
import AuroraOperator.Controller.Decision
import AuroraOperator.Controller.Conditions
import AuroraOperator.Controller.Memory
import AuroraOperator.Controller.StatusWriters
import AuroraOperator.Controller.Server
import AuroraOperator.Controller.Desired
import AuroraOperator.Controller.Drift
import AuroraOperator.Controller.Defaulting
import AuroraOperator.Controller.Apply
import AuroraOperator.Controller.Membership
import AuroraOperator.Controller.Restart
import AuroraOperator.Controller.Reconcile
import AuroraOperator.Controller.Scheduler
import AuroraOperator.Controller.System
import AuroraOperator.Controller.Freeze
import AuroraOperator.Controller.Invariants
import AuroraOperator.Controller.Safety
import AuroraOperator.Controller.Tracking
import AuroraOperator.Controller.WriterChange
import AuroraOperator.Controller.Interleaving
import AuroraOperator.Controller.StaleCommits
import AuroraOperator.Controller.Generations
import AuroraOperator.Controller.Retention
import AuroraOperator.Controller.Effects
import AuroraOperator.Controller.Fixpoint
import AuroraOperator.Controller.Deletion
import AuroraOperator.Controller.Isolation
import AuroraOperator.Controller.FailureTolerance
import AuroraOperator.Controller.Hysteresis
import AuroraOperator.Controller.Replacement
import AuroraOperator.Controller.MonitorReport
import AuroraOperator.Controller.Coherence
import AuroraOperator.Controller.Planning
import AuroraOperator.Controller.Standalone
import AuroraOperator.Controller.Agreement
import AuroraOperator.Controller.ZoneConflict
import AuroraOperator.Controller.Transitions
import AuroraOperator.Controller.Failures
import AuroraOperator.Controller.Relabelling
import AuroraOperator.Controller.NewPods
import AuroraOperator.Controller.Stages
import AuroraOperator.Controller.Success
import AuroraOperator.Controller.Failback
import AuroraOperator.Controller.Templates
import AuroraOperator.Controller.SecretReads
import AuroraOperator.Controller.Healing
import AuroraOperator.Controller.CopyDesired
import AuroraOperator.Controller.Disabled
import AuroraOperator.Manager.Process
import AuroraOperator.Manager.SingleFlight
import AuroraOperator.Manager.Wakeups
import AuroraOperator.Manager.Rest
import AuroraOperator.Manager.Throttle
import AuroraOperator.Manager.Fleet
import AuroraOperator.StatusPage
import AuroraOperator.StatusPage.States
import AuroraOperator.Controller.Convergence
import AuroraOperator.Controller.Rounds
