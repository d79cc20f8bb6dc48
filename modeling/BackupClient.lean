import BackupClient.Auth.Report
import BackupClient.Auth.ScriptForm
import BackupClient.Command.Terminator
import BackupClient.Engine.Mount
import BackupClient.Engine.ScriptForm
import BackupClient.Files.Layout
import BackupClient.Jobs.Schedule
import BackupClient.Proofs.Archives.Selection
import BackupClient.Proofs.Keyed
import BackupClient.Proofs.Jobs.Arbiter
import BackupClient.Proofs.Jobs.Guards
import BackupClient.Proofs.Jobs.Standing
import BackupClient.Proofs.Jobs.Tokens
import BackupClient.Proofs.Jobs.Traffic
import BackupClient.Proofs.Auth.Registry
import BackupClient.Proofs.Auth.Interleaving
import BackupClient.Proofs.Auth.Polling
import BackupClient.Proofs.Auth.Recreation
import BackupClient.Proofs.Auth.Authentication
import BackupClient.Proofs.Auth.History
import BackupClient.Proofs.Engine.Course
import BackupClient.Proofs.Engine.Following
import BackupClient.Proofs.Engine.Endings
import BackupClient.Proofs.Engine.FailStop
import BackupClient.Proofs.Engine.Caveats
import BackupClient.Proofs.Auth.Creation
import BackupClient.Proofs.Auth.Delivery
import BackupClient.Proofs.Auth.Fate
import BackupClient.Proofs.Auth.Once
import BackupClient.Proofs.Auth.Agreement
import BackupClient.Proofs.Command.Reporting
import BackupClient.Proofs.Engine.Secrecy
import BackupClient.Proofs.Environment.RemoteShell
import BackupClient.Proofs.Log.Streaming
import BackupClient.Proofs.Jobs.Records
import BackupClient.Proofs.Jobs.Reports
import BackupClient.Proofs.Jobs.Outcomes
import BackupClient.Proofs.Auth.PollCourse
import BackupClient.Proofs.Auth.PollScript
import BackupClient.Proofs.Auth.Punctuality
import BackupClient.Proofs.Auth.GivingUp
import BackupClient.Proofs.Auth.PollRuns
import BackupClient.Proofs.Auth.Lifecycle
import BackupClient.Proofs.Log.Output
import BackupClient.Proofs.Text.Banner
import BackupClient.Proofs.Log.Spelling
import BackupClient.Proofs.Mounts.Tables
import BackupClient.Proofs.Mounts.Discovery
import BackupClient.Proofs.Command.Calls
import BackupClient.Proofs.Responses.Stability
import BackupClient.Proofs.Responses.Listing
import BackupClient.Proofs.Configuration
import BackupClient.Proofs.Jobs.Documents
import BackupClient.Proofs.Engine.FinalTicks
import BackupClient.Proofs.Engine.PruneLines
import BackupClient.Proofs.Engine.Findings
import BackupClient.Proofs.Jobs.Beginnings
import BackupClient.Proofs.Jobs.Starts
import BackupClient.Proofs.Jobs.RuleFlags
import BackupClient.Proofs.Jobs.Destruction
import BackupClient.Proofs.Auth.Sweeping
import BackupClient.Proofs.Auth.FailureCount
import BackupClient.Proofs.Environment.Managed
import BackupClient.Proofs.Engine.Versions
import BackupClient.Proofs.Mounts.Escapes
