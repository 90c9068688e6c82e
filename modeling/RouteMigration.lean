import RouteMigration.Main
import RouteMigration.Progress
import RouteMigration.Text.Figures
import RouteMigration.Proofs.Target.RoundTrip
import RouteMigration.Proofs.Rule.Collapse
import RouteMigration.Proofs.Migration.Restore
import RouteMigration.Proofs.Batch.Accounting
import RouteMigration.Proofs.Document.RoundTrip
import RouteMigration.Proofs.Migration.Safeguard
import RouteMigration.Proofs.Migration.DryRun
import RouteMigration.Proofs.Target.Return
import RouteMigration.Proofs.Target.Normalization
import RouteMigration.Proofs.Batch.Settled
import RouteMigration.Proofs.Form.Separator
import RouteMigration.Proofs.Route.Queues
import RouteMigration.Proofs.Rule.Literals
import RouteMigration.Proofs.Rule.Targets
import RouteMigration.Proofs.Rule.Fields
import RouteMigration.Proofs.Rule.Delimited
import RouteMigration.Proofs.Migration.InMemory
import RouteMigration.Proofs.CommandLine.DryRun
import RouteMigration.Proofs.Route.Update
import RouteMigration.Proofs.Target.Naming
import RouteMigration.Proofs.Target.Refusal
import RouteMigration.Proofs.Batch.Refusal
import RouteMigration.Proofs.Target.Keys
import RouteMigration.Proofs.Rule.Unchanged
import RouteMigration.Proofs.Rule.Return
import RouteMigration.Proofs.Rule.Repetition
import RouteMigration.Proofs.Sink.Collecting
import RouteMigration.Proofs.Migration.Local
import RouteMigration.Proofs.Settings.Credential
import RouteMigration.Proofs.Credentials.Account
import RouteMigration.Proofs.Backup.Newest
import RouteMigration.Proofs.Exchange.Base64
import RouteMigration.Proofs.World.Alike
import RouteMigration.Proofs.Migration.Password
import RouteMigration.Proofs.CommandLine.Hint
import RouteMigration.Proofs.Text.Figures
