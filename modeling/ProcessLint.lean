import ProcessLint.Main
import ProcessLint.Proofs.Document.Names
import ProcessLint.Proofs.Document.Reading
import ProcessLint.Proofs.Fix.Safety
import ProcessLint.Proofs.Fix.Entries
import ProcessLint.Proofs.Fix.Layout
import ProcessLint.Proofs.Text.ByteOrder
import ProcessLint.Proofs.Fix.Sorted
import ProcessLint.Proofs.Fix.Stability
import ProcessLint.Proofs.Fix.Version
import ProcessLint.Proofs.Fix.Frame
import ProcessLint.Proofs.Graph.Unfolding
import ProcessLint.Proofs.Graph.Marks
import ProcessLint.Proofs.Graph.Roots
import ProcessLint.Proofs.Graph.Size
import ProcessLint.Proofs.Document.Positions
import ProcessLint.Proofs.Command.Files
import ProcessLint.Proofs.Command.Status
import ProcessLint.Proofs.Graph.Chart
import ProcessLint.Proofs.Document.Order
import ProcessLint.Proofs.Yaml.Marks
import ProcessLint.Proofs.Rule.Selection
import ProcessLint.Proofs.Document.WellFormed
import ProcessLint.Proofs.Rule.References
import ProcessLint.Proofs.Graph.Reachable
import ProcessLint.Proofs.Fix.VersionLine
import ProcessLint.Proofs.Fix.Surroundings
import ProcessLint.Proofs.Rule.Reports
import ProcessLint.Proofs.Document.Environment
import ProcessLint.Proofs.Rule.EnvFile
import ProcessLint.Proofs.Rule.Secrets
import ProcessLint.Proofs.Rule.Conventions
import ProcessLint.Proofs.Rule.Schedules
import ProcessLint.Proofs.Graph.Drawing
import ProcessLint.Proofs.Cron.Blame
import ProcessLint.Proofs.Duration.Diagnosis
import ProcessLint.Proofs.Graph.Data
import ProcessLint.Proofs.Graph.Naming
