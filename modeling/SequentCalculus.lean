import SequentCalculus.CommandLine.Program
import SequentCalculus.Main
import SequentCalculus.Viewer
import SequentCalculus.Proofs.Calculus.StackSearch
import SequentCalculus.Proofs.Calculus.Validity
import SequentCalculus.Proofs.Reading.RoundTrip
import SequentCalculus.Proofs.Reading.Acceptance
import SequentCalculus.Proofs.Reading.Format
import SequentCalculus.Proofs.Reading.Unambiguity
import SequentCalculus.Proofs.Calculus.Interleaving
import SequentCalculus.Proofs.Calculus.EarlyClosing
import SequentCalculus.Proofs.Calculus.Bounds
import SequentCalculus.Proofs.Calculus.Canonical
import SequentCalculus.Proofs.Calculus.Subformulas
import SequentCalculus.Proofs.Registry.Coverage
import SequentCalculus.Proofs.Console.Reports
import SequentCalculus.Proofs.Text.Lines
import SequentCalculus.Proofs.CommandLine.ExitStatus
import SequentCalculus.Proofs.Console.Agreement
import SequentCalculus.Proofs.Reading.Displays
import SequentCalculus.Proofs.Registry.Extension
import SequentCalculus.Proofs.Viewer.Boards
import SequentCalculus.Proofs.Viewer.Sessions
import SequentCalculus.Proofs.Calculus.Completion
import SequentCalculus.Proofs.Reading.Spacing
import SequentCalculus.Proofs.Registry.Printing
import SequentCalculus.Proofs.Registry.SearchOrder
import SequentCalculus.Proofs.Calculus.Observations
import SequentCalculus.Proofs.Calculus.TruthTables
import SequentCalculus.Proofs.Calculus.Typesetting
import SequentCalculus.Proofs.Registry.Overriding
import SequentCalculus.Proofs.Reading.Legibility
import SequentCalculus.Proofs.Registry.Loading
import SequentCalculus.Proofs.Console.Robustness
import SequentCalculus.Proofs.Text.Loose
