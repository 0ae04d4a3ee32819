import Eel.CommandLine
import Eel.Main
import Eel.Proofs.Merging
import Eel.Proofs.Scan
import Eel.Proofs.Replay
import Eel.Proofs.Gapless
import Eel.Proofs.SinglePass
import Eel.Proofs.Lines
import Eel.Proofs.Rewriting
import Eel.Proofs.Folds
import Eel.Proofs.Nesting
import Eel.Proofs.Stopping
import Eel.Proofs.ControlFlow
import Eel.Proofs.Variables
import Eel.Proofs.Resolution
import Eel.Proofs.RoundTrip
import Eel.Proofs.Comments
import Eel.Proofs.Twins
import Eel.Proofs.OneLine
import Eel.Proofs.RawLog
import Eel.Proofs.Reporting
import Eel.Proofs.Numerals
import Eel.Proofs.Rounding
import Eel.Proofs.Doubles
import Eel.Proofs.NumberText
import Eel.Proofs.References
import Eel.Proofs.SourceMap
import Eel.Proofs.Flattening
import Eel.Proofs.Gaps
import Eel.Proofs.Registries
import Eel.Proofs.Sums
import Eel.Proofs.WholeNumbers
