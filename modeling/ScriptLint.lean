import ScriptLint.Main
import ScriptLint.Proofs.Batches
import ScriptLint.Proofs.BlockComments
import ScriptLint.Proofs.Brackets
import ScriptLint.Proofs.DirectiveBodies
import ScriptLint.Proofs.Documents
import ScriptLint.Proofs.EditorReports
import ScriptLint.Proofs.Environments
import ScriptLint.Proofs.Initialization
import ScriptLint.Proofs.Knobs
import ScriptLint.Proofs.Lexemes
import ScriptLint.Proofs.LineBlanks
import ScriptLint.Proofs.Locality
import ScriptLint.Proofs.Lockstep
import ScriptLint.Proofs.LongLines
import ScriptLint.Proofs.MissingFlags
import ScriptLint.Proofs.Numbers
import ScriptLint.Proofs.Patterns
import ScriptLint.Proofs.Regions
import ScriptLint.Proofs.Resolution
import ScriptLint.Proofs.Shift
import ScriptLint.Proofs.Slashes
import ScriptLint.Proofs.Slices
import ScriptLint.Proofs.Strings
import ScriptLint.Proofs.Switches
import ScriptLint.Proofs.TemplateText
import ScriptLint.Proofs.Terminators
import ScriptLint.Proofs.Tiling
import ScriptLint.Proofs.Totality
