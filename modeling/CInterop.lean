import CInterop.Binding.Source
import CInterop.Command
import CInterop.Document.Printer
import CInterop.Document.Reader
import CInterop.Extraction
import CInterop.FrontEnd.Reader
import CInterop.Macro.Expr.Render
import CInterop.Main
import CInterop.Mapping
import CInterop.Policy.Reader
import CInterop.Proofs.Json.Lexical
import CInterop.Proofs.Json.RoundTrip
import CInterop.Proofs.Json.Parsed
import CInterop.Proofs.Document.RoundTrip
import CInterop.Proofs.Document.Totality
import CInterop.Proofs.Success
import CInterop.Proofs.Macro.Grammar
import CInterop.Proofs.Macro.Literal
import CInterop.Proofs.Macro.Value
import CInterop.Proofs.Macro.Partition
import CInterop.Proofs.Macro.Scanning
import CInterop.Proofs.Macro.Rendering
import CInterop.Proofs.Macro.Joining
import CInterop.Proofs.Macro.Signs
import CInterop.Proofs.Mapping.Spelling
import CInterop.Proofs.Mapping.TypeUse
import CInterop.Proofs.Mapping.Closure
import CInterop.Proofs.Mapping.Events
import CInterop.Proofs.Mapping.Accounting
import CInterop.Proofs.Extraction.Growth
import CInterop.Proofs.Extraction.Resolution
import CInterop.Proofs.Extraction.Orderly
import CInterop.Proofs.Extraction.Constant
import CInterop.Proofs.Extraction.Dangling
import CInterop.Proofs.Mapping.Totality
import CInterop.Proofs.Mapping.Unfolding
import CInterop.Proofs.Mapping.Decay
import CInterop.Proofs.Mapping.Helpers
import CInterop.Proofs.Number.EnglishWords
import CInterop.Proofs.Mapping.HelperNames
import CInterop.Proofs.Mapping.Layout
import CInterop.Proofs.Mapping.SizeAgreement
import CInterop.Proofs.Extraction.Rollback
import CInterop.Proofs.Extraction.Survival
import CInterop.Proofs.Extraction.Constancy
import CInterop.Proofs.Command
import CInterop.Proofs.Extraction.Origins
import CInterop.Proofs.Extraction.Signature
import CInterop.Proofs.Mapping.Mention
import CInterop.Proofs.Mapping.Padding
import CInterop.Proofs.Mapping.Globals
import CInterop.Proofs.Mapping.Buffers
import CInterop.Proofs.Mapping.Precedence
import CInterop.Proofs.Extraction.TypedefChain
import CInterop.Proofs.Extraction.Ignoring
import CInterop.Proofs.Extraction.Structure
import CInterop.Proofs.Extraction.Ledger
import CInterop.Proofs.Extraction.Strictness
import CInterop.Proofs.Extraction.TagNames
import CInterop.Proofs.Extraction.FieldBounds
import CInterop.Proofs.Mapping.IgnoredUses
import CInterop.Proofs.Mapping.Enumerations
import CInterop.Proofs.Binding.Source
import CInterop.Proofs.Extraction.Remaining
import CInterop.Proofs.Extraction.References
import CInterop.Proofs.Extraction.Entering
import CInterop.Proofs.Extraction.Termination
