import Scriptlet.Files.Session
import Scriptlet.Main
import Scriptlet.Proofs.Grammar
import Scriptlet.Proofs.Translation
import Scriptlet.Proofs.BlockStructure
import Scriptlet.Proofs.Reachable
import Scriptlet.Proofs.Safety
import Scriptlet.Proofs.ModeMarkers
import Scriptlet.Proofs.Transparency
import Scriptlet.Proofs.Variables
import Scriptlet.Proofs.Typing
import Scriptlet.Proofs.Balance
import Scriptlet.Proofs.Interpretation
import Scriptlet.Proofs.Insulation
import Scriptlet.Proofs.Decoding
import Scriptlet.Proofs.MaximalMunch
import Scriptlet.Proofs.Colouring
import Scriptlet.Proofs.Sequencing
import Scriptlet.Proofs.ErrorPlaces
import Scriptlet.Proofs.DeltaEncoding
import Scriptlet.Proofs.Newlines
import Scriptlet.Proofs.Layout
import Scriptlet.Proofs.Resumption
import Scriptlet.Proofs.Strictness
import Scriptlet.Proofs.Listings
import Scriptlet.Proofs.Literals
import Scriptlet.Proofs.Operands
import Scriptlet.Proofs.Accumulation
import Scriptlet.Proofs.HandlerCalls
import Scriptlet.Proofs.Vocabulary
import Scriptlet.Proofs.Logging
import Scriptlet.Proofs.Uncoloured
import Scriptlet.Proofs.Summaries
import Scriptlet.Proofs.BlockEnds
import Scriptlet.Proofs.Coverage
import Scriptlet.Proofs.Differences
import Scriptlet.Proofs.ScannerCalls
import Scriptlet.Proofs.Cursor
import Scriptlet.Proofs.Integers
