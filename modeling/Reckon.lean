import Reckon.Main
import Reckon.Proofs.Checked
import Reckon.Proofs.Commands
import Reckon.Proofs.Concatenation
import Reckon.Proofs.Cursors
import Reckon.Proofs.Faithful
import Reckon.Proofs.Integers
import Reckon.Proofs.Literals
import Reckon.Proofs.Mismatches
import Reckon.Proofs.OpenComment
import Reckon.Proofs.Parentheses
import Reckon.Proofs.Printing
import Reckon.Proofs.Quoting
import Reckon.Proofs.Repetition
import Reckon.Proofs.SourceOrder
import Reckon.Proofs.Spacing
import Reckon.Proofs.Truncation
