import BlockScript.Main
import BlockScript.Proofs.Parsing
import BlockScript.Proofs.Exact
import BlockScript.Proofs.Ceiling
import BlockScript.Proofs.Parts
import BlockScript.Proofs.Growth
import BlockScript.Proofs.WellFormed
import BlockScript.Proofs.Lexemes
import BlockScript.Proofs.Refusals
import BlockScript.Proofs.Origins
import BlockScript.Proofs.Frame
import BlockScript.Proofs.Locality
import BlockScript.Proofs.Reordering
import BlockScript.Proofs.Documents
import BlockScript.Proofs.RoundTrip
import BlockScript.Proofs.Blanks
import BlockScript.Proofs.StackBounds
import BlockScript.Proofs.Edits
import BlockScript.Proofs.Succession
import BlockScript.Proofs.AnswerBound
import BlockScript.Proofs.Progression
import BlockScript.Proofs.AllOrNothing
import BlockScript.Proofs.Marks
import BlockScript.Proofs.Iteration
import BlockScript.Proofs.Places
import BlockScript.Proofs.Exchange
import BlockScript.Proofs.Layouts
import BlockScript.Proofs.Choices
import BlockScript.Proofs.Filling
import BlockScript.Proofs.Declarations
import BlockScript.Proofs.ReportDocuments
import BlockScript.Proofs.PlainLines
import BlockScript.Proofs.BindingOrder
import BlockScript.Proofs.Moves
