import SlotTree.Main
import SlotTree.Proofs.Source.Nested
import SlotTree.Proofs.Tree.Typed
import SlotTree.Proofs.Tree.Edits
import SlotTree.Proofs.Tree.Proper
import SlotTree.Proofs.Tree.Declared
import SlotTree.Proofs.Token.Extent
import SlotTree.Proofs.Token.Cover
import SlotTree.Proofs.Builtin.Unmentioned
import SlotTree.Proofs.Token.Layout
import SlotTree.Proofs.Reading.Located
import SlotTree.Proofs.Token.LineLocal
import SlotTree.Proofs.Token.Seam
import SlotTree.Proofs.Reading.Relocate
import SlotTree.Proofs.Source.Compose
import SlotTree.Proofs.Ty.Signature
import SlotTree.Proofs.Tree.Refused
import SlotTree.Proofs.Tree.CallBinding
import SlotTree.Proofs.Reading.Nesting
import SlotTree.Proofs.Ty.Supplied
import SlotTree.Proofs.Token.Quotation
import SlotTree.Proofs.Source.WholeNumber
import SlotTree.Proofs.Source.Annotation
import SlotTree.Proofs.Reading.WholeConstant
import SlotTree.Proofs.Token.BlankLine
import SlotTree.Proofs.Token.LineEnds
import SlotTree.Proofs.Text.LineLookup
import SlotTree.Proofs.Tree.Document
import SlotTree.Proofs.Source.Formless
import SlotTree.Proofs.Source.StatementLines
import SlotTree.Proofs.Source.Canonical
import SlotTree.Proofs.Token.ClosingQuote
import SlotTree.Proofs.Reading.Loops
import SlotTree.Proofs.Fault.Caret
import SlotTree.Proofs.Fault.Reported
