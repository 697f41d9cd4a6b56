import Declarative.Main
import Declarative.Proofs.DeclarationOrder
import Declarative.Proofs.Diagnostic.EditedLine
import Declarative.Proofs.Diagnostic.Expectation
import Declarative.Proofs.Diagnostic.InRange
import Declarative.Proofs.Diagnostic.Meant
import Declarative.Proofs.Diagnostic.Order
import Declarative.Proofs.Diagnostic.Snippet
import Declarative.Proofs.Diagnostic.Suggestions
import Declarative.Proofs.Diagnostic.Verdict
import Declarative.Proofs.Document.Determined
import Declarative.Proofs.Document.Literals
import Declarative.Proofs.Hiding
import Declarative.Proofs.Lines
import Declarative.Proofs.Merge
import Declarative.Proofs.Nesting
import Declarative.Proofs.Outline
import Declarative.Proofs.Outward
import Declarative.Proofs.Overloads
import Declarative.Proofs.Parser.Budget
import Declarative.Proofs.Parser.Coverage
import Declarative.Proofs.Parser.ErrorStatements
import Declarative.Proofs.Parser.GivingUp
import Declarative.Proofs.Parser.Isolation
import Declarative.Proofs.Parser.Layout
import Declarative.Proofs.Parser.Progress
import Declarative.Proofs.Parser.Renaming
import Declarative.Proofs.Parser.Runs
import Declarative.Proofs.Reasons
import Declarative.Proofs.Scoping
import Declarative.Proofs.Siblings
import Declarative.Proofs.Source.Offset
import Declarative.Proofs.Strictness
import Declarative.Proofs.Token.Comment
import Declarative.Proofs.Token.Joined
import Declarative.Proofs.Token.Lexeme
import Declarative.Proofs.Token.Lossless
import Declarative.Proofs.Token.Numeral
import Declarative.Proofs.Schema.Calls
import Declarative.Proofs.Schema.Indexed
