import StringTransform.Formula.Choice
import StringTransform.Pattern.Enumeration
import StringTransform.Pattern.Reverse
import StringTransform.Token.Catalogue
import StringTransform.Token.Combine
import StringTransform.Proofs.Condition.Duality
import StringTransform.Proofs.Extraction.Joining
import StringTransform.Proofs.Formula.Limits
import StringTransform.Proofs.Formula.Variables
import StringTransform.Proofs.Grammar.CodeEscapes
import StringTransform.Proofs.Grammar.EscapeSets
import StringTransform.Proofs.Grammar.Extensions
import StringTransform.Proofs.Grammar.Shapes
import StringTransform.Proofs.Grammar.Writing
import StringTransform.Proofs.Pattern.Mirroring
import StringTransform.Proofs.Pattern.PostOrder
import StringTransform.Proofs.Pattern.Suffixes
import StringTransform.Proofs.Position.Counting
import StringTransform.Proofs.Position.Labels
import StringTransform.Proofs.Position.Meetings
import StringTransform.Proofs.Position.Successors
import StringTransform.Proofs.Scan.Catalogue
import StringTransform.Proofs.Scan.Greedy
import StringTransform.Proofs.Strict.Descent
import StringTransform.Proofs.Strict.Evaluation
import StringTransform.Proofs.Token.Associativity
