import Clausal.Formula.Operands
import Clausal.Formula.Rendering
import Clausal.Parser
import Clausal.Proofs.Contexts
import Clausal.Proofs.Passes
import Clausal.Proofs.RoundTrip
import Clausal.Proofs.WrittenClauses
import Clausal.Proofs.VocabularyRuns
import Clausal.Proofs.OnePass
import Clausal.Proofs.Spelling
import Clausal.Proofs.Traversal
import Clausal.Proofs.Parenthesizing
import Clausal.Proofs.Evidence
import Clausal.Proofs.RuleOrder
import Clausal.Proofs.Normalizing
import Clausal.Proofs.Limits
import Clausal.Proofs.Negations
import Clausal.Proofs.Provenance
import Clausal.Proofs.Likeness
import Clausal.Proofs.Culprits
import Clausal.Proofs.Positions
import Clausal.Proofs.Dependence
import Clausal.Proofs.CompactForm
import Clausal.Proofs.SplitEvents
