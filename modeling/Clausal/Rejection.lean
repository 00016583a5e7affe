/-
# Why a text is no formula

Every way in which a text can be refused, with the tokens it is about: a token
is mentioned by its word, parentheses included, and its position.  `message` is
the wording of each reason, with the words in quotes.

A reason is data and not a text, so that what it claims of the tokens can be
stated and proved: `Proofs.Evidence` ties each reason to the words it mentions,
and to the number of parentheses in the text itself.

The reasons come from three places.  The rules of well-formedness give the first
five, the builder of trees gives `unbuildable`, and a reader with limits gives
`tooComplex`.
-/
import Clausal.Text.Writing

namespace Clausal

/-! ## The kinds of faults

An operator can stand in the wrong place, a run of tokens can have no tree, and
a limit can be passed.  Each kind has its own wording. -/

/-- An operator where it cannot stand. -/
inductive Misplacement where
  | leadingBinary
  | trailingBinary
  | trailingUnary
  | adjacentBinary
  | unaryBeforeBinary
  | parenthesizedBinary
  | unaryBeforeClosing
  | unaryAfterOperand
deriving DecidableEq

def Misplacement.message : Misplacement → String
  | .leadingBinary => "binary operator at the start of the expression"
  | .trailingBinary => "binary operator at the end of the expression"
  | .trailingUnary => "unary operator at the end of the expression"
  | .adjacentBinary => "two adjacent binary operators"
  | .unaryBeforeBinary => "unary operator followed by a binary operator"
  | .parenthesizedBinary => "binary operator with attached parenthesis"
  | .unaryBeforeClosing => "unary operator followed by a closing parenthesis"
  | .unaryAfterOperand => "unary operator directly after an operand"

/-- Why a run of tokens has no tree. -/
inductive Obstacle where
  | noTokens
  | operandExpected
  | noOperator
  | missingArgument
  | missingBody
  | operatorInside
deriving DecidableEq

def Obstacle.message : Obstacle → String
  | .noTokens => "no tokens to build a tree from"
  | .operandExpected => "operator where an operand is expected"
  | .noOperator => "no operator to split at"
  | .missingArgument => "binary operator without two operands"
  | .missingBody => "unary operator without operand"
  | .operatorInside => "unary operator preceded by other tokens"

/-- What a limit is set on. -/
inductive Measure where
  | tokenCount
  | depth
deriving DecidableEq

def Measure.message : Measure → String
  | .tokenCount => "token count"
  | .depth => "parenthesis depth"

/-! ## Rejections

`unbalanced` gives the number of parentheses of either kind.  The two may be
equal, when one closes before its partner opens. -/

/-- A word at its position. -/
structure Mention where
  word : String
  position : Nat
deriving DecidableEq

/-- Words in quotes, then their positions. -/
def Mention.list (ms : List Mention) : String :=
  Text.quoteAll (ms.map Mention.word) ++ " at " ++ Text.numbers (ms.map Mention.position)

/-- The reason why a text is refused. -/
inductive Rejection where
  /-- There is no token. -/
  | emptyExpression
  /-- The parentheses do not match; their numbers may still agree. -/
  | unbalanced (opening closing : Nat)
  /-- A word consists of parentheses. -/
  | emptyParentheses (position : Nat)
  | misplaced (reason : Misplacement) (tokens : List Mention)
  | adjacentOperands (left right : Mention)
  /-- The tokens from `first` on and before `last` have no tree. -/
  | unbuildable (first last : Nat) (obstacle : Obstacle)
  | tooComplex (measure : Measure) (actual limit : Nat)
deriving DecidableEq

def Rejection.message : Rejection → String
  | .emptyExpression => "empty expression"
  | .unbalanced opening closing =>
    "unbalanced parentheses: " ++ opening.repr ++ " opening and " ++ closing.repr ++ " closing"
  | .emptyParentheses position => "empty parentheses at token " ++ position.repr
  | .misplaced reason tokens => reason.message ++ ": " ++ Mention.list tokens
  | .adjacentOperands left right =>
    "missing operator between operands " ++ Mention.list [left, right]
  | .unbuildable first last obstacle =>
    "cannot build tree for tokens " ++ first.repr ++ ".." ++ last.repr ++ ": " ++
      obstacle.message
  | .tooComplex measure actual limit =>
    "expression too complex: " ++ measure.message ++ " is " ++ actual.repr ++ ", limit is " ++
      limit.repr

end Clausal
