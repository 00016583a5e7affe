/-
# The rules that the tokens of an expression keep

Each check looks for the first token, or pair of neighbours, that breaks a
rule, and the checks are made one after the other, so what is reported is the
first offence against the first broken rule.  There are eleven rules and ten
checks: the two rules on parentheses at operators are checked together, token by
token, so that an offence against the second of them is reported before a later
offence against the first.

Nothing is said here about which lists pass.  `Proofs.Validity` describes them
by a grammar, `Proofs.Breaches` says what each check finds, and
`Proofs.RuleOrder` in which order the rules are in effect reported.
-/
import Clausal.Rejection
import Clausal.Token

namespace Clausal

def Token.mention (t : Token) : Mention := ⟨t.word, t.position⟩

namespace Validation

/-! ## Checks

Most rules are about one token at an end, or about two neighbours; `atEnd` and
`inPair` are these two kinds of check, and a rule is one of them with its own
property and its own reason. -/

/-- The first two neighbours in a relation. -/
def firstPair? (r : Token → Token → Bool) : List Token → Option (Token × Token)
  | a :: b :: rest => if r a b then some (a, b) else firstPair? r (b :: rest)
  | _ => none

/-- A check gives the reason for which it refuses the tokens, if it does. -/
abbrev Check := List Token → Option Rejection

/-- There is a token. -/
def nonempty : Check := fun ts =>
  if ts.isEmpty then some .emptyExpression else none

/-- As many parentheses close as open, and none before its partner opens. -/
def balanced : Check := fun ts =>
  if Token.openingCount ts ≠ Token.closingCount ts || Token.closesEarly 0 ts then
    some (.unbalanced (Token.openingCount ts) (Token.closingCount ts))
  else none

/-- No word consists of parentheses. -/
def noEmptyParentheses : Check := fun ts =>
  (ts.find? Token.isEmpty).map fun t => .emptyParentheses t.position

/-- A token at an end of the expression is misplaced if it has the property. -/
def atEnd (reason : Misplacement) (p : Token → Bool) (t : Option Token) : Option Rejection :=
  (t.filter p).map fun t => .misplaced reason [t.mention]

/-- Two neighbours are misplaced if they are in the relation. -/
def inPair (reason : Misplacement) (r : Token → Token → Bool) : Check := fun ts =>
  (firstPair? r ts).map fun (a, b) => .misplaced reason [a.mention, b.mention]

/-- No connective comes first or last. -/
def noBinaryAtEnds : Check := fun ts =>
  (atEnd .leadingBinary Token.isBinary ts.head?).or
    (atEnd .trailingBinary Token.isBinary ts.getLast?)

/-- No negation comes last. -/
def noUnaryLast : Check := fun ts => atEnd .trailingUnary Token.isUnary ts.getLast?

/-- No two connectives are neighbours. -/
def noAdjacentBinary : Check :=
  inPair .adjacentBinary fun a b => a.isBinary && b.isBinary

/-- No negation stands before a connective. -/
def noUnaryBeforeBinary : Check :=
  inPair .unaryBeforeBinary fun a b => a.isUnary && b.isBinary

/-- No two operands are neighbours. -/
def noAdjacentOperands : Check := fun ts =>
  (firstPair? (fun a b => a.isOperand && b.isOperand) ts).map fun (a, b) =>
    .adjacentOperands a.mention b.mention

/-- What is wrong with the parentheses at an operator. -/
def parenthesisFault? (t : Token) : Option Misplacement :=
  if t.isBinary && t.hasParentheses then some .parenthesizedBinary
  else if t.isUnary && t.closing > 0 then some .unaryBeforeClosing
  else none

/-- No parenthesis is attached to a connective, and none closes behind a negation. -/
def noParenthesizedOperator : Check := fun ts =>
  ts.findSome? fun t => (parenthesisFault? t).map fun reason => .misplaced reason [t.mention]

/-- No negation stands right behind an operand. -/
def noUnaryAfterOperand : Check :=
  inPair .unaryAfterOperand fun a b => a.isOperand && b.isUnary

/-- All checks, in the order in which they are made. -/
def checks : List Check :=
  [nonempty, balanced, noEmptyParentheses, noBinaryAtEnds, noUnaryLast, noAdjacentBinary,
    noUnaryBeforeBinary, noAdjacentOperands, noParenthesizedOperator, noUnaryAfterOperand]

end Validation

/-- The reason to refuse the tokens, if there is one. -/
def rejection? (ts : List Token) : Option Rejection :=
  Validation.checks.findSome? fun check => check ts

end Clausal
