/-
# Operators

The operators of the constraint language.  Negation is the only operator on one
argument; the seven connectives join two.  Conjunction and disjunction are the
primitive connectives, and the other five are definable from these two and
negation:

  * `requires` is another name for `implies`, kept apart because it is written
    with a keyword of its own and read back as itself;
  * `excludes` says that not both arguments hold;
  * `equivalence` and `xor` say that the arguments agree or differ.

Three tables say what a connective is: the canonical keyword it is written with,
the priority by which a range of tokens is split, and the truth table it is
evaluated by.  A lower priority binds more loosely, so the operator of least
priority stands at the root of what is read.
-/

namespace Clausal

/-- A connective of two arguments. -/
inductive Connective where
  | equivalence
  | implies
  | requires
  | excludes
  | or
  | and
  | xor
deriving DecidableEq

namespace Connective

/-- All connectives, the loosest first. -/
def all : List Connective :=
  [.equivalence, .implies, .requires, .excludes, .or, .and, .xor]

/-- The canonical keyword. -/
def keyword : Connective → String
  | .equivalence => "EQUIVALENCE"
  | .implies => "IMPLIES"
  | .requires => "REQUIRES"
  | .excludes => "EXCLUDES"
  | .or => "OR"
  | .and => "AND"
  | .xor => "XOR"

/-- The binding strength; `implies`, `requires` and `excludes` share one. -/
def priority : Connective → Nat
  | .equivalence => 0
  | .implies | .requires | .excludes => 1
  | .or => 2
  | .and => 3
  | .xor => 4

/-- The truth table.  `requires` is another name for implication. -/
def eval : Connective → Bool → Bool → Bool
  | .equivalence, p, q => p == q
  | .implies, p, q | .requires, p, q => !p || q
  | .excludes, p, q => !(p && q)
  | .or, p, q => p || q
  | .and, p, q => p && q
  | .xor, p, q => p != q

/-- A connective other than conjunction and disjunction. -/
def isDerived : Connective → Bool
  | .or | .and => false
  | _ => true

theorem isDerived_iff {op : Connective} :
    op.isDerived = true ↔ op ≠ .or ∧ op ≠ .and := by
  cases op <;> decide

end Connective

/-! ## Operators of either arity

Where a text is read, negation stands among the connectives: it has a keyword and
a priority, above all of theirs.  In a formula it has a constructor of its own. -/

/-- An operator: negation, or a connective. -/
inductive Operator where
  | not
  | binary (connective : Connective)
deriving DecidableEq

namespace Operator

/-- The canonical keyword. -/
def keyword : Operator → String
  | .not => "NOT"
  | .binary c => c.keyword

/-- The keywords are all different, that of the negation among them. -/
theorem keyword_inj {op op' : Operator} : op.keyword = op'.keyword ↔ op = op' := by
  rcases op with _ | c <;> rcases op' with _ | d
  · decide
  · cases d <;> decide
  · cases c <;> decide
  · cases c <;> cases d <;> decide

/-- The binding strength; negation binds tighter than every connective. -/
def priority : Operator → Nat
  | .not => 5
  | .binary c => c.priority

/-- The number of arguments. -/
def arity : Operator → Nat
  | .not => 1
  | .binary _ => 2

def isUnary : Operator → Bool
  | .not => true
  | .binary _ => false

def isBinary : Operator → Bool
  | .not => false
  | .binary _ => true

end Operator

end Clausal
