/-
# Formulas over named operands

A formula is an operand, a negation, or two formulas under a connective.  A node
may carry the origin it was read from: its level in the tree and the position of
its token.  What rewriting makes anew carries none, and what it keeps keeps its
own; which is which is a matter of the passes, and is proved there.

Origins are a record of where a node came from and no part of what it says.  Two
formulas are alike when they agree once all origins are dropped, and what can be
asked of a formula here depends on nothing else, `origin?` apart.  `eq_of_bare`
is how this is used: an observer that does not see origins has the same answer
for alike formulas.

The parts of a node are given by functions that may have no answer rather than
by projections, since a formula is taken apart here as any reader of the tree
may take it apart, without knowing the node before.
-/
import Clausal.Literal
import Clausal.Operator

namespace Clausal

/-- Where a node was read: its depth below the root and its token. -/
structure Origin where
  level : Nat
  position : Nat
deriving DecidableEq

/-- A formula: an operand, a negation, or two formulas under a connective. -/
inductive Formula where
  | operand (name : String) (origin : Option Origin)
  | not (body : Formula) (origin : Option Origin)
  | binary (op : Connective) (left right : Formula) (origin : Option Origin)
deriving DecidableEq

namespace Formula

/-! ## Formulas without an origin

The formulas that the passes build: `var`, `neg` and `join` are the constructors
with no origin filled in, and `bare` is the map onto what they generate. -/

def var (name : String) : Formula := .operand name none

def neg (f : Formula) : Formula := .not f none

def join (op : Connective) (f g : Formula) : Formula := .binary op f g none

def conj (f g : Formula) : Formula := join .and f g

def disj (f g : Formula) : Formula := join .or f g

/-- The same formula with every origin dropped. -/
def bare : Formula → Formula
  | .operand name _ => var name
  | .not f _ => neg f.bare
  | .binary op f g _ => join op f.bare g.bare

/-- Agreement up to origins. -/
def Alike (f g : Formula) : Prop := f.bare = g.bare

instance : DecidableRel Alike := fun f g => inferInstanceAs (Decidable (f.bare = g.bare))

theorem Alike.refl (f : Formula) : f.Alike f := rfl

theorem Alike.symm {f g : Formula} (h : f.Alike g) : g.Alike f := Eq.symm h

theorem Alike.trans {f g k : Formula} (h : f.Alike g) (h' : g.Alike k) : f.Alike k :=
  Eq.trans h h'

/-- What has the same answer without origins has the same answer for alike formulas. -/
theorem Alike.eq_of_bare {α : Sort u} {observe : Formula → α} {f g : Formula}
    (blind : ∀ k : Formula, observe k.bare = observe k) (h : f.Alike g) :
    observe f = observe g := by
  rw [← blind f, h, blind g]

/-! ## The parts of a node

A negation has a left argument and no right one.  `subformulas` lists a node
before its arguments, and the left argument before the right: the order in which
the tree is walked everywhere in this development. -/

def origin? : Formula → Option Origin
  | .operand _ o | .not _ o | .binary _ _ _ o => o

/-- The operator at the root. -/
def operator? : Formula → Option Operator
  | .operand _ _ => none
  | .not _ _ => some .not
  | .binary op _ _ _ => some (.binary op)

/-- The name, of a formula that is an operand. -/
def operand? : Formula → Option String
  | .operand name _ => some name
  | _ => none

/-- The left argument, or the only one. -/
def left? : Formula → Option Formula
  | .operand _ _ => none
  | .not f _ => some f
  | .binary _ f _ _ => some f

/-- The right argument of a connective. -/
def right? : Formula → Option Formula
  | .binary _ _ g _ => some g
  | _ => none

def isOperand (f : Formula) : Bool := f.operand?.isSome

def isBinary : Formula → Bool
  | .binary _ _ _ _ => true
  | _ => false

/-- The literal that a formula is, if it is an operand or its negation. -/
def literal? : Formula → Option Literal
  | .operand name _ => some (.positive name)
  | .not f _ => f.operand?.map .negative
  | .binary _ _ _ _ => none

/-- The formula and all below it, a node before its arguments. -/
def subformulas : Formula → List Formula
  | f@(.operand _ _) => [f]
  | f@(.not g _) => f :: g.subformulas
  | f@(.binary _ g k _) => f :: (g.subformulas ++ k.subformulas)

/-! ## Measures

Leaves are counted with repetition.  A single operand has height one. -/

/-- The number of operand leaves. -/
def leafCount : Formula → Nat
  | .operand _ _ => 1
  | .not f _ => f.leafCount
  | .binary _ f g _ => f.leafCount + g.leafCount

/-- The number of levels; a single operand has one. -/
def height : Formula → Nat
  | .operand _ _ => 1
  | .not f _ => f.height + 1
  | .binary _ f g _ => max f.height g.height + 1

/-! ## Meaning

A valuation gives every name a value, used or not; which names a formula depends
on is said in `Formula.Operands`. -/

/-- The value of a formula, given the value of every operand. -/
def eval (v : String → Bool) : Formula → Bool
  | .operand name _ => v name
  | .not f _ => !f.eval v
  | .binary op f g _ => op.eval (f.eval v) (g.eval v)

@[simp] theorem eval_var (v : String → Bool) (name : String) : (var name).eval v = v name := rfl

@[simp] theorem eval_neg (v : String → Bool) (f : Formula) : (neg f).eval v = !f.eval v := rfl

@[simp] theorem eval_join (v : String → Bool) (op : Connective) (f g : Formula) :
    (join op f g).eval v = op.eval (f.eval v) (g.eval v) := rfl

@[simp] theorem eval_conj (v : String → Bool) (f g : Formula) :
    (conj f g).eval v = (f.eval v && g.eval v) := rfl

@[simp] theorem eval_disj (v : String → Bool) (f g : Formula) :
    (disj f g).eval v = (f.eval v || g.eval v) := rfl

@[simp] theorem eval_bare (v : String → Bool) (f : Formula) : f.bare.eval v = f.eval v := by
  induction f with
  | operand => rfl
  | not f _ ih => simp [bare, eval, ih]
  | binary op f g _ ihf ihg => simp [bare, eval, ihf, ihg]

end Formula

end Clausal
