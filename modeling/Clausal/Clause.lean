/-
# Clauses

What a formula says, as a conjunction of disjunctions of literals.  A clause is
a list of literals and holds if one of them does; a clause list holds if all its
clauses do.  So the empty clause never holds and the empty list always does,
though neither arises from a formula.

Clauses are read off a formula in conjunctive normal form from left to right,
and nothing is merged or dropped on the way: literals may repeat, and a clause
may always hold.  Reading is partial, `clause?` and `clauseList?`, and has an
answer exactly on the formulas of the two forms; `clauses` brings a formula into
conjunctive normal form first, unless it is in it already, and therefore always
has one.  `Proofs.ClauseLists` says what the list holds, and that its value is
the value of the formula.

`clauseTexts` are the clauses as they are handed on, each literal written with a
dash in front of the name if it is negated.
-/
import Clausal.Formula.Conjunctive

namespace Clausal

/-- A disjunction of literals. -/
abbrev Clause := List Literal

namespace Clause

/-- Some literal holds. -/
def eval (v : String → Bool) (c : Clause) : Bool := c.any (Literal.eval v)

/-- The written forms of the literals. -/
def render (c : Clause) : List String := c.map Literal.render

/-- All clauses hold. -/
def evalAll (v : String → Bool) (cs : List Clause) : Bool := cs.all (Clause.eval v)

@[simp] theorem eval_append (v : String → Bool) (c d : Clause) :
    eval v (c ++ d) = (eval v c || eval v d) := by
  simp [eval]

@[simp] theorem evalAll_append (v : String → Bool) (cs ds : List Clause) :
    evalAll v (cs ++ ds) = (evalAll v cs && evalAll v ds) := by
  simp [evalAll]

end Clause

namespace Formula

/-! ## The clauses of a formula

A node of the wrong kind anywhere in the formula leaves the whole without
clauses.  The equations at a disjunction and at a conjunction are what later
inductions go through. -/

/-- The literals of a formula that is a clause. -/
def clause? : Formula → Option Clause
  | .binary .or f g _ => do return (← f.clause?) ++ (← g.clause?)
  | f => f.literal?.map fun l => [l]

/-- The clauses of a formula in conjunctive normal form. -/
def clauseList? : Formula → Option (List Clause)
  | .binary .and f g _ => do return (← f.clauseList?) ++ (← g.clauseList?)
  | f => f.clause?.map fun c => [c]

theorem isSome_clause? (f : Formula) : f.clause?.isSome = f.isClause := by
  fun_induction clause? f with
  | case1 f g _ ihf ihg =>
      rw [isClause, ← ihf, ← ihg]
      cases f.clause? <;> cases g.clause? <;> rfl
  | case2 f h =>
      rw [isClause, Option.isSome_map]
      exact h

theorem isSome_clauseList? (f : Formula) : f.clauseList?.isSome = f.isCnf := by
  fun_induction clauseList? f with
  | case1 f g _ ihf ihg =>
      rw [isCnf, ← ihf, ← ihg]
      cases f.clauseList? <;> cases g.clauseList? <;> rfl
  | case2 f h =>
      rw [isCnf, Option.isSome_map, isSome_clause?]
      exact h

theorem clause?_or_eq_some {f g : Formula} {o : Option Origin} {c : Clause} :
    (Formula.binary .or f g o).clause? = some c ↔
      ∃ a b, f.clause? = some a ∧ g.clause? = some b ∧ a ++ b = c := by
  rw [clause?]
  cases f.clause? <;> cases g.clause? <;> simp

theorem clauseList?_and_eq_some {f g : Formula} {o : Option Origin} {cs : List Clause} :
    (Formula.binary .and f g o).clauseList? = some cs ↔
      ∃ as bs, f.clauseList? = some as ∧ g.clauseList? = some bs ∧ as ++ bs = cs := by
  rw [clauseList?]
  cases f.clauseList? <;> cases g.clauseList? <;> simp

theorem clauseList?_of_conjuncts? {f : Formula} (h : f.conjuncts? = none) :
    f.clauseList? = f.clause?.map fun c => [c] := by
  fun_cases clauseList? f with
  | case1 => cases h
  | case2 => rfl

/-- The formula itself if it is in conjunctive normal form, else what it is
brought to. -/
def asCnf (f : Formula) : Formula := if f.isCnf then f else f.toCnf

/-- The clauses of a formula. -/
def clauses (f : Formula) : List Clause := f.asCnf.clauseList?.getD []

/-- The clauses of a formula as they are written for a solver. -/
def clauseTexts (f : Formula) : List (List String) := f.clauses.map Clause.render

end Formula

end Clausal
