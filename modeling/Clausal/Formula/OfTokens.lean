/-
# The formula of a run of tokens

A run is split at the operator that binds most loosely: one of least depth,
among those one of least priority, and of these the first.  What stands before
and behind a connective are its arguments, so equal priorities group to the
right; a negation has to come first and covers the rest.  A lone operand, an
operand behind a negation, and two operands round a connective need no split,
and their parentheses are not looked at.

The rules of well-formedness are not assumed here.  Any list of tokens is
accepted or refused with the range in which no tree was found; that a list which
keeps the rules is never refused is proved in `Proofs.TreeBuilding`.

A node's origin is its level in the tree and the position that its token says
it has; but a connective at which a run was split has the index of its token in
the list instead, which is the same number where tokens are numbered in order.
`Proofs.Positions` says when the difference can be seen.
-/
import Clausal.Formula
import Clausal.Token
import Clausal.Traced

namespace Clausal

/-! ## The loosest operator

Depth comes before priority: there are six priorities, so the rank `6 * depth +
priority` orders operators by depth and, at one depth, by priority.  The cut at
the first operator of least rank is found from the right, where a tie goes to
the operator further left. -/

/-- A run of tokens, cut at an operator. -/
structure Split where
  before : List Nested
  pivot : Nested
  op : Operator
  after : List Nested

/-- The looseness of an operator: its depth, then its priority.  Less is looser. -/
def Nested.rank (n : Nested) (op : Operator) : Nat := 6 * n.depth + op.priority

/-- Cut a run at the first operator of least rank. -/
def Split.loosest? : List Nested → Option Split
  | [] => none
  | n :: rest =>
    match n.token.operator?, loosest? rest with
    | none, none => none
    | none, some s => some { s with before := n :: s.before }
    | some op, none => some ⟨[], n, op, rest⟩
    | some op, some s =>
      if n.rank op ≤ s.pivot.rank s.op then some ⟨[], n, op, rest⟩
      else some { s with before := n :: s.before }

theorem Split.eq_of_loosest? {ns : List Nested} {s : Split} (h : loosest? ns = some s) :
    ns = s.before ++ s.pivot :: s.after := by
  fun_induction loosest? ns generalizing s with
  | case1 => cases h
  | case2 => cases h
  | case3 n rest _ t _ ih => cases h; simp [ih ‹_›]
  | case4 => cases h; rfl
  | case5 => cases h; rfl
  | case6 n rest op _ t _ _ ih => cases h; simp [ih ‹_›]

theorem Split.length_before_lt {ns : List Nested} {s : Split} (h : loosest? ns = some s) :
    s.before.length < ns.length := by
  rw [eq_of_loosest? h, List.length_append, List.length_cons]
  omega

theorem Split.length_after_lt {ns : List Nested} {s : Split} (h : loosest? ns = some s) :
    s.after.length < ns.length := by
  rw [eq_of_loosest? h, List.length_append, List.length_cons]
  omega

/-! ## The tree

`start` is the index of the first token of the run in the whole list, so that
the ranges in events and refusals, and the origin of a split, can be given as
indices there.  A split is reported before its parts are built. -/

namespace Formula

/-- The formula of up to three tokens that are one as they stand. -/
def simple? (level : Nat) : List Token → Option Formula
  | [a] =>
    match a.kind with
    | .operand x => some (.operand x (some ⟨level, a.position⟩))
    | _ => none
  | [n, a] =>
    match n.kind, a.kind with
    | .operator .not, .operand x =>
      some (.not (.operand x (some ⟨level + 1, a.position⟩)) (some ⟨level, n.position⟩))
    | _, _ => none
  | [a, c, b] =>
    match a.kind, c.kind, b.kind with
    | .operand x, .operator (.binary op), .operand y =>
      some (.binary op (.operand x (some ⟨level + 1, a.position⟩))
        (.operand y (some ⟨level + 1, b.position⟩)) (some ⟨level, c.position⟩))
    | _, _, _ => none
  | _ => none

/-- The formula of the tokens that come after the first `start` ones, with its
root at a level.  There is none if there are no tokens.  The part before a
connective is built, and may be refused, before the part behind it. -/
def build (start level : Nat) (ns : List Nested) : Traced (Option Formula) :=
  let refuse (obstacle : Obstacle) : Traced (Option Formula) :=
    .reject (.unbuildable start (start + ns.length) obstacle)
  if ns.isEmpty then pure none
  else
    match simple? level (ns.map Nested.token) with
    | some f => pure (some f)
    | none =>
      if ns.length = 1 then refuse .operandExpected
      else
        match _found : Split.loosest? ns with
        | none => refuse .noOperator
        | some s => do
          let index := start + s.before.length
          Traced.emit (.split start (start + ns.length) s.pivot.token.word index)
          match s.op with
          | .binary op =>
            let left ← build start (level + 1) s.before
            let right ← build (index + 1) (level + 1) s.after
            match left, right with
            | some f, some g => return some (.binary op f g (some ⟨level, index⟩))
            | _, _ => refuse .missingArgument
          | .not =>
            if s.before.isEmpty then
              match ← build (index + 1) (level + 1) s.after with
              | some f => return some (.not f (some ⟨level, s.pivot.token.position⟩))
              | none => refuse .missingBody
            else refuse .operatorInside
termination_by ns.length
decreasing_by
  · exact Split.length_before_lt _found
  · exact Split.length_after_lt _found
  · exact Split.length_after_lt _found

/-- The formula of a list of tokens. -/
def ofTokens (ts : List Token) : Traced Formula := do
  match ← build 0 0 (Token.nest 0 ts) with
  | some f => return f
  | none => Traced.reject (.unbuildable 0 ts.length .noTokens)

end Formula

end Clausal
