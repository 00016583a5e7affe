/-
# The operands of a formula, and its truth table

The operands are listed once each, in the order of their code points.  The list is made by
insertion, so how often a name stands at a leaf, and in which order, makes no difference
to it.

The value of a formula depends on the values of its operands alone, and there are finitely
many ways to choose these.  A row of the truth table is a number whose bit `i` is the
value of operand `i`; the table has the values of the formula in all its rows, from row 0
on.  A row gives no value to what is not among the names that it is taken for: it makes
that false.
-/
import Clausal.Formula

namespace Clausal

/-- Put a name into an increasing list, unless it is there. -/
def insertName (x : String) : List String → List String
  | [] => [x]
  | y :: ys =>
    if x < y then x :: y :: ys
    else if x = y then y :: ys
    else y :: insertName x ys

theorem mem_insertName {x z : String} {ys : List String} :
    z ∈ insertName x ys ↔ z = x ∨ z ∈ ys := by
  induction ys with
  | nil => simp [insertName]
  | cons y ys ih =>
      unfold insertName
      split
      · simp
      · split
        · rename_i h; subst h; simp
        · simp only [List.mem_cons, ih]; grind

theorem mem_foldr_insertName {z : String} (xs : List String) :
    z ∈ xs.foldr insertName [] ↔ z ∈ xs := by
  induction xs with
  | nil => rfl
  | cons x xs ih => rw [List.foldr_cons, mem_insertName, ih, List.mem_cons]

namespace Formula

/-! ## Operands

The leaves are what the operands are made of; most of what is proved of operands is proved
of leaves, which follow the formula. -/

/-- The operand names at the leaves, from left to right. -/
def leaves : Formula → List String
  | .operand name _ => [name]
  | .not f _ => f.leaves
  | .binary _ f g _ => f.leaves ++ g.leaves

/-- The distinct operand names in increasing order. -/
def operands (f : Formula) : List String := f.leaves.foldr insertName []

theorem mem_operands {f : Formula} {x : String} : x ∈ f.operands ↔ x ∈ f.leaves :=
  mem_foldr_insertName f.leaves

@[simp] theorem length_leaves (f : Formula) : f.leaves.length = f.leafCount := by
  induction f with
  | operand => rfl
  | not f _ ih => simpa [leaves, leafCount] using ih
  | binary op f g _ ihf ihg => simp [leaves, leafCount, ihf, ihg]

@[simp] theorem leaves_bare (f : Formula) : f.bare.leaves = f.leaves := by
  induction f with
  | operand => rfl
  | not f _ ih => exact ih
  | binary op f g _ ihf ihg =>
      show f.bare.leaves ++ g.bare.leaves = f.leaves ++ g.leaves
      rw [ihf, ihg]

theorem mem_leaves_binary {op : Connective} {f g : Formula} {o : Option Origin}
    {x : String} :
    x ∈ (Formula.binary op f g o).leaves ↔ x ∈ f.leaves ∨ x ∈ g.leaves :=
  List.mem_append

/-! ## Agreement on the operands

Two valuations that agree at the leaves of a formula give it the same value.  To compare
two formulas one needs the operands of both: one of them may have names that the other
has not. -/

theorem eval_congr {f : Formula} {v w : String → Bool} (h : ∀ x ∈ f.leaves, v x = w x) :
    f.eval v = f.eval w := by
  induction f with
  | operand x o => exact h x (List.mem_singleton_self x)
  | not f o ih => exact congrArg (!·) (ih h)
  | binary op f g o ihf ihg =>
      have hf := ihf fun x hx => h x (List.mem_append_left _ hx)
      have hg := ihg fun x hx => h x (List.mem_append_right _ hx)
      rw [eval, eval, hf, hg]

/-- The operands of two formulas, once each and in increasing order. -/
def jointOperands (f g : Formula) : List String :=
  (f.operands ++ g.operands).foldr insertName []

theorem mem_jointOperands {f g : Formula} {x : String} :
    x ∈ jointOperands f g ↔ x ∈ f.operands ∨ x ∈ g.operands := by
  rw [jointOperands, mem_foldr_insertName, List.mem_append]

/-! ## Rows

The operands of a formula are numbered from 0 on in their order, and operand `i` is true in
the rows whose bit `i` is set. -/

/-- The valuation of a row: an operand is true if its bit is set. -/
def rowValuation (names : List String) (row : Nat) (name : String) : Bool :=
  row.testBit (names.idxOf name)

/-- The values of the formula in all rows. -/
def truthTable (f : Formula) : List Bool :=
  let names := f.operands
  (List.range (1 <<< names.length)).map fun row => f.eval (rowValuation names row)

end Formula

end Clausal
