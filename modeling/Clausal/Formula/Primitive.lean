/-
# Formulas without derived connectives

`desugar` writes the five derived connectives with negation, conjunction and
disjunction, from the leaves upwards.  An equivalence and an exclusive
disjunction mention both arguments twice, so each level of them may double the
leaves; the other three mention each argument once.

A node that stays keeps its origin, and a node that is new has none.  In
particular a rewritten connective loses its origin even where the new root is
again a disjunction: it is another node.

What is proved here is what the later passes stand on: the value is kept, the
result is primitive, a primitive formula is left alone with its origins, and
origins play no part in what is done.
-/
import Clausal.Formula

namespace Clausal.Formula

/-- No derived connective occurs. -/
def isPrimitive : Formula → Bool
  | .operand _ _ => true
  | .not f _ => f.isPrimitive
  | .binary op f g _ => !op.isDerived && f.isPrimitive && g.isPrimitive

/-- Write derived connectives with the primitive ones, arguments first. -/
def desugar : Formula → Formula
  | .operand name o => .operand name o
  | .not f o => .not f.desugar o
  | .binary op f g o =>
    let p := f.desugar
    let q := g.desugar
    match op with
    | .and | .or => .binary op p q o
    | .implies | .requires => disj (neg p) q
    | .excludes => disj (neg p) (neg q)
    | .equivalence => conj (disj p (neg q)) (disj (neg p) q)
    | .xor => conj (disj p q) (disj (neg p) (neg q))

@[simp] theorem eval_desugar (v : String → Bool) (f : Formula) :
    f.desugar.eval v = f.eval v := by
  induction f with
  | operand => rfl
  | not f _ ih => simp [desugar, eval, ih]
  | binary op f g _ ihf ihg =>
      cases op <;> simp only [desugar, eval, eval_conj, eval_disj, eval_neg, Connective.eval,
        ihf, ihg] <;> cases f.eval v <;> cases g.eval v <;> rfl

theorem isPrimitive_desugar (f : Formula) : f.desugar.isPrimitive = true := by
  induction f with
  | operand => rfl
  | not f _ ih => exact ih
  | binary op f g _ ihf ihg =>
      cases op <;>
        simp [desugar, isPrimitive, conj, disj, neg, join, Connective.isDerived, ihf, ihg]

theorem desugar_of_isPrimitive {f : Formula} (h : f.isPrimitive = true) : f.desugar = f := by
  induction f with
  | operand => rfl
  | not f _ ih => rw [desugar, ih h]
  | binary op f g _ ihf ihg =>
      simp only [isPrimitive, Bool.and_eq_true] at h
      obtain ⟨⟨hop, hf⟩, hg⟩ := h
      cases op with
      | and | or => rw [desugar, ihf hf, ihg hg]
      | _ => cases hop

theorem bare_desugar (f : Formula) : f.desugar.bare = f.bare.desugar := by
  induction f with
  | operand => rfl
  | not f _ ih => exact congrArg neg ih
  | binary op f g _ ihf ihg =>
      cases op <;> simp only [desugar, bare, join, conj, disj, neg, ihf, ihg]

end Clausal.Formula
