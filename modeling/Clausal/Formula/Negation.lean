/-
# Negation normal form

`pushNegations` moves each negation down: a double negation disappears, and a
negated conjunction or disjunction becomes the dual connective over the negated
arguments, which is then treated again.  A negated derived connective is left
where it stands, and the pass goes on below it; so this pass alone reaches
negation normal form exactly from formulas without such connectives, and `toNnf`
runs `desugar` first.

The formula that a call treats again is no smaller than the one it was given: a
negated conjunction of `f` and `g` becomes a disjunction of two negations.  What
decreases is `negationWeight`, a size in which a negation doubles its argument
instead of adding one to it.

Membership in negation normal form is a Boolean, since the callers ask for it;
`nnfInduction` turns it into the four cases that such a formula can have, and is
the induction by which the conjunctive pass and the clauses are treated.
-/
import Clausal.Formula.Primitive

namespace Clausal.Formula

/-! ## Moving negations down

Seven cases, in the order in which they are tried.  The sixth is the negation of
a derived connective: the negation stays, and keeps its origin. -/

/-- Conjunctions and disjunctions of literals, in any nesting. -/
def isNnf : Formula → Bool
  | .operand _ _ => true
  | .not f _ => f.isOperand
  | .binary .and f g _ | .binary .or f g _ => f.isNnf && g.isNnf
  | .binary _ _ _ _ => false

/-- A size in which the argument of a negation counts twice. -/
def negationWeight : Formula → Nat
  | .operand _ _ => 1
  | .not f _ => 2 * f.negationWeight
  | .binary _ f g _ => f.negationWeight + g.negationWeight + 1

theorem negationWeight_pos (f : Formula) : 0 < f.negationWeight := by
  induction f with
  | operand => exact Nat.one_pos
  | not f _ ih => simp only [negationWeight]; omega
  | binary => simp only [negationWeight]; omega

/-- Move negations down to the operands and the derived connectives. -/
def pushNegations : Formula → Formula
  | .operand name o => .operand name o
  | .not (.operand name i) o => .not (.operand name i) o
  | .not (.not f _) _ => f.pushNegations
  | .not (.binary .or f g _) _ => (conj (neg f) (neg g)).pushNegations
  | .not (.binary .and f g _) _ => (disj (neg f) (neg g)).pushNegations
  | .not (.binary op f g i) o => .not (.binary op f.pushNegations g.pushNegations i) o
  | .binary op f g o => .binary op f.pushNegations g.pushNegations o
termination_by f => f.negationWeight
decreasing_by
  all_goals simp only [negationWeight, conj, disj, join, neg]
  · have := f.negationWeight_pos; omega
  all_goals omega

/-- Bring a formula into negation normal form. -/
def toNnf (f : Formula) : Formula := f.desugar.pushNegations

@[simp] theorem eval_pushNegations (v : String → Bool) (f : Formula) :
    f.pushNegations.eval v = f.eval v := by
  fun_induction pushNegations f <;> simp_all [eval, Connective.eval]

theorem bare_pushNegations (f : Formula) : f.pushNegations.bare = f.bare.pushNegations := by
  fun_induction pushNegations f with
  | case1 => simp only [bare, var, pushNegations]
  | case2 => simp only [bare, neg, var, pushNegations]
  | case3 f _ _ ih => simp only [ih, bare, neg, pushNegations]
  | case4 f g _ _ ih | case5 f g _ _ ih =>
      rw [ih]
      simp only [bare, neg, join, conj, disj, pushNegations]
  | case6 op f g _ _ hor hand ihf ihg =>
      simp only [ihf, ihg, bare, neg, join]
      rw [pushNegations]
      · exact hor
      · exact hand
  | case7 op f g _ ihf ihg => simp only [ihf, ihg, bare, join, pushNegations]

/-! ## The form that is reached

Every primitive formula is brought into negation normal form, and what has that
form is left alone, origins included. -/

@[simp] theorem isNnf_bare (f : Formula) : f.bare.isNnf = f.isNnf := by
  induction f with
  | operand => rfl
  | not f _ _ => cases f <;> rfl
  | binary op f g _ ihf ihg =>
      cases op with
      | and | or =>
          show (f.bare.isNnf && g.bare.isNnf) = (f.isNnf && g.isNnf)
          rw [ihf, ihg]
      | _ => rfl

/-- Operands, negated operands, conjunctions and disjunctions, as the cases of an
induction on a formula in negation normal form. -/
theorem nnfInduction {motive : (f : Formula) → f.isNnf = true → Prop}
    (operand : ∀ x o, motive (.operand x o) rfl)
    (negated : ∀ x i o, motive (.not (.operand x i) o) rfl)
    (and : ∀ f g o (hf : f.isNnf = true) (hg : g.isNnf = true), motive f hf → motive g hg →
      motive (.binary .and f g o) (Bool.and_eq_true_iff.mpr ⟨hf, hg⟩))
    (or : ∀ f g o (hf : f.isNnf = true) (hg : g.isNnf = true), motive f hf → motive g hg →
      motive (.binary .or f g o) (Bool.and_eq_true_iff.mpr ⟨hf, hg⟩)) :
    ∀ f h, motive f h
  | .operand x o, _ => operand x o
  | .not (.operand x i) o, _ => negated x i o
  | .binary .and f g o, h =>
      have hfg := Bool.and_eq_true_iff.mp h
      and f g o hfg.1 hfg.2 (nnfInduction operand negated and or f hfg.1)
        (nnfInduction operand negated and or g hfg.2)
  | .binary .or f g o, h =>
      have hfg := Bool.and_eq_true_iff.mp h
      or f g o hfg.1 hfg.2 (nnfInduction operand negated and or f hfg.1)
        (nnfInduction operand negated and or g hfg.2)

theorem isPrimitive_of_isNnf {f : Formula} (h : f.isNnf = true) : f.isPrimitive = true := by
  induction f, h using nnfInduction with
  | operand | negated => rfl
  | and f g _ _ _ ihf ihg | or f g _ _ _ ihf ihg =>
      show (f.isPrimitive && g.isPrimitive) = true
      rw [ihf, ihg]
      rfl

/-- A derived connective is the only obstacle to negation normal form. -/
theorem isNnf_pushNegations {f : Formula} (h : f.isPrimitive = true) :
    f.pushNegations.isNnf = true := by
  fun_induction pushNegations f with
  | case1 => rfl
  | case2 => rfl
  | case3 f _ _ ih => exact ih h
  | case4 f g _ _ ih => exact ih h
  | case5 f g _ _ ih => exact ih h
  | case6 op f g _ _ hor hand _ _ =>
      simp only [isPrimitive, Bool.and_eq_true] at h
      cases op <;> simp [Connective.isDerived] at h hor hand
  | case7 op f g _ ihf ihg =>
      simp only [isPrimitive, Bool.and_eq_true] at h
      have hf := ihf h.1.2
      have hg := ihg h.2
      cases op with
      | and | or => simp [isNnf, hf, hg]
      | _ => simp [Connective.isDerived] at h

theorem pushNegations_of_isNnf {f : Formula} (h : f.isNnf = true) : f.pushNegations = f := by
  induction f, h using nnfInduction with
  | operand | negated => rw [pushNegations]
  | and f g _ _ _ ihf ihg | or f g _ _ _ ihf ihg => rw [pushNegations, ihf, ihg]

/-! ## Both steps -/

theorem isNnf_toNnf (f : Formula) : f.toNnf.isNnf = true :=
  isNnf_pushNegations (isPrimitive_desugar f)

theorem toNnf_of_isNnf {f : Formula} (h : f.isNnf = true) : f.toNnf = f := by
  rw [toNnf, desugar_of_isPrimitive (isPrimitive_of_isNnf h), pushNegations_of_isNnf h]

@[simp] theorem eval_toNnf (v : String → Bool) (f : Formula) : f.toNnf.eval v = f.eval v := by
  rw [toNnf, eval_pushNegations, eval_desugar]

end Clausal.Formula
