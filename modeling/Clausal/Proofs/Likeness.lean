/-
# Formulas that are alike

Where a node was read is no part of what a formula says.  A rewriting makes the
same of a formula whether the origins are dropped before it or after it
(`Pass.bare_apply`), and the answer to a question is the same with and without
them.  Hence formulas that are alike stay alike whatever passes are run on them,
and at no stage does any question tell them apart (`run_keeps_likeness`).

The questions are those of `SameAnswers`: the two written forms, the clauses and
their texts, the operands, the counts, the forms a formula has, and its value.
What they are asked of may have been read from different texts, or been made by
hand without any origin.
-/
import Clausal.Formula.Rendering
import Clausal.Proofs.ClauseLists
import Clausal.Proofs.Passes

namespace Clausal

namespace Formula

/-! ## Questions

One equation for each question, all of the same kind: the answer is that of the
formula without its origins. -/

@[simp] theorem leafCount_bare (f : Formula) : f.bare.leafCount = f.leafCount := by
  rw [← length_leaves, ← length_leaves, leaves_bare]

@[simp] theorem height_bare (f : Formula) : f.bare.height = f.height := by
  induction f with
  | operand => rfl
  | not f _ ih => exact congrArg (· + 1) ih
  | binary op f g _ ihf ihg =>
      show max f.bare.height g.bare.height + 1 = max f.height g.height + 1
      rw [ihf, ihg]

@[simp] theorem operands_bare (f : Formula) : f.bare.operands = f.operands := by
  rw [operands, operands, leaves_bare]

/-- The same answer to every question about a formula, those for origins apart. -/
structure SameAnswers (f g : Formula) : Prop where
  compact : f.compact = g.compact
  render : f.render = g.render
  clauses : f.clauses = g.clauses
  clauseTexts : f.clauseTexts = g.clauseTexts
  operands : f.operands = g.operands
  leafCount : f.leafCount = g.leafCount
  height : f.height = g.height
  isNnf : f.isNnf = g.isNnf
  isCnf : f.isCnf = g.isCnf
  eval : ∀ v, f.eval v = g.eval v

theorem Alike.sameAnswers {f g : Formula} (h : f.Alike g) : f.SameAnswers g where
  compact := h.eq_of_bare compact_bare
  render := h.eq_of_bare render_bare
  clauses := h.clauses
  clauseTexts := congrArg (List.map Clause.render) h.clauses
  operands := h.eq_of_bare operands_bare
  leafCount := h.eq_of_bare leafCount_bare
  height := h.eq_of_bare height_bare
  isNnf := h.eq_of_bare isNnf_bare
  isCnf := h.eq_of_bare isCnf_bare
  eval v := h.eq_of_bare (eval_bare v)

end Formula

/-! ## Passes

The equation for a pass has the pass on both sides; the two normal forms are passes
one after the other, and theirs follow from those of their steps. -/

namespace Pass

theorem bare_apply (p : Pass) (f : Formula) : (p.apply f).bare = p.apply f.bare := by
  have htoNnf : f.toNnf.bare = f.bare.toNnf := by
    rw [Formula.toNnf, Formula.bare_pushNegations, Formula.bare_desugar, Formula.toNnf]
  cases p with
  | desugar => exact Formula.bare_desugar f
  | pushNegations => exact Formula.bare_pushNegations f
  | distribute => exact Formula.bare_distribute f
  | toNnf => exact htoNnf
  | toCnf =>
      show f.toNnf.distribute.bare = f.bare.toNnf.distribute
      rw [Formula.bare_distribute, htoNnf]

theorem alike_apply (p : Pass) {f g : Formula} (h : f.Alike g) :
    (p.apply f).Alike (p.apply g) := by
  show (p.apply f).bare = (p.apply g).bare
  rw [bare_apply, bare_apply, h]

theorem alike_run (ps : List Pass) {f g : Formula} (h : f.Alike g) :
    (run ps f).Alike (run ps g) := by
  induction ps generalizing f g with
  | nil => exact h
  | cons p ps ih => exact ih (p.alike_apply h)

/-- Alike formulas, whatever the origins in them, stay alike under each pass and under
any passes one after the other, and before and after them all answers are the same. -/
theorem run_keeps_likeness {f g : Formula} (h : f.Alike g) :
    f.SameAnswers g ∧ (∀ p : Pass, (p.apply f).Alike (p.apply g)) ∧
      ∀ ps : List Pass, (run ps f).Alike (run ps g) ∧ (run ps f).SameAnswers (run ps g) := by
  refine ⟨h.sameAnswers, fun p => p.alike_apply h, fun ps => ?_⟩
  have hrun := alike_run ps h
  exact ⟨hrun, hrun.sameAnswers⟩

/-- A formula as it was read, and the same formula with origins of another text at
some of its nodes. -/
theorem run_keeps_likeness_other_text :
    let f : Formula :=
      .not (.binary .xor (.operand "a" (some ⟨2, 1⟩))
        (.binary .and (.operand "b" (some ⟨3, 3⟩)) (.operand "a" (some ⟨3, 5⟩)) (some ⟨2, 4⟩))
        (some ⟨1, 2⟩)) (some ⟨0, 0⟩)
    let g : Formula :=
      .not (.binary .xor (.operand "a" none)
        (.binary .and (.operand "b" (some ⟨0, 9⟩)) (.operand "a" none) none)
        (some ⟨1, 8⟩)) none
    f ≠ g ∧ f.Alike g ∧ f.SameAnswers g ∧ f.toCnf.Alike g.toCnf ∧
      f.desugar.distribute.SameAnswers g.desugar.distribute := by
  intro f g
  have h : f.Alike g := by decide
  obtain ⟨hsame, hpass, hrun⟩ := run_keeps_likeness h
  exact ⟨by decide, h, hsame, hpass .toCnf, (hrun [.desugar, .distribute]).2⟩

end Pass

end Clausal
