/-
# Normalising a part first

A context is a formula with a hole in it, so a formula together with one
occurrence of a subformula is a context and what fills it.  Formulas that agree
under every reading (`Formula.Agree`) may stand for each other in every context,
below any number of negations and of connectives that read an argument with both
signs.

Normal forms are such readings: the negation normal form reads a formula as a
formula, with conjunction and disjunction for "both" and "either", and the
clauses read it as a clause list.  So whatever has been done to a part by writing
out derived connectives or by moving negations, the normal forms of the whole
come out the same: `sameNormalForms_fill`.

Normal forms are compared up to origins.  A part that has been rewritten has lost
some of the origins that the normal form of the whole would have kept, so more
cannot be had.
-/
import Clausal.Proofs.ClauseLists

namespace Clausal

/-! ## Occurrences

Filling a context is defined along the way from the root to the hole; the origins
on that way are part of the context. -/

/-- A formula with a hole. -/
inductive Context where
  | hole
  | not (c : Context) (origin : Option Origin)
  | left (op : Connective) (c : Context) (g : Formula) (origin : Option Origin)
  | right (op : Connective) (f : Formula) (c : Context) (origin : Option Origin)

namespace Context

/-- Put a formula in the place of the hole. -/
def fill : Context → Formula → Formula
  | .hole, s => s
  | .not c o, s => .not (c.fill s) o
  | .left op c g o, s => .binary op (c.fill s) g o
  | .right op f c o, s => .binary op f (c.fill s) o

end Context

namespace Formula

theorem mem_subformulas_self (f : Formula) : f ∈ f.subformulas := by
  cases f with
  | operand => exact List.mem_singleton.mpr rfl
  | not | binary => exact List.mem_cons_self

/-- The subformulas of a formula are what can be taken out of it to leave a
context. -/
theorem mem_subformulas_iff_fill {s f : Formula} :
    s ∈ f.subformulas ↔ ∃ c : Context, c.fill s = f := by
  constructor
  · intro h
    induction f with
    | operand name o => exact ⟨.hole, List.mem_singleton.mp h⟩
    | not f o ih =>
        rcases List.mem_cons.mp h with h | h
        · exact ⟨.hole, h⟩
        · obtain ⟨c, rfl⟩ := ih h
          exact ⟨.not c o, rfl⟩
    | binary op f g o ihf ihg =>
        rcases List.mem_cons.mp h with h | h
        · exact ⟨.hole, h⟩
        · rcases List.mem_append.mp h with h | h
          · obtain ⟨c, rfl⟩ := ihf h
            exact ⟨.left op c g o, rfl⟩
          · obtain ⟨c, rfl⟩ := ihg h
            exact ⟨.right op f c o, rfl⟩
  · rintro ⟨c, rfl⟩
    induction c with
    | hole => exact mem_subformulas_self s
    | not c o ih => exact List.mem_cons_of_mem _ ih
    | left op c g o ih => exact List.mem_cons_of_mem _ (List.mem_append_left _ ih)
    | right op f c o ih => exact List.mem_cons_of_mem _ (List.mem_append_right _ ih)

theorem Agree.fill {s s' : Formula} (h : s.Agree s') (c : Context) :
    (c.fill s).Agree (c.fill s') := by
  induction c with
  | hole => exact h
  | not c o ih => exact ih.not o o
  | left op c g o ih => exact ih.binary (.refl g) op o o
  | right op f c o ih => exact Agree.binary (.refl f) ih op o o

end Formula

/-! ## Normal forms as readings

`bare_toNnf` is where negation normal form turns out to be a reading: on formulas
that have the form, reading as a formula drops the origins and does nothing else. -/

/-- The formula that a literal is. -/
def Literal.toFormula (l : Literal) : Formula :=
  if l.negated then .neg (.var l.name) else .var l.name

/-- Formulas read as formulas. -/
def Interpretation.formulas : Interpretation Formula where
  literal := Literal.toFormula
  both := .conj
  either := .disj

namespace Formula

theorem bare_eq_affirm {f : Formula} (h : f.isNnf = true) :
    f.bare = Interpretation.formulas.affirm f := by
  induction f, h using nnfInduction with
  | operand | negated => rfl
  | and f g _ _ _ ihf ihg | or f g _ _ _ ihf ihg =>
      rw [bare, ihf, ihg]
      rfl

theorem bare_toNnf (f : Formula) : f.toNnf.bare = Interpretation.formulas.affirm f := by
  rw [bare_eq_affirm (isNnf_toNnf f), (agree_toNnf f _ _).1]

/-- The same normal forms, and the same clauses as literals and as texts. -/
structure SameNormalForms (f g : Formula) : Prop where
  toNnf : f.toNnf.Alike g.toNnf
  toCnf : f.toCnf.Alike g.toCnf
  clauses : f.clauses = g.clauses
  clauseTexts : f.clauseTexts = g.clauseTexts

theorem Agree.sameNormalForms {f g : Formula} (h : f.Agree g) : f.SameNormalForms g := by
  have hnnf : f.toNnf.Alike g.toNnf := by
    show f.toNnf.bare = g.toNnf.bare
    rw [bare_toNnf, bare_toNnf, (h _ _).1]
  have hclauses : f.clauses = g.clauses := by
    rw [clauses_eq_affirm, clauses_eq_affirm, (h _ _).1]
  exact ⟨hnnf, hnnf.distribute, hclauses, by rw [clauseTexts, clauseTexts, hclauses]⟩

/-- A part may be freed of derived connectives, have its negations moved, or be
brought into negation normal form: the normal forms of the whole, and its
clauses, stay the same.  So a double negation round a normal form disappears. -/
theorem sameNormalForms_fill (c : Context) (s : Formula) :
    (c.fill s.desugar).SameNormalForms (c.fill s) ∧
      (c.fill s.pushNegations).SameNormalForms (c.fill s) ∧
      (c.fill s.toNnf).SameNormalForms (c.fill s) ∧
      (neg (neg s).toNnf).toNnf.Alike s.toNnf := by
  refine ⟨((agree_desugar s).fill c).sameNormalForms,
    ((agree_pushNegations s).fill c).sameNormalForms,
    ((agree_toNnf s).fill c).sameNormalForms, ?_⟩
  have hdouble : (neg (neg s)).Agree s := fun _ _ => ⟨rfl, rfl⟩
  exact (((agree_toNnf (neg s)).not none none).trans hdouble).sameNormalForms.toNnf

end Formula

end Clausal
