/-
# Where negations come to stand

`Pushes` has the runs of the recursion that moves negations as its derivations, one
rule for each way a call can go, and `PushCall` relates a call to those that it
makes.  A negated conjunction or disjunction is treated again as a formula with one
node more; in it the negations stand lower, and `negationWeight` sees that
(`PushCall.weight_lt`), so no run goes on for ever.

A negation is at rest over an operand or over a derived connective
(`BearsNegation`), and a formula is settled if all its negations are.  Runs end where
all negations are at rest, and change nothing else: what is at rest already is left
alone, origins included, and the leaves stay as they stand.

The formulas here are arbitrary.  Derived connectives need not have been written out
before, and where one is met under a negation the run goes on below it; so what is
reached is negation normal form only if there are none.
-/
import Clausal.Proofs.NormalForms
import Clausal.Proofs.Passes

namespace Clausal

namespace Formula

/-! ## The recursion, call by call

The calls are those that are made and not those of a definition by recursion, so that
well-foundedness of `PushCall` says that there is no infinite descent on any input. -/

/-- Treating the first formula ends, with the second one as its result. -/
inductive Pushes : Formula → Formula → Prop
  | operand (x : String) (o : Option Origin) : Pushes (.operand x o) (.operand x o)
  | literal (x : String) (i o : Option Origin) :
      Pushes (.not (.operand x i) o) (.not (.operand x i) o)
  | double {f r : Formula} {i o : Option Origin} :
      Pushes f r → Pushes (.not (.not f i) o) r
  | negatedOr {f g r : Formula} {i o : Option Origin} :
      Pushes (conj (neg f) (neg g)) r → Pushes (.not (.binary .or f g i) o) r
  | negatedAnd {f g r : Formula} {i o : Option Origin} :
      Pushes (disj (neg f) (neg g)) r → Pushes (.not (.binary .and f g i) o) r
  | negatedDerived {op : Connective} {f g p q : Formula} {i o : Option Origin} :
      op.isDerived = true → Pushes f p → Pushes g q →
      Pushes (.not (.binary op f g i) o) (.not (.binary op p q i) o)
  | binary {op : Connective} {f g p q : Formula} {o : Option Origin} :
      Pushes f p → Pushes g q → Pushes (.binary op f g o) (.binary op p q o)

/-- The first formula is treated in the course of treating the second one. -/
inductive PushCall : Formula → Formula → Prop
  | double (f : Formula) (i o : Option Origin) : PushCall f (.not (.not f i) o)
  | negatedOr (f g : Formula) (i o : Option Origin) :
      PushCall (conj (neg f) (neg g)) (.not (.binary .or f g i) o)
  | negatedAnd (f g : Formula) (i o : Option Origin) :
      PushCall (disj (neg f) (neg g)) (.not (.binary .and f g i) o)
  | negatedLeft {op : Connective} (h : op.isDerived = true) (f g : Formula)
      (i o : Option Origin) : PushCall f (.not (.binary op f g i) o)
  | negatedRight {op : Connective} (h : op.isDerived = true) (f g : Formula)
      (i o : Option Origin) : PushCall g (.not (.binary op f g i) o)
  | left (op : Connective) (f g : Formula) (o : Option Origin) : PushCall f (.binary op f g o)
  | right (op : Connective) (f g : Formula) (o : Option Origin) : PushCall g (.binary op f g o)

variable {f g r : Formula}

theorem PushCall.weight_lt (h : PushCall g f) : g.negationWeight < f.negationWeight := by
  cases h with
  | double =>
      have := g.negationWeight_pos
      simp only [negationWeight]
      omega
  | negatedOr | negatedAnd =>
      simp only [conj, disj, join, neg, negationWeight]
      omega
  | negatedLeft | negatedRight | left | right =>
      simp only [negationWeight]
      omega

theorem wellFounded_pushCall : WellFounded PushCall :=
  Subrelation.wf (fun h => h.weight_lt) (measure negationWeight).wf

/-! ## What it ends in

Runs have one result, the one that `pushNegations` computes: there is a run to it by the
recursion of the function, and a run to anything is one to it by induction on the run, each
rule being an equation of the function. -/

theorem pushNegations_not_derived {op : Connective} (h : op.isDerived = true) (f g : Formula)
    (i o : Option Origin) :
    (Formula.not (.binary op f g i) o).pushNegations =
      .not (.binary op f.pushNegations g.pushNegations i) o := by
  obtain ⟨hor, hand⟩ := Connective.isDerived_iff.mp h
  rw [pushNegations]
  · exact hor
  · exact hand

/-- Every run ends, and where it should. -/
theorem pushes_pushNegations (f : Formula) : Pushes f f.pushNegations := by
  fun_induction pushNegations f with
  | case1 x o => exact .operand x o
  | case2 x i o => exact .literal x i o
  | case3 f i o ih => exact .double ih
  | case4 f g i o ih => exact .negatedOr ih
  | case5 f g i o ih => exact .negatedAnd ih
  | case6 op f g i o hor hand ihf ihg =>
      exact .negatedDerived (Connective.isDerived_iff.mpr ⟨hor, hand⟩) ihf ihg
  | case7 op f g o ihf ihg => exact .binary ihf ihg

theorem Pushes.eq_pushNegations (h : Pushes f r) : r = f.pushNegations := by
  induction h with
  | operand | literal => rw [pushNegations]
  | double _ ih | negatedOr _ ih | negatedAnd _ ih => rw [ih, pushNegations]
  | negatedDerived hop _ _ ihf ihg => rw [ihf, ihg, pushNegations_not_derived hop]
  | binary _ _ ihf ihg => rw [ihf, ihg, pushNegations]

/-! ## Negations at rest

Settled formulas are described by the subformulas that they have, and the lemmas on
negations and connectives turn this into a description by recursion.  From there on, that
a result is settled and that what is settled is left alone are two inductions along the
function, and together they say that the settled formulas are its fixed points. -/

/-- A negation is at rest over an operand and over a derived connective. -/
def BearsNegation : Formula → Prop
  | .operand _ _ => True
  | .not _ _ => False
  | .binary op _ _ _ => op.isDerived = true

/-- Every negation in the formula is at rest. -/
def Settled (f : Formula) : Prop :=
  ∀ g o, Formula.not g o ∈ f.subformulas → g.BearsNegation

theorem settled_operand (x : String) (o : Option Origin) : (Formula.operand x o).Settled := by
  intro g i h
  cases List.mem_singleton.mp h

theorem settled_not {o : Option Origin} :
    (Formula.not f o).Settled ↔ f.BearsNegation ∧ f.Settled := by
  constructor
  · intro h
    exact ⟨h f o List.mem_cons_self, fun g i hg => h g i (List.mem_cons_of_mem _ hg)⟩
  · rintro ⟨hbears, h⟩ g i hg
    rcases List.mem_cons.mp hg with hg | hg
    · cases hg
      exact hbears
    · exact h g i hg

theorem settled_binary {op : Connective} {o : Option Origin} :
    (Formula.binary op f g o).Settled ↔ f.Settled ∧ g.Settled := by
  constructor
  · intro h
    constructor
    · exact fun k i hk => h k i (List.mem_cons_of_mem _ (List.mem_append_left _ hk))
    · exact fun k i hk => h k i (List.mem_cons_of_mem _ (List.mem_append_right _ hk))
  · rintro ⟨hf, hg⟩ k i hk
    rcases List.mem_cons.mp hk with hk | hk
    · cases hk
    · rcases List.mem_append.mp hk with hk | hk
      · exact hf k i hk
      · exact hg k i hk

theorem settled_pushNegations (f : Formula) : f.pushNegations.Settled := by
  fun_induction pushNegations f with
  | case1 x o => exact settled_operand x o
  | case2 x i o => exact settled_not.mpr ⟨trivial, settled_operand x i⟩
  | case3 _ _ _ ih | case4 _ _ _ _ ih | case5 _ _ _ _ ih => exact ih
  | case6 op f g i o hor hand ihf ihg =>
      have hop := Connective.isDerived_iff.mpr ⟨hor, hand⟩
      exact settled_not.mpr ⟨hop, settled_binary.mpr ⟨ihf, ihg⟩⟩
  | case7 op f g o ihf ihg => exact settled_binary.mpr ⟨ihf, ihg⟩

theorem pushNegations_of_settled (h : f.Settled) : f.pushNegations = f := by
  fun_induction pushNegations f with
  | case1 | case2 => rfl
  -- a negation over one of these is not at rest
  | case3 | case4 | case5 => cases (settled_not.mp h).1
  | case6 op f g i o _ _ ihf ihg =>
      obtain ⟨hf, hg⟩ := settled_binary.mp (settled_not.mp h).2
      rw [ihf hf, ihg hg]
  | case7 op f g o ihf ihg =>
      obtain ⟨hf, hg⟩ := settled_binary.mp h
      rw [ihf hf, ihg hg]

theorem settled_iff_pushNegations_eq (f : Formula) : f.Settled ↔ f.pushNegations = f :=
  form_iff_eq settled_pushNegations pushNegations_of_settled f

/-- No chain of calls goes on for ever, whatever the connectives.  Every run ends in
the same formula, in which all negations are at rest.  A formula is given back as it
is, origins included, exactly if that was so before; and the leaves are the same,
each with its origin, from left to right. -/
theorem pushNegations_ends_settled :
    WellFounded PushCall ∧
      ∀ f : Formula, (∀ g, Pushes f g ↔ g = f.pushNegations) ∧ f.pushNegations.Settled ∧
        (f.Settled ↔ f.pushNegations = f) ∧ f.pushNegations.leafOrigins = f.leafOrigins := by
  refine ⟨wellFounded_pushCall, fun f => ⟨fun g => ⟨Pushes.eq_pushNegations, ?_⟩,
    settled_pushNegations f, settled_iff_pushNegations_eq f, leafOrigins_pushNegations f⟩⟩
  rintro rfl
  exact pushes_pushNegations f

end Formula

end Clausal
