/-
# The clauses of a formula, in one pass

The clauses of a formula are read off its conjunctive normal form.  Here they are said
without it, by recursion on the formula as it was given.

An *interpretation* says what to make of literals, of a conjunction and of a disjunction.
It reads a formula in two ways, affirmed and denied, in one pass: a negation swaps the
two, a denied connective is its dual over denied arguments, and a derived connective is
read as it is defined, with both signs of an argument where its definition has both.

Read as clause lists, literals are clauses of length one; the clauses of two parts that
are both to hold are those of one and then those of the other; and if either is to hold,
every clause of the one is joined with every clause of the other.  This gives the very
list that is read off (`clauses_eq_signed_reading`): the conversion decides neither the
order of the clauses nor that of their literals, and nothing is merged or dropped.

The proof goes along the conversion.  Writing derived connectives with the primitive ones,
and moving negations down, does to the formula what the reading does anyway, so neither
pass is noticed by any interpretation (`agree_desugar`, `agree_pushNegations`).  Only
distribution is particular to clause lists: it splits the left argument of a disjunction
before the right one (`spread`), and that is why the clauses of the left argument vary
slowest in the product.
-/
import Clausal.Proofs.NormalForms
import Clausal.Proofs.Passes

namespace Clausal

/-! ## Formulas read with a sign

`affirm` and `deny` are one recursion with two entries, each defined on the other at a
negation.  Where a connective reads an argument with both signs, the argument is read
twice; nothing else is said of how the readings of the parts are put together. -/

/-- What to make of a literal and of two parts of which both are to hold, or
either. -/
structure Interpretation (α : Type) where
  literal : Literal → α
  both : α → α → α
  either : α → α → α

namespace Interpretation

variable {α : Type} (m : Interpretation α)

mutual

/-- The reading of a formula. -/
def affirm : Formula → α
  | .operand x _ => m.literal (.positive x)
  | .not f _ => deny f
  | .binary .and f g _ => m.both (affirm f) (affirm g)
  | .binary .or f g _ => m.either (affirm f) (affirm g)
  | .binary .implies f g _ | .binary .requires f g _ => m.either (deny f) (affirm g)
  | .binary .excludes f g _ => m.either (deny f) (deny g)
  | .binary .equivalence f g _ =>
    m.both (m.either (affirm f) (deny g)) (m.either (deny f) (affirm g))
  | .binary .xor f g _ =>
    m.both (m.either (affirm f) (affirm g)) (m.either (deny f) (deny g))

/-- The reading of the negation of a formula. -/
def deny : Formula → α
  | .operand x _ => m.literal (.negative x)
  | .not f _ => affirm f
  | .binary .and f g _ => m.either (deny f) (deny g)
  | .binary .or f g _ => m.both (deny f) (deny g)
  | .binary .implies f g _ | .binary .requires f g _ => m.both (affirm f) (deny g)
  | .binary .excludes f g _ => m.both (affirm f) (affirm g)
  | .binary .equivalence f g _ =>
    m.either (m.both (deny f) (affirm g)) (m.both (affirm f) (deny g))
  | .binary .xor f g _ =>
    m.either (m.both (deny f) (deny g)) (m.both (affirm f) (affirm g))

end

end Interpretation

namespace Formula

/-! ## Agreement

Formulas that no interpretation tells apart may stand for each other under any operator,
so agreement is shown part by part.  Both signs have to be carried along: below a negation
it is the other one that counts. -/

/-- No interpretation tells the two formulas apart, with either sign. -/
def Agree (f g : Formula) : Prop :=
  ∀ (α : Type) (m : Interpretation α), m.affirm f = m.affirm g ∧ m.deny f = m.deny g

variable {f f' g g' k : Formula}

theorem Agree.refl (f : Formula) : f.Agree f := fun _ _ => ⟨rfl, rfl⟩

theorem Agree.trans (h : f.Agree g) (h' : g.Agree k) : f.Agree k :=
  fun α m => ⟨(h α m).1.trans (h' α m).1, (h α m).2.trans (h' α m).2⟩

theorem Agree.not (h : f.Agree f') (o o' : Option Origin) :
    (Formula.not f o).Agree (.not f' o') :=
  fun α m => ⟨(h α m).2, (h α m).1⟩

theorem Agree.binary (hf : f.Agree f') (hg : g.Agree g') (op : Connective)
    (o o' : Option Origin) : (Formula.binary op f g o).Agree (.binary op f' g' o') := by
  intro α m
  obtain ⟨hfa, hfd⟩ := hf α m
  obtain ⟨hga, hgd⟩ := hg α m
  cases op <;> simp only [Interpretation.affirm, Interpretation.deny, hfa, hfd, hga, hgd,
    and_self]

theorem agree_bare (f : Formula) : f.bare.Agree f := by
  induction f with
  | operand => exact fun _ _ => ⟨rfl, rfl⟩
  | not f o ih => exact ih.not none o
  | binary op f g o ihf ihg => exact ihf.binary ihg op none o

theorem agree_desugar (f : Formula) : f.desugar.Agree f := by
  induction f with
  | operand name o => exact .refl _
  | not f o ih => exact ih.not o o
  | binary op f g o ihf ihg =>
      refine Agree.trans ?_ (ihf.binary ihg op o o)
      -- what is left is the definition of `op`, over the rewritten arguments
      intro α m
      cases op <;> exact ⟨rfl, rfl⟩

theorem agree_pushNegations (f : Formula) : f.pushNegations.Agree f := by
  fun_induction pushNegations f with
  | case1 | case2 => exact .refl _
  -- the rule by which each of these three is treated again is how a negation is read
  | case3 f i o ih => exact ih.trans fun α m => ⟨rfl, rfl⟩
  | case4 f g i o ih | case5 f g i o ih => exact ih.trans fun α m => ⟨rfl, rfl⟩
  | case6 op f g i o _ _ ihf ihg => exact (ihf.binary ihg op i i).not o o
  | case7 op f g o ihf ihg => exact ihf.binary ihg op o o

theorem agree_toNnf (f : Formula) : f.toNnf.Agree f :=
  (agree_pushNegations f.desugar).trans (agree_desugar f)

end Formula

/-! ## Clause lists

The interpretation that gives clauses.  "Either" is a product of lists, in which the order
of both factors can still be seen. -/

/-- Every clause of the first list joined with every clause of the second, the
first clause varying slowest. -/
def Clause.cross (cs ds : List Clause) : List Clause :=
  cs.flatMap fun c => ds.map fun d => c ++ d

/-- Formulas read as clause lists. -/
def Interpretation.clauses : Interpretation (List Clause) where
  literal l := [[l]]
  both cs ds := cs ++ ds
  either := Clause.cross

namespace Formula

/-! ## The product that distribution makes

Spreading `q` over `p` takes `p` apart first, down to its clauses, and then `q` under each
of them; so the clauses come in the order of the product.  What is not a conjunction has
one clause, and there the product is the joining of two clauses. -/

theorem clauseList?_spreadRight {p q : Formula} {o : Option Origin} {c : Clause}
    {ds : List Clause} (hp : p.clause? = some c) (hq : q.clauseList? = some ds) :
    (spreadRight p o q).clauseList? = some (ds.map fun d => c ++ d) := by
  induction q using conjunctInduction generalizing o ds with
  | and a b i iha ihb =>
      obtain ⟨as, bs, ha, hb, rfl⟩ := clauseList?_and_eq_some.mp hq
      rw [spreadRight_and, List.map_append]
      exact clauseList?_and_eq_some.mpr ⟨_, _, iha ha, ihb hb, rfl⟩
  | other q hc =>
      -- nothing is left to take apart: `q` is a clause, and joined to `c` it is one clause
      rw [clauseList?_of_conjuncts? hc] at hq
      obtain ⟨d, hd, rfl⟩ := Option.map_eq_some_iff.mp hq
      have hor : (Formula.binary .or p q o).clause? = some (c ++ d) :=
        clause?_or_eq_some.mpr ⟨c, d, hp, hd, rfl⟩
      rw [spreadRight_of_conjuncts? hc, clauseList?_of_conjuncts? rfl, hor]
      rfl

theorem clauseList?_spread {p q : Formula} {o : Option Origin} {cs ds : List Clause}
    (hp : p.clauseList? = some cs) (hq : q.clauseList? = some ds) :
    (spread q o p).clauseList? = some (Clause.cross cs ds) := by
  induction p using conjunctInduction generalizing o cs with
  | and a b i iha ihb =>
      obtain ⟨as, bs, ha, hb, rfl⟩ := clauseList?_and_eq_some.mp hp
      rw [spread_and, Clause.cross, List.flatMap_append]
      exact clauseList?_and_eq_some.mpr ⟨_, _, iha ha, ihb hb, rfl⟩
  | other p hc =>
      rw [clauseList?_of_conjuncts? hc] at hp
      obtain ⟨c, hc', rfl⟩ := Option.map_eq_some_iff.mp hp
      rw [spread_of_conjuncts? hc, clauseList?_spreadRight hc' hq, Clause.cross,
        List.flatMap_singleton]

/-! ## The clauses of the conjunctive normal form

Negation normal form is what distribution starts from, and there a reading has four cases:
a literal is a clause, a negated operand is one, and the two connectives are the two
operations of the interpretation.  The passes before are no part of this, as no reading
notices them. -/

theorem clauseList?_distribute {f : Formula} (h : f.isNnf = true) :
    f.distribute.clauseList? = some (Interpretation.clauses.affirm f) := by
  induction f, h using nnfInduction with
  | operand =>
      rw [distribute_operand]
      rfl
  | negated =>
      rw [distribute_not, distribute_operand]
      rfl
  | and f g o _ _ ihf ihg =>
      rw [distribute_binary (by decide)]
      exact clauseList?_and_eq_some.mpr ⟨_, _, ihf, ihg, rfl⟩
  | or f g o _ _ ihf ihg =>
      rw [distribute_or_eq_spread]
      exact clauseList?_spread ihf ihg

theorem clauseList?_toCnf (f : Formula) :
    f.toCnf.clauseList? = some (Interpretation.clauses.affirm f) := by
  rw [toCnf, clauseList?_distribute (isNnf_toNnf f), (agree_toNnf f _ _).1]

theorem clauses_eq_affirm (f : Formula) : f.clauses = Interpretation.clauses.affirm f := by
  rw [clauses, asCnf_eq_toCnf, clauseList?_toCnf]
  rfl

@[simp] theorem clauses_bare (f : Formula) : f.bare.clauses = f.clauses := by
  rw [clauses_eq_affirm, clauses_eq_affirm, (agree_bare f _ _).1]

theorem Alike.clauses {f g : Formula} (h : f.Alike g) : f.clauses = g.clauses :=
  h.eq_of_bare clauses_bare

/-- The clauses of a formula are its reading as a clause list: the same clauses
and literals, in the same order and as often. -/
theorem clauses_eq_signed_reading (f : Formula) :
    f.asCnf.clauseList? = some (Interpretation.clauses.affirm f) ∧
      f.clauses = Interpretation.clauses.affirm f := by
  refine ⟨?_, clauses_eq_affirm f⟩
  rw [asCnf_eq_toCnf]
  exact clauseList?_toCnf f

/-- A denied equivalence keeps the two clauses that always hold. -/
example : Interpretation.clauses.affirm (neg (join .equivalence (var "a") (var "b"))) =
    [[.negative "a", .positive "a"], [.negative "a", .negative "b"],
      [.positive "b", .positive "a"], [.positive "b", .negative "b"]] := rfl

/-! ## The names in clauses

Reading off names the leaves from left to right, each as often as it is there. -/

theorem names_of_clause? {f : Formula} {c : Clause} (h : f.clause? = some c) :
    c.map Literal.name = f.leaves := by
  fun_induction clause? f generalizing c with
  | case1 f g o ihf ihg =>
      obtain ⟨a, b, ha, hb, rfl⟩ := (clause?_or_eq_some (o := o)).mp (by rw [clause?]; exact h)
      rw [List.map_append, ihf ha, ihg hb, leaves]
  | case2 f hor =>
      obtain ⟨l, hl, rfl⟩ := Option.map_eq_some_iff.mp h
      cases f with
      | operand name o =>
          cases hl
          rfl
      | not f o =>
          cases f with
          | operand name i =>
              cases hl
              rfl
          | not | binary => cases hl
      | binary => cases hl

/-- The clauses name the leaves, in order. -/
theorem names_of_clauseList? {f : Formula} {cs : List Clause} (h : f.clauseList? = some cs) :
    cs.flatten.map Literal.name = f.leaves := by
  fun_induction clauseList? f generalizing cs with
  | case1 f g o ihf ihg =>
      obtain ⟨as, bs, has, hbs, rfl⟩ :=
        (clauseList?_and_eq_some (o := o)).mp (by rw [clauseList?]; exact h)
      rw [List.flatten_append, List.map_append, ihf has, ihg hbs, leaves]
  | case2 f hand =>
      obtain ⟨c, hc, rfl⟩ := Option.map_eq_some_iff.mp h
      rw [List.flatten_singleton, names_of_clause? hc]

/-- The names in the clauses of a formula are those at its leaves. -/
theorem mem_leaves_iff_clauses {f : Formula} {x : String} :
    x ∈ f.leaves ↔ ∃ c ∈ f.clauses, ∃ l ∈ c, l.name = x := by
  have hnames := names_of_clauseList? (clauseList?_asCnf f)
  rw [asCnf_eq_toCnf] at hnames
  rw [← mem_leaves_toCnf, ← hnames, List.mem_map]
  constructor
  · rintro ⟨l, hl, rfl⟩
    obtain ⟨c, hc, hlc⟩ := List.mem_flatten.mp hl
    exact ⟨c, hc, l, hlc, rfl⟩
  · rintro ⟨c, hc, l, hl, rfl⟩
    exact ⟨l, List.mem_flatten.mpr ⟨c, hc, hl⟩, rfl⟩

end Formula

end Clausal
