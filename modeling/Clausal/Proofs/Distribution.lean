/-
# Distribution in one pass

`distribute` treats every conjunction that it makes of a disjunction once more, so its
recursion does not follow the formula.  `spread` says what comes of a disjunction of two
distributed arguments by recursion on these arguments alone: the left one is taken apart
first, then the right one.  Once `distribute_or_eq_spread` ties the two together, what
distribution keeps or brings about is shown by induction on the formula, and nobody needs
the weight under which `distribute` ends.

A fact about the pass then takes three steps: `spreadRight`, by induction on the conjuncts
of the right argument, from it `spread`, by induction on those of the left one, and from
that `distribute`, by induction on the formula.

* The pass applies the distributive laws and does nothing else
  (`redistributes_distribute`).  What these laws keep is kept, and needs no induction of
  its own: the value of every formula (`eval_distribute`), derived connectives and
  negations of any formula included, and later the leaves and the origins of operators.
* Of negation normal form, conjunctive normal form is made (`isCnf_distribute`).
* Conjunctive normal form is left alone, origins included (`toCnf_of_isCnf`).
* Origins do not guide the pass (`bare_distribute`).
-/
import Clausal.Formula.Conjunctive

namespace Clausal.Formula

/-! ## Distributed formulas

The form that distribution reaches from any formula.  It asks nothing of what stands below
a negation or beside another connective but to be distributed as well. -/

/-- No disjunction has a conjunction as one of its two arguments. -/
def isDistributed : Formula → Bool
  | .operand _ _ => true
  | .not f _ => f.isDistributed
  | .binary op f g _ =>
    (op ≠ .or || (f.conjuncts?.isNone && g.conjuncts?.isNone)) &&
      (f.isDistributed && g.isDistributed)

theorem isDistributed_binary {op : Connective} (h : op ≠ .or) (f g : Formula)
    (o : Option Origin) :
    (Formula.binary op f g o).isDistributed = (f.isDistributed && g.isDistributed) := by
  simp [isDistributed, h]

theorem isDistributed_or {f g : Formula} {o : Option Origin} :
    (Formula.binary .or f g o).isDistributed = true ↔
      (f.conjuncts? = none ∧ g.conjuncts? = none) ∧
        f.isDistributed = true ∧ g.isDistributed = true := by
  simp [isDistributed]

theorem isDistributed_and {f g : Formula} {o : Option Origin} :
    (Formula.binary .and f g o).isDistributed = true ↔
      f.isDistributed = true ∧ g.isDistributed = true := by
  rw [isDistributed_binary (by decide), Bool.and_eq_true]

theorem distribute_conj (f g : Formula) :
    (conj f g).distribute = conj f.distribute g.distribute :=
  distribute_binary (by decide) f g none

theorem conjuncts?_eq_some {f a b : Formula} (h : f.conjuncts? = some (a, b)) :
    ∃ o, f = .binary .and a b o := by
  unfold conjuncts? at h
  split at h
  · rename_i c d o
    cases h
    exact ⟨o, rfl⟩
  · cases h

/-- What is distributed already is left alone, origins included. -/
theorem distribute_of_isDistributed {f : Formula} (h : f.isDistributed = true) :
    f.distribute = f := by
  induction f with
  | operand name o => exact distribute_operand name o
  | not f o ih => rw [distribute_not, ih h]
  | binary op f g o ihf ihg =>
      by_cases hop : op = .or
      · subst hop
        obtain ⟨⟨hf, hg⟩, hdf, hdg⟩ := isDistributed_or.mp h
        rw [distribute_or, ihf hdf, ihg hdg, hf, hg]
      · rw [isDistributed_binary hop, Bool.and_eq_true] at h
        rw [distribute_binary hop, ihf h.1, ihg h.2]

/-! ## One pass

Conjunctions are taken apart from the root down, as far as there is one conjunction below
another; `conjunctInduction` is the induction that goes with this. -/

/-- A disjunction of `p`, which is no conjunction, with every conjunct of the
right argument.  The origin is that of the disjunction, and stays if nothing is
taken apart. -/
def spreadRight (p : Formula) (o : Option Origin) : Formula → Formula
  | .binary .and a b _ => conj (spreadRight p none a) (spreadRight p none b)
  | q => .binary .or p q o

/-- The disjunctions of every conjunct of the left argument with every conjunct
of the right one. -/
def spread (q : Formula) (o : Option Origin) : Formula → Formula
  | .binary .and a b _ => conj (spread q none a) (spread q none b)
  | p => spreadRight p o q

theorem spread_and (q a b : Formula) (o i : Option Origin) :
    spread q o (.binary .and a b i) = conj (spread q none a) (spread q none b) := rfl

theorem spreadRight_and (p a b : Formula) (o i : Option Origin) :
    spreadRight p o (.binary .and a b i) =
      conj (spreadRight p none a) (spreadRight p none b) := rfl

theorem spread_of_conjuncts? {p q : Formula} {o : Option Origin} (h : p.conjuncts? = none) :
    spread q o p = spreadRight p o q := by
  fun_cases spread q o p with
  | case1 => cases h
  | case2 => rfl

theorem spreadRight_of_conjuncts? {p q : Formula} {o : Option Origin}
    (h : q.conjuncts? = none) : spreadRight p o q = .binary .or p q o := by
  fun_cases spreadRight p o q with
  | case1 => cases h
  | case2 => rfl

/-- The conjuncts of a formula, and a formula that has none, as the two cases of
an induction. -/
theorem conjunctInduction {motive : Formula → Prop}
    (and : ∀ a b o, motive a → motive b → motive (.binary .and a b o))
    (other : ∀ f, f.conjuncts? = none → motive f) : ∀ f, motive f
  | .operand _ _ => other _ rfl
  | .not _ _ => other _ rfl
  | .binary op f g o => by
      cases hop : (Formula.binary op f g o).conjuncts? with
      | none => exact other _ hop
      | some ab =>
          obtain ⟨a, b⟩ := ab
          obtain ⟨o', ho'⟩ := conjuncts?_eq_some hop
          cases ho'
          exact and f g o (conjunctInduction and other f) (conjunctInduction and other g)

theorem distribute_or_right {p q : Formula} {o : Option Origin}
    (hp : p.isDistributed = true) (hq : q.isDistributed = true) (h : p.conjuncts? = none) :
    (Formula.binary .or p q o).distribute = spreadRight p o q := by
  induction q using conjunctInduction generalizing o with
  | and a b i iha ihb =>
      obtain ⟨ha, hb⟩ := isDistributed_and.mp hq
      rw [distribute_or, distribute_of_isDistributed hp, distribute_of_isDistributed hq, h,
        spreadRight_and, ← iha ha, ← ihb hb]
      exact distribute_conj (disj p a) (disj p b)
  | other q hc =>
      rw [distribute_or, distribute_of_isDistributed hp, distribute_of_isDistributed hq, h, hc,
        spreadRight_of_conjuncts? hc]

/-- Distributing a disjunction of distributed arguments is one pass over them. -/
theorem distribute_or_of_isDistributed {p q : Formula} {o : Option Origin}
    (hp : p.isDistributed = true) (hq : q.isDistributed = true) :
    (Formula.binary .or p q o).distribute = spread q o p := by
  induction p using conjunctInduction generalizing o with
  | and a b i iha ihb =>
      obtain ⟨ha, hb⟩ := isDistributed_and.mp hp
      rw [distribute_or, distribute_of_isDistributed hp, distribute_of_isDistributed hq,
        spread_and, ← iha ha, ← ihb hb]
      exact distribute_conj (disj a q) (disj b q)
  | other p hc => rw [distribute_or_right hp hq hc, spread_of_conjuncts? hc]

theorem isDistributed_spreadRight {p q : Formula} {o : Option Origin}
    (hp : p.isDistributed = true) (hq : q.isDistributed = true) (h : p.conjuncts? = none) :
    (spreadRight p o q).isDistributed = true := by
  induction q using conjunctInduction generalizing o with
  | and a b i iha ihb =>
      obtain ⟨ha, hb⟩ := isDistributed_and.mp hq
      exact isDistributed_and.mpr ⟨iha ha, ihb hb⟩
  | other q hc =>
      rw [spreadRight_of_conjuncts? hc]
      exact isDistributed_or.mpr ⟨⟨h, hc⟩, hp, hq⟩

theorem isDistributed_spread {p q : Formula} {o : Option Origin}
    (hp : p.isDistributed = true) (hq : q.isDistributed = true) :
    (spread q o p).isDistributed = true := by
  induction p using conjunctInduction generalizing o with
  | and a b i iha ihb =>
      obtain ⟨ha, hb⟩ := isDistributed_and.mp hp
      exact isDistributed_and.mpr ⟨iha ha, ihb hb⟩
  | other p hc =>
      rw [spread_of_conjuncts? hc]
      exact isDistributed_spreadRight hp hq hc

/-- No disjunction over a conjunction is left, whatever the formula. -/
theorem isDistributed_distribute (f : Formula) : f.distribute.isDistributed = true := by
  induction f with
  | operand name o => rw [distribute_operand]; rfl
  | not f o ih => rw [distribute_not]; exact ih
  | binary op f g o ihf ihg =>
      by_cases hop : op = .or
      · subst hop
        have h : (Formula.binary .or f g o).distribute =
            (Formula.binary .or f.distribute g.distribute o).distribute := by
          rw [distribute_or, distribute_or, distribute_of_isDistributed ihf,
            distribute_of_isDistributed ihg]
        rw [h, distribute_or_of_isDistributed ihf ihg]
        exact isDistributed_spread ihf ihg
      · rw [distribute_binary hop, isDistributed_binary hop, ihf, ihg]
        rfl

/-- The recursion of `distribute` at a disjunction, said in one pass. -/
theorem distribute_or_eq_spread (f g : Formula) (o : Option Origin) :
    (Formula.binary .or f g o).distribute = spread g.distribute o f.distribute := by
  rw [← distribute_or_of_isDistributed (isDistributed_distribute f) (isDistributed_distribute g),
    distribute_or, distribute_or, distribute_of_isDistributed (isDistributed_distribute f),
    distribute_of_isDistributed (isDistributed_distribute g)]

/-! ## The distributive laws

All that distribution does to a formula is to apply the two distributive laws, somewhere in
it and any number of times.  `Redistributes` is the least relation that allows for this, so
what both laws keep, under any operators, is kept by the pass; the recursion of the pass is
gone through once. -/

/-- The second formula comes of the first one by the distributive laws.  The disjunction
that is taken apart is gone, and the nodes that replace it have no origin. -/
inductive Redistributes : Formula → Formula → Prop
  | refl (f : Formula) : Redistributes f f
  | trans {f g k : Formula} : Redistributes f g → Redistributes g k → Redistributes f k
  | not {f g : Formula} (o : Option Origin) :
      Redistributes f g → Redistributes (.not f o) (.not g o)
  | binary {f f' g g' : Formula} (op : Connective) (o : Option Origin) :
      Redistributes f f' → Redistributes g g' →
      Redistributes (.binary op f g o) (.binary op f' g' o)
  | left (a b q : Formula) (o i : Option Origin) :
      Redistributes (.binary .or (.binary .and a b i) q o) (conj (disj a q) (disj b q))
  | right (p a b : Formula) (o i : Option Origin) :
      Redistributes (.binary .or p (.binary .and a b i) o) (conj (disj p a) (disj p b))

theorem redistributes_spreadRight (p q : Formula) (o : Option Origin) :
    Redistributes (.binary .or p q o) (spreadRight p o q) := by
  induction q using conjunctInduction generalizing o with
  | and a b i iha ihb =>
      rw [spreadRight_and]
      exact .trans (.right p a b o i) (.binary .and none (iha none) (ihb none))
  | other q hc =>
      rw [spreadRight_of_conjuncts? hc]
      exact .refl _

theorem redistributes_spread (p q : Formula) (o : Option Origin) :
    Redistributes (.binary .or p q o) (spread q o p) := by
  induction p using conjunctInduction generalizing o with
  | and a b i iha ihb =>
      rw [spread_and]
      exact .trans (.left a b q o i) (.binary .and none (iha none) (ihb none))
  | other p hc =>
      rw [spread_of_conjuncts? hc]
      exact redistributes_spreadRight p q o

theorem redistributes_distribute (f : Formula) : Redistributes f f.distribute := by
  induction f with
  | operand name o =>
      rw [distribute_operand]
      exact .refl _
  | not f o ih =>
      rw [distribute_not]
      exact .not o ih
  | binary op f g o ihf ihg =>
      by_cases hop : op = .or
      · subst hop
        rw [distribute_or_eq_spread]
        exact .trans (.binary .or o ihf ihg) (redistributes_spread _ _ o)
      · rw [distribute_binary hop]
        exact .binary op o ihf ihg

theorem Redistributes.eval_eq {f g : Formula} (h : Redistributes f g) (v : String → Bool) :
    g.eval v = f.eval v := by
  induction h with
  | refl => rfl
  | trans _ _ ih ih' => exact ih'.trans ih
  | not o _ ih => rw [eval, eval, ih]
  | binary op o _ _ ihf ihg => rw [eval, eval, ihf, ihg]
  | left a b q o i => exact (Bool.or_and_distrib_right ..).symm
  | right p a b o i => exact (Bool.or_and_distrib_left ..).symm

/-- Distribution keeps the meaning of every formula, derived connectives and
negations of any formula included. -/
@[simp] theorem eval_distribute (v : String → Bool) (f : Formula) :
    f.distribute.eval v = f.eval v :=
  (redistributes_distribute f).eval_eq v

@[simp] theorem eval_toCnf (v : String → Bool) (f : Formula) : f.toCnf.eval v = f.eval v := by
  rw [toCnf, eval_distribute, eval_toNnf]

/-! ## Conjunctive normal form

A conjunction of clauses is reached one disjunction at a time: the disjunction of two
clauses is a clause, so what `spread` makes of two formulas of that form has it too.  A
formula that has the form already has no disjunction over a conjunction in it, which is
what `distribute` leaves alone. -/

theorem isCnf_of_conjuncts? {f : Formula} (h : f.conjuncts? = none) : f.isCnf = f.isClause := by
  fun_cases isCnf f with
  | case1 => cases h
  | case2 => rfl

theorem isCnf_spreadRight {p q : Formula} {o : Option Origin} (hp : p.isClause = true)
    (hq : q.isCnf = true) : (spreadRight p o q).isCnf = true := by
  induction q using conjunctInduction generalizing o with
  | and a b i iha ihb =>
      rw [isCnf, Bool.and_eq_true] at hq
      rw [spreadRight_and, conj, join, isCnf, iha hq.1, ihb hq.2]
      rfl
  | other q hc =>
      rw [isCnf_of_conjuncts? hc] at hq
      rw [spreadRight_of_conjuncts? hc]
      show (p.isClause && q.isClause) = true
      rw [hp, hq]
      rfl

theorem isCnf_spread {p q : Formula} {o : Option Origin} (hp : p.isCnf = true)
    (hq : q.isCnf = true) : (spread q o p).isCnf = true := by
  induction p using conjunctInduction generalizing o with
  | and a b i iha ihb =>
      rw [isCnf, Bool.and_eq_true] at hp
      rw [spread_and, conj, join, isCnf, iha hp.1, ihb hp.2]
      rfl
  | other p hc =>
      rw [isCnf_of_conjuncts? hc] at hp
      rw [spread_of_conjuncts? hc]
      exact isCnf_spreadRight hp hq

/-- Of negation normal form, distribution makes conjunctive normal form. -/
theorem isCnf_distribute {f : Formula} (h : f.isNnf = true) : f.distribute.isCnf = true := by
  induction f, h using nnfInduction with
  | operand =>
      rw [distribute_operand]
      rfl
  | negated =>
      rw [distribute_not, distribute_operand]
      rfl
  | and f g _ _ _ ihf ihg =>
      rw [distribute_binary (by decide), isCnf, ihf, ihg]
      rfl
  | or f g _ _ _ ihf ihg =>
      rw [distribute_or_eq_spread]
      exact isCnf_spread ihf ihg

theorem isCnf_toCnf (f : Formula) : f.toCnf.isCnf = true :=
  isCnf_distribute (isNnf_toNnf f)

theorem isNnf_of_isCnf {f : Formula} (h : f.isCnf = true) : f.isNnf = true := by
  induction f using conjunctInduction with
  | and a b _ iha ihb =>
      rw [isCnf, Bool.and_eq_true] at h
      rw [isNnf, iha h.1, ihb h.2]
      rfl
  | other f hc =>
      rw [isCnf_of_conjuncts? hc] at h
      exact isNnf_of_isClause h

theorem isDistributed_of_isClause {f : Formula} (h : f.isClause = true) :
    f.conjuncts? = none ∧ f.isDistributed = true := by
  induction f with
  | operand => exact ⟨rfl, rfl⟩
  | not f _ _ =>
      cases f with
      | operand => exact ⟨rfl, rfl⟩
      | not | binary => cases h
  | binary op f g _ ihf ihg =>
      cases op with
      | or =>
          rw [isClause, Bool.and_eq_true] at h
          obtain ⟨hcf, hf⟩ := ihf h.1
          obtain ⟨hcg, hg⟩ := ihg h.2
          exact ⟨rfl, isDistributed_or.mpr ⟨⟨hcf, hcg⟩, hf, hg⟩⟩
      | _ => cases h

theorem isDistributed_of_isCnf {f : Formula} (h : f.isCnf = true) : f.isDistributed = true := by
  induction f using conjunctInduction with
  | and a b _ iha ihb =>
      rw [isCnf, Bool.and_eq_true] at h
      exact isDistributed_and.mpr ⟨iha h.1, ihb h.2⟩
  | other f hc =>
      rw [isCnf_of_conjuncts? hc] at h
      exact (isDistributed_of_isClause h).2

/-- Conjunctive normal form is left alone, origins included. -/
theorem toCnf_of_isCnf {f : Formula} (h : f.isCnf = true) : f.toCnf = f := by
  rw [toCnf, toNnf_of_isNnf (isNnf_of_isCnf h),
    distribute_of_isDistributed (isDistributed_of_isCnf h)]

/-! ## Origins

Spreading drops the origin of a disjunction that it takes apart, so without origins it is
the same with any. -/

theorem bare_conj (f g : Formula) : (conj f g).bare = conj f.bare g.bare := rfl

theorem conjuncts?_bare_eq_none {f : Formula} (h : f.conjuncts? = none) :
    f.bare.conjuncts? = none := by
  cases f with
  | operand | not => rfl
  | binary op f g o =>
      cases op with
      | and => cases h
      | _ => rfl

theorem bare_spreadRight (p q : Formula) (o : Option Origin) :
    (spreadRight p o q).bare = spreadRight p.bare none q.bare := by
  induction q using conjunctInduction generalizing o with
  | and a b i iha ihb =>
      rw [spreadRight_and, bare_conj, iha, ihb]
      rfl
  | other q hc =>
      rw [spreadRight_of_conjuncts? hc, spreadRight_of_conjuncts? (conjuncts?_bare_eq_none hc)]
      rfl

theorem bare_spread (p q : Formula) (o : Option Origin) :
    (spread q o p).bare = spread q.bare none p.bare := by
  induction p using conjunctInduction generalizing o with
  | and a b i iha ihb =>
      rw [spread_and, bare_conj, iha, ihb]
      rfl
  | other p hc =>
      rw [spread_of_conjuncts? hc, spread_of_conjuncts? (conjuncts?_bare_eq_none hc),
        bare_spreadRight]

theorem bare_distribute (f : Formula) : f.distribute.bare = f.bare.distribute := by
  induction f with
  | operand => rw [distribute_operand, bare, var, distribute_operand]
  | not f _ ih => rw [distribute_not, bare, bare, neg, neg, distribute_not, ih]
  | binary op f g o ihf ihg =>
      by_cases hop : op = .or
      · subst hop
        rw [distribute_or_eq_spread, bare_spread, ihf, ihg, bare, join, distribute_or_eq_spread]
      · rw [distribute_binary hop, bare, bare, join, join, distribute_binary hop, ihf, ihg]

theorem Alike.distribute {f g : Formula} (h : f.Alike g) : f.distribute.Alike g.distribute := by
  show f.distribute.bare = g.distribute.bare
  rw [bare_distribute, bare_distribute, h]

end Clausal.Formula
