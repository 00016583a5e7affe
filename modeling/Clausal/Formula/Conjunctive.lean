/-
# Conjunctive normal form

`distribute` turns a disjunction with a conjunction among its arguments into a
conjunction of two disjunctions and treats the result again, the left argument
before the right one.  Nothing is merged on the way: a literal that is carried
into both halves stands in both, and tautologies stay.

The arguments are distributed first, so what is treated again is built from
results and not from parts of the input, and the recursion has to know that
distributing makes nothing heavier.  Hence the shape of the definition:
`distributeBounded` returns its result together with the bound on its weight,
and `distribute` forgets the bound.  The equations `distribute_operand`,
`distribute_not`, `distribute_binary` and `distribute_or` are all that is used
of it outside this module.

`toCnf` runs the three passes in a row.  That it reaches the form, and keeps the
value, is proved in `Proofs.Distribution`.
-/
import Clausal.Formula.Negation

namespace Clausal.Formula

/-! ## The form

A clause is built from literals with disjunctions alone, and a formula in
conjunctive normal form from clauses with conjunctions alone.  Both may be
nested in any way, and a clause may hold a literal twice. -/

/-- Literals joined by disjunctions. -/
def isClause : Formula → Bool
  | .binary .or f g _ => f.isClause && g.isClause
  | f => f.literal?.isSome

/-- Clauses joined by conjunctions. -/
def isCnf : Formula → Bool
  | .binary .and f g _ => f.isCnf && g.isCnf
  | f => f.isClause

@[simp] theorem isClause_bare (f : Formula) : f.bare.isClause = f.isClause := by
  induction f with
  | operand => rfl
  | not f _ _ => cases f <;> rfl
  | binary op f g _ ihf ihg =>
      cases op with
      | or =>
          show (f.bare.isClause && g.bare.isClause) = (f.isClause && g.isClause)
          rw [ihf, ihg]
      | _ => rfl

@[simp] theorem isCnf_bare (f : Formula) : f.bare.isCnf = f.isCnf := by
  induction f with
  | operand => rfl
  | not f o _ => exact isClause_bare (.not f o)
  | binary op f g o ihf ihg =>
      cases op with
      | and =>
          show (f.bare.isCnf && g.bare.isCnf) = (f.isCnf && g.isCnf)
          rw [ihf, ihg]
      | or => exact isClause_bare (.binary .or f g o)
      | _ => rfl

theorem isNnf_of_isClause {f : Formula} (h : f.isClause = true) : f.isNnf = true := by
  induction f with
  | operand => rfl
  | not f _ _ =>
      cases f with
      | operand => rfl
      | not | binary => cases h
  | binary op f g _ ihf ihg =>
      cases op with
      | or =>
          rw [isClause, Bool.and_eq_true] at h
          rw [isNnf, ihf h.1, ihg h.2]
          rfl
      | _ => cases h

/-! ## The weight

The weight of a disjunction is the product of its arguments' weights, and of
anything else a sum.  With `p = a ∧ b` the disjunction of `p` and `q` weighs
`(a + b + 1) * q`, and the conjunction that replaces it `a * q + b * q + 1`: this
is less, because every weight is at least two. -/

/-- A size under which distribution shrinks a formula. -/
def weight : Formula → Nat
  | .operand _ _ => 2
  | .not f _ => f.weight + 1
  | .binary .or f g _ => f.weight * g.weight
  | .binary _ f g _ => f.weight + g.weight + 1

theorem two_le_weight (f : Formula) : 2 ≤ f.weight := by
  induction f with
  | operand => exact Nat.le_refl 2
  | not f _ ih => simp only [weight]; omega
  | binary op f g _ ihf ihg =>
      cases op
      case or => exact Nat.le_trans (by decide) (Nat.mul_le_mul ihf ihg)
      all_goals simp only [weight]; omega

theorem weight_left_lt {op : Connective} {f g : Formula} {o : Option Origin} :
    f.weight < (Formula.binary op f g o).weight := by
  have hf := f.two_le_weight
  have hg := g.two_le_weight
  have h : f.weight * 2 ≤ f.weight * g.weight := Nat.mul_le_mul_left _ hg
  cases op <;> simp only [weight] <;> omega

theorem weight_right_lt {op : Connective} {f g : Formula} {o : Option Origin} :
    g.weight < (Formula.binary op f g o).weight := by
  have hf := f.two_le_weight
  have hg := g.two_le_weight
  have h : 2 * g.weight ≤ f.weight * g.weight := Nat.mul_le_mul_right _ hf
  cases op <;> simp only [weight] <;> omega

theorem weight_binary_le {op : Connective} {f f' g g' : Formula} {o o' : Option Origin}
    (hf : f'.weight ≤ f.weight) (hg : g'.weight ≤ g.weight) :
    (Formula.binary op f' g' o').weight ≤ (Formula.binary op f g o).weight := by
  have h := Nat.mul_le_mul hf hg
  cases op <;> simp only [weight] <;> omega

/-- The two arguments of a formula that is a conjunction. -/
def conjuncts? : Formula → Option (Formula × Formula)
  | .binary .and a b _ => some (a, b)
  | _ => none

theorem weight_of_conjuncts? {p a b : Formula} (h : p.conjuncts? = some (a, b)) :
    p.weight = a.weight + b.weight + 1 := by
  unfold conjuncts? at h
  split at h
  · cases h; rfl
  · cases h

theorem weight_split_left {a b p q f g : Formula} {o : Option Origin}
    (h : p.conjuncts? = some (a, b)) (hp : p.weight ≤ f.weight) (hq : q.weight ≤ g.weight) :
    (conj (disj a q) (disj b q)).weight < (Formula.binary .or f g o).weight := by
  have hp2 := q.two_le_weight
  have hm := Nat.mul_le_mul hp hq
  rw [weight_of_conjuncts? h] at hm
  simp only [conj, disj, join, weight, Nat.add_mul] at hm ⊢
  omega

theorem weight_split_right {a b p q f g : Formula} {o : Option Origin}
    (h : q.conjuncts? = some (a, b)) (hp : p.weight ≤ f.weight) (hq : q.weight ≤ g.weight) :
    (conj (disj p a) (disj p b)).weight < (Formula.binary .or f g o).weight := by
  have hp2 := p.two_le_weight
  have hm := Nat.mul_le_mul hp hq
  rw [weight_of_conjuncts? h] at hm
  simp only [conj, disj, join, weight, Nat.mul_add] at hm ⊢
  omega

/-! ## Distribution

`conjuncts?` is asked of the distributed left argument first, and of the right
one only if the left is no conjunction.  A disjunction that is not split keeps
its origin; the three nodes that replace a split one have none. -/

/-- Distribution, together with the bound that its recursion rests on. -/
def distributeBounded : (f : Formula) → { g : Formula // g.weight ≤ f.weight }
  | .operand name o => ⟨.operand name o, Nat.le_refl _⟩
  | .not f o =>
    let ⟨p, hp⟩ := f.distributeBounded
    ⟨.not p o, Nat.succ_le_succ hp⟩
  | .binary .or f g o =>
    let ⟨p, hp⟩ := f.distributeBounded
    let ⟨q, hq⟩ := g.distributeBounded
    match left : p.conjuncts? with
    | some (a, b) =>
      have lighter := weight_split_left left hp hq
      let ⟨k, hk⟩ := (conj (disj a q) (disj b q)).distributeBounded
      ⟨k, Nat.le_trans hk (Nat.le_of_lt lighter)⟩
    | none =>
      match right : q.conjuncts? with
      | some (a, b) =>
        have lighter := weight_split_right right hp hq
        let ⟨k, hk⟩ := (conj (disj p a) (disj p b)).distributeBounded
        ⟨k, Nat.le_trans hk (Nat.le_of_lt lighter)⟩
      | none => ⟨.binary .or p q o, weight_binary_le hp hq⟩
  | .binary op f g o =>
    let ⟨p, hp⟩ := f.distributeBounded
    let ⟨q, hq⟩ := g.distributeBounded
    ⟨.binary op p q o, weight_binary_le hp hq⟩
termination_by f => f.weight
decreasing_by
  · exact Nat.lt_succ_self _
  · exact weight_left_lt
  · exact weight_right_lt
  · exact lighter
  · exact lighter
  · exact weight_left_lt
  · exact weight_right_lt

/-- Move disjunctions below conjunctions. -/
def distribute (f : Formula) : Formula := f.distributeBounded.val

@[simp] theorem distribute_operand (name : String) (o : Option Origin) :
    (Formula.operand name o).distribute = .operand name o := by
  rw [distribute, distributeBounded]

@[simp] theorem distribute_not (f : Formula) (o : Option Origin) :
    (Formula.not f o).distribute = .not f.distribute o := by
  rw [distribute, distributeBounded]; rfl

theorem distribute_binary {op : Connective} (h : op ≠ .or) (f g : Formula)
    (o : Option Origin) :
    (Formula.binary op f g o).distribute = .binary op f.distribute g.distribute o := by
  rw [distribute, distributeBounded]
  · rfl
  · exact h

/-- A disjunction is split at its left argument if that is a conjunction once
distributed, else at its right one if that is, and what comes of it is
distributed again. -/
theorem distribute_or (f g : Formula) (o : Option Origin) :
    (Formula.binary .or f g o).distribute =
      match f.distribute.conjuncts? with
      | some (a, b) => (conj (disj a g.distribute) (disj b g.distribute)).distribute
      | none =>
        match g.distribute.conjuncts? with
        | some (a, b) => (conj (disj f.distribute a) (disj f.distribute b)).distribute
        | none => .binary .or f.distribute g.distribute o := by
  rw [distribute, distributeBounded]
  simp only [distribute]
  split
  · rename_i left; simp only [left]
  · rename_i left
    simp only [left]
    split
    · rename_i right; simp only [right]
    · rename_i right; simp only [right]

/-- Bring a formula into conjunctive normal form. -/
def toCnf (f : Formula) : Formula := f.toNnf.distribute

end Clausal.Formula
