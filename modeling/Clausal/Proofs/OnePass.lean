/-
# Distribution ends, and does what one pass does

`Distributes` has the runs of the recursion as its derivations, one rule for
each way a call can go, and `CalledBy` relates a call to those that it makes.
Neither takes for granted that a result exists: an argument has one only where
there is a run that ends in it, and the call that treats a split formula again is a
call only if the runs on the arguments have ended.

A result is no heavier than what it is made of (`Distributes.weight_le`), so every
call is for something lighter and no run goes on for ever.  Existence of a result
follows by induction on the calls, and not from the definition of `distribute`.

What the runs end in is said by recursion on the formula alone: `onePass` distributes
the arguments of a disjunction and spreads them over each other, once.  The recursion
treats what it has split again, arguments included, and that this comes to the same
rests on one fact: a formula that has had its pass is left alone by another one.
-/
import Clausal.Proofs.Distribution

namespace Clausal.Formula

/-! ## The recursion, call by call

Whether a disjunction is split depends on the results for its arguments, not on the
arguments, so the rules for runs and for calls both mention results. -/

/-- Treating the first formula ends, with the second one as its result. -/
inductive Distributes : Formula → Formula → Prop
  | operand (name : String) (o : Option Origin) : Distributes (.operand name o) (.operand name o)
  | not {f p : Formula} {o : Option Origin} :
      Distributes f p → Distributes (.not f o) (.not p o)
  | splitLeft {f g p q a b r : Formula} {o : Option Origin} :
      Distributes f p → Distributes g q → p.conjuncts? = some (a, b) →
      Distributes (conj (disj a q) (disj b q)) r → Distributes (.binary .or f g o) r
  | splitRight {f g p q a b r : Formula} {o : Option Origin} :
      Distributes f p → Distributes g q → p.conjuncts? = none → q.conjuncts? = some (a, b) →
      Distributes (conj (disj p a) (disj p b)) r → Distributes (.binary .or f g o) r
  | keep {f g p q : Formula} {o : Option Origin} :
      Distributes f p → Distributes g q → p.conjuncts? = none → q.conjuncts? = none →
      Distributes (.binary .or f g o) (.binary .or p q o)
  | other {op : Connective} {f g p q : Formula} {o : Option Origin} :
      op ≠ .or → Distributes f p → Distributes g q →
      Distributes (.binary op f g o) (.binary op p q o)

/-- The first formula is treated in the course of treating the second one. -/
inductive CalledBy : Formula → Formula → Prop
  | negated (f : Formula) (o : Option Origin) : CalledBy f (.not f o)
  | left (op : Connective) (f g : Formula) (o : Option Origin) : CalledBy f (.binary op f g o)
  | right (op : Connective) (f g : Formula) (o : Option Origin) : CalledBy g (.binary op f g o)
  | splitLeft {f g p q a b : Formula} {o : Option Origin} :
      Distributes f p → Distributes g q → p.conjuncts? = some (a, b) →
      CalledBy (conj (disj a q) (disj b q)) (.binary .or f g o)
  | splitRight {f g p q a b : Formula} {o : Option Origin} :
      Distributes f p → Distributes g q → p.conjuncts? = none → q.conjuncts? = some (a, b) →
      CalledBy (conj (disj p a) (disj p b)) (.binary .or f g o)

/-! ## It ends

`weight` is the size of `Formula.Conjunctive`, in which a disjunction counts as a product.
A call on a split formula is about results, and these may be much larger than the
arguments that they came from; the weight does not grow with them, as a conjunction of
copies weighs less than the disjunction that was split. -/

variable {f g : Formula}

theorem Distributes.weight_le (h : Distributes f g) : g.weight ≤ f.weight := by
  induction h with
  | operand => exact Nat.le_refl _
  | not _ ih => exact Nat.succ_le_succ ih
  | splitLeft _ _ hp _ ihf ihg ih =>
      exact Nat.le_trans ih (Nat.le_of_lt (weight_split_left hp ihf ihg))
  | splitRight _ _ _ hq _ ihf ihg ih =>
      exact Nat.le_trans ih (Nat.le_of_lt (weight_split_right hq ihf ihg))
  | keep _ _ _ _ ihf ihg => exact weight_binary_le ihf ihg
  | other _ _ _ ihf ihg => exact weight_binary_le ihf ihg

/-- A call is for something lighter, however many nodes were copied into it. -/
theorem CalledBy.weight_lt (h : CalledBy g f) : g.weight < f.weight := by
  cases h with
  | negated => exact Nat.lt_succ_self _
  | left => exact weight_left_lt
  | right => exact weight_right_lt
  | splitLeft hf hg hp => exact weight_split_left hp hf.weight_le hg.weight_le
  | splitRight hf hg _ hq => exact weight_split_right hq hf.weight_le hg.weight_le

theorem wellFounded_calledBy : WellFounded CalledBy :=
  Subrelation.wf (fun h => h.weight_lt) (measure weight).wf

/-- Every run ends: by induction on the calls, since a call goes on as its rule says
once those that it makes have ended. -/
theorem exists_distributes (f : Formula) : ∃ g, Distributes f g := by
  induction f using wellFounded_calledBy.induction with
  | _ f ih =>
      cases f with
      | operand name o => exact ⟨_, .operand name o⟩
      | not f o =>
          obtain ⟨p, hp⟩ := ih f (.negated f o)
          exact ⟨_, hp.not⟩
      | binary op f g o =>
          obtain ⟨p, hp⟩ := ih f (.left op f g o)
          obtain ⟨q, hq⟩ := ih g (.right op f g o)
          by_cases hop : op = .or
          · subst hop
            cases left : p.conjuncts? with
            | some ab =>
                obtain ⟨r, hr⟩ := ih _ (.splitLeft hp hq left)
                exact ⟨r, .splitLeft hp hq left hr⟩
            | none =>
                cases right : q.conjuncts? with
                | some ab =>
                    obtain ⟨r, hr⟩ := ih _ (.splitRight hp hq left right)
                    exact ⟨r, .splitRight hp hq left right hr⟩
                | none => exact ⟨_, .keep hp hq left right⟩
          · exact ⟨_, .other hop hp hq⟩

/-! ## What it ends in

`spread` is distribution of one disjunction over arguments that have been distributed; its
equation `spread_eq` has the three cases of the recursion in their order.  A run distributes
a split formula again, arguments included, where `onePass` goes on with the conjuncts as
they are.  The two agree because the conjuncts of a result are results themselves, and left
alone (`onePass_of_conjuncts?`). -/

/-- Distribution by recursion on the formula: the arguments of a disjunction are
distributed and then spread over each other, once. -/
def onePass : Formula → Formula
  | .operand name o => .operand name o
  | .not f o => .not f.onePass o
  | .binary .or f g o => spread g.onePass o f.onePass
  | .binary op f g o => .binary op f.onePass g.onePass o

theorem onePass_binary {op : Connective} (h : op ≠ .or) (f g : Formula) (o : Option Origin) :
    (Formula.binary op f g o).onePass = .binary op f.onePass g.onePass o := by
  cases op with
  | or => exact absurd rfl h
  | and | xor | implies | requires | excludes | equivalence => rfl

theorem spread_eq (p q : Formula) (o : Option Origin) :
    spread q o p =
      match p.conjuncts? with
      | some (a, b) => conj (spread q none a) (spread q none b)
      | none =>
        match q.conjuncts? with
        | some (a, b) => conj (spread a none p) (spread b none p)
        | none => .binary .or p q o := by
  cases left : p.conjuncts? with
  | some ab =>
      obtain ⟨i, rfl⟩ := conjuncts?_eq_some left
      rfl
  | none =>
      rw [spread_of_conjuncts? left]
      cases right : q.conjuncts? with
      | some ab =>
          obtain ⟨i, rfl⟩ := conjuncts?_eq_some right
          rw [spreadRight_and, ← spread_of_conjuncts? left, ← spread_of_conjuncts? left]
      | none => exact spreadRight_of_conjuncts? right

theorem distribute_eq_onePass (f : Formula) : f.distribute = f.onePass := by
  induction f with
  | operand name o => exact distribute_operand name o
  | not f o ih => rw [distribute_not, ih, onePass]
  | binary op f g o ihf ihg =>
      by_cases hop : op = .or
      · subst hop
        rw [distribute_or_eq_spread, ihf, ihg, onePass]
      · rw [distribute_binary hop, ihf, ihg, onePass_binary hop]

theorem isDistributed_onePass (f : Formula) : f.onePass.isDistributed = true := by
  rw [← distribute_eq_onePass]
  exact isDistributed_distribute f

/-- The arguments that are split have had their pass, and another one changes nothing. -/
theorem onePass_of_conjuncts? {a b : Formula} (h : f.onePass.conjuncts? = some (a, b)) :
    a.onePass = a ∧ b.onePass = b := by
  obtain ⟨i, hf⟩ := conjuncts?_eq_some h
  have hd := isDistributed_onePass f
  rw [hf] at hd
  obtain ⟨ha, hb⟩ := isDistributed_and.mp hd
  rw [← distribute_eq_onePass, ← distribute_eq_onePass]
  exact ⟨distribute_of_isDistributed ha, distribute_of_isDistributed hb⟩

theorem onePass_onePass (f : Formula) : f.onePass.onePass = f.onePass := by
  rw [← distribute_eq_onePass f.onePass]
  exact distribute_of_isDistributed (isDistributed_onePass f)

/-- A run that treats what it has split once more ends where one pass does. -/
theorem Distributes.eq_onePass (h : Distributes f g) : g = f.onePass := by
  induction h with
  | operand => rfl
  | not _ ih => rw [ih, onePass]
  | splitLeft _ _ hp _ ihf ihg ih =>
      subst ihf ihg
      obtain ⟨ha, hb⟩ := onePass_of_conjuncts? hp
      rw [ih, onePass, spread_eq, hp]
      show conj (spread _ none _) (spread _ none _) = _
      rw [ha, hb, onePass_onePass]
  | splitRight _ _ hp hq _ ihf ihg ih =>
      subst ihf ihg
      obtain ⟨ha, hb⟩ := onePass_of_conjuncts? hq
      rw [ih, onePass, spread_eq, hp, hq]
      show conj (spread _ none _) (spread _ none _) = _
      rw [ha, hb, onePass_onePass]
  | keep _ _ hp hq ihf ihg =>
      subst ihf ihg
      rw [onePass, spread_eq, hp, hq]
  | other hop _ _ ihf ihg => rw [ihf, ihg, onePass_binary hop]

theorem distributes_iff : Distributes f g ↔ g = f.distribute := by
  rw [distribute_eq_onePass]
  constructor
  · exact Distributes.eq_onePass
  · rintro rfl
    obtain ⟨g, hg⟩ := exists_distributes f
    rwa [← hg.eq_onePass]

/-- No chain of calls goes on for ever.  Every run ends in the formula that one pass
gives, in which no disjunction is left over a conjunction; another run changes
nothing. -/
theorem distribute_ends_as_onePass :
    WellFounded CalledBy ∧
      ∀ f : Formula, (∀ g, Distributes f g ↔ g = f.distribute) ∧ f.distribute = f.onePass ∧
        f.distribute.isDistributed = true ∧ f.distribute.distribute = f.distribute :=
  ⟨wellFounded_calledBy, fun f => ⟨fun _ => distributes_iff, distribute_eq_onePass f,
    isDistributed_distribute f, distribute_of_isDistributed (isDistributed_distribute f)⟩⟩

-- A conjunction below another connective is out of reach.
example :
    (disj (conj (var "a") (var "b")) (neg (conj (var "c") (var "d")))).onePass =
      conj (disj (var "a") (neg (conj (var "c") (var "d"))))
        (disj (var "b") (neg (conj (var "c") (var "d")))) := rfl

end Clausal.Formula
