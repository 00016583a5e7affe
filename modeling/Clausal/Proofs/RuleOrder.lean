/-
# The rules in order

The rules are numbered in the order in which they are told.  A list of tokens may
break many of them in many places; what is reported is a breach of the rule with
the lowest number, with one exception (`rule_of_rejection?`): the two rules on the
parentheses at operators, rule 9 on connectives and rule 10 on negations, are looked for
together, and of these the one that is broken first in the text is reported.

`Rule.Overtaken` says for which tokens the exception is made: the rules before both are
kept, rule 9 is broken somewhere, and rule 10 is broken further in front.
`Rule.lowest_of_validate` has both halves, the order and the exception, so that whether
a report is about the lowest broken rule can be read off the tokens alone; and
`exists_rule_overtaken` has tokens for which it is not.
-/
import Clausal.Proofs.Breaches
import Clausal.Proofs.Reading

namespace Clausal

open Token

variable {ts : List Token} {rejection : Rejection}

/-! ## The rule that is reported

That stages are reported in order is `Validation.findSome?_checks`.  Rules of an earlier
stage have lower numbers, and only one stage has more than one rule. -/

/-- What is found is about a rule, and only one pair of rules can be broken the other
way round. -/
theorem rule_of_rejection? (h : rejection? ts = some rejection) :
    ∃ r, rejection.rule? = some r ∧ ∀ q : Rule, q.Broken ts → q.number < r.number →
      q = .noParenthesizedBinary ∧ r = .noUnaryBeforeClosing := by
  obtain ⟨-, before, rs, after, hstages, hkept, r, hr, hrule⟩ :=
    (Validation.findSome?_checks Validation.finds_checks ts).2 rejection h
  refine ⟨r, hrule, ?_⟩
  intro q hq hlt
  have hmem := q.mem_stages
  have hsorted := Rule.pairwise_stages
  rw [hstages, List.flatten_append, List.flatten_cons] at hmem hsorted
  rcases List.mem_append.mp hmem with hmem | hmem
  · exact absurd hq (hkept q hmem)
  · rcases List.mem_append.mp hmem with hmem | hmem
    · exact Rule.eq_of_mem_stage rs (by rw [hstages]; simp) q hmem r hr hlt
    · have hafter := (List.pairwise_append.mp hsorted).2.1
      have := (List.pairwise_append.mp hafter).2.2 r hr q hmem
      omega

theorem Rejection.Evident.first_fault {m : Misplacement} (h : rejection.Evident ts)
    (hr : rejection.rule? = some m.rule)
    (hm : m.together = [.parenthesizedBinary, .unaryBeforeClosing]) :
    ∃ i, m.At ts i ∧ ∀ k, Misplacement.parenthesizedBinary.At ts k ∨
      Misplacement.unaryBeforeClosing.At ts k → i ≤ k := by
  cases rejection with
  | misplaced reason tokens =>
      have hreason : reason = m := by
        have hrule : reason.rule = m.rule := Option.some.inj hr
        cases m <;> cases hm <;> cases reason <;> first | rfl | cases hrule
      obtain ⟨i, hi, hat, -⟩ := h
      rw [hreason, hm] at hi
      refine ⟨i, hreason ▸ hat, fun k hk => hi.2 ?_⟩
      rcases hk with hk | hk
      · exact ⟨_, List.mem_cons_self, hk⟩
      · exact ⟨_, List.mem_cons_of_mem _ List.mem_cons_self, hk⟩
  | emptyExpression | unbalanced | emptyParentheses | adjacentOperands | unbuildable
  | tooComplex => cases m <;> cases hm <;> cases hr

namespace Rule

/-! ## The exception

One token cannot break both rules, so the first place of a breach decides between them. -/

/-- The rules before the two on parentheses at operators are kept, and a negation with
a closing parenthesis stands before every connective with a parenthesis, of which
there is one. -/
def Overtaken (ts : List Token) : Prop :=
  (∀ q : Rule, q.number < Rule.noParenthesizedBinary.number → ¬ q.Broken ts) ∧
    Rule.noParenthesizedBinary.Broken ts ∧
    ∃ i, Misplacement.unaryBeforeClosing.At ts i ∧
      ∀ j, Misplacement.parenthesizedBinary.At ts j → i < j

theorem eq_of_number {r : Rule} (h : r.number = 9) : r = .noParenthesizedBinary := by
  cases r <;> first | rfl | cases h

theorem not_at_both {i : Nat} (h : Misplacement.parenthesizedBinary.At ts i) :
    ¬ Misplacement.unaryBeforeClosing.At ts i := by
  intro h'
  obtain ⟨t, ht, hb⟩ := stands_iff.mp h
  obtain ⟨u, hu, hn⟩ := stands_iff.mp h'
  cases ht.symm.trans hu
  obtain ⟨op, hop⟩ := isBinary_iff.mp (Bool.and_eq_true_iff.mp hb).1
  have hneg := isUnary_iff.mp (Bool.and_eq_true_iff.mp hn).1
  rw [hop] at hneg
  cases hneg

/-- Tokens are valid exactly if no rule is broken.  If they are not, what is reported
breaks a rule, and this is the broken one with the lowest number exactly if it has
not been overtaken by the next one. -/
theorem lowest_of_validate (ts : List Token) :
    ((validate ts).outcome = .ok () ↔ ∀ r : Rule, ¬ r.Broken ts) ∧
      ∀ rejection, (validate ts).outcome = .error rejection →
        ∃ r : Rule, rejection.rule? = some r ∧ r.Broken ts ∧
          ((∀ q : Rule, q.Broken ts → r.number ≤ q.number) ↔ ¬ Overtaken ts) ∧
          (Overtaken ts → r = .noUnaryBeforeClosing) := by
  rw [outcome_validate_eq_ok, outcome_validate]
  cases h : rejection? ts with
  | none => exact ⟨⟨fun _ => not_broken_of_rejection? h, fun _ => rfl⟩, nofun⟩
  | some rejection =>
      have he := evident_of_rejection? h
      obtain ⟨r, hr, horder⟩ := rule_of_rejection? h
      have hbroken := he.broken hr
      have hover : Overtaken ts → r = .noUnaryBeforeClosing := by
        rintro ⟨hkept, hbin, i, hi, hbefore⟩
        have hge : 9 ≤ r.number := by
          rw [← Nat.not_lt]
          intro hlt
          exact hkept r hlt hbroken
        rcases Nat.lt_or_eq_of_le hge with hlt | heq
        · exact (horder _ hbin hlt).2
        · rw [eq_of_number heq.symm] at hr
          obtain ⟨j, hj, hleast⟩ := he.first_fault (m := .parenthesizedBinary) hr rfl
          have hij := hbefore j hj
          have hji := hleast i (.inr hi)
          omega
      refine ⟨⟨nofun, fun hnone => absurd hbroken (hnone r)⟩, ?_⟩
      rintro _ ⟨⟩
      refine ⟨r, hr, hbroken, ⟨?_, ?_⟩, hover⟩
      · intro hlow hov
        have hle := hlow _ hov.2.1
        rw [hover hov] at hle
        exact absurd hle (by decide)
      · intro hov q hq
        rw [← Nat.not_lt]
        intro hlt
        obtain ⟨rfl, rfl⟩ := horder q hq hlt
        obtain ⟨i, hi, hleast⟩ := he.first_fault (m := .unaryBeforeClosing) hr rfl
        refine hov ⟨?_, hq, i, hi, ?_⟩
        · intro p hp hpbroken
          have hlt' : p.number < Rule.noUnaryBeforeClosing.number := Nat.lt_succ_of_lt hp
          rw [(horder p hpbroken hlt').1] at hp
          exact absurd hp (Nat.lt_irrefl _)
        · intro j hj
          refine Nat.lt_of_le_of_ne (hleast j (.inl hj)) ?_
          rintro rfl
          exact not_at_both hj hi

/-- Of three broken rules, at connectives side by side, operands side by side and a
negation with a closing parenthesis, the first is reported. -/
theorem lowest_of_validate_adjacent :
    let ts := classifyAll .standard ["(a", "b", "or", "and", "(not)", "c)"]
    let rejection := Rejection.misplaced .adjacentBinary [⟨"or", 2⟩, ⟨"and", 3⟩]
    Rule.noAdjacentOperands.Broken ts ∧ Rule.noUnaryBeforeClosing.Broken ts ∧
      (validate ts).outcome = .error rejection ∧
      ∃ r : Rule, rejection.rule? = some r ∧ r.Broken ts ∧
        ∀ q : Rule, q.Broken ts → r.number ≤ q.number := by
  intro ts rejection
  have hr : (validate ts).outcome = .error rejection := by
    rw [outcome_validate, show rejection? ts = some rejection by decide]
  have hadjacent : Rule.noAdjacentBinary.Broken ts := ⟨2, by decide⟩
  have hov : ¬ Overtaken ts := fun h => h.1 _ (by decide) hadjacent
  obtain ⟨r, hrule, hbroken, hlow, -⟩ := (lowest_of_validate ts).2 rejection hr
  exact ⟨⟨0, by decide⟩, ⟨4, by decide⟩, hr, r, hrule, hbroken, hlow.mpr hov⟩

/-- Of two broken rules the one with the higher number is reported, where a negation
with a closing parenthesis comes before a connective with an opening one. -/
theorem exists_rule_overtaken :
    let ts := classifyAll .standard ["(not)", "a", "(and", "b)"]
    let rejection := Rejection.misplaced .unaryBeforeClosing [⟨"(not)", 0⟩]
    (validate ts).outcome = .error rejection ∧
      ¬ ∃ r : Rule, rejection.rule? = some r ∧ r.Broken ts ∧
        ∀ q : Rule, q.Broken ts → r.number ≤ q.number := by
  intro ts rejection
  constructor
  · rw [outcome_validate, show rejection? ts = some rejection by decide]
  · rintro ⟨r, hr, -, hlow⟩
    have hbin : Rule.noParenthesizedBinary.Broken ts := ⟨2, by decide⟩
    have hle := hlow _ hbin
    cases hr
    exact absurd hle (by decide)

end Rule

end Clausal
