/-
# Breaches of the rules, and what the checks find of them

A rule says what may not be in a list of tokens, and where.  That is said here
without the checks: `Misplacement.At` puts a misplacement at a place of the list,
and `Rule.Broken` says that a rule is broken somewhere.  The rules are the
eleven of the description, with their numbers; the checks are ten, as two of the
rules are looked for together (`Rule.stages`).

A rejection is evident of a list if what it says is so and it names the first
place of which it is (`Rejection.Evident`).  For the two rules that are looked
for together, the first place is the first at which either is broken.

Each check finds the breaches of its rules and no others: `Validation.Finds` says
that what it reports is evident and about one of its rules, and that all of its
rules are kept if it reports nothing.  That is proved check by check,
most of them being instances of `detects_inPair`, `detects_atEnd_head` and
`detects_atEnd_last`.  The order of the checks is then looked at once, in
`Validation.findSome?_checks`, and what follows of it is all that later modules
use: `not_broken_of_rejection?` and `evident_of_rejection?`.
-/
import Mathlib.Data.List.Forall2
import Mathlib.Order.Bounds.Defs
import Clausal.Proofs.Validity

namespace Clausal

/-! ## What is wrong, and where

Places are indices into the list and not positions that tokens carry, so that
neighbours are at `i` and `i + 1` whatever the numbering.  A place beyond the end
has no token with any property. -/

namespace Token

/-- A token with the property stands at the place. -/
def Stands (p : Token → Bool) (ts : List Token) (i : Nat) : Prop := ts[i]?.any p = true

instance (p : Token → Bool) (ts : List Token) (i : Nat) : Decidable (Stands p ts i) :=
  inferInstanceAs (Decidable (_ = true))

variable {p : Token → Bool} {t : Token} {ts : List Token} {i : Nat}

theorem stands_iff : Stands p ts i ↔ ∃ t, ts[i]? = some t ∧ p t = true :=
  Option.any_eq_true p ts[i]?

theorem stands_zero : Stands p (t :: ts) 0 ↔ p t = true := Iff.rfl

theorem stands_succ : Stands p (t :: ts) (i + 1) ↔ Stands p ts i := Iff.rfl

theorem stands_or {q : Token → Bool} :
    Stands (fun t => p t || q t) ts i ↔ Stands p ts i ∨ Stands q ts i := by
  unfold Stands
  cases ts[i]? <;> simp

theorem stands_append (before after : List Token) (h : p t = true) :
    Stands p (before ++ t :: after) before.length :=
  stands_iff.mpr ⟨t, by simp, h⟩

theorem exists_stands_iff : (∃ i, Stands p ts i) ↔ ∃ t ∈ ts, p t = true := by
  simp only [stands_iff, List.mem_iff_getElem?]
  constructor
  · rintro ⟨i, t, ht, hp⟩
    exact ⟨t, ⟨i, ht⟩, hp⟩
  · rintro ⟨t, ⟨i, ht⟩, hp⟩
    exact ⟨i, t, ht, hp⟩

end Token

open Token

/-- Something is misplaced in this way at a place: the token there, or it together with
the next one. -/
def Misplacement.At (ts : List Token) (i : Nat) : Misplacement → Prop
  | .leadingBinary => i = 0 ∧ Stands isBinary ts i
  | .trailingBinary => i + 1 = ts.length ∧ Stands isBinary ts i
  | .trailingUnary => i + 1 = ts.length ∧ Stands isUnary ts i
  | .adjacentBinary => Stands isBinary ts i ∧ Stands isBinary ts (i + 1)
  | .unaryBeforeBinary => Stands isUnary ts i ∧ Stands isBinary ts (i + 1)
  | .parenthesizedBinary => Stands (fun t => t.isBinary && t.hasParentheses) ts i
  | .unaryBeforeClosing => Stands (fun t => t.isUnary && t.closing > 0) ts i
  | .unaryAfterOperand => Stands isOperand ts i ∧ Stands isUnary ts (i + 1)

instance (ts : List Token) (i : Nat) : (reason : Misplacement) → Decidable (reason.At ts i)
  | .leadingBinary | .trailingBinary | .trailingUnary | .adjacentBinary | .unaryBeforeBinary
  | .unaryAfterOperand => inferInstanceAs (Decidable (_ ∧ _))
  | .parenthesizedBinary | .unaryBeforeClosing => inferInstanceAs (Decidable (Stands _ _ _))

/-- How many tokens it takes. -/
def Misplacement.width : Misplacement → Nat
  | .adjacentBinary | .unaryBeforeBinary | .unaryAfterOperand => 2
  | _ => 1

/-- What the same check looks for, token by token. -/
def Misplacement.together : Misplacement → List Misplacement
  | .parenthesizedBinary | .unaryBeforeClosing => [.parenthesizedBinary, .unaryBeforeClosing]
  | reason => [reason]

/-- The tokens close more parentheses than they open, or less, or one before it is
opened. -/
def Token.Unmatched (ts : List Token) : Prop :=
  openingCount ts ≠ closingCount ts ∨ ∃ l, l <+: ts ∧ openingCount l < closingCount l

/-- What a rejection says of the tokens is so, and the tokens that it names are the
first ones of which it is. -/
def Rejection.Evident (ts : List Token) : Rejection → Prop
  | .emptyExpression => ts = []
  | .unbalanced opening closing =>
    opening = openingCount ts ∧ closing = closingCount ts ∧ Unmatched ts
  | .emptyParentheses position =>
    ∃ i, IsLeast {k | Stands isEmpty ts k} i ∧ ts[i]?.map Token.position = some position
  | .misplaced reason tokens =>
    ∃ i, IsLeast {k | ∃ m ∈ reason.together, m.At ts k} i ∧ reason.At ts i ∧
      tokens = ((ts.drop i).take reason.width).map mention
  | .adjacentOperands left right =>
    ∃ i, IsLeast {k | Stands isOperand ts k ∧ Stands isOperand ts (k + 1)} i ∧
      [left, right] = ((ts.drop i).take 2).map mention
  | .unbuildable _ _ _ | .tooComplex _ _ _ => False

/-! ## First places

The checks search from the front.  A least place in the tail is a least place in
the list if the head is not one; that is the step of every search. -/

theorem isLeast_succ {P : Nat → Prop} {i : Nat} (h : IsLeast {k | P (k + 1)} i) (h0 : ¬ P 0) :
    IsLeast {k | P k} (i + 1) := by
  refine ⟨h.1, ?_⟩
  intro k hk
  cases k with
  | zero => exact absurd hk h0
  | succ k => exact Nat.succ_le_succ (h.2 hk)

theorem isLeast_append {p : Token → Bool} {t : Token} {before : List Token}
    (after : List Token) (ht : p t = true) (hb : ∀ u ∈ before, p u = false) :
    IsLeast {k | Stands p (before ++ t :: after) k} before.length := by
  constructor
  · exact stands_append before after ht
  · intro k hk
    obtain ⟨u, hu, hpu⟩ := stands_iff.mp hk
    rw [← Nat.not_lt]
    intro hlt
    rw [List.getElem?_append_left hlt] at hu
    rw [hb u (List.mem_of_getElem? hu)] at hpu
    cases hpu

namespace Validation

variable {p q : Token → Bool} {ts : List Token}

theorem firstPair?_eq_none (h : firstPair? (fun a b => p a && q b) ts = none) :
    ∀ i, ¬ (Stands p ts i ∧ Stands q ts (i + 1)) := by
  induction ts with
  | nil =>
      rintro i ⟨hp, -⟩
      cases hp
  | cons a ts ih =>
      cases ts with
      | nil =>
          rintro i ⟨-, hq⟩
          cases hq
      | cons b ts =>
          obtain ⟨hab, hrest⟩ := firstPair?_cons_cons.mp h
          intro i
          cases i with
          | zero =>
              rintro ⟨hp, hq⟩
              rw [stands_zero.mp hp, stands_zero.mp (stands_succ.mp hq)] at hab
              cases hab
          | succ i => exact ih hrest i

theorem firstPair?_eq_some {a b : Token}
    (h : firstPair? (fun a b => p a && q b) ts = some (a, b)) :
    ∃ i, IsLeast {k | Stands p ts k ∧ Stands q ts (k + 1)} i ∧ (ts.drop i).take 2 = [a, b] := by
  induction ts with
  | nil => cases h
  | cons c ts ih =>
      cases ts with
      | nil => cases h
      | cons d ts =>
          rw [firstPair?] at h
          split at h
          · rename_i hcd
            cases h
            obtain ⟨hc, hd⟩ := Bool.and_eq_true_iff.mp hcd
            exact ⟨0, ⟨⟨hc, hd⟩, fun k _ => Nat.zero_le k⟩, rfl⟩
          · rename_i hcd
            obtain ⟨i, hi, htake⟩ := ih h
            refine ⟨i + 1, isLeast_succ hi ?_, htake⟩
            rintro ⟨hc, hd⟩
            exact hcd (Bool.and_eq_true_iff.mpr ⟨hc, hd⟩)

end Validation

/-! ## The rules

Rules in the order in which they are told, which is the order of the checks.
Every rejection of the checks is about one rule, and breaks it if it is evident. -/

/-- The rules, as they are told. -/
inductive Rule where
  /-- There is a token. -/
  | nonempty
  /-- The parentheses match. -/
  | balanced
  /-- No word consists of parentheses. -/
  | noEmptyParentheses
  /-- No connective comes first or last. -/
  | noBinaryAtEnds
  /-- No negation comes last. -/
  | noUnaryLast
  /-- No two connectives are neighbours. -/
  | noAdjacentBinary
  /-- No negation stands before a connective. -/
  | noUnaryBeforeBinary
  /-- No two operands are neighbours. -/
  | noAdjacentOperands
  /-- No parenthesis is attached to a connective. -/
  | noParenthesizedBinary
  /-- No parenthesis closes behind a negation. -/
  | noUnaryBeforeClosing
  /-- No negation stands right behind an operand. -/
  | noUnaryAfterOperand
deriving DecidableEq

namespace Rule

/-- The number of a rule. -/
def number : Rule → Nat
  | .nonempty => 1
  | .balanced => 2
  | .noEmptyParentheses => 3
  | .noBinaryAtEnds => 4
  | .noUnaryLast => 5
  | .noAdjacentBinary => 6
  | .noUnaryBeforeBinary => 7
  | .noAdjacentOperands => 8
  | .noParenthesizedBinary => 9
  | .noUnaryBeforeClosing => 10
  | .noUnaryAfterOperand => 11

/-- The tokens break the rule. -/
def Broken (ts : List Token) : Rule → Prop
  | .nonempty => ts = []
  | .balanced => Unmatched ts
  | .noEmptyParentheses => ∃ i, Stands isEmpty ts i
  | .noBinaryAtEnds =>
    ∃ i, Misplacement.leadingBinary.At ts i ∨ Misplacement.trailingBinary.At ts i
  | .noUnaryLast => ∃ i, Misplacement.trailingUnary.At ts i
  | .noAdjacentBinary => ∃ i, Misplacement.adjacentBinary.At ts i
  | .noUnaryBeforeBinary => ∃ i, Misplacement.unaryBeforeBinary.At ts i
  | .noAdjacentOperands => ∃ i, Stands isOperand ts i ∧ Stands isOperand ts (i + 1)
  | .noParenthesizedBinary => ∃ i, Misplacement.parenthesizedBinary.At ts i
  | .noUnaryBeforeClosing => ∃ i, Misplacement.unaryBeforeClosing.At ts i
  | .noUnaryAfterOperand => ∃ i, Misplacement.unaryAfterOperand.At ts i

/-- The rules that are looked for together, in the order of the checks. -/
def stages : List (List Rule) :=
  [[.nonempty], [.balanced], [.noEmptyParentheses], [.noBinaryAtEnds], [.noUnaryLast],
    [.noAdjacentBinary], [.noUnaryBeforeBinary], [.noAdjacentOperands],
    [.noParenthesizedBinary, .noUnaryBeforeClosing], [.noUnaryAfterOperand]]

theorem mem_stages (r : Rule) : r ∈ stages.flatten := by
  cases r <;> decide

theorem pairwise_stages : stages.flatten.Pairwise fun q r => q.number < r.number := by
  decide

/-- Only two rules are looked for together. -/
theorem eq_of_mem_stage :
    ∀ rs ∈ stages, ∀ q ∈ rs, ∀ r ∈ rs, q.number < r.number →
      q = .noParenthesizedBinary ∧ r = .noUnaryBeforeClosing := by
  decide

end Rule

/-- The rule that forbids it. -/
def Misplacement.rule : Misplacement → Rule
  | .leadingBinary | .trailingBinary => .noBinaryAtEnds
  | .trailingUnary => .noUnaryLast
  | .adjacentBinary => .noAdjacentBinary
  | .unaryBeforeBinary => .noUnaryBeforeBinary
  | .parenthesizedBinary => .noParenthesizedBinary
  | .unaryBeforeClosing => .noUnaryBeforeClosing
  | .unaryAfterOperand => .noUnaryAfterOperand

/-- The rule that a rejection is about, if it is about one. -/
def Rejection.rule? : Rejection → Option Rule
  | .emptyExpression => some .nonempty
  | .unbalanced _ _ => some .balanced
  | .emptyParentheses _ => some .noEmptyParentheses
  | .misplaced reason _ => some reason.rule
  | .adjacentOperands _ _ => some .noAdjacentOperands
  | .unbuildable _ _ _ | .tooComplex _ _ _ => none

theorem Misplacement.At.broken {reason : Misplacement} {ts : List Token} {i : Nat}
    (h : reason.At ts i) : reason.rule.Broken ts := by
  cases reason with
  | leadingBinary => exact ⟨i, .inl h⟩
  | trailingBinary => exact ⟨i, .inr h⟩
  | _ => exact ⟨i, h⟩

theorem Rejection.Evident.broken {reason : Rejection} {ts : List Token} {r : Rule}
    (h : reason.Evident ts) (hr : reason.rule? = some r) : r.Broken ts := by
  cases reason with
  | emptyExpression =>
      cases hr
      exact h
  | unbalanced =>
      cases hr
      exact h.2.2
  | emptyParentheses | adjacentOperands =>
      cases hr
      obtain ⟨i, hi, -⟩ := h
      exact ⟨i, hi.1⟩
  | misplaced =>
      cases hr
      obtain ⟨i, -, hi, -⟩ := h
      exact hi.broken
  | unbuildable | tooComplex => cases hr

/-! ## What the checks find

The checks of one misplacement are treated through `Detects`, which speaks of places
instead of rules; `Detects.finds` passes from there to the rule.  What a check reports is
about one place, so that it is evident takes two steps: the search stopped at the first
place with the fault, and the tokens it mentions are those at this place.  Where two
misplacements share a check, the first place is the first with either of them, which is
why `Rejection.Evident` speaks of `Misplacement.together`. -/

namespace Validation

/-- If the check finds something, it is this misplacement, and if not, there is none. -/
structure Detects (check : Check) (reason : Misplacement) : Prop where
  evident : ∀ {ts rejection}, check ts = some rejection →
    rejection.Evident ts ∧ rejection.rule? = some reason.rule
  absent : ∀ {ts}, check ts = none → ∀ i, ¬ reason.At ts i

/-- If the check finds something, it is a breach of one of the rules, and if not, they
are kept. -/
structure Finds (check : Check) (rules : List Rule) : Prop where
  evident : ∀ {ts rejection}, check ts = some rejection →
    rejection.Evident ts ∧ ∃ r ∈ rules, rejection.rule? = some r
  kept : ∀ {ts}, check ts = none → ∀ r ∈ rules, ¬ r.Broken ts

variable {reason : Misplacement}

theorem finds_one {check : Check} {r : Rule}
    (hevident : ∀ {ts rejection}, check ts = some rejection →
      rejection.Evident ts ∧ rejection.rule? = some r)
    (hkept : ∀ {ts}, check ts = none → ¬ r.Broken ts) : Finds check [r] where
  evident h := ⟨(hevident h).1, r, List.mem_singleton_self r, (hevident h).2⟩
  kept h _ hr := List.mem_singleton.mp hr ▸ hkept h

theorem Detects.finds {check : Check} (h : Detects check reason)
    (hb : ∀ {ts}, reason.rule.Broken ts → ∃ i, reason.At ts i) : Finds check [reason.rule] := by
  refine finds_one h.evident ?_
  intro ts hc hbroken
  obtain ⟨i, hi⟩ := hb hbroken
  exact h.absent hc i hi

theorem evident_alone {ts : List Token} {i : Nat} (ht : reason.together = [reason])
    (hi : IsLeast {k | reason.At ts k} i) :
    (Rejection.misplaced reason (((ts.drop i).take reason.width).map mention)).Evident ts := by
  refine ⟨i, ?_, hi.1, rfl⟩
  rw [ht]
  simpa only [List.mem_singleton, exists_eq_left] using hi

theorem detects_inPair {p q : Token → Bool} (ht : reason.together = [reason])
    (hw : reason.width = 2)
    (hat : ∀ {ts i}, reason.At ts i ↔ Stands p ts i ∧ Stands q ts (i + 1)) :
    Detects (inPair reason fun a b => p a && q b) reason where
  evident := by
    intro ts rejection h
    obtain ⟨⟨a, b⟩, hab, rfl⟩ := Option.map_eq_some_iff.mp h
    obtain ⟨i, hi, htake⟩ := firstPair?_eq_some hab
    simp only [← hat] at hi
    have he := evident_alone ht hi
    rw [hw, htake] at he
    exact ⟨he, rfl⟩
  absent := by
    intro ts h i hi
    exact firstPair?_eq_none (inPair_eq_none.mp h) i (hat.mp hi)

theorem detects_atEnd_head {p : Token → Bool} (ht : reason.together = [reason])
    (hw : reason.width = 1) (hat : ∀ {ts i}, reason.At ts i ↔ i = 0 ∧ Stands p ts i) :
    Detects (fun ts => atEnd reason p ts.head?) reason where
  evident := by
    intro ts rejection h
    obtain ⟨t, ht', rfl⟩ := Option.map_eq_some_iff.mp h
    obtain ⟨hhead, hp⟩ := Option.filter_eq_some_iff.mp ht'
    obtain ⟨rest, rfl⟩ := List.head?_eq_some_iff.mp hhead
    have hi : reason.At (t :: rest) 0 := hat.mpr ⟨rfl, stands_zero.mpr hp⟩
    have he := evident_alone ht ⟨hi, fun k _ => Nat.zero_le k⟩
    rw [hw] at he
    exact ⟨he, rfl⟩
  absent := by
    intro ts h i hi
    obtain ⟨rfl, hi⟩ := hat.mp hi
    obtain ⟨t, ht', hp⟩ := stands_iff.mp hi
    rw [← List.head?_eq_getElem?] at ht'
    rw [atEnd_eq_none.mp h t ht'] at hp
    cases hp

theorem detects_atEnd_last {p : Token → Bool} (ht : reason.together = [reason])
    (hw : reason.width = 1)
    (hat : ∀ {ts i}, reason.At ts i ↔ i + 1 = ts.length ∧ Stands p ts i) :
    Detects (fun ts => atEnd reason p ts.getLast?) reason where
  evident := by
    intro ts rejection h
    obtain ⟨t, ht', rfl⟩ := Option.map_eq_some_iff.mp h
    obtain ⟨hlast, hp⟩ := Option.filter_eq_some_iff.mp ht'
    obtain ⟨front, rfl⟩ := List.getLast?_eq_some_iff.mp hlast
    have hi : reason.At (front ++ [t]) front.length :=
      hat.mpr ⟨by simp, stands_iff.mpr ⟨t, by simp, hp⟩⟩
    have hleast : IsLeast {k | reason.At (front ++ [t]) k} front.length := by
      refine ⟨hi, ?_⟩
      intro k hk
      have hlen := (hat.mp hk).1
      rw [List.length_append, List.length_singleton] at hlen
      omega
    have he := evident_alone ht hleast
    rw [hw, List.drop_left] at he
    exact ⟨he, rfl⟩
  absent := by
    intro ts h i hi
    obtain ⟨hlen, hi⟩ := hat.mp hi
    obtain ⟨t, ht', hp⟩ := stands_iff.mp hi
    have hlast : ts.getLast? = some t := by
      rw [List.getLast?_eq_getElem?, ← hlen, Nat.add_sub_cancel, ht']
    rw [atEnd_eq_none.mp h t hlast] at hp
    cases hp

theorem finds_nonempty : Finds nonempty [.nonempty] := by
  refine finds_one ?_ ?_
  · intro ts rejection h
    rw [nonempty] at h
    split at h
    · rename_i hts
      cases h
      exact ⟨List.isEmpty_iff.mp hts, rfl⟩
    · cases h
  · intro ts h hb
    rw [show ts = [] from hb] at h
    cases h

end Validation

/-! ## Matching parentheses

The check walks along the tokens with the number of open parentheses in hand; the rule
speaks of the tokens up to some place.  A token opens its parentheses before it closes
any, so the numbers up to the end of each token are enough to tell whether something is
closed too early. -/

theorem Token.closesEarly_iff {ts : List Token} :
    ∀ {n : Nat}, closesEarly n ts = true ↔
      ∃ l, l <+: ts ∧ n + openingCount l < closingCount l := by
  induction ts with
  | nil =>
      intro n
      simp [closesEarly, openingCount, closingCount]
  | cons t ts ih =>
      intro n
      rw [closesEarly, Bool.or_eq_true, decide_eq_true_eq, ih]
      constructor
      · intro h
        by_cases ht : t.closing > n + t.opening
        · exact ⟨[t], List.prefix_iff_eq_take.mpr rfl,
            by simpa [openingCount, closingCount] using ht⟩
        · obtain ⟨l, hl, hlt⟩ := h.resolve_left ht
          refine ⟨t :: l, List.cons_prefix_cons.mpr ⟨rfl, hl⟩, ?_⟩
          show n + (t.opening + openingCount l) < t.closing + closingCount l
          omega
      · rintro ⟨l, hl, hlt⟩
        cases l with
        | nil => exact absurd hlt (Nat.not_lt_zero _)
        | cons u l =>
            obtain ⟨rfl, hl'⟩ := List.cons_prefix_cons.mp hl
            replace hlt : n + (u.opening + openingCount l) < u.closing + closingCount l := hlt
            by_cases h : u.closing > n + u.opening
            · exact .inl h
            · exact .inr ⟨l, hl', by omega⟩

theorem Token.unmatched_iff {ts : List Token} :
    Unmatched ts ↔ openingCount ts ≠ closingCount ts ∨ closesEarly 0 ts = true := by
  rw [Unmatched, closesEarly_iff]
  simp only [Nat.zero_add]

namespace Validation

theorem finds_balanced : Finds balanced [.balanced] := by
  refine finds_one ?_ ?_
  · intro ts rejection h
    rw [balanced] at h
    split at h
    · rename_i hts
      cases h
      rw [Bool.or_eq_true, decide_eq_true_eq, ← unmatched_iff] at hts
      exact ⟨⟨rfl, rfl, hts⟩, rfl⟩
    · cases h
  · intro ts h hb
    have hfault : balanced ts =
        some (.unbalanced (openingCount ts) (closingCount ts)) := by
      rw [balanced, if_pos]
      rwa [Bool.or_eq_true, decide_eq_true_eq, ← unmatched_iff]
    cases hfault.symm.trans h

theorem finds_noEmptyParentheses : Finds noEmptyParentheses [.noEmptyParentheses] := by
  refine finds_one ?_ ?_
  · intro ts rejection h
    obtain ⟨t, ht, rfl⟩ := Option.map_eq_some_iff.mp h
    obtain ⟨hp, before, after, rfl, hb⟩ := List.find?_eq_some_iff_append.mp ht
    have hleast := isLeast_append after hp (by simpa using hb)
    exact ⟨⟨before.length, hleast, by simp⟩, rfl⟩
  · intro ts h hb
    obtain ⟨t, ht, hp⟩ := exists_stands_iff.mp hb
    exact List.find?_eq_none.mp (Option.map_eq_none_iff.mp h) t ht hp

theorem finds_noBinaryAtEnds : Finds noBinaryAtEnds [.noBinaryAtEnds] := by
  have hfirst : Detects (fun ts => atEnd .leadingBinary isBinary ts.head?) .leadingBinary :=
    detects_atEnd_head rfl rfl Iff.rfl
  have hlast : Detects (fun ts => atEnd .trailingBinary isBinary ts.getLast?) .trailingBinary :=
    detects_atEnd_last rfl rfl Iff.rfl
  refine finds_one ?_ ?_
  · intro ts rejection h
    rcases Option.or_eq_some_iff.mp h with h | ⟨-, h⟩
    · exact hfirst.evident h
    · exact hlast.evident h
  · intro ts h hb
    obtain ⟨hf, hl⟩ := Option.or_eq_none_iff.mp h
    obtain ⟨i, hi | hi⟩ := hb
    · exact hfirst.absent hf i hi
    · exact hlast.absent hl i hi

theorem finds_noAdjacentOperands : Finds noAdjacentOperands [.noAdjacentOperands] := by
  refine finds_one ?_ ?_
  · intro ts rejection h
    obtain ⟨⟨a, b⟩, hab, rfl⟩ := Option.map_eq_some_iff.mp h
    obtain ⟨i, hi, htake⟩ := firstPair?_eq_some hab
    refine ⟨⟨i, hi, ?_⟩, rfl⟩
    rw [htake]
    rfl
  · intro ts h hb
    obtain ⟨i, hi⟩ := hb
    exact firstPair?_eq_none (Option.map_eq_none_iff.mp h) i hi

/-- A token is at fault for its parentheses in one of two ways. -/
theorem stands_parenthesisFault? {ts : List Token} {k : Nat} :
    Stands (fun t => (parenthesisFault? t).isSome) ts k ↔
      ∃ m ∈ [Misplacement.parenthesizedBinary, .unaryBeforeClosing], m.At ts k := by
  have hfault : (fun t => (parenthesisFault? t).isSome) = fun t =>
      (t.isBinary && t.hasParentheses) || (t.isUnary && t.closing > 0) := by
    funext t
    unfold parenthesisFault?
    split
    · simp_all
    · split <;> simp_all
  rw [hfault, stands_or]
  simp only [List.mem_cons, List.not_mem_nil, or_false, exists_eq_or_imp, exists_eq_left]
  rfl

theorem at_of_parenthesisFault? {t : Token} {m : Misplacement} (h : parenthesisFault? t = some m)
    (before after : List Token) :
    m.At (before ++ t :: after) before.length ∧
      m.together = [.parenthesizedBinary, .unaryBeforeClosing] ∧ m.width = 1 ∧
      m.rule ∈ [Rule.noParenthesizedBinary, .noUnaryBeforeClosing] := by
  unfold parenthesisFault? at h
  split at h
  · cases h
    exact ⟨stands_append before after ‹_›, rfl, rfl, by decide⟩
  · split at h
    · cases h
      exact ⟨stands_append before after ‹_›, rfl, rfl, by decide⟩
    · cases h

theorem finds_noParenthesizedOperator :
    Finds noParenthesizedOperator [.noParenthesizedBinary, .noUnaryBeforeClosing] where
  evident := by
    intro ts rejection h
    obtain ⟨before, t, after, rfl, ht, hb⟩ := List.findSome?_eq_some_iff.mp h
    obtain ⟨m, hm, rfl⟩ := Option.map_eq_some_iff.mp ht
    obtain ⟨hat, htogether, hwidth, hrule⟩ := at_of_parenthesisFault? hm before after
    have hleast := isLeast_append (p := fun t => (parenthesisFault? t).isSome) after
      (Option.isSome_iff_exists.mpr ⟨m, hm⟩) fun u hu => by simpa using hb u hu
    simp only [stands_parenthesisFault?, ← htogether] at hleast
    refine ⟨⟨before.length, hleast, hat, ?_⟩, m.rule, hrule, rfl⟩
    rw [hwidth, List.drop_left]
    rfl
  kept := by
    intro ts h r hr hb
    have hnone : ¬ ∃ k, Stands (fun t => (parenthesisFault? t).isSome) ts k := by
      rw [exists_stands_iff]
      rintro ⟨t, ht, hfault⟩
      have hk := Option.map_eq_none_iff.mp (List.findSome?_eq_none_iff.mp h t ht)
      rw [hk] at hfault
      cases hfault
    simp only [stands_parenthesisFault?] at hnone
    simp only [List.mem_cons, List.not_mem_nil, or_false] at hr
    rcases hr with rfl | rfl
    · obtain ⟨i, hi⟩ := hb
      exact hnone ⟨i, _, List.mem_cons_self, hi⟩
    · obtain ⟨i, hi⟩ := hb
      exact hnone ⟨i, _, List.mem_cons_of_mem _ List.mem_cons_self, hi⟩

/-! ## All checks, in their order

Since no rule of an earlier check is broken when a later one reports, the first
report is about the first stage in which a rule is broken. -/

/-- Each check finds the breaches of its rules. -/
theorem finds_checks : List.Forall₂ Finds checks Rule.stages := by
  have hlast : Detects noUnaryLast .trailingUnary := detects_atEnd_last rfl rfl Iff.rfl
  have hadjacent : Detects noAdjacentBinary .adjacentBinary := detects_inPair rfl rfl Iff.rfl
  have hbefore : Detects noUnaryBeforeBinary .unaryBeforeBinary :=
    detects_inPair rfl rfl Iff.rfl
  have hafter : Detects noUnaryAfterOperand .unaryAfterOperand := detects_inPair rfl rfl Iff.rfl
  exact .cons finds_nonempty <| .cons finds_balanced <| .cons finds_noEmptyParentheses <|
    .cons finds_noBinaryAtEnds <| .cons (hlast.finds id) <| .cons (hadjacent.finds id) <|
    .cons (hbefore.finds id) <| .cons finds_noAdjacentOperands <|
    .cons finds_noParenthesizedOperator <| .cons (hafter.finds id) .nil

/-- The checks find a breach of a rule if there is one, and none of the rules of an
earlier check is broken then. -/
theorem findSome?_checks {cs : List Check} {rss : List (List Rule)}
    (h : List.Forall₂ Finds cs rss) (ts : List Token) :
    (cs.findSome? (fun check => check ts) = none → ∀ r ∈ rss.flatten, ¬ r.Broken ts) ∧
      ∀ rejection, cs.findSome? (fun check => check ts) = some rejection →
        rejection.Evident ts ∧ ∃ before rs after, rss = before ++ rs :: after ∧
          (∀ q ∈ before.flatten, ¬ q.Broken ts) ∧ ∃ r ∈ rs, rejection.rule? = some r := by
  induction h with
  | nil => exact ⟨fun _ r hr => (nomatch hr), fun rejection h => nomatch h⟩
  | @cons check rs cs rss hfinds _ ih =>
      rw [List.findSome?_cons]
      cases hcheck : check ts with
      | some rejection =>
          refine ⟨nofun, ?_⟩
          rintro _ ⟨⟩
          obtain ⟨he, hr⟩ := hfinds.evident hcheck
          exact ⟨he, [], rs, rss, rfl, fun q hq => (nomatch hq), hr⟩
      | none =>
          have hkept := hfinds.kept hcheck
          constructor
          · intro hnone r hr
            rcases List.mem_append.mp hr with hr | hr
            · exact hkept r hr
            · exact ih.1 hnone r hr
          · intro rejection hsome
            obtain ⟨he, before, rs', after, rfl, hbefore, hr⟩ := ih.2 rejection hsome
            refine ⟨he, rs :: before, rs', after, rfl, ?_, hr⟩
            intro q hq
            rcases List.mem_append.mp hq with hq | hq
            · exact hkept q hq
            · exact hbefore q hq

end Validation

variable {ts : List Token} {rejection : Rejection}

/-- The rules are kept by tokens in which no check finds anything. -/
theorem not_broken_of_rejection? (h : rejection? ts = none) (r : Rule) : ¬ r.Broken ts :=
  (Validation.findSome?_checks Validation.finds_checks ts).1 h r r.mem_stages

theorem evident_of_rejection? (h : rejection? ts = some rejection) : rejection.Evident ts :=
  ((Validation.findSome?_checks Validation.finds_checks ts).2 rejection h).1

end Clausal
