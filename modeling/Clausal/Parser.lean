/-
# Reading a text

From a text to a formula, and from there to clauses.  A parser has a vocabulary
and may limit the number of tokens and the depth of parentheses.  Reading goes
through four stages, and the first of them that refuses decides the outcome:

  * a text of blanks alone is an empty expression, before anything is reported;
  * the words of the text are reported, and the limits are checked, the number
    of tokens before the depth;
  * the rules are checked, and what breaks one is reported as rejected;
  * the tree is built, with an event for every split, and reported as parsed.

`trace` is the whole run with its events, and `parse` its outcome.  A refusal for a
limit, or for want of a tree, is not reported.
-/
import Clausal.Clause
import Clausal.Formula.OfTokens
import Clausal.Validation

namespace Clausal

/-- How texts are read. -/
structure Parser where
  vocabulary : Vocabulary := .standard
  maxTokens : Option Nat := none
  maxDepth : Option Nat := none

/-- Refuse tokens that break a rule, and report it. -/
def validate (ts : List Token) : Traced Unit :=
  match rejection? ts with
  | none => pure ()
  | some reason => do
    Traced.emit (.rejected ts.length reason)
    Traced.reject reason

namespace Parser

/-- The parser with the standard vocabulary and no limits. -/
def standard : Parser := {}

/-- The tokens of a text. -/
def tokenize (p : Parser) (text : String) : List Token :=
  Token.classifyAll p.vocabulary (words (normalize text))

/-- A measure must not exceed its limit, if it has one. -/
def exceeded? (measure : Measure) (actual : Nat) (limit : Option Nat) : Option Rejection :=
  (limit.filter (· < actual)).map (.tooComplex measure actual)

/-- The limit that tokens go beyond, if they do. -/
def limitRejection? (p : Parser) (ts : List Token) : Option Rejection :=
  (exceeded? .tokenCount ts.length p.maxTokens).or
    (exceeded? .depth (Token.maxDepth ts) p.maxDepth)

/-- Read a text, and report on the way. -/
def trace (p : Parser) (text : String) : Traced Formula := do
  if Text.isAllBlank text then Traced.reject .emptyExpression
  else
    let ts := p.tokenize text
    Traced.emit (.words text (ts.map Token.word))
    if let some reason := p.limitRejection? ts then Traced.reject reason
    else
      validate ts
      let f ← Formula.ofTokens ts
      Traced.emit (.parsed ts.length f.height)
      return f

/-- Read a text. -/
def parse (p : Parser) (text : String) : Except Rejection Formula := (p.trace text).outcome

/-! ## The stages of reading

What is reported on the way leaves no trace in what a text is read as: the
outcome of each stage is that of the next one, unless it refuses.  `parse_eq`
says so for the run as a whole, and `parse_eq_ok_iff` is the form of it in which
it is used. -/

end Parser

theorem outcome_validate (ts : List Token) :
    (validate ts).outcome = match rejection? ts with
      | none => .ok ()
      | some reason => .error reason := by
  unfold validate
  cases rejection? ts <;> rfl

theorem outcome_validate_eq_ok {ts : List Token} :
    (validate ts).outcome = .ok () ↔ rejection? ts = none := by
  rw [outcome_validate]
  cases rejection? ts <;> simp

namespace Parser

theorem parse_eq (p : Parser) (text : String) :
    p.parse text =
      if Text.isAllBlank text then .error .emptyExpression
      else match (p.limitRejection? (p.tokenize text)).or (rejection? (p.tokenize text)) with
        | some reason => .error reason
        | none => (Formula.ofTokens (p.tokenize text)).outcome := by
  unfold parse trace
  split
  · rfl
  · rw [Traced.outcome_bind, Traced.outcome_emit]
    cases p.limitRejection? (p.tokenize text) with
    | some reason => rfl
    | none =>
        show Traced.outcome (validate (p.tokenize text) >>= _) = _
        rw [Traced.outcome_bind, outcome_validate, Option.none_or]
        cases rejection? (p.tokenize text) with
        | some reason => rfl
        | none =>
            show Traced.outcome (Formula.ofTokens (p.tokenize text) >>= _) = _
            rw [Traced.outcome_bind]
            cases (Formula.ofTokens (p.tokenize text)).outcome <;> rfl

/-- What is read is not blank, goes beyond no limit, breaks no rule, and is the tree of
its tokens. -/
theorem parse_eq_ok_iff {p : Parser} {text : String} {f : Formula} :
    p.parse text = .ok f ↔
      Text.isAllBlank text = false ∧ p.limitRejection? (p.tokenize text) = none ∧
        rejection? (p.tokenize text) = none ∧
        (Formula.ofTokens (p.tokenize text)).outcome = .ok f := by
  rw [parse_eq]
  constructor
  · intro h
    split at h
    · cases h
    rename_i hblank
    cases hr : (p.limitRejection? (p.tokenize text)).or (rejection? (p.tokenize text)) with
    | some reason =>
        rw [hr] at h
        cases h
    | none =>
        rw [hr] at h
        obtain ⟨hlimit, hrules⟩ := Option.or_eq_none_iff.mp hr
        exact ⟨Bool.eq_false_iff.mpr hblank, hlimit, hrules, h⟩
  · rintro ⟨hblank, hlimit, hrules, htree⟩
    rw [if_neg (Bool.eq_false_iff.mp hblank), hlimit, hrules]
    exact htree

end Parser

/-! ## Clauses

A formula that is in conjunctive normal form already is not reported as
normalized. -/

/-- Take the clauses out of a formula, and report on the way. -/
def Formula.traceClauses (f : Formula) : Traced (List Clause) := do
  let g := f.asCnf
  if !f.isCnf then Traced.emit (.normalized f.leafCount g.leafCount)
  let cs := g.clauseList?.getD []
  Traced.emit (.extracted cs.length)
  return cs

@[simp] theorem Formula.outcome_traceClauses (f : Formula) :
    f.traceClauses.outcome = .ok f.clauses := by
  unfold traceClauses
  cases f.isCnf <;> rfl

end Clausal
