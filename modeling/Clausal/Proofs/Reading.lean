/-
# What a parser reads

A text is refused by the first of three stages that finds a fault: a blank text, a
limit that is exceeded, a rule that is broken.  Then a tree is built, and as nothing is
left that could go wrong, what is read is a text whose pieces are derivable, with the
tree that they derive (`Parser.parse_cases`).

Without limits this is an equivalence.  `Parser.parse_eq_ok_iff_derives` says for every
vocabulary and every text that exactly the texts of the grammar are read, each as the
tree that its pieces derive, and that all others are refused; so there is one tree at
most, and the grammar says which.  The two sides of it are the two directions in which
the stages are passed.  What is read keeps the rules and is built, and a tree that is
built is derived.  What is derivable can be read symbol by symbol, hence keeps the
rules, hence is built, and the tree is the one of the derivation.

That no tree is missing has a reading of its own (`Parser.buildable_of_validate`): the
refusals of the builder are never given by a parser.  The rules do not give them
because what they give is evident, and a limit gives another kind of reason.
-/
import Clausal.Proofs.Breaches
import Clausal.Proofs.Tokenizing
import Clausal.Proofs.TreeBuilding

namespace Clausal

/-! ## Reasons other than the want of a tree -/

theorem rejection?_ne_unbuildable (ts : List Token) (first last : Nat) (obstacle : Obstacle) :
    rejection? ts ≠ some (.unbuildable first last obstacle) := by
  intro h
  have hevident := evident_of_rejection? h
  exact hevident

namespace Parser

theorem exists_tooComplex_of_limitRejection? {p : Parser} {ts : List Token} {reason : Rejection}
    (h : p.limitRejection? ts = some reason) :
    ∃ measure actual limit, reason = .tooComplex measure actual limit := by
  have within : ∀ measure actual limit, exceeded? measure actual limit = some reason →
      ∃ measure actual limit, reason = .tooComplex measure actual limit := by
    intro measure actual limit h
    obtain ⟨l, -, rfl⟩ := Option.map_eq_some_iff.mp h
    exact ⟨measure, actual, l, rfl⟩
  rcases Option.or_eq_some_iff.mp h with h | ⟨-, h⟩
  · exact within _ _ _ h
  · exact within _ _ _ h

theorem limitRejection?_ne_unbuildable (p : Parser) (ts : List Token) (first last : Nat)
    (obstacle : Obstacle) :
    p.limitRejection? ts ≠ some (.unbuildable first last obstacle) := by
  intro h
  obtain ⟨_, _, _, hreason⟩ := exists_tooComplex_of_limitRejection? h
  cases hreason

/-! ## Texts and derivations

The grammar is about symbols, and the symbols are those of the pieces of the text under
the vocabulary at hand. -/

/-- All that can come of a text: it is blank, it is refused for a limit or a rule,
or it is derivable and read as the tree that it derives. -/
theorem parse_cases (p : Parser) (text : String) :
    p.parse text = .error .emptyExpression ∨
    (∃ reason, p.parse text = .error reason ∧
      (p.limitRejection? (p.tokenize text) = some reason ∨
        rejection? (p.tokenize text) = some reason)) ∨
    ∃ f, p.parse text = .ok f ∧
      Derives 0 ((pieces text).map (Symbol.ofPiece p.vocabulary)) f.bare := by
  rw [parse_eq]
  split
  · exact .inl rfl
  · cases hr : (p.limitRejection? (p.tokenize text)).or (rejection? (p.tokenize text)) with
    | some reason =>
        refine .inr (.inl ⟨reason, rfl, ?_⟩)
        exact (Option.or_eq_some_iff.mp hr).imp id And.right
    | none =>
        have hrules := (Option.or_eq_none_iff.mp hr).2
        obtain ⟨g, hg, hd⟩ := Formula.exists_ofTokens_of_rejection? hrules
        rw [p.symbolsOf_tokenize] at hd
        exact .inr (.inr ⟨g, hg, hd⟩)

theorem derives_of_parse {p : Parser} {text : String} {f : Formula}
    (h : p.parse text = .ok f) :
    Derives 0 ((pieces text).map (Symbol.ofPiece p.vocabulary)) f.bare := by
  rcases p.parse_cases text with hp | ⟨reason, hp, -⟩ | ⟨g, hp, hd⟩
  · cases hp.symm.trans h
  · cases hp.symm.trans h
  · cases hp.symm.trans h
    exact hd

/-- What is derivable is read, within the limits. -/
theorem exists_parse_of_derives {p : Parser} {text : String} {t : Formula}
    (hp : p.limitRejection? (p.tokenize text) = none)
    (h : Derives 0 ((pieces text).map (Symbol.ofPiece p.vocabulary)) t) :
    ∃ f, p.parse text = .ok f ∧ f.bare = t := by
  have hreads := reads_of_derives h
  have hr : rejection? (p.tokenize text) = none :=
    p.rejection?_tokenize_eq_none_iff.mpr hreads
  rw [← p.symbolsOf_tokenize] at h
  obtain ⟨f, hf, ht⟩ := Formula.ofTokens_of_derives (rejection?_eq_none_iff.mp hr).1 h
  have hb : Text.isAllBlank text = false := by
    rw [Bool.eq_false_iff]
    intro hb
    rw [pieces, Piece.scan_of_all_blank hb] at hreads
    exact hreads
  exact ⟨f, parse_eq_ok_iff.mpr ⟨hb, hp, hr, hf⟩, ht⟩

/-- Without limits exactly the texts of the grammar are read, each as the tree that
its pieces derive, and all others are refused. -/
theorem parse_eq_ok_iff_derives (v : Vocabulary) (text : String) :
    (∀ t : Formula,
      (∃ f, ({ vocabulary := v } : Parser).parse text = .ok f ∧ f.Alike t) ↔
        ∃ ps, Piece.Cut text.toList ps ∧ Derives 0 (ps.map (Symbol.ofPiece v)) t.bare) ∧
    ((∃ reason, ({ vocabulary := v } : Parser).parse text = .error reason) ↔
      ¬ ∃ ps t, Piece.Cut text.toList ps ∧ Derives 0 (ps.map (Symbol.ofPiece v)) t) := by
  have complete : ∀ ps t, Piece.Cut text.toList ps → Derives 0 (ps.map (Symbol.ofPiece v)) t →
      ∃ f, ({ vocabulary := v } : Parser).parse text = .ok f ∧ f.bare = t := by
    intro ps t hcut hd
    rw [← Piece.scan_eq_of_cut hcut] at hd
    exact exists_parse_of_derives rfl hd
  constructor
  · intro t
    constructor
    · rintro ⟨f, hf, ht⟩
      refine ⟨pieces text, Piece.cut_scan _, ?_⟩
      rw [← ht]
      exact derives_of_parse hf
    · rintro ⟨ps, hcut, hd⟩
      exact complete ps t.bare hcut hd
  · constructor
    · rintro ⟨reason, hr⟩ ⟨ps, t, hcut, hd⟩
      obtain ⟨f, hf, -⟩ := complete ps t hcut hd
      cases hr.symm.trans hf
    · intro h
      cases hp : ({ vocabulary := v } : Parser).parse text with
      | error reason => exact ⟨reason, rfl⟩
      | ok f => exact absurd ⟨pieces text, f.bare, Piece.cut_scan _, derives_of_parse hp⟩ h

/-- Tokens that keep the rules have a tree, so no parser gives the want of one as
its reason. -/
theorem buildable_of_validate :
    (∀ ts : List Token, (validate ts).outcome = .ok () →
      ∃ f, (Formula.ofTokens ts).outcome = .ok f) ∧
    ∀ (p : Parser) (text : String) (first last : Nat) (obstacle : Obstacle),
      p.parse text ≠ .error (.unbuildable first last obstacle) := by
  constructor
  · intro ts h
    rw [outcome_validate] at h
    cases hr : rejection? ts with
    | some reason =>
        rw [hr] at h
        cases h
    | none =>
        obtain ⟨g, hg, -⟩ := Formula.exists_ofTokens_of_rejection? hr
        exact ⟨g, hg⟩
  · intro p text first last obstacle h
    rcases p.parse_cases text with hp | ⟨reason, hp, hr⟩ | ⟨f, hp, -⟩
    · cases hp.symm.trans h
    · cases hp.symm.trans h
      rcases hr with hlimit | hrule
      · exact limitRejection?_ne_unbuildable _ _ _ _ _ hlimit
      · exact rejection?_ne_unbuildable _ _ _ _ hrule
    · cases hp.symm.trans h

/-- Tokens with a group in front and a negation behind have a tree. -/
theorem buildable_of_validate_group_negation :
    let ts := Token.classifyAll .standard ["(a", "AND", "b)", "or", "not", "c"]
    (validate ts).outcome = .ok () ∧ ∃ f, (Formula.ofTokens ts).outcome = .ok f := by
  intro ts
  have hr : rejection? ts = none := by decide
  have hv : (validate ts).outcome = .ok () := by rw [outcome_validate, hr]
  exact ⟨hv, buildable_of_validate.1 ts hv⟩

end Parser

end Clausal
