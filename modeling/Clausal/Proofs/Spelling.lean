/-
# Only the structure of a text matters

How the pieces of a text are spelled is forgotten as soon as it is known which symbols
they are: blanks only separate, a keyword is as good as any other of its operator, and
no stage behind the tokens looks at a word.  Each stage is shown to do the same with
tokens from which the words have been taken (`unspelled`), but for the words that a
rejection mentions.

Two texts with the same symbols, each under the vocabulary of its own parser, have the
same tokens but for the words (`unspelled_tokenize_eq`): the same bundles, because
whether a space comes between two pieces depends on which symbols they are, and in them
the same parentheses and the same core.  So they are read as the same formula, origins
included, or refused for the same reason (`Parser.parse_eq_of_symbols`), if the parsers
have the same limits.

Operands are symbols with their names, and names are not forgotten.  Events are not
spoken of: they report words as they are spelled.
-/
import Clausal.Proofs.Reading

namespace Clausal

open Piece

/-! ## What is left without the words

The word of a token and the word of a mention are dropped, and nothing else; a rejection
keeps its reason, its numbers and its positions. -/

namespace Token

/-- A token that does not say how it was written. -/
def unspelled (t : Token) : Token := { t with word := "" }

end Token

/-- A mention of which only the position is left. -/
def Mention.unspelled (m : Mention) : Mention := { m with word := "" }

/-- A rejection with the words that it mentions left out; the reason, numbers and
positions stay. -/
def Rejection.unspelled : Rejection → Rejection
  | .misplaced reason tokens => .misplaced reason (tokens.map Mention.unspelled)
  | .adjacentOperands left right => .adjacentOperands left.unspelled right.unspelled
  | r => r

def Nested.unspelled (n : Nested) : Nested := { n with token := n.token.unspelled }

def Split.unspelled (s : Split) : Split where
  before := s.before.map Nested.unspelled
  pivot := s.pivot.unspelled
  op := s.op
  after := s.after.map Nested.unspelled

/-! ## Tokens of the same symbols

The symbols of a token tell everything but its word and its position: its parentheses can
be counted in them, and its core is what else is there.  So it is enough that two texts
have bundles with the same symbols, one by one, and they have, because `gap` asks only
whether a piece opens or closes. -/

theorem ofPiece_eq_symbol_iff {v : Vocabulary} {p : Piece} (side : Side) :
    Symbol.ofPiece v p = side.symbol ↔ p = side.piece := by
  cases p with
  | opening | closing => cases side <;> simp [Symbol.ofPiece]
  | run text => cases side <;> cases h : v.operator? text <;> simp [Symbol.ofPiece, h]

section
variable {v w : Vocabulary}

theorem gap_eq_nil_congr {p q p' q' : Piece}
    (hp : Symbol.ofPiece v p = Symbol.ofPiece w p')
    (hq : Symbol.ofPiece v q = Symbol.ofPiece w q') : gap p q = [] ↔ gap p' q' = [] := by
  rw [gap_eq_nil_iff, gap_eq_nil_iff, ← ofPiece_eq_symbol_iff (v := v) .opening, hp,
    ofPiece_eq_symbol_iff, ← ofPiece_eq_symbol_iff (v := v) .closing, hq, ofPiece_eq_symbol_iff]

theorem map_modifyHead_cons {α β : Type} (f : α → β) (x : α) (ls : List (List α)) :
    (ls.modifyHead (x :: ·)).map (List.map f) = (ls.map (List.map f)).modifyHead (f x :: ·) := by
  cases ls <;> rfl

theorem map_bundles_congr {ps qs : List Piece}
    (h : ps.map (Symbol.ofPiece v) = qs.map (Symbol.ofPiece w)) :
    (bundles ps).map (List.map (Symbol.ofPiece v)) =
      (bundles qs).map (List.map (Symbol.ofPiece w)) := by
  induction ps generalizing qs with
  | nil =>
      cases qs with
      | nil => rfl
      | cons => cases h
  | cons p ps ih =>
      cases qs with
      | nil => cases h
      | cons p' qs =>
          obtain ⟨hp, hps⟩ := List.cons.inj h
          match ps, qs with
          | [], [] => simpa [bundles] using hp
          | [], _ :: _ | _ :: _, [] => cases hps
          | q :: rest, q' :: rest' =>
              have hgap := gap_eq_nil_congr hp (List.cons.inj hps).1
              rw [bundles, bundles]
              by_cases hg : gap p q = []
              · rw [if_pos hg, if_pos (hgap.mp hg), map_modifyHead_cons, map_modifyHead_cons,
                  ih hps, hp]
              · rw [if_neg hg, if_neg (mt hgap.mpr hg), List.map_cons, List.map_cons, ih hps]
                simp [hp]

end

namespace Token

variable {t u : Token}

theorem count_symbols (side : Side) (t : Token) :
    t.symbols.count side.symbol = t.attached side := by
  unfold symbols core
  cases side <;> cases t.kind <;> simp [List.count_replicate]

theorem kind_eq_of_core (h : t.core = u.core) : t.kind = u.kind := by
  unfold core at h
  cases ht : t.kind <;> cases hu : u.kind <;> simp_all

/-- A token is its symbols at its position, but for the word. -/
theorem unspelled_eq_of_symbols (hpos : t.position = u.position) (h : t.symbols = u.symbols) :
    t.unspelled = u.unspelled := by
  have hattached : ∀ side, t.attached side = u.attached side := by
    intro side
    rw [← count_symbols, h, count_symbols]
  have hopening : t.opening = u.opening := hattached .opening
  have hclosing : t.closing = u.closing := hattached .closing
  have hcore : t.core = u.core := by
    have hwords := filter_isWord_symbolsOf [t]
    have hwords' := filter_isWord_symbolsOf [u]
    simp only [symbolsOf, List.flatMap_singleton] at hwords hwords'
    rw [← hwords, h, hwords']
  have hkind := kind_eq_of_core hcore
  cases t
  cases u
  simp_all [unspelled]

end Token

namespace Parser

theorem map_symbols_tokenize (p : Parser) (text : String) :
    (p.tokenize text).map Token.symbols =
      (bundles (pieces text)).map (List.map (Symbol.ofPiece p.vocabulary)) := by
  rw [tokenize, Token.classifyAll, words_normalize]
  apply List.ext_getElem
  · simp
  · intro i h h'
    have hb := List.getElem_mem (l := bundles (pieces text)) (by simpa using h')
    simp [symbols_classify_of_mem hb i]

theorem position_tokenize {p : Parser} {text : String} {i : Nat}
    (h : i < (p.tokenize text).length) : (p.tokenize text)[i].position = i :=
  Token.position_getElem (Token.positions_classifyAll _ _) h

/-- Texts of the same symbols have the same tokens but for the words. -/
theorem unspelled_tokenize_eq {p q : Parser} {a b : String}
    (h : (pieces a).map (Symbol.ofPiece p.vocabulary) =
      (pieces b).map (Symbol.ofPiece q.vocabulary)) :
    (p.tokenize a).map Token.unspelled = (q.tokenize b).map Token.unspelled := by
  have hsymbols : (p.tokenize a).map Token.symbols = (q.tokenize b).map Token.symbols := by
    rw [map_symbols_tokenize, map_symbols_tokenize, map_bundles_congr h]
  apply List.ext_getElem
  · simpa using congrArg List.length hsymbols
  · intro i hi hi'
    rw [List.getElem_map, List.getElem_map]
    apply Token.unspelled_eq_of_symbols
    · rw [position_tokenize, position_tokenize]
    · have hi := List.getElem_of_eq hsymbols (by simpa using hi)
      rwa [List.getElem_map, List.getElem_map] at hi

end Parser

/-! ## Depth

Depth and balance are counted with the numbers that a token says, so they are the same
without the words by definition. -/

namespace Token

theorem nest_unspelled (ts : List Token) :
    ∀ n, nest n (ts.map unspelled) = (nest n ts).map Nested.unspelled := by
  induction ts with
  | nil => intro n; rfl
  | cons t ts ih => intro n; exact congrArg (_ :: ·) (ih _)

theorem maxDepth_unspelled (ts : List Token) : maxDepth (ts.map unspelled) = maxDepth ts := by
  rw [maxDepth, nest_unspelled, List.foldl_map]
  rfl

theorem attachedCount_unspelled (side : Side) (ts : List Token) :
    attachedCount side (ts.map unspelled) = attachedCount side ts := by
  rw [attachedCount, List.foldr_map]
  cases side <;> rfl

theorem closesEarly_unspelled (ts : List Token) :
    ∀ n, closesEarly n (ts.map unspelled) = closesEarly n ts := by
  induction ts with
  | nil => intro n; rfl
  | cons t ts ih => intro n; exact congrArg (_ || ·) (ih _)

end Token

/-! ## Rules

The properties that the rules ask for are properties of kind and parentheses.  What a
check reports carries words, and these are dropped from the report; `IgnoresWords` says
this of one check, and the checks are gone through once. -/

namespace Validation

theorem firstPair?_unspelled {r : Token → Token → Bool}
    (hr : ∀ a b, r a.unspelled b.unspelled = r a b) (ts : List Token) :
    firstPair? r (ts.map Token.unspelled) =
      (firstPair? r ts).map (Prod.map Token.unspelled Token.unspelled) := by
  induction ts with
  | nil => rfl
  | cons a ts ih =>
      cases ts with
      | nil => rfl
      | cons b ts =>
          simp only [List.map_cons, firstPair?, hr] at ih ⊢
          split
          · rfl
          · exact ih

/-- The check gives the same reason whether or not it can see the words. -/
def IgnoresWords (check : Check) : Prop :=
  ∀ ts, check (ts.map Token.unspelled) = (check ts).map Rejection.unspelled

theorem atEnd_unspelled {reason : Misplacement} {p : Token → Bool}
    (hp : ∀ t, p t.unspelled = p t) (t : Option Token) :
    atEnd reason p (t.map Token.unspelled) = (atEnd reason p t).map Rejection.unspelled := by
  cases t with
  | none => rfl
  | some t =>
      rw [Option.map_some, atEnd, atEnd, Option.filter_some, Option.filter_some, hp]
      split <;> rfl

theorem ignoresWords_inPair {reason : Misplacement} {r : Token → Token → Bool}
    (hr : ∀ a b, r a.unspelled b.unspelled = r a b) : IgnoresWords (inPair reason r) := by
  intro ts
  rw [inPair, inPair, firstPair?_unspelled hr, Option.map_map, Option.map_map]
  rfl

theorem ignoresWords_nonempty : IgnoresWords nonempty := by
  intro ts
  cases ts <;> rfl

theorem ignoresWords_balanced : IgnoresWords balanced := by
  intro ts
  have hopening : Token.openingCount (ts.map Token.unspelled) = Token.openingCount ts :=
    Token.attachedCount_unspelled .opening ts
  have hclosing : Token.closingCount (ts.map Token.unspelled) = Token.closingCount ts :=
    Token.attachedCount_unspelled .closing ts
  rw [balanced, balanced, hopening, hclosing, Token.closesEarly_unspelled]
  split <;> rfl

theorem ignoresWords_noEmptyParentheses : IgnoresWords noEmptyParentheses := by
  intro ts
  rw [noEmptyParentheses, noEmptyParentheses, List.find?_map, Option.map_map, Option.map_map]
  rfl

theorem ignoresWords_noBinaryAtEnds : IgnoresWords noBinaryAtEnds := by
  intro ts
  rw [noBinaryAtEnds, noBinaryAtEnds, List.head?_map, List.getLast?_map,
    atEnd_unspelled fun _ => rfl, atEnd_unspelled fun _ => rfl, Option.map_or]

theorem ignoresWords_noUnaryLast : IgnoresWords noUnaryLast := by
  intro ts
  rw [noUnaryLast, noUnaryLast, List.getLast?_map, atEnd_unspelled fun _ => rfl]

theorem ignoresWords_noAdjacentOperands : IgnoresWords noAdjacentOperands := by
  intro ts
  rw [noAdjacentOperands, noAdjacentOperands, firstPair?_unspelled fun _ _ => rfl,
    Option.map_map, Option.map_map]
  rfl

theorem ignoresWords_noParenthesizedOperator : IgnoresWords noParenthesizedOperator := by
  intro ts
  rw [noParenthesizedOperator, noParenthesizedOperator, List.findSome?_map, List.map_findSome?]
  congr 1
  funext t
  rw [Function.comp, Function.comp, Option.map_map]
  rfl

theorem ignoresWords_of_mem_checks {check : Check} (h : check ∈ checks) : IgnoresWords check := by
  simp only [checks, List.mem_cons, List.not_mem_nil, or_false] at h
  rcases h with rfl | rfl | rfl | rfl | rfl | rfl | rfl | rfl | rfl | rfl
  · exact ignoresWords_nonempty
  · exact ignoresWords_balanced
  · exact ignoresWords_noEmptyParentheses
  · exact ignoresWords_noBinaryAtEnds
  · exact ignoresWords_noUnaryLast
  · exact ignoresWords_inPair fun _ _ => rfl
  · exact ignoresWords_inPair fun _ _ => rfl
  · exact ignoresWords_noAdjacentOperands
  · exact ignoresWords_noParenthesizedOperator
  · exact ignoresWords_inPair fun _ _ => rfl

end Validation

theorem rejection?_unspelled (ts : List Token) :
    rejection? (ts.map Token.unspelled) = (rejection? ts).map Rejection.unspelled := by
  have hchecks : ∀ cs : List Validation.Check, (∀ check ∈ cs, Validation.IgnoresWords check) →
      cs.findSome? (fun check => check (ts.map Token.unspelled)) =
        (cs.findSome? fun check => check ts).map Rejection.unspelled := by
    intro cs h
    induction cs with
    | nil => rfl
    | cons check cs ih =>
        obtain ⟨hcheck, hcs⟩ := List.forall_mem_cons.mp h
        rw [List.findSome?_cons, List.findSome?_cons, hcheck ts, ih hcs]
        cases check ts <;> rfl
  exact hchecks _ fun check h => Validation.ignoresWords_of_mem_checks h

/-! ## Trees

The builder reports the word of an operator at which it splits, and looks at no word
otherwise; so its outcome is the same, though not its events. -/

theorem Split.loosest?_unspelled (ns : List Nested) :
    loosest? (ns.map Nested.unspelled) = (loosest? ns).map Split.unspelled := by
  induction ns with
  | nil => rfl
  | cons n ns ih =>
      have hop : n.unspelled.token.operator? = n.token.operator? := rfl
      rw [List.map_cons, loosest?, loosest?, ih, hop]
      cases n.token.operator? with
      | none => cases loosest? ns <;> rfl
      | some op =>
          cases loosest? ns with
          | none => rfl
          | some s =>
              show (if n.rank op ≤ s.pivot.rank s.op then _ else _) =
                Option.map Split.unspelled (if n.rank op ≤ s.pivot.rank s.op then _ else _)
              split <;> rfl

namespace Formula

theorem simple?_unspelled (level : Nat) (ts : List Token) :
    simple? level (ts.map Token.unspelled) = simple? level ts := by
  match ts with
  | [] | [_] | [_, _] | [_, _, _] | _ :: _ :: _ :: _ :: _ => rfl

/-- The tree, or the obstacle to it, does not depend on the words. -/
theorem outcome_build_unspelled (ns : List Nested) : ∀ start level,
    (build start level (ns.map Nested.unspelled)).outcome = (build start level ns).outcome := by
  intro start level
  have htokens : (ns.map Nested.unspelled).map Nested.token =
      (ns.map Nested.token).map Token.unspelled := by
    rw [List.map_map, List.map_map]
    rfl
  rw [build, build]
  simp only [List.isEmpty_map, List.length_map, htokens, simple?_unspelled]
  split
  · rfl
  split
  · rfl
  split
  · rfl
  rw [Split.loosest?_unspelled]
  cases hs : Split.loosest? ns with
  | none => rfl
  | some s =>
      have hbefore := Split.length_before_lt hs
      have hafter := Split.length_after_lt hs
      have ihbefore := outcome_build_unspelled s.before
      have ihafter := outcome_build_unspelled s.after
      simp only [Option.map_some, Traced.outcome_bind, Traced.outcome_emit, Split.unspelled,
        List.length_map, List.isEmpty_map]
      cases s.op with
      | not =>
          cases s.before.isEmpty with
          | true =>
              simp only [if_true, Traced.outcome_bind, ihafter]
              rfl
          | false => rfl
      | binary op => simp only [Traced.outcome_bind, ihbefore, ihafter]
termination_by ns.length

theorem outcome_ofTokens_unspelled (ts : List Token) :
    (ofTokens (ts.map Token.unspelled)).outcome = (ofTokens ts).outcome := by
  rw [ofTokens, ofTokens, Traced.outcome_bind, Traced.outcome_bind, Token.nest_unspelled,
    outcome_build_unspelled, List.length_map]

end Formula

/-! ## Texts

A limit comes before the rules, and exceeding it mentions no word, so the first refusal
of the two is the same without the words. -/

namespace Parser

theorem limitRejection?_unspelled (p : Parser) (ts : List Token) :
    p.limitRejection? (ts.map Token.unspelled) = p.limitRejection? ts := by
  rw [limitRejection?, limitRejection?, List.length_map, Token.maxDepth_unspelled]

theorem unspelled_of_limitRejection? {p : Parser} {ts : List Token} {r : Rejection}
    (h : p.limitRejection? ts = some r) : r.unspelled = r := by
  obtain ⟨_, _, _, rfl⟩ := exists_tooComplex_of_limitRejection? h
  rfl

/-- The first limit or rule that tokens offend against does not depend on the words. -/
theorem refusal_unspelled (p : Parser) (ts : List Token) :
    (p.limitRejection? (ts.map Token.unspelled)).or (rejection? (ts.map Token.unspelled)) =
      ((p.limitRejection? ts).or (rejection? ts)).map Rejection.unspelled := by
  rw [limitRejection?_unspelled, rejection?_unspelled]
  cases h : p.limitRejection? ts with
  | none => rfl
  | some r => exact congrArg some (unspelled_of_limitRejection? h).symm

/-- Two texts have the same symbols if they have as many pieces, with parentheses in
the same places and, in the others, words that are keywords of one operator or the
same operand, each to the vocabulary of its own parser.  Parsers with the same
limits read such texts as the same formula, with the same origins, or refuse both;
and then nothing but the words that are mentioned can differ. -/
theorem parse_eq_of_symbols {p q : Parser} {a b : String}
    (htokens : p.maxTokens = q.maxTokens) (hdepth : p.maxDepth = q.maxDepth)
    (hsymbols : (pieces a).map (Symbol.ofPiece p.vocabulary) =
      (pieces b).map (Symbol.ofPiece q.vocabulary)) :
    (∃ f, p.parse a = .ok f ∧ q.parse b = .ok f) ∨
      ∃ r r', p.parse a = .error r ∧ q.parse b = .error r' ∧ r.unspelled = r'.unspelled := by
  have hts := unspelled_tokenize_eq hsymbols
  have hblank : Text.isAllBlank a = Text.isAllBlank b := by
    have hnil : pieces a = [] ↔ pieces b = [] := by
      rw [← List.map_eq_nil_iff, hsymbols, List.map_eq_nil_iff]
    rwa [pieces_eq_nil_iff, pieces_eq_nil_iff, ← Bool.eq_iff_iff] at hnil
  have hrefusal : ((p.limitRejection? (p.tokenize a)).or (rejection? (p.tokenize a))).map
        Rejection.unspelled =
      ((q.limitRejection? (q.tokenize b)).or (rejection? (q.tokenize b))).map
        Rejection.unspelled := by
    rw [← refusal_unspelled, ← refusal_unspelled, hts, limitRejection?, limitRejection?, htokens,
      hdepth]
  have htree : (Formula.ofTokens (p.tokenize a)).outcome =
      (Formula.ofTokens (q.tokenize b)).outcome := by
    rw [← Formula.outcome_ofTokens_unspelled, hts, Formula.outcome_ofTokens_unspelled]
  rw [parse_eq, parse_eq, hblank, htree]
  cases Text.isAllBlank b with
  | true => exact .inr ⟨_, _, rfl, rfl, rfl⟩
  | false =>
      cases hr : (p.limitRejection? (p.tokenize a)).or (rejection? (p.tokenize a)) with
      | none =>
          rw [hr, Option.map_none, eq_comm, Option.map_eq_none_iff] at hrefusal
          rw [hrefusal]
          cases (Formula.ofTokens (q.tokenize b)).outcome with
          | ok f => exact .inl ⟨f, rfl, rfl⟩
          | error r => exact .inr ⟨r, r, rfl, rfl, rfl⟩
      | some r =>
          rw [hr, Option.map_some, eq_comm] at hrefusal
          obtain ⟨r', hr', hrr'⟩ := Option.map_eq_some_iff.mp hrefusal
          rw [hr']
          exact .inr ⟨r, r', rfl, rfl, hrr'.symm⟩

/-- Another layout, and other keywords, for one formula and for one fault. -/
theorem parse_eq_of_symbols_aliases :
    let q : Parser := { vocabulary := Vocabulary.standard.updateOrKeep (.connectives
      [("u", .and), ("o", .or)]) }
    (∃ f, standard.parse "NOT(x && y)" = .ok f ∧ q.parse "not (\n x U y) " = .ok f) ∧
      ∃ r r', standard.parse "x && or (y)" = .error r ∧ q.parse "x u\to(y )" = .error r' ∧
        r.unspelled = r'.unspelled := by
  intro q
  have hread : (pieces "NOT(x && y)").map (Symbol.ofPiece Vocabulary.standard) =
      [.operator .not, .opening, .operand "x", .operator (.binary .and), .operand "y",
        .closing] := by
    rw [show pieces "NOT(x && y)" =
      [.run "NOT", .opening, .run "x", .run "&&", .run "y", .closing] by decide +kernel]
    rfl
  have hread' : (pieces "not (\n x U y) ").map (Symbol.ofPiece q.vocabulary) =
      [.operator .not, .opening, .operand "x", .operator (.binary .and), .operand "y",
        .closing] := by
    rw [show pieces "not (\n x U y) " =
      [.run "not", .opening, .run "x", .run "U", .run "y", .closing] by decide +kernel]
    rfl
  have hfault : (pieces "x && or (y)").map (Symbol.ofPiece Vocabulary.standard) =
      [.operand "x", .operator (.binary .and), .operator (.binary .or), .opening, .operand "y",
        .closing] := by
    rw [show pieces "x && or (y)" =
      [.run "x", .run "&&", .run "or", .opening, .run "y", .closing] by decide +kernel]
    rfl
  have hfault' : (pieces "x u\to(y )").map (Symbol.ofPiece q.vocabulary) =
      [.operand "x", .operator (.binary .and), .operator (.binary .or), .opening, .operand "y",
        .closing] := by
    rw [show pieces "x u\to(y )" =
      [.run "x", .run "u", .run "o", .opening, .run "y", .closing] by decide +kernel]
    rfl
  constructor
  · obtain ⟨t, ht⟩ := derives_of_reads (s := (pieces "NOT(x && y)").map
      (Symbol.ofPiece Vocabulary.standard)) (by rw [hread]; trivial)
    obtain ⟨f, hf, -⟩ := exists_parse_of_derives (p := standard) rfl ht
    rcases parse_eq_of_symbols (p := standard) (q := q) rfl rfl (hread.trans hread'.symm) with
      h | ⟨r, r', hr, -, -⟩
    · exact h
    · cases hf.symm.trans hr
  · rcases parse_eq_of_symbols (p := standard) (q := q) rfl rfl (hfault.trans hfault'.symm) with
      ⟨f, hf, -⟩ | h
    · have hreads := reads_of_derives (derives_of_parse hf)
      rw [show standard.vocabulary = Vocabulary.standard from rfl, hfault] at hreads
      exact hreads.elim
    · exact h

end Parser

end Clausal
