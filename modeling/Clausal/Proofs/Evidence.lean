/-
# Rejections are true of the text

A rejection is found among the tokens, and it speaks of the text: of the numbers of
its parentheses, and of its words.  Two facts carry what is evident from the tokens
over to the text.

  * Every parenthesis of a text is attached to one word, in the order in which they
    are written (`parentheses_words`).  So the parentheses attached to the tokens are
    as many as the text has, and what holds of the tokens up to some place holds of
    the text up to the end of that word.
  * A token says how its word is composed (`Token.Describes`), whether or not the
    words are an expression: a core without parentheses, between so many of either
    kind.

Both are collected in `Token.Account`, which says that tokens are those of a list of
words.  `Rejection.TrueOf` says of each reason what it claims of the text, and
`Rejection.Evident.trueOf` that what is evident from the tokens, the first breach of a
rule among them, is true of the text.  A reader without limits refuses for no other
reasons, since its builder never refuses tokens that keep the rules.
-/
import Clausal.Proofs.Breaches
import Clausal.Proofs.Reading

namespace Clausal

open Piece Text

/-! ## The parentheses of a text

Nothing but parentheses is counted here.  Blanks, which are dropped, and plain characters,
which are gathered into words, are no parentheses, so dropping and gathering change neither
their number nor their order.  For a list of first words there is therefore a beginning of
the text with the same parentheses, and what is said of the tokens up to a place can be
said of the text. -/

/-- A parenthesis, whichever. -/
def isParenthesis (c : Char) : Bool := c == '(' || c == ')'

theorem isParenthesis_char (side : Side) : isParenthesis side.char = true := by
  cases side <;> rfl

theorem isParenthesis_of_isBlank {c : Char} (h : isBlank c = true) : isParenthesis c = false := by
  rw [isParenthesis, Bool.or_eq_false_iff, beq_eq_false_iff_ne, beq_eq_false_iff_ne]
  constructor
  · rintro rfl
    rw [isBlank_open] at h
    cases h
  · rintro rfl
    rw [isBlank_close] at h
    cases h

theorem isParenthesis_of_isPlain {c : Char} (h : isPlain c = true) : isParenthesis c = false := by
  obtain ⟨-, ho, hc⟩ := isPlain_iff.mp h
  rw [isParenthesis, beq_eq_false_iff_ne.mpr ho, beq_eq_false_iff_ne.mpr hc]
  rfl

theorem parentheses_of_cut {cs : List Char} {ps : List Piece} (h : Cut cs ps) :
    (textOf ps).filter isParenthesis = cs.filter isParenthesis := by
  induction h with
  | nil => rfl
  | blank hc _ ih =>
      rw [ih, List.filter_cons_of_neg]
      simp [isParenthesis_of_isBlank hc]
  | opening _ ih => exact congrArg ('(' :: ·) ih
  | closing _ ih => exact congrArg (')' :: ·) ih
  | @run w cs ps _ _ _ _ ih =>
      have hrun : textOf (.run (String.ofList w) :: ps) = w ++ textOf ps := by
        simp [textOf, chars]
      rw [hrun, List.filter_append, List.filter_append, ih]

/-- All that stands in the words of a list, as one text. -/
def joined (ws : List String) : List Char := ws.flatMap String.toList

theorem joined_cons (w : String) (ws : List String) : joined (w :: ws) = w.toList ++ joined ws :=
  rfl

theorem joined_bundles (bs : List (List Piece)) :
    joined (bs.map fun b => String.ofList (textOf b)) = textOf bs.flatten := by
  induction bs with
  | nil => rfl
  | cons b bs ih =>
      rw [List.flatten_cons, textOf_append, ← ih, List.map_cons, joined_cons, String.toList_ofList]

theorem joined_words (text : String) : joined (words (normalize text)) = textOf (pieces text) := by
  rw [words_normalize, joined_bundles, flatten_bundles]

/-- Every parenthesis of a text is in one of its words, and they keep their order. -/
theorem parentheses_words (text : String) :
    (joined (words (normalize text))).filter isParenthesis =
      text.toList.filter isParenthesis := by
  rw [joined_words]
  exact parentheses_of_cut (cut_scan text.toList)

theorem count_words {c : Char} (hc : isParenthesis c = true) (text : String) :
    (joined (words (normalize text))).count c = text.toList.count c := by
  rw [← List.count_filter hc, parentheses_words, List.count_filter hc]

/-- Up to the end of a word of it, a text has the parentheses of its words up to
there. -/
theorem exists_prefix_of_words {text : String} {l : List String}
    (h : l <+: words (normalize text)) :
    ∃ cs, cs <+: text.toList ∧ ∀ c, isParenthesis c = true → cs.count c = (joined l).count c := by
  obtain ⟨r, hr⟩ := h
  have hsplit := parentheses_words text
  rw [← hr, joined, List.flatMap_append, List.filter_append] at hsplit
  obtain ⟨cs, ds, htext, hcs, -⟩ := List.filter_eq_append_iff.mp hsplit.symm
  refine ⟨cs, ⟨ds, htext.symm⟩, ?_⟩
  intro c hc
  rw [← List.count_filter hc, hcs, List.count_filter hc]
  rfl

/-! ## What a token says of its word

A word is a bundle of pieces, and a bundle is parentheses, a core and parentheses; a
token is empty exactly if there is no core. -/

namespace Token

/-- The word of the token is what the token says: a core without parentheses, which is
an operator, an operand or nothing at all, between so many parentheses. -/
def Describes (v : Vocabulary) (t : Token) : Prop :=
  ∃ core : String,
    t.word.toList =
      List.replicate t.opening '(' ++ (core.toList ++ List.replicate t.closing ')') ∧
    (∀ c ∈ core.toList, isPlain c = true) ∧ t.kind = kindOf v core

variable {v : Vocabulary} {t : Token} {ts : List Token}

/-- The token of a bundle describes it. -/
theorem describes_classify {b : List Piece} (i : Nat) (hb : IsBundle b)
    (hp : ∀ p ∈ b, p.Proper) : (classify v i (String.ofList (textOf b))).Describes v := by
  obtain ⟨m, n, core, rfl, hcore⟩ := hb.exists_form
  have hplain : ∀ c ∈ textOf core, isPlain c = true :=
    isPlain_of_core hcore fun p hpc => hp p (by simp [hpc])
  rw [textOf_append, textOf_append, textOf_replicate .opening,
    textOf_replicate .closing]
  obtain ⟨ho, hc, hk⟩ := classify_ofList v i (m := m) (n := n) hplain
  refine ⟨String.ofList (textOf core), ?_, by rwa [String.toList_ofList], hk⟩
  rw [ho, hc, String.toList_ofList]
  exact String.toList_ofList

theorem Describes.count_char (h : t.Describes v) (side : Side) :
    t.word.toList.count side.char = t.attached side := by
  obtain ⟨core, hw, hplain, -⟩ := h
  have hnone : core.toList.count side.char = 0 := by
    refine List.count_eq_zero.mpr fun hm => ?_
    have hparen := isParenthesis_of_isPlain (hplain _ hm)
    cases side <;> cases hparen
  cases side <;> simp [hw, List.count_append, List.count_replicate, hnone, Side.char]

theorem attachedCount_eq (h : ∀ t ∈ ts, t.Describes v) (side : Side) :
    attachedCount side ts = (joined (ts.map word)).count side.char := by
  induction ts with
  | nil => rfl
  | cons t ts ih =>
      obtain ⟨ht, hts⟩ := List.forall_mem_cons.mp h
      rw [List.map_cons, joined_cons, List.count_append, ht.count_char, ← ih hts]
      rfl

/-- A token is empty if its word is made of parentheses only. -/
theorem Describes.isEmpty_iff (h : t.Describes v) :
    t.isEmpty = true ↔ ∀ c ∈ t.word.toList, isParenthesis c = true := by
  obtain ⟨core, hw, hplain, hk⟩ := h
  have hcore : t.kind = .empty ↔ core.toList = [] := by
    rw [hk, kindOf, String.toList_eq_nil_iff, ← String.isEmpty_iff]
    cases core.isEmpty with
    | true => simp
    | false => cases v.operator? core <;> simp
  rw [Token.isEmpty_iff, hcore, hw]
  constructor
  · intro hnil c hc
    rw [hnil, List.nil_append] at hc
    rcases List.mem_append.mp hc with hc | hc
    · rw [List.eq_of_mem_replicate hc]
      rfl
    · rw [List.eq_of_mem_replicate hc]
      rfl
  · intro hall
    refine List.eq_nil_iff_forall_not_mem.mpr ?_
    intro c hc
    have hparen := hall c (List.mem_append_right _ (List.mem_append_left _ hc))
    rw [isParenthesis_of_isPlain (hplain c hc)] at hparen
    cases hparen

/-- The tokens are those of the words, one for each, in order. -/
structure Account (v : Vocabulary) (ws : List String) (ts : List Token) : Prop where
  written : ts.map word = ws
  numbered : ts.map position = List.range ts.length
  describes : ∀ t ∈ ts, t.Describes v

end Token

theorem Parser.account_tokenize (p : Parser) (text : String) :
    Token.Account p.vocabulary (words (normalize text)) (p.tokenize text) where
  written := Token.words_classifyAll _ _
  numbered := Token.positions_classifyAll _ _
  describes := by
    intro t ht
    obtain ⟨b, hb, i, rfl⟩ := exists_bundle_of_mem_tokenize ht
    exact Token.describes_classify i (isBundle_of_mem_bundles hb) fun p hp =>
      proper_of_cut (cut_scan text.toList) p (mem_of_mem_bundles hb hp)

/-! ## True rejections

Positions are indices into the list of words: a rejection mentions the words at the
places at which it is evident, in order and with their spelling.  `TrueOf` has no
clause for a tree that is not found, nor for a limit, as neither is claimed. -/

open Token

/-- The words at these positions are mentioned, and no others. -/
def Mentions (ts : List Token) (tokens : List Mention) (positions : List Nat) : Prop :=
  tokens.map Mention.position = positions ∧
    ∀ m ∈ tokens, (ts.map word)[m.position]? = some m.word

/-- What a rejection says of a text and its words is so, and the words that it names
are the first ones of which it is. -/
def Rejection.TrueOf (text : String) (ts : List Token) : Rejection → Prop
  | .emptyExpression => ∀ c ∈ text.toList, isBlank c = true
  | .unbalanced m n =>
    m = text.toList.count '(' ∧ n = text.toList.count ')' ∧
      (m ≠ n ∨ ∃ cs, cs <+: text.toList ∧ cs.count '(' < cs.count ')')
  | .emptyParentheses position =>
    IsLeast {k | ∃ w, (ts.map word)[k]? = some w ∧ ∀ c ∈ w.toList, isParenthesis c = true}
      position
  | .misplaced reason tokens =>
    ∃ i, IsLeast {k | reason.At ts k} i ∧ Mentions ts tokens (List.range' i reason.width)
  | .adjacentOperands left right =>
    ∃ i, IsLeast {k | Stands isOperand ts k ∧ Stands isOperand ts (k + 1)} i ∧
      Mentions ts [left, right] [i, i + 1]
  | .unbuildable _ _ _ | .tooComplex _ _ _ => False

variable {v : Vocabulary} {ts : List Token} {text : String} {i n : Nat}

theorem mentions_take (h : ts.map Token.position = List.range ts.length) (hn : i + n ≤ ts.length) :
    Mentions ts (((ts.drop i).take n).map mention) (List.range' i n) := by
  constructor
  · refine List.ext_getElem (by simp; omega) fun k hk _ => ?_
    have hlt : i + k < ts.length := by
      simp only [List.length_map, List.length_take, List.length_drop] at hk
      omega
    simp [mention, position_getElem h hlt]
  · intro m hm
    obtain ⟨t, ht, rfl⟩ := List.mem_map.mp hm
    obtain ⟨k, hk, rfl⟩ := List.getElem_of_mem (List.mem_of_mem_drop (List.mem_of_mem_take ht))
    rw [mention, position_getElem h hk, List.getElem?_map, List.getElem?_eq_getElem hk]
    rfl

theorem Token.Stands.lt_length {p : Token → Bool} (h : Stands p ts i) : i < ts.length := by
  obtain ⟨t, ht, -⟩ := stands_iff.mp h
  exact (List.getElem?_eq_some_iff.mp ht).1

theorem Misplacement.At.width_le {reason : Misplacement} (h : reason.At ts i) :
    i + reason.width ≤ ts.length := by
  cases reason with
  | leadingBinary | trailingBinary | trailingUnary => exact h.2.lt_length
  | adjacentBinary | unaryBeforeBinary | unaryAfterOperand => exact h.2.lt_length
  | parenthesizedBinary | unaryBeforeClosing => exact Stands.lt_length h

theorem Misplacement.mem_together (reason : Misplacement) : reason ∈ reason.together := by
  cases reason <;> decide

namespace Token.Account

theorem blank_of_nil (ha : Account v (words (normalize text)) []) :
    ∀ c ∈ text.toList, isBlank c = true := by
  have hbundles : bundles (pieces text) = [] := by
    rw [← List.map_eq_nil_iff, ← words_normalize]
    exact ha.written.symm
  have hpieces : pieces text = [] := by
    rw [← flatten_bundles (pieces text), hbundles]
    rfl
  exact List.all_eq_true.mp (pieces_eq_nil_iff.mp hpieces)

theorem attachedCount_eq (ha : Account v (words (normalize text)) ts) (side : Side) :
    attachedCount side ts = text.toList.count side.char := by
  rw [Token.attachedCount_eq ha.describes, ha.written, count_words (isParenthesis_char side)]

/-- Where tokens close more parentheses than they open, so does the text up to there. -/
theorem exists_prefix (ha : Account v (words (normalize text)) ts) {l : List Token}
    (hl : l <+: ts) (hlt : openingCount l < closingCount l) :
    ∃ cs, cs <+: text.toList ∧ cs.count '(' < cs.count ')' := by
  have hdescribes : ∀ t ∈ l, t.Describes v := fun t ht => ha.describes t (hl.subset ht)
  obtain ⟨cs, hcs, hcount⟩ := exists_prefix_of_words (ha.written ▸ hl.map word)
  refine ⟨cs, hcs, ?_⟩
  have hside : ∀ side : Side, cs.count side.char = attachedCount side l := by
    intro side
    rw [hcount _ (isParenthesis_char side), Token.attachedCount_eq hdescribes]
  show cs.count Side.opening.char < cs.count Side.closing.char
  rwa [hside, hside]

theorem stands_isEmpty_iff {ws : List String} (ha : Account v ws ts) (k : Nat) :
    Stands isEmpty ts k ↔
      ∃ w, (ts.map word)[k]? = some w ∧ ∀ c ∈ w.toList, isParenthesis c = true := by
  rw [stands_iff, List.getElem?_map]
  constructor
  · rintro ⟨t, ht, he⟩
    have hdescribes := ha.describes t (List.mem_of_getElem? ht)
    exact ⟨t.word, congrArg (Option.map word) ht, hdescribes.isEmpty_iff.mp he⟩
  · rintro ⟨w, hw, hall⟩
    obtain ⟨t, ht, rfl⟩ := Option.map_eq_some_iff.mp hw
    have hdescribes := ha.describes t (List.mem_of_getElem? ht)
    exact ⟨t, ht, hdescribes.isEmpty_iff.mpr hall⟩

end Token.Account

/-- What is evident from the tokens of a text is true of the text. -/
theorem Rejection.Evident.trueOf {rejection : Rejection}
    (ha : Account v (words (normalize text)) ts) (h : rejection.Evident ts) :
    rejection.TrueOf text ts := by
  cases rejection with
  | emptyExpression =>
      obtain rfl : ts = [] := h
      exact ha.blank_of_nil
  | unbalanced o c =>
      obtain ⟨rfl, rfl, hunmatched⟩ := h
      refine ⟨ha.attachedCount_eq .opening, ha.attachedCount_eq .closing, hunmatched.imp_right ?_⟩
      rintro ⟨l, hl, hlt⟩
      exact ha.exists_prefix hl hlt
  | emptyParentheses position =>
      obtain ⟨i, hi, hposition⟩ := h
      have hlt := Stands.lt_length hi.1
      rw [List.getElem?_eq_getElem hlt, Option.map_some, Option.some.injEq,
        position_getElem ha.numbered hlt] at hposition
      simp only [ha.stands_isEmpty_iff] at hi
      exact hposition ▸ hi
  | misplaced reason tokens =>
      obtain ⟨i, hi, hat, rfl⟩ := h
      refine ⟨i, ⟨hat, ?_⟩, mentions_take ha.numbered hat.width_le⟩
      intro k hk
      exact hi.2 ⟨reason, reason.mem_together, hk⟩
  | adjacentOperands left right =>
      obtain ⟨i, hi, htokens⟩ := h
      refine ⟨i, hi, ?_⟩
      rw [htokens]
      exact mentions_take ha.numbered hi.1.2.lt_length
  | unbuildable | tooComplex => exact h.elim

namespace Parser

/-- Whatever the vocabulary, a text is refused for a reason that is true of it and of
its words. -/
theorem trueOf_of_parse {v : Vocabulary} {text : String} {rejection : Rejection}
    (h : ({ vocabulary := v } : Parser).parse text = .error rejection) :
    let ts := ({ vocabulary := v } : Parser).tokenize text
    Account v (words (normalize text)) ts ∧ rejection.TrueOf text ts := by
  intro ts
  have ha : Account v (words (normalize text)) ts := account_tokenize { vocabulary := v } text
  have hlimit : ({ vocabulary := v } : Parser).limitRejection? ts = none := rfl
  refine ⟨ha, ?_⟩
  rw [parse_eq, hlimit, Option.none_or] at h
  split at h
  · rename_i hblank
    cases h
    exact fun c hc => List.all_eq_true.mp hblank c hc
  · cases hr : rejection? ts with
    | some reason =>
        rw [hr] at h
        cases h
        exact (evident_of_rejection? hr).trueOf ha
    | none =>
        obtain ⟨f, hf, -⟩ := Formula.exists_ofTokens_of_rejection? hr
        rw [hr, hf] at h
        cases h

/-- Two connectives with only a parenthesis between them, behind one that is in its
place. -/
theorem trueOf_of_parse_adjacent :
    let text := " x AND y  OR(and  z)"
    let rejection := Rejection.misplaced .adjacentBinary [⟨"OR", 3⟩, ⟨"(and", 4⟩]
    let ts := standard.tokenize text
    standard.parse text = .error rejection ∧
      Account .standard (words (normalize text)) ts ∧ rejection.TrueOf text ts := by
  intro text rejection ts
  have h : ({ vocabulary := .standard } : Parser).parse text = .error rejection := by
    decide +kernel
  exact ⟨h, trueOf_of_parse h⟩

end Parser

end Clausal
