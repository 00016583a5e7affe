/-
# The splits that are reported, and the nodes of the tree

A run is split at the operator that becomes the root of its tree, and the split is
reported before the parts are built, first the part before the operator.  So the splits
come in the order in which a node stands before all below it.  Only the runs of an
operator over operands are not split, and the nodes that have a split are those with an
operator below them (`Formula.hasOperatorBelow`).

What a split says of its node is `Event.TellsOf`: the range of the tokens of the node and
all below it, the word of the operator, and its index, which is the position that the
node says it has.  The tokens of a run become the nodes of its tree, and where tokens
are numbered in order the numbers of these nodes are those of the run; so the range can
be said in terms of the tree alone, as the positions of its nodes.

All this is proved along the ways in which a formula is built (`Builds.tellsOf`).  For a
text that is read it says which events there are (`Parser.splits_tell_of_nodes`): its
words, these splits, and the tree.
-/
import Clausal.Proofs.Parenthesizing
import Clausal.Proofs.Positions

namespace Clausal

/-! ## Numbers of tokens

Tokens of a text say their index in the list, and the word that they were made of.  In a
run of the builder the index of a token is counted from where the run starts. -/

/-- The token says its number in the list, and is the word with this number. -/
def Token.Numbered (ws : List String) (t : Token × Nat) : Prop :=
  t.1.position = t.2 ∧ ws[t.2]? = some t.1.word

theorem Parser.numbered_tokenize (p : Parser) (text : String) :
    ∀ t ∈ (p.tokenize text).zipIdx, Token.Numbered (words (normalize text)) t := by
  rintro ⟨t, i⟩ ht
  have hget : (p.tokenize text)[i]? = some t := List.mem_zipIdx_iff_getElem?.mp ht
  rw [tokenize, Token.classifyAll, List.getElem?_mapIdx] at hget
  obtain ⟨w, hw, rfl⟩ := Option.map_eq_some_iff.mp hget
  exact ⟨rfl, hw⟩

namespace Formula

theorem positions_of_records {vs : List Visit} {ts : List (Token × Nat)}
    (h : List.Forall₂ Visit.Records vs ts) (hts : ∀ t ∈ ts, t.1.position = t.2) :
    (vs.map Visit.origin).filterMap (Option.map Origin.position) = ts.map Prod.snd := by
  induction h with
  | nil => rfl
  | cons hv _ ih =>
      obtain ⟨ht, hts⟩ := List.forall_mem_cons.mp hts
      obtain ⟨-, p, ho, hp⟩ := hv
      rw [ht, or_self] at hp
      simp [ho, hp, ih hts]

theorem Built.positions {start level : Nat} {ns : List Nested} {f : Formula}
    (h : Built start level ns f)
    (hns : ∀ t ∈ (ns.map Nested.token).zipIdx start, t.1.position = t.2) :
    f.positions = List.range' start ns.length := by
  rw [Formula.positions, map_origin_inorder f 0 level, positions_of_records h.records hns,
    List.zipIdx_map_snd, List.length_map]

/-! ## Splits

`hasOperatorBelow` differs from being compound in negations, which are split at as well
unless they are over an operand. -/

/-- An operator with an operator among its arguments. -/
def hasOperatorBelow : Formula → Bool
  | .not f _ => !f.isOperand
  | f => f.isCompound

theorem hasOperatorBelow_binary (op : Connective) (f g : Formula) (o : Option Origin) :
    (Formula.binary op f g o).hasOperatorBelow = (Formula.binary op f g o).isCompound := rfl

theorem filter_hasOperatorBelow_of_simple {level : Nat} {ts : List Token} {f : Formula}
    (h : Simple level ts f) : f.subformulas.filter hasOperatorBelow = [] := by
  cases h <;> rfl

/-- Where a run is split at a negation, the rest has an operator. -/
theorem isOperand_of_negation {start level level' : Nat} {ns after : List Nested}
    {pivot : Nested} {es : List Event} {f : Formula}
    (hsimple : simple? level (ns.map Nested.token) = none)
    (hs : Split.loosest? ns = some ⟨[], pivot, .not, after⟩)
    (hf : Builds start level' after es f) : f.isOperand = false := by
  have hn : pivot.token.kind = .operator .not := Split.kind_of_loosest? hs
  rw [← Bool.not_eq_true]
  intro hfo
  -- the two tokens would have been a formula as they stand
  obtain ⟨a, x, hafter, ha⟩ := hf.exists_operand hfo
  rw [Split.eq_of_loosest? hs, List.nil_append, List.map_cons, hafter] at hsimple
  simp only [simple?, hn, ha] at hsimple
  cases hsimple

end Formula

/-- The event is a split. -/
def Event.isSplit : Event → Bool
  | .split _ _ _ _ => true
  | _ => false

/-- The event is the split at which the node came about, and is worded so.  It is made
at the token that the node says it comes of, and its tokens are exactly those that the
node and all below it come of. -/
def Event.TellsOf (ws : List String) (e : Event) (f : Formula) : Prop :=
  ∃ first last word index, e = .split first last word index ∧
    (e.level, e.topic, e.message) =
      (.trace, .parser, "Split " ++ first.repr ++ ".." ++ last.repr ++ " at `" ++ word ++
        "` (token " ++ index.repr ++ ").") ∧
    f.position? = some index ∧ ws[index]? = some word ∧
    first < last ∧ f.positions = List.range' first (last - first)

theorem filter_isSplit_of_tellsOf {ws : List String} {es : List Event} {fs : List Formula}
    (h : List.Forall₂ (Event.TellsOf ws) es fs) : es.filter Event.isSplit = es := by
  induction h with
  | nil => rfl
  | cons he _ ih =>
      obtain ⟨_, _, _, _, rfl, _⟩ := he
      rw [List.filter_cons_of_pos rfl, ih]

namespace Formula

variable {ws : List String} {start level : Nat} {ns : List Nested} {es : List Event}
  {f : Formula}

theorem Built.tellsOf {word : String} {index : Nat} (h : Built start level ns f)
    (hns : ∀ t ∈ (ns.map Nested.token).zipIdx start, Token.Numbered ws t)
    (hindex : f.position? = some index) (hword : ws[index]? = some word) :
    (Event.split start (start + ns.length) word index).TellsOf ws f := by
  have hpositions := h.positions fun t ht => (hns t ht).1
  -- there are as many tokens as nodes, so the run is not empty
  have hlen : f.size = ns.length := by
    rw [← length_inorder f level, h.records.length_eq, List.length_zipIdx, List.length_map]
  have hpos := f.size_pos
  refine ⟨start, start + ns.length, word, index, rfl, rfl, hindex, hword, by omega, ?_⟩
  rw [hpositions, Nat.add_sub_cancel_left]

/-- The events of a run tell one by one of the nodes that have an operator below them,
each before what is below it. -/
theorem Builds.tellsOf (h : Builds start level ns es f) :
    (∀ t ∈ (ns.map Nested.token).zipIdx start, Token.Numbered ws t) →
      List.Forall₂ (Event.TellsOf ws) es (f.subformulas.filter hasOperatorBelow) := by
  induction h with
  | simple hk =>
      intro _
      rw [filter_hasOperatorBelow_of_simple (simple_of_simple? hk)]
      exact .nil
  | @binary start level ns before after pivot op es es' f g hsimple hs hf hg ihf ihg =>
      intro hns
      have hbelow : (Formula.binary op f g (some ⟨level, start + before.length⟩)).hasOperatorBelow =
          true := by
        rw [hasOperatorBelow_binary]
        exact isCompound_of_split _ hsimple hs hf hg
      have hbuilt := (Builds.binary hsimple hs hf hg).built
      have hparts := hns
      rw [Split.zipIdx_of_loosest? hs, List.forall_mem_append, List.forall_mem_cons] at hparts
      obtain ⟨hbefore, ⟨-, hword⟩, hafter⟩ := hparts
      -- the split itself is reported before those of the left part, these before the others
      rw [subformulas, List.filter_cons_of_pos hbelow, List.filter_append]
      exact .cons (hbuilt.tellsOf hns rfl hword) (List.rel_append (ihf hbefore) (ihg hafter))
  | @not start level ns after pivot es f hsimple hs hf ih =>
      intro hns
      have hbelow : (Formula.not f (some ⟨level, pivot.token.position⟩)).hasOperatorBelow =
          true := by
        rw [hasOperatorBelow, isOperand_of_negation hsimple hs hf]
        rfl
      have hbuilt := (Builds.not hsimple hs hf).built
      have hparts := hns
      rw [Split.zipIdx_of_loosest? hs, List.forall_mem_append, List.forall_mem_cons] at hparts
      obtain ⟨-, ⟨hposition, hword⟩, hafter⟩ := hparts
      rw [subformulas, List.filter_cons_of_pos hbelow]
      exact .cons (hbuilt.tellsOf hns (congrArg some hposition) hword) (ih hafter)

end Formula

/-! ## The events of reading

The rules report nothing of tokens that keep them, so all that stands between the words
and the tree are the events of the builder. -/

namespace Parser

variable {p : Parser} {text : String} {f : Formula}

theorem events_validate {ts : List Token} (h : rejection? ts = none) :
    (validate ts).events = [] := by
  rw [validate, h]
  rfl

/-- Of a text that is read its words are reported, then what is done with its tokens, and
the tree at the end. -/
theorem events_trace_of_parse (h : p.parse text = .ok f) :
    (p.trace text).events =
      .words text (words (normalize text)) ::
        ((Formula.ofTokens (p.tokenize text)).events ++
          [.parsed (words (normalize text)).length f.height]) := by
  obtain ⟨hblank, hlimit, hrules, htree⟩ := parse_eq_ok_iff.mp h
  have hwords : (p.tokenize text).map Token.word = words (normalize text) :=
    Token.words_classifyAll _ _
  have hlength : (p.tokenize text).length = (words (normalize text)).length :=
    Token.length_classifyAll _ _
  rw [trace, if_neg (Bool.eq_false_iff.mp hblank)]
  simp only [hlimit]
  rw [Traced.events_bind_of_outcome (Traced.outcome_emit _),
    Traced.events_bind_of_outcome (outcome_validate_eq_ok.mpr hrules),
    Traced.events_bind_of_outcome htree, events_validate hrules, hwords, hlength]
  rfl

/-- The splits that are reported of a text that is read tell one by one, in order, of the
nodes with an operator below them, each node before all below it and nothing left out;
only the words come before them and the tree behind. -/
theorem splits_tell_of_nodes (h : p.parse text = .ok f) :
    List.Forall₂ (Event.TellsOf (words (normalize text)))
        ((p.trace text).events.filter Event.isSplit)
        (f.subformulas.filter Formula.hasOperatorBelow) ∧
      (p.trace text).events =
        .words text (words (normalize text)) ::
          ((p.trace text).events.filter Event.isSplit ++
            [.parsed (words (normalize text)).length f.height]) := by
  obtain ⟨-, -, -, htree⟩ := parse_eq_ok_iff.mp h
  have hnumbered : ∀ t ∈ ((Token.nest 0 (p.tokenize text)).map Nested.token).zipIdx 0,
      Token.Numbered (words (normalize text)) t := by
    rw [Token.map_token_nest]
    exact p.numbered_tokenize text
  have htells := (Formula.builds_of_ofTokens htree).tellsOf hnumbered
  have hsplits : (p.trace text).events.filter Event.isSplit =
      (Formula.ofTokens (p.tokenize text)).events := by
    rw [events_trace_of_parse h, List.filter_cons_of_neg Bool.false_ne_true, List.filter_append,
      filter_isSplit_of_tellsOf htells]
    exact List.append_nil _
  rw [hsplits]
  exact ⟨htells, events_trace_of_parse h⟩

/-- A negation over a negation over a group, and a group with a negation of an operand in
it: of six operators four are split at. -/
theorem splits_tell_of_nodes_group_negations :
    let text := "not not (a or b) and (not c xor d)"
    ∃ f, standard.parse text = .ok f ∧
      (standard.trace text).events.filter Event.isSplit =
        [.split 0 10 "and" 5, .split 0 5 "not" 0, .split 1 5 "not" 1, .split 6 10 "xor" 8] ∧
      List.Forall₂ (Event.TellsOf (words (normalize text)))
        ((standard.trace text).events.filter Event.isSplit)
        (f.subformulas.filter Formula.hasOperatorBelow) := by
  intro text
  let f : Formula :=
    .binary .and
      (.not (.not (.binary .or (.operand "a" (some ⟨4, 2⟩)) (.operand "b" (some ⟨4, 4⟩))
        (some ⟨3, 3⟩)) (some ⟨2, 1⟩)) (some ⟨1, 0⟩))
      (.binary .xor (.not (.operand "c" (some ⟨3, 7⟩)) (some ⟨2, 6⟩))
        (.operand "d" (some ⟨2, 9⟩)) (some ⟨1, 8⟩)) (some ⟨0, 5⟩)
  have hf : standard.parse text = .ok f := by decide +kernel
  exact ⟨f, hf, by decide +kernel, (splits_tell_of_nodes hf).1⟩

end Parser

end Clausal
