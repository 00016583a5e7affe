/-
# The tokens of a text, and its pieces

Tokens are read from the words of an evenly spaced text, so each token comes from a
bundle of pieces.  It has the same symbols as its bundle, and all tokens together those
of the text (`Parser.symbolsOf_tokenize`).  This is what lets the rest of the
development speak of symbols: the grammar reads the symbols of the pieces, and the rules
and the builder work on tokens.

One thing the symbols do not show is where one token ends, and so whether a token is
empty.  A token is empty if its bundle has no run, and the rules refuse it; the grammar
knows nothing of that.  But a bundle without a run comes about only where the symbols
are no expression: it would end in an opening parenthesis, behind which no space comes,
or begin with a closing one, before which none comes.  So for the tokens of a text the
rules come to the same as reading its symbols
(`Parser.rejection?_tokenize_eq_none_iff`).
-/
import Clausal.Parser
import Clausal.Proofs.Pieces
import Clausal.Proofs.Validity

namespace Clausal

open Piece

/-! ## The form of a bundle

What is between the parentheses of a bundle is one run or nothing. -/

theorem Piece.IsBundle.exists_form {b : List Piece} (h : IsBundle b) :
    ∃ m n core, b = List.replicate m .opening ++ (core ++ List.replicate n .closing) ∧
      (core = [] ∨ ∃ text, core = [.run text]) := by
  induction h with
  | closings k => exact ⟨0, k, [], rfl, .inl rfl⟩
  | run text k => exact ⟨0, k, [.run text], rfl, .inr ⟨text, rfl⟩⟩
  | opening _ ih =>
      obtain ⟨m, n, core, rfl, hc⟩ := ih
      exact ⟨m + 1, n, core, rfl, hc⟩

theorem Piece.textOf_append (b c : List Piece) : textOf (b ++ c) = textOf b ++ textOf c :=
  List.flatMap_append

theorem Piece.textOf_replicate (side : Side) (k : Nat) :
    textOf (List.replicate k side.piece) = List.replicate k side.char := by
  rw [textOf, List.flatMap_replicate]
  cases side <;> exact List.flatten_replicate_singleton

theorem Piece.textOf_run (text : String) : textOf [.run text] = text.toList :=
  List.append_nil _

/-- Between its parentheses, a bundle has plain characters only. -/
theorem Piece.isPlain_of_core {core : List Piece} (h : core = [] ∨ ∃ text, core = [.run text])
    (hp : ∀ p ∈ core, p.Proper) : ∀ c ∈ textOf core, isPlain c = true := by
  rcases h with rfl | ⟨text, rfl⟩
  · exact fun c hc => nomatch hc
  · rw [textOf_run]
    exact (hp (.run text) (List.mem_singleton.mpr rfl)).2

/-! ## The token of a bundle

Taking a word apart cuts off the opening parentheses from the front and the closing ones
from the back; since the core begins and ends with plain characters, what is cut off is
what the bundle had there. -/

namespace Token

/-- A word of plain characters between parentheses is taken apart into these. -/
theorem classify_ofList (v : Vocabulary) (i : Nat) {m n : Nat} {w : List Char}
    (hw : ∀ c ∈ w, isPlain c = true) :
    let t := classify v i
      (String.ofList (List.replicate m '(' ++ (w ++ List.replicate n ')')))
    t.opening = m ∧ t.closing = n ∧ t.kind = kindOf v (String.ofList w) := by
  have hopen : ∀ c ∈ List.replicate m '(', (c == '(') = true := by
    intro c hc
    rw [List.eq_of_mem_replicate hc]
    rfl
  have hclose : ∀ c ∈ List.replicate n ')', (c == ')') = true := by
    intro c hc
    rw [List.eq_of_mem_replicate hc]
    rfl
  -- neither what is left behind the opening ones nor, from behind, before the closing ones
  -- goes on with more of them
  have hrest : ∀ c ∈ (w ++ List.replicate n ')').head?, (c == '(') = false := by
    intro c hc
    rcases List.mem_append.mp (List.mem_of_mem_head? hc) with hc | hc
    · exact beq_eq_false_iff_ne.mpr (isPlain_iff.mp (hw c hc)).2.1
    · rw [List.eq_of_mem_replicate hc]
      rfl
  have hback : ∀ c ∈ w.reverse.head?, (c == ')') = false := by
    intro c hc
    have hm : c ∈ w := List.mem_reverse.mp (List.mem_of_mem_head? hc)
    exact beq_eq_false_iff_ne.mpr (isPlain_iff.mp (hw c hm)).2.2
  simp only [classify, String.toList_ofList, takeWhile_append_eq hopen hrest,
    dropWhile_append_eq hopen hrest, List.reverse_append, List.reverse_replicate,
    takeWhile_append_eq hclose hback, dropWhile_append_eq hclose hback,
    List.length_replicate, List.reverse_reverse, and_self]

theorem core_of_kind {v : Vocabulary} {t : Token} {text : String} (hne : text.toList ≠ [])
    (h : t.kind = kindOf v text) : t.core = [Symbol.ofPiece v (.run text)] := by
  have he : text.isEmpty = false := by
    rw [Bool.eq_false_iff, ne_eq, String.isEmpty_iff]
    rintro rfl
    exact hne rfl
  rw [kindOf, he, if_neg Bool.false_ne_true] at h
  simp only [core, h, Symbol.ofPiece]
  cases v.operator? text <;> rfl

/-- A token has the symbols of its bundle. -/
theorem symbols_classify {b : List Piece} (v : Vocabulary) (i : Nat) (hb : IsBundle b)
    (hp : ∀ p ∈ b, p.Proper) :
    (classify v i (String.ofList (textOf b))).symbols = b.map (Symbol.ofPiece v) := by
  obtain ⟨m, n, core, rfl, rfl | ⟨text, rfl⟩⟩ := hb.exists_form
  · rw [textOf_append, textOf_append, textOf_replicate .opening,
      textOf_replicate .closing]
    obtain ⟨ho, hc, hk⟩ := classify_ofList v i (m := m) (n := n) (w := []) (by simp)
    unfold symbols Token.core
    show List.replicate (classify v i _).opening _ ++ _ = _
    rw [show textOf [] = [] from rfl, ho, hc, hk]
    simp [kindOf, Symbol.ofPiece]
  · have hrun : text.toList ≠ [] ∧ ∀ c ∈ text.toList, isPlain c = true :=
      hp (.run text) (by simp)
    rw [textOf_append, textOf_append, textOf_replicate .opening,
      textOf_replicate .closing, textOf_run]
    obtain ⟨ho, hc, hk⟩ := classify_ofList v i (m := m) (n := n) hrun.2
    rw [String.ofList_toList] at hk
    rw [symbols, ho, hc, core_of_kind hrun.1 hk]
    simp [Symbol.ofPiece]

theorem symbolsOf_mapIdx {v : Vocabulary} {f : Nat → String → Token} {bs : List (List Piece)}
    (h : ∀ b ∈ bs, ∀ i, (f i (String.ofList (textOf b))).symbols = b.map (Symbol.ofPiece v)) :
    symbolsOf ((bs.map fun b => String.ofList (textOf b)).mapIdx f) =
      bs.flatten.map (Symbol.ofPiece v) := by
  induction bs generalizing f with
  | nil => rfl
  | cons b bs ih =>
      obtain ⟨hb, hbs⟩ := List.forall_mem_cons.mp h
      rw [List.map_cons, List.mapIdx_cons, symbolsOf_cons, hb 0, List.flatten_cons,
        List.map_append, ih fun c hc i => hbs c hc (i + 1)]

theorem isEmpty_eq_false {v : Vocabulary} {t : Token} {b : List Piece} {text : String}
    (h : t.symbols = b.map (Symbol.ofPiece v)) (hr : .run text ∈ b) : t.isEmpty = false := by
  rw [Bool.eq_false_iff]
  intro he
  have hm : Symbol.ofPiece v (.run text) ∈ t.symbols := by
    rw [h]
    exact List.mem_map_of_mem hr
  simp only [symbols, core, isEmpty_iff.mp he, List.nil_append, List.mem_append,
    List.mem_replicate, Symbol.ofPiece] at hm
  cases hv : v.operator? text <;> simp [hv] at hm

end Token

/-! ## Bundles without a run

The induction is on the pieces, from the end: a bundle gets a piece in front if no space
comes between.  Only the first bundle can be without a run for the time being, as it may
still get one, and the only piece with which it can then begin is a closing parenthesis,
for behind an opening one an argument is due. -/

/-- Whatever can be read goes on, and does so with an argument behind an opening
parenthesis. -/
theorem exists_reads_of_cons {d : Due} {n : Nat} {x : Symbol} {s : List Symbol}
    (h : Reads d n (x :: s)) :
    ∃ d' n', Reads d' n' s ∧ (x = .opening → d' = .argument) := by
  match d, n, x, h with
  | .argument, n, .operand _, h => exact ⟨_, _, h, by simp⟩
  | .argument, n, .operator .not, h => exact ⟨_, _, h, by simp⟩
  | .argument, n, .opening, h => exact ⟨_, _, h, by simp⟩
  | .continuation, n, .operator (.binary _), h => exact ⟨_, _, h, by simp⟩
  | .continuation, n + 1, .closing, h => exact ⟨_, _, h, by simp⟩

theorem head?_ne_closing_of_reads {v : Vocabulary} {ps : List Piece} {n : Nat}
    (h : Reads .argument n (ps.map (Symbol.ofPiece v))) :
    ps.head? ≠ some .closing ∧ ps ≠ [] := by
  match ps, h with
  | .opening :: _, _ | .run _ :: _, _ => simp

theorem exists_run_mem_cons {p : Piece} {b : List Piece} (hc : p ≠ .closing)
    (ho : p = .opening → ∃ text, .run text ∈ b) : ∃ text, .run text ∈ p :: b := by
  cases p with
  | opening =>
      obtain ⟨text, ht⟩ := ho rfl
      exact ⟨text, List.mem_cons_of_mem _ ht⟩
  | closing => exact absurd rfl hc
  | run text => exact ⟨text, List.mem_cons_self⟩

/-- Where symbols can be read, every bundle has a run, but for a first one that
closes groups opened before. -/
theorem exists_run_mem_of_reads {v : Vocabulary} {ps : List Piece} {d : Due} {n : Nat}
    (h : Reads d n (ps.map (Symbol.ofPiece v))) :
    (∀ b ∈ (bundles ps).tail, ∃ text, .run text ∈ b) ∧
      (ps.head? ≠ some .closing → ∀ b ∈ (bundles ps).head?, ∃ text, .run text ∈ b) := by
  -- a bundle without a run would end in an opening parenthesis, behind which no space
  -- comes, or begin with a closing one, before which none comes
  induction ps generalizing d n with
  | nil => simp [bundles]
  | cons p ps ih =>
      obtain ⟨d', n', h', hd⟩ := exists_reads_of_cons h
      obtain ⟨htail, hhead⟩ := ih h'
      have hp : p = .opening → ps.head? ≠ some .closing ∧ ps ≠ [] := by
        rintro rfl
        rw [hd rfl] at h'
        exact head?_ne_closing_of_reads h'
      rw [List.head?_cons]
      cases ps with
      | nil =>
          refine ⟨by simp [bundles], ?_⟩
          rintro hc b ⟨⟩
          exact exists_run_mem_cons (fun h => hc (congrArg some h))
            fun h => absurd rfl (hp h).2
      | cons q rest =>
          obtain ⟨b, bs, hb, ⟨hg, hbs⟩ | ⟨hg, hbs⟩⟩ := bundles_cons_cons p q rest
          · rw [hb] at htail hhead
            rw [hbs]
            refine ⟨htail, ?_⟩
            rintro hc _ ⟨⟩
            exact exists_run_mem_cons (fun h => hc (congrArg some h))
              fun h => hhead (hp h).1 _ rfl
          · have hnil : gap p q ≠ [] := by simp [hg]
            rw [ne_eq, gap_eq_nil_iff, not_or] at hnil
            rw [hb] at htail hhead
            rw [hbs]
            constructor
            · intro c hc
              rcases List.mem_cons.mp hc with rfl | hc
              · exact hhead (by simpa using hnil.2) _ rfl
              · exact htail c hc
            · rintro hc _ ⟨⟩
              exact exists_run_mem_cons (fun h => hc (congrArg some h))
                fun h => absurd h hnil.1

theorem exists_run_mem {v : Vocabulary} {ps b : List Piece}
    (h : Reads .argument 0 (ps.map (Symbol.ofPiece v))) (hb : b ∈ bundles ps) :
    ∃ text, .run text ∈ b := by
  obtain ⟨htail, hhead⟩ := exists_run_mem_of_reads h
  have hc := (head?_ne_closing_of_reads h).1
  cases hbs : bundles ps with
  | nil =>
      rw [hbs] at hb
      cases hb
  | cons c cs =>
      rw [hbs] at htail hhead hb
      rcases List.mem_cons.mp hb with rfl | hb
      · exact hhead hc _ rfl
      · exact htail b hb

/-! ## The tokens of a text

Bundles of the pieces of a text are read as words, each with its index for a position. -/

theorem symbols_classify_of_mem {v : Vocabulary} {text : String} {b : List Piece}
    (hb : b ∈ bundles (pieces text)) (i : Nat) :
    (Token.classify v i (String.ofList (textOf b))).symbols = b.map (Symbol.ofPiece v) :=
  Token.symbols_classify v i (isBundle_of_mem_bundles hb) fun p hp =>
    proper_of_cut (cut_scan text.toList) p (mem_of_mem_bundles hb hp)

/-- The tokens of a text have the symbols of its pieces. -/
theorem Parser.symbolsOf_tokenize (p : Parser) (text : String) :
    Token.symbolsOf (p.tokenize text) = (pieces text).map (Symbol.ofPiece p.vocabulary) := by
  rw [tokenize, Token.classifyAll, words_normalize,
    Token.symbolsOf_mapIdx fun b hb i => symbols_classify_of_mem hb i, flatten_bundles]

theorem Parser.exists_bundle_of_mem_tokenize {p : Parser} {text : String} {t : Token}
    (ht : t ∈ p.tokenize text) :
    ∃ b ∈ bundles (pieces text), ∃ i,
      Token.classify p.vocabulary i (String.ofList (textOf b)) = t := by
  rw [tokenize, Token.classifyAll, words_normalize] at ht
  obtain ⟨i, hi, rfl⟩ := List.mem_mapIdx.mp ht
  rw [List.getElem_map]
  exact ⟨_, List.getElem_mem (by simpa using hi), i, rfl⟩

/-- The rules refuse no token of a text whose symbols can be read. -/
theorem Parser.rejection?_tokenize_eq_none_iff {p : Parser} {text : String} :
    rejection? (p.tokenize text) = none ↔
      Reads .argument 0 ((pieces text).map (Symbol.ofPiece p.vocabulary)) := by
  rw [rejection?_eq_none_iff, p.symbolsOf_tokenize]
  refine and_iff_right_of_imp ?_
  intro h t ht
  obtain ⟨b, hb, i, rfl⟩ := exists_bundle_of_mem_tokenize ht
  obtain ⟨run, hr⟩ := exists_run_mem h hb
  exact Token.isEmpty_eq_false (symbols_classify_of_mem hb i) hr

end Clausal
