/-
# Evenly spaced texts

How pieces are set side by side can be undone: they are cut out of their layout
again, whichever pieces meet in it (`Piece.cut_layout`).  So spacing a text evenly
keeps its pieces, and of all texts with the same pieces it makes one: the pieces are
all that the normalized text depends on, and all that it tells.

Reading the words keeps them too.  The parentheses that a token counts and the bare
word between them are the pieces of its bundle (`Token.expand_classify`), and bundle by
bundle those of the text.  So a text can be given back from its tokens as far as its
pieces go, and this with any vocabulary, since a vocabulary says what a bare word is
but not where words begin.

None of this supposes that the text is an expression, that its parentheses match, or
that anything stands between them.
-/
import Mathlib.Data.List.DropRight
import Clausal.Proofs.Evidence

namespace Clausal

open Piece

/-! ## The layout of pieces

Two pieces have a space between them unless the first one opens or the second one
closes.  Where there is no space, a parenthesis ends a run all the same, and where there
is one, cutting drops it. -/

namespace Piece

theorem head?_layout_closing (ps : List Piece) : (layout (.closing :: ps)).head? = some ')' := by
  cases ps <;> rfl

/-- Pieces are cut out of their layout. -/
theorem cut_layout {ps : List Piece} (h : ∀ p ∈ ps, p.Proper) : Cut (layout ps) ps := by
  fun_induction layout ps with
  | case1 => exact .nil
  | case2 p =>
      cases p with
      | opening => exact .opening .nil
      | closing => exact .closing .nil
      | run x =>
          have hrun := cut_run (h _ List.mem_cons_self) (by simp) Cut.nil
          rwa [List.append_nil] at hrun
  | case3 p q rest ih =>
      obtain ⟨hp, hrest⟩ := List.forall_mem_cons.mp h
      have hcut := ih hrest
      -- a space is dropped again, and where there is none a run would end all the same
      cases p with
      | opening => exact .opening hcut
      | closing =>
          cases q with
          | closing => exact .closing hcut
          | opening | run => exact .closing (.blank Text.isBlank_space hcut)
      | run x =>
          cases q with
          | closing =>
              rw [show gap (.run x) .closing = [] from rfl, List.append_nil]
              refine cut_run hp ?_ hcut
              intro c hc
              rw [head?_layout_closing] at hc
              cases hc
              decide
          | opening | run =>
              have hrun := cut_run_space hp hcut
              rwa [List.append_cons] at hrun

end Piece

theorem cut_iff_eq_pieces {text : String} {ps : List Piece} :
    Cut text.toList ps ↔ ps = pieces text := by
  rw [← scan_eq_iff, eq_comm]
  rfl

/-- Spacing a text evenly keeps its pieces. -/
theorem pieces_normalize (text : String) : pieces (normalize text) = pieces text := by
  have hproper : ∀ p ∈ pieces text, p.Proper := proper_of_cut (cut_scan text.toList)
  rw [pieces, normalize, String.toList_ofList]
  exact scan_eq_of_cut (cut_layout hproper)

theorem normalize_eq_normalize_iff {a b : String} :
    normalize a = normalize b ↔ pieces a = pieces b := by
  constructor
  · intro h
    rw [← pieces_normalize a, h, pieces_normalize]
  · intro h
    rw [normalize, normalize, h]

/-! ## The pieces of a token

`bareWord` takes as many characters from both ends of the word as the token counts
parentheses, and `expand` lists the pieces that these and the bare word are. -/

namespace Token

/-- The word without the parentheses that are attached to it. -/
def bareWord (t : Token) : String :=
  String.ofList ((t.word.toList.drop t.opening).rdrop t.closing)

/-- The pieces that a token is made of: its opening parentheses, its bare word
unless that is empty, and its closing parentheses. -/
def expand (t : Token) : List Piece :=
  List.replicate t.opening .opening ++
    ((if t.bareWord.isEmpty then [] else [.run t.bareWord]) ++
      List.replicate t.closing .closing)

variable {t : Token}

theorem bareWord_eq {w : List Char}
    (h : t.word.toList = List.replicate t.opening '(' ++ (w ++ List.replicate t.closing ')')) :
    t.bareWord = String.ofList w := by
  have hopening : t.word.toList.drop t.opening = w ++ List.replicate t.closing ')' := by
    rw [h]
    exact List.drop_left' List.length_replicate
  have hlength : (w ++ List.replicate t.closing ')').length - t.closing = w.length := by
    rw [List.length_append, List.length_replicate, Nat.add_sub_cancel]
  rw [bareWord, hopening, List.rdrop, hlength, List.take_left]

theorem Describes.kind_eq {v : Vocabulary} (h : t.Describes v) : t.kind = kindOf v t.bareWord := by
  obtain ⟨core, hw, -, hk⟩ := h
  rw [hk, bareWord_eq hw, String.ofList_toList]

/-- The token of a bundle is made of the pieces of the bundle. -/
theorem expand_classify {b : List Piece} (v : Vocabulary) (i : Nat) (hb : IsBundle b)
    (hp : ∀ p ∈ b, p.Proper) : (classify v i (String.ofList (textOf b))).expand = b := by
  obtain ⟨m, n, core, rfl, hcore⟩ := hb.exists_form
  have hproper : ∀ p ∈ core, p.Proper := fun p hpc => hp p (by simp [hpc])
  rw [textOf_append, textOf_append, textOf_replicate .opening,
    textOf_replicate .closing]
  obtain ⟨ho, hc, -⟩ := classify_ofList v i (m := m) (n := n) (isPlain_of_core hcore hproper)
  have hbare : (classify v i (String.ofList
      (List.replicate m '(' ++ (textOf core ++ List.replicate n ')')))).bareWord =
      String.ofList (textOf core) := by
    refine bareWord_eq ?_
    rw [ho, hc]
    exact String.toList_ofList
  rw [expand, ho, hc, hbare]
  rcases hcore with rfl | ⟨text, rfl⟩
  · rfl
  · have hne : text ≠ "" := fun h =>
      (hproper _ List.mem_cons_self).1 (String.toList_eq_nil_iff.mpr h)
    rw [textOf_run, String.ofList_toList, if_neg (by rwa [String.isEmpty_iff])]

end Token

namespace Parser

theorem map_expand_tokenize (p : Parser) (text : String) :
    (p.tokenize text).map Token.expand = bundles (pieces text) := by
  rw [tokenize, Token.classifyAll, words_normalize]
  refine List.ext_getElem (by simp) fun i _ hi => ?_
  have hb := List.getElem_mem hi
  simp only [List.getElem_map, List.getElem_mapIdx]
  exact Token.expand_classify _ i (isBundle_of_mem_bundles hb) fun q hq =>
    proper_of_cut (cut_scan text.toList) q (mem_of_mem_bundles hb hq)

/-- A text has one list of pieces.  Spacing it evenly keeps them, makes the same of
two texts exactly if their pieces are the same, and changes nothing the second time.
Each word of the result is plain characters between opening and closing
parentheses; a token is what the vocabulary says of its bare word, and all tokens,
taken apart again, are the pieces of the text. -/
theorem normalize_tokenize_keep_pieces (p : Parser) (a b : String) :
    (∀ ps, Cut a.toList ps ↔ ps = pieces a) ∧
      pieces (normalize a) = pieces a ∧
      (normalize a = normalize b ↔ pieces a = pieces b) ∧
      normalize (normalize a) = normalize a ∧
      (∀ w ∈ words (normalize a), ∃ m core n,
        w.toList = List.replicate m '(' ++ (core ++ List.replicate n ')') ∧
          ∀ c ∈ core, isPlain c = true) ∧
      (∀ t ∈ p.tokenize a, t.kind = Token.kindOf p.vocabulary t.bareWord) ∧
      (p.tokenize a).flatMap Token.expand = pieces a := by
  have haccount := p.account_tokenize a
  refine ⟨fun _ => cut_iff_eq_pieces, pieces_normalize a, normalize_eq_normalize_iff, ?_, ?_, ?_,
    ?_⟩
  · exact normalize_eq_normalize_iff.mpr (pieces_normalize a)
  · intro w hw
    rw [← haccount.written] at hw
    obtain ⟨t, ht, rfl⟩ := List.mem_map.mp hw
    obtain ⟨core, hcore, hplain, -⟩ := haccount.describes t ht
    exact ⟨t.opening, core.toList, t.closing, hcore, hplain⟩
  · exact fun t ht => (haccount.describes t ht).kind_eq
  · rw [List.flatMap, map_expand_tokenize, flatten_bundles]

-- Parentheses that match nothing, and a word that is none.
example :
    (standard.tokenize ")(\u00a0x( )y").map Token.expand =
      [[.closing], [.opening, .run "x"], [.opening, .closing], [.run "y"]] := by
  decide +kernel

end Parser

end Clausal
