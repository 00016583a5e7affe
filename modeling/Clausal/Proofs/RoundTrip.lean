/-
# Reading what was written

The readable form of a formula falls into pieces that follow its tree
(`Formula.cut_render`), as long as its operands have names that are read as they stand.
These pieces derive the formula: parentheses stand round an argument exactly where it
would otherwise not be one of level 5.  So the parser, which reads what is derivable,
reads the formula, up to origins (`Parser.parse_render`).

Which names are read as they stand depends on the vocabulary: they have to be words of
plain characters of which it makes no operators (`IsName`).  The names of a formula
that has been read are of this kind, and no rewriting brings in others, so what has been
read can be written and read again at any stage of the work.  A name that is not of this
kind is written all the same, and read as something else or refused.

The keywords of the readable form are fixed, and the vocabulary has to know them; the
standard one does.
-/
import Clausal.Formula.Rendering
import Clausal.Proofs.Passes
import Clausal.Proofs.Reading

namespace Clausal

open Piece

/-! ## Names that are read as they stand

An operand of a text is a run of which the vocabulary makes no operator, and that is all
that a name has to be. -/

/-- A name that is not empty, has no blank and no parenthesis in it, and is no
operator. -/
structure IsName (v : Vocabulary) (x : String) : Prop where
  ne_empty : x ≠ ""
  plain : ∀ c ∈ x.toList, Text.isBlank c = false ∧ c ≠ '(' ∧ c ≠ ')'
  operand : v.operator? x = none

theorem isName_iff {v : Vocabulary} {x : String} :
    IsName v x ↔ x ≠ "" ∧ x.toList.all isPlain = true ∧ v.operator? x = none := by
  constructor
  · rintro ⟨hne, hplain, hv⟩
    exact ⟨hne, List.all_eq_true.mpr fun c hc => isPlain_iff.mpr (hplain c hc), hv⟩
  · rintro ⟨hne, hplain, hv⟩
    exact ⟨hne, fun c hc => isPlain_iff.mp (List.all_eq_true.mp hplain c hc), hv⟩

instance (v : Vocabulary) (x : String) : Decidable (IsName v x) :=
  decidable_of_iff _ isName_iff.symm

theorem IsName.proper {v : Vocabulary} {x : String} (h : IsName v x) :
    Proper (.run x) := by
  refine ⟨?_, fun c hc => isPlain_iff.mpr (h.plain c hc)⟩
  intro hnil
  exact h.ne_empty (String.toList_eq_nil_iff.mp hnil)

theorem ofPiece_run_of_isName {v : Vocabulary} {x : String} (h : IsName v x) :
    Symbol.ofPiece v (.run x) = .operand x := by
  simp only [Symbol.ofPiece, h.operand]

theorem isName_of_mem {v : Vocabulary} {cs : List Char} {ps : List Piece} {x : String}
    (hcut : Cut cs ps) (hx : .operand x ∈ ps.map (Symbol.ofPiece v)) : IsName v x := by
  obtain ⟨p, hp, hpx⟩ := List.mem_map.mp hx
  cases p with
  | opening | closing => cases hpx
  | run y =>
      cases hv : v.operator? y with
      | some op =>
          simp only [Symbol.ofPiece, hv] at hpx
          cases hpx
      | none =>
          simp only [Symbol.ofPiece, hv] at hpx
          cases hpx
          obtain ⟨hne, hplain⟩ := proper_of_cut hcut _ hp
          refine ⟨?_, fun c hc => isPlain_iff.mp (hplain c hc), hv⟩
          rintro rfl
          exact hne rfl

theorem operand_mem_of_derives {p : Nat} {s : List Symbol} {t : Formula} (h : Derives p s t) :
    ∀ x ∈ t.leaves, .operand x ∈ s := by
  induction h with
  | tighter _ _ ih => exact ih
  | binary _ _ _ ih ih' =>
      intro x hx
      rcases Formula.mem_leaves_binary.mp hx with hx | hx
      · exact List.mem_append_left _ (ih x hx)
      · exact List.mem_append_right _ (List.mem_cons_of_mem _ (ih' x hx))
  | not _ ih =>
      intro x hx
      exact List.mem_cons_of_mem _ (ih x hx)
  | group _ ih =>
      intro x hx
      exact List.mem_cons_of_mem _ (List.mem_append_left _ (ih x hx))
  | operand name =>
      intro x hx
      rw [List.mem_singleton.mp hx]
      exact List.mem_cons_self

/-! ## The pieces of the readable form

`renderPieces` follows the recursion of `render`, and `Piece.enclose` that of
`Formula.enclose`.  A run goes on as long as it can, so the induction needs what follows to
begin with something else: a space or a parenthesis, as it does inside a formula.  The
statement is therefore about the form in front of a text that has been cut already. -/

/-- Parentheses round pieces, if asked for. -/
def Piece.enclose (wanted : Bool) (ps : List Piece) : List Piece :=
  if wanted then .opening :: (ps ++ [.closing]) else ps

namespace Formula

/-- The operands have names of which the vocabulary makes no operators. -/
def Readable (v : Vocabulary) (f : Formula) : Prop := ∀ x ∈ f.leaves, IsName v x

/-- The pieces of the readable form. -/
def renderPieces : Formula → List Piece
  | .operand name _ => [.run name]
  | .not f _ => .run "NOT" :: Piece.enclose f.isBinary f.renderPieces
  | .binary op f g _ =>
    Piece.enclose f.isBinary f.renderPieces ++
      .run op.keyword :: Piece.enclose g.isBinary g.renderPieces

end Formula

theorem proper_keyword (op : Operator) : Proper (.run op.keyword) := by
  have h : op.keyword.toList ≠ [] ∧ op.keyword.toList.all isPlain = true := by
    cases op with
    | not => decide
    | binary c => cases c <;> decide
  exact ⟨h.1, List.all_eq_true.mp h.2⟩

theorem cut_enclose {text : String} {qs : List Piece} (b : Bool)
    (h : ∀ cs ps, (∀ c ∈ cs.head?, isPlain c = false) → Cut cs ps →
      Cut (text.toList ++ cs) (qs ++ ps))
    {cs : List Char} {ps : List Piece} (hcs : ∀ c ∈ cs.head?, isPlain c = false)
    (hcut : Cut cs ps) :
    Cut ((Formula.enclose b text).toList ++ cs) (Piece.enclose b qs ++ ps) := by
  cases b with
  | false => exact h cs ps hcs hcut
  | true =>
      have hin : Cut (text.toList ++ ')' :: cs) (qs ++ .closing :: ps) := by
        apply h _ _ _ (.closing hcut)
        rintro c ⟨⟩
        decide
      have htext : (Formula.enclose true text).toList ++ cs =
          '(' :: (text.toList ++ ')' :: cs) := by
        simp [Formula.enclose]
      have hps : Piece.enclose true qs ++ ps = .opening :: (qs ++ .closing :: ps) := by
        simp [Piece.enclose]
      rw [htext, hps]
      exact .opening hin

/-- The readable form in front of anything that cannot go on with its last run. -/
theorem Formula.cut_render_append {v : Vocabulary} {f : Formula} (hf : f.Readable v) :
    ∀ cs ps, (∀ c ∈ cs.head?, isPlain c = false) → Cut cs ps →
      Cut (f.render.toList ++ cs) (f.renderPieces ++ ps) := by
  induction f with
  | operand name _ =>
      intro cs ps hcs hcut
      exact cut_run (hf name List.mem_cons_self).proper hcs hcut
  | not f o ih =>
      intro cs ps hcs hcut
      have hbody := cut_enclose f.isBinary (ih hf) hcs hcut
      have hnot := cut_run_space (proper_keyword .not) hbody
      have htext : (Formula.not f o).render.toList ++ cs =
          Operator.not.keyword.toList ++
            ' ' :: ((enclose f.isBinary f.render).toList ++ cs) := by
        simp [render, Operator.keyword]
      rw [htext]
      exact hnot
  | binary op f g o ihf ihg =>
      intro cs ps hcs hcut
      have hgf := List.forall_mem_append.mp hf
      have hright := cut_enclose g.isBinary (ihg hgf.2) hcs hcut
      have hop := cut_run_space (proper_keyword (.binary op)) hright
      have hleft := cut_enclose f.isBinary (ihf hgf.1) (by rintro c ⟨⟩; decide)
        (.blank Text.isBlank_space hop)
      have htext : (Formula.binary op f g o).render.toList ++ cs =
          (enclose f.isBinary f.render).toList ++
            ' ' :: ((Operator.binary op).keyword.toList ++
              ' ' :: ((enclose g.isBinary g.render).toList ++ cs)) := by
        simp [render, Operator.keyword]
      rw [htext, renderPieces, List.append_assoc]
      exact hleft

theorem Formula.cut_render {v : Vocabulary} {f : Formula} (hf : f.Readable v) :
    Cut f.render.toList f.renderPieces := by
  have h := cut_render_append hf [] [] (by simp) .nil
  rwa [List.append_nil, List.append_nil] at h

/-! ## Their derivation

Every formula is an expression of level 0, and one of level 5 unless it is joined by a
connective; those that are joined are put in parentheses where level 5 is needed.  Both
halves are carried through the induction, as the arguments of a connective are asked for
level 5 and the whole for level 0. -/

/-- The vocabulary knows the keywords of the readable form. -/
def Vocabulary.Knows (v : Vocabulary) : Prop :=
  ∀ op : Operator, v.operator? op.keyword = some op

theorem Vocabulary.knows_standard : Vocabulary.standard.Knows := by
  intro op
  cases op with
  | not => decide
  | binary c => cases c <;> decide

theorem ofPiece_keyword {v : Vocabulary} (hv : v.Knows) (op : Operator) :
    Symbol.ofPiece v (.run op.keyword) = .operator op := by
  simp only [Symbol.ofPiece, hv op]

theorem derives_enclose {v : Vocabulary} {f t : Formula} {ps : List Piece}
    (h : Derives 0 (ps.map (Symbol.ofPiece v)) t)
    (htight : f.isBinary = false → Derives 5 (ps.map (Symbol.ofPiece v)) t) :
    Derives 5 ((enclose f.isBinary ps).map (Symbol.ofPiece v)) t := by
  cases hb : f.isBinary with
  | false => exact htight hb
  | true =>
      rw [enclose, if_pos rfl, List.map_cons, List.map_append]
      exact .group h

/-- The pieces of the readable form derive the formula. -/
theorem Formula.derives_render {v : Vocabulary} (hv : v.Knows) {f : Formula}
    (hf : f.Readable v) :
    Derives 0 (f.renderPieces.map (Symbol.ofPiece v)) f.bare ∧
      (f.isBinary = false → Derives 5 (f.renderPieces.map (Symbol.ofPiece v)) f.bare) := by
  induction f with
  | operand name o =>
      have h : Derives 5 ((renderPieces (.operand name o)).map (Symbol.ofPiece v))
          (var name) := by
        rw [renderPieces, List.map_singleton, ofPiece_run_of_isName (hf name List.mem_cons_self)]
        exact .operand name
      exact ⟨h.loosen (by omega) (by omega), fun _ => h⟩
  | not f o ih =>
      obtain ⟨h, htight⟩ := ih hf
      have hnot : Derives 5 ((renderPieces (.not f o)).map (Symbol.ofPiece v)) (neg f.bare) := by
        rw [renderPieces, List.map_cons]
        show Derives 5 (Symbol.ofPiece v (.run Operator.not.keyword) :: _) _
        rw [ofPiece_keyword hv]
        exact .not (derives_enclose h htight)
      exact ⟨hnot.loosen (by omega) (by omega), fun _ => hnot⟩
  | binary op f g o ihf ihg =>
      have hgf := List.forall_mem_append.mp hf
      obtain ⟨hleft, hleft'⟩ := ihf hgf.1
      obtain ⟨hright, hright'⟩ := ihg hgf.2
      have hop : op ∈ connectivesOf op.priority := mem_connectivesOf.mpr rfl
      have hlt := level_lt_five hop
      refine ⟨?_, fun hb => by cases hb⟩
      rw [renderPieces, List.map_append, List.map_cons]
      show Derives 0 (_ ++ Symbol.ofPiece v (.run (Operator.binary op).keyword) :: _) _
      rw [ofPiece_keyword hv]
      apply Derives.loosen (Nat.zero_le op.priority) (by omega)
      exact .binary hop ((derives_enclose hleft hleft').loosen (by omega) (by omega))
        ((derives_enclose hright hright').loosen (by omega) (by omega))

/-! ## The round trip

Reading back is what the grammar says of the pieces of the readable form. -/

namespace Parser

theorem readable_of_parse {p : Parser} {text : String} {f : Formula}
    (h : p.parse text = .ok f) : f.Readable p.vocabulary := by
  intro x hx
  rw [← Formula.leaves_bare] at hx
  exact isName_of_mem (cut_scan text.toList) (operand_mem_of_derives (derives_of_parse h) x hx)

/-- What is written is read back, in every vocabulary with the keywords. -/
theorem exists_parse_render {p : Parser} {f : Formula} (hv : p.vocabulary.Knows)
    (hp : p.limitRejection? (p.tokenize f.render) = none) (hf : f.Readable p.vocabulary) :
    ∃ g, p.parse f.render = .ok g ∧ g.Alike f := by
  have hd := (f.derives_render hv hf).1
  rw [← scan_eq_of_cut (Formula.cut_render hf)] at hd
  exact exists_parse_of_derives hp hd

/-- Formulas whose operands have names are read back as they were written; what is
read is one of them, and no rewriting leads out of them. -/
theorem parse_render :
    (∀ t : Formula, t.Readable .standard →
      ∃ f, standard.parse t.render = .ok f ∧ f.Alike t) ∧
    (∀ (text : String) (f : Formula), standard.parse text = .ok f → f.Readable .standard) ∧
    ∀ f : Formula, f.Readable .standard →
      ∀ g ∈ [f.desugar, f.pushNegations, f.distribute, f.toNnf, f.toCnf],
        g.Readable .standard := by
  refine ⟨fun t ht => exists_parse_render Vocabulary.knows_standard rfl ht,
    fun text f hf => readable_of_parse hf, ?_⟩
  intro f hf g hg x hx
  apply hf
  simp only [List.mem_cons, List.not_mem_nil, or_false] at hg
  rcases hg with rfl | rfl | rfl | rfl | rfl
  · exact Formula.mem_leaves_desugar.mp hx
  · exact Formula.mem_leaves_pushNegations.mp hx
  · exact Formula.mem_leaves_distribute.mp hx
  · exact Formula.mem_leaves_toNnf.mp hx
  · exact Formula.mem_leaves_toCnf.mp hx

/-- A negation over a group, which is read back and then rewritten. -/
theorem parse_render_negated_group :
    let t : Formula := .join .xor (.neg (.join .implies (.var "a") (.neg (.var "nota"))))
      (.var "b1")
    t.Readable .standard ∧ ∃ f, standard.parse t.render = .ok f ∧ f.Alike t ∧
      f.Readable .standard ∧ f.toCnf.Readable .standard := by
  intro t
  have ht : t.Readable .standard := by
    show ∀ x ∈ ["a", "nota", "b1"], IsName .standard x
    decide
  obtain ⟨f, hf, halike⟩ := parse_render.1 t ht
  have hread := parse_render.2.1 t.render f hf
  exact ⟨ht, f, hf, halike, hread, parse_render.2.2 f hread f.toCnf (by simp)⟩

end Parser

end Clausal
