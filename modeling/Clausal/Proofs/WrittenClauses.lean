/-
# Literals and clauses as they are written

A written literal is read back as itself exactly if its name is legible: not empty, and
without a dash in front.  On these names reading and writing are inverse to each other,
and the opposite of a literal is read back as well as the literal itself
(`Literal.read_inverts_render`).

The clauses of a formula are written literal by literal, and a text may well name an
operand `-a`: what ends an operand are blanks and parentheses, and a dash is neither.  Its
positive literal is then written like the negative one of `a`.  So the written clauses of
a text say what its clauses say exactly for the texts that have no such operand
(`Parser.read_clauseTexts_iff`); an operand is never empty, so a dash in front is the only
way to be illegible.
-/
import Clausal.Proofs.ClauseLists
import Clausal.Proofs.RoundTrip

namespace Clausal

/-! ## Literals

Legibility is said of the name as a text; the reader tests it on the characters behind the
sign. -/

namespace Literal

/-- The name can be told from a sign: it is not empty, and has no dash in front. -/
def Legible (l : Literal) : Prop := l.name ≠ "" ∧ l.name.toList.head? ≠ some '-'

theorem isReadableName_iff_legible {l : Literal} :
    isReadableName l.name.toList = true ↔ l.Legible := by
  rw [isReadableName_iff, Legible, Ne, String.toList_eq_nil_iff]

theorem legible_negate {l : Literal} : l.negate.Legible ↔ l.Legible := Iff.rfl

/-- Reading inverts writing, and the other way round, for the literals with a legible
name and for no others.  The opposite of such a literal is read back as well, and has
the opposite value whatever the values of the operands. -/
theorem read_inverts_render :
    (∀ (text : String) (l : Literal), read text = .ok l ↔ l.render = text ∧ l.Legible) ∧
      (∀ l : Literal, read l.render = .ok l ↔ l.Legible) ∧
      ∀ l : Literal, l.Legible →
        read l.negate.render = .ok l.negate ∧ ∀ v, l.negate.eval v = !l.eval v := by
  have hread : ∀ l : Literal, read l.render = .ok l ↔ l.Legible := by
    intro l
    rw [read_render_iff, isReadableName_iff_legible]
  refine ⟨fun text l => ?_, hread, fun l hl => ?_⟩
  · constructor
    · intro h
      obtain ⟨hrender, hreadable⟩ := render_of_read h
      exact ⟨hrender, isReadableName_iff_legible.mp hreadable⟩
    · rintro ⟨rfl, hl⟩
      exact (hread l).mpr hl
  · exact ⟨(hread l.negate).mpr (legible_negate.mpr hl), fun v => eval_negate v l⟩

/-- A name with dashes inside it and at its end, in a negated literal; and a name with a
dash in front, of which the negated literal is refused and the positive one is read as
another one. -/
theorem read_inverts_render_dashes :
    (negative "a--").Legible ∧ (negative "a--").render = "-a--" ∧
      read "-a--" = .ok (negative "a--") ∧ read "a--" = .ok (positive "a--") ∧
      (∀ v, (positive "a--").eval v = !(negative "a--").eval v) ∧
      read (positive "-a").render = .ok (negative "a") ∧
      read (negative "-a").render ≠ .ok (negative "-a") := by
  have hl : (negative "a--").Legible := by
    constructor <;> decide
  have hd : ¬ (negative "-a").Legible := fun h => h.2 (by decide)
  obtain ⟨hread, hback, hnegate⟩ := read_inverts_render
  obtain ⟨hopposite, heval⟩ := hnegate (negative "a--") hl
  exact ⟨hl, rfl, (hread "-a--" _).mpr ⟨rfl, hl⟩, hopposite, heval, rfl,
    fun h => hd ((hback _).mp h)⟩

end Literal

/-! ## The clauses of a formula

Every leaf is named in some clause, so one illegible name is enough for the clauses to be
misread somewhere. -/

namespace Formula

theorem map_read_clauseTexts (f : Formula) :
    f.clauseTexts.map (List.map Literal.read) = f.clauses.map (List.map .ok) ↔
      ∀ x ∈ f.leaves, Literal.isReadableName x.toList = true := by
  have hclause : ∀ c : Clause, c.render.map Literal.read = c.map .ok ↔
      ∀ l ∈ c, Literal.isReadableName l.name.toList = true := by
    intro c
    rw [Clause.render, List.map_map, List.map_inj_left]
    exact forall₂_congr fun l _ => Literal.read_render_iff l
  rw [clauseTexts, List.map_map, List.map_inj_left]
  constructor
  · intro h x hx
    obtain ⟨c, hc, l, hl, rfl⟩ := mem_leaves_iff_clauses.mp hx
    exact (hclause c).mp (h c hc) l hl
  · intro h c hc
    refine (hclause c).mpr fun l hl => ?_
    exact h l.name (mem_leaves_iff_clauses.mpr ⟨c, hc, l, hl, rfl⟩)

end Formula

/-! ## The clauses of a text

With a dash inside a name all is well; with a dash in front, a clause that is read back
says something else, and no refusal gives it away. -/

namespace Parser

/-- Of a text that is read, the written clauses are read back as the clauses, each
literal in its place, exactly if no operand of the text begins with a dash. -/
theorem read_clauseTexts_iff {p : Parser} {text : String} {f : Formula}
    (h : p.parse text = .ok f) :
    f.clauseTexts.map (List.map Literal.read) = f.clauses.map (List.map .ok) ↔
      ∀ x ∈ f.leaves, x.toList.head? ≠ some '-' := by
  rw [Formula.map_read_clauseTexts]
  refine forall₂_congr fun x hx => ?_
  rw [Literal.isReadableName_iff]
  refine and_iff_right ?_
  intro hnil
  exact (readable_of_parse h x hx).ne_empty (String.toList_eq_nil_iff.mp hnil)

/-- A dash inside a name does no harm. -/
theorem read_clauseTexts_inner_dash :
    ∃ f, standard.parse "a-b IMPLIES NOT c" = .ok f ∧
      f.clauseTexts.map (List.map Literal.read) = f.clauses.map (List.map .ok) := by
  let t : Formula := .join .implies (.var "a-b") (.neg (.var "c"))
  have ht : t.Readable .standard := by
    show ∀ x ∈ ["a-b", "c"], IsName .standard x
    decide
  obtain ⟨f, hf, halike⟩ := exists_parse_render (p := standard) Vocabulary.knows_standard rfl ht
  refine ⟨f, hf, (read_clauseTexts_iff hf).mpr ?_⟩
  have hleaves : f.leaves = t.leaves := by
    rw [← Formula.leaves_bare, halike, Formula.leaves_bare]
  rw [hleaves]
  show ∀ x ∈ ["a-b", "c"], x.toList.head? ≠ some '-'
  decide

/-- The operands `a` and `-a` of one text: a denied and an affirmed literal are
written alike, and both are read as denied. -/
theorem exists_clauseTexts_misread :
    ∃ f, standard.parse "NOT a OR -a" = .ok f ∧
      f.clauses = [[.negative "a", .positive "-a"]] ∧ f.clauseTexts = [["-a", "-a"]] ∧
      Literal.read "-a" = .ok (.negative "a") := by
  let t : Formula := .disj (.neg (.var "a")) (.var "-a")
  have ht : t.Readable .standard := by
    show ∀ x ∈ ["a", "-a"], IsName .standard x
    decide
  obtain ⟨f, hf, halike⟩ := exists_parse_render (p := standard) Vocabulary.knows_standard rfl ht
  have hclauses : f.clauses = [[.negative "a", .positive "-a"]] := by
    rw [halike.clauses, Formula.clauses_eq_affirm]
    rfl
  refine ⟨f, hf, hclauses, ?_, rfl⟩
  rw [Formula.clauseTexts, hclauses]
  rfl

end Parser

end Clausal
