/-
# Normal forms, and the clauses that are read off them

A formula is brought to negation normal form in two passes and to conjunctive normal form
in a third one, and its clauses are read off the result.  Here the passes are put
together.

Two questions are answered.  *Do the clauses mean the formula?*  Reading off a formula in
conjunctive normal form, from left to right, cannot fail, gives at least one clause and no
empty one, and keeps the value; every formula is brought to that form first, so the same
holds of the clauses of any formula (`clauses_denote`).

*Which formulas have a normal form already?*  Each pass finds nothing to do in a formula
of the form that it brings about, and gives it back with all its origins.  So what comes
out of a conversion has the form, and is left alone by it.  This much says that a form is
the set of fixed points of its conversion, up to origins: the test for the form does not
look at them, so a formula that is merely alike to its conversion has the form too
(`form_iff_alike`).  The two normal forms are two cases of this
(`normalForms_eq_fixedPoints`).
-/
import Clausal.Clause
import Clausal.Proofs.Distribution

namespace Clausal.Formula

/-! ## The meaning of what is read off

Reading off fails where a formula is no conjunction of clauses, so each statement is about
what it returned.  The induction is that of the reading itself. -/

variable {v : String → Bool}

theorem eval_of_literal? {f : Formula} {l : Literal} (h : f.literal? = some l) :
    l.eval v = f.eval v := by
  cases f with
  | operand name o =>
      cases h
      exact Bool.bne_false (v name)
  | not f o =>
      cases f with
      | operand name i =>
          cases h
          exact Bool.bne_true (v name)
      | not | binary => cases h
  | binary => cases h

/-- The literals of a clause: there are some, and one of them holds exactly if
the clause does. -/
theorem eval_of_clause? {f : Formula} {c : Clause} (h : f.clause? = some c) :
    c ≠ [] ∧ c.eval v = f.eval v := by
  fun_induction clause? f generalizing c with
  | case1 f g o ihf ihg =>
      obtain ⟨a, b, ha, hb, rfl⟩ := (clause?_or_eq_some (o := o)).mp (by rw [clause?]; exact h)
      obtain ⟨hne, hf⟩ := ihf ha
      obtain ⟨-, hg⟩ := ihg hb
      refine ⟨fun hnil => hne (List.append_eq_nil_iff.mp hnil).1, ?_⟩
      rw [Clause.eval_append, hf, hg]
      rfl
  | case2 f hor =>
      obtain ⟨l, hl, rfl⟩ := Option.map_eq_some_iff.mp h
      refine ⟨List.cons_ne_nil l [], ?_⟩
      show (l.eval v || false) = f.eval v
      rw [Bool.or_false, eval_of_literal? hl]

/-- The clauses of a formula in conjunctive normal form: there are some, none of
them is empty, and all of them hold exactly if the formula does. -/
theorem evalAll_of_clauseList? {f : Formula} {cs : List Clause} (h : f.clauseList? = some cs) :
    (cs ≠ [] ∧ ∀ c ∈ cs, c ≠ []) ∧ Clause.evalAll v cs = f.eval v := by
  fun_induction clauseList? f generalizing cs with
  | case1 f g o ihf ihg =>
      obtain ⟨as, bs, has, hbs, rfl⟩ :=
        (clauseList?_and_eq_some (o := o)).mp (by rw [clauseList?]; exact h)
      obtain ⟨⟨hne, hfull⟩, hf⟩ := ihf has
      obtain ⟨⟨-, hfull'⟩, hg⟩ := ihg hbs
      refine ⟨⟨fun hnil => hne (List.append_eq_nil_iff.mp hnil).1, ?_⟩, ?_⟩
      · intro c hc
        exact (List.mem_append.mp hc).elim (hfull c) (hfull' c)
      · rw [Clause.evalAll_append, hf, hg]
        rfl
  | case2 f hand =>
      obtain ⟨c, hc, rfl⟩ := Option.map_eq_some_iff.mp h
      obtain ⟨hne, hf⟩ := eval_of_clause? (v := v) hc
      refine ⟨⟨List.cons_ne_nil c [], ?_⟩, ?_⟩
      · intro d hd
        rw [List.mem_singleton.mp hd]
        exact hne
      · show (c.eval v && true) = f.eval v
        rw [Bool.and_true, hf]

/-! ## The clauses of any formula

A formula in conjunctive normal form is not converted again before its clauses are read
off; what is read off has the form either way. -/

theorem isCnf_asCnf (f : Formula) : f.asCnf.isCnf = true := by
  unfold asCnf
  split
  · assumption
  · exact isCnf_toCnf f

theorem eval_asCnf (v : String → Bool) (f : Formula) : f.asCnf.eval v = f.eval v := by
  unfold asCnf
  split
  · rfl
  · exact eval_toCnf v f

theorem clauseList?_asCnf (f : Formula) : f.asCnf.clauseList? = some f.clauses := by
  have h : f.asCnf.clauseList?.isSome = true := by
    rw [isSome_clauseList?]
    exact isCnf_asCnf f
  obtain ⟨cs, hcs⟩ := Option.isSome_iff_exists.mp h
  rw [clauses, hcs]
  rfl

/-- Every formula has clauses: reading them off does not fail, there is at least
one, none is empty, and together they have the value of the formula. -/
theorem clauses_denote (f : Formula) (v : String → Bool) :
    f.asCnf.clauseList? = some f.clauses ∧
      f.clauses ≠ [] ∧ (∀ c ∈ f.clauses, c ≠ []) ∧
      Clause.evalAll v f.clauses = f.eval v := by
  have hread := clauseList?_asCnf f
  obtain ⟨⟨hne, hfull⟩, heval⟩ := evalAll_of_clauseList? (v := v) hread
  exact ⟨hread, hne, hfull, heval.trans (eval_asCnf v f)⟩

/-! ## Forms and fixed points

The statements are about any form and any conversion, as there are more of them than the
two normal forms: each single pass has its own. -/

/-- A form that a conversion reaches and leaves alone is that of its fixed points. -/
theorem form_iff_eq {form : Formula → Prop} {convert : Formula → Formula}
    (reached : ∀ f, form (convert f)) (kept : ∀ {f}, form f → convert f = f) (f : Formula) :
    form f ↔ convert f = f := by
  constructor
  · exact kept
  · intro h
    rw [← h]
    exact reached f

/-- A form that does not look at origins, and that a conversion reaches and
leaves alone, is recognised by the conversion. -/
theorem form_iff_alike {form : Formula → Bool} {convert : Formula → Formula}
    (reached : ∀ f, form (convert f) = true) (kept : ∀ {f}, form f = true → convert f = f)
    (bare_eq : ∀ f, form f.bare = form f) (f : Formula) :
    form f = true ↔ (convert f).Alike f := by
  constructor
  · intro h
    rw [kept h]
    exact .refl f
  · intro h
    have hbare : (convert f).bare = f.bare := h
    rw [← bare_eq, ← hbare, bare_eq]
    exact reached f

theorem asCnf_eq_toCnf (f : Formula) : f.asCnf = f.toCnf := by
  unfold asCnf
  split
  · rename_i h
    exact (toCnf_of_isCnf h).symm
  · rfl

/-- The conversions reach their forms, and a formula has a form exactly if the
conversion leaves it alone; so converting twice is converting once, and the
clauses are always those of the conjunctive normal form. -/
theorem normalForms_eq_fixedPoints (f : Formula) :
    (f.toNnf.isNnf = true ∧ f.toCnf.isCnf = true) ∧
      (f.isNnf = true ↔ f.toNnf.Alike f) ∧
      (f.isCnf = true ↔ f.toCnf.Alike f) ∧
      (f.toNnf.toNnf = f.toNnf ∧ f.toCnf.toCnf = f.toCnf) ∧
      f.asCnf.clauseList? = some f.clauses ∧ f.toCnf.clauseList? = some f.clauses := by
  have hclauses := clauseList?_asCnf f
  refine ⟨⟨isNnf_toNnf f, isCnf_toCnf f⟩, ?_, ?_, ?_, hclauses, ?_⟩
  · exact form_iff_alike isNnf_toNnf toNnf_of_isNnf isNnf_bare f
  · exact form_iff_alike isCnf_toCnf toCnf_of_isCnf isCnf_bare f
  · exact ⟨toNnf_of_isNnf (isNnf_toNnf f), toCnf_of_isCnf (isCnf_toCnf f)⟩
  · rw [← asCnf_eq_toCnf]
    exact hclauses

end Clausal.Formula
