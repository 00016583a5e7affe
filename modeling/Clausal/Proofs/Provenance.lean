/-
# Where the nodes of a rewritten formula come from

A pass takes formulas apart and builds them anew, and may copy a part.  A node that it
keeps has the origin that it had, and a node that it makes has none; so an origin
stands behind the same name or operator as before.

Every pass keeps the leaves with their origins (`Pass.mem_leafOrigins_apply`).  They are
kept as a set and not as a list, since an argument that is mentioned twice brings its
leaves twice.  Of the operators that have an origin a pass can only lose some
(`Pass.operatorOrigins_apply`): a connective that is split or written out is gone, and
what stands in its place has no origin.

A pass that finds nothing to rewrite gives the formula back with all its origins, and it
is the only case in which it gives the same formula back; the forms are those of
`Proofs.NormalForms` and `Proofs.Negations`.
-/
import Clausal.Proofs.Negations

namespace Clausal

namespace Formula

/-- The operators that have an origin, each with its origin. -/
def operatorOrigins : Formula → List (Operator × Origin)
  | .operand _ _ => []
  | .not f o => o.toList.map (Operator.not, ·) ++ f.operatorOrigins
  | .binary op f g o =>
    o.toList.map (Operator.binary op, ·) ++ (f.operatorOrigins ++ g.operatorOrigins)

/-! ## Operators from a list

Throughout, `l` has all operators with an origin of the formula, and has to have those
of what becomes of it.  A statement in this form goes through the recursions of the
passes, where a part may be used twice or in another place. -/

variable {l : List (Operator × Origin)} {f g p q : Formula} {op : Connective}
  {o : Option Origin}

theorem operatorOrigins_not_subset :
    (Formula.not f o).operatorOrigins ⊆ l ↔
      o.toList.map (Operator.not, ·) ⊆ l ∧ f.operatorOrigins ⊆ l :=
  List.append_subset

theorem operatorOrigins_binary_subset :
    (Formula.binary op f g o).operatorOrigins ⊆ l ↔
      o.toList.map (Operator.binary op, ·) ⊆ l ∧ f.operatorOrigins ⊆ l ∧
        g.operatorOrigins ⊆ l :=
  List.append_subset.trans (and_congr_right fun _ => List.append_subset)

theorem operatorOrigins_join_subset :
    (join op f g).operatorOrigins ⊆ l ↔ f.operatorOrigins ⊆ l ∧ g.operatorOrigins ⊆ l :=
  operatorOrigins_binary_subset.trans (and_iff_right (List.nil_subset l))

theorem operatorOrigins_desugar (h : f.operatorOrigins ⊆ l) : f.desugar.operatorOrigins ⊆ l := by
  induction f with
  | operand => exact h
  | not f o ih =>
      obtain ⟨ho, hf⟩ := operatorOrigins_not_subset.mp h
      exact operatorOrigins_not_subset.mpr ⟨ho, ih hf⟩
  | binary op f g o ihf ihg =>
      obtain ⟨ho, hf, hg⟩ := operatorOrigins_binary_subset.mp h
      have hp := ihf hf
      have hq := ihg hg
      cases op with
      | and | or => exact operatorOrigins_binary_subset.mpr ⟨ho, hp, hq⟩
      | implies | requires | excludes => exact operatorOrigins_join_subset.mpr ⟨hp, hq⟩
      | equivalence | xor =>
          have hpq := List.append_subset.mpr ⟨hp, hq⟩
          exact operatorOrigins_join_subset.mpr ⟨hpq, hpq⟩

theorem operatorOrigins_pushNegations (h : f.operatorOrigins ⊆ l) :
    f.pushNegations.operatorOrigins ⊆ l := by
  fun_induction pushNegations f with
  | case1 | case2 => exact h
  | case3 f i o ih =>
      obtain ⟨-, hf⟩ := operatorOrigins_not_subset.mp (operatorOrigins_not_subset.mp h).2
      exact ih hf
  | case4 f g i o ih | case5 f g i o ih =>
      obtain ⟨-, hfg⟩ := operatorOrigins_binary_subset.mp (operatorOrigins_not_subset.mp h).2
      exact ih (operatorOrigins_join_subset.mpr hfg)
  | case6 op f g i o _ _ ihf ihg =>
      obtain ⟨ho, hbody⟩ := operatorOrigins_not_subset.mp h
      obtain ⟨hi, hf, hg⟩ := operatorOrigins_binary_subset.mp hbody
      exact operatorOrigins_not_subset.mpr
        ⟨ho, operatorOrigins_binary_subset.mpr ⟨hi, ihf hf, ihg hg⟩⟩
  | case7 op f g o ihf ihg =>
      obtain ⟨ho, hf, hg⟩ := operatorOrigins_binary_subset.mp h
      exact operatorOrigins_binary_subset.mpr ⟨ho, ihf hf, ihg hg⟩

theorem Redistributes.operatorOrigins_subset (h : Redistributes f g) :
    f.operatorOrigins ⊆ l → g.operatorOrigins ⊆ l := by
  induction h with
  | refl => exact id
  | trans _ _ ih ih' => exact fun hl => ih' (ih hl)
  | not o _ ih =>
      intro hl
      obtain ⟨ho, hf⟩ := operatorOrigins_not_subset.mp hl
      exact operatorOrigins_not_subset.mpr ⟨ho, ih hf⟩
  | binary op o _ _ ihf ihg =>
      intro hl
      obtain ⟨ho, hf, hg⟩ := operatorOrigins_binary_subset.mp hl
      exact operatorOrigins_binary_subset.mpr ⟨ho, ihf hf, ihg hg⟩
  | left a b q o i =>
      intro hl
      obtain ⟨-, hab, hq⟩ := operatorOrigins_binary_subset.mp hl
      obtain ⟨-, ha, hb⟩ := operatorOrigins_binary_subset.mp hab
      exact operatorOrigins_join_subset.mpr
        ⟨operatorOrigins_join_subset.mpr ⟨ha, hq⟩, operatorOrigins_join_subset.mpr ⟨hb, hq⟩⟩
  | right p a b o i =>
      intro hl
      obtain ⟨-, hp, hab⟩ := operatorOrigins_binary_subset.mp hl
      obtain ⟨-, ha, hb⟩ := operatorOrigins_binary_subset.mp hab
      exact operatorOrigins_join_subset.mpr
        ⟨operatorOrigins_join_subset.mpr ⟨hp, ha⟩, operatorOrigins_join_subset.mpr ⟨hp, hb⟩⟩

theorem operatorOrigins_distribute (h : f.operatorOrigins ⊆ l) :
    f.distribute.operatorOrigins ⊆ l :=
  (redistributes_distribute f).operatorOrigins_subset h

end Formula

/-! ## Passes

What each step keeps is kept by passes one after the other (`run_related`). -/

namespace Pass

theorem operatorOrigins_apply (p : Pass) (f : Formula) :
    (p.apply f).operatorOrigins ⊆ f.operatorOrigins := by
  have hself := List.Subset.refl f.operatorOrigins
  cases p with
  | desugar => exact Formula.operatorOrigins_desugar hself
  | pushNegations => exact Formula.operatorOrigins_pushNegations hself
  | distribute => exact Formula.operatorOrigins_distribute hself
  | toNnf => exact Formula.operatorOrigins_pushNegations (Formula.operatorOrigins_desugar hself)
  | toCnf =>
      exact Formula.operatorOrigins_distribute
        (Formula.operatorOrigins_pushNegations (Formula.operatorOrigins_desugar hself))

theorem mem_leafOrigins_run (ps : List Pass) (f : Formula) {x : String × Option Origin} :
    x ∈ (run ps f).leafOrigins ↔ x ∈ f.leafOrigins :=
  run_related (r := fun g k => x ∈ g.leafOrigins ↔ x ∈ k.leafOrigins) (fun _ => .rfl) Iff.trans
    (fun _ _ => mem_leafOrigins_apply) ps f

theorem operatorOrigins_run (ps : List Pass) (f : Formula) :
    (run ps f).operatorOrigins ⊆ f.operatorOrigins :=
  run_related (r := fun g k => g.operatorOrigins ⊆ k.operatorOrigins)
    (fun _ => List.Subset.refl _) List.Subset.trans operatorOrigins_apply ps f

/-- Any passes one after the other, and so each by itself, keep the leaves with their
origins, as a set, and every operator with an origin stood in the formula before, with
that origin.  A pass gives a formula back as it is, origins included, exactly if there
is nothing in it to rewrite. -/
theorem run_keeps_provenance :
    (∀ (ps : List Pass) (f : Formula),
      (∀ x, x ∈ (run ps f).leafOrigins ↔ x ∈ f.leafOrigins) ∧
        (run ps f).operatorOrigins ⊆ f.operatorOrigins) ∧
      ∀ f : Formula, (f.isPrimitive = true ↔ f.desugar = f) ∧
        (f.Settled ↔ f.pushNegations = f) ∧ (f.isDistributed = true ↔ f.distribute = f) ∧
        (f.isNnf = true ↔ f.toNnf = f) ∧ (f.isCnf = true ↔ f.toCnf = f) := by
  constructor
  · intro ps f
    exact ⟨fun x => mem_leafOrigins_run ps f, operatorOrigins_run ps f⟩
  · intro f
    refine ⟨?_, f.settled_iff_pushNegations_eq, ?_, ?_, ?_⟩
    · exact Formula.form_iff_eq Formula.isPrimitive_desugar Formula.desugar_of_isPrimitive f
    · exact Formula.form_iff_eq Formula.isDistributed_distribute
        Formula.distribute_of_isDistributed f
    · exact Formula.form_iff_eq Formula.isNnf_toNnf Formula.toNnf_of_isNnf f
    · exact Formula.form_iff_eq Formula.isCnf_toCnf Formula.toCnf_of_isCnf f

end Pass

end Clausal
