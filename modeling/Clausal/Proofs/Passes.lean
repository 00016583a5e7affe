/-
# Rewriting in any order

A pass may be asked for at any time, on a formula that no other pass has prepared:
disjunctions may be distributed below a negation or beside a derived connective, and
negations moved while derived connectives still stand.  Each pass by itself keeps the
value of every formula, and the names in it; therefore so does every sequence of passes.

The value was followed through the single passes where these are defined.  Here the leaves
are.  No rewriting brings in an operand or loses one, and a leaf keeps the origin that it
has; what changes is how often, and where, it stands.  Moving negations does not change
even that (`leafOrigins_pushNegations`).

From single passes to sequences there is one step, `run_related`: a relation that holds
between a formula and what any single pass makes of it, and that is reflexive and
transitive, holds between a formula and what any sequence makes of it.  That a value is
kept is the case of an equality (`run_invariant`).
-/
import Mathlib.Data.List.Sort
import Mathlib.Data.String.Basic
import Clausal.Formula.Operands
import Clausal.Proofs.Distribution

namespace Clausal

namespace Formula

/-! ## Leaves

A leaf is a name with the origin that it has, if it has one.  For each pass the leaves
after it are those before it, as a set: a derived connective may use an argument twice,
and distribution repeats what it distributes. -/

/-- The leaves from left to right: the name of the operand, and where it comes from. -/
def leafOrigins : Formula → List (String × Option Origin)
  | .operand name o => [(name, o)]
  | .not f _ => f.leafOrigins
  | .binary _ f g _ => f.leafOrigins ++ g.leafOrigins

section
variable {x : String × Option Origin}

@[simp] theorem leafOrigins_neg (f : Formula) : (neg f).leafOrigins = f.leafOrigins := rfl

@[simp] theorem leafOrigins_conj (f g : Formula) :
    (conj f g).leafOrigins = f.leafOrigins ++ g.leafOrigins := rfl

@[simp] theorem leafOrigins_disj (f g : Formula) :
    (disj f g).leafOrigins = f.leafOrigins ++ g.leafOrigins := rfl

theorem mem_leafOrigins_binary {op : Connective} {f g : Formula} {o : Option Origin} :
    x ∈ (Formula.binary op f g o).leafOrigins ↔ x ∈ f.leafOrigins ∨ x ∈ g.leafOrigins :=
  List.mem_append

theorem mem_leafOrigins_desugar {f : Formula} :
    x ∈ f.desugar.leafOrigins ↔ x ∈ f.leafOrigins := by
  induction f with
  | operand => rfl
  | not f _ ih => exact ih
  | binary op f g o ihf ihg =>
      rw [mem_leafOrigins_binary, ← ihf, ← ihg]
      cases op with
      | and | or => exact mem_leafOrigins_binary
      | implies | requires | excludes => simp [desugar]
      | equivalence | xor =>
          -- both arguments stand twice
          simp only [desugar, leafOrigins_conj, leafOrigins_disj, leafOrigins_neg,
            List.mem_append, or_self]

theorem leafOrigins_pushNegations (f : Formula) : f.pushNegations.leafOrigins = f.leafOrigins := by
  fun_induction pushNegations f with
  | case1 | case2 => rfl
  | case3 f _ _ ih => exact ih
  | case4 f g _ _ ih | case5 f g _ _ ih => exact ih
  | case6 op f g i o _ _ ihf ihg | case7 op f g o ihf ihg =>
      show f.pushNegations.leafOrigins ++ g.pushNegations.leafOrigins =
        f.leafOrigins ++ g.leafOrigins
      rw [ihf, ihg]

theorem mem_leafOrigins_toNnf {f : Formula} : x ∈ f.toNnf.leafOrigins ↔ x ∈ f.leafOrigins := by
  rw [toNnf, leafOrigins_pushNegations, mem_leafOrigins_desugar]

theorem Redistributes.mem_leafOrigins {f g : Formula} (h : Redistributes f g) :
    x ∈ g.leafOrigins ↔ x ∈ f.leafOrigins := by
  induction h with
  | refl => rfl
  | trans _ _ ih ih' => exact ih'.trans ih
  | not o _ ih => exact ih
  | binary op o _ _ ihf ihg => rw [mem_leafOrigins_binary, mem_leafOrigins_binary, ihf, ihg]
  | left a b q o i =>
      rw [leafOrigins_conj, List.mem_append, leafOrigins_disj, leafOrigins_disj, List.mem_append,
        List.mem_append, mem_leafOrigins_binary, mem_leafOrigins_binary]
      exact or_or_distrib_right.symm
  | right p a b o i =>
      rw [leafOrigins_conj, List.mem_append, leafOrigins_disj, leafOrigins_disj, List.mem_append,
        List.mem_append, mem_leafOrigins_binary, mem_leafOrigins_binary]
      exact or_or_distrib_left.symm

theorem mem_leafOrigins_distribute {f : Formula} :
    x ∈ f.distribute.leafOrigins ↔ x ∈ f.leafOrigins :=
  (redistributes_distribute f).mem_leafOrigins

theorem mem_leafOrigins_toCnf {f : Formula} : x ∈ f.toCnf.leafOrigins ↔ x ∈ f.leafOrigins := by
  rw [toCnf, mem_leafOrigins_distribute, mem_leafOrigins_toNnf]

end

/-! ### Names alone

The names at the leaves are the first halves of what `leafOrigins` lists, so what has been
shown of the whole holds of the names. -/

variable {x : String} {f g : Formula}

theorem leaves_eq_map (f : Formula) : f.leaves = f.leafOrigins.map Prod.fst := by
  induction f with
  | operand => rfl
  | not f _ ih => exact ih
  | binary op f g _ ihf ihg => rw [leaves, leafOrigins, ihf, ihg, List.map_append]

theorem mem_leaves_congr (h : ∀ y, y ∈ f.leafOrigins ↔ y ∈ g.leafOrigins) :
    x ∈ f.leaves ↔ x ∈ g.leaves := by
  rw [leaves_eq_map, leaves_eq_map, List.mem_map, List.mem_map]
  exact exists_congr fun y => and_congr_left fun _ => h y

theorem mem_leaves_desugar : x ∈ f.desugar.leaves ↔ x ∈ f.leaves :=
  mem_leaves_congr fun _ => mem_leafOrigins_desugar

theorem mem_leaves_pushNegations : x ∈ f.pushNegations.leaves ↔ x ∈ f.leaves :=
  mem_leaves_congr fun _ => by rw [leafOrigins_pushNegations]

theorem mem_leaves_distribute : x ∈ f.distribute.leaves ↔ x ∈ f.leaves :=
  mem_leaves_congr fun _ => mem_leafOrigins_distribute

theorem mem_leaves_toNnf : x ∈ f.toNnf.leaves ↔ x ∈ f.leaves :=
  mem_leaves_congr fun _ => mem_leafOrigins_toNnf

theorem mem_leaves_toCnf : x ∈ f.toCnf.leaves ↔ x ∈ f.leaves :=
  mem_leaves_congr fun _ => mem_leafOrigins_toCnf

/-! ## The list of operands

It is strictly increasing, so it is settled by what is in it. -/

theorem pairwise_insertName {x : String} {ys : List String} (h : ys.Pairwise (· < ·)) :
    (insertName x ys).Pairwise (· < ·) := by
  induction ys with
  | nil => exact List.pairwise_singleton _ x
  | cons y ys ih =>
      obtain ⟨hy, hys⟩ := List.pairwise_cons.mp h
      unfold insertName
      split
      · rename_i hxy
        refine List.pairwise_cons.mpr ⟨fun z hz => ?_, h⟩
        rcases List.mem_cons.mp hz with rfl | hz
        · exact hxy
        · exact lt_trans hxy (hy z hz)
      · split
        · exact h
        · rename_i hxy hne
          refine List.pairwise_cons.mpr ⟨fun z hz => ?_, ih hys⟩
          rcases mem_insertName.mp hz with rfl | hz
          · exact lt_of_le_of_ne (not_lt.mp hxy) (Ne.symm hne)
          · exact hy z hz

theorem pairwise_operands (f : Formula) : f.operands.Pairwise (· < ·) := by
  unfold operands
  induction f.leaves with
  | nil => exact List.Pairwise.nil
  | cons x xs ih => exact pairwise_insertName ih

/-- How often a name stands at a leaf, and where, makes no difference. -/
theorem operands_eq_of_leaves {f g : Formula} (h : ∀ x, x ∈ f.leaves ↔ x ∈ g.leaves) :
    f.operands = g.operands := by
  refine f.pairwise_operands.eq_of_mem_iff g.pairwise_operands fun x => ?_
  rw [mem_operands, mem_operands, h]

end Formula

/-! ## Passes

All that can be asked for: the three passes, and the two conversions, which are passes one
after the other. -/

/-- A rewriting that can be asked for. -/
inductive Pass where
  | desugar
  | pushNegations
  | distribute
  | toNnf
  | toCnf
deriving DecidableEq

namespace Pass

/-- What a pass makes of a formula. -/
def apply : Pass → Formula → Formula
  | .desugar => Formula.desugar
  | .pushNegations => Formula.pushNegations
  | .distribute => Formula.distribute
  | .toNnf => Formula.toNnf
  | .toCnf => Formula.toCnf

/-- The passes one after the other. -/
def run (ps : List Pass) (f : Formula) : Formula := ps.foldl (fun g p => p.apply g) f

/-! ## One pass

What every pass keeps, by cases on the pass. -/

theorem eval_apply (v : String → Bool) (p : Pass) (f : Formula) :
    (p.apply f).eval v = f.eval v := by
  cases p with
  | desugar => exact Formula.eval_desugar v f
  | pushNegations => exact Formula.eval_pushNegations v f
  | distribute => exact Formula.eval_distribute v f
  | toNnf => exact Formula.eval_toNnf v f
  | toCnf => exact Formula.eval_toCnf v f

theorem mem_leafOrigins_apply {x : String × Option Origin} {p : Pass} {f : Formula} :
    x ∈ (p.apply f).leafOrigins ↔ x ∈ f.leafOrigins := by
  cases p with
  | desugar => exact Formula.mem_leafOrigins_desugar
  | pushNegations => rw [apply, Formula.leafOrigins_pushNegations]
  | distribute => exact Formula.mem_leafOrigins_distribute
  | toNnf => exact Formula.mem_leafOrigins_toNnf
  | toCnf => exact Formula.mem_leafOrigins_toCnf

theorem operands_apply (p : Pass) (f : Formula) : (p.apply f).operands = f.operands :=
  Formula.operands_eq_of_leaves fun _ => Formula.mem_leaves_congr fun _ => mem_leafOrigins_apply

/-! ## Any number of passes

The induction on the sequence, once for all relations. -/

/-- How the result of each single pass is related to the formula is how the result of
a sequence of passes is. -/
theorem run_related {r : Formula → Formula → Prop} (refl : ∀ f, r f f)
    (trans : ∀ {f g k}, r f g → r g k → r f k) (step : ∀ (p : Pass) (f : Formula), r (p.apply f) f)
    (ps : List Pass) (f : Formula) : r (run ps f) f := by
  induction ps generalizing f with
  | nil => exact refl f
  | cons p ps ih => exact trans (ih (p.apply f)) (step p f)

/-- What no single pass changes, no sequence of passes does. -/
theorem run_invariant {α : Type} {observe : Formula → α}
    (step : ∀ (p : Pass) (f : Formula), observe (p.apply f) = observe f)
    (ps : List Pass) (f : Formula) : observe (run ps f) = observe f :=
  run_related (r := fun g k => observe g = observe k) (fun _ => rfl) Eq.trans step ps f

/-- However the passes are ordered and repeated, the value of the formula stays
what it was under every valuation, and so does the list of operands. -/
theorem run_keeps_eval_and_operands (ps : List Pass) (f : Formula) :
    (∀ v, (run ps f).eval v = f.eval v) ∧ (run ps f).operands = f.operands :=
  ⟨fun v => run_invariant (eval_apply v) ps f, run_invariant operands_apply ps f⟩

end Pass

end Clausal
