/-
# The position that a node says it has

Tokens may say any positions, as those of a slice of a longer list do.  A node comes of
a token and says the position that the token says, with one exception: a connective at
which a run was split says the index of its token in the list.  These are the compound
connectives, which have an operator among their arguments, for a connective over two
operands needs no split.

So every node says the position of its token exactly if the compound connectives stand
where they say they do (`repeats_ofTokens_iff`).  A negation at which a run was split
says the position of its token, as every operand does.

Where tokens are numbered in order from nothing on, as those of a text are, index and
position are the same number and the exception cannot be seen.  It can be seen in a
slice, and `exists_not_repeats` has one.
-/
import Clausal.Proofs.Traversal

namespace Clausal

namespace Formula

/-! ## Nodes

The nodes are in the order of their tokens, and `kind` is what a node has in common with
its token. -/

/-- The nodes of a formula, each with what is below it, in the order of `inorder`. -/
def nodes : Formula → List Formula
  | f@(.operand _ _) => [f]
  | f@(.not g _) => f :: g.nodes
  | f@(.binary _ g k _) => g.nodes ++ f :: k.nodes

/-- What the node at the root is. -/
def kind : Formula → TokenKind
  | .operand x _ => .operand x
  | .not _ _ => .operator .not
  | .binary op _ _ _ => .operator (.binary op)

/-- The position that the node at the root says it has. -/
def position? (f : Formula) : Option Nat := f.origin?.map Origin.position

/-- A connective with an operator among its arguments. -/
def isCompound : Formula → Bool
  | .binary _ f g _ => !(f.isOperand && g.isOperand)
  | _ => false

/-- The node is what the token is, and says the position of the token. -/
def Repeats (f : Formula) (t : Token) : Prop :=
  f.kind = t.kind ∧ f.position? = some t.position

instance (f : Formula) (t : Token) : Decidable (Repeats f t) :=
  inferInstanceAs (Decidable (_ ∧ _))

/-- The node is what the token is, and says the position of the token or, at a
compound connective, the index that the token has in the list. -/
def ComesOf (f : Formula) (t : Token × Nat) : Prop :=
  f.kind = t.1.kind ∧ f.position? = some (if f.isCompound then t.2 else t.1.position)

/-! ## Nodes and tokens

By the ways in which a formula is built: without a split every node repeats its token,
and at a split the parts before and behind it have their nodes and tokens in order. -/

variable {start level : Nat} {ns : List Nested} {es : List Event} {f g : Formula}
  {ts : List Token}

theorem Simple.comesOf (h : Simple level ts f) (start : Nat) :
    List.Forall₂ ComesOf f.nodes (ts.zipIdx start) := by
  cases h with
  | operand ha => exact .cons ⟨ha.symm, rfl⟩ .nil
  | not hn ha => exact .cons ⟨hn.symm, rfl⟩ (.cons ⟨ha.symm, rfl⟩ .nil)
  | binary ha hc hb =>
      exact .cons ⟨ha.symm, rfl⟩ (.cons ⟨hc.symm, rfl⟩ (.cons ⟨hb.symm, rfl⟩ .nil))

theorem Builds.exists_operand (h : Builds start level ns es f) (hf : f.isOperand = true) :
    ∃ a x, ns.map Nested.token = [a] ∧ a.kind = .operand x := by
  cases h with
  | simple hk =>
      generalize ns.map Nested.token = ts at hk
      cases simple_of_simple? hk with
      | operand ha => exact ⟨_, _, rfl, ha⟩
      | not | binary => cases hf
  | binary | not => cases hf

/-- Where a run is split at a connective, one of the parts has an operator. -/
theorem isCompound_of_split {op : Connective} {before after : List Nested} {pivot : Nested}
    {es' : List Event} {level' start' : Nat} (o : Option Origin)
    (hsimple : simple? level (ns.map Nested.token) = none)
    (hs : Split.loosest? ns = some ⟨before, pivot, .binary op, after⟩)
    (hf : Builds start level' before es f) (hg : Builds start' level' after es' g) :
    (Formula.binary op f g o).isCompound = true := by
  have hc : pivot.token.kind = .operator (.binary op) := Split.kind_of_loosest? hs
  rw [isCompound, Bool.not_eq_true', ← Bool.not_eq_true, Bool.and_eq_true]
  rintro ⟨hfo, hgo⟩
  -- the three tokens would have been a formula as they stand
  obtain ⟨a, x, hbefore, ha⟩ := hf.exists_operand hfo
  obtain ⟨b, y, hafter, hb⟩ := hg.exists_operand hgo
  rw [Split.eq_of_loosest? hs, List.map_append, List.map_cons, hbefore, hafter] at hsimple
  simp only [List.cons_append, List.nil_append, simple?, ha, hc, hb] at hsimple
  cases hsimple

theorem Builds.comesOf (h : Builds start level ns es f) :
    List.Forall₂ ComesOf f.nodes ((ns.map Nested.token).zipIdx start) := by
  induction h with
  | simple hk => exact (simple_of_simple? hk).comesOf _
  | @binary start level ns before after pivot op es es' f g hsimple hs hf hg ihf ihg =>
      have hc := Split.kind_of_loosest? hs
      have hcompound := isCompound_of_split (some ⟨level, start + before.length⟩) hsimple hs hf hg
      rw [Split.zipIdx_of_loosest? hs]
      refine List.rel_append ihf (.cons ⟨hc.symm, ?_⟩ ihg)
      rw [hcompound]
      rfl
  | @not start level ns after pivot es f _ hs _ ih =>
      have hn := Split.kind_of_loosest? hs
      rw [Split.zipIdx_of_loosest? hs]
      exact .cons ⟨hn.symm, rfl⟩ ih

/-- A node that comes of a token says the position of the token unless it is a
compound connective, of which the token does not say the index. -/
theorem ComesOf.repeats_iff {t : Token × Nat} (h : f.ComesOf t) :
    f.Repeats t.1 ↔ (f.isCompound = true → t.1.position = t.2) := by
  obtain ⟨hkind, hposition⟩ := h
  rw [Repeats, hposition, and_iff_right hkind]
  cases f.isCompound with
  | false => simp
  | true => simp [eq_comm]

/-- The nodes of a formula that is built, in order, come one by one of the tokens, of
whatever positions.  They all say the positions of their tokens exactly if each
compound connective has a token that says its index in the list. -/
theorem repeats_ofTokens_iff (h : (ofTokens ts).outcome = .ok f) :
    List.Forall₂ ComesOf f.nodes ts.zipIdx ∧
      (List.Forall₂ Repeats f.nodes ts ↔
        List.Forall₂ (fun g t => g.isCompound = true → t.1.position = t.2) f.nodes ts.zipIdx) := by
  have hcomes := (builds_of_ofTokens h).comesOf
  rw [Token.map_token_nest] at hcomes
  refine ⟨hcomes, ?_⟩
  have hfst : ts.zipIdx.map Prod.fst = ts := List.zipIdx_map_fst 0 ts
  nth_rewrite 1 [← hfst]
  rw [List.forall₂_map_right_iff]
  constructor
  · exact hcomes.mp fun g t hg => hg.repeats_iff.mp
  · exact hcomes.mp fun g t hg => hg.repeats_iff.mpr

/-- A slice that is split at a negation only: every node says the position that its
token has in the longer list. -/
theorem repeats_ofTokens_iff_negation :
    let ts := (Token.classifyAll .standard ["x", "or", "not", "(a", "and", "b)"]).drop 2
    ∃ f, (ofTokens ts).outcome = .ok f ∧ List.Forall₂ Repeats f.nodes ts ∧
      f.nodes.map position? = [some 2, some 3, some 4, some 5] := by
  intro ts
  let f : Formula :=
    .not (.binary .and (.operand "a" (some ⟨2, 3⟩)) (.operand "b" (some ⟨2, 5⟩)) (some ⟨1, 4⟩))
      (some ⟨0, 2⟩)
  have hf : (ofTokens ts).outcome = .ok f := by decide +kernel
  exact ⟨f, hf, (repeats_ofTokens_iff hf).2.mpr (by decide), rfl⟩

/-- A slice that is split at a connective: the root says the index of its token in the
slice, and not the position of the token. -/
theorem exists_not_repeats :
    let ts := (Token.classifyAll .standard ["x", "or", "a", "and", "b", "or", "c"]).drop 2
    ∃ f, (ofTokens ts).outcome = .ok f ∧ f.position? = some 3 ∧
      ts[3]?.map Token.position = some 5 ∧ ¬ List.Forall₂ Repeats f.nodes ts := by
  intro ts
  let f : Formula :=
    .binary .or
      (.binary .and (.operand "a" (some ⟨2, 2⟩)) (.operand "b" (some ⟨2, 4⟩)) (some ⟨1, 3⟩))
      (.operand "c" (some ⟨1, 6⟩)) (some ⟨0, 3⟩)
  have hf : (ofTokens ts).outcome = .ok f := by decide +kernel
  exact ⟨f, hf, rfl, by decide, by decide⟩

end Formula

end Clausal
