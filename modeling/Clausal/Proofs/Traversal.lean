/-
# The nodes of a tree, in the order of its tokens

Whatever the tokens are, building ends: each split uses up the token at which it is
made, so there are no more splits than tokens, and what is refused is a run of them
(`Traced.Confined`).  Tokens that break rules are not excluded.

If a formula comes of it, then on one of three ways: of a few tokens as they stand, of
the parts on both sides of a connective, or of what is behind a negation.
`Formula.Built` has these ways as its constructors, and `Formula.Builds` also has what is
reported on each.  They are what later modules use of the builder: an induction on them
has the parts of a run and their formulas at hand, and nothing of the runs that are
refused.

On each of the ways every token becomes one node, in its place, and every node has its
own depth for a level (`Formula.Built.records`).  The nodes are visited in order, a
connective between its arguments and a negation before its body, which is the order of
the tokens also where parentheses do not match.
-/
import Mathlib.Data.List.Forall2
import Clausal.Proofs.TreeBuilding

namespace Clausal

/-! ## Building ends

`Confined` has a budget of events and two ends that refusals keep to.  A step that is
followed by another one adds their budgets, and widening the bounds keeps it.  The budget
of a run is the number of its tokens: the token at which it is split pays for the event,
and the parts have the rest. -/

namespace Traced

variable {α β : Type} {first last m n : Nat}

/-- So many events are reported at most, and what is refused is a run of tokens
between two places. -/
structure Confined (first last budget : Nat) (x : Traced α) : Prop where
  events : x.events.length ≤ budget
  refusal : ∀ reason, x.outcome = .error reason →
    ∃ a b obstacle, reason = .unbuildable a b obstacle ∧ first ≤ a ∧ a ≤ b ∧ b ≤ last

theorem confined_pure (a : α) : Confined first last n (pure a : Traced α) where
  events := Nat.zero_le n
  refusal _ h := nomatch h

theorem confined_emit (e : Event) : Confined first last 1 (emit e) where
  events := Nat.le_refl 1
  refusal _ h := nomatch h

theorem confined_reject {a b : Nat} (obstacle : Obstacle) (ha : first ≤ a) (hab : a ≤ b)
    (hb : b ≤ last) :
    Confined first last n (reject (.unbuildable a b obstacle) : Traced α) where
  events := Nat.zero_le n
  refusal := by
    rintro _ ⟨⟩
    exact ⟨a, b, obstacle, rfl, ha, hab, hb⟩

theorem Confined.mono {x : Traced α} {first' last' n' : Nat} (h : Confined first last n x)
    (hfirst : first' ≤ first) (hlast : last ≤ last') (hn : n ≤ n') :
    Confined first' last' n' x where
  events := Nat.le_trans h.events hn
  refusal := by
    intro reason hr
    obtain ⟨a, b, obstacle, rfl, ha, hab, hb⟩ := h.refusal reason hr
    exact ⟨a, b, obstacle, rfl, Nat.le_trans hfirst ha, hab, Nat.le_trans hb hlast⟩

theorem Confined.bind {x : Traced α} {f : α → Traced β} (hx : Confined first last m x)
    (hf : ∀ a, Confined first last n (f a)) : Confined first last (m + n) (x >>= f) where
  events := by
    have hm := hx.events
    rw [events_bind, List.length_append]
    cases x.outcome with
    | error reason => exact Nat.le_trans hm (Nat.le_add_right m n)
    | ok a => exact Nat.add_le_add hm (hf a).events
  refusal := by
    intro reason h
    rw [outcome_bind] at h
    cases hr : x.outcome with
    | error r =>
        rw [hr] at h
        cases h
        exact hx.refusal reason hr
    | ok a =>
        rw [hr] at h
        exact (hf a).refusal reason h

end Traced

namespace Formula

/-- Building of a run stays within the run, and splits no more often than the run
has tokens. -/
theorem confined_build (ns : List Nested) (start level : Nat) :
    (build start level ns).Confined start (start + ns.length) ns.length := by
  have refuse : ∀ {n : Nat} (obstacle : Obstacle),
      (Traced.reject (.unbuildable start (start + ns.length) obstacle) :
        Traced (Option Formula)).Confined start (start + ns.length) n := by
    intro n obstacle
    exact Traced.confined_reject obstacle (Nat.le_refl _) (Nat.le_add_right _ _) (Nat.le_refl _)
  rw [build]
  split
  · exact Traced.confined_pure none
  split
  · exact Traced.confined_pure _
  split
  · exact refuse .operandExpected
  split
  · exact refuse .noOperator
  rename_i s hs
  have hbefore := Split.length_before_lt hs
  have hafter := Split.length_after_lt hs
  have hlen : ns.length = 1 + (s.before.length + s.after.length) := by
    have h := congrArg List.length (Split.eq_of_loosest? hs)
    rw [List.length_append, List.length_cons] at h
    omega
  have hleft : (build start (level + 1) s.before).Confined start (start + ns.length)
      s.before.length :=
    (confined_build s.before _ _).mono (Nat.le_refl _) (by omega) (Nat.le_refl _)
  have hright : (build (start + s.before.length + 1) (level + 1) s.after).Confined start
      (start + ns.length) s.after.length :=
    (confined_build s.after _ _).mono (by omega) (by omega) (Nat.le_refl _)
  -- the split takes the pivot from the budget, and the parts have the rest
  refine Traced.Confined.mono (n := 1 + (s.before.length + s.after.length))
    (.bind (Traced.confined_emit _) fun _ => ?_) (Nat.le_refl _) (Nat.le_refl _) (by omega)
  cases s.op with
  | binary op =>
      refine hleft.bind fun f => ?_
      refine Traced.Confined.bind (n := 0) hright fun g => ?_
      cases f with
      | none => exact refuse .missingArgument
      | some f =>
          cases g with
          | none => exact refuse .missingArgument
          | some g => exact Traced.confined_pure _
  | not =>
      show Traced.Confined _ _ _ (if s.before.isEmpty then _ else _)
      split
      · refine Traced.Confined.mono (n := s.after.length) ?_ (Nat.le_refl _) (Nat.le_refl _)
          (Nat.le_add_left _ _)
        refine Traced.Confined.bind (n := 0) hright fun f => ?_
        cases f with
        | none => exact refuse .missingBody
        | some f => exact Traced.confined_pure _
      · exact refuse .operatorInside
termination_by ns.length

theorem confined_ofTokens (ts : List Token) : (ofTokens ts).Confined 0 ts.length ts.length := by
  have hbuild := confined_build (Token.nest 0 ts) 0 0
  rw [Token.length_nest, Nat.zero_add] at hbuild
  refine Traced.Confined.bind (n := 0) hbuild fun f => ?_
  cases f with
  | none => exact Traced.confined_reject .noTokens (Nat.le_refl 0) (Nat.zero_le _) (Nat.le_refl _)
  | some f => exact Traced.confined_pure f

/-! ## How a formula comes about

A run is looked at as it stands before it is split, so a split has the absence of a
formula as a premise in `Builds`; `Built` leaves that out, as it does the events. -/

/-- The formula of a few tokens as they stand, with its root at a level. -/
inductive Simple (level : Nat) : List Token → Formula → Prop
  | operand {a : Token} {x : String} : a.kind = .operand x →
      Simple level [a] (.operand x (some ⟨level, a.position⟩))
  | not {n a : Token} {x : String} : n.kind = .operator .not → a.kind = .operand x →
      Simple level [n, a]
        (.not (.operand x (some ⟨level + 1, a.position⟩)) (some ⟨level, n.position⟩))
  | binary {a c b : Token} {x y : String} {op : Connective} : a.kind = .operand x →
      c.kind = .operator (.binary op) → b.kind = .operand y →
      Simple level [a, c, b]
        (.binary op (.operand x (some ⟨level + 1, a.position⟩))
          (.operand y (some ⟨level + 1, b.position⟩)) (some ⟨level, c.position⟩))

theorem simple_of_simple? {level : Nat} {f : Formula} :
    ∀ {ts : List Token}, simple? level ts = some f → Simple level ts f := by
  intro ts h
  match ts with
  | [a] =>
      simp only [simple?] at h
      split at h
      · rename_i x ha
        cases h
        exact .operand ha
      · cases h
  | [n, a] =>
      simp only [simple?] at h
      split at h
      · rename_i x hn ha
        cases h
        exact .not hn ha
      · cases h
  | [a, c, b] =>
      simp only [simple?] at h
      split at h
      · rename_i x op y ha hc hb
        cases h
        exact .binary ha hc hb
      · cases h

/-- The formula of a run that has so many tokens before it, with its root at a
level. -/
inductive Built : Nat → Nat → List Nested → Formula → Prop
  | simple {start level : Nat} {ns : List Nested} {f : Formula} :
      simple? level (ns.map Nested.token) = some f → Built start level ns f
  | binary {start level : Nat} {ns before after : List Nested} {pivot : Nested}
      {op : Connective} {f g : Formula} :
      Split.loosest? ns = some ⟨before, pivot, .binary op, after⟩ →
      Built start (level + 1) before f →
      Built (start + before.length + 1) (level + 1) after g →
      Built start level ns (.binary op f g (some ⟨level, start + before.length⟩))
  | not {start level : Nat} {ns after : List Nested} {pivot : Nested} {f : Formula} :
      Split.loosest? ns = some ⟨[], pivot, .not, after⟩ →
      Built (start + 1) (level + 1) after f →
      Built start level ns (.not f (some ⟨level, pivot.token.position⟩))

/-- Building a run of tokens reports the events and comes to the formula.  A run is
split only if it is no formula as it stands, and each split is reported before what is
done with its parts. -/
inductive Builds : Nat → Nat → List Nested → List Event → Formula → Prop
  | simple {start level : Nat} {ns : List Nested} {f : Formula} :
      simple? level (ns.map Nested.token) = some f → Builds start level ns [] f
  | binary {start level : Nat} {ns before after : List Nested} {pivot : Nested}
      {op : Connective} {es es' : List Event} {f g : Formula} :
      simple? level (ns.map Nested.token) = none →
      Split.loosest? ns = some ⟨before, pivot, .binary op, after⟩ →
      Builds start (level + 1) before es f →
      Builds (start + before.length + 1) (level + 1) after es' g →
      Builds start level ns
        (.split start (start + ns.length) pivot.token.word (start + before.length) :: (es ++ es'))
        (.binary op f g (some ⟨level, start + before.length⟩))
  | not {start level : Nat} {ns after : List Nested} {pivot : Nested} {es : List Event}
      {f : Formula} :
      simple? level (ns.map Nested.token) = none →
      Split.loosest? ns = some ⟨[], pivot, .not, after⟩ →
      Builds (start + 1) (level + 1) after es f →
      Builds start level ns
        (.split start (start + ns.length) pivot.token.word start :: es)
        (.not f (some ⟨level, pivot.token.position⟩))

theorem builds_of_build (ns : List Nested) :
    ∀ {start level : Nat} {x : Traced (Option Formula)} {f : Formula},
      build start level ns = x → x.outcome = .ok (some f) → Builds start level ns x.events f := by
  intro start level x f hx h
  rw [build] at hx
  split at hx
  · subst hx
    cases h
  split at hx
  · rename_i hk
    subst hx
    cases h
    exact .simple hk
  rename_i hsimple
  split at hx
  · subst hx
    cases h
  split at hx
  · subst hx
    cases h
  rename_i s hs
  have hbefore := Split.length_before_lt hs
  have hafter := Split.length_after_lt hs
  obtain ⟨before, pivot, op, after⟩ := s
  subst hx
  obtain ⟨-, -, h⟩ := Traced.outcome_bind_eq_ok.mp h
  rw [Traced.events_bind_of_outcome rfl]
  cases op with
  | binary op =>
      obtain ⟨f, hf, h⟩ := Traced.outcome_bind_eq_ok.mp h
      obtain ⟨g, hg, h⟩ := Traced.outcome_bind_eq_ok.mp h
      cases f with
      | none => cases h
      | some f =>
          cases g with
          | none => cases h
          | some g =>
              cases h
              have hleft := builds_of_build before rfl hf
              have hright := builds_of_build after rfl hg
              dsimp only
              rw [Traced.events_bind_of_outcome hf, Traced.events_bind_of_outcome hg]
              simpa using Builds.binary hsimple hs hleft hright
  | not =>
      cases before with
      | cons => cases h
      | nil =>
          obtain ⟨f, hf, h⟩ := Traced.outcome_bind_eq_ok.mp h
          cases f with
          | none => cases h
          | some f =>
              cases h
              have hbody := builds_of_build after rfl hf
              dsimp only [List.isEmpty_nil]
              rw [if_pos rfl, Traced.events_bind_of_outcome hf]
              simpa using Builds.not hsimple hs hbody
termination_by ns.length

/-- What is built comes about on one of the three ways. -/
theorem Builds.built {start level : Nat} {ns : List Nested} {es : List Event} {f : Formula}
    (h : Builds start level ns es f) : Built start level ns f := by
  induction h with
  | simple hk => exact .simple hk
  | binary _ hs _ _ ihf ihg => exact .binary hs ihf ihg
  | not _ hs _ ih => exact .not hs ih

theorem builds_of_ofTokens {ts : List Token} {f : Formula} (h : (ofTokens ts).outcome = .ok f) :
    Builds 0 0 (Token.nest 0 ts) (ofTokens ts).events f := by
  obtain ⟨g, hg, h⟩ := Traced.outcome_bind_eq_ok.mp h
  cases g with
  | none => cases h
  | some g =>
      cases h
      rw [ofTokens, Traced.events_bind_of_outcome hg]
      simpa using builds_of_build _ rfl hg

theorem built_of_ofTokens {ts : List Token} {f : Formula} (h : (ofTokens ts).outcome = .ok f) :
    Built 0 0 (Token.nest 0 ts) f :=
  (builds_of_ofTokens h).built

end Formula

/-! ## The nodes in order

A visit has the depth of its node, which is counted on the way down, and the origin that
the node says it has.  Nothing relates the two for a formula in general. -/

/-- A node met on the way through a formula. -/
structure Visit where
  kind : TokenKind
  depth : Nat
  origin : Option Origin

/-- The level that a node says it has. -/
def Visit.level? (v : Visit) : Option Nat := v.origin.map Origin.level

namespace Formula

/-- The nodes of a formula whose root is at a depth: a negation comes before its
body, and a connective between its arguments. -/
def inorder (depth : Nat) : Formula → List Visit
  | .operand x o => [⟨.operand x, depth, o⟩]
  | .not f o => ⟨.operator .not, depth, o⟩ :: f.inorder (depth + 1)
  | .binary op f g o =>
    f.inorder (depth + 1) ++ ⟨.operator (.binary op), depth, o⟩ :: g.inorder (depth + 1)

theorem depth_lt_of_mem_inorder {v : Visit} (f : Formula) :
    ∀ {d : Nat}, v ∈ f.inorder d → v.depth < d + f.height := by
  induction f with
  | operand x o =>
      intro d hv
      rw [List.mem_singleton.mp hv]
      exact Nat.lt_succ_self d
  | not f o ih =>
      intro d hv
      rw [height]
      rcases List.mem_cons.mp hv with rfl | hv
      · exact Nat.lt_add_of_pos_right (Nat.succ_pos _)
      · have := ih hv
        omega
  | binary op f g o ihf ihg =>
      intro d hv
      rw [height]
      rcases List.mem_append.mp hv with hv | hv
      · have := ihf hv
        omega
      · rcases List.mem_cons.mp hv with rfl | hv
        · exact Nat.lt_add_of_pos_right (Nat.succ_pos _)
        · have := ihg hv
          omega

theorem exists_depth_inorder (f : Formula) :
    ∀ d : Nat, ∃ v ∈ f.inorder d, v.depth + 1 = d + f.height := by
  induction f with
  | operand x o =>
      intro d
      exact ⟨_, List.mem_singleton.mpr rfl, rfl⟩
  | not f o ih =>
      intro d
      obtain ⟨v, hv, hd⟩ := ih (d + 1)
      refine ⟨v, List.mem_cons_of_mem _ hv, ?_⟩
      rw [height]
      omega
  | binary op f g o ihf ihg =>
      intro d
      obtain ⟨v, hv, hd⟩ := ihf (d + 1)
      obtain ⟨w, hw, hd'⟩ := ihg (d + 1)
      rw [height]
      rcases Nat.le_total f.height g.height with h | h
      · exact ⟨w, List.mem_append_right _ (List.mem_cons_of_mem _ hw), by omega⟩
      · exact ⟨v, List.mem_append_left _ hv, by omega⟩

end Formula

/-! ## Nodes and tokens

`Visit.Records` allows for both positions that a node can say: that of its token, and
the index of its token.  Where tokens are numbered in order these are one number, and the
nodes say where they are (`Located`). -/

/-- The node is what the token is.  Its level is its depth, and its position is that
of the token or the number that the token has in the list. -/
def Visit.Records (v : Visit) (t : Token × Nat) : Prop :=
  v.kind = t.1.kind ∧ ∃ p, v.origin = some ⟨v.depth, p⟩ ∧ (p = t.1.position ∨ p = t.2)

theorem Split.zipIdx_of_loosest? {ns : List Nested} {s : Split} {start : Nat}
    (h : Split.loosest? ns = some s) :
    (ns.map Nested.token).zipIdx start =
      (s.before.map Nested.token).zipIdx start ++ (s.pivot.token, start + s.before.length) ::
        (s.after.map Nested.token).zipIdx (start + s.before.length + 1) := by
  rw [Split.eq_of_loosest? h, List.map_append, List.map_cons, List.zipIdx_append,
    List.zipIdx_cons, List.length_map]

namespace Formula

theorem records_of_simple? {level start : Nat} {f : Formula} {ts : List Token}
    (h : simple? level ts = some f) :
    List.Forall₂ Visit.Records (f.inorder level) (ts.zipIdx start) := by
  have record : ∀ (t : Token) {kind : TokenKind} (d i : Nat), t.kind = kind →
      Visit.Records ⟨kind, d, some ⟨d, t.position⟩⟩ (t, i) := by
    intro t kind d i hk
    exact ⟨hk.symm, t.position, rfl, .inl rfl⟩
  cases simple_of_simple? h with
  | operand ha => exact .cons (record _ _ _ ha) .nil
  | not hn ha => exact .cons (record _ _ _ hn) (.cons (record _ _ _ ha) .nil)
  | binary ha hc hb =>
      exact .cons (record _ _ _ ha) (.cons (record _ _ _ hc) (.cons (record _ _ _ hb) .nil))

/-- Every token becomes one node, in its place. -/
theorem Built.records {start level : Nat} {ns : List Nested} {f : Formula}
    (h : Built start level ns f) :
    List.Forall₂ Visit.Records (f.inorder level) ((ns.map Nested.token).zipIdx start) := by
  induction h with
  | simple h => exact records_of_simple? h
  | @binary start level ns before after pivot op f g hs _ _ ihf ihg =>
      have hk : pivot.token.kind = .operator (.binary op) := Split.kind_of_loosest? hs
      rw [Split.zipIdx_of_loosest? hs]
      exact List.rel_append ihf (.cons ⟨hk.symm, _, rfl, .inr rfl⟩ ihg)
  | @not start level ns after pivot f hs _ ih =>
      have hk : pivot.token.kind = .operator .not := Split.kind_of_loosest? hs
      rw [Split.zipIdx_of_loosest? hs]
      exact .cons ⟨hk.symm, _, rfl, .inl rfl⟩ ih

/-- Where tokens have their numbers for positions, every node says where it is: how
deep, and which one in order. -/
theorem located_of_records {ts : List Token} {vs : List Visit}
    (hts : ts.map Token.position = List.range ts.length)
    (h : List.Forall₂ Visit.Records vs ts.zipIdx) :
    vs.map Visit.kind = ts.map Token.kind ∧
      vs.map Visit.origin = (vs.map Visit.depth).mapIdx fun i d => some ⟨d, i⟩ := by
  have hlen : vs.length = ts.length := by
    rw [h.length_eq, List.length_zipIdx]
  have hrec : ∀ i (hv : i < vs.length) (ht : i < ts.length),
      vs[i].Records (ts[i], i) := by
    intro i hv ht
    have hi := h.get hv (by rwa [List.length_zipIdx])
    simpa using hi
  constructor
  · refine List.ext_getElem (by simp [hlen]) fun i hv ht => ?_
    rw [List.length_map] at hv ht
    simpa using (hrec i hv ht).1
  · refine List.ext_getElem (by simp) fun i hv _ => ?_
    rw [List.length_map] at hv
    obtain ⟨-, p, ho, hp⟩ := hrec i hv (hlen ▸ hv)
    rw [Token.position_getElem hts (hlen ▸ hv), or_self] at hp
    simpa [hp] using ho

/-- Every node says how deep it is, and which one in order. -/
def Located (f : Formula) : Prop :=
  (f.inorder 0).map Visit.origin = ((f.inorder 0).map Visit.depth).mapIdx fun i d => some ⟨d, i⟩

theorem located_of_ofTokens {ts : List Token} {f : Formula}
    (hts : ts.map Token.position = List.range ts.length) (h : (ofTokens ts).outcome = .ok f) :
    (f.inorder 0).map Visit.kind = ts.map Token.kind ∧ f.Located := by
  have hrec := (built_of_ofTokens h).records
  rw [Token.map_token_nest] at hrec
  exact located_of_records hts hrec

/-- Where every node has its depth for a level, the height is one more than the
greatest level. -/
theorem max?_levels {f : Formula} (h : f.Located) :
    ∃ deepest, ((f.inorder 0).filterMap Visit.level?).max? = some deepest ∧
      f.height = deepest + 1 := by
  have hlevels : ∀ v ∈ f.inorder 0, v.level? = some v.depth := by
    intro v hv
    obtain ⟨i, hi, rfl⟩ := List.getElem_of_mem hv
    have ho := List.getElem_of_eq h (i := i) (by rwa [List.length_map])
    rw [List.getElem_map, List.getElem_mapIdx, List.getElem_map] at ho
    rw [Visit.level?, ho]
    rfl
  obtain ⟨v, hv, hd⟩ := f.exists_depth_inorder 0
  refine ⟨v.depth, List.max?_eq_some_iff.mpr ⟨?_, ?_⟩, by omega⟩
  · exact List.mem_filterMap.mpr ⟨v, hv, hlevels v hv⟩
  · intro d hd'
    obtain ⟨w, hw, hwd⟩ := List.mem_filterMap.mp hd'
    rw [hlevels w hw] at hwd
    cases hwd
    have := f.depth_lt_of_mem_inorder hw
    omega

/-- Building ends for tokens with their numbers as positions, also if they break
rules: with a formula, or for want of one of some run of them, and after no more
splits than tokens.  The nodes of the formula in order are what the tokens are,
each with its depth for a level and its number for a position, and the height is
one more than the greatest level. -/
theorem inorder_ofTokens {ts : List Token}
    (hts : ts.map Token.position = List.range ts.length) :
    ((∃ f, (ofTokens ts).outcome = .ok f) ∨
        ∃ first last obstacle, (ofTokens ts).outcome = .error (.unbuildable first last obstacle) ∧
          first ≤ last ∧ last ≤ ts.length) ∧
      (ofTokens ts).events.length ≤ ts.length ∧
      ∀ f, (ofTokens ts).outcome = .ok f →
        (f.inorder 0).map Visit.kind = ts.map Token.kind ∧
          (f.inorder 0).map Visit.origin =
            ((f.inorder 0).map Visit.depth).mapIdx (fun i d => some ⟨d, i⟩) ∧
          ∃ deepest, ((f.inorder 0).filterMap Visit.level?).max? = some deepest ∧
            f.height = deepest + 1 := by
  have hconfined := confined_ofTokens ts
  refine ⟨?_, hconfined.events, ?_⟩
  · cases h : (ofTokens ts).outcome with
    | ok f => exact .inl ⟨f, rfl⟩
    | error reason =>
        obtain ⟨a, b, obstacle, rfl, -, hab, hb⟩ := hconfined.refusal reason h
        exact .inr ⟨a, b, obstacle, rfl, hab, hb⟩
  · intro f h
    obtain ⟨hkind, horigin⟩ := located_of_ofTokens hts h
    exact ⟨hkind, horigin, max?_levels horigin⟩

/-- Tokens whose parentheses do not match: a negation covers a split, and what
follows it is no part of its body. -/
theorem inorder_ofTokens_unbalanced :
    let ts := Token.classifyAll .standard ["(not", "a", "(or", "b)", "and", "not", "c"]
    rejection? ts ≠ none ∧ ts.map Token.position = List.range ts.length ∧
      ∃ f, (ofTokens ts).outcome = .ok f ∧ f.height = 4 ∧
        (f.inorder 0).map Visit.kind = ts.map Token.kind ∧
        (f.inorder 0).map Visit.origin =
          [1, 3, 2, 3, 0, 1, 2].mapIdx fun i d => some ⟨d, i⟩ := by
  intro ts
  have hts : ts.map Token.position = List.range ts.length := by decide
  let f : Formula :=
    .binary .and
      (.not (.binary .or (.operand "a" (some ⟨3, 1⟩)) (.operand "b" (some ⟨3, 3⟩))
        (some ⟨2, 2⟩)) (some ⟨1, 0⟩))
      (.not (.operand "c" (some ⟨2, 6⟩)) (some ⟨1, 5⟩)) (some ⟨0, 4⟩)
  have hf : (ofTokens ts).outcome = .ok f := by decide +kernel
  obtain ⟨hkind, horigin, -⟩ := (inorder_ofTokens hts).2.2 f hf
  exact ⟨by decide, hts, f, hf, rfl, hkind, horigin⟩

end Formula

end Clausal
