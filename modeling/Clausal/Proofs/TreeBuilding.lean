/-
# The tree of tokens is the tree of their derivation

A run of tokens is split at its loosest operator.  In the symbols of an expression of
level `p` that stands in `n` groups, no operator is looser than `6 * n + p`
(`le_ranks_of_derives`), and the connective that joins its two parts is exactly as loose
as that, the part before it being tighter.  So the split falls where the derivation has
its joint, and the tree that is built is the tree of the derivation
(`Formula.build_of_derives`).

Two things stand between this and the definition of the builder.

  * The tokens of a part come with parentheses that belong to other parts: groups
    opened in front of the part and closed behind it, on the tokens at its ends.  The
    statement is about runs of this kind, `i` groups opened and `j` closed, and a group
    of the expression itself is added to these.
  * Short runs are not split.  Where a run of up to three tokens is a formula as it
    stands, the formula is the one that splitting would have given
    (`Formula.outcome_build_binary`, `Formula.outcome_build_not`).

Every list of tokens that keeps the rules is an expression, so it has a tree and its tree
is derived (`Formula.exists_ofTokens_of_rejection?`).
-/
import Clausal.Formula.OfTokens
import Clausal.Proofs.Validity

namespace Clausal

/-! ## Depth and looseness among symbols

Depth is counted from any number of open groups on.  A closing parenthesis without a
partner closes nothing, as it does among tokens. -/

/-- The number of groups that are open behind the symbols, `n` being open before
them. -/
def depthAfter : Nat → List Symbol → Nat
  | n, [] => n
  | n, .opening :: s => depthAfter (n + 1) s
  | n, .closing :: s => depthAfter (n - 1) s
  | n, .operand _ :: s | n, .operator _ :: s => depthAfter n s

/-- The looseness of every operator among the symbols, `n` groups being open
before them. -/
def ranks : Nat → List Symbol → List Nat
  | _, [] => []
  | n, .opening :: s => ranks (n + 1) s
  | n, .closing :: s => ranks (n - 1) s
  | n, .operand _ :: s => ranks n s
  | n, .operator op :: s => (6 * n + op.priority) :: ranks n s

theorem depthAfter_append (s r : List Symbol) :
    ∀ n, depthAfter n (s ++ r) = depthAfter (depthAfter n s) r := by
  induction s with
  | nil => intro n; rfl
  | cons x s ih =>
      intro n
      cases x <;> exact ih _

theorem ranks_append (s r : List Symbol) :
    ∀ n, ranks n (s ++ r) = ranks n s ++ ranks (depthAfter n s) r := by
  induction s with
  | nil => intro n; rfl
  | cons x s ih =>
      intro n
      cases x with
      | operator op => exact congrArg (_ :: ·) (ih n)
      | opening | closing | operand => exact ih _

theorem depthAfter_replicate (side : Side) (k : Nat) :
    ∀ n, depthAfter n (List.replicate k side.symbol) = side.shift n k := by
  induction k with
  | zero => intro n; cases side <;> rfl
  | succ k ih =>
      intro n
      rw [List.replicate_succ]
      cases side with
      | opening => exact (ih (n + 1)).trans (Nat.succ_add_eq_add_succ n k)
      | closing => exact (ih (n - 1)).trans (by simp only [Side.shift]; omega)

theorem ranks_replicate (side : Side) (k : Nat) :
    ∀ n, ranks n (List.replicate k side.symbol) = [] := by
  induction k with
  | zero => intro n; rfl
  | succ k ih => intro n; cases side <;> exact ih _

/-! ## Depth and looseness in an expression

The bound on looseness is what the level of an expression means for splitting: an operator
of the expression is at least as tight as the level says, and one in a group of it is
tighter than any level.  That an expression neither begins with a closing nor ends with
an opening parenthesis is used to see that no token at a joint has parentheses of its own. -/

variable {p : Nat} {s : List Symbol} {f : Formula}

/-- An expression closes the groups that it opens. -/
theorem depthAfter_of_derives (h : Derives p s f) : ∀ n, depthAfter n s = n := by
  induction h with
  | tighter _ _ ih => exact ih
  | binary _ _ _ ih ih' =>
      intro n
      rw [depthAfter_append, ih]
      exact ih' n
  | not _ ih => exact ih
  | group _ ih =>
      intro n
      rw [depthAfter, depthAfter_append, ih]
      rfl
  | operand => intro n; rfl

/-- No operator in an expression is looser than the level of the expression. -/
theorem le_ranks_of_derives (h : Derives p s f) : ∀ n, ∀ k ∈ ranks n s, 6 * n + p ≤ k := by
  induction h with
  | tighter _ _ ih =>
      intro n k hk
      have := ih n k hk
      omega
  | @binary p c _ _ _ _ hc h _ ih ih' =>
      intro n k hk
      rw [ranks_append, depthAfter_of_derives h, ranks, List.mem_append, List.mem_cons] at hk
      rcases hk with hk | rfl | hk
      · have := ih n k hk
        omega
      · have hp : c.priority = p := mem_connectivesOf.mp hc
        show 6 * n + p ≤ 6 * n + c.priority
        omega
      · exact ih' n k hk
  | not _ ih =>
      intro n k hk
      rw [ranks, List.mem_cons] at hk
      rcases hk with rfl | hk
      · exact Nat.le_refl _
      · exact ih n k hk
  | group h ih =>
      intro n k hk
      rw [ranks, ranks_append, depthAfter_of_derives h, ranks, ranks, List.append_nil] at hk
      have := ih (n + 1) k hk
      omega
  | operand => intro n k hk; cases hk

theorem Derives.exists_cons (h : Derives p s f) : ∃ x s', s = x :: s' ∧ x ≠ .closing := by
  induction h with
  | tighter _ _ ih => exact ih
  | binary _ _ _ ih _ =>
      obtain ⟨x, s', rfl, hx⟩ := ih
      exact ⟨x, _, rfl, hx⟩
  | not => exact ⟨_, _, rfl, nofun⟩
  | group => exact ⟨_, _, rfl, nofun⟩
  | operand => exact ⟨_, _, rfl, nofun⟩

theorem Derives.exists_concat (h : Derives p s f) : ∃ s' x, s = s' ++ [x] ∧ x ≠ .opening := by
  induction h with
  | tighter _ _ ih => exact ih
  | @binary _ c s _ _ _ _ _ _ _ ih =>
      obtain ⟨s', x, rfl, hx⟩ := ih
      exact ⟨s ++ .operator (.binary c) :: s', x, by simp, hx⟩
  | not _ ih =>
      obtain ⟨s', x, rfl, hx⟩ := ih
      exact ⟨.operator .not :: s', x, rfl, hx⟩
  | @group s =>
      exact ⟨.opening :: s, .closing, rfl, nofun⟩
  | operand name => exact ⟨[], .operand name, rfl, nofun⟩

/-! ## Tokens and their symbols

The symbols of tokens side by side are taken apart again at an operator: it is a token of
its own, and what stands before and behind it among the symbols belongs to the tokens
before and behind it, but for its own parentheses.  Depth agrees as well: a token stands
in as many groups as the symbols up to its core leave open, so the ranks by which tokens
are split are the ranks of their symbols. -/

namespace Token

variable {t : Token} {ts : List Token}

theorem depthAfter_symbols (n : Nat) (t : Token) :
    depthAfter n t.symbols = n + t.opening - t.closing := by
  rw [symbols, depthAfter_append, depthAfter_append, depthAfter_replicate .opening]
  unfold core
  cases t.kind <;> exact depthAfter_replicate .closing _ _

theorem operator?_eq_some {op : Operator} : t.operator? = some op ↔ t.kind = .operator op := by
  unfold operator?
  cases t.kind <;> simp

theorem nest_append (ts us : List Token) :
    ∀ n, nest n (ts ++ us) = nest n ts ++ nest (depthAfter n (symbolsOf ts)) us := by
  induction ts with
  | nil => intro n; rfl
  | cons t ts ih =>
      intro n
      rw [symbolsOf_cons, depthAfter_append, depthAfter_symbols]
      exact congrArg (_ :: ·) (ih _)

end Token

/-- The looseness of a token, if it is an operator. -/
def Nested.rank? (m : Nested) : Option Nat := m.token.operator?.map m.rank

/-- Operators among tokens are as loose as they are among the symbols. -/
theorem filterMap_rank?_nest (ts : List Token) :
    ∀ n, (Token.nest n ts).filterMap Nested.rank? = ranks n (Token.symbolsOf ts) := by
  induction ts with
  | nil => intro n; rfl
  | cons t ts ih =>
      intro n
      rw [Token.symbolsOf_cons, ranks_append, Token.depthAfter_symbols, ← ih, Token.nest,
        Token.symbols, ranks_append, ranks_replicate .opening, depthAfter_replicate .opening,
        List.nil_append, ranks_append, ranks_replicate .closing, List.append_nil,
        List.filterMap_cons]
      cases h : t.kind <;>
        simp [Nested.rank?, Nested.rank, Token.operator?, Token.core, h, ranks]

theorem exists_append_of_not_mem {α : Type} {x : α} {l r b : List α} (hx : x ∉ l) :
    ∀ {a : List α}, l ++ r = a ++ x :: b → ∃ a', a = l ++ a' ∧ r = a' ++ x :: b := by
  induction l with
  | nil => intro a h; exact ⟨a, rfl, h⟩
  | cons y l ih =>
      intro a h
      cases a with
      | nil =>
          cases h
          exact absurd List.mem_cons_self hx
      | cons z a =>
          rw [List.cons_append, List.cons_append, List.cons.injEq] at h
          obtain ⟨rfl, h⟩ := h
          obtain ⟨a', rfl, hr⟩ := ih (fun hm => hx (List.mem_cons_of_mem y hm)) h
          exact ⟨a', rfl, hr⟩

theorem Token.kind_of_symbols_eq {t : Token} {op : Operator} {a b : List Symbol}
    (h : t.symbols = a ++ .operator op :: b) :
    t.kind = .operator op ∧ a = List.replicate t.opening .opening ∧
      b = List.replicate t.closing .closing := by
  obtain ⟨a', rfl, hcore⟩ := exists_append_of_not_mem (r := t.core ++ _) (by simp) h
  have hclosings : ∀ {c}, List.replicate t.closing Symbol.closing ≠ c ++ .operator op :: b := by
    intro c hc
    have hm : Symbol.operator op ∈ List.replicate t.closing Symbol.closing := by simp [hc]
    simp at hm
  cases hk : t.kind with
  | operand x =>
      simp only [core, hk] at hcore
      obtain ⟨c, -, hc⟩ := exists_append_of_not_mem (by simp) hcore
      exact absurd hc hclosings
  | empty =>
      simp only [core, hk] at hcore
      exact absurd hcore hclosings
  | operator op' =>
      simp only [core, hk] at hcore
      cases a' with
      | nil =>
          cases hcore
          exact ⟨rfl, List.append_nil _, rfl⟩
      | cons y a' =>
          rw [List.cons_append, List.cons_append, List.cons.injEq] at hcore
          exact absurd hcore.2 hclosings

/-- An operator among the symbols of tokens is one of the tokens. -/
theorem exists_token_of_operator {op : Operator} {b : List Symbol} (ts : List Token) :
    ∀ {a : List Symbol}, Token.symbolsOf ts = a ++ .operator op :: b →
      ∃ before t after, ts = before ++ t :: after ∧ t.kind = .operator op ∧
        a = Token.symbolsOf before ++ List.replicate t.opening .opening ∧
        b = List.replicate t.closing .closing ++ Token.symbolsOf after := by
  induction ts with
  | nil => intro a h; cases a <;> cases h
  | cons t ts ih =>
      intro a h
      rw [Token.symbolsOf_cons] at h
      have later : ∀ a', a = t.symbols ++ a' → Token.symbolsOf ts = a' ++ .operator op :: b →
          ∃ before u after, t :: ts = before ++ u :: after ∧ u.kind = .operator op ∧
            a = Token.symbolsOf before ++ List.replicate u.opening .opening ∧
            b = List.replicate u.closing .closing ++ Token.symbolsOf after := by
        rintro a' rfl h'
        obtain ⟨before, u, after, rfl, hu, rfl, rfl⟩ := ih h'
        refine ⟨t :: before, u, after, rfl, hu, ?_, rfl⟩
        rw [Token.symbolsOf_cons, List.append_assoc]
      rcases List.append_eq_append_iff.mp h with ⟨a', rfl, h'⟩ | ⟨c, ht, h'⟩
      · exact later a' rfl h'
      · cases c with
        | nil => exact later [] (by rw [ht, List.append_nil, List.append_nil]) h'.symm
        | cons y c =>
            rw [List.cons_append, List.cons.injEq] at h'
            obtain ⟨rfl, rfl⟩ := h'
            obtain ⟨hk, rfl, rfl⟩ := Token.kind_of_symbols_eq ht
            exact ⟨[], t, ts, rfl, hk, rfl, rfl⟩

/-- A symbol other than a parenthesis. -/
def Symbol.isWord : Symbol → Bool
  | .operand _ | .operator _ => true
  | .opening | .closing => false

theorem filter_isWord_replicate (side : Side) (k : Nat) :
    (List.replicate k side.symbol).filter Symbol.isWord = [] := by
  cases side <;> exact List.filter_replicate_of_neg Bool.false_ne_true

theorem filter_isWord_symbolsOf (ts : List Token) :
    (Token.symbolsOf ts).filter Symbol.isWord = ts.flatMap Token.core := by
  rw [Token.symbolsOf, List.filter_flatMap]
  congr 1
  funext t
  rw [Token.symbols, List.filter_append, List.filter_append, filter_isWord_replicate .opening,
    filter_isWord_replicate .closing, List.nil_append, List.append_nil, List.filter_eq_self]
  intro x hx
  unfold Token.core at hx
  cases hk : t.kind <;> simp_all [Symbol.isWord]

theorem length_core {t : Token} (h : t.isEmpty = false) : t.core.length = 1 := by
  unfold Token.core
  cases hk : t.kind with
  | empty =>
      rw [Token.isEmpty_iff.mpr hk] at h
      cases h
  | operand | operator => rfl

theorem length_filter_isWord {ts : List Token} (hts : ∀ t ∈ ts, t.isEmpty = false) :
    ((Token.symbolsOf ts).filter Symbol.isWord).length = ts.length := by
  rw [filter_isWord_symbolsOf, List.length_flatMap]
  induction ts with
  | nil => rfl
  | cons t ts ih =>
      rw [List.map_cons, List.sum_cons, length_core (hts t List.mem_cons_self),
        ih fun u hu => hts u (List.mem_cons_of_mem t hu), List.length_cons]
      omega

/-! ## The loosest operator

A split is determined by the operators before and behind it: those before are all tighter,
those behind are no looser.  The asymmetry is that of the search, which takes the first of
several that are equally loose, and it is what makes equal priorities group to the right. -/

theorem Split.operator?_of_loosest? {ns : List Nested} {c : Split}
    (h : Split.loosest? ns = some c) : c.pivot.token.operator? = some c.op := by
  fun_induction Split.loosest? ns generalizing c with
  | case1 => cases h
  | case2 => cases h
  | case3 n rest _ hd _ ih =>
      cases h
      exact (ih hd :)
  | case4 => cases h; assumption
  | case5 => cases h; assumption
  | case6 n rest op _ hd _ _ ih =>
      cases h
      exact (ih hd :)

theorem Split.kind_of_loosest? {ns : List Nested} {c : Split} (h : Split.loosest? ns = some c) :
    c.pivot.token.kind = .operator c.op :=
  Token.operator?_eq_some.mp (Split.operator?_of_loosest? h)

/-- An operator that is looser than all before it, and no tighter than any behind
it, is where a run is split. -/
theorem Split.loosest?_eq {op : Operator} {pivot : Nested} {before after : List Nested}
    (hop : pivot.token.operator? = some op)
    (hbefore : ∀ k ∈ before.filterMap Nested.rank?, pivot.rank op < k)
    (hafter : ∀ k ∈ after.filterMap Nested.rank?, pivot.rank op ≤ k) :
    Split.loosest? (before ++ pivot :: after) = some ⟨before, pivot, op, after⟩ := by
  induction before with
  | nil =>
      rw [List.nil_append, Split.loosest?, hop]
      cases hc : Split.loosest? after with
      | none => rfl
      | some c =>
          have hle : pivot.rank op ≤ c.pivot.rank c.op := by
            apply hafter
            refine List.mem_filterMap.mpr ⟨c.pivot, ?_, ?_⟩
            · rw [Split.eq_of_loosest? hc]
              simp
            · rw [Nested.rank?, Split.operator?_of_loosest? hc]
              rfl
          simp only [hle, if_true]
  | cons m before ih =>
      have hrest : ∀ k ∈ before.filterMap Nested.rank?, pivot.rank op < k := by
        intro k hk
        apply hbefore
        obtain ⟨u, hu, huk⟩ := List.mem_filterMap.mp hk
        exact List.mem_filterMap.mpr ⟨u, List.mem_cons_of_mem m hu, huk⟩
      rw [List.cons_append, Split.loosest?, ih hrest]
      cases hm : m.token.operator? with
      | none => rfl
      | some op' =>
          have hlt : pivot.rank op < m.rank op' := by
            apply hbefore
            refine List.mem_filterMap.mpr ⟨m, List.mem_cons_self, ?_⟩
            rw [Nested.rank?, hm]
            rfl
          simp only [Nat.not_le.mpr hlt, if_false]

/-! ## One step of the tree

Each lemma says what building a run comes to, given what building its parts comes to.
The short runs are the cases in which no split is made; there the origin of a connective is
the position of its token and not its index, so the lemma on connectives leaves the origin
open. -/

namespace Formula

theorem simple?_of_connective {level : Nat} {c : Token} {op : Connective} {f : Formula}
    (hc : c.kind = .operator (.binary op)) :
    ∀ {before after : List Token}, simple? level (before ++ c :: after) = some f →
      before ≠ [] → after ≠ [] →
      ∃ a x b y, before = [a] ∧ after = [b] ∧ a.kind = .operand x ∧ b.kind = .operand y ∧
        f = .binary op (.operand x (some ⟨level + 1, a.position⟩))
          (.operand y (some ⟨level + 1, b.position⟩)) (some ⟨level, c.position⟩) := by
  intro before after h hb ha
  match before, after with
  | [], _ => exact absurd rfl hb
  | _, [] => exact absurd rfl ha
  | [a], [b] =>
      simp only [List.cons_append, List.nil_append, simple?, hc] at h
      split at h
      · rename_i x op' y hx hop hy
        cases hop
        cases h
        exact ⟨a, x, b, y, rfl, rfl, hx, hy, rfl⟩
      · cases h
  | [a], b :: b' :: after => cases h
  | a :: a' :: [], b :: after => cases h
  | a :: a' :: a'' :: before, b :: after => cases before <;> cases h

theorem simple?_of_negation {level : Nat} {n : Token} {f : Formula}
    (hn : n.kind = .operator .not) :
    ∀ {after : List Token}, simple? level (n :: after) = some f →
      ∃ a x, after = [a] ∧ a.kind = .operand x ∧
        f = .not (.operand x (some ⟨level + 1, a.position⟩)) (some ⟨level, n.position⟩) := by
  intro after h
  match after with
  | [] =>
      simp only [simple?, hn] at h
      cases h
  | [a] =>
      simp only [simple?, hn] at h
      split at h
      · rename_i x _ hx
        cases h
        exact ⟨a, x, rfl, hx, rfl⟩
      · cases h
  | [c, b] =>
      simp only [simple?, hn] at h
      cases h
  | _ :: _ :: _ :: _ => cases h

variable {start level : Nat}

theorem outcome_build_nil : (build start level []).outcome = .ok none := by
  rw [build]
  rfl

theorem outcome_build_simple {ns : List Nested} {f : Formula} (start : Nat)
    (h : simple? level (ns.map Nested.token) = some f) :
    (build start level ns).outcome = .ok (some f) := by
  cases ns with
  | nil => cases h
  | cons m ms =>
      rw [build]
      simp only [List.isEmpty_cons, Bool.false_eq_true, if_false, h]
      rfl

theorem outcome_build_operand {m : Nested} {x : String} (h : m.token.kind = .operand x) :
    (build start level [m]).outcome =
      .ok (some (.operand x (some ⟨level, m.token.position⟩))) :=
  outcome_build_simple start (by simp [simple?, h])

theorem ne_nil_of_outcome_build {ns : List Nested} {f : Formula}
    (h : (build start level ns).outcome = .ok (some f)) : ns ≠ [] := by
  rintro rfl
  rw [outcome_build_nil] at h
  cases h

variable {ns before after : List Nested} {pivot : Nested}

/-- Where a run is split at a connective, its tree joins the trees of the two
parts, also if they are so short that no split is made. -/
theorem outcome_build_binary {op : Connective} {f g : Formula}
    (hs : Split.loosest? ns = some ⟨before, pivot, .binary op, after⟩)
    (hf : (build start (level + 1) before).outcome = .ok (some f))
    (hg : (build (start + before.length + 1) (level + 1) after).outcome = .ok (some g)) :
    ∃ o, (build start level ns).outcome = .ok (some (.binary op f g o)) := by
  have hns : ns = before ++ pivot :: after := Split.eq_of_loosest? hs
  have hb := ne_nil_of_outcome_build hf
  have ha := ne_nil_of_outcome_build hg
  have hpivot := Split.kind_of_loosest? hs
  cases hsimple : simple? level (ns.map Nested.token) with
  | none =>
      refine ⟨some ⟨level, start + before.length⟩, ?_⟩
      have hne : ns.isEmpty = false := by simp [hns]
      have hone : ns.length ≠ 1 := by
        have hla := List.length_pos_iff.mpr ha
        rw [hns, List.length_append, List.length_cons]
        omega
      rw [build]
      simp only [hne, Bool.false_eq_true, if_false, hsimple, hone]
      rw [hs]
      simp [hf, hg]
      rfl
  | some k =>
      have hk := outcome_build_simple start hsimple
      rw [hns, List.map_append, List.map_cons] at hsimple
      obtain ⟨a, x, b, y, hba, hab, hx, hy, rfl⟩ :=
        simple?_of_connective hpivot hsimple (by simpa using hb) (by simpa using ha)
      obtain ⟨m, rfl, rfl⟩ := List.map_eq_singleton_iff.mp hba
      obtain ⟨m', rfl, rfl⟩ := List.map_eq_singleton_iff.mp hab
      rw [outcome_build_operand hx] at hf
      rw [outcome_build_operand hy] at hg
      cases hf
      cases hg
      exact ⟨_, hk⟩

/-- Where a run starts with a negation and is split there, its tree negates the
tree of the rest, also if the rest is a lone operand. -/
theorem outcome_build_not {f : Formula}
    (hs : Split.loosest? ns = some ⟨[], pivot, .not, after⟩)
    (hf : (build (start + 1) (level + 1) after).outcome = .ok (some f)) :
    (build start level ns).outcome =
      .ok (some (.not f (some ⟨level, pivot.token.position⟩))) := by
  have hns : ns = pivot :: after := Split.eq_of_loosest? hs
  have ha := ne_nil_of_outcome_build hf
  have hpivot := Split.kind_of_loosest? hs
  cases hsimple : simple? level (ns.map Nested.token) with
  | none =>
      have hne : ns.isEmpty = false := by simp [hns]
      have hone : ns.length ≠ 1 := by simp [hns, ha]
      rw [build]
      simp only [hne, Bool.false_eq_true, if_false, hsimple, hone]
      rw [hs]
      simp [hf]
      rfl
  | some k =>
      have hk := outcome_build_simple start hsimple
      rw [hns, List.map_cons] at hsimple
      obtain ⟨a, x, hab, hx, rfl⟩ := simple?_of_negation hpivot hsimple
      obtain ⟨m, rfl, rfl⟩ := List.map_eq_singleton_iff.mp hab
      rw [outcome_build_operand hx] at hf
      cases hf
      exact hk

/-! ## The tree of a derivation

The induction is on the derivation, and the tokens of a joint are found among the tokens of
the whole.  The number of words decides how many tokens there are, since no token is
empty: before a negation there is none, and an operand is one token, however many
parentheses are attached to it. -/

theorem opening_eq_zero {p k i : Nat} {s r : List Symbol} {f : Formula} (h : Derives p s f)
    (he : List.replicate i .opening ++ s = r ++ List.replicate k .opening) : k = 0 := by
  obtain ⟨s', x, rfl, hx⟩ := h.exists_concat
  cases k with
  | zero => rfl
  | succ k =>
      rw [List.replicate_succ', ← List.append_assoc, ← List.append_assoc] at he
      cases (List.append_inj' he rfl).2
      exact absurd rfl hx

theorem closing_eq_zero {p k : Nat} {s r q : List Symbol} {f : Formula} (h : Derives p s f)
    (he : s ++ q = List.replicate k .closing ++ r) : k = 0 := by
  obtain ⟨x, s', rfl, hx⟩ := h.exists_cons
  cases k with
  | zero => rfl
  | succ k =>
      rw [List.replicate_succ, List.cons_append, List.cons_append, List.cons.injEq] at he
      exact absurd he.1 hx

theorem openings_group_closings (i j : Nat) (s : List Symbol) :
    List.replicate i .opening ++ (.opening :: (s ++ [.closing]) ++ List.replicate j .closing) =
      List.replicate (i + 1) .opening ++ (s ++ List.replicate (j + 1) .closing) := by
  rw [List.replicate_succ', List.replicate_succ]
  simp

/-- The tokens of an operand: there is one, and all the groups are attached to it. -/
theorem exists_token_of_operand {i j : Nat} {x : String} {ts : List Token}
    (hts : ∀ t ∈ ts, t.isEmpty = false)
    (hs : Token.symbolsOf ts =
      List.replicate i .opening ++ ([.operand x] ++ List.replicate j .closing)) :
    ∃ t, ts = [t] ∧ t.kind = .operand x := by
  have hwords : ts.flatMap Token.core = [.operand x] := by
    rw [← filter_isWord_symbolsOf, hs, List.filter_append, List.filter_append,
      filter_isWord_replicate .opening, filter_isWord_replicate .closing]
    rfl
  have hlen := length_filter_isWord hts
  rw [filter_isWord_symbolsOf, hwords] at hlen
  obtain ⟨t, rfl⟩ := List.length_eq_one_iff.mp hlen.symm
  refine ⟨t, rfl, ?_⟩
  simp only [List.flatMap_cons, List.flatMap_nil, List.append_nil, Token.core] at hwords
  cases hk : t.kind <;> simp_all

/-- The tokens of a negation: the first one is the negation, with all the groups that
are opened, and the others are what is negated. -/
theorem exists_tokens_of_not {p i j : Nat} {s : List Symbol} {f : Formula} {ts : List Token}
    (h : Derives p s f) (hts : ∀ t ∈ ts, t.isEmpty = false)
    (hs : Token.symbolsOf ts =
      List.replicate i .opening ++ (.operator .not :: s ++ List.replicate j .closing)) :
    ∃ t after, ts = t :: after ∧ t.kind = .operator .not ∧ t.opening = i ∧ t.closing = 0 ∧
      Token.symbolsOf after = s ++ List.replicate j .closing := by
  obtain ⟨before, t, after, rfl, hk, hi, hafter⟩ := exists_token_of_operator ts hs
  have hclosing := closing_eq_zero h hafter
  -- only parentheses come before the negation, and they are attached to it
  have hnil : before = [] := by
    have hlen := length_filter_isWord fun u hu => hts u (List.mem_append_left _ hu)
    have hopenings := congrArg (List.filter Symbol.isWord) hi
    rw [filter_isWord_replicate .opening, List.filter_append, filter_isWord_replicate .opening,
      List.append_nil] at hopenings
    rw [← hopenings] at hlen
    exact List.eq_nil_of_length_eq_zero hlen.symm
  subst hnil
  refine ⟨t, after, rfl, hk, ?_, hclosing, ?_⟩
  · have hlen := congrArg List.length hi
    rw [List.length_replicate] at hlen
    simpa [Token.symbolsOf] using hlen.symm
  · rw [hclosing] at hafter
    exact hafter.symm

/-- The tokens of two expressions and a connective between them: the connective is a
token without parentheses. -/
theorem exists_tokens_of_binary {p q i j : Nat} {c : Connective} {s s' : List Symbol}
    {f f' : Formula} {ts : List Token} (h : Derives p s f) (h' : Derives q s' f')
    (hs : Token.symbolsOf ts = List.replicate i .opening ++
      (s ++ .operator (.binary c) :: s' ++ List.replicate j .closing)) :
    ∃ before t after, ts = before ++ t :: after ∧ t.kind = .operator (.binary c) ∧
      t.opening = 0 ∧ t.closing = 0 ∧ Token.symbolsOf before = List.replicate i .opening ++ s ∧
      Token.symbolsOf after = s' ++ List.replicate j .closing := by
  have hjoint : Token.symbolsOf ts = (List.replicate i .opening ++ s) ++
      .operator (.binary c) :: (s' ++ List.replicate j .closing) := by
    rw [hs]
    simp
  obtain ⟨before, t, after, rfl, hk, hbefore, hafter⟩ := exists_token_of_operator ts hjoint
  have hopening := opening_eq_zero h hbefore
  have hclosing := closing_eq_zero h' hafter
  rw [hopening] at hbefore
  rw [hclosing] at hafter
  refine ⟨before, t, after, rfl, hk, hopening, hclosing, ?_, hafter.symm⟩
  rw [hbefore]
  exact (List.append_nil _).symm

/-- Groups opened in front of an expression make its operators tighter, and groups
closed behind it make no difference. -/
theorem le_rank_of_derives {p n i j : Nat} {s : List Symbol} {f : Formula} {ts : List Token}
    (h : Derives p s f)
    (hs : Token.symbolsOf ts = List.replicate i .opening ++ (s ++ List.replicate j .closing)) :
    ∀ k ∈ (Token.nest n ts).filterMap Nested.rank?, 6 * (n + i) + p ≤ k := by
  intro k hk
  rw [filterMap_rank?_nest, hs, ranks_append, ranks_replicate .opening,
    depthAfter_replicate .opening, List.nil_append, ranks_append, ranks_replicate .closing,
    List.append_nil] at hk
  exact le_ranks_of_derives h (n + i) k hk

/-- Two expressions are split at the connective between them: on the right no operator is
looser, and on the left all are of the next level, so the connective comes first. -/
theorem loosest?_of_derives {p i j : Nat} {c : Connective} {s s' : List Symbol}
    {f f' : Formula} {before after : List Token} {t : Token} (n : Nat)
    (hc : c ∈ connectivesOf p) (hk : t.kind = .operator (.binary c))
    (h : Derives (p + 1) s f) (h' : Derives p s' f')
    (hleft : Token.symbolsOf before =
      List.replicate i .opening ++ (s ++ List.replicate 0 .closing))
    (hright : Token.symbolsOf after = s' ++ List.replicate j .closing) :
    Split.loosest? (Token.nest n before ++ ⟨t, n + i⟩ :: Token.nest (n + i) after) =
      some ⟨Token.nest n before, ⟨t, n + i⟩, .binary c, Token.nest (n + i) after⟩ := by
  have hrank : Nested.rank ⟨t, n + i⟩ (.binary c) = 6 * (n + i) + p := by
    rw [Nested.rank, Operator.priority, mem_connectivesOf.mp hc]
  refine Split.loosest?_eq (by simp [Token.operator?, hk]) ?_ ?_
  · intro k hk
    have := le_rank_of_derives h hleft k hk
    omega
  · intro k hk
    have := le_rank_of_derives (i := 0) h' hright k hk
    omega

/-- The tokens of an expression, with groups opened in front of it and closed
behind it, have the tree of the expression. -/
theorem build_of_derives {p : Nat} {s : List Symbol} {f : Formula} (h : Derives p s f) :
    ∀ {ts : List Token} {i j : Nat} (n start level : Nat), (∀ t ∈ ts, t.isEmpty = false) →
      Token.symbolsOf ts =
        List.replicate i .opening ++ (s ++ List.replicate j .closing) →
      ∃ g, (build start level (Token.nest n ts)).outcome = .ok (some g) ∧ g.bare = f := by
  induction h with
  | tighter _ _ ih => exact ih
  | operand x =>
      intro ts i j n start level hts hs
      obtain ⟨t, rfl, hk⟩ := exists_token_of_operand hts hs
      exact ⟨_, outcome_build_operand hk, rfl⟩
  | @not s f h ih =>
      intro ts i j n start level hts hs
      obtain ⟨t, after, rfl, hk, hopening, hclosing, hrest⟩ := exists_tokens_of_not h hts hs
      obtain ⟨g, hg, rfl⟩ := ih (i := 0) (n + i) (start + 1) (level + 1)
        (fun u hu => hts u (List.mem_cons_of_mem t hu)) hrest
      have hop : (Nested.mk t (n + i)).token.operator? = some .not := by
        simp [Token.operator?, hk]
      have hsplit : Split.loosest? ([] ++ ⟨t, n + i⟩ :: Token.nest (n + i) after) =
          some ⟨[], ⟨t, n + i⟩, .not, Token.nest (n + i) after⟩ :=
        Split.loosest?_eq hop (by simp) (le_rank_of_derives (i := 0) h hrest)
      refine ⟨.not g (some ⟨level, t.position⟩), ?_, rfl⟩
      rw [Token.nest, hopening, hclosing]
      exact outcome_build_not hsplit hg
  | group _ ih =>
      -- a group is no step of the tree
      intro ts i j n start level hts hs
      rw [openings_group_closings] at hs
      exact ih n start level hts hs
  | @binary p c s s' f f' hc h h' ih ih' =>
      intro ts i j n start level hts hs
      obtain ⟨before, t, after, rfl, hk, hopening, hclosing, hbefore, hright⟩ :=
        exists_tokens_of_binary h h' hs
      have hleft : Token.symbolsOf before =
          List.replicate i .opening ++ (s ++ List.replicate 0 .closing) := by
        rw [hbefore]
        exact congrArg _ (List.append_nil s).symm
      have hdepth : depthAfter n (Token.symbolsOf before) = n + i := by
        rw [hleft, depthAfter_append, depthAfter_replicate .opening, depthAfter_append,
          depthAfter_of_derives h]
        rfl
      obtain ⟨f₁, hf₁, rfl⟩ := ih n start (level + 1)
        (fun u hu => hts u (List.mem_append_left _ hu)) hleft
      obtain ⟨f₂, hf₂, rfl⟩ := ih' (i := 0) (n + i) (start + before.length + 1) (level + 1)
        (fun u hu => hts u (List.mem_append_right _ (List.mem_cons_of_mem t hu))) hright
      have hsplit := loosest?_of_derives n hc hk h h' hleft hright
      rw [← Token.length_nest n before] at hf₂
      obtain ⟨o, ho⟩ := outcome_build_binary hsplit hf₁ hf₂
      refine ⟨.binary c f₁ f₂ o, ?_, rfl⟩
      rw [Token.nest_append, hdepth, Token.nest, hopening, hclosing]
      exact ho

theorem ofTokens_of_derives {ts : List Token} {f : Formula} (hts : ∀ t ∈ ts, t.isEmpty = false)
    (h : Derives 0 (Token.symbolsOf ts) f) :
    ∃ g, (ofTokens ts).outcome = .ok g ∧ g.bare = f := by
  obtain ⟨g, hg, hf⟩ := build_of_derives h (i := 0) (j := 0) 0 0 0 hts (by simp)
  refine ⟨g, ?_, hf⟩
  rw [ofTokens, Traced.outcome_bind, hg]
  rfl

/-- Tokens that keep the rules have a tree, and are an expression with that
tree. -/
theorem exists_ofTokens_of_rejection? {ts : List Token} (h : rejection? ts = none) :
    ∃ g, (ofTokens ts).outcome = .ok g ∧ Derives 0 (Token.symbolsOf ts) g.bare := by
  obtain ⟨hts, hreads⟩ := rejection?_eq_none_iff.mp h
  obtain ⟨f, hf⟩ := derives_of_reads hreads
  obtain ⟨g, hg, rfl⟩ := ofTokens_of_derives hts hf
  exact ⟨g, hg, hf⟩

end Formula

end Clausal
