/-
# The grammar of constraints

A text is seen here as a list of symbols: parentheses, operators and operands.
`Derives p s t` says that the symbols `s` are an expression of level `p` with
the tree `t`.  Level 0 is the loosest; level 5 holds negations, groups and
operands.  On the levels between, a connective of that level joins an
expression of the next level to one of the same level, so connectives of one
level group to the right.  A negation applies to an expression of level 5, and so
to the argument behind it and not to what is joined to that argument.

Beside the grammar stands `Reads`, which goes through the symbols once, knows
only what is due next and how many groups are open, and builds nothing.  The
two accept the same symbols (`reads_of_derives`, `derives_of_reads`), so what
is acceptable can be checked symbol by symbol.

The grammar says nothing of tokens, of depth or of where a text is split.  That
the reader finds the tree of the grammar is proved in `Proofs.Reading`, by way of
`Reads`: the rules of well-formedness are compared with what is due, and the
builder with the derivation.
-/
import Clausal.Formula
import Clausal.Vocabulary
import Clausal.Piece

namespace Clausal

/-! ## Symbols and levels

The priority of a connective is its level, so each level has the connectives of
one priority. -/

/-- A piece of a text, once it is known which words are operators. -/
inductive Symbol where
  | opening
  | closing
  | operand (name : String)
  | operator (op : Operator)
deriving DecidableEq

@[reducible] def Side.symbol : Side → Symbol
  | .opening => .opening
  | .closing => .closing

/-- A run is an operator if the vocabulary says so, and else an operand. -/
def Symbol.ofPiece (v : Vocabulary) : Piece → Symbol
  | .opening => .opening
  | .closing => .closing
  | .run word =>
    match v.operator? word with
    | some op => .operator op
    | none => .operand word

/-- The connectives of a level, the loosest first. -/
def connectivesOf : Nat → List Connective
  | 0 => [.equivalence]
  | 1 => [.implies, .requires, .excludes]
  | 2 => [.or]
  | 3 => [.and]
  | 4 => [.xor]
  | _ => []

theorem mem_connectivesOf {c : Connective} {p : Nat} :
    c ∈ connectivesOf p ↔ c.priority = p := by
  constructor
  · intro h
    match p, h with
    | 0, h | 1, h | 2, h | 3, h | 4, h =>
        revert h
        cases c <;> decide
    | _ + 5, h => cases h
  · rintro rfl
    cases c <;> decide

theorem level_lt_five {c : Connective} {p : Nat} (h : c ∈ connectivesOf p) : p < 5 := by
  rw [← mem_connectivesOf.mp h]
  cases c <;> decide

/-- The symbols of an expression of a level, and its tree. -/
inductive Derives : Nat → List Symbol → Formula → Prop
  | tighter {p : Nat} {s : List Symbol} {t : Formula} :
      p < 5 → Derives (p + 1) s t → Derives p s t
  | binary {p : Nat} {c : Connective} {s s' : List Symbol} {t t' : Formula} :
      c ∈ connectivesOf p → Derives (p + 1) s t → Derives p s' t' →
      Derives p (s ++ .operator (.binary c) :: s') (.join c t t')
  | not {s : List Symbol} {t : Formula} :
      Derives 5 s t → Derives 5 (.operator .not :: s) (.neg t)
  | group {s : List Symbol} {t : Formula} :
      Derives 0 s t → Derives 5 (.opening :: (s ++ [.closing])) t
  | operand (name : String) : Derives 5 [.operand name] (.var name)

/-! ## Reading symbol by symbol

Every symbol is possible in one of the two states only, and leads to one state;
what is due and the number of open groups are all that has to be remembered. -/

/-- What has to come next: an argument, or what may stand behind one. -/
inductive Due where
  | argument
  | continuation
deriving DecidableEq

/-- Where the parentheses of a side may stand. -/
@[reducible] def Side.due : Side → Due
  | .opening => .argument
  | .closing => .continuation

/-- The number of groups that are open behind so many parentheses of a side. -/
@[reducible] def Side.shift : Side → Nat → Nat → Nat
  | .opening, n, k => n + k
  | .closing, n, k => n - k

/-- The symbols end an expression of which this is due, with so many groups still
open. -/
def Reads : Due → Nat → List Symbol → Prop
  | .argument, n, .operand _ :: s => Reads .continuation n s
  | .argument, n, .operator .not :: s => Reads .argument n s
  | .argument, n, .opening :: s => Reads .argument (n + 1) s
  | .continuation, n, .operator (.binary _) :: s => Reads .argument n s
  | .continuation, n + 1, .closing :: s => Reads .continuation n s
  | .continuation, 0, [] => True
  | _, _, _ => False

/-! ## Derivations can be read

The induction needs the expression in front of anything that can be read where an
argument has been, since that is how expressions stand in one another. -/

/-- An expression takes the place of an argument that is due. -/
theorem reads_append_of_derives {p : Nat} {s : List Symbol} {t : Formula} (h : Derives p s t) :
    ∀ {n : Nat} {r : List Symbol}, Reads .continuation n r → Reads .argument n (s ++ r) := by
  induction h with
  | tighter _ _ ih => exact ih
  | binary _ _ _ ih ih' =>
      intro n r hr
      rw [List.append_assoc]
      apply ih
      exact ih' hr
  | not _ ih => exact ih
  | group _ ih =>
      intro n r hr
      show Reads .argument (n + 1) (_ ++ [Symbol.closing] ++ r)
      rw [List.append_assoc]
      apply ih
      exact hr
  | operand name =>
      intro n r hr
      exact hr

theorem reads_of_derives {p : Nat} {s : List Symbol} {t : Formula} (h : Derives p s t) :
    Reads .argument 0 s := by
  have hs : Reads .argument 0 (s ++ []) := reads_append_of_derives h trivial
  rwa [List.append_nil] at hs

/-! ## What can be read has a derivation

A derivation is put together from the right: an argument is read first, and if a
connective follows, the derivation of what is behind it is there already.  `prepend`
finds the place in that derivation at which the connective belongs.  Only that there
is some tree is proved here; which one it is does not matter for what is acceptable. -/

/-- An expression of a level is one of every looser level. -/
theorem Derives.loosen {p q : Nat} {s : List Symbol} {t : Formula} (hpq : p ≤ q) (hq : q ≤ 5)
    (h : Derives q s t) : Derives p s t := by
  induction q with
  | zero => rwa [Nat.le_zero.mp hpq]
  | succ q ih =>
      rcases Nat.le_succ_iff.mp hpq with hle | rfl
      · exact ih hle (by omega) (.tighter (by omega) h)
      · exact h

/-- A negation in front of an expression negates its first argument. -/
theorem Derives.negate {p : Nat} {s : List Symbol} {t : Formula} (h : Derives p s t) :
    ∃ t', Derives p (.operator .not :: s) t' := by
  induction h with
  | tighter hp _ ih =>
      obtain ⟨t', h'⟩ := ih
      exact ⟨t', .tighter hp h'⟩
  | binary hc _ h' ih _ =>
      obtain ⟨t', ht'⟩ := ih
      exact ⟨_, .binary hc ht' h'⟩
  | not h _ => exact ⟨_, .not (.not h)⟩
  | group h _ => exact ⟨_, .not (.group h)⟩
  | operand name => exact ⟨_, .not (.operand name)⟩

/-- A tight argument and a connective in front of an expression make another one:
the connective takes the place that its level has in it. -/
theorem Derives.prepend {p q : Nat} {c : Connective} {a s : List Symbol} {f t : Formula}
    (ha : Derives 5 a f) (hc : c ∈ connectivesOf q) (h : Derives p s t) :
    p ≤ q → ∃ t', Derives p (a ++ .operator (.binary c) :: s) t' := by
  have hq := level_lt_five hc
  -- on its own level the connective is the first one, as levels group to the right
  have here : ∀ {s t}, Derives q s t → ∃ t', Derives q (a ++ .operator (.binary c) :: s) t' :=
    fun h => ⟨_, .binary hc (ha.loosen (by omega) (by omega)) h⟩
  induction h with
  | @tighter p s t hp h ih =>
      intro hpq
      rcases Nat.lt_or_eq_of_le hpq with hlt | rfl
      · obtain ⟨t', h'⟩ := ih hlt
        exact ⟨t', .tighter hp h'⟩
      · exact here (.tighter hp h)
  | @binary p d s s' t t' hd h h' ih _ =>
      intro hpq
      rcases Nat.lt_or_eq_of_le hpq with hlt | rfl
      · obtain ⟨u, hu⟩ := ih hlt
        refine ⟨.join d u t', ?_⟩
        rw [← List.cons_append, ← List.append_assoc]
        exact .binary hd hu h'
      · exact here (.binary hd h h')
  | not | group | operand =>
      intro hpq
      omega

/-- What is left behind an expression: nothing, or the end of the group in which
it stands. -/
def EndsAt (n : Nat) (r : List Symbol) : Prop :=
  (r = [] ∧ n = 0) ∨ ∃ m r', r = .closing :: r' ∧ n = m + 1 ∧ Reads .continuation m r'

/-- An argument, and what is read behind it, make the longest expression. -/
theorem exists_derives_of_argument {n : Nat} {a s : List Symbol} {f : Formula}
    (ha : Derives 5 a f) (hs : Reads .continuation n s)
    (ih : ∀ s', s'.length < s.length → Reads .argument n s' →
      ∃ w t r, s' = w ++ r ∧ Derives 0 w t ∧ EndsAt n r) :
    ∃ w t r, a ++ s = w ++ r ∧ Derives 0 w t ∧ EndsAt n r := by
  have alone : Derives 0 a f := ha.loosen (by omega) (by omega)
  match s, n, hs with
  | [], 0, _ => exact ⟨a, f, [], rfl, alone, .inl ⟨rfl, rfl⟩⟩
  | .closing :: s, n + 1, hs => exact ⟨a, f, _, rfl, alone, .inr ⟨n, s, rfl, rfl, hs⟩⟩
  | .operator (.binary c) :: s, n, hs =>
      obtain ⟨w, t, r, rfl, hw, hr⟩ := ih s (Nat.lt_succ_self _) hs
      obtain ⟨t', ht'⟩ := ha.prepend (mem_connectivesOf.mpr rfl) hw (Nat.zero_le c.priority)
      refine ⟨_, t', r, ?_, ht', hr⟩
      rw [List.append_assoc, List.cons_append]

/-- Where an argument is due, an expression stands, as long as can be. -/
theorem exists_derives_of_reads (s : List Symbol) :
    ∀ {n : Nat}, Reads .argument n s → ∃ w t r, s = w ++ r ∧ Derives 0 w t ∧ EndsAt n r := by
  intro n hs
  match s, hs with
  | .operand name :: s, hs =>
      exact exists_derives_of_argument (.operand name) hs
        fun s' _ => exists_derives_of_reads s'
  | .operator .not :: s, hs =>
      obtain ⟨w, t, r, rfl, hw, hr⟩ := exists_derives_of_reads s hs
      obtain ⟨t', ht'⟩ := hw.negate
      exact ⟨_, t', r, rfl, ht', hr⟩
  | .opening :: s, hs =>
      obtain ⟨w, t, r, rfl, hw, ⟨-, hn⟩ | ⟨m, r', rfl, hm, hr'⟩⟩ := exists_derives_of_reads s hs
      · cases hn
      · cases hm
        have hg := exists_derives_of_argument (.group hw) hr'
          fun s' _ => exists_derives_of_reads s'
        rwa [List.cons_append, List.append_assoc, List.singleton_append] at hg
termination_by s.length
decreasing_by all_goals (subst_vars; simp; try omega)

theorem derives_of_reads {s : List Symbol} (h : Reads .argument 0 s) : ∃ t, Derives 0 s t := by
  obtain ⟨w, t, r, rfl, hw, ⟨rfl, -⟩ | ⟨m, r', -, hm, -⟩⟩ := exists_derives_of_reads s h
  · rw [List.append_nil]
    exact ⟨t, hw⟩
  · cases hm

end Clausal
