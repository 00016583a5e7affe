/-
# What the rules on tokens come to

The rules look at neighbours, at the ends of the expression and at numbers of
parentheses.  Together they say that no token is empty and that the symbols of the
tokens can be read in one go, an argument being due first (`rejection?_eq_none_iff`).
So tokens that keep the rules are an expression, and the tokens of an expression keep
the rules.

Reading goes along the tokens with two things in hand, what is due and how many groups
are open, and neither depends on the other: what may stand beside what is `Placed`, and
where groups open and close is `Balances`.  The rules fall into the same two parts.  The
rule on balance is about numbers alone; all others together ask for tokens that are
`Orderly`, four of them being about neighbours and forbidding what `clash` says.

The equivalence is proved part by part and not rule by rule, as a single rule has no
counterpart in the grammar: that an operand may not follow an operand, for example, is
one half of what is due behind an operand, and the rule on the last token the other.
-/
import Clausal.Validation
import Clausal.Proofs.Grammar

namespace Clausal

/-! ## The symbols of tokens

An empty token has its parentheses for symbols and nothing between them. -/

namespace Token

/-- What stands between the parentheses of a token, if anything does. -/
def core (t : Token) : List Symbol :=
  match t.kind with
  | .operand name => [.operand name]
  | .operator op => [.operator op]
  | .empty => []

/-- A token, with each of its parentheses a symbol. -/
def symbols (t : Token) : List Symbol :=
  List.replicate t.opening .opening ++ (t.core ++ List.replicate t.closing .closing)

/-- The symbols of tokens side by side. -/
def symbolsOf (ts : List Token) : List Symbol := ts.flatMap symbols

theorem symbolsOf_cons (t : Token) (ts : List Token) :
    symbolsOf (t :: ts) = t.symbols ++ symbolsOf ts := rfl

theorem symbolsOf_append (ts us : List Token) :
    symbolsOf (ts ++ us) = symbolsOf ts ++ symbolsOf us := List.flatMap_append

theorem isOperand_iff {t : Token} : t.isOperand = true ↔ ∃ x, t.kind = .operand x := by
  unfold isOperand
  cases t.kind <;> simp

theorem isUnary_iff {t : Token} : t.isUnary = true ↔ t.kind = .operator .not := by
  unfold isUnary operator?
  cases t.kind with
  | operator op => cases op <;> simp [Operator.isUnary]
  | operand | empty => simp

theorem isBinary_iff {t : Token} :
    t.isBinary = true ↔ ∃ c, t.kind = .operator (.binary c) := by
  unfold isBinary operator?
  cases t.kind with
  | operator op => cases op <;> simp [Operator.isBinary]
  | operand | empty => simp

theorem isEmpty_iff {t : Token} : t.isEmpty = true ↔ t.kind = .empty := by
  simp [isEmpty]

variable {t : Token}

theorem flags_of_operand {x : String} (h : t.kind = .operand x) :
    t.isOperand = true ∧ t.isUnary = false ∧ t.isBinary = false ∧ t.isEmpty = false := by
  simp [isOperand, isUnary, isBinary, isEmpty, operator?, h]

theorem flags_of_negation (h : t.kind = .operator .not) :
    t.isOperand = false ∧ t.isUnary = true ∧ t.isBinary = false ∧ t.isEmpty = false := by
  simp [isOperand, isUnary, isBinary, isEmpty, operator?, h, Operator.isUnary,
    Operator.isBinary]

theorem flags_of_connective {c : Connective} (h : t.kind = .operator (.binary c)) :
    t.isOperand = false ∧ t.isUnary = false ∧ t.isBinary = true ∧ t.isEmpty = false := by
  simp [isOperand, isUnary, isBinary, isEmpty, operator?, h, Operator.isUnary,
    Operator.isBinary]

theorem kind_cases (t : Token) :
    (∃ x, t.kind = .operand x) ∨ t.kind = .operator .not ∨
      (∃ c, t.kind = .operator (.binary c)) ∨ t.kind = .empty := by
  cases t.kind with
  | operand x => exact .inl ⟨x, rfl⟩
  | operator op =>
      cases op with
      | not => exact .inr (.inl rfl)
      | binary c => exact .inr (.inr (.inl ⟨c, rfl⟩))
  | empty => exact .inr (.inr (.inr rfl))

end Token

/-! ## Reading tokens

A token is read as a whole: its opening parentheses where an argument is due, its core,
and its closing parentheses where an expression goes on.  Each kind of token can be read in
one of the two states, and there it asks something of its parentheses and leads to a state;
in the other state it cannot be read, whatever its parentheses. -/

theorem reads_openings {n k : Nat} {s : List Symbol} :
    Reads .argument n (List.replicate k .opening ++ s) ↔ Reads .argument (n + k) s := by
  induction k generalizing n with
  | zero => rfl
  | succ k ih =>
      rw [List.replicate_succ, List.cons_append, show n + (k + 1) = n + 1 + k by omega]
      exact ih

theorem reads_closings {n k : Nat} {s : List Symbol} :
    Reads .continuation n (List.replicate k .closing ++ s) ↔
      k ≤ n ∧ Reads .continuation (n - k) s := by
  induction k generalizing n with
  | zero => simp
  | succ k ih =>
      rw [List.replicate_succ, List.cons_append]
      cases n with
      | zero => simp [Reads]
      | succ n => simp only [Reads, ih, Nat.add_le_add_iff_right, Nat.add_sub_add_right]

/-- Parentheses of a side may stand only where they are due. -/
theorem reads_replicate_of_ne (side : Side) {d : Due} (h : d ≠ side.due) {n k : Nat}
    {s : List Symbol} :
    Reads d n (List.replicate k side.symbol ++ s) ↔ k = 0 ∧ Reads d n s := by
  cases k with
  | zero => simp
  | succ k =>
      rw [List.replicate_succ, List.cons_append]
      cases side with
      | opening =>
          cases d with
          | argument => exact absurd rfl h
          | continuation => cases n <;> simp [Reads]
      | closing =>
          cases d with
          | argument => simp [Reads]
          | continuation => exact absurd rfl h

variable {t : Token} {n : Nat} {s : List Symbol}

theorem reads_operand {x : String} (h : t.kind = .operand x) :
    Reads .argument n (t.symbols ++ s) ↔
      t.closing ≤ n + t.opening ∧ Reads .continuation (n + t.opening - t.closing) s := by
  simp only [Token.symbols, Token.core, h, List.append_assoc, reads_openings]
  exact reads_closings

theorem reads_negation (h : t.kind = .operator .not) :
    Reads .argument n (t.symbols ++ s) ↔ t.closing = 0 ∧ Reads .argument (n + t.opening) s := by
  simp only [Token.symbols, Token.core, h, List.append_assoc, reads_openings]
  exact reads_replicate_of_ne .closing (d := .argument) (by decide)

theorem reads_connective {c : Connective} (h : t.kind = .operator (.binary c)) :
    Reads .continuation n (t.symbols ++ s) ↔
      t.opening = 0 ∧ t.closing = 0 ∧ Reads .argument n s := by
  simp only [Token.symbols, Token.core, h, List.append_assoc]
  rw [reads_replicate_of_ne .opening (d := .continuation) (by decide)]
  exact and_congr_right fun _ => by
    cases n <;> exact reads_replicate_of_ne .closing (d := .argument) (by decide)

theorem not_reads_connective {c : Connective} (h : t.kind = .operator (.binary c)) :
    ¬ Reads .argument n (t.symbols ++ s) := by
  simp only [Token.symbols, Token.core, h, List.append_assoc, reads_openings]
  exact id

theorem not_reads_operand {x : String} (h : t.kind = .operand x) :
    ¬ Reads .continuation n (t.symbols ++ s) := by
  simp only [Token.symbols, Token.core, h, List.append_assoc]
  rw [reads_replicate_of_ne .opening (d := .continuation) (by decide)]
  rintro ⟨-, hr⟩
  cases n <;> exact hr

theorem not_reads_negation (h : t.kind = .operator .not) :
    ¬ Reads .continuation n (t.symbols ++ s) := by
  simp only [Token.symbols, Token.core, h, List.append_assoc]
  rw [reads_replicate_of_ne .opening (d := .continuation) (by decide)]
  rintro ⟨-, hr⟩
  cases n <;> exact hr

/-! ## Places and parentheses

`Placed` is what reading asks of kinds, and of parentheses at operators; `Balances` is
what it asks of numbers.  An operand may have any parentheses, so only the second sees
those. -/

/-- Every token is where one of its kind may be, and has no parenthesis where it
may have none; no token is empty. -/
def Placed : Due → List Token → Prop
  | .argument, t :: ts =>
    match t.kind with
    | .operand _ => Placed .continuation ts
    | .operator .not => t.closing = 0 ∧ Placed .argument ts
    | _ => False
  | .continuation, t :: ts =>
    match t.kind with
    | .operator (.binary _) => (t.opening = 0 ∧ t.closing = 0) ∧ Placed .argument ts
    | _ => False
  | .argument, [] => False
  | .continuation, [] => True

/-- Behind `n` open groups, every group is closed in the end, and none before it
opens. -/
def Balances (n : Nat) (ts : List Token) : Prop :=
  n + Token.openingCount ts = Token.closingCount ts ∧ Token.closesEarly n ts = false

theorem balances_cons {ts : List Token} :
    Balances n (t :: ts) ↔
      t.closing ≤ n + t.opening ∧ Balances (n + t.opening - t.closing) ts := by
  simp only [Balances, Token.closesEarly, Token.openingCount, Token.closingCount,
    Token.attachedCount_cons, Token.attached, Bool.or_eq_false_iff, decide_eq_false_iff_not]
  constructor
  · rintro ⟨hsum, hle, hrest⟩
    exact ⟨by omega, by omega, hrest⟩
  · rintro ⟨hle, hsum, hrest⟩
    exact ⟨by omega, by omega, hrest⟩

theorem balances_nil : Balances n [] ↔ n = 0 := by
  simp [Balances, Token.closesEarly, Token.openingCount, Token.closingCount]

/-- Tokens none of which is empty can be read if they are well placed and
balanced. -/
theorem reads_symbolsOf_iff {ts : List Token} (hts : ∀ t ∈ ts, t.isEmpty = false) :
    ∀ {due : Due} {n : Nat},
      Reads due n (Token.symbolsOf ts) ↔ Placed due ts ∧ Balances n ts := by
  induction ts with
  | nil =>
      intro due n
      rw [balances_nil]
      cases due <;> cases n <;> simp [Token.symbolsOf, Reads, Placed]
  | cons t ts ih =>
      intro due n
      have ih : ∀ {due : Due} {n : Nat},
          Reads due n (Token.symbolsOf ts) ↔ Placed due ts ∧ Balances n ts :=
        ih fun u hu => hts u (List.mem_cons_of_mem t hu)
      rw [Token.symbolsOf_cons, balances_cons]
      rcases t.kind_cases with ⟨x, hk⟩ | hk | ⟨c, hk⟩ | hk
      · cases due with
        | argument =>
            rw [reads_operand hk, ih]
            simp only [Placed, hk]
            exact and_left_comm
        | continuation => simp [not_reads_operand hk, Placed, hk]
      · cases due with
        | argument =>
            rw [reads_negation hk, ih]
            simp only [Placed, hk]
            constructor
            · rintro ⟨hc, hp, hb⟩
              rw [hc]
              exact ⟨⟨rfl, hp⟩, Nat.zero_le _, hb⟩
            · rintro ⟨⟨hc, hp⟩, -, hb⟩
              rw [hc] at hb
              exact ⟨hc, hp, hb⟩
        | continuation => simp [not_reads_negation hk, Placed, hk]
      · cases due with
        | argument => simp [not_reads_connective hk, Placed, hk]
        | continuation =>
            rw [reads_connective hk, ih]
            simp only [Placed, hk]
            constructor
            · rintro ⟨ho, hc, hp, hb⟩
              rw [ho, hc]
              exact ⟨⟨⟨rfl, rfl⟩, hp⟩, Nat.zero_le _, hb⟩
            · rintro ⟨⟨⟨ho, hc⟩, hp⟩, -, hb⟩
              rw [ho, hc] at hb
              exact ⟨ho, hc, hp, hb⟩
      · have hne := hts t List.mem_cons_self
        rw [Token.isEmpty_iff.mpr hk] at hne
        cases hne

/-! ## The rules

That no check finds anything is turned into properties of the tokens, one check at a
time, and the four checks on neighbours are put together as one. -/

namespace Validation

theorem firstPair?_cons_cons {r : Token → Token → Bool} {a b : Token} {ts : List Token} :
    firstPair? r (a :: b :: ts) = none ↔ r a b = false ∧ firstPair? r (b :: ts) = none := by
  rw [firstPair?]
  cases r a b <;> simp

theorem firstPair?_or {r r' : Token → Token → Bool} {ts : List Token} :
    firstPair? (fun a b => r a b || r' a b) ts = none ↔
      firstPair? r ts = none ∧ firstPair? r' ts = none := by
  induction ts with
  | nil => simp [firstPair?]
  | cons a ts ih =>
      cases ts with
      | nil => simp [firstPair?]
      | cons b ts =>
          rw [firstPair?_cons_cons, firstPair?_cons_cons, firstPair?_cons_cons, ih,
            Bool.or_eq_false_iff]
          exact and_and_and_comm

/-- Neighbours that break one of the four rules on neighbours. -/
def clash (a b : Token) : Bool :=
  (a.isBinary && b.isBinary || a.isUnary && b.isBinary) ||
    (a.isOperand && b.isOperand || a.isOperand && b.isUnary)

/-- What the rules other than those on the numbers of parentheses ask for. -/
structure Orderly (ts : List Token) : Prop where
  filled : ∀ t ∈ ts, t.isEmpty = false
  last : ∀ t ∈ ts.getLast?, t.isOperand = true
  apart : firstPair? clash ts = none
  bare : ∀ t ∈ ts, parenthesisFault? t = none

/-- What the first token must be for the place it comes in. -/
def Starts : Due → List Token → Prop
  | .argument, ts => ts ≠ [] ∧ ∀ t ∈ ts.head?, t.isBinary = false
  | .continuation, ts => ∀ t ∈ ts.head?, t.isBinary = true

theorem atEnd_eq_none {reason : Misplacement} {q : Token → Bool} {t : Option Token} :
    atEnd reason q t = none ↔ ∀ u ∈ t, q u = false := by
  cases t with
  | none => simp [atEnd]
  | some t => cases h : q t <;> simp [atEnd, Option.filter, h]

theorem inPair_eq_none {reason : Misplacement} {r : Token → Token → Bool} {ts : List Token} :
    inPair reason r ts = none ↔ firstPair? r ts = none := by
  rw [inPair, Option.map_eq_none_iff]

end Validation

open Validation

/-- The checks find nothing in tokens that are balanced, orderly, and do not start
with a connective. -/
theorem rejection?_eq_none_iff_orderly {ts : List Token} :
    rejection? ts = none ↔ Balances 0 ts ∧ Orderly ts ∧ Starts .argument ts := by
  have hbalanced : balanced ts = none ↔ Balances 0 ts := by
    simp [balanced, Balances]
  have hfilled : noEmptyParentheses ts = none ↔ ∀ t ∈ ts, t.isEmpty = false := by
    simp [noEmptyParentheses]
  have hclash : firstPair? clash ts = none ↔
      (noAdjacentBinary ts = none ∧ noUnaryBeforeBinary ts = none) ∧
        noAdjacentOperands ts = none ∧ noUnaryAfterOperand ts = none := by
    rw [noAdjacentBinary, noUnaryBeforeBinary, noAdjacentOperands, noUnaryAfterOperand,
      inPair_eq_none, inPair_eq_none, inPair_eq_none, Option.map_eq_none_iff, ← firstPair?_or,
      ← firstPair?_or, ← firstPair?_or]
    rfl
  have hbare : noParenthesizedOperator ts = none ↔ ∀ t ∈ ts, parenthesisFault? t = none := by
    simp [noParenthesizedOperator]
  have hends : noBinaryAtEnds ts = none ↔
      (∀ t ∈ ts.head?, t.isBinary = false) ∧ ∀ t ∈ ts.getLast?, t.isBinary = false := by
    rw [noBinaryAtEnds, Option.or_eq_none_iff, atEnd_eq_none, atEnd_eq_none]
  have hlast : noUnaryLast ts = none ↔ ∀ t ∈ ts.getLast?, t.isUnary = false := atEnd_eq_none
  have hnonempty : nonempty ts = none ↔ ts ≠ [] := by
    simp [nonempty]
  simp only [rejection?, checks, List.findSome?_eq_none_iff, List.forall_mem_cons,
    hbalanced, hfilled, hbare, hends, hlast, hnonempty]
  constructor
  · rintro ⟨hne, hbal, hfill, ⟨hhead, hbin⟩, hun, hab, hub, hao, hpar, huo, -⟩
    refine ⟨hbal, ⟨hfill, ?_, hclash.mpr ⟨⟨hab, hub⟩, hao, huo⟩, hpar⟩, hne, hhead⟩
    intro t ht
    have hmem := List.mem_of_getLast? ht
    rcases t.kind_cases with hk | hk | hk | hk
    · exact Token.isOperand_iff.mpr hk
    · exact absurd (Token.isUnary_iff.mpr hk) (by simp [hun t ht])
    · exact absurd (Token.isBinary_iff.mpr hk) (by simp [hbin t ht])
    · exact absurd (Token.isEmpty_iff.mpr hk) (by simp [hfill t hmem])
  · rintro ⟨hbal, ⟨hfill, hop, hapart, hpar⟩, hne, hhead⟩
    obtain ⟨⟨hab, hub⟩, hao, huo⟩ := hclash.mp hapart
    refine ⟨hne, hbal, hfill, ⟨hhead, ?_⟩, ?_, hab, hub, hao, hpar, huo, fun _ h => nomatch h⟩
    · intro t ht
      obtain ⟨x, hk⟩ := Token.isOperand_iff.mp (hop t ht)
      exact (Token.flags_of_operand hk).2.2.1
    · intro t ht
      obtain ⟨x, hk⟩ := Token.isOperand_iff.mp (hop t ht)
      exact (Token.flags_of_operand hk).2.1

/-! ## Rules and places

Orderly tokens are taken apart from the front, as reading does.  What comes behind an
operand must not clash with it, hence be a connective or nothing; what comes behind an
operator must be there, and begin an argument.  That the last token is an operand is the
same demand at the end, so `Orderly` can be passed on to the rest of the tokens only if
there is a rest. -/

namespace Validation

variable {ts : List Token}

theorem Orderly.tail (h : Orderly (t :: ts)) (hne : ts ≠ []) : Orderly ts := by
  obtain ⟨u, us, rfl⟩ := List.exists_cons_of_ne_nil hne
  refine ⟨fun w hw => h.filled w (List.mem_cons_of_mem t hw), ?_,
    (firstPair?_cons_cons.mp h.apart).2, fun w hw => h.bare w (List.mem_cons_of_mem t hw)⟩
  intro w hw
  exact h.last w (by rwa [List.getLast?_cons_cons])

theorem orderly_nil : Orderly [] where
  filled _ h := nomatch h
  last _ h := nomatch h
  apart := rfl
  bare _ h := nomatch h

theorem Orderly.cons (h : Orderly ts) (hfill : t.isEmpty = false)
    (hbare : parenthesisFault? t = none) (hnil : ts = [] → t.isOperand = true)
    (hhead : ∀ u ∈ ts.head?, clash t u = false) : Orderly (t :: ts) := by
  refine ⟨List.forall_mem_cons.mpr ⟨hfill, h.filled⟩, ?_, ?_,
    List.forall_mem_cons.mpr ⟨hbare, h.bare⟩⟩
  · cases ts with
    | nil =>
        intro u hu
        cases hu
        exact hnil rfl
    | cons u us =>
        intro w hw
        rw [List.getLast?_cons_cons] at hw
        exact h.last w hw
  · cases ts with
    | nil => rfl
    | cons u us => exact firstPair?_cons_cons.mpr ⟨hhead u rfl, h.apart⟩

/-- Behind an operand, whatever does not clash with it is a connective. -/
theorem clash_operand {x : String} {u : Token} (ht : t.kind = .operand x)
    (hu : u.isEmpty = false) : clash t u = false ↔ u.isBinary = true := by
  obtain ⟨hop, hun, hbin, -⟩ := Token.flags_of_operand ht
  rcases u.kind_cases with ⟨y, hk⟩ | hk | ⟨c, hk⟩ | hk
  · simp [clash, hop, hun, hbin, Token.flags_of_operand hk]
  · simp [clash, hop, hun, hbin, Token.flags_of_negation hk]
  · simp [clash, hop, hun, hbin, Token.flags_of_connective hk]
  · rw [Token.isEmpty_iff.mpr hk] at hu
    cases hu

theorem clash_operator {op : Operator} {u : Token} (ht : t.kind = .operator op) :
    clash t u = false ↔ u.isBinary = false := by
  cases op with
  | not => simp [clash, Token.flags_of_negation ht]
  | binary c => simp [clash, Token.flags_of_connective ht]

theorem parenthesisFault?_operand {x : String} (ht : t.kind = .operand x) :
    parenthesisFault? t = none := by
  simp [parenthesisFault?, Token.flags_of_operand ht]

theorem parenthesisFault?_negation (ht : t.kind = .operator .not) :
    parenthesisFault? t = none ↔ t.closing = 0 := by
  simp [parenthesisFault?, Token.flags_of_negation ht]

theorem parenthesisFault?_connective {c : Connective} (ht : t.kind = .operator (.binary c)) :
    parenthesisFault? t = none ↔ t.opening = 0 ∧ t.closing = 0 := by
  simp [parenthesisFault?, Token.flags_of_connective ht, Token.hasParentheses]

theorem starts_argument_cons : Starts .argument (t :: ts) ↔ t.isBinary = false := by
  simp [Starts]

theorem starts_continuation_cons : Starts .continuation (t :: ts) ↔ t.isBinary = true := by
  simp [Starts]

theorem orderly_cons_operand {x : String} (ht : t.kind = .operand x) :
    Orderly (t :: ts) ↔ Orderly ts ∧ Starts .continuation ts := by
  obtain ⟨hop, -, -, hfill⟩ := Token.flags_of_operand ht
  constructor
  · intro h
    cases ts with
    | nil => exact ⟨orderly_nil, fun _ h => nomatch h⟩
    | cons u us =>
        have hu := h.filled u (List.mem_cons_of_mem t List.mem_cons_self)
        refine ⟨h.tail (List.cons_ne_nil u us), starts_continuation_cons.mpr ?_⟩
        exact (clash_operand ht hu).mp (firstPair?_cons_cons.mp h.apart).1
  · rintro ⟨h, hs⟩
    apply h.cons hfill (parenthesisFault?_operand ht) fun _ => hop
    intro u hu
    exact (clash_operand ht (h.filled u (List.mem_of_mem_head? hu))).mpr (hs u hu)

theorem orderly_cons_operator {op : Operator} (ht : t.kind = .operator op) :
    Orderly (t :: ts) ↔ parenthesisFault? t = none ∧ Orderly ts ∧ Starts .argument ts := by
  have hop : t.isOperand = false ∧ t.isEmpty = false := by
    simp [Token.isOperand, Token.isEmpty, ht]
  constructor
  · intro h
    cases ts with
    | nil =>
        have hlast := h.last t rfl
        rw [hop.1] at hlast
        cases hlast
    | cons u us =>
        refine ⟨h.bare t List.mem_cons_self, h.tail (List.cons_ne_nil u us),
          starts_argument_cons.mpr ?_⟩
        exact (clash_operator ht).mp (firstPair?_cons_cons.mp h.apart).1
  · rintro ⟨hbare, h, hne, hs⟩
    apply h.cons hop.2 hbare fun h => absurd h hne
    intro u hu
    exact (clash_operator ht).mpr (hs u hu)

theorem not_orderly_cons_empty (ht : t.kind = .empty) : ¬ Orderly (t :: ts) := by
  intro h
  have hfill := h.filled t List.mem_cons_self
  rw [Token.isEmpty_iff.mpr ht] at hfill
  cases hfill

/-- Tokens are well placed exactly if they are orderly and start as is due. -/
theorem placed_iff (ts : List Token) :
    ∀ {due : Due}, Placed due ts ↔ Orderly ts ∧ Starts due ts := by
  induction ts with
  | nil =>
      intro due
      cases due with
      | argument => simp [Placed, Starts]
      | continuation => exact ⟨fun _ => ⟨orderly_nil, fun _ h => nomatch h⟩, fun _ => trivial⟩
  | cons t ts ih =>
      intro due
      rcases t.kind_cases with ⟨x, hk⟩ | hk | ⟨c, hk⟩ | hk
      · obtain ⟨-, -, hbin, -⟩ := Token.flags_of_operand hk
        rw [orderly_cons_operand hk]
        cases due with
        | argument => simp [Placed, hk, ih, starts_argument_cons, hbin]
        | continuation => simp [Placed, hk, starts_continuation_cons, hbin]
      · obtain ⟨-, -, hbin, -⟩ := Token.flags_of_negation hk
        rw [orderly_cons_operator hk, parenthesisFault?_negation hk]
        cases due with
        | argument => simp [Placed, hk, ih, starts_argument_cons, hbin]
        | continuation => simp [Placed, hk, starts_continuation_cons, hbin]
      · obtain ⟨-, -, hbin, -⟩ := Token.flags_of_connective hk
        rw [orderly_cons_operator hk, parenthesisFault?_connective hk]
        cases due with
        | argument => simp [Placed, hk, starts_argument_cons, hbin]
        | continuation => simp [Placed, hk, ih, starts_continuation_cons, hbin]
      · cases due <;> simp [Placed, hk, not_orderly_cons_empty hk]

end Validation

/-- The rules are kept exactly if no token is empty and the symbols of the tokens
can be read. -/
theorem rejection?_eq_none_iff {ts : List Token} :
    rejection? ts = none ↔
      (∀ t ∈ ts, t.isEmpty = false) ∧ Reads .argument 0 (Token.symbolsOf ts) := by
  rw [rejection?_eq_none_iff_orderly]
  constructor
  · rintro ⟨hbal, ho, hs⟩
    refine ⟨ho.filled, ?_⟩
    rw [reads_symbolsOf_iff ho.filled]
    exact ⟨(Validation.placed_iff ts).mpr ⟨ho, hs⟩, hbal⟩
  · rintro ⟨hfill, hr⟩
    rw [reads_symbolsOf_iff hfill] at hr
    exact ⟨hr.2, (Validation.placed_iff ts).mp hr.1⟩

end Clausal
