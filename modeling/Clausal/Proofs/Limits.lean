/-
# What the limits measure

The depth of a text is counted on its characters: up at an opening parenthesis, and
down at a closing one unless nothing is open.  The tokens count it word by word,
first all that a word opens and then all that it closes, and come to the same, also
where parentheses do not match (`Token.maxDepth_eq_peak`): between the parentheses of
a word the depth stays, and it is greatest there.

Matching has to be left open, because the limits are looked at before the rules.  In
`))a((b)(` the parentheses that close nothing do not make up for those that are opened
later, and the count that goes below nothing has to stop there.

What a limit is held against is therefore a number of the text itself: its words, and
the greatest depth that is reached behind some of its characters.  A limit that is not
exceeded leaves no trace in what is read (`Parser.parse_eq_unlimited`), so reading with
limits is reading without them, after two comparisons (`parse_within_limits`).
-/
import Clausal.Proofs.Evidence

namespace Clausal

open Piece Text

/-! ## Depth, character by character

`peak` is computed from the front; that it is the greatest depth behind some first
characters is `isGreatest_peak`, and is how it is spoken of later. -/

/-- The number of groups that are open behind a character, `n` being open before it.
A closing parenthesis without a partner closes nothing. -/
def groupsBehind (n : Nat) (c : Char) : Nat :=
  if c = '(' then n + 1 else if c = ')' then n - 1 else n

/-- The number of groups that are open behind the characters. -/
def groupsAfter (n : Nat) (cs : List Char) : Nat := cs.foldl groupsBehind n

/-- The greatest number of groups that are open at once. -/
def peak (n : Nat) : List Char → Nat
  | [] => n
  | c :: cs => max n (peak (groupsBehind n c) cs)

variable {n : Nat} {cs ds : List Char}

/-- It is reached behind some of the characters, and not exceeded behind any. -/
theorem isGreatest_peak (cs : List Char) :
    ∀ n, IsGreatest {k | ∃ ds, ds <+: cs ∧ groupsAfter n ds = k} (peak n cs) := by
  induction cs with
  | nil =>
      intro n
      refine ⟨⟨[], List.prefix_rfl, rfl⟩, ?_⟩
      rintro _ ⟨ds, hds, rfl⟩
      rw [List.prefix_nil.mp hds]
      exact Nat.le_refl n
  | cons c cs ih =>
      intro n
      obtain ⟨⟨es, hes, hpeak⟩, hbound⟩ := ih (groupsBehind n c)
      constructor
      · rcases Nat.le_total (peak (groupsBehind n c) cs) n with h | h
        · exact ⟨[], List.nil_prefix, (Nat.max_eq_left h).symm⟩
        · exact ⟨c :: es, List.prefix_cons_inj c |>.mpr hes,
            hpeak.trans (Nat.max_eq_right h).symm⟩
      · rintro _ ⟨ds, hds, rfl⟩
        rcases List.prefix_cons_iff.mp hds with rfl | ⟨es, rfl, hes⟩
        · exact Nat.le_max_left _ _
        · exact Nat.le_trans (hbound ⟨es, hes, rfl⟩) (Nat.le_max_right _ _)

theorem le_peak (n : Nat) (cs : List Char) : n ≤ peak n cs := by
  cases cs with
  | nil => exact Nat.le_refl n
  | cons c cs => exact Nat.le_max_left _ _

theorem groupsAfter_append : groupsAfter n (cs ++ ds) = groupsAfter (groupsAfter n cs) ds :=
  List.foldl_append

theorem peak_append (cs ds : List Char) :
    ∀ n, peak n (cs ++ ds) = max (peak n cs) (peak (groupsAfter n cs) ds) := by
  induction cs with
  | nil => intro n; exact (Nat.max_eq_right (le_peak n ds)).symm
  | cons c cs ih =>
      intro n
      rw [List.cons_append, peak, ih, ← Nat.max_assoc]
      rfl

theorem groupsBehind_eq_self {c : Char} (h : isParenthesis c = false) : groupsBehind n c = n := by
  rw [isParenthesis, Bool.or_eq_false_iff, beq_eq_false_iff_ne, beq_eq_false_iff_ne] at h
  rw [groupsBehind, if_neg h.1, if_neg h.2]

theorem peak_filter_isParenthesis (cs : List Char) :
    ∀ n, peak n (cs.filter isParenthesis) = peak n cs := by
  induction cs with
  | nil => intro n; rfl
  | cons c cs ih =>
      intro n
      cases hc : isParenthesis c with
      | true => rw [List.filter_cons_of_pos hc, peak, peak, ih]
      | false =>
          rw [List.filter_cons_of_neg (by simp [hc]), peak, groupsBehind_eq_self hc, ih]
          exact (Nat.max_eq_right (le_peak n cs)).symm

/-! ## Depth, word by word

A word is parentheses that open, plain characters, and parentheses that close; on the first
part the depth only rises, on the second it stays, and on the third it only falls.  So its
greatest depth is that between the first and the third part, and this is the depth at which
its token is said to stand. -/

theorem depth_replicate (side : Side) (k : Nat) : ∀ n,
    groupsAfter n (List.replicate k side.char) = side.shift n k ∧
      peak n (List.replicate k side.char) = max n (side.shift n k) := by
  induction k with
  | zero => intro n; cases side <;> exact ⟨rfl, (Nat.max_self n).symm⟩
  | succ k ih =>
      intro n
      have hstep : groupsBehind n side.char = side.shift n 1 := by cases side <;> rfl
      have hshift : side.shift (side.shift n 1) k = side.shift n (k + 1) := by
        cases side <;> simp only [Side.shift] <;> omega
      obtain ⟨hgroups, hpeak⟩ := ih (side.shift n 1)
      rw [List.replicate_succ, peak, groupsAfter, List.foldl_cons, hstep, hpeak, hshift]
      refine ⟨hgroups.trans hshift, ?_⟩
      -- on the way the depth is never greater than at one of the two ends
      cases side <;> simp only [Side.shift] <;> omega

theorem depth_plain (h : ∀ c ∈ cs, isPlain c = true) : groupsAfter n cs = n ∧ peak n cs = n := by
  induction cs with
  | nil => exact ⟨rfl, rfl⟩
  | cons c cs ih =>
      obtain ⟨hc, hcs⟩ := List.forall_mem_cons.mp h
      obtain ⟨hgroups, hpeak⟩ := ih hcs
      have hstep : groupsBehind n c = n := groupsBehind_eq_self (isParenthesis_of_isPlain hc)
      rw [peak, hstep, hpeak, groupsAfter, List.foldl_cons, hstep]
      exact ⟨hgroups, Nat.max_self n⟩

namespace Token

variable {v : Vocabulary} {t : Token}

/-- A word is deepest behind its opening parentheses, and its closing ones count from
its end on. -/
theorem Describes.depth (h : t.Describes v) (n : Nat) :
    groupsAfter n t.word.toList = n + t.opening - t.closing ∧
      peak n t.word.toList = n + t.opening := by
  obtain ⟨core, hw, hplain, -⟩ := h
  obtain ⟨hopened, hopen⟩ := depth_replicate .opening t.opening n
  obtain ⟨hkept, hcore⟩ := depth_plain (n := n + t.opening) hplain
  obtain ⟨hclosed, hclose⟩ := depth_replicate .closing t.closing (n + t.opening)
  rw [hw, groupsAfter_append, groupsAfter_append, peak_append, peak_append, hopened, hopen, hkept,
    hcore, hclosed, hclose]
  refine ⟨rfl, ?_⟩
  -- the depth in between is the greatest of the four that are reached
  simp only [Side.shift]
  omega

theorem foldl_nest_eq_peak {ts : List Token} (h : ∀ t ∈ ts, t.Describes v) :
    ∀ {n m : Nat}, n ≤ m →
      (nest n ts).foldl (fun deepest k => max deepest k.depth) m =
        max m (peak n (joined (ts.map word))) := by
  induction ts with
  | nil =>
      intro n m hnm
      exact (Nat.max_eq_left hnm).symm
  | cons t ts ih =>
      intro n m hnm
      obtain ⟨ht, hts⟩ := List.forall_mem_cons.mp h
      obtain ⟨hgroups, hpeak⟩ := ht.depth n
      have hrest : n + t.opening - t.closing ≤ max m (n + t.opening) := by omega
      rw [nest, List.foldl_cons, ih hts hrest, List.map_cons, joined_cons, peak_append, hgroups,
        hpeak, ← Nat.max_assoc]

/-- The greatest depth of tokens is that of their words, one behind the other. -/
theorem maxDepth_eq_peak {ts : List Token} (h : ∀ t ∈ ts, t.Describes v) :
    maxDepth ts = peak 0 (joined (ts.map word)) := by
  rw [maxDepth, foldl_nest_eq_peak h (Nat.le_refl 0), Nat.zero_max]

end Token

namespace Parser

theorem maxDepth_tokenize (p : Parser) (text : String) :
    Token.maxDepth (p.tokenize text) = peak 0 text.toList := by
  have haccount := p.account_tokenize text
  rw [Token.maxDepth_eq_peak haccount.describes, haccount.written, ← peak_filter_isParenthesis,
    parentheses_words, peak_filter_isParenthesis]

theorem length_tokenize (p : Parser) (text : String) :
    (p.tokenize text).length = (words (normalize text)).length :=
  Token.length_classifyAll _ _

/-! ## Limits

The number of words is looked at first, so a text that exceeds both limits is refused for
its words. -/

/-- Unless a limit is exceeded, a text is read as if there were none. -/
theorem parse_eq_unlimited (p : Parser) (text : String) :
    p.parse text =
      if isAllBlank text then .error .emptyExpression
      else match p.limitRejection? (p.tokenize text) with
        | some reason => .error reason
        | none => ({ vocabulary := p.vocabulary } : Parser).parse text := by
  have htokens : ({ vocabulary := p.vocabulary } : Parser).tokenize text = p.tokenize text := rfl
  have hlimit : ({ vocabulary := p.vocabulary } : Parser).limitRejection? (p.tokenize text) =
    none := rfl
  rw [parse_eq, parse_eq, htokens, hlimit, Option.none_or]
  split
  · rfl
  · cases p.limitRejection? (p.tokenize text) with
    | some reason => rfl
    | none => rfl

/-- A blank text is empty, whatever the limits.  Of another text, the number of words
is held against the first limit and then, against the second one, the greatest number
of groups that are open behind some of its characters.  If neither is exceeded, the
answer is that of the parser without limits. -/
theorem parse_within_limits (v : Vocabulary) (maxTokens maxDepth : Option Nat) (text : String) :
    let count := (words (normalize text)).length
    ∃ depth, IsGreatest {k | ∃ cs, cs <+: text.toList ∧ groupsAfter 0 cs = k} depth ∧
      ({ vocabulary := v, maxTokens, maxDepth } : Parser).parse text =
        if isAllBlank text then .error .emptyExpression
        else match maxTokens.filter (· < count), maxDepth.filter (· < depth) with
          | some limit, _ => .error (.tooComplex .tokenCount count limit)
          | none, some limit => .error (.tooComplex .depth depth limit)
          | none, none => ({ vocabulary := v } : Parser).parse text := by
  intro count
  refine ⟨peak 0 text.toList, isGreatest_peak text.toList 0, ?_⟩
  have hlimits : limitRejection? ⟨v, maxTokens, maxDepth⟩ (tokenize ⟨v, maxTokens, maxDepth⟩ text) =
      ((maxTokens.filter (· < count)).map (.tooComplex .tokenCount count)).or
        ((maxDepth.filter (· < peak 0 text.toList)).map
          (.tooComplex .depth (peak 0 text.toList))) := by
    rw [limitRejection?, maxDepth_tokenize, length_tokenize]
    rfl
  rw [parse_eq_unlimited, hlimits]
  split
  · rfl
  · cases maxTokens.filter (· < count) with
    | some limit => rfl
    | none =>
        cases maxDepth.filter (· < peak 0 text.toList) with
        | some limit => rfl
        | none => rfl

-- What closes nothing does not make up for what is opened later.
example : peak 0 "))a((b)(".toList = 2 ∧ groupsAfter 0 "))a((b)(".toList = 2 := by decide

end Parser

end Clausal
