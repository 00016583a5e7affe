/-
# Redundant parentheses

One more pair of parentheses round the words of a part of a tree changes nothing:
the tokens keep the rules, and have the same tree with the same origins
(`Formula.ofTokens_parenthesize`).  The part may be any node, an operand or the whole
tree among them, and its words may bear parentheses already.

The proof goes through the grammar and not through the builder.

  * The tokens of a part stand side by side, and their symbols are an expression with
    groups opened in front of it and closed behind it by other parts.  The pair round
    these tokens is a group round that expression, so the symbols of the whole derive
    the same tree as before (`regroups_of_fill`).
  * Writing the parentheses onto the first and the last word puts them where the
    symbols need them, since no word consists of parentheses alone
    (`ofWord_parenthesize`).
  * The tree that is built of the new words is alike to the old one.  As every node
    of either says where it is, and the nodes are as many as before, the origins are
    the same too (`Formula.eq_of_located`).
-/
import Clausal.Proofs.Contexts
import Clausal.Proofs.Reading
import Clausal.Proofs.Traversal

namespace Clausal

/-! ## The place of a part

Nodes are counted in order, the left argument before its connective, since so they
stand in the text: an operand or an operator is one token, and the nodes of a part are
the tokens of a range.  A node that says where it is has the position at which it comes
in that order. -/

namespace Formula

/-- The number of nodes. -/
def size : Formula → Nat
  | .operand _ _ => 1
  | .not f _ => f.size + 1
  | .binary _ f g _ => f.size + (g.size + 1)

theorem size_pos (f : Formula) : 0 < f.size := by
  cases f <;> exact Nat.succ_pos _

@[simp] theorem size_bare (f : Formula) : f.bare.size = f.size := by
  induction f with
  | operand => rfl
  | not f _ ih => exact congrArg (· + 1) ih
  | binary op f g _ ihf ihg =>
      show f.bare.size + (g.bare.size + 1) = f.size + (g.size + 1)
      rw [ihf, ihg]

theorem length_inorder (f : Formula) : ∀ d, (f.inorder d).length = f.size := by
  induction f with
  | operand =>
      intro d
      rfl
  | not f _ ih =>
      intro d
      exact congrArg (· + 1) (ih (d + 1))
  | binary op f g _ ihf ihg =>
      intro d
      rw [inorder, List.length_append, List.length_cons, ihf, ihg, size]

/-- The positions that the nodes say they have, in order. -/
def positions (f : Formula) : List Nat :=
  ((f.inorder 0).map Visit.origin).filterMap (Option.map Origin.position)

theorem map_origin_inorder (f : Formula) :
    ∀ d e, (f.inorder d).map Visit.origin = (f.inorder e).map Visit.origin := by
  induction f with
  | operand =>
      intro d e
      rfl
  | not f o ih =>
      intro d e
      exact congrArg (o :: ·) (ih (d + 1) (e + 1))
  | binary op f g o ihf ihg =>
      intro d e
      simp only [inorder, List.map_append, List.map_cons, ihf (d + 1) (e + 1),
        ihg (d + 1) (e + 1)]

theorem map_depth_inorder_bare (f : Formula) :
    ∀ d, (f.bare.inorder d).map Visit.depth = (f.inorder d).map Visit.depth := by
  induction f with
  | operand =>
      intro d
      rfl
  | not f o ih =>
      intro d
      exact congrArg (d :: ·) (ih (d + 1))
  | binary op f g o ihf ihg =>
      intro d
      simp only [bare, join, inorder, List.map_append, List.map_cons, ihf, ihg]

/-- A formula is what it says and the origins of its nodes in order. -/
theorem eq_of_alike_of_origins {f : Formula} :
    ∀ {g : Formula} {d : Nat}, f.Alike g →
      (f.inorder d).map Visit.origin = (g.inorder d).map Visit.origin → f = g := by
  induction f with
  | operand x o =>
      intro g d h ho
      cases g with
      | operand y o' =>
          cases h
          cases ho
          rfl
      | not | binary => cases h
  | not f o ih =>
      intro g d h ho
      cases g with
      | not g o' =>
          obtain ⟨hroot, hrest⟩ := List.cons.inj ho
          have hfg : f.Alike g := (Formula.not.inj h).1
          rw [ih hfg hrest]
          exact congrArg _ hroot
      | operand | binary => cases h
  | binary op f g o ihf ihg =>
      intro k d h ho
      cases k with
      | binary op' f' g' o' =>
          obtain ⟨rfl, hf, hg, -⟩ := Formula.binary.inj h
          have hlen : ((f.inorder (d + 1)).map Visit.origin).length =
              ((f'.inorder (d + 1)).map Visit.origin).length := by
            rw [List.length_map, List.length_map, length_inorder, length_inorder, ← size_bare,
              hf, size_bare]
          simp only [inorder, List.map_append, List.map_cons] at ho
          obtain ⟨hleft, hrest⟩ := List.append_inj ho hlen
          obtain ⟨hroot, hright⟩ := List.cons.inj hrest
          rw [ihf hf hleft, ihg hg hright]
          exact congrArg _ hroot
      | operand | not => cases h

/-- Formulas whose nodes say where they are differ only in what they say. -/
theorem eq_of_located {f g : Formula} (hf : f.Located) (hg : g.Located) (h : f.Alike g) :
    f = g := by
  have hdepth : (f.inorder 0).map Visit.depth = (g.inorder 0).map Visit.depth := by
    rw [← map_depth_inorder_bare, h, map_depth_inorder_bare]
  refine eq_of_alike_of_origins (d := 0) h ?_
  rw [hf, hg, hdepth]

end Formula

namespace Context

/-- The number of nodes before the hole. -/
def before : Context → Nat
  | .hole => 0
  | .not c _ => c.before + 1
  | .left _ c _ _ => c.before
  | .right _ f c _ => f.size + (c.before + 1)

theorem inorder_fill (c : Context) (g : Formula) :
    ∀ d, ∃ e l r, (c.fill g).inorder d = l ++ (g.inorder e ++ r) ∧ l.length = c.before := by
  induction c with
  | hole =>
      intro d
      exact ⟨d, [], [], (List.append_nil _).symm, rfl⟩
  | not c o ih =>
      intro d
      obtain ⟨e, l, r, h, hl⟩ := ih (d + 1)
      refine ⟨e, ⟨.operator .not, d, o⟩ :: l, r, ?_, congrArg (· + 1) hl⟩
      rw [fill, Formula.inorder, h]
      rfl
  | left op c k o ih =>
      intro d
      obtain ⟨e, l, r, h, hl⟩ := ih (d + 1)
      refine ⟨e, l, r ++ ⟨.operator (.binary op), d, o⟩ :: k.inorder (d + 1), ?_, hl⟩
      rw [fill, Formula.inorder, h, List.append_assoc, List.append_assoc]
  | right op k c o ih =>
      intro d
      obtain ⟨e, l, r, h, hl⟩ := ih (d + 1)
      refine ⟨e, k.inorder (d + 1) ++ ⟨.operator (.binary op), d, o⟩ :: l, r, ?_, ?_⟩
      · rw [fill, Formula.inorder, h, List.append_assoc]
        rfl
      · rw [List.length_append, List.length_cons, Formula.length_inorder, hl, before]

end Context

theorem positions_mapIdx (ds : List Nat) :
    ∀ n, (ds.mapIdx fun i d => some (Origin.mk d (i + n))).filterMap (Option.map Origin.position) =
      List.range' n ds.length := by
  induction ds with
  | nil =>
      intro n
      rfl
  | cons d ds ih =>
      intro n
      have hshift : (fun i d => some (Origin.mk d (i + 1 + n))) =
          fun i d => some (Origin.mk d (i + (n + 1))) := by
        funext i d
        rw [Nat.add_right_comm, Nat.add_assoc]
      rw [List.mapIdx_cons, hshift, List.filterMap_cons, ih, List.length_cons, List.range'_succ]
      simp

/-- The nodes of a part of a formula have the positions of a range. -/
theorem Formula.positions_of_fill {c : Context} {g : Formula} (h : (c.fill g).Located) :
    g.positions = List.range' c.before g.size := by
  obtain ⟨e, l, r, hfill, hl⟩ := c.inorder_fill g 0
  rw [Located, hfill, List.map_append, List.map_append, List.map_append, List.map_append,
    List.mapIdx_append, List.mapIdx_append, List.length_map, hl] at h
  have hrest := (List.append_inj h (by simp)).2
  have hpart := (List.append_inj hrest (by simp)).1
  rw [positions, map_origin_inorder g 0 e, hpart, positions_mapIdx, List.length_map,
    length_inorder]

/-! ## A group round a part

The induction is on the derivation, with the context of the part: a step that joins
expressions has the hole in one of them, and the tokens of the other are before or
behind the part.  `i` and `j` are the groups that other parts open and close at the
ends of the tokens at hand; a group of the whole takes one of each. -/

theorem level_le_five {p : Nat} {s : List Symbol} {f : Formula} (h : Derives p s f) : p ≤ 5 := by
  induction h with
  | tighter hp _ _ => exact Nat.le_of_lt hp
  | binary hc _ _ _ _ => exact Nat.le_of_lt (level_lt_five hc)
  | not | group | operand => exact Nat.le_refl 5

theorem length_words_of_derives {p : Nat} {s : List Symbol} {f : Formula} (h : Derives p s f) :
    (s.filter Symbol.isWord).length = f.size := by
  induction h with
  | tighter _ _ ih => exact ih
  | binary _ _ _ ih ih' =>
      rw [List.filter_append, List.length_append, ih]
      exact congrArg (_ + ·) (congrArg (· + 1) ih')
  | not _ ih => exact congrArg (· + 1) ih
  | group _ ih =>
      rw [List.filter_cons_of_neg (by simp [Symbol.isWord]), List.filter_append]
      simpa [Symbol.isWord] using ih
  | operand => rfl

theorem symbols_operator {t : Token} {op : Operator} {i : Nat} (hk : t.kind = .operator op)
    (hopening : t.opening = i) (hclosing : t.closing = 0) :
    t.symbols = List.replicate i .opening ++ [.operator op] := by
  simp only [Token.symbols, Token.core, hk, hopening, hclosing]
  rfl

/-- The tokens fall into `k` before a part, `n` of the part, and others behind it.
With one more pair of parentheses round the part they are still an expression with
the tree, with `i` groups opened in front of it and `j` closed behind it. -/
def Regroups (p i j : Nat) (f : Formula) (k n : Nat) (ts : List Token) : Prop :=
  ∃ before part after s, ts = before ++ (part ++ after) ∧ before.length = k ∧ part.length = n ∧
    Derives p s f ∧
    Token.symbolsOf before ++ .opening :: (Token.symbolsOf part ++
        .closing :: Token.symbolsOf after) =
      List.replicate i .opening ++ (s ++ List.replicate j .closing)

variable {p : Nat} {s : List Symbol} {f : Formula}

/-- An expression has as many tokens as its tree has nodes. -/
theorem length_tokens_of_derives {i j : Nat} {ts : List Token} (h : Derives p s f)
    (hts : ∀ t ∈ ts, t.isEmpty = false)
    (hs : Token.symbolsOf ts = List.replicate i .opening ++ (s ++ List.replicate j .closing)) :
    ts.length = f.size := by
  rw [← length_filter_isWord hts, ← length_words_of_derives h, hs, List.filter_append,
    List.filter_append, filter_isWord_replicate .opening, filter_isWord_replicate .closing,
    List.nil_append, List.append_nil]

/-- The part may be all of the tree: the parentheses go round a group or make one. -/
theorem regroups_whole {i j : Nat} {ts : List Token} (h : Derives p s f)
    (hts : ∀ t ∈ ts, t.isEmpty = false)
    (hs : Token.symbolsOf ts = List.replicate i .opening ++ (s ++ List.replicate j .closing)) :
    Regroups p i j f 0 f.size ts := by
  have hgroup : Derives p (.opening :: (s ++ [.closing])) f :=
    (Derives.group (h.loosen (Nat.zero_le p) (level_le_five h))).loosen (level_le_five h)
      (Nat.le_refl 5)
  refine ⟨[], ts, [], _, (List.append_nil ts).symm, rfl, length_tokens_of_derives h hts hs,
    hgroup, ?_⟩
  show .opening :: (Token.symbolsOf ts ++ [.closing]) = _
  rw [Formula.openings_group_closings, hs, List.replicate_succ, List.replicate_succ']
  simp

namespace Regroups

variable {i j k n : Nat} {ts front back : List Token} {t : Token} {c : Connective}
  {s' : List Symbol} {f' : Formula}

theorem tighter (hp : p < 5) (h : Regroups (p + 1) i j f k n ts) : Regroups p i j f k n ts := by
  obtain ⟨before, part, after, r, htok, hb, hpart, hd, hr⟩ := h
  exact ⟨before, part, after, r, htok, hb, hpart, .tighter hp hd, hr⟩

theorem group (h : Regroups 0 (i + 1) (j + 1) f k n ts) : Regroups 5 i j f k n ts := by
  obtain ⟨before, part, after, r, htok, hb, hpart, hd, hr⟩ := h
  refine ⟨before, part, after, _, htok, hb, hpart, .group hd, ?_⟩
  rw [hr, Formula.openings_group_closings]

theorem not (ht : t.symbols = List.replicate i .opening ++ [.operator .not])
    (h : Regroups 5 0 j f k n ts) : Regroups 5 i j (.neg f) (k + 1) n (t :: ts) := by
  obtain ⟨before, part, after, r, rfl, hb, hpart, hd, hr⟩ := h
  refine ⟨t :: before, part, after, _, rfl, congrArg (· + 1) hb, hpart, .not hd, ?_⟩
  rw [Token.symbolsOf_cons, List.append_assoc, hr, ht]
  simp

theorem left (hc : c ∈ connectivesOf p) (ht : t.symbols = [.operator (.binary c)])
    (h' : Derives p s' f')
    (hback : Token.symbolsOf back = s' ++ List.replicate j .closing)
    (h : Regroups (p + 1) i 0 f k n front) :
    Regroups p i j (.join c f f') k n (front ++ t :: back) := by
  obtain ⟨before, part, after, r, rfl, hb, hpart, hd, hr⟩ := h
  refine ⟨before, part, after ++ t :: back, _, by simp, hb, hpart, .binary hc hd h', ?_⟩
  have hjoint := congrArg (· ++ Token.symbolsOf (t :: back)) hr
  rw [Token.symbolsOf_append]
  simpa [Token.symbolsOf_cons, ht, hback] using hjoint

theorem right (hc : c ∈ connectivesOf p) (ht : t.symbols = [.operator (.binary c)])
    (h : Derives (p + 1) s f)
    (hfront : Token.symbolsOf front = List.replicate i .opening ++ s)
    (h' : Regroups p 0 j f' k n back) :
    Regroups p i j (.join c f f') (front.length + (k + 1)) n (front ++ t :: back) := by
  obtain ⟨before, part, after, r, rfl, hb, hpart, hd, hr⟩ := h'
  refine ⟨front ++ t :: before, part, after, _, by simp, ?_, hpart, .binary hc h hd, ?_⟩
  · rw [List.length_append, List.length_cons, hb]
  · have hjoint := congrArg (Token.symbolsOf front ++ t.symbols ++ ·) hr
    rw [Token.symbolsOf_append, Token.symbolsOf_cons]
    simpa [ht, hfront] using hjoint

end Regroups

/-- Whatever the part, one more pair of parentheses may go round its tokens. -/
theorem regroups_of_fill (h : Derives p s f) :
    ∀ {ts : List Token} {i j : Nat} {c : Context} {g : Formula},
      (∀ t ∈ ts, t.isEmpty = false) →
      Token.symbolsOf ts = List.replicate i .opening ++ (s ++ List.replicate j .closing) →
      c.fill g = f → Regroups p i j f c.before g.size ts := by
  -- on the derivation: what it joins is what the context may have the hole in
  induction h with
  | tighter hp _ ih =>
      intro ts i j c g hts hs hc
      exact (ih hts hs hc).tighter hp
  | group _ ih =>
      intro ts i j c g hts hs hc
      rw [Formula.openings_group_closings] at hs
      exact (ih hts hs hc).group
  | operand x =>
      intro ts i j c g hts hs hc
      match c, hc with
      | .hole, hc =>
          cases hc
          exact regroups_whole (.operand x) hts hs
  | @not s f h ih =>
      intro ts i j c g hts hs hc
      match c, hc with
      | .hole, hc =>
          cases hc
          exact regroups_whole (.not h) hts hs
      | .not c o, hc =>
          obtain ⟨t, rest, rfl, hk, hopening, hclosing, hrest⟩ :=
            Formula.exists_tokens_of_not h hts hs
          exact (ih (i := 0) (fun u hu => hts u (List.mem_cons_of_mem t hu)) hrest
            (Formula.not.inj hc).1).not (symbols_operator hk hopening hclosing)
  | @binary p op s s' f f' hop h h' ih ih' =>
      intro ts i j c g hts hs hc
      match c, hc with
      | .hole, hc =>
          cases hc
          exact regroups_whole (.binary hop h h') hts hs
      | .left _ c k o, hc =>
          obtain ⟨front, t, back, rfl, hk, hopening, hclosing, hfront, hback⟩ :=
            Formula.exists_tokens_of_binary h h' hs
          have hts' : ∀ u ∈ front, u.isEmpty = false := fun u hu =>
            hts u (List.mem_append_left _ hu)
          exact (ih (i := i) (j := 0) hts' (by simpa using hfront)
            (Formula.binary.inj hc).2.1).left hop (symbols_operator hk hopening hclosing) h' hback
      | .right _ k c o, hc =>
          obtain ⟨front, t, back, rfl, hk, hopening, hclosing, hfront, hback⟩ :=
            Formula.exists_tokens_of_binary h h' hs
          have hlen : front.length = k.size := by
            rw [(Formula.binary.inj hc).2.1]
            exact length_tokens_of_derives (j := 0) h
              (fun u hu => hts u (List.mem_append_left _ hu)) (by simpa using hfront)
          have hts' : ∀ u ∈ back, u.isEmpty = false := fun u hu =>
            hts u (List.mem_append_right _ (List.mem_cons_of_mem t hu))
          rw [Context.before, ← hlen]
          exact (ih' (i := 0) hts' hback (Formula.binary.inj hc).2.2.1).right hop
            (symbols_operator hk hopening hclosing) h hfront

/-! ## Words with parentheses

The word on the right of a pair may be the one on its left, so the parenthesis in front
is written first, and the one behind onto the list that this gives. -/

/-- One more parenthesis opens in front of word `i`, and one more closes behind word
`j - 1`. -/
def parenthesize (i j : Nat) (ws : List String) : List String :=
  (ws.modify i ("(" ++ ·)).modify (j - 1) (· ++ ")")

/-- A word with one more parenthesis of a side. -/
def Side.write : Side → String → String
  | .opening, w => "(" ++ w
  | .closing, w => w ++ ")"

/-- Symbols with one more parenthesis of a side. -/
def Side.enclose : Side → List Symbol → List Symbol
  | .opening, s => .opening :: s
  | .closing, s => s ++ [.closing]

namespace Token

/-- A token with one more parenthesis of a side. -/
def attach : Side → Token → Token
  | .opening, t => { t with word := "(" ++ t.word, opening := t.opening + 1 }
  | .closing, t => { t with word := t.word ++ ")", closing := t.closing + 1 }

theorem isEmpty_attach (side : Side) (t : Token) : (t.attach side).isEmpty = t.isEmpty := by
  cases side <;> rfl

theorem symbols_attach (side : Side) (t : Token) :
    (t.attach side).symbols = side.enclose t.symbols := by
  cases side with
  | opening => rfl
  | closing =>
      simp only [attach, symbols, core, Side.enclose, List.replicate_succ', List.append_assoc]

theorem symbols_moved (t : Token) (i : Nat) :
    symbols { t with position := i } = t.symbols := rfl

theorem classify_moved (v : Vocabulary) (i : Nat) (w : String) :
    classify v i w = { classify v 0 w with position := i } := by
  simp only [classify]

/-- A word of parentheses alone would count the one that closes with those that open
before. -/
theorem classify_write {v : Vocabulary} {i : Nat} {w : String} (side : Side)
    (h : (classify v i w).isEmpty = false) :
    classify v i (side.write w) = (classify v i w).attach side := by
  have hrest : w.toList.dropWhile (· == '(') ≠ [] := by
    intro hnil
    simp [isEmpty, classify, kindOf, hnil] at h
  have hfront : (w.toList.takeWhile (· == '(')).length ≠ w.toList.length := by
    intro hlen
    have hall := congrArg List.length
      (List.takeWhile_append_dropWhile (p := (· == '(')) (l := w.toList))
    rw [List.length_append, hlen] at hall
    exact hrest (List.eq_nil_of_length_eq_zero (by omega))
  cases side with
  | opening => simp [classify, attach, Side.write]
  | closing =>
      simp [classify, attach, Side.write, List.takeWhile_append, List.dropWhile_append, hrest,
        hfront]

theorem isEmpty_classify_write {v : Vocabulary} {i : Nat} {w : String} (side : Side)
    (h : (classify v i w).isEmpty = false) : (classify v i (side.write w)).isEmpty = false := by
  rw [classify_write side h, isEmpty_attach, h]

/-! ### The symbols of words

A token has its symbols whatever its position, so symbols can be spoken of for words. -/

/-- The symbols of a word, wherever it stands. -/
def ofWord (v : Vocabulary) (w : String) : List Symbol := (classify v 0 w).symbols

theorem symbols_eq_ofWord (v : Vocabulary) (i : Nat) (w : String) :
    (classify v i w).symbols = ofWord v w := by
  rw [classify_moved, symbols_moved, ofWord]

theorem ofWord_write {v : Vocabulary} {w : String} (side : Side)
    (h : (classify v 0 w).isEmpty = false) :
    ofWord v (side.write w) = side.enclose (ofWord v w) := by
  rw [ofWord, classify_write side h, symbols_attach, ofWord]

theorem map_symbols_classifyAll (v : Vocabulary) (ws : List String) :
    (classifyAll v ws).map symbols = ws.map (ofWord v) := by
  refine List.ext_getElem (by simp [classifyAll]) fun i hi _ => ?_
  simp only [classifyAll, List.getElem_map, List.getElem_mapIdx, symbols_eq_ofWord]

theorem symbolsOf_classifyAll (v : Vocabulary) (ws : List String) :
    symbolsOf (classifyAll v ws) = ws.flatMap (ofWord v) := by
  rw [symbolsOf, List.flatMap_def, map_symbols_classifyAll, ← List.flatMap_def]

theorem forall_isEmpty_classifyAll {v : Vocabulary} {ws : List String} :
    (∀ t ∈ classifyAll v ws, t.isEmpty = false) ↔
      ∀ w ∈ ws, (classify v 0 w).isEmpty = false := by
  constructor
  · intro h w hw
    obtain ⟨i, hi, rfl⟩ := List.getElem_of_mem hw
    exact h (classify v i ws[i]) (List.mem_mapIdx.mpr ⟨i, hi, rfl⟩)
  · intro h t ht
    obtain ⟨i, hi, rfl⟩ := List.mem_mapIdx.mp ht
    exact h ws[i] (List.getElem_mem hi)

end Token

theorem modify_append_cons {α : Type} (f : α → α) (l r : List α) (a : α) :
    (l ++ a :: r).modify l.length f = l ++ f a :: r := by
  induction l with
  | nil => rfl
  | cons b l ih => simp [ih]

theorem parenthesize_append {w u : String} {l m r front : List String}
    (hfront : ("(" ++ w) :: m = front ++ [u]) :
    parenthesize l.length (l.length + (w :: m).length) (l ++ (w :: m ++ r)) =
      (l ++ front) ++ (u ++ ")") :: r := by
  have hopen : (l ++ (w :: m ++ r)).modify l.length ("(" ++ ·) =
      l ++ (("(" ++ w) :: m ++ r) := modify_append_cons _ l (m ++ r) w
  have hlast : l.length + (w :: m).length - 1 = (l ++ front).length := by
    have hlen := congrArg List.length hfront
    rw [List.length_append] at hlen
    simp only [List.length_cons, List.length_nil] at hlen
    simp only [List.length_append, List.length_cons]
    omega
  have hwords : l ++ (("(" ++ w) :: m ++ r) = (l ++ front) ++ u :: r := by
    rw [hfront]
    simp
  rw [parenthesize, hopen, hwords, hlast, modify_append_cons]

open Token in
/-- The parentheses stand round the symbols of the words between them, and no word
becomes one of parentheses alone. -/
theorem ofWord_parenthesize {v : Vocabulary} {l m r : List String} (hm : m ≠ [])
    (hne : ∀ w ∈ l ++ (m ++ r), (classify v 0 w).isEmpty = false) :
    (parenthesize l.length (l.length + m.length) (l ++ (m ++ r))).flatMap (ofWord v) =
        l.flatMap (ofWord v) ++ .opening :: (m.flatMap (ofWord v) ++
          .closing :: r.flatMap (ofWord v)) ∧
      ∀ w ∈ parenthesize l.length (l.length + m.length) (l ++ (m ++ r)),
        (classify v 0 w).isEmpty = false := by
  obtain ⟨w, m, rfl⟩ := List.exists_cons_of_ne_nil hm
  obtain ⟨front, u, hfront⟩ : ∃ front u, ("(" ++ w) :: m = front ++ [u] :=
    ⟨_, _, (List.dropLast_append_getLast (List.cons_ne_nil _ m)).symm⟩
  have hbetween : ∀ x ∈ front ++ [u], (classify v 0 x).isEmpty = false := by
    rw [← hfront]
    intro x hx
    rcases List.mem_cons.mp hx with rfl | hx
    · exact isEmpty_classify_write .opening (hne w (by simp))
    · exact hne x (by simp [hx])
  have hu : (classify v 0 u).isEmpty = false := hbetween u (by simp)
  have hsymbols : front.flatMap (ofWord v) ++ ofWord v u =
      .opening :: (w :: m).flatMap (ofWord v) := by
    have hopened : ofWord v ("(" ++ w) = .opening :: ofWord v w :=
      ofWord_write .opening (hne w (by simp))
    have hflat := congrArg (List.flatMap (ofWord v)) hfront
    rw [List.flatMap_append, List.flatMap_singleton, List.flatMap_cons, hopened] at hflat
    exact hflat.symm
  rw [parenthesize_append hfront]
  constructor
  · have hclosed : ofWord v (u ++ ")") = ofWord v u ++ [.closing] := ofWord_write .closing hu
    rw [List.flatMap_append, List.flatMap_append, List.flatMap_cons, hclosed]
    simpa using congrArg (l.flatMap (ofWord v) ++ · ++ .closing :: r.flatMap (ofWord v)) hsymbols
  · intro x hx
    rcases List.mem_append.mp hx with hx | hx
    · rcases List.mem_append.mp hx with hx | hx
      · exact hne x (List.mem_append_left _ hx)
      · exact hbetween x (List.mem_append_left _ hx)
    · rcases List.mem_cons.mp hx with rfl | hx
      · exact isEmpty_classify_write .closing hu
      · exact hne x (List.mem_append_right _ (List.mem_append_right _ hx))

/-! ## The same tree

The tree of a derivation has no origins, so the part is looked for in the bare formula,
where it has the same place. -/

theorem Context.exists_fill_bare (c : Context) (g : Formula) :
    ∃ c' : Context, c'.fill g.bare = (c.fill g).bare ∧ c'.before = c.before := by
  induction c with
  | hole => exact ⟨.hole, rfl, rfl⟩
  | not c o ih =>
      obtain ⟨c', hc, hb⟩ := ih
      exact ⟨.not c' none, congrArg Formula.neg hc, congrArg (· + 1) hb⟩
  | left op c k o ih =>
      obtain ⟨c', hc, hb⟩ := ih
      exact ⟨.left op c' k.bare none, congrArg (Formula.join op · k.bare) hc, hb⟩
  | right op k c o ih =>
      obtain ⟨c', hc, hb⟩ := ih
      refine ⟨.right op k.bare c' none, congrArg (Formula.join op k.bare) hc, ?_⟩
      rw [before, before, hb, Formula.size_bare]

open Token in
/-- With parentheses round the words of a part, words of an expression are still words
of an expression with the tree. -/
theorem derives_parenthesize {v : Vocabulary} {ws : List String} {c : Context} {g : Formula}
    (h : Derives 0 (symbolsOf (classifyAll v ws)) (c.fill g).bare)
    (hts : ∀ t ∈ classifyAll v ws, t.isEmpty = false) :
    c.before + g.size ≤ ws.length ∧
      (∀ t ∈ classifyAll v (parenthesize c.before (c.before + g.size) ws), t.isEmpty = false) ∧
      Derives 0 (symbolsOf (classifyAll v (parenthesize c.before (c.before + g.size) ws)))
        (c.fill g).bare := by
  obtain ⟨c', hc, hb⟩ := c.exists_fill_bare g
  obtain ⟨before, part, after, s, htok, hbefore, hpart, hd, hs⟩ :=
    regroups_of_fill h (i := 0) (j := 0) hts (by simp) hc
  have hsymbols : ws.map (ofWord v) =
      before.map symbols ++ (part.map symbols ++ after.map symbols) := by
    rw [← map_symbols_classifyAll, htok, List.map_append, List.map_append]
  obtain ⟨l, rest, rfl, hl, hrest⟩ := List.map_eq_append_iff.mp hsymbols
  obtain ⟨m, r, rfl, hm, hr⟩ := List.map_eq_append_iff.mp hrest
  have hlength : l.length = c.before ∧ m.length = g.size := by
    have hl := congrArg List.length hl
    have hm := congrArg List.length hm
    rw [List.length_map, List.length_map] at hl hm
    exact ⟨by rw [hl, hbefore, hb], by rw [hm, hpart, Formula.size_bare]⟩
  have hne : m ≠ [] := by
    intro hnil
    have := g.size_pos
    rw [← hlength.2, hnil] at this
    exact Nat.lt_irrefl 0 this
  obtain ⟨hparen, hwords⟩ := ofWord_parenthesize hne (forall_isEmpty_classifyAll.mp hts)
  rw [← hlength.1, ← hlength.2]
  refine ⟨?_, forall_isEmpty_classifyAll.mpr hwords, ?_⟩
  · rw [List.length_append, List.length_append]
    omega
  · rw [symbolsOf_classifyAll, hparen, List.flatMap_def, List.flatMap_def, List.flatMap_def, hl,
      hm, hr, ← List.flatMap_def, ← List.flatMap_def, ← List.flatMap_def]
    have hs : symbolsOf before ++ .opening :: (symbolsOf part ++ .closing :: symbolsOf after) =
        s := by simpa using hs
    exact hs ▸ hd

namespace Formula

/-- Of words whose tokens keep the rules a tree is built, and for every node of it the
tokens of what is below it are those from some `i` on and before some `j`.  With
parentheses round these words the tokens keep the rules too, and have the same tree
with the same origins. -/
theorem ofTokens_parenthesize {v : Vocabulary} {ws : List String}
    (h : (validate (Token.classifyAll v ws)).outcome = .ok ()) :
    ∃ f, (ofTokens (Token.classifyAll v ws)).outcome = .ok f ∧
      ∀ g ∈ f.subformulas, ∃ i j, i < j ∧ j ≤ ws.length ∧ g.positions = List.range' i (j - i) ∧
        (validate (Token.classifyAll v (parenthesize i j ws))).outcome = .ok () ∧
        (ofTokens (Token.classifyAll v (parenthesize i j ws))).outcome = .ok f := by
  have located : ∀ {us : List String} {k : Formula},
      (ofTokens (Token.classifyAll v us)).outcome = .ok k → k.Located := by
    intro us k hk
    exact (located_of_ofTokens (Token.positions_classifyAll v us) hk).2
  have hrules : rejection? (Token.classifyAll v ws) = none := outcome_validate_eq_ok.mp h
  obtain ⟨f, hf, hd⟩ := exists_ofTokens_of_rejection? hrules
  refine ⟨f, hf, fun g hg => ?_⟩
  obtain ⟨c, rfl⟩ := mem_subformulas_iff_fill.mp hg
  obtain ⟨hle, hfilled, hd'⟩ := derives_parenthesize hd (rejection?_eq_none_iff.mp hrules).1
  have hrules' : rejection? _ = none :=
    rejection?_eq_none_iff.mpr ⟨hfilled, reads_of_derives hd'⟩
  obtain ⟨k, hk, hbare⟩ := ofTokens_of_derives hfilled hd'
  have hsame : k = c.fill g := eq_of_located (located hk) (located hf) hbare
  refine ⟨c.before, c.before + g.size, Nat.lt_add_of_pos_right g.size_pos, hle, ?_,
    outcome_validate_eq_ok.mpr hrules', hsame ▸ hk⟩
  rw [Nat.add_sub_cancel_left]
  exact positions_of_fill (located hf)

/-- A group in front of a connective, and a negation of an operand, behind it: every
node may be put in parentheses, the negation and what it negates among them. -/
theorem ofTokens_parenthesize_group_negation :
    let ws := ["(a", "AND", "b)", "or", "not", "c"]
    let f : Formula :=
      .binary .or
        (.binary .and (.operand "a" (some ⟨2, 0⟩)) (.operand "b" (some ⟨2, 2⟩)) (some ⟨1, 1⟩))
        (.not (.operand "c" (some ⟨2, 5⟩)) (some ⟨1, 4⟩)) (some ⟨0, 3⟩)
    (validate (Token.classifyAll .standard ws)).outcome = .ok () ∧
      (ofTokens (Token.classifyAll .standard ws)).outcome = .ok f ∧
      ∀ g ∈ f.subformulas, ∃ i j, i < j ∧ j ≤ ws.length ∧ g.positions = List.range' i (j - i) ∧
        (validate (Token.classifyAll .standard (parenthesize i j ws))).outcome = .ok () ∧
        (ofTokens (Token.classifyAll .standard (parenthesize i j ws))).outcome = .ok f := by
  intro ws f
  have hrules : (validate (Token.classifyAll .standard ws)).outcome = .ok () :=
    outcome_validate_eq_ok.mpr (by decide)
  have hf : (ofTokens (Token.classifyAll .standard ws)).outcome = .ok f := by decide +kernel
  obtain ⟨k, hk, h⟩ := ofTokens_parenthesize hrules
  cases hf.symm.trans hk
  exact ⟨hrules, hf, h⟩

end Formula

end Clausal
