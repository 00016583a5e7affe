/-
# The compact form tells formulas apart

Brackets are no part of a keyword, nor of a name where names are free of them.  So a
compact form begins with a whole word, and what comes behind the word says which one
it is: an opening bracket follows a keyword, and a closing one, or nothing, a name.
Inside an argument this holds as well as outside.  Hence a compact form determines the
formula also in front of other characters, provided that they begin by closing the
argument (`alike_of_compact_append`), and that is the statement that goes through an
induction; the one on whole texts is the case in which nothing follows.

Names are asked for nothing but to be free of brackets.  They may be empty, or spelled
like a keyword: a name is told from a keyword by what follows it and not by its
letters.  Without that condition the statement fails, and the example at the end of
the module shows how.
-/
import Clausal.Formula.Operands
import Clausal.Formula.Rendering
import Clausal.Proofs.Pieces

namespace Clausal

namespace Formula

/-! ## Words and brackets

A compact form is its first word, `headword`, and what stands behind it, `slots`; the
slots of an operand are empty.  Words without brackets in front of brackets are cut off
in one way only. -/

/-- A character other than a bracket. -/
def isInner (c : Char) : Bool := c != '[' && c != ']'

theorem isInner_iff {c : Char} : isInner c = true ↔ c ≠ '[' ∧ c ≠ ']' := by
  simp [isInner]

theorem word_append_inj {a b r r' : List Char} (ha : ∀ c ∈ a, isInner c = true)
    (hb : ∀ c ∈ b, isInner c = true) (hr : ∀ c ∈ r.head?, isInner c = false)
    (hr' : ∀ c ∈ r'.head?, isInner c = false) (h : a ++ r = b ++ r') : a = b ∧ r = r' := by
  have htake := congrArg (List.takeWhile isInner) h
  have hdrop := congrArg (List.dropWhile isInner) h
  rw [takeWhile_append_eq ha hr, takeWhile_append_eq hb hr'] at htake
  rw [dropWhile_append_eq ha hr, dropWhile_append_eq hb hr'] at hdrop
  exact ⟨htake, hdrop⟩

/-- No name at a leaf has a bracket in it. -/
def BracketFree (f : Formula) : Prop := ∀ x ∈ f.leaves, '[' ∉ x.toList ∧ ']' ∉ x.toList

theorem isInner_keyword (op : Operator) : ∀ c ∈ op.keyword.toList, isInner c = true := by
  have hall : op.keyword.toList.all isInner = true := by
    rcases op with _ | c
    · decide
    · cases c <;> decide
  exact List.all_eq_true.mp hall

theorem isInner_headword {f : Formula} (h : f.BracketFree) :
    ∀ c ∈ f.headword.toList, isInner c = true := by
  cases f with
  | operand x o =>
      intro c hc
      obtain ⟨hopen, hclose⟩ := h x (List.mem_singleton.mpr rfl)
      refine isInner_iff.mpr ⟨?_, ?_⟩
      · rintro rfl
        exact hopen hc
      · rintro rfl
        exact hclose hc
  | not => exact isInner_keyword .not
  | binary op => exact isInner_keyword (.binary op)

/-! ## Arguments

Inside an argument the next character behind a formula closes that argument, and at the
end of the text there is none; `Closes` says that one or the other is so. -/

/-- Nothing, or what begins by closing an argument. -/
def Closes (r : List Char) : Prop := ∀ c ∈ r.head?, c = ']'

theorem closes_nil : Closes [] := nofun

theorem closes_cons (r : List Char) : Closes (']' :: r) := by
  rintro c ⟨⟩
  rfl

variable {f g : Formula} {r r' : List Char}

theorem ne_slots_append (hg : g.isOperand = false) (hr : Closes r) : r ≠ g.slots ++ r' := by
  rintro rfl
  cases g with
  | operand => cases hg
  | not => exact absurd (hr '[' rfl) (by decide)
  | binary => exact absurd (hr '[' rfl) (by decide)

theorem isInner_head?_slots_append (hr : Closes r) :
    ∀ c ∈ (f.slots ++ r).head?, isInner c = false := by
  cases f with
  | operand =>
      intro c hc
      rw [hr c hc]
      rfl
  | not | binary =>
      rintro c ⟨⟩
      rfl

/-- Compact forms that agree, each in front of what closes an argument, have the same
first word and agree behind it. -/
theorem headword_eq_of_compact_append (hf : f.BracketFree) (hg : g.BracketFree) (hr : Closes r)
    (hr' : Closes r') (h : f.compact.toList ++ r = g.compact.toList ++ r') :
    f.headword = g.headword ∧ f.slots ++ r = g.slots ++ r' := by
  rw [toList_compact, toList_compact, List.append_assoc, List.append_assoc] at h
  obtain ⟨hword, hslots⟩ := word_append_inj (isInner_headword hf) (isInner_headword hg)
    (isInner_head?_slots_append hr) (isInner_head?_slots_append hr') h
  exact ⟨String.toList_inj.mp hword, hslots⟩

/-- Compact forms that agree, each in front of what closes an argument, are those of
alike formulas and end at the same place. -/
theorem alike_of_compact_append : ∀ {g : Formula} {r r' : List Char}, f.BracketFree →
    g.BracketFree → Closes r → Closes r' → f.compact.toList ++ r = g.compact.toList ++ r' →
    f.Alike g ∧ r = r' := by
  induction f with
  | operand x o =>
      intro g r r' hf hg hr hr' h
      obtain ⟨hword, hslots⟩ := headword_eq_of_compact_append hf hg hr hr' h
      cases g with
      | operand y o' => exact ⟨congrArg var hword, hslots⟩
      | not | binary => exact absurd hslots (ne_slots_append rfl hr)
  | not f o ih =>
      intro g r r' hf hg hr hr' h
      obtain ⟨hword, hslots⟩ := headword_eq_of_compact_append hf hg hr hr' h
      cases g with
      | operand => exact absurd hslots.symm (ne_slots_append rfl hr')
      | not g o' =>
          have hbody : f.compact.toList ++ ']' :: '[' :: ']' :: r =
              g.compact.toList ++ ']' :: '[' :: ']' :: r' := by
            simpa [slots] using hslots
          obtain ⟨halike, hrest⟩ := ih (g := g) hf hg (closes_cons _) (closes_cons _) hbody
          exact ⟨congrArg neg halike, by simpa using hrest⟩
      | binary op =>
          have hop : Operator.not = .binary op := Operator.keyword_inj.mp hword
          cases hop
  | binary op f k o ihf ihk =>
      intro g r r' hf hg hr hr' h
      obtain ⟨hword, hslots⟩ := headword_eq_of_compact_append hf hg hr hr' h
      cases g with
      | operand => exact absurd hslots.symm (ne_slots_append rfl hr')
      | not =>
          have hop : Operator.binary op = .not := Operator.keyword_inj.mp hword
          cases hop
      | binary op' g k' o' =>
          obtain ⟨hf, hk⟩ := List.forall_mem_append.mp hf
          obtain ⟨hg, hk'⟩ := List.forall_mem_append.mp hg
          have hleft : f.compact.toList ++ ']' :: '[' :: (k.compact.toList ++ ']' :: r) =
              g.compact.toList ++ ']' :: '[' :: (k'.compact.toList ++ ']' :: r') := by
            simpa [slots] using hslots
          -- behind the left argument comes all of the right one
          obtain ⟨hfg, hright⟩ := ihf hf hg (closes_cons _) (closes_cons _) hleft
          have hright : k.compact.toList ++ ']' :: r = k'.compact.toList ++ ']' :: r' := by
            simpa using hright
          obtain ⟨hkk, hrest⟩ := ihk hk hk' (closes_cons r) (closes_cons r') hright
          have hop : Operator.binary op = .binary op' := Operator.keyword_inj.mp hword
          cases hop
          refine ⟨?_, by simpa using hrest⟩
          show join op f.bare k.bare = join op g.bare k'.bare
          rw [hfg, hkk]

/-- Formulas without brackets in their names have the same compact form exactly if they
are alike, also if names are empty or spelled like a keyword. -/
theorem compact_eq_iff_alike (hf : f.BracketFree) (hg : g.BracketFree) :
    f.compact = g.compact ↔ f.Alike g := by
  constructor
  · intro h
    refine (alike_of_compact_append hf hg closes_nil closes_nil ?_).1
    rw [h]
  · intro h
    exact h.eq_of_bare compact_bare

/-- Operands without a name, or called like the negation: the same names under the same
operators make another text if the negation stands elsewhere. -/
theorem compact_eq_iff_alike_keyword_name :
    let f : Formula :=
      .binary .and (.operand "NOT" (some ⟨1, 0⟩)) (.not (.operand "" none) (some ⟨1, 2⟩)) none
    let g : Formula := .conj (.var "NOT") (.neg (.var ""))
    let k : Formula := .conj (.neg (.var "NOT")) (.var "")
    f.BracketFree ∧ g.BracketFree ∧ k.BracketFree ∧
      f.compact = g.compact ∧ f.Alike g ∧ f.compact ≠ k.compact := by
  intro f g k
  have hnames : ∀ x ∈ ["NOT", ""], '[' ∉ x.toList ∧ ']' ∉ x.toList := by decide
  have hf : f.BracketFree := hnames
  have hg : g.BracketFree := hnames
  have hk : k.BracketFree := hnames
  have hfg : f.compact = g.compact := rfl
  have hfk : ¬ f.Alike k := by decide
  exact ⟨hf, hg, hk, hfg, (compact_eq_iff_alike hf hg).mp hfg,
    fun h => hfk ((compact_eq_iff_alike hf hk).mp h)⟩

/-- A name with brackets can be the compact form of another formula. -/
example : (var "NOT[a][]").compact = (neg (var "a")).compact := rfl

end Formula

end Clausal
