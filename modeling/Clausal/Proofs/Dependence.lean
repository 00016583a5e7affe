/-
# What the value of a formula depends on

The operands are the names at the leaves, in the order of their bytes, and they are the
names in the clauses as well.  Neither the formula nor a literal of its clauses asks a
valuation for anything else.  On finitely many names every valuation is one of finitely
many rows of truth values (`exists_row`); so two formulas are equivalent exactly if they
agree in all rows of the operands of both, and two formulas with the same operands exactly
if they have the same truth table.

The order of the operands is one of code points where the list is made, and one of bytes
to whoever reads the list from outside.  The first part of this file shows that the two
are the same.  UTF-8 writes a code point as a first byte and some more to the base 64, and
a greater code point has more of these, or a greater first byte, or at the first
difference a greater one of the rest.  As no code point begins with all the bytes of
another, texts are ordered by their bytes as they are by their code points
(`Text.bytes_lt`).
-/
import Mathlib.Data.Nat.Init
import Mathlib.Tactic.SplitIfs
import Clausal.Proofs.ClauseLists

namespace Clausal

namespace Text

/-- The bytes of a text in UTF-8. -/
def bytes (s : String) : List UInt8 := s.toUTF8.data.toList

theorem bytes_eq_flatMap (s : String) : bytes s = s.toList.flatMap String.utf8EncodeChar := by
  rw [bytes, String.toUTF8, ← String.utf8Encode_toList, List.utf8Encode, List.data_toByteArray]

/-! ## Digits

`digits mark k n` has `k` bytes behind the first one.  Only the first one can grow beyond a
byte, and the lemmas ask that it does not.  Two numbers with as many digits are compared
from the front, and `m / 64 ≤ n / 64` is what makes the induction go from the last digit
forward. -/

/-- A number to the base 64, in so many bytes behind the first one, which is marked by
what is added to it. -/
def digits (mark : Nat) : Nat → Nat → List UInt8
  | 0, n => [UInt8.ofNat (mark + n)]
  | k + 1, n => digits mark k (n / 64) ++ [UInt8.ofNat (n % 64 + 128)]

/-- The first byte, as a number. -/
def leadingDigit (mark k n : Nat) : Nat := mark + n / 64 ^ k

theorem leadingDigit_succ (mark k n : Nat) :
    leadingDigit mark (k + 1) n = leadingDigit mark k (n / 64) := by
  rw [leadingDigit, leadingDigit, Nat.div_div_eq_div_mul, Nat.pow_succ']

theorem digits_eq_cons (mark k n : Nat) :
    ∃ rest, digits mark k n = UInt8.ofNat (leadingDigit mark k n) :: rest := by
  induction k generalizing n with
  | zero =>
      refine ⟨[], ?_⟩
      rw [digits, leadingDigit, Nat.pow_zero, Nat.div_one]
  | succ k ih =>
      obtain ⟨rest, hrest⟩ := ih (n / 64)
      rw [digits, hrest, leadingDigit_succ]
      exact ⟨_, List.cons_append⟩

theorem byte_cons_lt {m n : Nat} (h : m < n) (hn : n < 256) (xs ys : List UInt8) :
    UInt8.ofNat m :: xs < UInt8.ofNat n :: ys := by
  refine List.cons_lt_cons_iff.mpr (.inl ?_)
  rw [UInt8.lt_iff_toNat_lt, UInt8.toNat_ofNat_of_lt' (Nat.lt_trans h hn),
    UInt8.toNat_ofNat_of_lt' hn]
  exact h

theorem digits_append_lt {mark k m n : Nat} (h : m < n) (hn : leadingDigit mark k n < 256)
    (xs ys : List UInt8) : digits mark k m ++ xs < digits mark k n ++ ys := by
  induction k generalizing m n xs ys with
  | zero =>
      rw [leadingDigit, Nat.pow_zero, Nat.div_one] at hn
      exact byte_cons_lt (Nat.add_lt_add_left h mark) hn xs ys
  | succ k ih =>
      rw [digits, digits, List.append_assoc, List.append_assoc]
      rcases Nat.lt_or_eq_of_le (Nat.div_le_div_right (c := 64) (Nat.le_of_lt h)) with hlt | heq
      · rw [leadingDigit_succ] at hn
        exact ih hlt hn _ _
      · -- the numbers differ in the last digit only
        have hlast : m % 64 + 128 < n % 64 + 128 := by omega
        have hbyte : n % 64 + 128 < 256 := by omega
        rw [heq]
        exact List.append_left_lt (byte_cons_lt hlast hbyte xs ys)

/-! ## Code points

The marks of the four lengths increase with the length and leave room for the first digit,
so that a longer encoding has a greater first byte. -/

/-- The mark of the first byte of a code point, and how many bytes come behind it. -/
def markOf (n : Nat) : Nat × Nat :=
  if n ≤ 127 then (0, 0)
  else if n ≤ 2047 then (192, 1)
  else if n ≤ 65535 then (224, 2)
  else (240, 3)

theorem toNat_val_lt (c : Char) : c.val.toNat < 0x110000 := by
  rcases c.valid with h | h
  · exact Nat.lt_trans h (by decide)
  · exact h.2

theorem utf8EncodeChar_eq_digits (c : Char) :
    String.utf8EncodeChar c =
      digits (markOf c.val.toNat).1 (markOf c.val.toNat).2 c.val.toNat := by
  have hc := toNat_val_lt c
  simp only [String.utf8EncodeChar, markOf]
  generalize c.val.toNat = n at hc ⊢
  split_ifs
  · simp only [digits, Nat.zero_add]
  · simp only [digits]
    rw [Nat.mod_eq_of_lt (by omega : n / 64 < 32), Nat.add_comm]
    rfl
  · simp only [digits, Nat.div_div_eq_div_mul]
    rw [Nat.mod_eq_of_lt (by omega : n / 4096 < 16), Nat.add_comm]
    rfl
  · simp only [digits, Nat.div_div_eq_div_mul]
    rw [Nat.mod_eq_of_lt (by omega : n / 262144 < 8), Nat.add_comm]
    rfl

theorem leadingDigit_lt {n : Nat} (hn : n < 0x110000) :
    leadingDigit (markOf n).1 (markOf n).2 n < 256 := by
  unfold leadingDigit markOf
  split_ifs <;> simp only [Nat.reducePow, Nat.div_one] <;> omega

theorem markOf_eq_or_leadingDigit_lt {m n : Nat} (h : m < n) (hn : n < 0x110000) :
    markOf m = markOf n ∨
      leadingDigit (markOf m).1 (markOf m).2 m < leadingDigit (markOf n).1 (markOf n).2 n := by
  unfold leadingDigit markOf
  split_ifs <;> simp only [Nat.reducePow, Nat.div_one, true_or] <;> omega

theorem utf8EncodeChar_append_lt {c d : Char} (h : c < d) (xs ys : List UInt8) :
    String.utf8EncodeChar c ++ xs < String.utf8EncodeChar d ++ ys := by
  have hcd : c.val.toNat < d.val.toNat := h
  have hd := toNat_val_lt d
  rw [utf8EncodeChar_eq_digits, utf8EncodeChar_eq_digits]
  generalize c.val.toNat = m, d.val.toNat = n at hcd hd
  rcases markOf_eq_or_leadingDigit_lt hcd hd with hmark | hlt
  · rw [hmark]
    exact digits_append_lt hcd (leadingDigit_lt hd) xs ys
  · obtain ⟨rest, hrest⟩ := digits_eq_cons (markOf m).1 (markOf m).2 m
    obtain ⟨rest', hrest'⟩ := digits_eq_cons (markOf n).1 (markOf n).2 n
    rw [hrest, hrest']
    exact byte_cons_lt hlt (leadingDigit_lt hd) _ _

/-! ## Texts

One text may be the beginning of another; its bytes are then the beginning of the other's. -/

theorem flatMap_utf8EncodeChar_lt {cs ds : List Char} (h : cs < ds) :
    cs.flatMap String.utf8EncodeChar < ds.flatMap String.utf8EncodeChar := by
  induction cs generalizing ds with
  | nil =>
      cases ds with
      | nil => exact absurd h (List.not_lt_nil _)
      | cons d ds =>
          obtain ⟨rest, hrest⟩ := digits_eq_cons (markOf d.val.toNat).1 (markOf d.val.toNat).2
            d.val.toNat
          rw [List.flatMap_cons, utf8EncodeChar_eq_digits, hrest]
          exact List.nil_lt_cons _ _
  | cons c cs ih =>
      cases ds with
      | nil => exact absurd h (List.not_lt_nil _)
      | cons d ds =>
          rw [List.flatMap_cons, List.flatMap_cons]
          rcases List.cons_lt_cons_iff.mp h with hcd | ⟨rfl, hrest⟩
          · exact utf8EncodeChar_append_lt hcd _ _
          · exact List.append_left_lt (ih hrest)

/-- Texts in increasing order have bytes in increasing order. -/
theorem bytes_lt {s t : String} (h : s < t) : bytes s < bytes t := by
  rw [bytes_eq_flatMap, bytes_eq_flatMap]
  exact flatMap_utf8EncodeChar_lt (String.lt_iff_toList_lt.mp h)

end Text

namespace Formula

variable {f g : Formula} {v w : String → Bool} {x : String} {names : List String}

theorem mem_operands_iff_clauses : x ∈ f.operands ↔ ∃ c ∈ f.clauses, ∃ l ∈ c, l.name = x :=
  mem_operands.trans mem_leaves_iff_clauses

/-! ## Rows

A row is a number, read in base 2: its bits are the values of the names, the first name
having the lowest bit.  Names beyond the list are false, which does not matter where they
are not at the leaves.  To compare two formulas the list has to have the names of both, or
a name of one of them would be false in all rows. -/

/-- On given names, a valuation is one of the rows. -/
theorem exists_row (names : List String) (v : String → Bool) :
    ∃ row < 2 ^ names.length, ∀ x ∈ names, rowValuation names row x = v x := by
  let bits : Fin names.length → Bool := fun i => v names[i]
  refine ⟨Nat.ofBits bits, Nat.ofBits_lt_two_pow bits, fun x hx => ?_⟩
  have hlt : names.idxOf x < names.length := List.idxOf_lt_length_of_mem hx
  rw [rowValuation, Nat.testBit_ofBits_lt bits _ hlt]
  exact congrArg v (List.getElem_idxOf hlt)

/-- Agreement in all rows of names that include those at the leaves is equivalence. -/
theorem forall_eval_eq_iff_rows (hf : ∀ x ∈ f.leaves, x ∈ names) (hg : ∀ x ∈ g.leaves, x ∈ names) :
    (∀ v, f.eval v = g.eval v) ↔
      ∀ row < 2 ^ names.length,
        f.eval (rowValuation names row) = g.eval (rowValuation names row) := by
  constructor
  · exact fun h row _ => h _
  · intro h v
    obtain ⟨row, hrow, hv⟩ := exists_row names v
    calc f.eval v = f.eval (rowValuation names row) :=
          eval_congr fun x hx => (hv x (hf x hx)).symm
      _ = g.eval (rowValuation names row) := h row hrow
      _ = g.eval v := eval_congr fun x hx => hv x (hg x hx)

/-- Formulas with the same operands are equivalent exactly if their truth tables agree. -/
theorem forall_eval_eq_iff_truthTable (h : f.operands = g.operands) :
    (∀ v, f.eval v = g.eval v) ↔ f.truthTable = g.truthTable := by
  have hf : ∀ x ∈ f.leaves, x ∈ g.operands := by
    rw [← h]
    exact fun x hx => mem_operands.mpr hx
  rw [forall_eval_eq_iff_rows hf fun x hx => mem_operands.mpr hx]
  simp only [truthTable, h, List.map_inj_left, List.mem_range, Nat.one_shiftLeft]

/-- The operands are the names at the leaves and those in the clauses, and increase in
the order of their bytes.  Valuations that agree on them give the formula, and each
literal of its clauses, the same value.  So formulas are equivalent exactly if they
agree in the rows of their joint operands. -/
theorem operands_decide_eval (f : Formula) :
    f.operands.Pairwise (fun x y => Text.bytes x < Text.bytes y) ∧
      (∀ x, x ∈ f.operands ↔ x ∈ f.leaves) ∧
      (∀ x, x ∈ f.operands ↔ ∃ c ∈ f.clauses, ∃ l ∈ c, l.name = x) ∧
      (∀ v w, (∀ x ∈ f.operands, v x = w x) →
        f.eval v = f.eval w ∧ ∀ c ∈ f.clauses, ∀ l ∈ c, l.eval v = l.eval w) ∧
      ∀ g : Formula, (∀ v, f.eval v = g.eval v) ↔
        ∀ row < 2 ^ (jointOperands f g).length,
          f.eval (rowValuation (jointOperands f g) row) =
            g.eval (rowValuation (jointOperands f g) row) := by
  refine ⟨f.pairwise_operands.imp Text.bytes_lt, fun x => mem_operands,
    fun x => mem_operands_iff_clauses, ?_, ?_⟩
  · intro v w h
    refine ⟨eval_congr fun x hx => h x (mem_operands.mpr hx), fun c hc l hl => ?_⟩
    rw [Literal.eval, Literal.eval, h l.name (mem_operands_iff_clauses.mpr ⟨c, hc, l, hl, rfl⟩)]
  · intro g
    refine forall_eval_eq_iff_rows (fun x hx => ?_) (fun x hx => ?_)
    · exact mem_jointOperands.mpr (.inl (mem_operands.mpr hx))
    · exact mem_jointOperands.mpr (.inr (mem_operands.mpr hx))

/-- Code points beyond the first plane come last.  A name that one of two formulas
does not have counts for the rows, and these show the formulas to be equivalent. -/
theorem operands_decide_eval_absorption :
    let f : Formula := disj (var "𐀀") (conj (var "𐀀") (neg (var "ﬀ")))
    let g : Formula := neg (neg (var "𐀀"))
    f.operands = ["ﬀ", "𐀀"] ∧ f.operands.Pairwise (fun x y => Text.bytes x < Text.bytes y) ∧
      (f.eval (· == "𐀀") = f.eval (fun x => x == "𐀀" || x == "c")) ∧
      ∀ v, f.eval v = g.eval v := by
  intro f g
  have hf : f.operands = ["ﬀ", "𐀀"] := by decide
  obtain ⟨hbytes, -, -, hagree, hrows⟩ := operands_decide_eval f
  refine ⟨hf, hbytes, (hagree _ _ ?_).1, (hrows g).mpr ?_⟩
  · rw [hf]
    decide
  · decide

end Formula

end Clausal
