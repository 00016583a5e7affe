/-
# The two written forms of a formula

The compact form puts every argument in brackets behind the keyword, and gives a
negation an empty second slot.  It is meant to be told apart, not to be read
back: two formulas over names without brackets have the same compact form
exactly when they are alike (`Proofs.CompactForm`).

The readable form puts a keyword before its argument or between its two
arguments, and parentheses round an argument exactly when that argument is
itself joined by a connective.  It is meant to be read back, and is, with the
standard vocabulary, when the names are words that this vocabulary leaves alone
(`Proofs.RoundTrip`).

Both are written with the canonical keywords, whichever vocabulary the formula
was read with, and neither shows an origin.
-/
import Clausal.Formula

namespace Clausal.Formula

/-! ## The compact form

A text is taken apart from the front, so it is useful to see a compact form as its first
word and what stands behind it, which is nothing for an operand and begins with a bracket
otherwise. -/

/-- The compact form, as in `OR[NOT[a][]][b]`. -/
def compact : Formula → String
  | .operand name _ => name
  | .not f _ => "NOT[" ++ f.compact ++ "][]"
  | .binary op f g _ => op.keyword ++ "[" ++ f.compact ++ "][" ++ g.compact ++ "]"

/-- The word that the compact form begins with. -/
def headword : Formula → String
  | .operand name _ => name
  | .not _ _ => Operator.not.keyword
  | .binary op _ _ _ => (Operator.binary op).keyword

/-- What the compact form has behind its first word. -/
def slots : Formula → List Char
  | .operand _ _ => []
  | .not f _ => '[' :: (f.compact.toList ++ [']', '[', ']'])
  | .binary _ f g _ => '[' :: (f.compact.toList ++ ']' :: '[' :: (g.compact.toList ++ [']']))

theorem toList_compact (f : Formula) : f.compact.toList = f.headword.toList ++ f.slots := by
  cases f with
  | operand => simp [compact, headword, slots]
  | not => simp [compact, headword, slots, Operator.keyword]
  | binary => simp [compact, headword, slots, Operator.keyword]

@[simp] theorem compact_bare (f : Formula) : f.bare.compact = f.compact := by
  induction f with
  | operand => rfl
  | not f _ ih => simp [bare, neg, compact, ih]
  | binary op f g _ ihf ihg => simp [bare, join, compact, ihf, ihg]

/-! ## The readable form

Whether an argument is enclosed depends on its root alone, so a negation is not put in
parentheses under a connective, and a group of groups does not come about. -/

/-- Parentheses round a text, if asked for. -/
def enclose (wanted : Bool) (text : String) : String :=
  if wanted then "(" ++ text ++ ")" else text

/-- The readable form, as in `NOT a OR (b AND c)`. -/
def render : Formula → String
  | .operand name _ => name
  | .not f _ => "NOT " ++ enclose f.isBinary f.render
  | .binary op f g _ =>
    enclose f.isBinary f.render ++ " " ++ op.keyword ++ " " ++ enclose g.isBinary g.render

@[simp] theorem isBinary_bare (f : Formula) : f.bare.isBinary = f.isBinary := by
  cases f <;> rfl

@[simp] theorem render_bare (f : Formula) : f.bare.render = f.render := by
  induction f with
  | operand => rfl
  | not f _ ih => simp [bare, neg, render, ih]
  | binary op f g _ ihf ihg => simp [bare, join, render, ihf, ihg]

end Clausal.Formula
