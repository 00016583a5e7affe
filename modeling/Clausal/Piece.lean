/-
# The pieces of a text

A text is cut into parentheses and the runs of characters between them.  A run holds
neither a blank nor a parenthesis and ends where one of these begins; blanks only
separate, and leave no piece.

Pieces are set side by side again with one space between two of them, and none behind an
opening or before a closing parenthesis.  The words of a text are what this layout has
between its spaces, so each word comes with its parentheses attached, however the text was
spaced.  Cutting a text at its spaces is a separate step and knows nothing of parentheses:
the layout is what makes its result the right one.
-/
import Clausal.Text.Classes

namespace Clausal

open Text

/-- A parenthesis, or a run of other characters. -/
inductive Piece where
  | opening
  | closing
  | run (text : String)
deriving DecidableEq

/-- The side of a group at which a parenthesis stands. -/
inductive Side where
  | opening
  | closing
deriving DecidableEq

namespace Side

@[reducible] def char : Side → Char
  | .opening => '('
  | .closing => ')'

@[reducible] def piece : Side → Piece
  | .opening => .opening
  | .closing => .closing

end Side

namespace Piece

/-! ## Cutting

The rest behind a run is shorter than the text by the run, so the recursion ends; where a
text goes on with a blank or a parenthesis it loses one character. -/

/-- A character that a run may hold. -/
def isPlain (c : Char) : Bool := !isBlank c && c != '(' && c != ')'

/-- Cut a text into its pieces. -/
def scan : List Char → List Piece
  | [] => []
  | c :: rest =>
    if isBlank c then scan rest
    else if c = '(' then .opening :: scan rest
    else if c = ')' then .closing :: scan rest
    else .run (String.ofList (c :: rest.takeWhile isPlain)) :: scan (rest.dropWhile isPlain)
termination_by cs => cs.length
decreasing_by
  all_goals simp only [List.length_cons]
  all_goals have := (List.dropWhile_suffix (l := rest) isPlain).length_le; omega

/-! ## Layout

The space between two pieces is a matter of these two alone. -/

/-- The characters of a piece. -/
def chars : Piece → List Char
  | .opening => ['(']
  | .closing => [')']
  | .run text => text.toList

/-- The space between two neighbours. -/
def gap : Piece → Piece → List Char
  | .opening, _ => []
  | _, .closing => []
  | _, _ => [' ']

/-- Pieces side by side. -/
def layout : List Piece → List Char
  | [] => []
  | [p] => p.chars
  | p :: q :: rest => p.chars ++ gap p q ++ layout (q :: rest)

end Piece

/-- The pieces of a text. -/
def pieces (text : String) : List Piece := Piece.scan text.toList

/-- A text with its pieces evenly spaced. -/
def normalize (text : String) : String := String.ofList (Piece.layout (pieces text))

/-! ## Words -/

/-- Cut a text at its spaces, and only there. -/
def splitWords : List Char → List String
  | [] => []
  | c :: rest =>
    if c = ' ' then splitWords rest
    else
      String.ofList (c :: rest.takeWhile (· != ' ')) :: splitWords (rest.dropWhile (· != ' '))
termination_by cs => cs.length
decreasing_by
  all_goals simp only [List.length_cons]
  all_goals have := (List.dropWhile_suffix (l := rest) (· != ' ')).length_le; omega

/-- The words of a text. -/
def words (text : String) : List String := splitWords text.toList

end Clausal
