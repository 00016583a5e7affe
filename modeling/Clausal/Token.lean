/-
# Tokens: words read against a vocabulary

A word may have opening parentheses in front and closing ones behind; what is left between
them is an operator if the vocabulary says so, and otherwise the name of an operand.  A
word of parentheses alone is neither, and makes an empty token.

Parentheses are never tokens of their own.  They are counted at the token that they are
attached to, first those that open and then, from behind in what is left, those that
close.  How deep a token stands in groups is not part of it: `nest` computes the depth
from the counts of the tokens before it.
-/
import Clausal.Piece
import Clausal.Vocabulary

namespace Clausal

/-- What stands between the parentheses of a word. -/
inductive TokenKind where
  | operand (name : String)
  | operator (op : Operator)
  | empty
deriving DecidableEq

/-- A word, with the parentheses attached to it counted. -/
structure Token where
  position : Nat
  word : String
  opening : Nat
  closing : Nat
  kind : TokenKind
deriving DecidableEq

namespace Token

/-- The kind of a word without its parentheses. -/
def kindOf (v : Vocabulary) (core : String) : TokenKind :=
  if core.isEmpty then .empty
  else
    match v.operator? core with
    | some op => .operator op
    | none => .operand core

/-- Read a word: opening parentheses are counted first, then closing ones. -/
def classify (v : Vocabulary) (position : Nat) (word : String) : Token :=
  let cs := word.toList
  let behind := (cs.dropWhile (· == '(')).reverse
  { position, word
    opening := (cs.takeWhile (· == '(')).length
    closing := (behind.takeWhile (· == ')')).length
    kind := kindOf v (String.ofList (behind.dropWhile (· == ')')).reverse) }

def isOperand (t : Token) : Bool :=
  match t.kind with
  | .operand _ => true
  | _ => false

/-- The operator that a token is, if it is one. -/
def operator? (t : Token) : Option Operator :=
  match t.kind with
  | .operator op => some op
  | _ => none

def isOperator (t : Token) : Bool := t.operator?.isSome

def isUnary (t : Token) : Bool := t.operator?.any Operator.isUnary

def isBinary (t : Token) : Bool := t.operator?.any Operator.isBinary

def isEmpty (t : Token) : Bool := t.kind = .empty

/-- Some parenthesis is attached. -/
def hasParentheses (t : Token) : Bool := t.opening > 0 || t.closing > 0

/-! ## The tokens of a list of words

The position of a token is the index of its word, so within one list it says nothing that
the list does not.  A slice of the list keeps the positions of the longer one. -/

/-- Read words at the positions 0, 1, 2 and so on. -/
def classifyAll (v : Vocabulary) (ws : List String) : List Token :=
  ws.mapIdx fun i w => classify v i w

@[simp] theorem length_classifyAll (v : Vocabulary) (ws : List String) :
    (classifyAll v ws).length = ws.length :=
  List.length_mapIdx

theorem words_classifyAll (v : Vocabulary) (ws : List String) :
    (classifyAll v ws).map word = ws := by
  refine List.ext_getElem (by simp) fun i _ _ => ?_
  simp [classifyAll, classify]

theorem positions_classifyAll (v : Vocabulary) (ws : List String) :
    (classifyAll v ws).map position = List.range (classifyAll v ws).length := by
  refine List.ext_getElem (by simp) fun i _ _ => ?_
  simp [classifyAll, classify]

/-- Where the positions are 0, 1, 2 and so on, a token has its number. -/
theorem position_getElem {ts : List Token} (h : ts.map position = List.range ts.length)
    {i : Nat} (hi : i < ts.length) : ts[i].position = i := by
  have hi' := List.getElem_of_eq h (i := i) (by rwa [List.length_map])
  simpa using hi'

/-! ## Counting parentheses

What holds of the parentheses of one side holds of those of the other; the counts are one
function of the side. -/

/-- How many parentheses of a side are attached. -/
@[reducible] def attached (t : Token) : Side → Nat
  | .opening => t.opening
  | .closing => t.closing

/-- The number of parentheses of a side at the tokens. -/
def attachedCount (side : Side) (ts : List Token) : Nat :=
  ts.foldr (fun t k => t.attached side + k) 0

@[simp] theorem attachedCount_nil (side : Side) : attachedCount side [] = 0 := rfl

@[simp] theorem attachedCount_cons (side : Side) (t : Token) (ts : List Token) :
    attachedCount side (t :: ts) = t.attached side + attachedCount side ts := rfl

/-- The number of parentheses that the tokens open. -/
def openingCount (ts : List Token) : Nat := attachedCount .opening ts

/-- The number of parentheses that the tokens close. -/
def closingCount (ts : List Token) : Nat := attachedCount .closing ts

end Token

/-! ## Depth

The depth of a token counts its own opening parentheses; its closing ones count from the
next token on.  Parentheses that close nothing are passed over, and so do not make up for
what is opened later. -/

/-- A token and the number of parentheses round it. -/
structure Nested where
  token : Token
  depth : Nat
deriving DecidableEq

namespace Token

/-- The depth of every token of a list that stands in `outer` parentheses. -/
def nest (outer : Nat) : List Token → List Nested
  | [] => []
  | t :: ts => ⟨t, outer + t.opening⟩ :: nest (outer + t.opening - t.closing) ts

/-- The greatest depth. -/
def maxDepth (ts : List Token) : Nat :=
  (nest 0 ts).foldl (fun deepest n => max deepest n.depth) 0

/-- Some token closes more parentheses than are open. -/
def closesEarly (outer : Nat) : List Token → Bool
  | [] => false
  | t :: ts => t.closing > outer + t.opening || closesEarly (outer + t.opening - t.closing) ts

@[simp] theorem map_token_nest (outer : Nat) (ts : List Token) :
    (nest outer ts).map Nested.token = ts := by
  induction ts generalizing outer with
  | nil => rfl
  | cons t ts ih => simp [nest, ih]

@[simp] theorem length_nest (outer : Nat) (ts : List Token) :
    (nest outer ts).length = ts.length := by
  rw [← List.length_map Nested.token, map_token_nest]

end Token

end Clausal
