/-
# Vocabularies: which words denote operators

A vocabulary stores the keywords as they were given, in two lists, and an index from their
keys to their operators.  The key of a word is the word itself if case matters, and its
lower case otherwise.

The settings of a vocabulary, the two lists and whether case matters, can be changed one
at a time and any number of times.  A change builds the index that it would lead to before
anything is stored, and stops at the first keyword that is malformed or whose key is taken
by another operator.  `apply` says both what a change comes to and which vocabulary it
leaves; that a change which fails leaves the vocabulary it found (`apply_of_error`) is a
consequence of the order of these steps and no part of their definition.
-/
import Clausal.Operator
import Clausal.Text.Writing

namespace Clausal

open Text

/-- What is wrong with a keyword. -/
inductive KeywordFault where
  | empty
  | blank
  | parenthesis
  | ambiguous
deriving DecidableEq

def KeywordFault.message : KeywordFault → String
  | .empty => "keyword is empty"
  | .blank => "keyword contains whitespace"
  | .parenthesis => "keyword contains a parenthesis"
  | .ambiguous => "keyword denotes two different operators"

/-- A refused keyword, in its stored spelling. -/
structure KeywordError where
  keyword : String
  fault : KeywordFault
deriving DecidableEq

def KeywordError.message (e : KeywordError) : String :=
  "invalid operator keyword `" ++ e.keyword ++ "`: " ++ e.fault.message

/-- The fault of a keyword on its own, whatever else is in the vocabulary. -/
def keywordFault? (keyword : String) : Option KeywordFault :=
  let cs := keyword.toList
  if cs.isEmpty then some .empty
  else if cs.any isBlank then some .blank
  else if cs.any fun c => c == '(' || c == ')' then some .parenthesis
  else none

/-- What a word is looked up by. -/
def keyOf (caseSensitive : Bool) (word : String) : String :=
  if caseSensitive then word else lowercase word

/-! ## Vocabularies and their index

The index is a list of keys with their operators, the one added last in front.  A
key is added once: a keyword whose key is there already with the same operator is
passed over, so no key occurs twice. -/

/-- The words that denote operators. -/
structure Vocabulary where
  /-- The keywords of negation. -/
  negations : List String
  /-- The keywords of the connectives. -/
  connectives : List (String × Connective)
  caseSensitive : Bool
  /-- The operator of each key. -/
  index : List (String × Operator)
deriving DecidableEq

namespace Vocabulary

/-- All keywords with their operators, those of negation first. -/
def entries (negations : List String) (connectives : List (String × Connective)) :
    List (String × Operator) :=
  negations.map (fun k => (k, .not)) ++ connectives.map fun (k, c) => (k, .binary c)

/-- Add keywords to an index, in order. -/
def extendIndex (caseSensitive : Bool) (index : List (String × Operator)) :
    List (String × Operator) → Except KeywordError (List (String × Operator))
  | [] => .ok index
  | (keyword, op) :: rest =>
    match keywordFault? keyword with
    | some fault => .error ⟨keyword, fault⟩
    | none =>
      let key := keyOf caseSensitive keyword
      match index.lookup key with
      | none => extendIndex caseSensitive ((key, op) :: index) rest
      | some prior =>
        if prior = op then extendIndex caseSensitive index rest
        else .error ⟨keyword, .ambiguous⟩

/-- The index that the settings of a vocabulary lead to, if there is no fault in its
keywords. -/
def buildIndex (v : Vocabulary) : Except KeywordError (List (String × Operator)) :=
  extendIndex v.caseSensitive [] (entries v.negations v.connectives)

/-- The operator that a word denotes, if any. -/
def operator? (v : Vocabulary) (word : String) : Option Operator :=
  v.index.lookup (keyOf v.caseSensitive word)

/-! ## Changes

`change` is the change as it is made, on a vocabulary that is there; `apply` runs
it, and `update` and `updateOrKeep` are the two parts of what `apply` gives, for
those who go on only after a success and for those who go on regardless. -/

/-- A change of one of the three settings. -/
inductive Update where
  | negations (keywords : List String)
  | connectives (keywords : List (String × Connective))
  | caseSensitive (matters : Bool)
deriving DecidableEq

/-- The settings with one of them replaced, the index as it is. -/
def set (v : Vocabulary) : Update → Vocabulary
  | .negations keywords => { v with negations := keywords }
  | .connectives keywords => { v with connectives := keywords }
  | .caseSensitive matters => { v with caseSensitive := matters }

/-- Change the vocabulary in place: build the index of the new settings, store it, and
then store the setting. -/
def change (u : Update) : ExceptT KeywordError (StateM Vocabulary) Unit := do
  let index ← buildIndex ((← get).set u)
  modify fun v => { v with index }
  modify fun v => v.set u

/-- What a change comes to, and the vocabulary that it leaves. -/
def apply (v : Vocabulary) (u : Update) : Except KeywordError Unit × Vocabulary :=
  (change u).run.run v

/-- The vocabulary after a change that succeeds. -/
def update (v : Vocabulary) (u : Update) : Except KeywordError Vocabulary :=
  match v.apply u with
  | (.ok (), w) => .ok w
  | (.error error, _) => .error error

/-- The vocabulary after a change, whatever it came to. -/
def updateOrKeep (v : Vocabulary) (u : Update) : Vocabulary := (v.apply u).2

/-! ## What a change leaves

Nothing is stored before the index has been built, and nothing can fail after
that.  Storing the index and then the setting comes to storing both, whichever
setting it is. -/

section
variable {v w : Vocabulary} {u : Update} {error : KeywordError}

theorem apply_eq (v : Vocabulary) (u : Update) :
    v.apply u = match buildIndex (v.set u) with
      | .ok index => (.ok (), { v.set u with index })
      | .error error => (.error error, v) := by
  have hread : v.apply u =
      StateT.run (ExceptT.run (do
        let index ← (liftM (buildIndex (v.set u)) : ExceptT KeywordError (StateM Vocabulary) _)
        modify fun v => { v with index }
        modify fun v => v.set u)) v := rfl
  rw [hread]
  cases buildIndex (v.set u) with
  | error error => rfl
  | ok index => cases u <;> rfl

theorem update_eq (v : Vocabulary) (u : Update) :
    v.update u = (buildIndex (v.set u)).map fun index => { v.set u with index } := by
  rw [update, apply_eq]
  cases buildIndex (v.set u) <;> rfl

theorem apply_of_ok (h : v.update u = .ok w) : v.apply u = (.ok (), w) := by
  rw [update_eq] at h
  rw [apply_eq]
  cases hindex : buildIndex (v.set u) with
  | error _ =>
      rw [hindex] at h
      cases h
  | ok index =>
      rw [hindex] at h
      cases h
      rfl

theorem apply_of_error (h : v.update u = .error error) : v.apply u = (.error error, v) := by
  rw [update_eq] at h
  rw [apply_eq]
  cases hindex : buildIndex (v.set u) with
  | error _ =>
      rw [hindex] at h
      cases h
      rfl
  | ok _ =>
      rw [hindex] at h
      cases h

theorem updateOrKeep_of_ok (h : v.update u = .ok w) : v.updateOrKeep u = w :=
  congrArg Prod.snd (apply_of_ok h)

theorem updateOrKeep_of_error (h : v.update u = .error error) : v.updateOrKeep u = v :=
  congrArg Prod.snd (apply_of_error h)

end

/-! ## The standard vocabulary

Its index is written down rather than built, which can be done because its
keywords are in lower case; that it is an index of them is `coherent_standard` in
`Proofs.VocabularyRuns`.  The vocabularies that can be had are those that changes
make of this one (`Reachable`). -/

def standardNegations : List String := ["not"]

def standardConnectives : List (String × Connective) :=
  [("and", .and), ("&&", .and), ("&", .and), ("or", .or), ("||", .or), ("|", .or),
    ("implies", .implies), ("=>", .implies), ("requires", .requires), ("excludes", .excludes),
    ("equivalence", .equivalence), ("iff", .equivalence), ("<=>", .equivalence),
    ("xor", .xor), ("^", .xor)]

/-- The keywords in common use; case does not matter. -/
def standard : Vocabulary where
  negations := standardNegations
  connectives := standardConnectives
  caseSensitive := false
  index := entries standardNegations standardConnectives

/-- A vocabulary that some run of changes makes of the standard one. -/
inductive Reachable : Vocabulary → Prop where
  | standard : Reachable standard
  | update {v w : Vocabulary} (u : Update) : Reachable v → v.update u = .ok w → Reachable w

end Vocabulary

end Clausal
