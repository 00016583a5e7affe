/-
# Computations that report events and may be refused

An event is a fact about a run: the words of a text, a split, a refusal, a tree, clauses.
Its wording is a function of it, as are its level and its topic; so what is reported can
be spoken of without its wording, and the wording is in one place.

A run keeps its events in order, also those before a refusal.  What a run comes to does
not depend on its events: `outcome` turns the steps of a run into the steps of `Except`
(`outcome_bind`), and most of what is proved of reading a text is proved of outcomes
alone.  Where events matter, `events_bind` says which of them a run of two steps has.
-/
import Clausal.Rejection

namespace Clausal

/-! ## Events

Events of the level `trace` give the details of how a text is read, those of the level
`debug` what came of a stage of the work.  The topic is the part of the work that reports
the event. -/

/-- How much detail an event belongs to. -/
inductive Level where
  | trace
  | debug
deriving DecidableEq

def Level.label : Level → String
  | .trace => "TRACE"
  | .debug => "DEBUG"

/-- The part of the work that an event is about. -/
inductive Topic where
  | parser
  | validation
  | normalization
  | clauses
deriving DecidableEq

def Topic.label : Topic → String
  | .parser => "parser"
  | .validation => "validation"
  | .normalization => "normalization"
  | .clauses => "clauses"

/-- A fact about a run. -/
inductive Event where
  /-- The words of a text. -/
  | words (text : String) (all : List String)
  /-- The tokens from `first` on and before `last` are split at an operator. -/
  | split (first last : Nat) (word : String) (index : Nat)
  /-- Tokens are refused. -/
  | rejected (tokens : Nat) (reason : Rejection)
  /-- A tree is built. -/
  | parsed (tokens height : Nat)
  /-- A formula is brought to conjunctive normal form. -/
  | normalized (before after : Nat)
  /-- Clauses are taken out. -/
  | extracted (clauses : Nat)
deriving DecidableEq

namespace Event

def level : Event → Level
  | .words _ _ | .split _ _ _ _ => .trace
  | .rejected _ _ | .parsed _ _ | .normalized _ _ | .extracted _ => .debug

def topic : Event → Topic
  | .words _ _ | .split _ _ _ _ | .parsed _ _ => .parser
  | .rejected _ _ => .validation
  | .normalized _ _ => .normalization
  | .extracted _ => .clauses

def message : Event → String
  | .words text ws => "Tokens of `" ++ text ++ "`: " ++ Text.quoteAll ws
  | .split first last word index =>
    "Split " ++ first.repr ++ ".." ++ last.repr ++ " at `" ++ word ++ "` (token " ++
      index.repr ++ ")."
  | .rejected tokens reason => "Rejected " ++ tokens.repr ++ " tokens: " ++ reason.message
  | .parsed tokens height =>
    "Parsed " ++ tokens.repr ++ " tokens into a tree of height " ++ height.repr ++ "."
  | .normalized before after =>
    "CNF of " ++ before.repr ++ " operand(s) has " ++ after.repr ++ " operand(s)."
  | .extracted clauses => "Extracted " ++ clauses.repr ++ " clause(s)."

end Event

/-! ## Runs

A run that is refused has no value, but it has events.  What comes behind a refusal does
not happen, and reports nothing. -/

/-- The events of a run, and what it comes to. -/
structure Traced (α : Type) where
  events : List Event
  outcome : Except Rejection α

namespace Traced

def bind {α β : Type} (x : Traced α) (f : α → Traced β) : Traced β :=
  match x.outcome with
  | .error reason => ⟨x.events, .error reason⟩
  | .ok a =>
    let y := f a
    ⟨x.events ++ y.events, y.outcome⟩

instance : Monad Traced where
  pure a := ⟨[], .ok a⟩
  bind := bind

/-- Report an event. -/
def emit (e : Event) : Traced Unit := ⟨[e], .ok ()⟩

/-- Refuse. -/
def reject {α : Type} (reason : Rejection) : Traced α := ⟨[], .error reason⟩

variable {α β : Type}

@[simp] theorem outcome_pure (a : α) : (pure a : Traced α).outcome = .ok a := rfl

@[simp] theorem events_pure (a : α) : (pure a : Traced α).events = [] := rfl

@[simp] theorem outcome_emit (e : Event) : (emit e).outcome = .ok () := rfl

@[simp] theorem events_emit (e : Event) : (emit e).events = [e] := rfl

@[simp] theorem outcome_reject (reason : Rejection) :
    (reject reason : Traced α).outcome = .error reason := rfl

@[simp] theorem events_reject (reason : Rejection) :
    (reject reason : Traced α).events = [] := rfl

@[simp] theorem outcome_bind (x : Traced α) (f : α → Traced β) :
    (x >>= f).outcome = x.outcome >>= fun a => (f a).outcome := by
  change (Traced.bind x f).outcome = _
  unfold Traced.bind
  cases x.outcome <;> rfl

/-- Two steps come to a value if the second one does, from the value of the first. -/
theorem outcome_bind_eq_ok {x : Traced α} {f : α → Traced β} {b : β} :
    (x >>= f).outcome = .ok b ↔ ∃ a, x.outcome = .ok a ∧ (f a).outcome = .ok b := by
  rw [outcome_bind]
  cases x.outcome with
  | error reason => exact ⟨nofun, fun ⟨_, ha, _⟩ => nomatch ha⟩
  | ok a =>
      constructor
      · intro h
        exact ⟨a, rfl, h⟩
      · rintro ⟨a', ha, h⟩
        cases ha
        exact h

/-- The events of two steps are those of the first and, unless it is refused,
those of the second. -/
theorem events_bind (x : Traced α) (f : α → Traced β) :
    (x >>= f).events =
      x.events ++ match x.outcome with
        | .error _ => []
        | .ok a => (f a).events := by
  change (Traced.bind x f).events = _
  unfold Traced.bind
  cases x.outcome <;> simp

/-- Where the first step comes to a value, the events of both steps are reported. -/
theorem events_bind_of_outcome {x : Traced α} {f : α → Traced β} {a : α}
    (h : x.outcome = .ok a) : (x >>= f).events = x.events ++ (f a).events := by
  rw [events_bind, h]

end Traced

end Clausal
