/-
# Literals: an operand name with a sign

The written form of a negated literal is its name behind a dash.  Reading takes off one
dash and refuses what is left if it is empty or starts with a dash, so a written form has
one reading.  The other way round this is not so: a name may begin with a dash, and then
its positive literal is written as the negated literal of another name.  `read_render_iff`
says exactly which literals are read back.

A literal is true or false once every operand has a value, and the opposite literal has
the opposite value.
-/

namespace Clausal

/-- An operand or its negation. -/
structure Literal where
  name : String
  negated : Bool
deriving DecidableEq

/-- A text that is no literal. -/
structure InvalidLiteral where
  text : String
deriving DecidableEq

/-- The wording of the refusal. -/
def InvalidLiteral.message (e : InvalidLiteral) : String :=
  "Invalid literal `" ++ e.text ++ "`."

namespace Literal

def positive (name : String) : Literal := ⟨name, false⟩

def negative (name : String) : Literal := ⟨name, true⟩

/-- The same operand with the opposite sign. -/
def negate (l : Literal) : Literal := ⟨l.name, !l.negated⟩

/-- The value of a literal, given the value of every operand. -/
def eval (v : String → Bool) (l : Literal) : Bool := v l.name != l.negated

/-- The written form: the name, behind a dash if negated. -/
def render (l : Literal) : String :=
  if l.negated then "-" ++ l.name else l.name

/-- A name that can be told from a sign: not empty, and no dash in front. -/
def isReadableName : List Char → Bool
  | [] => false
  | c :: _ => c != '-'

/-- Read the written form. -/
def read (text : String) : Except InvalidLiteral Literal :=
  match text.toList with
  | '-' :: name =>
    if isReadableName name then .ok (negative (String.ofList name)) else .error ⟨text⟩
  | name =>
    if isReadableName name then .ok (positive text) else .error ⟨text⟩

/-- The order of literals: by name, code point by code point, and the positive
literal of a name before the negated one. -/
def le (a b : Literal) : Bool :=
  a.name < b.name || (a.name = b.name && (!a.negated || b.negated))

@[simp] theorem negate_negate (l : Literal) : l.negate.negate = l := by
  cases l; simp [negate]

@[simp] theorem eval_negate (v : String → Bool) (l : Literal) :
    l.negate.eval v = !l.eval v := by
  cases l with
  | mk name negated => cases v name <;> cases negated <;> simp [eval, negate, *]

/-! ## Reading what was written

A sign and the first character of a name look the same.  The reader takes off one dash at
most, and what it accepts is the written form of what it returns.  With a name that begins
with a dash, or none, no literal can be read back, whatever its sign. -/

theorem isReadableName_iff {cs : List Char} :
    isReadableName cs = true ↔ cs ≠ [] ∧ cs.head? ≠ some '-' := by
  cases cs with
  | nil => simp [isReadableName]
  | cons c cs => simp [isReadableName]

/-- What is read is written as it was read. -/
theorem render_of_read {text : String} {l : Literal} (h : read text = .ok l) :
    l.render = text ∧ isReadableName l.name.toList = true := by
  unfold read at h
  split at h
  · rename_i name hname
    split at h
    · rename_i hreadable
      cases h
      refine ⟨String.toList_inj.mp ?_, by simpa [negative] using hreadable⟩
      simp [render, negative, hname]
    · cases h
  · split at h
    · rename_i hreadable
      cases h
      exact ⟨rfl, hreadable⟩
    · cases h

/-- What is written is read as itself, unless the name could be taken for a sign. -/
theorem read_render {l : Literal} (h : isReadableName l.name.toList = true) :
    read l.render = .ok l := by
  obtain ⟨name, negated⟩ := l
  cases negated with
  | true =>
      have hdash : (render ⟨name, true⟩).toList = '-' :: name.toList := by
        simp [render]
      rw [read, hdash]
      simp [h, negative]
  | false =>
      have hplain : render ⟨name, false⟩ = name := rfl
      rw [read, hplain]
      split
      · -- a dash in front was excluded
        rename_i rest hrest
        rw [hrest] at h
        cases h
      · rw [if_pos h]
        rfl

/-- The names that can be told from a sign are those whose literals are read as
they were written, with either sign. -/
theorem read_render_iff (l : Literal) :
    read l.render = .ok l ↔ isReadableName l.name.toList = true := by
  constructor
  · intro h
    exact (render_of_read h).2
  · exact read_render

end Literal

end Clausal
