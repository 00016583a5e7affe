/-
# Which keyword is to blame

A change of a vocabulary leads to a list of keywords, new ones and ones that are
kept, under one case mode.  An entry of the list is at fault for its own spelling,
or because its key is the key of an earlier entry with another operator.  A change
fails exactly if some entry is at fault, and the keyword that it names is that of
the first one, with the first of its faults (`update_fails_at_culprit`).

Faults are said of the list alone (`Faulty`, `CulpritAt`), and so is success: a list
is `Consistent` if its keywords are well formed and none with the same key have two
operators.  An index appears in neither.

In the proof the index of the entries read so far takes the place of the list of
them.  `Indexes` says that both know the same keys, and no entry that has been put
into an index is at fault; so the entry at which reading ends is the first one that
is.  Since there is at most one culprit, naming a culprit determines the error.
-/
import Clausal.Proofs.VocabularyRuns

namespace Clausal

open Text

/-- The order in which the faults of one keyword are told. -/
def KeywordFault.number : KeywordFault → Nat
  | .empty => 0
  | .blank => 1
  | .parenthesis => 2
  | .ambiguous => 3

theorem KeywordFault.eq_of_number {fault fault' : KeywordFault}
    (h : fault.number = fault'.number) : fault = fault' := by
  cases fault <;> cases fault' <;> first | rfl | cases h

namespace Vocabulary

/-! ## Faults

The faults of an entry have an order, `KeywordFault.number`, which is that in which
they are looked for.  Only the last of them has to do with other entries, and it can
only be the first fault of a keyword that is well formed. -/

/-- What may be wrong with an entry that comes behind others. -/
def Faulty (caseSensitive : Bool) (before : List (String × Operator)) (e : String × Operator) :
    KeywordFault → Prop
  | .empty => e.1 = ""
  | .blank => ∃ c ∈ e.1.toList, isBlank c = true
  | .parenthesis => ∃ c ∈ e.1.toList, c = '(' ∨ c = ')'
  | .ambiguous =>
    ∃ e' ∈ before, keyOf caseSensitive e'.1 = keyOf caseSensitive e.1 ∧ e'.2 ≠ e.2

/-- The entry at an index of a list has a fault. -/
def FaultyAt (caseSensitive : Bool) (es : List (String × Operator)) (i : Nat)
    (fault : KeywordFault) : Prop :=
  ∃ e, es[i]? = some e ∧ Faulty caseSensitive (es.take i) e fault

/-- An error names the first entry at fault, and the first of its faults. -/
structure CulpritAt (caseSensitive : Bool) (es : List (String × Operator)) (i : Nat)
    (error : KeywordError) : Prop where
  keyword : ∃ op, es[i]? = some (error.keyword, op)
  fault : FaultyAt caseSensitive es i error.fault
  first_fault : ∀ fault, FaultyAt caseSensitive es i fault → error.fault.number ≤ fault.number
  first : ∀ j fault, FaultyAt caseSensitive es j fault → i ≤ j

/-- All keywords are well formed, and none with the same key have two operators. -/
structure Consistent (caseSensitive : Bool) (es : List (String × Operator)) : Prop where
  isKeyword : ∀ e ∈ es, IsKeyword e.1
  operator_eq : ∀ e ∈ es, ∀ e' ∈ es,
    keyOf caseSensitive e.1 = keyOf caseSensitive e'.1 → e.2 = e'.2

variable {caseSensitive : Bool} {es before rest index index' : List (String × Operator)}
  {e : String × Operator} {k : String} {op : Operator} {i j : Nat} {fault : KeywordFault}
  {error error' : KeywordError}

theorem CulpritAt.unique (h : CulpritAt caseSensitive es i error)
    (h' : CulpritAt caseSensitive es j error') : error = error' := by
  obtain rfl : i = j := Nat.le_antisymm (h.first _ _ h'.fault) (h'.first _ _ h.fault)
  obtain ⟨op, hop⟩ := h.keyword
  obtain ⟨op', hop'⟩ := h'.keyword
  have hkeyword : error.keyword = error'.keyword :=
    congrArg Prod.fst (Option.some.inj (hop.symm.trans hop'))
  have hfault : error.fault = error'.fault :=
    KeywordFault.eq_of_number
      (Nat.le_antisymm (h.first_fault _ h'.fault) (h'.first_fault _ h.fault))
  cases error
  cases hkeyword
  cases hfault
  rfl

theorem Faulty.eq_ambiguous (hk : IsKeyword e.1) (h : Faulty caseSensitive before e fault) :
    fault = .ambiguous := by
  cases fault with
  | empty => exact absurd h hk.ne_empty
  | blank =>
      obtain ⟨c, hc, hblank⟩ := h
      rw [(hk.plain c hc).1] at hblank
      cases hblank
  | parenthesis =>
      obtain ⟨c, hc, rfl | rfl⟩ := h
      · exact absurd rfl (hk.plain _ hc).2.1
      · exact absurd rfl (hk.plain _ hc).2.2
  | ambiguous => rfl

theorem faulty_of_keywordFault? (h : keywordFault? k = some fault) :
    Faulty caseSensitive before (k, op) fault ∧
      ∀ fault', Faulty caseSensitive before (k, op) fault' → fault.number ≤ fault'.number := by
  dsimp only [keywordFault?] at h
  split at h
  · rename_i hempty
    cases h
    exact ⟨String.toList_eq_nil_iff.mp (List.isEmpty_iff.mp hempty), fun _ _ => Nat.zero_le _⟩
  rename_i hempty
  have hne : k ≠ "" := by
    rintro rfl
    exact hempty rfl
  split at h
  · rename_i hblank
    cases h
    refine ⟨List.any_eq_true.mp hblank, fun fault' hf => ?_⟩
    cases fault' with
    | empty => exact absurd hf hne
    | blank | parenthesis | ambiguous => decide
  rename_i hblank
  split at h
  · rename_i hparen
    cases h
    refine ⟨by simpa [Faulty] using hparen, fun fault' hf => ?_⟩
    cases fault' with
    | empty => exact absurd hf hne
    | blank => exact absurd (List.any_eq_true.mpr hf) hblank
    | parenthesis | ambiguous => decide
  · cases h

theorem Consistent.not_faultyAt (h : Consistent caseSensitive es) :
    ¬ FaultyAt caseSensitive es i fault := by
  rintro ⟨e, he, hf⟩
  have hmem := List.mem_of_getElem? he
  obtain rfl := hf.eq_ambiguous (h.isKeyword e hmem)
  obtain ⟨e', he', hkey, hne⟩ := hf
  exact hne (h.operator_eq e' (List.mem_of_mem_take he') e hmem hkey)

/-! ## Faults and the index

Reading goes from an index of the entries before to one of the next entry as well; where
it cannot go on, the next entry is the culprit, also in the whole list.  That no earlier
entry is at fault is not searched for: entries that an index knows are consistent, as the
index could not know two operators for one key. -/

theorem Indexes.consistent (h : Indexes caseSensitive es index) :
    Consistent caseSensitive es where
  isKeyword := h.isKeyword
  operator_eq _ he _ he' hkey := h.operator_eq he he' hkey

theorem Indexes.culpritAt (h : Indexes caseSensitive before index)
    (hf : Faulty caseSensitive before (k, op) fault)
    (hleast : ∀ fault', Faulty caseSensitive before (k, op) fault' →
      fault.number ≤ fault'.number) :
    CulpritAt caseSensitive (before ++ (k, op) :: rest) before.length ⟨k, fault⟩ := by
  have hget : (before ++ (k, op) :: rest)[before.length]? = some (k, op) := by simp
  have htake : (before ++ (k, op) :: rest).take before.length = before := by simp
  refine ⟨⟨op, hget⟩, ⟨(k, op), hget, by rwa [htake]⟩, ?_, ?_⟩
  · rintro fault' ⟨e, he, hf'⟩
    cases hget.symm.trans he
    rw [htake] at hf'
    exact hleast fault' hf'
  · -- what comes earlier is in the index, and so consistent
    rintro j fault' ⟨e, he, hf'⟩
    rw [← Nat.not_lt]
    intro hj
    rw [List.getElem?_append_left hj] at he
    rw [List.take_append_of_le_length (Nat.le_of_lt hj)] at hf'
    exact h.consistent.not_faultyAt ⟨e, he, hf'⟩

/-- Reading entries one by one, the index stays one of those read, and the entry at
which this ends is the culprit. -/
theorem Indexes.culpritAt_of_extendIndex (h : Indexes caseSensitive before index)
    (hext : Vocabulary.extendIndex caseSensitive index rest = .error error) :
    ∃ i, CulpritAt caseSensitive (before ++ rest) i error := by
  induction rest generalizing before index with
  | nil => cases hext
  | cons e rest ih =>
      obtain ⟨k, op⟩ := e
      rw [Vocabulary.extendIndex] at hext
      split at hext
      · rename_i fault hfault
        cases hext
        obtain ⟨hf, hleast⟩ := faulty_of_keywordFault? hfault
        exact ⟨_, h.culpritAt hf hleast⟩
      rename_i hfault
      have hk := isKeyword_of_keywordFault? hfault
      dsimp only at hext
      split at hext
      · rename_i hnew
        rw [List.append_cons]
        exact ih (h.insert hk hnew) hext
      rename_i prior hprior
      split at hext
      · rename_i heq
        subst heq
        rw [List.append_cons]
        exact ih (h.repeat hk hprior) hext
      · rename_i hne
        cases hext
        obtain ⟨k', hk', hkey⟩ := (h.lookup_iff _ prior).mp hprior
        refine ⟨_, h.culpritAt ⟨(k', prior), hk', hkey, hne⟩ fun fault' hf => ?_⟩
        obtain rfl := hf.eq_ambiguous hk
        exact Nat.le_refl _

/-! ## Changes

A change of one list keeps the other one and the case mode; a change of the case mode
keeps both lists.  So the list that a change leads to has kept entries in it, and the
culprit may be one of them: a new keyword of negation can make a connective ambiguous. -/

/-- The keywords that a change leads to, with their operators. -/
def keywordsAfter (v : Vocabulary) : Update → List (String × Operator)
  | .negations ks => entries ks v.connectives
  | .connectives ks => entries v.negations ks
  | .caseSensitive _ => v.keywords

/-- The case mode that a change leads to. -/
def caseSensitiveAfter (v : Vocabulary) : Update → Bool
  | .negations _ | .connectives _ => v.caseSensitive
  | .caseSensitive matters => matters

variable {v w : Vocabulary} {u : Update}

theorem keywords_set (v : Vocabulary) (u : Update) : (v.set u).keywords = v.keywordsAfter u := by
  cases u <;> rfl

theorem caseSensitive_set (v : Vocabulary) (u : Update) :
    (v.set u).caseSensitive = v.caseSensitiveAfter u := by
  cases u <;> rfl

/-- A change leads where it says, or fails at a culprit. -/
theorem update_cases (v : Vocabulary) (u : Update) :
    (∃ w, v.update u = .ok w ∧ w.keywords = v.keywordsAfter u ∧
        w.caseSensitive = v.caseSensitiveAfter u) ∨
      ∃ error i, v.update u = .error error ∧
        CulpritAt (v.caseSensitiveAfter u) (v.keywordsAfter u) i error := by
  rw [update_eq, ← keywords_set, ← caseSensitive_set]
  cases hindex : buildIndex (v.set u) with
  | ok index => exact .inl ⟨_, rfl, rfl, rfl⟩
  | error error =>
      obtain ⟨i, hi⟩ := indexes_nil.culpritAt_of_extendIndex hindex
      exact .inr ⟨error, i, rfl, hi⟩

theorem consistent_of_update (h : v.update u = .ok w) :
    Consistent (v.caseSensitiveAfter u) (v.keywordsAfter u) := by
  rcases update_cases v u with ⟨w', hw, hkeywords, hcase⟩ | ⟨error, i, herror, -⟩
  · cases hw.symm.trans h
    rw [← hkeywords, ← hcase]
    exact Indexes.consistent (coherent_of_update h)
  · cases herror.symm.trans h

/-- A change succeeds exactly if all keywords that it leads to are well formed and
none with the same key have two operators, and then it leads to them.  Otherwise it
fails with the keyword of the first entry at fault and the first of its faults, and
with no other error. -/
theorem update_fails_at_culprit (v : Vocabulary) (u : Update) :
    ((∃ w, v.update u = .ok w) ↔
        Consistent (v.caseSensitiveAfter u) (v.keywordsAfter u)) ∧
      (∀ w, v.update u = .ok w →
        w.keywords = v.keywordsAfter u ∧ w.caseSensitive = v.caseSensitiveAfter u) ∧
      ∀ error, v.update u = .error error ↔
        ∃ i, CulpritAt (v.caseSensitiveAfter u) (v.keywordsAfter u) i error := by
  rcases update_cases v u with ⟨w, hw, hafter⟩ | ⟨error, i, herror, hculprit⟩
  · have hconsistent := consistent_of_update hw
    rw [hw]
    refine ⟨⟨fun _ => hconsistent, fun _ => ⟨w, rfl⟩⟩, ?_, ?_⟩
    · rintro _ ⟨⟩
      exact hafter
    · intro error
      exact ⟨nofun, fun ⟨_, h⟩ => absurd h.fault hconsistent.not_faultyAt⟩
  · rw [herror]
    refine ⟨⟨nofun, fun h => absurd hculprit.fault h.not_faultyAt⟩, nofun, fun error' => ?_⟩
    constructor
    · rintro ⟨⟩
      exact ⟨i, hculprit⟩
    · rintro ⟨j, h⟩
      rw [hculprit.unique h]

/-- A keyword that is there twice with one operator does no harm, and a malformed one
further on is not reached. -/
theorem update_fails_at_culprit_taken_key :
    let u : Update := .connectives [("y", .and), ("Y", .and), ("NOT", .or), ("a (b", .xor)]
    standard.update u = .error ⟨"NOT", .ambiguous⟩ ∧
      ¬ Consistent false (standard.keywordsAfter u) ∧
      ∃ i, CulpritAt false (standard.keywordsAfter u) i ⟨"NOT", .ambiguous⟩ := by
  intro u
  have herror : standard.update u = .error ⟨"NOT", .ambiguous⟩ := by rfl
  obtain ⟨hok, -, hculprit⟩ := update_fails_at_culprit standard u
  refine ⟨herror, fun h => ?_, (hculprit _).mp herror⟩
  obtain ⟨w, hw⟩ := hok.mpr h
  cases herror.symm.trans hw

end Vocabulary

end Clausal
