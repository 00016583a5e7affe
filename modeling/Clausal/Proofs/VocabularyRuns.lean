/-
# Vocabularies over whole runs of changes

A vocabulary keeps two lists of keywords, and beside them an index by which words are
looked up.  `Coherent` says that the index is no data of its own: a word denotes an
operator exactly if some keyword of that operator has the same key.

What one change preserves: a change that succeeds builds the index anew from the new
settings, so whatever the vocabulary was before, it is coherent afterwards
(`coherent_of_update`); one that fails leaves the vocabulary that it found.  So the
vocabulary is coherent after any run of changes, however they are mixed, and no change
has to be looked at with the ones before it in mind (`run_induction`).

What follows for words is `operator?_run`.  In a coherent vocabulary a keyword denotes
its own operator and no key is shared by two; and as the index has no data of its own,
two runs that end with the same settings end with the same answers for every word.

Keys are texts, and two keywords with one key need not be spelled alike where case does
not matter.  The statements are in terms of keys throughout.
-/
import Clausal.Vocabulary

namespace Clausal

open Text

/-- A text that may be a keyword. -/
structure IsKeyword (k : String) : Prop where
  ne_empty : k ≠ ""
  plain : ∀ c ∈ k.toList, isBlank c = false ∧ c ≠ '(' ∧ c ≠ ')'

theorem isKeyword_of_keywordFault? {k : String} (h : keywordFault? k = none) : IsKeyword k := by
  have hempty : k.toList.isEmpty = false := by
    cases he : k.toList.isEmpty <;> simp_all [keywordFault?]
  have hblank : k.toList.any isBlank = false := by
    cases hb : k.toList.any isBlank <;> simp_all [keywordFault?]
  have hparen : (k.toList.any fun c => c == '(' || c == ')') = false := by
    cases hp : k.toList.any fun c => c == '(' || c == ')' <;> simp_all [keywordFault?]
  refine ⟨?_, fun c hc => ⟨?_, ?_⟩⟩
  · rintro rfl
    cases hempty
  · simpa using List.any_eq_false.mp hblank c hc
  · simpa using List.any_eq_false.mp hparen c hc

namespace Vocabulary

/-- All keywords of a vocabulary, with their operators. -/
def keywords (v : Vocabulary) : List (String × Operator) := entries v.negations v.connectives

/-! ## An index of keywords

The invariant of building an index: the index so far is one of the keywords read so far.
A keyword with a new key is put in, one whose key is there for the same operator changes
nothing, and any other ends the building.  The invariant says nothing of the order of the
index, since a key that is put in is not there yet. -/

/-- The index holds the keys of the keywords and no others, and the keywords are
well formed. -/
structure Indexes (caseSensitive : Bool) (es index : List (String × Operator)) : Prop where
  isKeyword : ∀ e ∈ es, IsKeyword e.1
  lookup_iff : ∀ key op,
    index.lookup key = some op ↔ ∃ k, (k, op) ∈ es ∧ keyOf caseSensitive k = key

variable {caseSensitive : Bool} {es rest index index' : List (String × Operator)}

theorem indexes_nil : Indexes caseSensitive [] [] := by
  constructor <;> simp

theorem Indexes.insert {k : String} {op : Operator} (h : Indexes caseSensitive es index)
    (hk : IsKeyword k) (hnew : index.lookup (keyOf caseSensitive k) = none) :
    Indexes caseSensitive (es ++ [(k, op)]) ((keyOf caseSensitive k, op) :: index) := by
  constructor
  · intro e he
    rcases List.mem_append.mp he with he | he
    · exact h.isKeyword e he
    · rw [List.mem_singleton.mp he]
      exact hk
  · intro key op'
    rw [List.lookup_cons]
    by_cases hkey : key = keyOf caseSensitive k
    · -- no earlier keyword has this key, or the index would know it
      subst hkey
      have hearlier : ¬ ∃ k', (k', op') ∈ es ∧ keyOf caseSensitive k' = keyOf caseSensitive k := by
        rw [← h.lookup_iff, hnew]
        nofun
      simp only [beq_self_eq_true, Option.some.injEq, List.mem_append, List.mem_singleton,
        Prod.mk.injEq]
      constructor
      · rintro rfl
        exact ⟨k, .inr ⟨rfl, rfl⟩, rfl⟩
      · rintro ⟨k', hk' | ⟨-, rfl⟩, hkk'⟩
        · exact absurd ⟨k', hk', hkk'⟩ hearlier
        · rfl
    · have hbeq : (key == keyOf caseSensitive k) = false := by simpa using hkey
      simp only [hbeq, h.lookup_iff, List.mem_append, List.mem_singleton, Prod.mk.injEq]
      constructor
      · rintro ⟨k', hk', rfl⟩
        exact ⟨k', .inl hk', rfl⟩
      · rintro ⟨k', hk' | ⟨rfl, -⟩, hkk'⟩
        · exact ⟨k', hk', hkk'⟩
        · exact absurd hkk'.symm hkey

theorem Indexes.repeat {k : String} {op : Operator} (h : Indexes caseSensitive es index)
    (hk : IsKeyword k) (hknown : index.lookup (keyOf caseSensitive k) = some op) :
    Indexes caseSensitive (es ++ [(k, op)]) index := by
  constructor
  · intro e he
    rcases List.mem_append.mp he with he | he
    · exact h.isKeyword e he
    · rw [List.mem_singleton.mp he]
      exact hk
  · intro key op'
    constructor
    · intro hlookup
      obtain ⟨k', hk', hkey⟩ := (h.lookup_iff key op').mp hlookup
      exact ⟨k', List.mem_append_left _ hk', hkey⟩
    · rintro ⟨k', hk', rfl⟩
      rcases List.mem_append.mp hk' with hk' | hk'
      · exact (h.lookup_iff _ op').mpr ⟨k', hk', rfl⟩
      · cases List.mem_singleton.mp hk'
        exact hknown

/-- Keyword by keyword, the index stays one of all keywords so far. -/
theorem Indexes.extendIndex (h : Indexes caseSensitive es index)
    (hext : extendIndex caseSensitive index rest = .ok index') :
    Indexes caseSensitive (es ++ rest) index' := by
  induction rest generalizing es index with
  | nil =>
      cases hext
      rwa [List.append_nil]
  | cons e rest ih =>
      obtain ⟨k, op⟩ := e
      rw [List.append_cons]
      rw [Vocabulary.extendIndex] at hext
      split at hext
      · cases hext
      · rename_i hfault
        have hk := isKeyword_of_keywordFault? hfault
        dsimp only at hext
        split at hext
        · rename_i hnew
          exact ih (h.insert hk hnew) hext
        · rename_i prior hprior
          split at hext
          · rename_i heq
            subst heq
            exact ih (h.repeat hk hprior) hext
          · cases hext

theorem Indexes.operator_eq (h : Indexes caseSensitive es index) {k k' : String}
    {op op' : Operator} (hk : (k, op) ∈ es) (hk' : (k', op') ∈ es)
    (hkey : keyOf caseSensitive k = keyOf caseSensitive k') : op = op' := by
  have hop := (h.lookup_iff (keyOf caseSensitive k') op).mpr ⟨k, hk, hkey⟩
  have hop' := (h.lookup_iff (keyOf caseSensitive k') op').mpr ⟨k', hk', rfl⟩
  exact Option.some.inj (hop.symm.trans hop')

/-! ## Coherent vocabularies

The index of the standard vocabulary is given and not built, so its coherence is checked
keyword by keyword. -/

/-- The index is one of the keywords, under the present case mode. -/
def Coherent (v : Vocabulary) : Prop := Indexes v.caseSensitive v.keywords v.index

variable {v w : Vocabulary}

theorem coherent_standard : Coherent standard := by
  have hkey : ∀ e ∈ standard.keywords, keyOf false e.1 = e.1 := by decide
  have hlookup : ∀ e ∈ standard.keywords, standard.index.lookup e.1 = some e.2 := by decide
  constructor
  · have hfault : ∀ e ∈ standard.keywords, keywordFault? e.1 = none := by decide
    exact fun e he => isKeyword_of_keywordFault? (hfault e he)
  · intro key op
    constructor
    · intro h
      obtain ⟨l₁, l₂, hl, -⟩ := List.lookup_eq_some_iff.mp h
      have hmem : (key, op) ∈ standard.keywords := by
        show (key, op) ∈ standard.index
        simp [hl]
      exact ⟨key, hmem, hkey (key, op) hmem⟩
    · rintro ⟨k, hk, rfl⟩
      have hkk : keyOf standard.caseSensitive k = k := hkey (k, op) hk
      rw [hkk]
      exact hlookup (k, op) hk

theorem coherent_of_buildIndex {index : List (String × Operator)}
    (h : buildIndex v = .ok index) : Coherent { v with index } :=
  indexes_nil.extendIndex h

/-- Whatever the vocabulary was, a change that succeeds makes a coherent one. -/
theorem coherent_of_update {u : Update} (h : v.update u = .ok w) : Coherent w := by
  rw [update_eq] at h
  cases hindex : buildIndex (v.set u) with
  | error e =>
      rw [hindex] at h
      cases h
  | ok index =>
      rw [hindex] at h
      cases h
      exact coherent_of_buildIndex hindex

theorem Coherent.updateOrKeep (h : Coherent v) (u : Update) : Coherent (v.updateOrKeep u) := by
  cases hu : v.update u with
  | ok w =>
      rw [updateOrKeep_of_ok hu]
      exact coherent_of_update hu
  | error e =>
      rw [updateOrKeep_of_error hu]
      exact h

/-! ## What words denote

A word is looked up by its key, so what it denotes is said by the keywords with that key. -/

theorem Coherent.operator?_iff (h : Coherent v) (word : String) (op : Operator) :
    v.operator? word = some op ↔
      ∃ k, (k, op) ∈ v.keywords ∧ keyOf v.caseSensitive k = keyOf v.caseSensitive word :=
  h.lookup_iff _ op

theorem Coherent.operator?_of_mem (h : Coherent v) {k : String} {op : Operator}
    (hk : (k, op) ∈ v.keywords) : v.operator? k = some op :=
  (h.operator?_iff k op).mpr ⟨k, hk, rfl⟩

/-- Coherent vocabularies with the same settings agree on every word. -/
theorem Coherent.operator?_eq (hv : Coherent v) (hw : Coherent w)
    (hkeywords : v.keywords = w.keywords) (hcase : v.caseSensitive = w.caseSensitive)
    (word : String) : v.operator? word = w.operator? word := by
  apply Option.ext
  intro op
  rw [hv.operator?_iff, hw.operator?_iff, hkeywords, hcase]

/-! ## Runs

A run starts from the standard vocabulary and goes on after a failed change.  The
vocabularies that are reached by changes that succeed are the same ones
(`reachable_iff_run`), so a failed change is no way to a vocabulary that could not be had
without it. -/

/-- The vocabulary after changes to the standard one, made one after the other;
those that fail are passed over. -/
def run (us : List Update) : Vocabulary := us.foldl updateOrKeep standard

theorem run_append_singleton (us : List Update) (u : Update) :
    run (us ++ [u]) = (run us).updateOrKeep u := by
  rw [run, List.foldl_append]
  rfl

/-- What holds at the start and is kept by every change, failed or not, holds after
every run. -/
theorem run_induction {P : Vocabulary → Prop} (start : P standard)
    (step : ∀ v u, P v → P (v.updateOrKeep u)) (us : List Update) : P (run us) := by
  have hfrom : ∀ v, P v → P (us.foldl updateOrKeep v) := by
    induction us with
    | nil => exact fun v hv => hv
    | cons u us ih => exact fun v hv => ih _ (step v u hv)
  exact hfrom standard start

theorem coherent_run (us : List Update) : Coherent (run us) :=
  run_induction coherent_standard (fun _ u h => h.updateOrKeep u) us

theorem reachable_run (us : List Update) : Reachable (run us) := by
  refine run_induction .standard (fun v u h => ?_) us
  cases hu : v.update u with
  | ok w =>
      rw [updateOrKeep_of_ok hu]
      exact .update u h hu
  | error e =>
      rw [updateOrKeep_of_error hu]
      exact h

/-- The changes that fail can be left out of a run. -/
theorem reachable_iff_run : Reachable v ↔ ∃ us, run us = v := by
  constructor
  · intro h
    induction h with
    | standard => exact ⟨[], rfl⟩
    | update u _ hu ih =>
        obtain ⟨us, rfl⟩ := ih
        refine ⟨us ++ [u], ?_⟩
        rw [run_append_singleton, updateOrKeep_of_ok hu]
  · rintro ⟨us, rfl⟩
    exact reachable_run us

/-- After any run of changes, failed ones among them, the keywords are well formed
and a word denotes an operator exactly if one of its keywords has the key of the
word, so that each keyword denotes its own operator and keys are never shared
between two.  A change that fails keeps all as it was, and what words denote
depends on the settings alone and not on the run that led to them. -/
theorem operator?_run (us : List Update) :
    let v := run us
    (∀ e ∈ v.keywords, IsKeyword e.1) ∧
    (∀ word op, v.operator? word = some op ↔
      ∃ k, (k, op) ∈ v.keywords ∧ keyOf v.caseSensitive k = keyOf v.caseSensitive word) ∧
    (∀ e ∈ v.keywords, v.operator? e.1 = some e.2) ∧
    (∀ e ∈ v.keywords, ∀ e' ∈ v.keywords,
      keyOf v.caseSensitive e.1 = keyOf v.caseSensitive e'.1 → e.2 = e'.2) ∧
    (∀ u error, v.update u = .error error → run (us ++ [u]) = v) ∧
    ∀ us', (run us').negations = v.negations → (run us').connectives = v.connectives →
      (run us').caseSensitive = v.caseSensitive →
      ∀ word, (run us').operator? word = v.operator? word := by
  intro v
  have hv : Coherent v := coherent_run us
  refine ⟨hv.isKeyword, hv.operator?_iff, fun e he => hv.operator?_of_mem he,
    fun e he e' he' hkey => Indexes.operator_eq hv he he' hkey, ?_, ?_⟩
  · intro u error h
    rw [run_append_singleton, updateOrKeep_of_error h]
  · intro us' hnegations hconnectives hcase word
    refine (coherent_run us').operator?_eq hv ?_ hcase word
    rw [keywords, hnegations, hconnectives, keywords]

/-- Two words that only case tells apart: case cannot cease to matter, and a run in
which this is tried on the way ends with the same answers. -/
theorem operator?_run_case_conflict :
    let us : List Update := [.caseSensitive true, .connectives [("and", .and), ("AND", .or)]]
    let us' : List Update := us ++ [.negations ["(no"], .caseSensitive false]
    (run us).update (.caseSensitive false) = .error ⟨"AND", .ambiguous⟩ ∧
      run (us ++ [.caseSensitive false]) = run us ∧
      ("AND", .binary .or) ∈ (run us).keywords ∧ (run us).operator? "AND" = some (.binary .or) ∧
      ∀ word, (run us').operator? word = (run us).operator? word := by
  intro us us'
  obtain ⟨-, -, hdenotes, -, hfailed, hsame⟩ := operator?_run us
  have hmem : ("AND", .binary .or) ∈ (run us).keywords := by decide
  have herror : (run us).update (.caseSensitive false) = .error ⟨"AND", .ambiguous⟩ := by rfl
  exact ⟨herror, hfailed _ _ herror, hmem, hdenotes _ hmem,
    hsame us' (by decide) (by decide) (by decide)⟩

end Vocabulary

end Clausal
