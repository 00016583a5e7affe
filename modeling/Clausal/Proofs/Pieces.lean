/-
# Pieces of a text, and the words that they make up

`Piece.Cut` says how a text falls into pieces without saying how they are found: blanks
are dropped, a parenthesis is a piece, and plain characters make up runs that are as
long as can be.  `scan` finds them, and nothing else fits (`Piece.scan_eq_iff`); so what
is proved of all ways to cut a text is proved of its pieces, by induction on `Cut`.

Laid out again, pieces with no space between them make up a bundle.  Where a space goes
is decided by the two pieces at hand (`gap`), so the bundles of a list can be described
from its end, and a bundle turns out to be some opening parentheses, at most one run,
and some closing ones (`isBundle_of_mem_bundles`): nothing else can stand behind a
closing parenthesis without a space.

The bundles are exactly the words of the result (`words_normalize`).  This rests on two
facts about pieces that a text has: none is without characters, and none has a space.
-/
import Clausal.Piece

namespace Clausal

open Text

/-! ## Cutting off the front of a list

The front that is cut off from two lists joined is the first of them, if it has the
property throughout and the second does not begin with it. -/

section
variable {α : Type} {p : α → Bool} {w cs : List α}

theorem takeWhile_append_eq (hw : ∀ c ∈ w, p c = true) (hcs : ∀ c ∈ cs.head?, p c = false) :
    (w ++ cs).takeWhile p = w := by
  rw [List.takeWhile_append_of_pos hw]
  cases cs with
  | nil => simp
  | cons c cs => simp [hcs c rfl]

theorem dropWhile_append_eq (hw : ∀ c ∈ w, p c = true) (hcs : ∀ c ∈ cs.head?, p c = false) :
    (w ++ cs).dropWhile p = cs := by
  rw [List.dropWhile_append_of_pos hw]
  cases cs with
  | nil => rfl
  | cons c cs => simp [hcs c rfl]

theorem head?_dropWhile_eq_false : ∀ c ∈ (cs.dropWhile p).head?, p c = false := by
  intro c hc
  have hn := List.head?_dropWhile_not p cs
  rw [Option.mem_def.mp hc] at hn
  simpa using hn

end

namespace Piece

/-! ## How a text is cut

`scan` has a rule for each kind of character, and `Cut` a constructor; the lemmas
`scan_blank`, `scan_side` and `scan_run` match them, and `scan_run` takes a run as a
whole. -/

/-- The pieces of a text: blanks are dropped, a parenthesis is a piece, and a run
of plain characters is one as long as can be. -/
inductive Cut : List Char → List Piece → Prop
  | nil : Cut [] []
  | blank {c : Char} {cs : List Char} {ps : List Piece} :
      isBlank c = true → Cut cs ps → Cut (c :: cs) ps
  | opening {cs : List Char} {ps : List Piece} :
      Cut cs ps → Cut ('(' :: cs) (.opening :: ps)
  | closing {cs : List Char} {ps : List Piece} :
      Cut cs ps → Cut (')' :: cs) (.closing :: ps)
  | run {w cs : List Char} {ps : List Piece} :
      w ≠ [] → (∀ c ∈ w, isPlain c = true) → (∀ c ∈ cs.head?, isPlain c = false) →
      Cut cs ps → Cut (w ++ cs) (.run (String.ofList w) :: ps)

theorem isPlain_iff {c : Char} :
    isPlain c = true ↔ isBlank c = false ∧ c ≠ '(' ∧ c ≠ ')' := by
  simp [isPlain, and_assoc]

theorem scan_blank {c : Char} {cs : List Char} (h : isBlank c = true) :
    scan (c :: cs) = scan cs := by
  rw [scan, if_pos h]

theorem scan_side (side : Side) (cs : List Char) :
    scan (side.char :: cs) = side.piece :: scan cs := by
  cases side <;> rw [scan, if_neg (by simp)] <;> rfl

theorem scan_run {w cs : List Char} (hw : w ≠ []) (hp : ∀ c ∈ w, isPlain c = true)
    (hcs : ∀ c ∈ cs.head?, isPlain c = false) :
    scan (w ++ cs) = .run (String.ofList w) :: scan cs := by
  obtain ⟨c, w, rfl⟩ := List.exists_cons_of_ne_nil hw
  obtain ⟨hb, ho, hc⟩ := isPlain_iff.mp (hp c List.mem_cons_self)
  have hp' : ∀ d ∈ w, isPlain d = true := fun d hd => hp d (List.mem_cons_of_mem c hd)
  rw [List.cons_append, scan, if_neg (by simp [hb]), if_neg ho, if_neg hc,
    takeWhile_append_eq hp' hcs, dropWhile_append_eq hp' hcs]

theorem scan_eq_of_cut {cs : List Char} {ps : List Piece} (h : Cut cs ps) : scan cs = ps := by
  induction h with
  | nil => rw [scan]
  | blank hc _ ih => rw [scan_blank hc, ih]
  | opening _ ih => exact (scan_side .opening _).trans (congrArg _ ih)
  | closing _ ih => exact (scan_side .closing _).trans (congrArg _ ih)
  | run hw hp hcs _ ih => rw [scan_run hw hp hcs, ih]

theorem cut_scan (cs : List Char) : Cut cs (scan cs) := by
  fun_induction scan cs with
  | case1 => exact .nil
  | case2 c rest hb ih => exact .blank hb ih
  | case3 rest _ ih => exact .opening ih
  | case4 rest _ _ ih => exact .closing ih
  | case5 c rest hb ho hc ih =>
      have hp : ∀ d ∈ c :: rest.takeWhile isPlain, isPlain d = true := by
        intro d hd
        rcases List.mem_cons.mp hd with rfl | hd
        · exact isPlain_iff.mpr ⟨by simpa using hb, ho, hc⟩
        · exact List.all_eq_true.mp List.all_takeWhile d hd
      have hcut := Cut.run (List.cons_ne_nil c _) hp head?_dropWhile_eq_false ih
      rwa [List.cons_append, List.takeWhile_append_dropWhile] at hcut

/-- The pieces that are found are the pieces. -/
theorem scan_eq_iff {cs : List Char} {ps : List Piece} : scan cs = ps ↔ Cut cs ps := by
  constructor
  · rintro rfl
    exact cut_scan cs
  · exact scan_eq_of_cut

theorem scan_of_all_blank {cs : List Char} (h : cs.all isBlank = true) : scan cs = [] := by
  induction cs with
  | nil => rw [scan]
  | cons c cs ih =>
      obtain ⟨hc, hcs⟩ := List.all_cons.symm.trans h |> Bool.and_eq_true_iff.mp
      rw [scan_blank hc, ih hcs]

/-- What a piece of a text is like. -/
def Proper : Piece → Prop
  | .run text => text.toList ≠ [] ∧ ∀ c ∈ text.toList, isPlain c = true
  | _ => True

theorem proper_of_cut {cs : List Char} {ps : List Piece} (h : Cut cs ps) :
    ∀ p ∈ ps, p.Proper := by
  induction h with
  | nil => simp
  | blank _ _ ih => exact ih
  | opening _ ih | closing _ ih => exact List.forall_mem_cons.mpr ⟨trivial, ih⟩
  | run hw hp _ _ ih =>
      refine List.forall_mem_cons.mpr ⟨?_, ih⟩
      simpa only [Proper, String.toList_ofList] using And.intro hw hp

theorem Proper.chars_ne_nil {p : Piece} (h : p.Proper) : p.chars ≠ [] := by
  cases p with
  | opening | closing => exact List.cons_ne_nil _ _
  | run text => exact h.1

theorem Proper.space_notMem {p : Piece} (h : p.Proper) : ' ' ∉ p.chars := by
  intro hm
  cases p with
  | opening | closing =>
      rw [chars, List.mem_singleton] at hm
      exact absurd hm (by decide)
  | run text =>
      have hs := (isPlain_iff.mp (h.2 _ hm)).1
      rw [isBlank_space] at hs
      cases hs

/-- A run is cut off in front of anything that cannot go on with it. -/
theorem cut_run {x : String} {cs : List Char} {ps : List Piece} (hx : Proper (.run x))
    (hcs : ∀ c ∈ cs.head?, isPlain c = false) (h : Cut cs ps) :
    Cut (x.toList ++ cs) (.run x :: ps) := by
  have hrun := Cut.run hx.1 hx.2 hcs h
  rwa [String.ofList_toList] at hrun

theorem cut_run_space {x : String} {cs : List Char} {ps : List Piece} (hx : Proper (.run x))
    (h : Cut cs ps) : Cut (x.toList ++ ' ' :: cs) (.run x :: ps) := by
  apply cut_run hx
  · rintro c ⟨⟩
    decide
  · exact .blank isBlank_space h

/-! ## Bundles

`bundles` and `layout` look at the same gaps, and the recursion of both is that of a piece
in front of another; `bundles_cons_cons` says what happens at one gap.  Since a piece is
never laid out across a space, the bundles joined again are the pieces, and the layout is
the bundles with single spaces between them. -/

/-- Pieces put together where no space comes between them. -/
def bundles : List Piece → List (List Piece)
  | [] => []
  | [p] => [[p]]
  | p :: q :: rest =>
    if gap p q = [] then (bundles (q :: rest)).modifyHead (p :: ·)
    else [p] :: bundles (q :: rest)

/-- The characters of a bundle. -/
def textOf (b : List Piece) : List Char := b.flatMap chars

theorem gap_eq_nil_iff {p q : Piece} : gap p q = [] ↔ p = .opening ∨ q = .closing := by
  cases p <;> cases q <;> simp [gap]

theorem gap_eq_space {p q : Piece} (h : gap p q ≠ []) : gap p q = [' '] := by
  cases p <;> cases q <;> simp_all [gap]

theorem bundles_cons (p : Piece) (ps : List Piece) :
    ∃ b bs, bundles (p :: ps) = (p :: b) :: bs := by
  cases ps with
  | nil => exact ⟨[], [], rfl⟩
  | cons q rest =>
      rw [bundles]
      split
      · obtain ⟨b, bs, hb⟩ := bundles_cons q rest
        rw [hb]
        exact ⟨q :: b, bs, rfl⟩
      · exact ⟨[], _, rfl⟩

/-- The two ways in which a piece comes before others: into their first bundle, or
alone. -/
theorem bundles_cons_cons (p q : Piece) (rest : List Piece) :
    ∃ b bs, bundles (q :: rest) = (q :: b) :: bs ∧
      (gap p q = [] ∧ bundles (p :: q :: rest) = (p :: q :: b) :: bs ∨
        gap p q = [' '] ∧ bundles (p :: q :: rest) = [p] :: (q :: b) :: bs) := by
  obtain ⟨b, bs, hb⟩ := bundles_cons q rest
  refine ⟨b, bs, hb, ?_⟩
  rw [bundles, hb]
  by_cases hg : gap p q = []
  · exact .inl ⟨hg, if_pos hg⟩
  · exact .inr ⟨gap_eq_space hg, if_neg hg⟩

theorem flatten_bundles (ps : List Piece) : (bundles ps).flatten = ps := by
  fun_induction bundles ps with
  | case1 | case2 => rfl
  | case3 p q rest _ ih =>
      obtain ⟨b, bs, hb⟩ := bundles_cons q rest
      rw [hb] at ih ⊢
      exact congrArg (p :: ·) ih
  | case4 p q rest _ ih => exact congrArg (p :: ·) ih

theorem ne_nil_of_mem_bundles {ps b : List Piece} (h : b ∈ bundles ps) : b ≠ [] := by
  fun_induction bundles ps with
  | case1 => cases h
  | case2 p =>
      rw [List.mem_singleton.mp h]
      exact List.cons_ne_nil p []
  | case3 p q rest _ ih =>
      obtain ⟨c, bs, hb⟩ := bundles_cons q rest
      rw [hb] at ih h
      rcases List.mem_cons.mp h with rfl | h
      · exact List.cons_ne_nil _ _
      · exact ih (List.mem_cons_of_mem _ h)
  | case4 p q rest _ ih =>
      rcases List.mem_cons.mp h with rfl | h
      · exact List.cons_ne_nil p []
      · exact ih h

theorem mem_of_mem_bundles {ps b : List Piece} {p : Piece} (hb : b ∈ bundles ps)
    (hp : p ∈ b) : p ∈ ps := by
  rw [← flatten_bundles ps]
  exact List.mem_flatten.mpr ⟨b, hb, hp⟩

/-- The layout of pieces is their bundles with spaces between. -/
theorem layout_eq (ps : List Piece) :
    layout ps = [' '].intercalate ((bundles ps).map textOf) := by
  fun_induction layout ps with
  | case1 => rfl
  | case2 p =>
      rw [bundles, List.map_singleton, List.intercalate_singleton]
      exact (List.append_nil _).symm
  | case3 p q rest ih =>
      obtain ⟨b, bs, hb, ⟨hg, hbs⟩ | ⟨hg, hbs⟩⟩ := bundles_cons_cons p q rest
      · rw [hb, List.map_cons] at ih
        rw [hbs, hg, ih, List.append_nil, List.map_cons]
        show p.chars ++ _ = [' '].intercalate ((p.chars ++ textOf (q :: b)) :: bs.map textOf)
        cases bs with
        | nil => simp only [List.map_nil, List.intercalate_singleton]
        | cons d ds => simp only [List.map_cons, List.intercalate_cons_cons, List.append_assoc]
      · rw [hbs, hg, ih, hb, List.map_cons, List.map_cons, List.map_cons,
          List.intercalate_cons_cons]
        show _ = p.chars ++ [] ++ [' '] ++ _
        rw [List.append_nil]

/-- Opening parentheses, at most one run, and closing parentheses. -/
inductive IsBundle : List Piece → Prop
  | closings (k : Nat) : IsBundle (List.replicate k .closing)
  | run (text : String) (k : Nat) : IsBundle (.run text :: List.replicate k .closing)
  | opening {b : List Piece} : IsBundle b → IsBundle (.opening :: b)

theorem IsBundle.eq_closings {b : List Piece} (h : IsBundle (.closing :: b)) :
    ∃ k, b = List.replicate k .closing := by
  generalize hc : Piece.closing :: b = c at h
  cases h with
  | closings k =>
      cases k with
      | zero => cases hc
      | succ k => exact ⟨k, (List.cons.inj hc).2⟩
  | run | opening => cases hc

theorem isBundle_of_mem_bundles {ps b : List Piece} (h : b ∈ bundles ps) : IsBundle b := by
  have alone : ∀ p, IsBundle [p] := by
    intro p
    cases p with
    | opening => exact .opening (.closings 0)
    | closing => exact .closings 1
    | run text => exact .run text 0
  fun_induction bundles ps generalizing b with
  | case1 => cases h
  | case2 p =>
      rw [List.mem_singleton.mp h]
      exact alone p
  | case3 p q rest hg ih =>
      obtain ⟨c, bs, hb⟩ := bundles_cons q rest
      rw [hb] at ih h
      have hc : IsBundle (q :: c) := ih List.mem_cons_self
      rcases List.mem_cons.mp h with rfl | h
      · rcases gap_eq_nil_iff.mp hg with rfl | rfl
        · exact .opening hc
        · obtain ⟨k, rfl⟩ := hc.eq_closings
          cases p with
          | opening => exact .opening hc
          | closing => exact .closings (k + 2)
          | run text => exact .run text (k + 1)
      · exact ih (List.mem_cons_of_mem _ h)
  | case4 p q rest _ ih =>
      rcases List.mem_cons.mp h with rfl | h
      · exact alone p
      · exact ih h

end Piece

/-! ## Words

Words are cut at the space character alone.  A layout has no others at its ends and no
two in a row, so no empty word comes about. -/

theorem pieces_eq_nil_iff {text : String} : pieces text = [] ↔ Text.isAllBlank text = true := by
  constructor
  · intro h
    have hcut := Piece.cut_scan text.toList
    rw [show Piece.scan text.toList = [] from h] at hcut
    refine List.all_eq_true.mpr ?_
    generalize text.toList = cs at hcut
    generalize hps : ([] : List Piece) = ps at hcut
    induction hcut with
    | nil => simp
    | blank hc _ ih => exact List.forall_mem_cons.mpr ⟨hc, ih hps⟩
    | opening | closing | run => cases hps
  · exact Piece.scan_of_all_blank

theorem splitWords_append {w cs : List Char} (hw : w ≠ []) (hs : ' ' ∉ w)
    (hcs : ∀ c ∈ cs.head?, c = ' ') :
    splitWords (w ++ cs) = String.ofList w :: splitWords cs := by
  obtain ⟨c, w, rfl⟩ := List.exists_cons_of_ne_nil hw
  have hc : c ≠ ' ' := by
    rintro rfl
    exact hs List.mem_cons_self
  have hw' : ∀ d ∈ w, (d != ' ') = true := by
    intro d hd
    refine bne_iff_ne.mpr ?_
    rintro rfl
    exact hs (List.mem_cons_of_mem c hd)
  have hcs' : ∀ d ∈ cs.head?, (d != ' ') = false := by
    intro d hd
    rw [hcs d hd]
    rfl
  rw [List.cons_append, splitWords, if_neg hc, takeWhile_append_eq hw' hcs',
    dropWhile_append_eq hw' hcs']

/-- Words joined by spaces are found again. -/
theorem splitWords_intercalate {ws : List (List Char)} (h : ∀ w ∈ ws, w ≠ [] ∧ ' ' ∉ w) :
    splitWords ([' '].intercalate ws) = ws.map String.ofList := by
  induction ws with
  | nil => rw [List.intercalate_nil, splitWords, List.map_nil]
  | cons w ws ih =>
      obtain ⟨⟨hw, hs⟩, hws⟩ := List.forall_mem_cons.mp h
      rw [List.map_cons, ← ih hws]
      cases ws with
      | nil =>
          have hend : splitWords (w ++ []) = String.ofList w :: splitWords [] :=
            splitWords_append hw hs (by simp)
          rw [List.append_nil] at hend
          rw [List.intercalate_singleton, List.intercalate_nil, hend]
      | cons u us =>
          rw [List.intercalate_cons_cons, List.append_assoc, splitWords_append hw hs]
          · rw [List.singleton_append, splitWords, if_pos rfl]
          · intro c hc
            exact (Option.some.inj hc).symm

/-- The words of a text with its pieces evenly spaced are their bundles. -/
theorem words_normalize (text : String) :
    words (normalize text) =
      (Piece.bundles (pieces text)).map fun b => String.ofList (Piece.textOf b) := by
  rw [words, normalize, String.toList_ofList, Piece.layout_eq, splitWords_intercalate,
    List.map_map]
  · rfl
  · intro w hw
    obtain ⟨b, hb, rfl⟩ := List.mem_map.mp hw
    have hp : ∀ p ∈ b, p.Proper := fun p hp =>
      Piece.proper_of_cut (Piece.cut_scan text.toList) p (Piece.mem_of_mem_bundles hb hp)
    constructor
    · obtain ⟨p, c, rfl⟩ := List.exists_cons_of_ne_nil (Piece.ne_nil_of_mem_bundles hb)
      intro hnil
      exact (hp p List.mem_cons_self).chars_ne_nil (List.append_eq_nil_iff.mp hnil).1
    · intro hm
      obtain ⟨p, hpb, hpm⟩ := List.mem_flatMap.mp hm
      exact (hp p hpb).space_notMem hpm

end Clausal
