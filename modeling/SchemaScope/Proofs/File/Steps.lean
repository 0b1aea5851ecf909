/-
**Paths by their steps.**

A path is a text, and many texts spell the same steps.  This module shows that the parts of a path
are a matter of its steps alone: the steps of its parent, and of a path with one more name, are
those that one expects, whatever the spelling.  A walk through the directories of a store does not
depend on the spelling either, as long as the path ends in a name: a slash too many, or a dot on the
way, asks for a directory, but so does the name that follows.

Main definitions:

* `Path.stepsOf` — the steps of the texts between slashes;
* `Segment.parent?` — steps without the last one;
* `FileStore.walk` — where steps lead through the directories of a store.

Main results:

* `Path.segments_parent?` — the steps of the parent;
* `Path.segments_join` — the steps of a path with one more name;
* `FileStore.locate_join` — **a file is found by its steps**: where a path with a last name leads is
  determined by its steps.
-/

import Mathlib.Data.List.Basic
import SchemaScope.File.Store

set_option autoImplicit false

namespace SchemaScope

/-! ### Texts between slashes -/

theorem splitSlashes_slash (cs : List Char) : splitSlashes ('/' :: cs) = [] :: splitSlashes cs := by
  simp [splitSlashes]

/-- A text without slashes is one piece. -/
theorem splitSlashes_of_not_mem {cs : List Char} (h : '/' ∉ cs) : splitSlashes cs = [cs] := by
  induction cs with
  | nil => rfl
  | cons c cs ih =>
      obtain ⟨hc, hcs⟩ : '/' ≠ c ∧ '/' ∉ cs := by simpa using h
      simp [splitSlashes, hc.symm, ih hcs]

/-- A slash divides the pieces before it from those after it. -/
theorem splitSlashes_append (cs ds : List Char) :
    splitSlashes (cs ++ '/' :: ds) = splitSlashes cs ++ splitSlashes ds := by
  induction cs with
  | nil => simp [splitSlashes]
  | cons c cs ih =>
      by_cases hc : c = '/'
      · simp [splitSlashes, hc, ih]
      · simp only [List.cons_append, splitSlashes, hc, if_false, ih]
        cases hs : splitSlashes cs with
        | nil => exact absurd hs (splitSlashes_ne_nil cs)
        | cons piece rest => simp

theorem not_mem_of_mem_splitSlashes {cs piece : List Char} (h : piece ∈ splitSlashes cs) :
    '/' ∉ piece := by
  induction cs generalizing piece with
  | nil => simp_all [splitSlashes]
  | cons c cs ih =>
      by_cases hc : c = '/'
      · rw [hc, splitSlashes_slash] at h
        rcases List.mem_cons.1 h with rfl | h
        · simp
        · exact ih h
      · simp only [splitSlashes, hc, if_false] at h
        cases hs : splitSlashes cs with
        | nil => exact absurd hs (splitSlashes_ne_nil cs)
        | cons first rest =>
            simp only [hs, List.mem_cons] at h ih
            rcases h with rfl | h
            · have := ih (.inl rfl)
              simp [this, Ne.symm hc]
            · exact ih (.inr h)

/-- Pieces without slashes are what their joined text is divided into. -/
theorem splitSlashes_joinSlashes {pieces : List (List Char)} (hne : pieces ≠ [])
    (h : ∀ piece ∈ pieces, '/' ∉ piece) : splitSlashes (joinSlashes pieces) = pieces := by
  induction pieces with
  | nil => exact absurd rfl hne
  | cons piece rest ih =>
      have hpiece : splitSlashes piece = [piece] := splitSlashes_of_not_mem (h piece (by simp))
      cases rest with
      | nil => exact hpiece
      | cons next rest =>
          have hrest := ih (by simp) fun p hp => h p (List.mem_cons_of_mem _ hp)
          rw [joinSlashes, splitSlashes_append, hpiece, hrest, List.singleton_append]
          simp

/-! ### Steps of pieces -/

namespace Segment

/-- A piece that takes no step. -/
def IsIdle (piece : List Char) : Prop := piece = [] ∨ piece = ['.']

instance (piece : List Char) : Decidable (IsIdle piece) := inferInstanceAs (Decidable (_ ∨ _))

@[simp] theorem ofPiece_of_idle {piece : List Char} (h : IsIdle piece) : ofPiece piece = [] :=
  if_pos h

/-- A piece that is not idle takes one step, and not to the root. -/
theorem exists_ofPiece {piece : List Char} (h : ¬ IsIdle piece) :
    ∃ s, s ≠ root ∧ ofPiece piece = [s] := by
  by_cases hu : piece = ['.', '.']
  · exact ⟨up, by simp, by simp [ofPiece, hu]⟩
  · exact ⟨name (String.ofList piece), by simp, (if_neg h).trans (if_neg hu)⟩

/-- Steps without the last one.  There is nothing above the root, or above no step at all. -/
def parent? (steps : List Segment) : Option (List Segment) :=
  if steps = [] ∨ steps = [root] then none else some steps.dropLast

theorem parent?_concat {steps : List Segment} {s : Segment} (hs : s ≠ root) :
    parent? (steps ++ [s]) = some steps := by
  have hroot : steps ++ [s] ≠ [root] := by
    intro h
    cases steps with
    | nil => exact hs (by simpa using h)
    | cons a rest => simp at h
  simp [parent?, hroot]

end Segment

namespace Path

/-- The steps of pieces, if the path starts at the root, or not. -/
def stepsOf (absolute : Bool) : List (List Char) → List Segment
  | [] => if absolute then [.root] else []
  | first :: rest =>
      (if absolute then [.root] else if first = ['.'] then [.here] else Segment.ofPiece first) ++
        rest.flatMap Segment.ofPiece

theorem segments_eq_stepsOf (p : Path) : p.segments = stepsOf p.isAbsolute p.pieces := by
  unfold segments
  cases hp : p.pieces with
  | nil => exact absurd hp (splitSlashes_ne_nil _)
  | cons first rest => rfl

theorem stepsOf_concat {absolute : Bool} {pieces : List (List Char)} (hne : pieces ≠ [])
    (piece : List Char) :
    stepsOf absolute (pieces ++ [piece]) = stepsOf absolute pieces ++ Segment.ofPiece piece := by
  cases pieces with
  | nil => exact absurd rfl hne
  | cons first rest => simp [stepsOf]

/-- A path starts at the root exactly if nothing stands before its first slash. -/
theorem isAbsolute_iff (p : Path) :
    p.isAbsolute = true ↔ ∃ rest, rest ≠ [] ∧ p.pieces = [] :: rest := by
  unfold isAbsolute pieces
  cases p.text.toList with
  | nil => simp [splitSlashes]
  | cons c cs =>
      by_cases hc : c = '/'
      · subst hc
        simp [splitSlashes_slash, splitSlashes_ne_nil]
      · cases hs : splitSlashes cs <;> simp [splitSlashes, hc, hs]

/-! ### The parent -/

/-- Idle pieces at the end take no steps. -/
theorem stepsOf_dropIdle (absolute : Bool) (reversed : List (List Char)) :
    stepsOf absolute (dropIdle reversed).reverse = stepsOf absolute reversed.reverse := by
  induction reversed with
  | nil => rfl
  | cons piece earlier ih =>
      rw [dropIdle]
      split
      · rename_i h
        rw [ih, List.reverse_cons]
        by_cases he : earlier = []
        · -- the first piece of a path is idle only if it is empty
          have hp : piece = [] := by simpa [he] using h
          cases absolute <;> simp [he, hp, stepsOf, Segment.ofPiece]
        · have hidle : Segment.IsIdle piece := h.imp_right And.left
          rw [stepsOf_concat (by simpa using he), Segment.ofPiece_of_idle hidle, List.append_nil]
      · rfl

/-- What is left without the idle pieces at the end is nothing, or it ends in a piece that takes a
step. -/
theorem dropIdle_cases (reversed : List (List Char)) :
    dropIdle reversed = [] ∨ ∃ piece earlier, dropIdle reversed = piece :: earlier ∧ piece ≠ [] ∧
      (piece = ['.'] → earlier = []) ∧ piece :: earlier <:+ reversed := by
  induction reversed with
  | nil => exact .inl rfl
  | cons piece earlier ih =>
      rw [dropIdle]
      split
      · rcases ih with h | ⟨x, xs, hx, hne, hdot, hsuffix⟩
        · exact .inl h
        · exact .inr ⟨x, xs, hx, hne, hdot, hsuffix.trans (List.suffix_cons _ _)⟩
      · rename_i h
        obtain ⟨hne, hdot⟩ := not_or.1 h
        exact .inr ⟨piece, earlier, rfl, hne, fun hp => by simpa [hp] using hdot, List.suffix_rfl⟩

theorem pieces_of_front {p : Path} {piece : List Char} {earlier : List (List Char)}
    (h : piece :: earlier <:+ p.pieces.reverse) :
    Path.pieces ⟨String.ofList (joinSlashes (piece :: earlier).reverse)⟩ =
      (piece :: earlier).reverse := by
  have hslash : ∀ x ∈ (piece :: earlier).reverse, '/' ∉ x := by
    intro x hx
    have hmem : x ∈ p.pieces := by simpa using h.subset (List.mem_reverse.1 hx)
    exact not_mem_of_mem_splitSlashes hmem
  simpa [Path.pieces] using splitSlashes_joinSlashes (by simp) hslash

/-- Pieces at the front of a path, the last of which is not empty, start at the root if the path
does. -/
theorem isAbsolute_of_front {p : Path} {piece : List Char} {earlier : List (List Char)}
    (hne : piece ≠ []) (h : piece :: earlier <:+ p.pieces.reverse) :
    Path.isAbsolute ⟨String.ofList (joinSlashes (piece :: earlier).reverse)⟩ = p.isAbsolute := by
  obtain ⟨later, hlater⟩ := id h
  have hp : p.pieces = (piece :: earlier).reverse ++ later.reverse := by
    rw [← List.reverse_append, hlater, List.reverse_reverse]
  rw [Bool.eq_iff_iff, isAbsolute_iff, isAbsolute_iff, pieces_of_front h, hp]
  cases hr : earlier.reverse with
  | nil => simp [hr, hne]
  | cons first rest => simp [hr]

/-- The last piece of a path takes one step, unless it is idle. -/
theorem stepsOf_last {p : Path} {piece : List Char} {earlier : List (List Char)} (hne : piece ≠ [])
    (hdot : piece = ['.'] → earlier = []) (h : piece :: earlier <:+ p.pieces.reverse) :
    ∃ s, s ≠ Segment.root ∧ stepsOf p.isAbsolute (earlier.reverse ++ [piece]) =
      stepsOf p.isAbsolute earlier.reverse ++ [s] := by
  by_cases he : earlier = []
  · -- the piece opens the path, which therefore does not start at the root
    have hrel : p.isAbsolute = false := by
      rw [← isAbsolute_of_front hne h, Bool.eq_false_iff, Ne, isAbsolute_iff, pieces_of_front h]
      simp [he, hne]
    by_cases hd : piece = ['.']
    · exact ⟨.here, by simp, by simp [he, hrel, stepsOf, hd]⟩
    · obtain ⟨s, hs, hpiece⟩ := Segment.exists_ofPiece (not_or.2 ⟨hne, hd⟩)
      exact ⟨s, hs, by simp [he, hrel, stepsOf, hd, hpiece]⟩
  · obtain ⟨s, hs, hpiece⟩ := Segment.exists_ofPiece (not_or.2 ⟨hne, fun hd => he (hdot hd)⟩)
    exact ⟨s, hs, by rw [stepsOf_concat (by simpa using he), hpiece]⟩

/-- The steps of the parent are those of the path, without the last. -/
theorem segments_parent? (p : Path) : p.parent?.map segments = Segment.parent? p.segments := by
  -- without the idle pieces at the end, the last piece is the last step
  have hsteps := stepsOf_dropIdle p.isAbsolute p.pieces.reverse
  rw [List.reverse_reverse, ← segments_eq_stepsOf] at hsteps
  unfold parent?
  rcases dropIdle_cases p.pieces.reverse with h | ⟨piece, earlier, h, hne, hdot, hsuffix⟩
  · rw [h] at hsteps ⊢
    rw [← hsteps]
    cases p.isAbsolute <;> simp [stepsOf, Segment.parent?]
  · obtain ⟨s, hs, hlast⟩ := stepsOf_last hne hdot hsuffix
    rw [h, List.reverse_cons, hlast] at hsteps
    rw [h, ← hsteps, Segment.parent?_concat hs, ← stepsOf_dropIdle]
    rcases dropIdle_cases earlier with hd | ⟨x, xs, hd, hx, -, hfront⟩
    · simp only [hd]
      cases p.isAbsolute <;> rfl
    · have hpieces : x :: xs <:+ p.pieces.reverse :=
        hfront.trans ((List.suffix_cons _ _).trans hsuffix)
      simp only [hd, Option.map_some, segments_eq_stepsOf, isAbsolute_of_front hx hpieces,
        pieces_of_front hpieces]

/-! ### One more name -/

/-- What a file or a directory can be called: a text without slashes that takes a step. -/
def IsName (name : String) : Prop := '/' ∉ name.toList ∧ ¬ Segment.IsIdle name.toList

instance (name : String) : Decidable (IsName name) := inferInstanceAs (Decidable (_ ∧ _))

/-- A name put behind a path stands alone, or becomes the last of its pieces. -/
theorem join_cases (p : Path) {name : String} (h : IsName name) :
    (p.text = "" ∧ p.join name = ⟨name⟩) ∨
      ∃ front, front ≠ [] ∧ stepsOf p.isAbsolute front = p.segments ∧
        (p.join name).pieces = front ++ [name.toList] ∧
        (p.join name).isAbsolute = p.isAbsolute := by
  have hname : splitSlashes name.toList = [name.toList] := splitSlashes_of_not_mem h.1
  by_cases hp : p.text = ""
  · exact .inl ⟨hp, by simp [join, hp]⟩
  refine .inr ?_
  have hne : p.text.toList ≠ [] := by simpa using hp
  have hhead : ∀ ds, (p.text.toList ++ ds).head? = p.text.toList.head? := by
    intro ds
    rw [List.head?_append_of_ne_nil _ hne]
  by_cases hl : p.text.toList.getLast? = some '/'
  · obtain ⟨ts, hts⟩ := List.getLast?_eq_some_iff.1 hl
    refine ⟨splitSlashes ts, splitSlashes_ne_nil ts, ?_, ?_, ?_⟩
    · -- behind the last slash there is an idle piece, which the name replaces
      rw [segments_eq_stepsOf, pieces, hts, splitSlashes_append,
        show splitSlashes [] = [[]] from rfl, stepsOf_concat (splitSlashes_ne_nil ts)]
      simp [Segment.ofPiece]
    · simp [join, hp, pieces, hts, splitSlashes_append, hname]
    · simp [join, hp, hl, isAbsolute, hhead]
  · refine ⟨p.pieces, splitSlashes_ne_nil _, (segments_eq_stepsOf p).symm, ?_, ?_⟩
    · simp [join, hp, hl, pieces, splitSlashes_append, hname]
    · simp [join, hp, hl, isAbsolute, hhead]

theorem pieces_of_isName {name : String} (h : IsName name) :
    Path.pieces ⟨name⟩ = [name.toList] ∧ Path.isAbsolute ⟨name⟩ = false := by
  have hpieces : Path.pieces ⟨name⟩ = [name.toList] := splitSlashes_of_not_mem h.1
  refine ⟨hpieces, ?_⟩
  rw [Bool.eq_false_iff, Ne, isAbsolute_iff, hpieces]
  simp

/-- One more name is one more step. -/
theorem segments_join (p : Path) {name : String} (h : IsName name) :
    (p.join name).segments = p.segments ++ Segment.ofPiece name.toList := by
  rcases join_cases p h with ⟨hp, hj⟩ | ⟨front, hne, hfront, hpieces, habs⟩
  · obtain ⟨hpieces, habs⟩ := pieces_of_isName h
    have hdot : name.toList ≠ ['.'] := fun hd => h.2 (.inr hd)
    have hempty : p.segments = [] := by
      rw [show p = ⟨""⟩ from congrArg Path.mk hp]
      rfl
    rw [hj, segments_eq_stepsOf, hpieces, habs, hempty]
    simp [stepsOf, hdot]
  · rw [segments_eq_stepsOf, habs, hpieces, stepsOf_concat hne, hfront]

end Path

/-! ### Walking through directories -/

namespace FileStore

/-- Where one step leads through the directories of a store. -/
def take (s : FileStore) (place : Place) : Segment → Except FileFault Place
  | .root => .ok []
  | .here => .ok place
  | .up => if s.hasDirectory place then .ok place.dropLast else .error .notDirectory
  | .name text =>
      if s.hasDirectory place then
        if (s.get? (place ++ [text])).isSome then .ok (place ++ [text]) else .error .notFound
      else .error .notDirectory

/-- Where steps lead through the directories of a store. -/
def walk (s : FileStore) (place : Place) (steps : List Segment) : Except FileFault Place :=
  steps.foldlM s.take place

theorem hasDirectory_root (s : FileStore) : s.hasDirectory [] = true := by
  simp [hasDirectory, get?, Entry.isDirectory]

theorem follow_of_idle (s : FileStore) (place : Place) {piece : List Char}
    (h : Segment.IsIdle piece) : s.follow place piece =
      if s.hasDirectory place then .ok place else .error .notDirectory := by
  have h : piece = [] ∨ piece = ['.'] := h
  cases hd : s.hasDirectory place <;> simp [follow, hd, h]

/-- A piece that takes a step leads where the step does. -/
theorem follow_of_step (s : FileStore) (place : Place) {piece : List Char}
    (h : ¬ Segment.IsIdle piece) :
    ∃ st, Segment.ofPiece piece = [st] ∧ s.follow place piece = s.take place st := by
  have h : ¬ (piece = [] ∨ piece = ['.']) := h
  by_cases hu : piece = ['.', '.']
  · refine ⟨.up, by simp [Segment.ofPiece, hu], ?_⟩
    cases hd : s.hasDirectory place <;> simp [follow, take, hd, hu]
  · refine ⟨.name (String.ofList piece), by simp only [Segment.ofPiece, h, hu, if_false], ?_⟩
    cases hd : s.hasDirectory place <;> simp [follow, take, hd, h, hu]

theorem foldlM_follow_of_not_directory (s : FileStore) {place : Place}
    (hd : s.hasDirectory place = false) {pieces : List (List Char)} (hne : pieces ≠ []) :
    pieces.foldlM s.follow place = .error .notDirectory := by
  cases pieces with
  | nil => exact absurd rfl hne
  | cons piece rest =>
      have hfollow : s.follow place piece = .error .notDirectory := by simp [follow, hd]
      rw [List.foldlM_cons, hfollow]
      rfl

/-- The pieces on the way to a last one that takes a step lead where their steps do.  An idle piece
asks for a directory, but so does the piece after it. -/
theorem foldlM_follow (s : FileStore) (place : Place) (front : List (List Char))
    {piece : List Char} (h : ¬ Segment.IsIdle piece) :
    (front ++ [piece]).foldlM s.follow place =
      s.walk place ((front ++ [piece]).flatMap Segment.ofPiece) := by
  induction front generalizing place with
  | nil =>
      obtain ⟨st, hst, hfollow⟩ := follow_of_step s place h
      simp [walk, hst, hfollow]
  | cons x front ih =>
      rw [List.cons_append, List.foldlM_cons, List.flatMap_cons]
      by_cases hx : Segment.IsIdle x
      · -- without a directory here, the next piece fails in the same way
        rw [follow_of_idle s place hx, Segment.ofPiece_of_idle hx, List.nil_append, ← ih place]
        cases hd : s.hasDirectory place with
        | true => rfl
        | false => exact (foldlM_follow_of_not_directory s hd (by simp)).symm
      · obtain ⟨st, hst, hfollow⟩ := follow_of_step s place hx
        rw [hfollow, hst, List.singleton_append, walk, List.foldlM_cons]
        exact bind_congr fun next => ih next

/-- Where a path leads that ends in a piece with a step is determined by its steps. -/
theorem locate_eq_walk (s : FileStore) {p : Path} {front : List (List Char)} {piece : List Char}
    (hp : p.pieces = front ++ [piece]) (h : ¬ Segment.IsIdle piece) :
    s.locate p = s.walk s.base p.segments := by
  have htext : p.text.isEmpty = false := by
    rw [Bool.eq_false_iff]
    intro he
    have hpieces : p.pieces = [[]] := by
      rw [Path.pieces, show p.text = "" by simpa using he]
      rfl
    cases front with
    | nil => exact h (.inl (by simpa using hp.symm.trans hpieces))
    | cons x rest => simp [hpieces] at hp
  rw [locate, htext, Path.segments_eq_stepsOf, hp]
  cases habs : p.isAbsolute with
  | true =>
      -- the first piece is empty and stays at the root, which is a directory
      obtain ⟨rest, hne, hrest⟩ := (Path.isAbsolute_iff p).1 habs
      cases front with
      | nil =>
          have hboth : piece = [] ∧ rest = [] := by simpa [hrest, eq_comm] using hp
          exact absurd hboth.2 hne
      | cons first front =>
          obtain rfl : first = [] := by simpa [hrest] using (congrArg List.head? hp).symm
          have hroot : s.follow [] [] = .ok [] := by
            rw [follow_of_idle s [] (.inl rfl), hasDirectory_root, if_pos rfl]
          rw [List.cons_append, List.foldlM_cons]
          simp only [Bool.false_eq_true, if_true, if_false, hroot]
          exact foldlM_follow s [] front h
  | false =>
      simp only [Bool.false_eq_true, if_false, foldlM_follow s s.base front h]
      cases front with
      | nil =>
          have hdot : piece ≠ ['.'] := fun hd => h (.inr hd)
          simp [Path.stepsOf, hdot]
      | cons first front =>
          by_cases hd : first = ['.']
          · -- the dot at the front is a step, but one that leads nowhere
            simp only [List.cons_append, List.flatMap_cons, Path.stepsOf, hd,
              Segment.ofPiece_of_idle (.inr rfl)]
            rfl
          · simp [Path.stepsOf, hd]

/-- A file is found by its steps: where a path leads, with one more name, is determined by the steps
of the path. -/
theorem locate_join (s : FileStore) (p : Path) {name : String} (h : Path.IsName name) :
    s.locate (p.join name) = s.walk s.base (p.segments ++ Segment.ofPiece name.toList) := by
  rw [← Path.segments_join p h]
  rcases Path.join_cases p h with ⟨-, hj⟩ | ⟨front, -, -, hpieces, -⟩
  · rw [hj]
    have hpieces : Path.pieces ⟨name⟩ = [] ++ [name.toList] := (Path.pieces_of_isName h).1
    exact locate_eq_walk s hpieces h.2
  · exact locate_eq_walk s hpieces h.2

end FileStore

end SchemaScope
