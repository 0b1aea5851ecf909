/-
**Paths.**

A path is a text in which slashes divide names.  Repeated slashes and dots in the middle mean
nothing, so two texts can spell the same path: what counts is the list of segments.  A path can be
brought into a normal form, and resolved against a directory, without looking at any file.

Main definitions:

* `Path`, `Path.segments` — a path's text and what it spells;
* `Path.parent?`, `Path.fileName?`, `Path.stem?`, `Path.extension?`, `Path.join` — parts of a path;
* `Segment.normalize`, `Path.normalize` — the normal form;
* `Segment.resolve` — the directory or file that segments lead to from a directory.
-/

set_option autoImplicit false

namespace SchemaScope

/-! ### Texts between slashes -/

/-- The texts between slashes. -/
def splitSlashes : List Char → List (List Char)
  | [] => [[]]
  | c :: cs =>
      if c = '/' then [] :: splitSlashes cs
      else
        match splitSlashes cs with
        | [] => [[c]]
        | piece :: rest => (c :: piece) :: rest

/-- Texts with slashes between them. -/
def joinSlashes : List (List Char) → List Char
  | [] => []
  | [piece] => piece
  | piece :: rest => piece ++ '/' :: joinSlashes rest

theorem splitSlashes_ne_nil (cs : List Char) : splitSlashes cs ≠ [] := by
  cases cs with
  | nil => simp [splitSlashes]
  | cons c cs =>
      rw [splitSlashes]
      split
      · simp
      · split <;> simp

@[simp] theorem joinSlashes_splitSlashes (cs : List Char) : joinSlashes (splitSlashes cs) = cs := by
  induction cs with
  | nil => rfl
  | cons c cs ih =>
      rw [splitSlashes]
      split
      · rename_i hc
        subst hc
        cases hs : splitSlashes cs with
        | nil => exact absurd hs (splitSlashes_ne_nil cs)
        | cons piece rest => simp [joinSlashes, ← hs, ih]
      · cases hs : splitSlashes cs with
        | nil => exact absurd hs (splitSlashes_ne_nil cs)
        | cons piece rest =>
            rw [hs] at ih
            cases rest with
            | nil => simpa [joinSlashes] using ih
            | cons _ _ => simp [joinSlashes] at ih ⊢; exact ih

/-! ### Segments -/

/-- A step that a path takes: to the root, nowhere, to the parent, or to a name. -/
inductive Segment where
  | root
  | here
  | up
  | name (text : String)
  deriving DecidableEq, Repr, Inhabited

namespace Segment

/-- The step of a text between slashes; an empty text and a dot take none. -/
def ofPiece (piece : List Char) : List Segment :=
  if piece = [] ∨ piece = ['.'] then []
  else if piece = ['.', '.'] then [.up]
  else [.name (String.ofList piece)]

/-- The text of a step. -/
def text : Segment → List Char
  | .root => []
  | .here => ['.']
  | .up => ['.', '.']
  | .name text => text.toList

/-- One more step after steps in normal form, which are given last first. -/
def pushNormal (steps : List Segment) : Segment → List Segment
  | .root => [.root]
  | .here => steps
  | .name text => .name text :: steps
  | .up =>
      match steps with
      | .name _ :: rest => rest
      | .root :: rest => .root :: rest
      | steps => .up :: steps

/-- The normal form of steps: no dot, and no step to the parent but at the front of a relative
path. -/
def normalize (steps : List Segment) : List Segment := (steps.foldl pushNormal []).reverse

/-- Where one step leads from a directory, given by the names on the way from the root.  The parent
of the root is the root. -/
def step (directory : List String) : Segment → List String
  | .root => []
  | .here => directory
  | .up => directory.dropLast
  | .name text => directory ++ [text]

/-- Where steps lead from a directory. -/
def resolve (directory : List String) (steps : List Segment) : List String :=
  steps.foldl step directory

@[simp] theorem resolve_nil (directory : List String) : resolve directory [] = directory := rfl

@[simp] theorem resolve_cons (directory : List String) (s : Segment) (steps : List Segment) :
    resolve directory (s :: steps) = resolve (step directory s) steps := rfl

end Segment

/-! ### Paths -/

/-- A path, by its text. -/
structure Path where
  text : String
  deriving DecidableEq, Repr, Inhabited

namespace Path

/-- The texts between the slashes of a path. -/
def pieces (p : Path) : List (List Char) := splitSlashes p.text.toList

/-- Whether a path starts at the root. -/
def isAbsolute (p : Path) : Bool := p.text.toList.head? == some '/'

/-- The steps that a path spells.  A dot counts only at the very front of a relative path. -/
def segments (p : Path) : List Segment :=
  match p.pieces with
  | [] => []
  | first :: rest =>
      let front := if p.isAbsolute then [.root] else if first = ['.'] then [.here]
        else Segment.ofPiece first
      front ++ rest.flatMap Segment.ofPiece

/-- Whether two paths spell the same steps. -/
def same (p q : Path) : Bool := p.segments == q.segments

/-- The path that takes the given steps, spelled in the shortest way. -/
def ofSegments (steps : List Segment) : Path :=
  match steps with
  | .root :: rest => ⟨String.ofList ('/' :: joinSlashes (rest.map Segment.text))⟩
  | steps => ⟨String.ofList (joinSlashes (steps.map Segment.text))⟩

/-- The pieces of a path that take a step, last first, with the pieces before them: what is left of
reversed pieces once those without a step are dropped.  The first piece of a path is the only one
that counts if it is a dot. -/
def dropIdle : List (List Char) → List (List Char)
  | [] => []
  | piece :: earlier =>
      if piece = [] ∨ (piece = ['.'] ∧ earlier ≠ []) then dropIdle earlier else piece :: earlier

/-- The path without its last step.  The root and the empty path have no parent. -/
def parent? (p : Path) : Option Path :=
  match dropIdle p.pieces.reverse with
  | [] => none
  | _ :: earlier =>
      match dropIdle earlier with
      -- nothing but slashes is left, which is the root, or nothing at all
      | [] => some (if p.isAbsolute then ⟨"/"⟩ else ⟨""⟩)
      | pieces => some ⟨String.ofList (joinSlashes pieces.reverse)⟩

/-- The last name of a path, if its last step leads to a name. -/
def fileName? (p : Path) : Option String :=
  match p.segments.getLast? with
  | some (.name text) => some text
  | _ => none

/-- A name split at its last dot, if the dot does not open the name. -/
def splitExtension? (name : List Char) : Option (List Char × List Char) :=
  let after := (name.reverse.takeWhile (· != '.')).reverse
  let before := name.take (name.length - after.length - 1)
  if name.contains '.' ∧ before ≠ [] then some (before, after) else none

/-- The last name without what follows its last dot. -/
def stem? (p : Path) : Option String :=
  p.fileName?.map fun name =>
    match splitExtension? name.toList with
    | some (before, _) => String.ofList before
    | none => name

/-- What follows the last dot of the last name. -/
def extension? (p : Path) : Option String := do
  let name ← p.fileName?
  let (_, after) ← splitExtension? name.toList
  return String.ofList after

/-- A path with one more name. -/
def join (p : Path) (name : String) : Path :=
  if p.text.isEmpty then ⟨name⟩
  else if p.text.toList.getLast? == some '/' then ⟨p.text ++ name⟩
  else ⟨p.text ++ "/" ++ name⟩

/-- The normal form of a path. -/
def normalize (p : Path) : Path := ofSegments (Segment.normalize p.segments)

end Path

end SchemaScope
