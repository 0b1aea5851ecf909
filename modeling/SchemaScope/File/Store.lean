/-
**A store of files.**

A store holds files and directories by the names on the way from the root, and has a directory from
which relative paths start.  A path leads through directories that exist, as on a disk: a name that
is not there, or a file in the middle of a path, is a fault.

Main definitions:

* `Entry`, `FileStore`, `FileStore.get?`, `FileStore.put` — files and directories by place;
* `FileFault` — what can go wrong on the way to a file;
* `FileStore.locate` — where a path leads;
* `FileStore.read`, `FileStore.write`, `FileStore.list` — access by path;
* `FileStore.isFile`, `FileStore.isDirectory` — what a path leads to.
-/

import SchemaScope.File.Path
import SchemaScope.Text.Utf8

set_option autoImplicit false

namespace SchemaScope

/-- The names on the way from the root. -/
abbrev Place := List String

/-- What stands at a place. -/
inductive Entry where
  | file (content : ByteArray)
  | directory
  deriving Inhabited

/-- Whether an entry is a directory. -/
def Entry.isDirectory : Entry → Bool
  | .directory => true
  | .file _ => false

/-- Files and directories by place, and the directory where relative paths start. -/
structure FileStore where
  base : Place
  entries : List (Place × Entry)
  deriving Inhabited

/-- What can go wrong with a file. -/
inductive FileFault where
  | notFound | notDirectory | isDirectory | notText
  deriving DecidableEq, Repr, Inhabited

/-- The wording of a fault. -/
def FileFault.message : FileFault → String
  | .notFound => "No such file or directory (os error 2)"
  | .notDirectory => "Not a directory (os error 20)"
  | .isDirectory => "Is a directory (os error 21)"
  | .notText => "stream did not contain valid UTF-8"

namespace FileStore

/-- The store in which only the way to the given directory exists. -/
def empty (base : Place) : FileStore := ⟨base, []⟩

/-! ### Entries by place -/

/-- What is listed under a place. -/
def lookup (place : Place) : List (Place × Entry) → Option Entry
  | [] => none
  | (p, e) :: rest => if p = place then some e else lookup place rest

/-- Lists an entry under a place, replacing what is listed there. -/
def assign (place : Place) (entry : Entry) : List (Place × Entry) → List (Place × Entry)
  | [] => [(place, entry)]
  | (p, e) :: rest => if p = place then (p, entry) :: rest else (p, e) :: assign place entry rest

@[simp] theorem lookup_assign_self (place : Place) (entry : Entry)
    (entries : List (Place × Entry)) : lookup place (assign place entry entries) = some entry := by
  induction entries with
  | nil => simp [assign, lookup]
  | cons x rest ih =>
      obtain ⟨p, e⟩ := x
      by_cases h : p = place <;> simp [assign, lookup, h, ih]

theorem lookup_assign_of_ne {place other : Place} (h : other ≠ place) (entry : Entry)
    (entries : List (Place × Entry)) :
    lookup other (assign place entry entries) = lookup other entries := by
  induction entries with
  | nil => simp [assign, lookup, Ne.symm h]
  | cons x rest ih =>
      obtain ⟨p, e⟩ := x
      by_cases hp : p = place
      · subst hp
        simp [assign, lookup, Ne.symm h]
      · simp [assign, lookup, hp, ih]

/-- What stands at a place.  The way from the root to the base is made of directories. -/
def get? (s : FileStore) (place : Place) : Option Entry :=
  if place.isPrefixOf s.base then some .directory else lookup place s.entries

/-- The store with an entry at a place. -/
def put (s : FileStore) (place : Place) (entry : Entry) : FileStore :=
  { s with entries := assign place entry s.entries }

/-- Whether a directory stands at a place. -/
def hasDirectory (s : FileStore) (place : Place) : Bool := (s.get? place).any Entry.isDirectory

/-! ### Access by path -/

/-- Where one more text between slashes leads from a place. -/
def follow (s : FileStore) (place : Place) (piece : List Char) : Except FileFault Place :=
  -- an empty piece or a dot asks for a directory, too
  if !s.hasDirectory place then .error .notDirectory
  else if piece = [] ∨ piece = ['.'] then .ok place
  else if piece = ['.', '.'] then .ok place.dropLast
  else
    let next := place ++ [String.ofList piece]
    if (s.get? next).isSome then .ok next else .error .notFound

/-- The place where a path leads, if something stands there. -/
def locate (s : FileStore) (p : Path) : Except FileFault Place :=
  if p.text.isEmpty then .error .notFound
  else p.pieces.foldlM s.follow (if p.isAbsolute then [] else s.base)

/-- What a path leads to. -/
def entryAt (s : FileStore) (p : Path) : Except FileFault Entry := do
  let place ← s.locate p
  match s.get? place with
  | some entry => .ok entry
  | none => .error .notFound

/-- Whether a path leads to a file. -/
def isFile (s : FileStore) (p : Path) : Bool :=
  match s.entryAt p with
  | .ok (.file _) => true
  | _ => false

/-- Whether a path leads to a directory. -/
def isDirectory (s : FileStore) (p : Path) : Bool :=
  match s.entryAt p with
  | .ok .directory => true
  | _ => false

/-- The bytes of a file. -/
def read (s : FileStore) (p : Path) : Except FileFault ByteArray := do
  match ← s.entryAt p with
  | .file content => .ok content
  | .directory => .error .isDirectory

/-- The text of a file, if its bytes are a text. -/
def readText (s : FileStore) (p : Path) : Except FileFault String := do
  let content ← s.read p
  match String.fromUTF8? content with
  | some text => .ok text
  | none => .error .notText

/-- The store with the text of a file replaced. -/
def writeText (s : FileStore) (p : Path) (text : String) : Except FileFault FileStore := do
  let place ← s.locate p
  match s.get? place with
  | some (.file _) => .ok (s.put place (.file text.toUTF8))
  | some .directory => .error .isDirectory
  | none => .error .notFound

/-- The names of the files in a directory with their bytes, sorted by name. -/
def list (s : FileStore) (p : Path) : Except FileFault (List (String × ByteArray)) := do
  let place ← s.locate p
  if s.hasDirectory place then
    let files := s.entries.filterMap fun (q, e) =>
      match q.getLast?, e with
      | some name, .file content => if q.dropLast = place then some (name, content) else none
      | _, _ => none
    .ok (files.mergeSort fun a b => a.1 ≤ b.1)
  else .error .notDirectory

/-! ### Setting up -/

/-- The place that a path spells, whether or not anything stands there. -/
def placeOf (s : FileStore) (p : Path) : Place := Segment.resolve s.base p.segments

/-- Adds the directories on the way to a place, the place included. -/
def addDirectories (s : FileStore) (place : Place) : FileStore :=
  (List.range (place.length + 1)).foldl (fun s n =>
    let above := place.take n
    if (s.get? above).isSome then s else s.put above .directory) s

/-- Adds a file and the directories on the way to it. -/
def addFile (s : FileStore) (p : Path) (content : ByteArray) : FileStore :=
  let place := s.placeOf p
  (s.addDirectories place.dropLast).put place (.file content)

/-- Adds a directory and the directories on the way to it. -/
def addDirectory (s : FileStore) (p : Path) : FileStore := s.addDirectories (s.placeOf p)

/-- Removes what stands at a place and everything below it. -/
def remove (s : FileStore) (p : Path) : FileStore :=
  let place := s.placeOf p
  { s with entries := s.entries.filter fun (q, _) => !place.isPrefixOf q }

end FileStore

end SchemaScope
