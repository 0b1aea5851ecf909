/-
**A cache of resources.**

Reading the resources of a source is work, and the stamp of its descriptor tells when they may have
changed.  The cache keeps the resources of every source that was read, and reads a folder again only
if the stamp differs from the one at the last reading.  Paths that spell the same steps share one
place in the cache.

Main definitions:

* `ResourceCache`, `ResourceCache.get?`, `ResourceCache.put` — the resources kept for paths;
* `ResourceCache.freshSet` — the resources of a source, read from its folder;
* `ResourceCache.load` — the resources of a source, with the cache afterwards;
* `ResourceCache.Request`, `ResourceCache.Reply`, `ResourceCache.serve` — what a cache is asked for,
  and what it tells.
-/

import SchemaScope.Descriptor
import SchemaScope.Resource.Mention
import SchemaScope.Resource.Set

set_option autoImplicit false

namespace SchemaScope

/-- The resources kept for paths, told apart by their steps. -/
structure ResourceCache where
  entries : List (List Segment × ResourceSet)

namespace ResourceCache

/-- Nothing is kept. -/
def empty : ResourceCache := ⟨[]⟩

instance : Inhabited ResourceCache := ⟨empty⟩

/-- What entries hold for the given steps. -/
def lookup (steps : List Segment) : List (List Segment × ResourceSet) → Option ResourceSet
  | [] => none
  | (s, set) :: rest => if s = steps then some set else lookup steps rest

/-- The resources kept for a path. -/
def get? (c : ResourceCache) (source : Path) : Option ResourceSet :=
  lookup source.segments c.entries

/-- The cache with resources kept for a path; what was kept for it before is hidden. -/
def put (c : ResourceCache) (source : Path) (set : ResourceSet) : ResourceCache :=
  ⟨(source.segments, set) :: c.entries.filter fun e => e.1 ≠ source.segments⟩

@[simp] theorem get?_empty (source : Path) : empty.get? source = none := rfl

@[simp] theorem get?_put_self (c : ResourceCache) {source other : Path}
    (h : other.segments = source.segments) (set : ResourceSet) :
    (c.put source set).get? other = some set := by simp [get?, put, lookup, h]

theorem lookup_filter_of_ne {steps other : List Segment} (h : other ≠ steps)
    (entries : List (List Segment × ResourceSet)) :
    lookup other (entries.filter fun e => e.1 ≠ steps) = lookup other entries := by
  induction entries with
  | nil => rfl
  | cons x rest ih =>
      obtain ⟨s, set⟩ := x
      by_cases hs : s = steps
      · subst hs
        simpa [lookup, Ne.symm h] using ih
      · by_cases ho : s = other
        · simp [lookup, ho, h]
        · simpa [lookup, hs, ho] using ih

theorem get?_put_of_ne (c : ResourceCache) {source other : Path}
    (h : other.segments ≠ source.segments) (set : ResourceSet) :
    (c.put source set).get? other = c.get? other := by
  simpa [get?, put, lookup, Ne.symm h] using lookup_filter_of_ne h c.entries

/-! ### Loading -/

/-- The stamp of the descriptor next to a source, if there is one. -/
def stamp (files : FileStore) (source : Path) : Except DescriptorError (Option String) :=
  match Package.descriptor? files source with
  | some descriptor => Descriptor.readTimestamp files descriptor
  | none => .ok none

/-- The resources of a source whose descriptor has the given stamp, read from their folder.  Without
a folder there are none. -/
def freshSet (files : FileStore) (source : Path) (time : String) :
    Except DescriptorError (Option ResourceSet) :=
  match (Package.resourceFolder? source).filter files.isDirectory with
  | some folder =>
      match ResourceSet.scan files folder with
      | .ok locales => .ok (some ⟨source, (Package.schemaName? source).getD "", time, locales⟩)
      | .error fault => .error (.file folder fault)
  | none => .ok none

/-- The resources of a source, and the cache afterwards. -/
def load (c : ResourceCache) (files : FileStore) (source : Path) :
    Except DescriptorError (Option ResourceSet) × ResourceCache :=
  match stamp files source with
  | .error e => (.error e, c)
  | .ok none => (.ok none, c)
  | .ok (some time) =>
      match (c.get? source).filter fun set => set.time = time with
      -- the folder is not looked at, not even whether it is there
      | some set => (.ok (some set), c)
      | none =>
          match freshSet files source time with
          | .error e => (.error e, c)
          | .ok none => (.ok none, c)
          | .ok (some set) => (.ok (some set), c.put source set)

/-- The values of a string of a source. -/
def resolve (c : ResourceCache) (files : FileStore) (source : Path) (key : String) :
    Except DescriptorError (Option (List LocalizedValue)) × ResourceCache :=
  let (loaded, c) := c.load files source
  (loaded.map fun set => set.map (·.valuesOrMissing key), c)

/-- The values of the string that a line mentions.  A line without a mention asks for the empty
key. -/
def resolveLine (c : ResourceCache) (files : FileStore) (source : Path) (line : String)
    (offset : Option Nat) : Except DescriptorError (Option (List LocalizedValue)) × ResourceCache :=
  c.resolve files source ((Mention.keyOn? line offset).getD "")

/-! ### Requests -/

/-- What a cache is asked for. -/
inductive Request where
  | load (source : Path)
  | resolve (source : Path) (key : String)
  | resolveLine (source : Path) (line : String) (offset : Option Nat)
  | clear

/-- What a cache tells. -/
inductive Reply where
  | set (outcome : Except DescriptorError (Option ResourceSet))
  | values (outcome : Except DescriptorError (Option (List LocalizedValue)))
  | cleared

/-- The reply to a request, and the cache afterwards. -/
def serve (c : ResourceCache) (files : FileStore) : Request → Reply × ResourceCache
  | .load source =>
      let (outcome, c) := c.load files source
      (.set outcome, c)
  | .resolve source key =>
      let (outcome, c) := c.resolve files source key
      (.values outcome, c)
  | .resolveLine source line offset =>
      let (outcome, c) := c.resolveLine files source line offset
      (.values outcome, c)
  | .clear => (.cleared, empty)

end ResourceCache

end SchemaScope
