/-
**One source, many spellings.**

Paths that spell the same steps are one source.  Everything that is looked up for a source depends
on the steps of its path: the name of its schema, the folder of its resources, and the stamp in the
descriptor next to it.  Only the paths that stand in errors follow the spelling.

Main results:

* `Package.schemaName?_congr`, `Package.resourceFolder?_congr` — the schema and the folder of a
  source;
* `ResourceCache.stamp_congr` — **the stamp of a source does not depend on how its path is spelled**.
-/

import Mathlib.Data.List.Basic
import SchemaScope.Proofs.File.NormalForm
import SchemaScope.Resource.Cache

set_option autoImplicit false

namespace SchemaScope

/-! ### Names -/

namespace Path

theorem fileName?_congr {p q : Path} (h : p.segments = q.segments) : p.fileName? = q.fileName? := by
  simp only [fileName?, h]

theorem stem?_congr {p q : Path} (h : p.segments = q.segments) : p.stem? = q.stem? := by
  simp only [stem?, fileName?_congr h]

theorem extension?_congr {p q : Path} (h : p.segments = q.segments) :
    p.extension? = q.extension? := by
  simp only [extension?, fileName?_congr h]

/-- No name on a path holds a slash. -/
theorem not_mem_of_mem_segments {p : Path} {text : String} (h : Segment.name text ∈ p.segments) :
    '/' ∉ text.toList := (isComponent_of_mem_segments h).1.1

theorem not_mem_of_fileName? {p : Path} {text : String} (h : p.fileName? = some text) :
    '/' ∉ text.toList := by
  unfold fileName? at h
  split at h
  · rename_i name hlast
    obtain rfl : name = text := by simpa using h
    exact not_mem_of_mem_segments (List.mem_of_getLast? hlast)
  · cases h

theorem prefix_of_splitExtension? {name before after : List Char}
    (h : splitExtension? name = some (before, after)) : before <+: name := by
  simp only [splitExtension?, Option.ite_none_right_eq_some, Option.some.injEq, Prod.mk.injEq] at h
  rw [← h.2.1]
  exact List.take_prefix _ _

theorem not_mem_of_stem? {p : Path} {text : String} (h : p.stem? = some text) :
    '/' ∉ text.toList := by
  obtain ⟨name, hname, rfl⟩ := Option.map_eq_some_iff.1 h
  have hslash := not_mem_of_fileName? hname
  cases hs : splitExtension? name.toList with
  | none => exact hslash
  | some parts =>
      obtain ⟨before, after⟩ := parts
      intro hmem
      exact hslash ((prefix_of_splitExtension? hs).subset (by simpa using hmem))

end Path

/-! ### Folders -/

namespace Path

theorem segments_foldl_join (p : Path) {names : List String} (h : ∀ name ∈ names, IsName name) :
    (names.foldl join p).segments =
      p.segments ++ names.flatMap fun name => Segment.ofPiece name.toList := by
  induction names generalizing p with
  | nil => simp
  | cons name rest ih =>
      rw [List.foldl_cons, ih _ fun n hn => h n (List.mem_cons_of_mem _ hn),
        segments_join p (h name List.mem_cons_self), List.flatMap_cons, List.append_assoc]

/-- The parents of two spellings are two spellings of the parent. -/
theorem parent?_congr {p q : Path} (h : p.segments = q.segments) :
    (p.parent? = none ∧ q.parent? = none) ∨
      ∃ a b, p.parent? = some a ∧ q.parent? = some b ∧ a.segments = b.segments := by
  have hmap : p.parent?.map segments = q.parent?.map segments := by
    rw [segments_parent?, segments_parent?, h]
  cases hp : p.parent? <;> cases hq : q.parent? <;> simp_all

end Path

namespace Package

theorem isName_descriptorName : Path.IsName descriptorName := by decide

theorem isName_of_mem_resourcesFromSchema : ∀ name ∈ resourcesFromSchema, Path.IsName name := by
  decide

/-- A folder that is named for a source and the kind of it has the name of a component. -/
theorem isComponent_tagged {name tag : String} {kind : SourceKind} (htag : kind.tag? = some tag)
    (hname : '/' ∉ name.toList) : Path.IsComponent (name ++ "." ++ tag) := by
  cases kind with
  | clientUnit | sourceCode =>
      obtain rfl := Option.some.inj htag
      refine ⟨⟨by simp [hname], ?_⟩, ?_⟩
      · rintro (h | h)
        · simp at h
        · simpa using congrArg List.length h
      · intro h
        have hlength := congrArg List.length h
        simp at hlength
  | other => cases htag

/-- The way from a source to its folder is made of names that can be put behind a path. -/
theorem isName_of_mem_way {p : Path} {name tag : String} {kind : SourceKind}
    (htag : kind.tag? = some tag) (hname : schemaName? p = some name) :
    ∀ n ∈ resourcesFromSchema ++ [name ++ "." ++ tag], Path.IsName n := by
  intro n hn
  rcases List.mem_append.1 hn with hn | hn
  · exact isName_of_mem_resourcesFromSchema n hn
  · rw [List.mem_singleton.1 hn]
    exact (isComponent_tagged htag (Path.not_mem_of_stem? hname)).1

theorem schemaName?_congr {p q : Path} (h : p.segments = q.segments) :
    schemaName? p = schemaName? q := Path.stem?_congr h

/-- The folder of a source does not depend on how its path is spelled. -/
theorem resourceFolder?_congr {p q : Path} (h : p.segments = q.segments) :
    resourceFolder? p = resourceFolder? q := by
  have hkind : SourceKind.ofPath p = SourceKind.ofPath q := by
    simp only [SourceKind.ofPath, Path.extension?_congr h]
  unfold resourceFolder?
  rw [hkind, schemaName?_congr h]
  cases htag : (SourceKind.ofPath q).tag? with
  | none => rfl
  | some tag =>
      cases hname : schemaName? q with
      | none => rfl
      | some name =>
          rcases Path.parent?_congr h with ⟨hp, hq⟩ | ⟨a, b, hp, hq, hab⟩
          · rw [hp, hq]
          · -- the normal form is made of the steps, which the names extend alike
            simp only [hp, hq, Option.bind_eq_bind, Option.bind_some, Path.normalize,
              Path.segments_foldl_join _ (isName_of_mem_way htag hname), hab]

end Package

/-! ### Stamps -/

namespace FileStore

variable {s : FileStore} {p q : Path}

theorem entryAt_congr (h : s.locate p = s.locate q) : s.entryAt p = s.entryAt q := by
  simp only [entryAt, h]

theorem isFile_congr (h : s.locate p = s.locate q) : s.isFile p = s.isFile q := by
  simp only [isFile, entryAt_congr h]

theorem readText_congr (h : s.locate p = s.locate q) : s.readText p = s.readText q := by
  simp only [readText, read, entryAt_congr h]

end FileStore

namespace Descriptor

/-- The stamp of a text is the stamp of its document; the path matters for errors only. -/
theorem readStamp_eq_ok_iff {p : Path} {text stamp : String} :
    readStamp p text = .ok stamp ↔ ∃ document value,
      Json.parseChars (withoutMarks text.toList) = .ok document ∧
      timestamp? document = some value ∧ timestampText value = stamp := by
  unfold readStamp parse
  cases Json.parseChars (withoutMarks text.toList) with
  | error e => simp [Except.mapError, bind, Except.bind]
  | ok document => cases h : timestamp? document <;> simp [Except.mapError, bind, Except.bind, h]

theorem readTimestamp_eq_ok_iff {files : FileStore} {p : Path} {stamp : Option String} :
    readTimestamp files p = .ok stamp ↔
      (files.readText p = .error .notFound ∧ stamp = none) ∨
      ∃ text t, files.readText p = .ok text ∧ readStamp p text = .ok t ∧ stamp = some t := by
  unfold readTimestamp
  cases files.readText p with
  | error fault => cases fault <;> simp [eq_comm]
  | ok text => cases h : readStamp p text <;> simp [Except.map, h, eq_comm]

theorem readTimestamp_congr {files : FileStore} {p q : Path} {stamp : Option String}
    (hpq : files.locate p = files.locate q) (h : readTimestamp files p = .ok stamp) :
    readTimestamp files q = .ok stamp := by
  rw [readTimestamp_eq_ok_iff] at h ⊢
  rw [← FileStore.readText_congr hpq]
  rcases h with h | ⟨text, t, htext, ht, hstamp⟩
  · exact .inl h
  · exact .inr ⟨text, t, htext, readStamp_eq_ok_iff.2 (readStamp_eq_ok_iff.1 ht), hstamp⟩

end Descriptor

namespace ResourceCache

/-- The stamp of a source does not depend on how its path is spelled. -/
theorem stamp_congr {files : FileStore} {p q : Path} {time : Option String}
    (hpq : p.segments = q.segments) (h : stamp files p = .ok time) :
    stamp files q = .ok time := by
  unfold stamp Package.descriptor? Package.descriptorPath at h ⊢
  rcases Path.parent?_congr hpq with ⟨hp, hq⟩ | ⟨a, b, hp, hq, hab⟩
  · rw [hp] at h
    rw [hq]
    exact h
  · -- both spellings lead to one descriptor, which is a file or not
    have hlocate : files.locate (a.join Package.descriptorName) =
        files.locate (b.join Package.descriptorName) := by
      rw [FileStore.locate_join _ _ Package.isName_descriptorName, hab,
        FileStore.locate_join _ _ Package.isName_descriptorName]
    rw [hp, Option.map_some] at h
    rw [hq, Option.map_some]
    cases hfile : files.isFile (a.join Package.descriptorName) with
    | true =>
        have hfile' := (FileStore.isFile_congr hlocate).symm.trans hfile
        simp only [Option.filter, hfile, hfile', if_true] at h ⊢
        exact Descriptor.readTimestamp_congr hlocate h
    | false =>
        have hfile' := (FileStore.isFile_congr hlocate).symm.trans hfile
        simpa only [Option.filter, hfile, hfile', Bool.false_eq_true, if_false] using h

end ResourceCache

end SchemaScope
