/-
**Where the resources of a source stand.**

The sources of a package stand two levels below its directory, and the folder of a source's resources
next to those levels.  The way from a source to its folder goes up and down again, and the normal form
of that way takes both levels back: what is left is the normal form of the directory of the package
with two more names, however the directory has been spelled.

Main results:

* `Path.splitExtension?_append` — a name that ends in an extension is split in front of it;
* `Package.resourceFolder?_join` — the folder of a source two levels below a directory;
* `Path.normalize_canonical` — **the normal form is canonical and leads to the same place**, and the
  resources of a source stand below the normal form of its package.
-/

import SchemaScope.Proofs.Resource.Sources

set_option autoImplicit false

namespace SchemaScope

namespace Path

/-- A name that ends in a dot and an extension is split at that dot. -/
theorem splitExtension?_append {before after : List Char} (hbefore : before ≠ [])
    (hafter : '.' ∉ after) :
    splitExtension? (before ++ '.' :: after) = some (before, after) := by
  have htail : ((before ++ '.' :: after).reverse.takeWhile (· != '.')).reverse = after := by
    have hquiet : ∀ c ∈ after.reverse, (c != '.') = true := by
      intro c hc
      simp only [bne_iff_ne]
      rintro rfl
      exact hafter (List.mem_reverse.1 hc)
    rw [List.reverse_append, List.reverse_cons, List.append_assoc,
      List.takeWhile_append_of_pos hquiet]
    simp
  have hfront : (before ++ '.' :: after).take
      ((before ++ '.' :: after).length - after.length - 1) = before := by
    have hlength : (before ++ '.' :: after).length - after.length - 1 = before.length := by
      simp only [List.length_append, List.length_cons]
      omega
    rw [hlength, List.take_left]
  simp only [splitExtension?, htail, hfront]
  simp [hbefore]

section LastName

variable {p : Path} {steps : List Segment} {text : String}

theorem fileName?_of_segments (h : p.segments = steps ++ [.name text]) : p.fileName? = some text := by
  simp [fileName?, h]

theorem parent?_of_segments (h : p.segments = steps ++ [.name text]) :
    ∃ directory, p.parent? = some directory ∧ directory.segments = steps := by
  have hparent := segments_parent? p
  rw [h, Segment.parent?_concat (by simp)] at hparent
  exact Option.map_eq_some_iff.1 hparent

end LastName

section Extension

variable {p : Path} {steps : List Segment} {stem extension : String}
  (h : p.segments = steps ++ [.name (stem ++ "." ++ extension)]) (hstem : stem ≠ "")
  (hextension : '.' ∉ extension.toList)

include h hstem hextension

theorem splitExtension?_of_segments : p.fileName? = some (stem ++ "." ++ extension) ∧
    splitExtension? (stem ++ "." ++ extension).toList = some (stem.toList, extension.toList) := by
  refine ⟨fileName?_of_segments h, ?_⟩
  have hne : stem.toList ≠ [] := by simpa using hstem
  simpa using splitExtension?_append hne hextension

theorem stem?_of_segments : p.stem? = some stem := by
  obtain ⟨hname, hsplit⟩ := splitExtension?_of_segments h hstem hextension
  simp only [stem?, hname, Option.map_some, hsplit, String.ofList_toList]

theorem extension?_of_segments : p.extension? = some extension := by
  obtain ⟨hname, hsplit⟩ := splitExtension?_of_segments h hstem hextension
  simp only [extension?, hname, Option.bind_eq_bind, Option.bind_some, hsplit, String.ofList_toList]
  rfl

end Extension

/-- A path leads to the root exactly if it starts there. -/
theorem root_mem_segments_iff (p : Path) : .root ∈ p.segments ↔ p.isAbsolute = true := by
  have hpiece : ∀ piece, Segment.root ∉ Segment.ofPiece piece := by
    intro piece
    unfold Segment.ofPiece
    split_ifs <;> simp
  cases hp : p.pieces with
  | nil => exact absurd hp (splitSlashes_ne_nil _)
  | cons first rest =>
      have hrest : Segment.root ∉ rest.flatMap Segment.ofPiece := by simp [hpiece]
      rw [segments_eq_stepsOf, hp, stepsOf, List.mem_append, or_iff_left hrest]
      split_ifs with habsolute hdot <;> simp [habsolute, hpiece]

end Path

namespace Package

/-- The way from a source to the resources of its package takes two levels back. -/
theorem normalize_append_resourcesFromSchema (steps : List Segment) (schemas schema folder : String) :
    Segment.normalize (steps ++ [.name schemas, .name schema] ++
        [.up, .up, .name "Resources", .name folder]) =
      Segment.normalize steps ++ [.name "Resources", .name folder] := by
  have hinner : Segment.normalize (steps ++ [.name schemas] ++ [.name schema, .up]) =
      Segment.normalize (steps ++ [.name schemas]) := Segment.normalize_append_name_up _ schema
  have hboth : Segment.normalize (steps ++ [.name schemas] ++ [.name schema, .up] ++ [.up]) =
      Segment.normalize steps := by
    rw [Segment.normalize_append_congr hinner, List.append_assoc]
    exact Segment.normalize_append_name_up steps schemas
  calc Segment.normalize (steps ++ [.name schemas, .name schema] ++
        [.up, .up, .name "Resources", .name folder])
      = Segment.normalize (steps ++ [.name schemas] ++ [.name schema, .up] ++ [.up] ++
          ["Resources", folder].map .name) := by simp
    _ = Segment.normalize (steps ++ ["Resources", folder].map .name) :=
        Segment.normalize_append_congr hboth _
    _ = _ := Segment.normalize_append_names steps _

/-- The extensions of sources with resources are two plain letters. -/
theorem extension_of_tag? {extension tag : String}
    (h : (SourceKind.ofExtension extension).tag? = some tag) :
    '.' ∉ extension.toList ∧ '/' ∉ extension.toList ∧ extension.toList.length = 2 := by
  unfold SourceKind.ofExtension at h
  split_ifs at h with hjs hcs
  · subst hjs
    decide
  · subst hcs
    decide
  · cases h

theorem isComponent_source {name extension tag : String} (hslash : '/' ∉ name.toList)
    (h : (SourceKind.ofExtension extension).tag? = some tag) :
    Path.IsComponent (name ++ "." ++ extension) := by
  obtain ⟨-, hplain, hlength⟩ := extension_of_tag? h
  have htotal : (name ++ "." ++ extension).toList.length = name.toList.length + 3 := by
    simp only [String.toList_append, List.length_append, hlength]
    rfl
  refine ⟨⟨by simp [hslash, hplain], ?_⟩, ?_⟩
  · rintro (hempty | hdot)
    · simp [hempty] at htotal
    · simp [hdot] at htotal
  · intro hup
    simp [hup] at htotal

/-- **The folder of a source** that stands two levels below a directory. -/
theorem resourceFolder?_join (p : Path) {schemas schema name extension tag : String}
    (hschemas : Path.IsComponent schemas) (hschema : Path.IsComponent schema) (hname : name ≠ "")
    (hslash : '/' ∉ name.toList) (htag : (SourceKind.ofExtension extension).tag? = some tag) :
    resourceFolder? (((p.join schemas).join schema).join (name ++ "." ++ extension)) =
      some ((p.normalize.join "Resources").join (name ++ "." ++ tag)) := by
  set source := ((p.join schemas).join schema).join (name ++ "." ++ extension)
  have hsegments : source.segments = p.segments ++ [.name schemas, .name schema] ++
      [.name (name ++ "." ++ extension)] := by
    simp [source, Path.segments_join_of_isComponent _ (isComponent_source hslash htag),
      Path.segments_join_of_isComponent _ hschema, Path.segments_join_of_isComponent _ hschemas]
  have hdot := (extension_of_tag? htag).1
  have hkind : (SourceKind.ofPath source).tag? = some tag := by
    simp [SourceKind.ofPath, Path.extension?_of_segments hsegments hname hdot, htag]
  have hstem : schemaName? source = some name := Path.stem?_of_segments hsegments hname hdot
  obtain ⟨directory, hparent, hdirectory⟩ := Path.parent?_of_segments hsegments
  have hfolder := isComponent_tagged htag hslash
  have hway : (resourcesFromSchema ++ [name ++ "." ++ tag]).flatMap
      (fun n => Segment.ofPiece n.toList) =
        [.up, .up, .name "Resources", .name (name ++ "." ++ tag)] := by
    rw [List.flatMap_append, List.flatMap_singleton, hfolder.ofPiece]
    rfl
  -- both sides are spelled by the steps of the normal form with two more names
  have hleft : ((resourcesFromSchema ++ [name ++ "." ++ tag]).foldl Path.join directory).normalize =
      Path.ofSegments (Segment.normalize p.segments ++
        [.name "Resources", .name (name ++ "." ++ tag)]) := by
    rw [Path.normalize, Path.segments_foldl_join _ (isName_of_mem_way htag hstem), hdirectory, hway,
      normalize_append_resourcesFromSchema]
  have hright : (p.normalize.join "Resources").join (name ++ "." ++ tag) =
      Path.ofSegments (Segment.normalize p.segments ++
        [.name "Resources", .name (name ++ "." ++ tag)]) := by
    have hspelled := Path.spellable_normalize p
    have hresources : Path.IsComponent "Resources" := by decide
    rw [Path.normalize, Path.join_ofSegments hspelled,
      Path.join_ofSegments (hspelled.concat hresources)]
    simp
  simp only [resourceFolder?, hkind, hstem, hparent, Option.bind_eq_bind, Option.bind_some, hleft,
    hright]
  rfl

end Package

/-- **The normal form is canonical and leads to the same place.**  It leads from the root to names if
the path starts at the root, and otherwise up some levels and then to names; it is its own normal
form; and from any directory it leads where the path leads.  So the resources of a source two levels
below a directory stand below the normal form of that directory. -/
theorem Path.normalize_canonical (p : Path) :
    (p.isAbsolute = true → ∃ names : List String, p.normalize.segments = .root :: names.map .name) ∧
    (p.isAbsolute = false → ∃ (ups : Nat) (names : List String),
      p.normalize.segments = List.replicate ups .up ++ names.map .name) ∧
    p.normalize.normalize = p.normalize ∧
    (∀ directory : List String,
      Segment.resolve directory p.normalize.segments = Segment.resolve directory p.segments) ∧
    ∀ schemas schema name : String, IsComponent schemas → IsComponent schema → name ≠ "" →
      '/' ∉ name.toList →
      Package.resourceFolder? (((p.join schemas).join schema).join (name ++ ".js")) =
        some ((p.normalize.join "Resources").join (name ++ ".ClientUnit")) ∧
      Package.resourceFolder? (((p.join schemas).join schema).join (name ++ ".cs")) =
        some ((p.normalize.join "Resources").join (name ++ ".SourceCode")) := by
  have hroot : .root ∈ p.normalize.segments ↔ p.isAbsolute = true := by
    rw [segments_normalize, Segment.root_mem_normalize_iff, root_mem_segments_iff]
  have hnormal : Segment.IsNormal p.normalize.segments := by
    rw [segments_normalize]
    exact Segment.isNormal_normalize _
  refine ⟨?_, ?_, ?_, ?_, ?_⟩
  · intro habsolute
    generalize p.normalize.segments = steps at hroot hnormal
    cases hnormal with
    | absolute names => exact ⟨names, rfl⟩
    | relative ups names => simp [habsolute] at hroot
  · intro hrelative
    generalize p.normalize.segments = steps at hroot hnormal
    cases hnormal with
    | absolute names => simp [hrelative] at hroot
    | relative ups names => exact ⟨ups, names, rfl⟩
  · rw [normalize, Segment.normalize_of_isNormal hnormal, segments_normalize]
    rfl
  · intro directory
    rw [segments_normalize, Segment.resolve_normalize]
  · intro schemas schema name hschemas hschema hname hslash
    have hfolder := fun (extension tag : String)
        (htag : (SourceKind.ofExtension extension).tag? = some tag) =>
      Package.resourceFolder?_join p hschemas hschema hname hslash htag
    refine ⟨?_, ?_⟩
    · simpa only [String.append_assoc, String.reduceAppend] using hfolder "js" "ClientUnit" rfl
    · simpa only [String.append_assoc, String.reduceAppend] using hfolder "cs" "SourceCode" rfl

/-- A relative directory that leads above its start, with a slash and a dot too many. -/
theorem Path.normalize_canonical_upwards :
    Path.isAbsolute ⟨"../a/./../../b//"⟩ = false ∧ Path.IsComponent "Schemas" ∧
    Path.IsComponent "Page" ∧ Path.normalize ⟨"../a/./../../b//"⟩ = ⟨"../../b"⟩ ∧
    (∃ (ups : Nat) (names : List String),
      (Path.normalize ⟨"../a/./../../b//"⟩).segments =
        List.replicate ups .up ++ names.map .name) ∧
    Package.resourceFolder? ⟨"../a/./../../b//Schemas/Page/Page.v2.js"⟩ =
      some ⟨"../../b/Resources/Page.v2.ClientUnit"⟩ := by
  have hschemas : Path.IsComponent "Schemas" := by decide
  have hpage : Path.IsComponent "Page" := by decide
  have hnormalize : Path.normalize ⟨"../a/./../../b//"⟩ = ⟨"../../b"⟩ := by decide +kernel
  have happlied := Path.normalize_canonical ⟨"../a/./../../b//"⟩
  have hfolder := (happlied.2.2.2.2 "Schemas" "Page" "Page.v2" hschemas hpage (by decide)
    (by decide)).1
  rw [hnormalize] at hfolder
  exact ⟨by decide, hschemas, hpage, hnormalize, happlied.2.1 (by decide), hfolder⟩

end SchemaScope
