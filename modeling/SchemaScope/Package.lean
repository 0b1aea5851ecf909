/-
**The layout of a package.**

The sources of a schema stand in a directory of their own, next to a descriptor.  Two levels up is
the directory of resources, with a folder for every schema, named for the schema and the kind of its
source; the folder holds a file for every locale, named for the locale.

Main definitions:

* `SourceKind` — client and server sources, told apart by the extension;
* `Package.descriptorPath`, `Package.descriptor?` — the descriptor next to a source;
* `Package.resourceFolder?` — the folder of a source's resources;
* `Package.locale?` — the locale of a resource file.
-/

import SchemaScope.File.Store

set_option autoImplicit false

namespace SchemaScope

/-- The kind of a source file. -/
inductive SourceKind where
  | clientUnit
  | sourceCode
  | other
  deriving DecidableEq, Repr, Inhabited

namespace SourceKind

/-- The kind of files with the given extension. -/
def ofExtension (text : String) : SourceKind :=
  if text = "js" then .clientUnit else if text = "cs" then .sourceCode else .other

/-- The kind of the file at a path. -/
def ofPath (p : Path) : SourceKind := (p.extension?.map ofExtension).getD .other

/-- What the resource folder of a source is tagged with. -/
def tag? : SourceKind → Option String
  | .clientUnit => some "ClientUnit"
  | .sourceCode => some "SourceCode"
  | .other => none

end SourceKind

namespace Package

/-- The name of descriptor files. -/
def descriptorName : String := "descriptor.json"

/-- Where the descriptor of a source would stand. -/
def descriptorPath (source : Path) : Option Path :=
  source.parent?.map fun directory => directory.join descriptorName

/-- The descriptor of a source, if it is there. -/
def descriptor? (files : FileStore) (source : Path) : Option Path :=
  (descriptorPath source).filter files.isFile

/-- The name of the schema that a source belongs to. -/
def schemaName? (source : Path) : Option String := source.stem?

/-- The way from the directory of a schema to the resources of its package. -/
def resourcesFromSchema : List String := ["..", "..", "Resources"]

/-- Where the resources of a source would stand. -/
def resourceFolder? (source : Path) : Option Path := do
  let tag ← (SourceKind.ofPath source).tag?
  let name ← schemaName? source
  let directory ← source.parent?
  return ((resourcesFromSchema ++ [name ++ "." ++ tag]).foldl Path.join directory).normalize

/-- The locale that a resource file holds. -/
def locale? (file : Path) : Option String := file.stem?.filter fun name => !name.isEmpty

/-- Whether the document at a path is a script to look into. -/
def isScript (source : Path) : Bool := SourceKind.ofPath source == .clientUnit

end Package

end SchemaScope
