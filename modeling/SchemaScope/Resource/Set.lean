/-
**The resources of a source.**

The resources of a source are its localizable strings in every locale.  They are read from the files
of a folder, and shown as one line for every locale that has the string.

Main definitions:

* `ResourceSet`, `ResourceSet.values`, `ResourceSet.keys` — the strings of a source;
* `LocalizedValue.hover` — values as a text to show;
* `ResourceSet.captions` — the set as a source of captions;
* `ResourceSet.scan` — the strings in the files of a folder;
* `Snippets` — how scripts refer to a string.
-/

import SchemaScope.Package
import SchemaScope.Resource.Locale
import SchemaScope.Schema.Caption
import SchemaScope.Platform.Enumeration

set_option autoImplicit false

namespace SchemaScope

/-- A localizable string in one locale. -/
structure LocalizedValue where
  locale : String
  value : String
  deriving DecidableEq, Repr, Inhabited

namespace LocalizedValue

/-- The value that stands in for a string that no locale has. -/
def missing : LocalizedValue := ⟨"unknown", Platform.unknown⟩

/-- A locale and its value on one line. -/
def line (v : LocalizedValue) : String := v.locale ++ ": " ++ v.value

/-- Values as a text to show, with hard line breaks between them. -/
def hover (values : List LocalizedValue) : String := "  \n".intercalate (values.map line)

end LocalizedValue

/-- The strings of every locale. -/
abbrev Locales := Table Locale.Strings

/-- The localizable strings of a source, with the stamp of its descriptor when they were read. -/
structure ResourceSet where
  source : Path
  schemaName : String
  time : String
  locales : Locales

namespace ResourceSet

/-- The values of a string in the locales that have it. -/
def values (s : ResourceSet) (key : String) : List LocalizedValue :=
  s.locales.entries.filterMap fun (locale, strings) => (strings.get? key).map (⟨locale, ·⟩)

/-- The values of a string, or a stand-in if no locale has it. -/
def valuesOrMissing (s : ResourceSet) (key : String) : List LocalizedValue :=
  match s.values key with
  | [] => [.missing]
  | values => values

/-- The keys of all locales, sorted. -/
def keys (s : ResourceSet) : List String :=
  let keys := s.locales.entries.flatMap fun (_, strings) => strings.keys
  (Table.ofList (keys.map fun key => (key, ()))).keys

/-- The values of a string as a text to show. -/
def hover (s : ResourceSet) (key : String) : String := LocalizedValue.hover (s.valuesOrMissing key)

/-- The set as a source of captions. -/
def captions (s : ResourceSet) : Schema.CaptionLookup := fun key => some (s.hover key)

/-! ### Reading -/

/-- The strings of a file in a resource folder, with their locale. -/
def ofFile? (file : String × ByteArray) : Option (String × Locale.Strings) :=
  (Package.locale? ⟨file.1⟩).map fun locale => (locale, Locale.strings (Utf8.decodeLossy file.2))

/-- The strings in files that are given in the order of their names.  Of several files of one locale
the last one counts. -/
def ofFiles (files : List (String × ByteArray)) : Locales := Table.ofList (files.filterMap ofFile?)

/-- The strings in the files of a folder. -/
def scan (files : FileStore) (folder : Path) : Except FileFault Locales :=
  (files.list folder).map ofFiles

end ResourceSet

/-! ### Snippets -/

/-- How a string is referred to: in a binding, in the code of a module, and on the server. -/
structure Snippets where
  binding : String
  module : String
  server : String
  deriving DecidableEq, Repr, Inhabited

/-- The references to a string of a schema. -/
def Snippets.of (schemaName key : String) : Snippets :=
  { binding := "Resources.Strings." ++ key
    module := "resources.localizableStrings." ++ key
    server := "UserConnection.GetLocalizableString(\"" ++ schemaName ++ "\", \"" ++ key ++ "\")" }

end SchemaScope
