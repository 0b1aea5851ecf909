/-
**The session.**

A session follows the document that is open in an editor.  It holds the text, what the parser last
made of it and its tree, the configuration and what depends on it, the resources read so far, and
the subscribers.  Asking it about the document changes nothing but the cache of resources; failures
of the environment are told to the subscribers.

Main definitions:

* `Session`, `Session.activate`, `Session.deactivate` — a session, its start and its end;
* `Session.update`, `Session.edit` — the document changes;
* `Session.applyConfig`, `Session.resetConfig`, `Session.setRules` — the settings change;
* `Session.sections`, `Session.highlights`, `Session.regions` — what the document shows;
* `Session.resources`, `Session.values`, `Session.hover`, `Session.listResources`,
  `Session.snippets?` — localizable strings;
* `Session.save` — the document has been saved.
-/

import SchemaScope.Config
import SchemaScope.Event
import SchemaScope.File.Reservation
import SchemaScope.Highlight
import SchemaScope.Outline
import SchemaScope.Resource.Cache
import SchemaScope.Script.Parser

set_option autoImplicit false

namespace SchemaScope

open Script Schema

/-- A session.  What came out of the text is kept even if it has no tree, so that edits can reuse
it. -/
structure Session (P : Parser) where
  path : Option Path
  source : String
  lastParse : Option P.Outcome
  tree : Option Tree
  config : Config
  rules : List HighlightRule
  matcher : RegionMatcher
  cache : ResourceCache
  reservations : Reservations
  bus : Bus

namespace Session

variable {P : Parser}

/-- A session that has just started. -/
def activate (config : Config) : Session P :=
  { path := none
    source := ""
    lastParse := none
    tree := none
    config := config
    rules := defaultHighlightRules
    matcher := RegionMatcher.ofRules config.region.rules
    cache := .empty
    reservations := .empty
    bus := .empty }

/-- A session that has ended.  Nothing read is kept, and the subscribers are detached. -/
def deactivate (s : Session P) : Session P := { s with cache := .empty, bus := s.bus.clear }

/-- Sends an event to the subscribers. -/
def publish (s : Session P) (event : Event) : Session P := { s with bus := s.bus.publish event }

/-! ### Settings -/

/-- Takes over a configuration.  The patterns for regions are read again only if they changed. -/
def setConfig (s : Session P) (config : Config) : Session P :=
  { s with
    config := config
    matcher :=
      if config.region.rules = s.config.region.rules then s.matcher
      else RegionMatcher.ofRules config.region.rules }

/-- Changes the configuration by an override. -/
def applyConfig (s : Session P) (overrides : Json) : Except ConfigError (Session P) :=
  (s.config.apply overrides).map s.setConfig

/-- Goes back to the standard configuration. -/
def resetConfig (s : Session P) : Session P := s.setConfig .standard

/-- Changes the rules of the annotator. -/
def setRules (s : Session P) (rules : List HighlightRule) : Session P := { s with rules := rules }

/-! ### The document -/

/-- Whether a document is a script.  A document without a path is one. -/
def isAnalyzable (path : Option Path) : Bool := path.all Package.isScript

/-- The session with another document, parsed on the basis of an earlier outcome if it is a
script. -/
def withDocument (s : Session P) (path : Option Path) (text : String) (earlier : Option P.Outcome) :
    Session P :=
  let outcome := if isAnalyzable path then P.parse text earlier else none
  { s with path := path, source := text, lastParse := outcome, tree := P.tree? text outcome }

/-- Replaces the document. -/
def update (s : Session P) (path : Option Path) (text : String) : Session P :=
  ((s.publish .beforeUpdate).withDocument path text none).publish .afterUpdate

/-- Edits the document.  What came out of it before is moved along and reused. -/
def edit (s : Session P) (e : TextEdit) : Except InvalidEdit (Session P) :=
  match e.edited? s.source.toList, e.span? s.source.toList with
  | some text, some span =>
      let earlier := s.lastParse.map (P.move span)
      .ok (((s.publish .beforeUpdate).withDocument s.path (String.ofList text) earlier).publish
        .afterUpdate)
  | _, _ => .error ⟨e.start, e.stop, Utf8.size s.source.toList⟩

/-! ### Localizable strings -/

/-- The resources of a source, if resources are wanted.  A failure is told to the subscribers. -/
def resources (s : Session P) (files : FileStore) (source : Path) : Option ResourceSet × Session P :=
  if s.config.resource then
    let (loaded, cache) := s.cache.load files source
    let s := { s with cache := cache }
    match loaded with
    | .ok set => (set, s)
    | .error e => (none, s.publish (.error e.message))
  else (none, s)

/-- The resources of the document. -/
def currentResources (s : Session P) (files : FileStore) : Option ResourceSet × Session P :=
  match s.path with
  | some path => s.resources files path
  | none => (none, s)

/-- The values of a string of a source. -/
def values (s : Session P) (files : FileStore) (source : Path) (key : String) :
    Option (List LocalizedValue) × Session P :=
  let (set, s) := s.resources files source
  (set.map (·.valuesOrMissing key), s)

/-- What to show over a line: the values of the string mentioned before an offset. -/
def hover (s : Session P) (files : FileStore) (line : String) (offset : Nat) :
    Option String × Session P :=
  match Mention.keyOn? line (some offset) with
  | some key =>
      let (set, s) := s.currentResources files
      (set.map (·.hover key), s)
  | none => (none, s)

/-- Reads the resources of a source and tells the subscribers. -/
def listResources (s : Session P) (files : FileStore) (source : Option Path) :
    Option ResourceSet × Session P :=
  let (set, s) := match source with
    | some path => s.resources files path
    | none => (none, s)
  (set, s.publish (.resourcesUpdated set))

/-- How the document can refer to a string of its own. -/
def snippets? (s : Session P) (key : String) : Option Snippets := do
  let path ← s.path
  let name ← Package.schemaName? path
  return Snippets.of name key

/-! ### What the document shows -/

/-- The sections of the document with the given captions. -/
def sectionsWith (s : Session P) (captions : CaptionLookup) : List Section :=
  (s.tree.map (Section.ofTree captions)).getD []

/-- The sections of the document. -/
def sections (s : Session P) (files : FileStore) : List Section × Session P :=
  if s.config.schema then
    let (set, s) := s.currentResources files
    (s.sectionsWith ((set.map ResourceSet.captions).getD .none), s)
  else ([], s)

/-- What identifies the document in an outline. -/
def fileKey (s : Session P) : String := (s.path.map Path.text).getD ""

/-- The top of the outline of the document. -/
def outlineItems (s : Session P) (files : FileStore) : List OutlineItem × Session P :=
  let (sections, t) := s.sections files
  (sections.map fun section_ => OutlineItem.ofNode s.fileKey (.root section_), t)

/-- The annotations of the document. -/
def highlights (s : Session P) : List Highlight :=
  if s.config.highlight then (s.tree.map (annotate s.rules)).getD [] else []

/-- The annotations of the document that are to be shown with the given lines. -/
def visibleHighlights (s : Session P) (first last : Nat) : List Highlight :=
  visible s.highlights first last

/-- The regions of the document. -/
def regions (s : Session P) : List Region :=
  if s.config.region.enabled then (s.tree.map s.matcher.regions).getD [] else []

/-- The outermost regions of the document as an outline. -/
def regionItems (s : Session P) : List OutlineItem :=
  s.regions.map fun r => OutlineItem.ofNode s.fileKey (.region r)

/-! ### Saving -/

/-- Puts a new stamp into the descriptor next to a file that has been saved.  The answer says
whether it was written; a failure is told to the subscribers. -/
def save (s : Session P) (files : FileStore) (now : Nat) (saved : Path) :
    Bool × FileStore × Session P :=
  if s.config.descriptor then
    match Package.descriptor? files saved with
    | some descriptor =>
        match s.reservations.reserve? descriptor with
        | some reservations =>
            let s := { s with reservations := reservations.release descriptor }
            match Descriptor.restampFile files descriptor now with
            | .ok files => (true, files, s)
            | .error e => (false, files, s.publish (.error e.message))
        | none => (false, files, s)
    | none => (false, files, s)
  else (false, files, s)

end Session

end SchemaScope
