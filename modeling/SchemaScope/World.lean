/-
**A session among files.**

A world is a session together with the files around it and a clock.  The host of a session gives it
commands one after the other; each has an answer, and the events it causes go to the host, which is
the first subscriber.  The clock stands still but for one tick after every descriptor that is
written.

Main definitions:

* `World`, `World.start` — a session among files;
* `Command`, `Answer` — what a host asks for and what it is told;
* `World.perform`, `World.step` — a command is carried out, without and with the host taking the
  events;
* `World.restart` — a new session takes the place of the old one.
-/

import SchemaScope.Session

set_option autoImplicit false

namespace SchemaScope

open Schema Platform

/-- A session, the files around it, and the time. -/
structure World (P : Script.Parser) where
  files : FileStore
  now : Nat
  session : Session P

/-- What a host asks for. -/
inductive Command where
  | update (path : Option Path) (text : String)
  | edit (e : TextEdit)
  | applyConfig (overrides : Json)
  | resetConfig
  | setRules (rules : List HighlightRule)
  | sections
  | outlineItems
  | highlights
  | visibleHighlights (first last : Nat)
  | regions
  | regionItems
  | values (source : Path) (key : String)
  | hover (line : String) (offset : Nat)
  | listResources (source : Option Path)
  | snippets (key : String)
  | save (saved : Path)
  | completions (typed : String)

/-- What a host is told. -/
inductive Answer where
  | updated (hasTree : Bool) (path : Option Path)
  | edited (source : Option String)
  | invalidEdit (e : InvalidEdit)
  | config (c : Config)
  | invalidConfig (e : ConfigError)
  | rules (rules : List HighlightRule)
  | sections (sections : List Section)
  | items (items : List OutlineItem)
  | highlights (highlights : List Highlight)
  | regions (regions : List Region)
  | values (values : Option (List LocalizedValue))
  | hover (text : Option String)
  | resources (set : Option ResourceSet)
  | snippets (snippets : Option Snippets)
  | saved (written : Bool)
  | completions (completions : List Completion)

namespace World

variable {P : Script.Parser}

/-- The number of the host among the subscribers. -/
def host : Nat := 0

/-- A new session with the host as its only subscriber. -/
def hosted (config : Config) : Session P :=
  let s := Session.activate config
  { s with bus := s.bus.subscribe.2 }

/-- A world with a session that has just started. -/
def start (files : FileStore) (now : Nat) (config : Config) : World P := ⟨files, now, hosted config⟩

/-- The world with its session changed. -/
def withSession (w : World P) (s : Session P) : World P := { w with session := s }

/-- Carries out a command. -/
def perform (w : World P) : Command → Answer × World P
  | .update path text =>
      let s := w.session.update path text
      (.updated s.tree.isSome s.path, w.withSession s)
  | .edit e =>
      match w.session.edit e with
      | .ok s => (.edited (s.tree.map (·.source)), w.withSession s)
      | .error e => (.invalidEdit e, w)
  | .applyConfig overrides =>
      match w.session.applyConfig overrides with
      | .ok s => (.config s.config, w.withSession s)
      | .error e => (.invalidConfig e, w)
  | .resetConfig =>
      let s := w.session.resetConfig
      (.config s.config, w.withSession s)
  | .setRules rules => (.rules rules, w.withSession (w.session.setRules rules))
  | .sections =>
      let (sections, s) := w.session.sections w.files
      (.sections sections, w.withSession s)
  | .outlineItems =>
      let (items, s) := w.session.outlineItems w.files
      (.items items, w.withSession s)
  | .highlights => (.highlights w.session.highlights, w)
  | .visibleHighlights first last => (.highlights (w.session.visibleHighlights first last), w)
  | .regions => (.regions w.session.regions, w)
  | .regionItems => (.items w.session.regionItems, w)
  | .values source key =>
      let (values, s) := w.session.values w.files source key
      (.values values, w.withSession s)
  | .hover line offset =>
      let (text, s) := w.session.hover w.files line offset
      (.hover text, w.withSession s)
  | .listResources source =>
      let (set, s) := w.session.listResources w.files source
      (.resources set, w.withSession s)
  | .snippets key => (.snippets (w.session.snippets? key), w)
  | .save path =>
      let (written, files, s) := w.session.save w.files w.now path
      (.saved written, ⟨files, if written then w.now + 1 else w.now, s⟩)
  | .completions typed => (.completions (completions typed), w)

/-- The events that wait for the host, and the world after it has taken them. -/
def takeEvents (w : World P) : List Event × World P :=
  let (events, bus) := w.session.bus.drain host
  (events.getD [], w.withSession { w.session with bus := bus })

/-- Carries out a command, after which the host takes the events. -/
def step (w : World P) (command : Command) : (Answer × List Event) × World P :=
  let (reply, w) := w.perform command
  let (events, w) := w.takeEvents
  ((reply, events), w)

/-- A new session takes the place of the old one, with overrides to the standard configuration. -/
def restart (w : World P) (overrides : Json) : Except ConfigError (World P) :=
  (Config.standard.apply overrides).map fun config => w.withSession (hosted config)

end World

end SchemaScope
