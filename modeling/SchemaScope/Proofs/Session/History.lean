/-
**A session does not depend on its history.**

What commands say about the document and the settings can be put together without any session: the
last document with the edits that were accepted, the last configuration with the overrides that were
accepted, and the last rules.  After any commands, a session shows what a session shows that was
started with this configuration and these rules and was given this document once.  Shortcuts on the
way, such as reusing what the parser made of an earlier text or keeping compiled patterns, cannot be
told from what is shown.

There is one difference, in the tree.  A session to which no document has come has none, while a
session that was given an empty document has a tree of it.  Neither has anything to show.

Main definitions:

* `Setup`, `Setup.after` — what commands have said, all in all;
* `Setup.session` — a new session that is told so once;
* `Session.Follows` — a session has taken over what it was told;
* `Script.Parser.AcceptsEmpty` — an assumption about the parser: the empty text is an empty script.

Main results:

* `Session.Follows.core_eq` — a session with a document is a new one that was told the same, but for
  its cache, its reservations and its subscribers;
* `Session.Follows.showsSame` — **a session shows what a new one shows that was told the same**;
* `World.follows_perform`, `World.follows_run` — a session takes over what commands say;
* `World.run_history_independent` — **a session does not depend on its history**;
* `World.not_history_independent_before_document` — its tree does, before a document has come.
-/

import SchemaScope.Proofs.Session.Coherence

set_option autoImplicit false

namespace SchemaScope

open Script Schema

/-! ### The empty text -/

namespace Script.Tree

/-- The root of the tree of an empty text. -/
def emptyRoot : Node := ⟨.program, none, ⟨Position.origin, Position.origin, 0, 0⟩, "", []⟩

/-- The tree of an empty text has one node. -/
theorem walk_empty (source : String) :
    (⟨source, emptyRoot⟩ : Tree).walk = [Cursor.root emptyRoot] := by
  rw [walk, cursor, Cursor.walk]
  split
  · rfl
  · -- a step to another node would need a node that is left
    next d hd =>
    have hlt := Cursor.advance?_remaining hd
    have hroot : (Cursor.root emptyRoot).remaining = 1 := rfl
    have hpos := Node.size_pos d.node
    simp only [hroot] at hlt
    unfold Cursor.remaining at hlt
    omega

theorem findFirst?_empty (source : String) {p : Cursor → Bool}
    (h : p (Cursor.root emptyRoot) = false) :
    (⟨source, emptyRoot⟩ : Tree).findFirst? p = none := by
  have hwalk := walk_empty source
  rw [walk] at hwalk
  rw [findFirst?, Cursor.findFirst?_eq_find?, hwalk, List.find?_cons_of_neg (by simp [h]),
    List.find?_nil]

end Script.Tree

open Script.Tree (emptyRoot walk_empty findFirst?_empty)

theorem annotate_empty (rules : List HighlightRule) (source : String) :
    annotate rules ⟨source, emptyRoot⟩ = [] := by
  rw [annotate, walk_empty]
  rfl

theorem RegionMatcher.regions_empty (m : RegionMatcher) (source : String) :
    m.regions ⟨source, emptyRoot⟩ = [] := by
  have hcomments : (⟨source, emptyRoot⟩ : Tree).comments = [] := by
    have hwalk := walk_empty source
    rw [Tree.walk] at hwalk
    rw [Tree.comments, Tree.ofKind, Cursor.findAll_eq_filter, hwalk]
    rfl
  rw [regions, hcomments]
  rfl

theorem Schema.Section.ofTree_empty (captions : CaptionLookup) (source : String) :
    Section.ofTree captions ⟨source, emptyRoot⟩ = [] := by
  have hfactory : factoryCall? ⟨source, emptyRoot⟩ = none := by
    rw [factoryCall?, findFirst?_empty source rfl]
    rfl
  have hlocated : ∀ name, located? ⟨source, emptyRoot⟩ name = none := by
    intro name
    rw [located?, findFirst?_empty source rfl]
    rfl
  simp [Section.ofTree, dependencies?, mixins?, messages?, attributes?, details?, methods?,
    businessRules?, layout?, ofMember?, locatedObject?, hfactory, hlocated]

/-! ### What commands say -/

/-- What commands have said, all in all: the document, the settings, and whether a document has come
at all. -/
structure Setup where
  path : Option Path
  text : String
  config : Config
  rules : List HighlightRule
  opened : Bool

namespace Setup

/-- What holds at the start. -/
def initial (config : Config) : Setup := ⟨none, "", config, defaultHighlightRules, false⟩

/-- What holds after a command.  An edit that does not fit and an override that is refused say
nothing. -/
def told (u : Setup) : Command → Setup
  | .update path text => { u with path := path, text := text, opened := true }
  | .edit e =>
      match e.edited? u.text.toList with
      | some edited => { u with text := String.ofList edited, opened := true }
      | none => u
  | .applyConfig overrides =>
      match u.config.apply overrides with
      | .ok config => { u with config := config }
      | .error _ => u
  | .resetConfig => { u with config := .standard }
  | .setRules rules => { u with rules := rules }
  | _ => u

/-- What holds after commands, with a configuration from the start. -/
def after (config : Config) (commands : List Command) : Setup :=
  commands.foldl told (initial config)

/-- A new session that is told so once. -/
def session {P : Parser} (u : Setup) : Session P :=
  ((Session.activate u.config).setRules u.rules).update u.path u.text

/-- A command that only asks says nothing. -/
theorem told_of_asks (u : Setup) {c : Command} (h : c.asks = true) : u.told c = u := by
  cases c <;> first | rfl | cases h

end Setup

/-- The empty text is an empty script. -/
def Script.Parser.AcceptsEmpty (P : Parser) : Prop :=
  (P.parse "" none).bind P.root? = some Tree.emptyRoot

theorem Script.Parser.standard_acceptsEmpty : Parser.standard.AcceptsEmpty := rfl

/-! ### Sessions and what they were told -/

namespace Session

variable {P : Parser} {s s' : Session P} {u : Setup}

theorem Settled.of_core (h : s.Settled) (hc : s'.core = s.core) : s'.Settled := by
  have hcore : s.core.Settled := h
  rw [← hc] at hcore
  exact hcore

theorem Idle.of_core (h : s.Idle) (hc : s'.core = s.core) : s'.Idle := by
  have hcore : s.core.Idle := h
  rw [← hc] at hcore
  exact hcore

/-- A session has taken over what it was told. -/
structure Follows (s : Session P) (u : Setup) : Prop where
  path : s.path = u.path
  source : s.source = u.text
  config : s.config = u.config
  rules : s.rules = u.rules
  settled : u.opened = true → s.Settled
  idle : u.opened = false → s.Idle

theorem Follows.of_core (h : s.Follows u) (hc : s'.core = s.core) : s'.Follows u where
  path := (congrArg Session.path hc).trans h.path
  source := (congrArg Session.source hc).trans h.source
  config := (congrArg Session.config hc).trans h.config
  rules := (congrArg Session.rules hc).trans h.rules
  settled ho := (h.settled ho).of_core hc
  idle ho := (h.idle ho).of_core hc

theorem follows_activate (config : Config) :
    (activate config : Session P).Follows (.initial config) where
  path := rfl
  source := rfl
  config := rfl
  rules := rfl
  settled ho := by cases ho
  idle _ := ⟨rfl, rfl, rfl⟩

/-- A session with a document is a new one that was told the same. -/
theorem Follows.core_eq (hu : s.Follows u) (h : s.Coherent) (ho : u.opened = true) :
    s.core = (u.session : Session P).core := by
  have hs := hu.settled ho
  have htree := h.tree
  have hmatcher := h.matcher
  rw [hs] at htree
  unfold Settled at hs
  obtain ⟨hpath, hsource, hconfig, hrules, -, -⟩ := hu
  obtain ⟨path, source, lastParse, tree, config, rules, matcher, cache, reservations, bus⟩ := s
  obtain ⟨path', text, config', rules', opened⟩ := u
  simp only at hs htree hmatcher hpath hsource hconfig hrules
  subst hpath hsource hconfig hrules hs htree hmatcher
  rfl

theorem Follows.tree_eq (hu : s.Follows u) (h : s.Coherent) (ho : u.opened = true) :
    s.tree = (u.session : Session P).tree := by
  have htree := congrArg Session.tree (hu.core_eq h ho)
  exact htree

/-- A session without a document has no tree. -/
theorem Follows.tree_eq_none (hu : s.Follows u) (h : s.Coherent) (ho : u.opened = false) :
    s.tree = none := by
  rw [h.tree, (hu.idle ho).2.2]
  rfl

/-- A new session that is given the empty document has a tree of it. -/
theorem Follows.session_tree (hempty : P.AcceptsEmpty) (hu : s.Follows u) (ho : u.opened = false) :
    (u.session : Session P).tree = some ⟨"", emptyRoot⟩ := by
  obtain ⟨hpath, hsource, -⟩ := hu.idle ho
  have htree : (u.session : Session P).tree =
      P.tree? u.text (if isAnalyzable u.path then P.parse u.text none else none) := rfl
  have hparse : (if isAnalyzable none then P.parse "" none else none) = P.parse "" none := rfl
  rw [htree, ← hu.path, ← hu.source, hpath, hsource, hparse, Parser.tree?, hempty]
  rfl

/-! ### What a session shows -/

/-- Without resources the sections are those without captions, if sections are wanted. -/
theorem sections_fst (files : FileStore) (h : s.config.resource = false ∨ s.path = none) :
    (s.sections files).1 = if s.config.schema then s.sectionsWith .none else [] := by
  unfold sections currentResources resources
  rcases h with h | h
  · split
    · cases s.path <;> simp [h]
    · rfl
  · simp [h]
    split <;> rfl

/-- The sessions show the same annotations, regions and sections. -/
structure ShowsSame (s s' : Session P) : Prop where
  highlights : s.highlights = s'.highlights
  regions : s.regions = s'.regions
  sectionsWith : ∀ captions, s.sectionsWith captions = s'.sectionsWith captions

/-- What a session shows depends on its core only. -/
theorem ShowsSame.of_core (h : s.core = s'.core) : s.ShowsSame s' := by
  have hcore : s.core.ShowsSame s'.core := by
    rw [h]
    exact ⟨rfl, rfl, fun _ => rfl⟩
  exact ⟨hcore.highlights, hcore.regions, hcore.sectionsWith⟩

/-- **A session shows what a new one shows that was told the same.** -/
theorem Follows.showsSame (hempty : P.AcceptsEmpty) (hu : s.Follows u) (h : s.Coherent) :
    s.ShowsSame u.session := by
  cases ho : u.opened with
  | true => exact .of_core (hu.core_eq h ho)
  | false =>
      -- no tree here, and the tree of an empty text there: neither has anything to show
      have htree := hu.tree_eq_none h ho
      have htree' := hu.session_tree hempty ho
      refine ⟨?_, ?_, ?_⟩
      · simp only [Session.highlights, htree, htree', Option.map_some, annotate_empty]
        simp
      · simp only [Session.regions, htree, htree', Option.map_some, RegionMatcher.regions_empty]
        simp
      · intro captions
        simp only [Session.sectionsWith, htree, htree', Option.map_some, Section.ofTree_empty]
        rfl

end Session

/-! ### Runs -/

namespace World

variable {P : Parser} {w : World P} {u : Setup}

/-- A session takes over what a command says. -/
theorem follows_perform (hP : P.Faithful) (hc : w.session.Coherent) (h : w.session.Follows u)
    (c : Command) : (w.perform c).2.session.Follows (u.told c) := by
  cases c with
  | update path text => exact ⟨rfl, rfl, h.config, h.rules, fun _ => rfl, (by cases ·)⟩
  | edit e =>
      rw [perform, Setup.told, ← h.source]
      cases he : e.edited? w.session.source.toList with
      | some edited =>
          rw [Session.edit_eq_update hP hc he]
          exact ⟨h.path, rfl, h.config, h.rules, fun _ => rfl, (by cases ·)⟩
      | none =>
          rw [Session.edit_of_edited?_eq_none _ he]
          exact h
  | applyConfig overrides =>
      rw [perform, Setup.told, Session.applyConfig, h.config]
      cases u.config.apply overrides with
      | ok config => exact ⟨h.path, h.source, rfl, h.rules, h.settled, h.idle⟩
      | error e => exact h
  | resetConfig => exact ⟨h.path, h.source, rfl, h.rules, h.settled, h.idle⟩
  | setRules rules => exact ⟨h.path, h.source, h.config, rfl, h.settled, h.idle⟩
  | _ =>
      rw [u.told_of_asks rfl]
      exact h.of_core (core_perform w rfl)

/-- A session takes over what commands say, one after the other. -/
theorem follows_run (hP : P.Faithful) (hc : w.session.Coherent) (h : w.session.Follows u)
    (commands : List Command) : (w.run commands).session.Follows (commands.foldl Setup.told u) := by
  induction commands generalizing w u with
  | nil => exact h
  | cons c commands ih => exact ih (coherent_perform hP hc c) (follows_perform hP hc h c)

/-- **A session does not depend on its history.**  After any commands, its document and its settings
are those that the commands said, and it shows what a new session shows that is told so once.  It has
the same tree, except that it has none before a document has come.  Its patterns are those of its
configuration, its tree holds its text, and a document that is no script has no tree. -/
theorem run_history_independent (hP : P.Faithful) (hempty : P.AcceptsEmpty) (files : FileStore)
    (now : Nat) (config : Config) (commands : List Command) :
    let s : Session P := ((start files now config).run commands).session
    let u := Setup.after config commands
    let fresh : Session P := u.session
    (s.path = u.path ∧ s.source = u.text ∧ s.config = u.config ∧ s.rules = u.rules) ∧
    (s.highlights = fresh.highlights ∧
      (∀ first last, s.visibleHighlights first last = fresh.visibleHighlights first last) ∧
      s.regions = fresh.regions ∧
      (∀ captions, s.sectionsWith captions = fresh.sectionsWith captions) ∧
      ∀ files files', s.config.resource = false ∨ s.path = none →
        (s.sections files).1 = (fresh.sections files').1) ∧
    (u.opened = true → s.tree = fresh.tree) ∧
    (u.opened = false → s.tree = none) ∧
    s.matcher = RegionMatcher.ofRules s.config.region.rules ∧
    (∀ t, s.tree = some t → t.source = s.source) ∧
    ∀ path, s.path = some path → Package.isScript path = false → s.tree = none := by
  intro s u fresh
  have hstart : (start files now config : World P).session.Coherent := coherent_start files now config
  have hc : s.Coherent := coherent_run hP hstart commands
  have hu : s.Follows u :=
    follows_run hP hstart ((Session.follows_activate config).of_core rfl) commands
  have hshow := hu.showsSame hempty hc
  refine ⟨⟨hu.path, hu.source, hu.config, hu.rules⟩,
    ⟨hshow.highlights, ?_, hshow.regions, hshow.sectionsWith, ?_⟩,
    hu.tree_eq hc, hu.tree_eq_none hc, hc.matcher, ?_, ?_⟩
  · intro first last
    rw [Session.visibleHighlights, Session.visibleHighlights, hshow.highlights]
  · intro files files' h
    have hconfig : fresh.config = s.config := hu.config.symm
    have hpath : fresh.path = s.path := hu.path.symm
    rw [Session.sections_fst files h, Session.sections_fst files' (by rwa [hconfig, hpath]),
      hshow.sectionsWith, hconfig]
  · intro t ht
    rw [hc.tree, Parser.tree?] at ht
    obtain ⟨root, -, rfl⟩ := Option.map_eq_some_iff.1 ht
    rfl
  · intro path hpath hkind
    -- a document that is no script is not even given to the parser
    have hnone : s.lastParse = none := by
      rcases hc.document with hsettled | hidle
      · rw [hsettled, if_neg (by simp [Session.isAnalyzable, hpath, hkind])]
      · exact hidle.2.2
    rw [hc.tree, hnone]
    rfl

/-- Commands of which the second edit and the second override are refused. -/
def mixedCommands : List Command :=
  [.update none "var a = 1", .edit ⟨4, 5, "été"⟩, .edit ⟨5, 6, ""⟩,
    .applyConfig (.object [("highlight", .bool false)]),
    .applyConfig (.object [("schema", .integer 1)]), .setRules [.businessRule], .resetConfig]

/-- After these commands the text is the one with the first edit, and the session has the tree that a
new session has of it; a session that was only configured has none. -/
theorem run_history_independent_mixed :
    (let s : Session Parser.standard := ((start (.empty []) 0 .standard).run mixedCommands).session
     let fresh : Session Parser.standard := (Setup.after .standard mixedCommands).session
     s.source = "var été = 1" ∧ s.tree = fresh.tree ∧ s.highlights = fresh.highlights) ∧
    ((start (.empty []) 0 .standard : World Parser.standard).run [.resetConfig]).session.tree =
      none := by
  obtain ⟨⟨-, hsource, -⟩, ⟨hhighlights, -⟩, htree, -⟩ :=
    run_history_independent Parser.standard_faithful Parser.standard_acceptsEmpty (.empty []) 0
      .standard mixedCommands
  obtain ⟨-, -, -, hnone, -⟩ :=
    run_history_independent Parser.standard_faithful Parser.standard_acceptsEmpty (.empty []) 0
      .standard [.resetConfig]
  have htext : (Setup.after .standard mixedCommands).text = "var été = 1" := by decide +kernel
  have hopened : (Setup.after .standard mixedCommands).opened = true := by decide +kernel
  exact ⟨⟨hsource.trans htext, htree hopened, hhighlights⟩, hnone rfl⟩

/-- Before a document has come, a session differs in its tree from a new one that is told the same:
it has none, and a new session that is given the empty document has one.  One command that only sets
the configuration shows it. -/
theorem not_history_independent_before_document :
    Parser.standard.Faithful ∧ Parser.standard.AcceptsEmpty ∧
    ¬ ∀ (files : FileStore) (now : Nat) (config : Config) (commands : List Command),
      ((start files now config : World Parser.standard).run commands).session.tree.isSome =
        ((Setup.after config commands).session : Session Parser.standard).tree.isSome := by
  refine ⟨Parser.standard_faithful, Parser.standard_acceptsEmpty, ?_⟩
  intro hsame
  have hreset := hsame (.empty []) 0 .standard [.resetConfig]
  cases hreset

end World

end SchemaScope
