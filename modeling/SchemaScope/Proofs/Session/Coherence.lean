/-
**Coherent sessions.**

A session keeps several things that follow from others: what the parser made of the text, the tree,
and the compiled patterns for regions.  Each command changes some of them and takes shortcuts.  A
session is coherent if what it keeps is what would be computed anew, and every command keeps it so.

Of the parser it is assumed that it can be trusted with edits: what it makes of an edited text on
the basis of the outcome before the edit, moved along, is what it makes of that text from scratch.

Main definitions:

* `Script.Parser.Faithful` — the assumption about the parser;
* `Session.core` — a session without its cache, its reservations and its subscribers;
* `Session.Coherent` — what a session keeps is what would be computed anew;
* `World.run`, `World.Reachable` — several commands one after the other, and the worlds that can come
  about.

Main results:

* `Session.edit_eq_update` — **an edit has the effect of an update with the edited text**;
* `World.core_perform` — the commands that only ask leave the core of the session as it is;
* `World.coherent_perform`, `World.Reachable.coherent` — **every session that can come about is
  coherent**.
-/

import SchemaScope.Proofs.Source.Offsets
import SchemaScope.World

set_option autoImplicit false

namespace SchemaScope

open Script

/-- On the basis of an outcome that was moved along with an edit, the parser makes of the edited text
what it makes of it from scratch. -/
def Script.Parser.Faithful (P : Parser) : Prop :=
  ∀ (text : String) (e : TextEdit) (edited : List Char) (span : EditSpan) (outcome : P.Outcome),
    e.edited? text.toList = some edited → e.span? text.toList = some span →
      P.parse text none = some outcome →
        P.parse (String.ofList edited) (some (P.move span outcome)) =
          P.parse (String.ofList edited) none

theorem Script.Parser.standard_faithful : Parser.standard.Faithful := by
  intro text e edited span outcome _ _ _
  rfl

namespace Session

variable {P : Parser} {s s' : Session P}

/-! ### The core of a session -/

/-- A session without its cache, its reservations and its subscribers. -/
def core (s : Session P) : Session P :=
  { s with cache := .empty, reservations := .empty, bus := .empty }

@[simp] theorem core_publish (s : Session P) (event : Event) : (s.publish event).core = s.core := rfl

theorem core_resources (s : Session P) (files : FileStore) (source : Path) :
    (s.resources files source).2.core = s.core := by
  unfold resources
  split
  · dsimp only
    split <;> rfl
  · rfl

theorem core_currentResources (s : Session P) (files : FileStore) :
    (s.currentResources files).2.core = s.core := by
  unfold currentResources
  split
  · exact core_resources s files _
  · rfl

theorem core_sections (s : Session P) (files : FileStore) : (s.sections files).2.core = s.core := by
  unfold sections
  split
  · exact core_currentResources s files
  · rfl

theorem core_save (s : Session P) (files : FileStore) (now : Nat) (saved : Path) :
    (s.save files now saved).2.2.core = s.core := by
  unfold save
  split
  · split
    · split
      · dsimp only
        split <;> rfl
      · rfl
    · rfl
  · rfl

/-! ### Coherence -/

/-- What came out of the document is what comes out of it from scratch. -/
def Settled (s : Session P) : Prop :=
  s.lastParse = if isAnalyzable s.path then P.parse s.source none else none

/-- No document has come yet. -/
def Idle (s : Session P) : Prop := s.path = none ∧ s.source = "" ∧ s.lastParse = none

/-- What a session keeps is what would be computed anew. -/
structure Coherent (s : Session P) : Prop where
  document : s.Settled ∨ s.Idle
  tree : s.tree = P.tree? s.source s.lastParse
  matcher : s.matcher = RegionMatcher.ofRules s.config.region.rules

theorem Coherent.of_core (h : s.Coherent) (hc : s'.core = s.core) : s'.Coherent := by
  have hcore : s.core.Coherent := ⟨h.document, h.tree, h.matcher⟩
  rw [← hc] at hcore
  exact ⟨hcore.document, hcore.tree, hcore.matcher⟩

theorem coherent_activate (config : Config) : (activate config : Session P).Coherent :=
  ⟨.inr ⟨rfl, rfl, rfl⟩, rfl, rfl⟩

theorem Coherent.update (h : s.Coherent) (path : Option Path) (text : String) :
    (s.update path text).Coherent := ⟨.inl rfl, rfl, h.matcher⟩

/-- The patterns are compiled anew only if they changed, and this is enough. -/
theorem Coherent.setConfig (h : s.Coherent) (config : Config) : (s.setConfig config).Coherent := by
  refine ⟨h.document, h.tree, ?_⟩
  -- if the rules are the old ones, so are the patterns compiled from them
  show (if config.region.rules = s.config.region.rules then s.matcher
    else RegionMatcher.ofRules config.region.rules) = RegionMatcher.ofRules config.region.rules
  split
  · next hrules => rw [hrules, h.matcher]
  · rfl

theorem Coherent.setRules (h : s.Coherent) (rules : List HighlightRule) :
    (s.setRules rules).Coherent := ⟨h.document, h.tree, h.matcher⟩

/-! ### Edits -/

/-- An edit that does not fit is an error. -/
theorem edit_of_edited?_eq_none (s : Session P) {e : TextEdit}
    (h : e.edited? s.source.toList = none) :
    s.edit e = .error ⟨e.start, e.stop, Utf8.size s.source.toList⟩ := by
  unfold edit
  rw [h]

/-- **An edit has the effect of an update with the edited text**, if the parser can be trusted with
edits. -/
theorem edit_eq_update (hP : P.Faithful) (h : s.Coherent) {e : TextEdit} {edited : List Char}
    (he : e.edited? s.source.toList = some edited) :
    s.edit e = .ok (s.update s.path (String.ofList edited)) := by
  obtain ⟨span, hspan⟩ := TextEdit.exists_span_of_edited? he
  -- the basis is nothing, or what came out of the old text from scratch
  have hparse : isAnalyzable s.path = true →
      P.parse (String.ofList edited) (s.lastParse.map (P.move span)) =
        P.parse (String.ofList edited) none := by
    intro hscript
    cases hlast : s.lastParse with
    | none => rfl
    | some outcome =>
        rcases h.document with hd | ⟨-, -, hd⟩
        · rw [Settled, if_pos hscript, hlast] at hd
          exact hP s.source e edited span outcome he hspan hd.symm
        · rw [hlast] at hd
          cases hd
  have hdocument : (s.publish .beforeUpdate).withDocument s.path (String.ofList edited)
      (s.lastParse.map (P.move span)) =
        (s.publish .beforeUpdate).withDocument s.path (String.ofList edited) none := by
    unfold withDocument
    by_cases hscript : isAnalyzable s.path = true
    · simp only [hscript, if_true, hparse hscript]
    · simp only [hscript]
      rfl
  unfold edit
  rw [he, hspan]
  simp only [hdocument]
  rfl

theorem Coherent.edit (hP : P.Faithful) (h : s.Coherent) {e : TextEdit} (he : s.edit e = .ok s') :
    s'.Coherent := by
  cases hedited : e.edited? s.source.toList with
  | none =>
      rw [edit_of_edited?_eq_none s hedited] at he
      cases he
  | some edited =>
      rw [edit_eq_update hP h hedited] at he
      cases he
      exact h.update _ _

end Session

/-! ### Commands -/

/-- Whether a command only asks, or concerns files but not the document and the settings. -/
def Command.asks : Command → Bool
  | .update _ _ | .edit _ | .applyConfig _ | .resetConfig | .setRules _ => false
  | _ => true

namespace World

variable {P : Parser} {w : World P}

/-- The commands that only ask leave the core of the session as it is. -/
theorem core_perform (w : World P) {c : Command} (h : c.asks = true) :
    (w.perform c).2.session.core = w.session.core := by
  cases c with
  | sections => exact Session.core_sections _ _
  | outlineItems => exact Session.core_sections _ _
  | values source key => exact Session.core_resources _ _ _
  | hover line offset =>
      simp only [perform, Session.hover]
      split
      · exact Session.core_currentResources _ _
      · rfl
  | listResources source =>
      simp only [perform, Session.listResources, withSession, Session.core_publish]
      split
      · exact Session.core_resources _ _ _
      · rfl
  | save saved => exact Session.core_save _ _ _ _
  | highlights => rfl
  | visibleHighlights first last => rfl
  | regions => rfl
  | regionItems => rfl
  | snippets key => rfl
  | completions typed => rfl
  -- the rest are the commands that change the document or the settings
  | update path text => cases h
  | edit e => cases h
  | applyConfig overrides => cases h
  | resetConfig => cases h
  | setRules rules => cases h

/-- Every command keeps a session coherent. -/
theorem coherent_perform (hP : P.Faithful) (h : w.session.Coherent) (c : Command) :
    (w.perform c).2.session.Coherent := by
  cases c with
  | update path text => exact h.update path text
  | edit e =>
      simp only [perform]
      split
      · next s he => exact h.edit hP he
      · exact h
  | applyConfig overrides =>
      simp only [perform, Session.applyConfig]
      cases w.session.config.apply overrides with
      | ok config => exact h.setConfig config
      | error e => exact h
  | resetConfig => exact h.setConfig _
  | setRules rules => exact h.setRules rules
  | _ => exact h.of_core (core_perform w rfl)

/-! ### Runs -/

/-- Carries out commands one after the other. -/
def run (w : World P) (commands : List Command) : World P :=
  commands.foldl (fun w c => (w.perform c).2) w

theorem coherent_start (files : FileStore) (now : Nat) (config : Config) :
    (start files now config : World P).session.Coherent :=
  (Session.coherent_activate config).of_core rfl

theorem coherent_run (hP : P.Faithful) (h : w.session.Coherent) (commands : List Command) :
    (w.run commands).session.Coherent := by
  induction commands generalizing w with
  | nil => exact h
  | cons c commands ih => exact ih (coherent_perform hP h c)

/-- The worlds that can come about: from the start by commands and new sessions, while others change
the files, time passes, and subscribers come, go and take their events. -/
inductive Reachable : World P → Prop
  | start (files : FileStore) (now : Nat) (config : Config) : Reachable (World.start files now config)
  | perform {w : World P} (c : Command) : Reachable w → Reachable (w.perform c).2
  | restart {w w' : World P} {overrides : Json} : Reachable w → w.restart overrides = .ok w' →
      Reachable w'
  | surroundings {w : World P} (files : FileStore) (now : Nat) (bus : Bus) : Reachable w →
      Reachable ⟨files, now, { w.session with bus := bus }⟩

/-- **Every session that can come about is coherent.** -/
theorem Reachable.coherent (hP : P.Faithful) (h : Reachable w) : w.session.Coherent := by
  induction h with
  | start files now config => exact coherent_start files now config
  | perform c _ ih => exact coherent_perform hP ih c
  | @restart w w' overrides _ hr _ =>
      -- a new session owes nothing to the old one
      unfold World.restart at hr
      cases hc : Config.standard.apply overrides with
      | ok config =>
          rw [hc] at hr
          cases hr
          exact coherent_start w.files w.now config
      | error e =>
          rw [hc] at hr
          cases hr
  | surroundings files now bus _ ih => exact ih.of_core rfl

end World

end SchemaScope
