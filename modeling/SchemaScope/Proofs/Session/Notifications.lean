/-
**What a session tells its subscribers.**

Every command is told to the subscribers by a block of events that is fixed by what comes of the
command: an update and an edit that is taken by two events, resources that cannot be read and a stamp
that cannot be written by an error, a list of resources by the list.  Other commands are not told at
all.  A subscriber gets the blocks of the commands since it came, one after the other; in particular
the two events of an update stand next to each other.

Main definitions:

* `Session.asked?`, `Session.reading` — the source whose resources a command needs, and what comes of
  reading them;
* `World.told` — the events by which a command is told;
* `Occurrence`, `World.occur`, `World.through` — what can happen around a session, and the world
  afterwards;
* `World.blocks`, `World.taken` — what the commands are told by, and what a subscriber takes;
* `Event.Bracketed` — the two events of an update stand next to each other.

Main results:

* `World.bus_perform` — a command sends the events by which it is told;
* `World.bus_through`, `World.taken_eq`, `World.sent_trace` — what happens around a session is a
  sequence of steps of its bus;
* `Event.bracketed_flatten` — events told in brackets stay so when they are put together;
* `World.subscriber_gets_blocks` — **what a subscriber gets from a session**.
-/

import SchemaScope.Proofs.Event.Delivery
import SchemaScope.Proofs.Session.Coherence
import SchemaScope.Proofs.Session.Saving

set_option autoImplicit false

namespace SchemaScope

open Script

/-! ### Reading resources -/

namespace Session

variable {P : Parser}

/-- The source whose resources a command that only asks needs. -/
def asked? (s : Session P) : Command → Option Path
  | .sections | .outlineItems => if s.config.schema then s.path else none
  | .values source _ => some source
  | .hover line offset => (Mention.keyOn? line (some offset)).bind fun _ => s.path
  | _ => none

/-- What comes of reading the resources of a source.  There are none if they are not wanted. -/
def reading (s : Session P) (files : FileStore) :
    Option Path → Except DescriptorError (Option ResourceSet)
  | some source => if s.config.resource then (s.cache.load files source).1 else .ok none
  | none => .ok none

/-- The resources of a source are those that were read, and a failure is told. -/
theorem resources_cases (s : Session P) (files : FileStore) (source : Path) :
    (∃ set, s.reading files (some source) = .ok set ∧ (s.resources files source).1 = set ∧
      (s.resources files source).2.bus = s.bus) ∨
    ∃ e, s.reading files (some source) = .error e ∧ (s.resources files source).1 = none ∧
      (s.resources files source).2.bus = s.bus.publish (.error e.message) := by
  simp only [reading, resources]
  cases s.config.resource with
  | false => exact .inl ⟨none, rfl, rfl, rfl⟩
  | true =>
      rcases s.cache.load files source with ⟨e | set, cache⟩
      · exact .inr ⟨e, rfl, rfl, rfl⟩
      · exact .inl ⟨set, rfl, rfl, rfl⟩

end Session

/-- The events that tell what comes of reading resources. -/
def Event.ofReading : Except DescriptorError (Option ResourceSet) → List Event
  | .ok _ => []
  | .error e => [.error e.message]

namespace Session

variable {P : Parser}

theorem bus_resources (s : Session P) (files : FileStore) (source : Path) :
    (s.resources files source).2.bus =
      s.bus.publishAll (Event.ofReading (s.reading files (some source))) := by
  rcases s.resources_cases files source with ⟨set, hread, -, hbus⟩ | ⟨e, hread, -, hbus⟩ <;>
    rw [hread, hbus] <;> rfl

theorem bus_currentResources (s : Session P) (files : FileStore) :
    (s.currentResources files).2.bus =
      s.bus.publishAll (Event.ofReading (s.reading files s.path)) := by
  unfold currentResources
  cases s.path with
  | none => rfl
  | some path => exact s.bus_resources files path

theorem bus_sections (s : Session P) (files : FileStore) :
    (s.sections files).2.bus =
      s.bus.publishAll (Event.ofReading (s.reading files (s.asked? .sections))) := by
  unfold sections asked?
  cases s.config.schema with
  | false => rfl
  | true => exact s.bus_currentResources files

theorem bus_hover (s : Session P) (files : FileStore) (line : String) (offset : Nat) :
    (s.hover files line offset).2.bus =
      s.bus.publishAll (Event.ofReading (s.reading files (s.asked? (.hover line offset)))) := by
  simp only [hover, asked?]
  cases Mention.keyOn? line (some offset) with
  | none => rfl
  | some key => exact s.bus_currentResources files

end Session

/-! ### What a command is told by -/

namespace World

variable {P : Parser}

/-- The events by which a command is told. -/
def told (w : World P) : Command → List Event
  | .update _ _ => [.beforeUpdate, .afterUpdate]
  | .edit e =>
      match w.session.edit e with
      | .ok _ => [.beforeUpdate, .afterUpdate]
      | .error _ => []
  | .listResources source =>
      match w.session.reading w.files source with
      | .ok set => [.resourcesUpdated set]
      | .error e => [.error e.message, .resourcesUpdated none]
  | .save saved =>
      match w.session.rewriting? w.files w.now saved with
      | some (.error e) => [.error e.message]
      | _ => []
  | c@.sections | c@.outlineItems | c@(.values _ _) | c@(.hover _ _) =>
      Event.ofReading (w.session.reading w.files (w.session.asked? c))
  | _ => []

/-- A command sends the events by which it is told. -/
theorem bus_perform (w : World P) (c : Command) :
    (w.perform c).2.session.bus = w.session.bus.publishAll (w.told c) := by
  cases c with
  | update path text => rfl
  | edit e =>
      simp only [perform, told]
      cases h : w.session.edit e with
      | error e' => rfl
      | ok s =>
          unfold Session.edit at h
          split at h
          · cases h
            rfl
          · cases h
  | applyConfig overrides =>
      simp only [perform, Session.applyConfig]
      cases w.session.config.apply overrides <;> rfl
  | listResources source =>
      simp only [perform, told, Session.listResources, withSession, Session.publish]
      cases source with
      | none => rfl
      | some source =>
          dsimp only
          rcases w.session.resources_cases w.files source with
            ⟨set, hread, hset, hbus⟩ | ⟨e, hread, hset, hbus⟩ <;>
            rw [hread, hset, hbus] <;> rfl
  | save saved =>
      simp only [perform, told, Session.save_eq]
      rcases w.session.rewriting? w.files w.now saved with _ | _ | _ <;> rfl
  | sections => exact w.session.bus_sections w.files
  | outlineItems => exact w.session.bus_sections w.files
  | values source key => exact w.session.bus_resources w.files source
  | hover line offset => exact w.session.bus_hover w.files line offset
  -- the other commands need no resources
  | _ => rfl

end World

/-! ### What happens around a session -/

namespace Bus

theorem run_map_publish (b : Bus) (events : List Event) :
    b.run (events.map .publish) = b.publishAll events := List.foldl_map

/-- Nothing is taken while events are sent. -/
theorem taken_map_publish (b : Bus) (i : Nat) (events : List Event) :
    b.taken i (events.map .publish) = [] := by
  induction events generalizing b with
  | nil => rfl
  | cons event events ih => exact ih (b.step (.publish event))

theorem sent_map_publish_append (events : List Event) (steps : List Step) :
    sent (events.map .publish ++ steps) = events ++ sent steps := by
  induction events with
  | nil => rfl
  | cons event events ih => exact congrArg (event :: ·) ih

end Bus

/-- What can happen around a session: a command is carried out, a subscriber comes, leaves or takes
its events, others change the files, and time passes. -/
inductive Occurrence where
  | command (c : Command)
  | subscribe
  | leave (index : Nat)
  | take (index : Nat)
  | surroundings (files : FileStore) (now : Nat)

namespace World

variable {P : Parser}

/-- The world with the bus of its session changed. -/
def withBus (w : World P) (bus : Bus) : World P := w.withSession { w.session with bus := bus }

/-- The world after something has happened. -/
def occur (w : World P) : Occurrence → World P
  | .command c => (w.perform c).2
  | .subscribe => w.withBus w.session.bus.subscribe.2
  | .leave index => w.withBus (w.session.bus.leave index)
  | .take index => w.withBus (w.session.bus.drain index).2
  | .surroundings files now => ⟨files, now, w.session⟩

/-- The world after several things have happened. -/
def through (w : World P) (later : List Occurrence) : World P := later.foldl occur w

/-- What a subscriber takes when something happens. -/
def takes (w : World P) (i : Nat) : Occurrence → List Event
  | .take index => if index = i then (w.session.bus.drain index).1.getD [] else []
  | _ => []

/-- What a subscriber takes while several things happen. -/
def taken (w : World P) (i : Nat) : List Occurrence → List Event
  | [] => []
  | x :: later => w.takes i x ++ (w.occur x).taken i later

/-- The events by which the commands among several things are told, command by command. -/
def blocks (w : World P) : List Occurrence → List (List Event)
  | [] => []
  | .command c :: later => w.told c :: (w.occur (.command c)).blocks later
  | x :: later => (w.occur x).blocks later

/-- What happens to the bus of the session. -/
def busSteps (w : World P) : Occurrence → List Bus.Step
  | .command c => (w.told c).map .publish
  | .subscribe => [.subscribe]
  | .leave index => [.leave index]
  | .take index => [.drain index]
  | .surroundings _ _ => []

/-- What happens to the bus of the session in the course of several things. -/
def trace (w : World P) : List Occurrence → List Bus.Step
  | [] => []
  | x :: later => w.busSteps x ++ (w.occur x).trace later

theorem bus_occur (w : World P) (x : Occurrence) :
    (w.occur x).session.bus = w.session.bus.run (w.busSteps x) := by
  cases x with
  | command c =>
      rw [busSteps, Bus.run_map_publish]
      exact w.bus_perform c
  | subscribe | leave index | take index | surroundings files now => rfl

theorem bus_through (w : World P) (later : List Occurrence) :
    (w.through later).session.bus = w.session.bus.run (w.trace later) := by
  induction later generalizing w with
  | nil => rfl
  | cons x later ih =>
      rw [trace, Bus.run_append, ← bus_occur]
      exact ih (w.occur x)

theorem takes_eq (w : World P) (i : Nat) (x : Occurrence) :
    w.takes i x = w.session.bus.taken i (w.busSteps x) := by
  cases x with
  | command c => exact (w.session.bus.taken_map_publish i (w.told c)).symm
  | take index => exact (List.append_nil _).symm
  | subscribe | leave index | surroundings files now => rfl

theorem taken_eq (w : World P) (i : Nat) (later : List Occurrence) :
    w.taken i later = w.session.bus.taken i (w.trace later) := by
  induction later generalizing w with
  | nil => rfl
  | cons x later ih => rw [taken, trace, Bus.taken_append, ← bus_occur, ← ih, takes_eq]

theorem sent_busSteps_append (w : World P) (x : Occurrence) (steps : List Bus.Step) :
    Bus.sent (w.busSteps x ++ steps) = (w.blocks [x]).flatten ++ Bus.sent steps := by
  cases x with
  | command c =>
      rw [busSteps, Bus.sent_map_publish_append]
      simp [blocks]
  | subscribe | leave index | take index | surroundings files now => rfl

theorem blocks_cons (w : World P) (x : Occurrence) (later : List Occurrence) :
    w.blocks (x :: later) = w.blocks [x] ++ (w.occur x).blocks later := by cases x <;> rfl

/-- What is sent through the bus are the events by which the commands are told. -/
theorem sent_trace (w : World P) (later : List Occurrence) :
    Bus.sent (w.trace later) = (w.blocks later).flatten := by
  induction later generalizing w with
  | nil => rfl
  | cons x later ih =>
      rw [trace, sent_busSteps_append, ih, blocks_cons w x later, List.flatten_append]

theorem leave_notMem_trace {i : Nat} {later : List Occurrence} (h : Occurrence.leave i ∉ later)
    (w : World P) : Bus.Step.leave i ∉ w.trace later := by
  induction later generalizing w with
  | nil => exact List.not_mem_nil
  | cons x later ih =>
      rw [List.mem_cons, not_or] at h
      rw [trace, List.mem_append, not_or]
      refine ⟨?_, ih h.2 (w.occur x)⟩
      cases x with
      | leave index =>
          intro hmem
          cases List.mem_singleton.1 hmem
          exact h.1 rfl
      | command c | subscribe | take index | surroundings files now => simp [busSteps]

end World

/-! ### Brackets -/

namespace Event

/-- The two events of an update stand next to each other, and neither stands alone. -/
inductive Bracketed : List Event → Prop
  | nil : Bracketed []
  | update {events : List Event} : Bracketed events →
      Bracketed (.beforeUpdate :: .afterUpdate :: events)
  | other {event : Event} {events : List Event} : event ≠ .beforeUpdate → event ≠ .afterUpdate →
      Bracketed events → Bracketed (event :: events)

theorem Bracketed.append {events later : List Event} (h : Bracketed events)
    (hlater : Bracketed later) : Bracketed (events ++ later) := by
  induction h with
  | nil => exact hlater
  | update _ ih => exact .update ih
  | other hbefore hafter _ ih => exact .other hbefore hafter ih

theorem bracketed_flatten {blocks : List (List Event)} (h : ∀ block ∈ blocks, Bracketed block) :
    Bracketed blocks.flatten := by
  induction blocks with
  | nil => exact .nil
  | cons block blocks ih =>
      rw [List.forall_mem_cons] at h
      exact h.1.append (ih h.2)

theorem bracketed_singleton {event : Event} (hbefore : event ≠ .beforeUpdate)
    (hafter : event ≠ .afterUpdate) : Bracketed [event] := .other hbefore hafter .nil

/-- What is announced is done before anything else is told. -/
theorem Bracketed.next {events : List Event} (h : Bracketed events) {before rest : List Event}
    (heq : events = before ++ .beforeUpdate :: rest) : ∃ rest', rest = .afterUpdate :: rest' := by
  induction h generalizing before with
  | nil => simp at heq
  | @update events _ ih =>
      match before with
      | [] =>
          cases heq
          exact ⟨events, rfl⟩
      | [_] => simp at heq
      | _ :: _ :: before =>
          simp only [List.cons_append, List.cons.injEq] at heq
          exact ih heq.2.2
  | other hbefore _ _ ih =>
      match before with
      | [] =>
          cases heq
          exact absurd rfl hbefore
      | _ :: before =>
          simp only [List.cons_append, List.cons.injEq] at heq
          exact ih heq.2

/-- What is done was announced right before. -/
theorem Bracketed.previous {events : List Event} (h : Bracketed events) {before rest : List Event}
    (heq : events = before ++ .afterUpdate :: rest) :
    ∃ before', before = before' ++ [.beforeUpdate] := by
  induction h generalizing before with
  | nil => simp at heq
  | update _ ih =>
      match before with
      | [] => simp at heq
      | [_] =>
          cases heq
          exact ⟨[], rfl⟩
      | first :: second :: before =>
          simp only [List.cons_append, List.cons.injEq] at heq
          obtain ⟨before', rfl⟩ := ih heq.2.2
          exact ⟨first :: second :: before', rfl⟩
  | other _ hafter _ ih =>
      match before with
      | [] =>
          cases heq
          exact absurd rfl hafter
      | first :: before =>
          simp only [List.cons_append, List.cons.injEq] at heq
          obtain ⟨before', rfl⟩ := ih heq.2
          exact ⟨first :: before', rfl⟩

end Event

namespace World

open Event

variable {P : Parser}

theorem bracketed_told (w : World P) (c : Command) : Bracketed (w.told c) := by
  have hreading : ∀ outcome, Bracketed (Event.ofReading outcome) := by
    rintro (e | set)
    · exact bracketed_singleton nofun nofun
    · exact .nil
  cases c with
  | update path text => exact .update .nil
  | edit e =>
      simp only [told]
      split
      · exact .update .nil
      · exact .nil
  | listResources source =>
      simp only [told]
      split
      · exact bracketed_singleton nofun nofun
      · exact .other nofun nofun (bracketed_singleton nofun nofun)
  | save saved =>
      simp only [told]
      split
      · exact bracketed_singleton nofun nofun
      · exact .nil
  | sections | outlineItems | values source key | hover line offset => exact hreading _
  | _ => exact .nil

theorem bracketed_blocks (w : World P) (later : List Occurrence) :
    ∀ block ∈ w.blocks later, Bracketed block := by
  induction later generalizing w with
  | nil => exact nofun
  | cons x later ih =>
      cases x with
      | command c => exact List.forall_mem_cons.2 ⟨w.bracketed_told c, ih _⟩
      | subscribe | leave index | take index | surroundings files now => exact ih _

/-- **What a subscriber gets from a session.**  A subscriber comes, and things happen afterwards.
Unless it leaves, what it takes meanwhile, with what still waits for it behind, are the events by
which the commands since then are told, block after block; this is still so when the session has
ended.  If it leaves, it has taken an initial part of them.  Among these events each announcement of
an update is followed at once by the word that it is done, and there is no such word without the
announcement right before it. -/
theorem subscriber_gets_blocks (w : World P) (later : List Occurrence) :
    let i := w.session.bus.subscribe.1
    let joined := w.occur .subscribe
    let events := (joined.blocks later).flatten
    (Occurrence.leave i ∉ later →
      ∃ queue, (joined.through later).session.bus.queued? i = some queue ∧
        (joined.through later).session.deactivate.bus.queued? i = some queue ∧
        joined.taken i later ++ queue = events) ∧
    joined.taken i later <+: events ∧
    (∀ before rest, events = before ++ .beforeUpdate :: rest →
      ∃ rest', rest = .afterUpdate :: rest') ∧
    ∀ before rest, events = before ++ .afterUpdate :: rest →
      ∃ before', before = before' ++ [.beforeUpdate] := by
  intro i joined events
  have hnew : joined.session.bus.subscribers[i]? = some .new := by
    simp [i, joined, occur, withBus, withSession, Bus.subscribe]
  have hdue : Subscriber.new.due (joined.trace later) = events :=
    (Subscriber.due_new _).trans (joined.sent_trace later)
  have hbracketed : Bracketed events := bracketed_flatten (joined.bracketed_blocks later)
  refine ⟨fun hstays => ?_, ?_, fun _ _ => hbracketed.next, fun _ _ => hbracketed.previous⟩
  · obtain ⟨s, hs, hlistening, htaken⟩ :=
      Bus.taken_append_due hnew (leave_notMem_trace hstays joined)
    have hlistening' : s.listening = true := hlistening
    rw [← bus_through] at hs
    refine ⟨s.queue, by rw [Bus.queued?_eq hs, if_pos hlistening'], ?_, ?_⟩
    · -- the queue of a detached subscriber is kept
      have hend := Bus.getElem?_step hs .clear
      exact (Bus.queued?_eq hend).trans (if_pos hlistening')
    · rw [taken_eq, ← hdue, ← htaken]
      simp [Subscriber.due, hlistening', Bus.sent]
  · rw [taken_eq, ← hdue]
    exact Bus.taken_prefix_due hnew (joined.trace later)

/-- A world whose only file is a descriptor without a stamp. -/
def unstamped : World Parser.standard := start Session.unstampedDescriptor 5 .standard

/-- A text comes, the host leaves, an edit between two bytes of a character is refused, and a stamp
cannot be written. -/
def troubled : List Occurrence :=
  [.command (.update none "é"), .take 1, .leave host, .command (.listResources none),
    .command (.edit ⟨1, 2, ""⟩), .command (.save ⟨"install.sql"⟩)]

/-- A second subscriber is told of the text, the resources and the stamp, but not of the edit. -/
theorem subscriber_gets_blocks_troubled :
    ∃ message queue,
      ((unstamped.occur .subscribe).through troubled).session.bus.queued? 1 = some queue ∧
      (unstamped.occur .subscribe).taken 1 troubled ++ queue =
        [.beforeUpdate, .afterUpdate, .resourcesUpdated none, .error message] := by
  have hnumber : unstamped.session.bus.subscribe.1 = 1 := rfl
  obtain ⟨hstays, -⟩ := subscriber_gets_blocks unstamped troubled
  simp only [hnumber] at hstays
  obtain ⟨queue, hqueue, -, hevents⟩ := hstays (by simp [troubled, host])
  -- the edit is refused, and the world stays as it was
  let w := (unstamped.occur .subscribe).through (troubled.take 4)
  have hedited : (⟨1, 2, ""⟩ : TextEdit).edited? w.session.source.toList = none := by
    show TextEdit.edited? ⟨1, 2, ""⟩ "é".toList = none
    decide
  have hrefused := Session.edit_of_edited?_eq_none w.session hedited
  have hsame : w.occur (.command (.edit ⟨1, 2, ""⟩)) = w := by simp only [occur, perform, hrefused]
  have hedit : w.told (.edit ⟨1, 2, ""⟩) = [] := by simp only [told, hrefused]
  -- there is a descriptor, but no new stamp for it
  have hfound : Package.descriptor? Session.unstampedDescriptor ⟨"install.sql"⟩ =
      some ⟨"descriptor.json"⟩ := by decide +kernel
  have hrewriting : w.session.rewriting? w.files w.now ⟨"install.sql"⟩ =
      some (Descriptor.restampFile Session.unstampedDescriptor ⟨"descriptor.json"⟩ 5) :=
    Session.rewriting?_of_descriptor? rfl rfl hfound
  have hfailed : (Descriptor.restampFile Session.unstampedDescriptor ⟨"descriptor.json"⟩
      5).toOption.isSome = false := by decide +kernel
  obtain ⟨message, hsave⟩ : ∃ message, w.told (.save ⟨"install.sql"⟩) = [.error message] := by
    cases h : Descriptor.restampFile Session.unstampedDescriptor ⟨"descriptor.json"⟩ 5 with
    | ok files => simp [h, Except.toOption] at hfailed
    | error e =>
        rw [h] at hrewriting
        exact ⟨e.message, by simp only [told, hrewriting]⟩
  have hblocks : (unstamped.occur .subscribe).blocks troubled =
      [[.beforeUpdate, .afterUpdate], [.resourcesUpdated none], w.told (.edit ⟨1, 2, ""⟩),
        (w.occur (.command (.edit ⟨1, 2, ""⟩))).told (.save ⟨"install.sql"⟩)] := rfl
  rw [hsame, hedit, hsave] at hblocks
  exact ⟨message, queue, hqueue, hevents.trans (congrArg List.flatten hblocks)⟩

end World

end SchemaScope
