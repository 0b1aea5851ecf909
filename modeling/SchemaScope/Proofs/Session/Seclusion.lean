/-
**A secluded session.**

If neither resources nor descriptors are wanted, a session has nothing to do with files: what it
answers, what it tells and what becomes of it are the same among any files and at any time, and it
leaves the files as they are.  The features are switched by the configuration, which commands can
change, so a whole run is secluded if the session is so whenever something happens.

Two runs are compared that differ in the files around them.  Others may change the files of the one
and of the other in different ways while the session is used in the same way.

Main definitions:

* `Session.Secluded`, `World.SecludedThroughout` — neither resources nor descriptors are wanted, now
  and throughout a run;
* `World.answers` — what the commands of a run are answered;
* `SameUse` — a session is used in the same way in the course of two runs;
* `Occurrence.leftFiles` — the files as others leave them in the course of a run.

Main results:

* `World.perform_among`, `World.told_among` — what a command does to a secluded session, and what it is
  told by, do not depend on the surroundings;
* `World.agree_among` — neither does what a whole run does;
* `World.secluded_runs_agree` — **a secluded session cannot tell its surroundings apart, and leaves
  them as they are**.
-/

import SchemaScope.Proofs.Session.Notifications

set_option autoImplicit false

namespace SchemaScope

open Script

/-! ### A command -/

namespace Session

variable {P : Parser} {s : Session P}

/-- Neither resources nor descriptors are wanted. -/
structure Secluded (s : Session P) : Prop where
  resource : s.config.resource = false
  descriptor : s.config.descriptor = false

namespace Secluded

theorem resources (h : s.Secluded) (files : FileStore) (source : Path) :
    s.resources files source = (none, s) := by
  simp [Session.resources, h.resource]

theorem currentResources (h : s.Secluded) (files : FileStore) :
    s.currentResources files = (none, s) := by
  unfold Session.currentResources
  split
  · exact h.resources files _
  · rfl

/-- The sections of the document have no captions. -/
theorem sections (h : s.Secluded) (files : FileStore) :
    s.sections files = (if s.config.schema then s.sectionsWith .none else [], s) := by
  unfold Session.sections
  split
  · rw [h.currentResources files]
    rfl
  · rfl

theorem hover (h : s.Secluded) (files : FileStore) (line : String) (offset : Nat) :
    s.hover files line offset = (none, s) := by
  unfold Session.hover
  split
  · rw [h.currentResources files]
    rfl
  · rfl

theorem listResources (h : s.Secluded) (files : FileStore) (source : Option Path) :
    s.listResources files source = (none, s.publish (.resourcesUpdated none)) := by
  cases source with
  | none => rfl
  | some source => rw [Session.listResources, h.resources files source]

theorem reading (h : s.Secluded) (files : FileStore) (source : Option Path) :
    s.reading files source = .ok none := by
  cases source with
  | none => rfl
  | some source => simp [Session.reading, h.resource]

theorem rewriting? (h : s.Secluded) (files : FileStore) (now : Nat) (saved : Path) :
    s.rewriting? files now saved = none := by
  simp [Session.rewriting?, h.descriptor]

theorem save (h : s.Secluded) (files : FileStore) (now : Nat) (saved : Path) :
    s.save files now saved = (false, files, s) := by
  rw [save_eq, h.rewriting? files now saved]

end Secluded

end Session

namespace World

variable {P : Parser} {w : World P}

/-- The same session among other files and at another time. -/
def among (w : World P) (files : FileStore) (now : Nat) : World P := ⟨files, now, w.session⟩

/-- What a command does to a secluded session does not depend on the surroundings, which stay as they
are. -/
theorem perform_among (h : w.session.Secluded) (files : FileStore) (now : Nat) (c : Command) :
    (w.among files now).perform c = ((w.perform c).1, (w.perform c).2.among files now) := by
  cases c with
  | edit e =>
      simp only [perform, among]
      cases w.session.edit e <;> rfl
  | applyConfig overrides =>
      simp only [perform, among]
      cases w.session.applyConfig overrides <;> rfl
  | sections => simp only [perform, among, h.sections]; rfl
  | outlineItems => simp only [perform, among, Session.outlineItems, h.sections]; rfl
  | values source key => simp only [perform, among, Session.values, h.resources]; rfl
  | hover line offset => simp only [perform, among, h.hover]; rfl
  | listResources source => simp only [perform, among, h.listResources]; rfl
  | save saved => simp only [perform, among, h.save]; rfl
  -- the other commands do not look at files in any session
  | _ => rfl

/-- What a command to a secluded session is told by does not depend on the surroundings. -/
theorem told_among (h : w.session.Secluded) (files : FileStore) (now : Nat) (c : Command) :
    (w.among files now).told c = w.told c := by
  cases c with
  | sections | outlineItems | values source key | hover line offset =>
      exact congrArg Event.ofReading ((h.reading files _).trans (h.reading w.files _).symm)
  | listResources source => simp only [told, among, h.reading]
  | save saved => simp only [told, among, h.rewriting?]
  | _ => rfl

theorem occur_command_among (h : w.session.Secluded) (files : FileStore) (now : Nat) (c : Command) :
    (w.among files now).occur (.command c) = (w.occur (.command c)).among files now :=
  congrArg Prod.snd (perform_among h files now c)

/-- A command to a secluded session leaves the files as they are. -/
theorem files_perform_of_secluded (h : w.session.Secluded) (c : Command) :
    (w.perform c).2.files = w.files :=
  congrArg (fun result => result.2.files) (perform_among h w.files w.now c)

end World

/-! ### A run -/

/-- A session is used in the same way in the course of two runs: they differ in what others do to the
files and in the time at most. -/
inductive SameUse : List Occurrence → List Occurrence → Prop
  | nil : SameUse [] []
  | both {later later' : List Occurrence} (x : Occurrence) : SameUse later later' →
      SameUse (x :: later) (x :: later')
  | left {later later' : List Occurrence} (files : FileStore) (now : Nat) : SameUse later later' →
      SameUse (.surroundings files now :: later) later'
  | right {later later' : List Occurrence} (files : FileStore) (now : Nat) : SameUse later later' →
      SameUse later (.surroundings files now :: later')

/-- The files as others leave them in the course of a run. -/
def Occurrence.leftFiles (files : FileStore) : List Occurrence → FileStore
  | [] => files
  | .surroundings files' _ :: later => leftFiles files' later
  | _ :: later => leftFiles files later

namespace World

variable {P : Parser} {w : World P}

/-- Whenever a command is given, neither resources nor descriptors are wanted. -/
def SecludedThroughout (w : World P) : List Occurrence → Prop
  | [] => True
  | .command c :: later => w.session.Secluded ∧ (w.occur (.command c)).SecludedThroughout later
  | x :: later => (w.occur x).SecludedThroughout later

/-- What the commands of a run are answered. -/
def answers (w : World P) : List Occurrence → List Answer
  | [] => []
  | .command c :: later => (w.perform c).1 :: (w.occur (.command c)).answers later
  | x :: later => (w.occur x).answers later

/-- Two runs cannot be told apart: the commands are answered and told alike, each subscriber takes
the same, and the sessions are the same afterwards. -/
structure Agree (w w' : World P) (later later' : List Occurrence) : Prop where
  answers : w.answers later = w'.answers later'
  blocks : w.blocks later = w'.blocks later'
  taken : ∀ i, w.taken i later = w'.taken i later'
  session : (w.through later).session = (w'.through later').session

/-- A command to a secluded session has the same effect among other files. -/
theorem agree_command (h : w.session.Secluded) (files : FileStore) (now : Nat) (c : Command)
    {later later' : List Occurrence}
    (hrest : (w.occur (.command c)).Agree ((w.occur (.command c)).among files now) later later') :
    w.Agree (w.among files now) (.command c :: later) (.command c :: later') := by
  have hocc := occur_command_among h files now c
  obtain ⟨hanswers, hblocks, htaken, hsession⟩ := hrest
  refine ⟨?_, ?_, fun i => ?_, ?_⟩
  · rw [answers, answers, hocc, perform_among h files now c, hanswers]
  · rw [blocks, blocks, hocc, told_among h files now c, hblocks]
  · rw [taken, taken, hocc, htaken i]
    rfl
  · rw [through, through, List.foldl_cons, List.foldl_cons, hocc]
    exact hsession

/-- The same use of a secluded session has the same effect among other files. -/
theorem agree_among {later later' : List Occurrence} (hsame : SameUse later later')
    (h : w.SecludedThroughout later) (files : FileStore) (now : Nat) :
    w.Agree (w.among files now) later later' := by
  induction hsame generalizing w files now with
  | nil => exact ⟨rfl, rfl, fun _ => rfl, rfl⟩
  | both x _ ih =>
      cases x with
      | command c => exact agree_command h.1 files now c (ih h.2 files now)
      | subscribe | leave index =>
          obtain ⟨hanswers, hblocks, htaken, hsession⟩ := ih h files now
          exact ⟨hanswers, hblocks, htaken, hsession⟩
      | take index =>
          obtain ⟨hanswers, hblocks, htaken, hsession⟩ := ih h files now
          exact ⟨hanswers, hblocks, fun i => congrArg (w.takes i (.take index) ++ ·) (htaken i),
            hsession⟩
      | surroundings files' now' =>
          -- both go on among the files that others leave
          obtain ⟨hanswers, hblocks, htaken, hsession⟩ := ih h files' now'
          exact ⟨hanswers, hblocks, htaken, hsession⟩
  | left files' now' _ ih =>
      -- the world after the change is the old one among other files
      obtain ⟨hanswers, hblocks, htaken, hsession⟩ := ih h files now
      exact ⟨hanswers, hblocks, htaken, hsession⟩
  | right files' now' _ ih =>
      obtain ⟨hanswers, hblocks, htaken, hsession⟩ := ih h files' now'
      exact ⟨hanswers, hblocks, htaken, hsession⟩

/-- If the one run is secluded, so is the other. -/
theorem secludedThroughout_among {later later' : List Occurrence} (hsame : SameUse later later')
    (h : w.SecludedThroughout later) (files : FileStore) (now : Nat) :
    (w.among files now).SecludedThroughout later' := by
  induction hsame generalizing w files now with
  | nil => trivial
  | both x _ ih =>
      cases x with
      | command c =>
          refine ⟨h.1, ?_⟩
          rw [occur_command_among h.1]
          exact ih h.2 files now
      | surroundings files' now' => exact ih h files' now'
      | subscribe | leave index | take index => exact ih h files now
  | left files' now' _ ih => exact ih h files now
  | right files' now' _ ih => exact ih h files' now'

/-- A secluded session leaves the files as others leave them. -/
theorem files_through_of_secluded {later : List Occurrence} (h : w.SecludedThroughout later) :
    (w.through later).files = Occurrence.leftFiles w.files later := by
  induction later generalizing w with
  | nil => rfl
  | cons x later ih =>
      cases x with
      | command c =>
          have hrest := ih h.2
          rw [show (w.occur (.command c)).files = w.files from files_perform_of_secluded h.1 c]
            at hrest
          exact hrest
      | subscribe | leave index | take index | surroundings files now => exact ih h

/-- **A secluded session cannot tell its surroundings apart, and leaves them as they are.**  A session
in any state is used in the same way among two file stores, at different times, while others change
the files in different ways.  Whenever a command is given, neither resources nor descriptors are
wanted.  Then all commands are answered alike and told alike, every subscriber takes the same, and
the session ends up the same; and of the files on either side there are in the end those that others
left. -/
theorem secluded_runs_agree (s : Session P) (files files' : FileStore) (now now' : Nat)
    {later later' : List Occurrence} (hsame : SameUse later later')
    (h : (⟨files, now, s⟩ : World P).SecludedThroughout later) :
    Agree ⟨files, now, s⟩ ⟨files', now', s⟩ later later' ∧
    ((⟨files, now, s⟩ : World P).through later).files = Occurrence.leftFiles files later ∧
    ((⟨files', now', s⟩ : World P).through later').files = Occurrence.leftFiles files' later' :=
  ⟨agree_among hsame h files' now', files_through_of_secluded h,
    files_through_of_secluded (secludedThroughout_among hsame h files' now')⟩

/-- A configuration under which a session is secluded. -/
def secludedConfig : Config := { Config.standard with resource := false, descriptor := false }

/-- A script comes, its sections, a string and the list of resources are asked for, and a file is
saved. -/
def secludedUse : List Occurrence :=
  [.subscribe, .command (.update (some ⟨"a.js"⟩) ""), .command .sections,
    .command (.values ⟨"a.js"⟩ "Title"), .command (.listResources (some ⟨"a.js"⟩)),
    .command (.save ⟨"install.sql"⟩), .take 1]

/-- There is a stamp in the descriptor on the one side only, and neither is touched. -/
theorem secluded_runs_agree_descriptor :
    let w : World Parser.standard := start Session.scriptDescriptor 5 secludedConfig
    let w' : World Parser.standard := start Session.unstampedDescriptor 9 secludedConfig
    w.SecludedThroughout secludedUse ∧ w.Agree w' secludedUse secludedUse ∧
      (w.through secludedUse).files = Session.scriptDescriptor ∧
      (w'.through secludedUse).files = Session.unstampedDescriptor := by
  intro w w'
  have hoff : w.SecludedThroughout secludedUse :=
    ⟨⟨rfl, rfl⟩, ⟨rfl, rfl⟩, ⟨rfl, rfl⟩, ⟨rfl, rfl⟩, ⟨rfl, rfl⟩, trivial⟩
  have hsame : SameUse secludedUse secludedUse :=
    .both _ (.both _ (.both _ (.both _ (.both _ (.both _ (.both _ .nil))))))
  obtain ⟨hagree, hfiles, hfiles'⟩ :=
    secluded_runs_agree (hosted secludedConfig) Session.scriptDescriptor
      Session.unstampedDescriptor 5 9 hsame hoff
  exact ⟨hoff, hagree, hfiles, hfiles'⟩

/-- If descriptors are wanted, saving tells the two sides apart. -/
example : ((hosted .standard : Session Parser.standard).save Session.scriptDescriptor 5
      ⟨"install.sql"⟩).1 = true ∧
    ((hosted .standard : Session Parser.standard).save Session.unstampedDescriptor 9 ⟨"install.sql"⟩).1 = false := by
  decide +kernel

end World

end SchemaScope
