/-
**What saving does to files.**

When a file has been saved, the descriptor next to it gets a new stamp.  What a host can rely on:
this happens exactly if descriptors are wanted, there is one, and its stamp can be read; the stamp
that is replaced is the one that is read.  If there is a descriptor without a stamp that can be read,
the subscribers are told once and the file stays as it was.  No other file is touched, here or by any
other command, and afterwards the same paths are reserved as before.

Main definitions:

* `Session.rewriting?` — what comes of writing a new stamp when a file is saved.

Main results:

* `Session.save_eq` — saving is told by what comes of writing the stamp;
* `Descriptor.timestamp?_eq_bind` — the stamp of a document is that of the section that gets a new
  one;
* `Descriptor.exists_restampFile_iff` — **the descriptors that can be given a new stamp are those
  whose stamp can be read**;
* `World.files_perform` — only saving changes files;
* `Session.saved_iff`, `Session.stamped_of_saved`, `Session.save_of_not_saved` — when a descriptor is
  written, what is written, and what happens if it is not;
* `Session.save_contract` — **what saving does**.
-/

import SchemaScope.Proofs.Descriptor.LastStamp
import SchemaScope.Proofs.Resource.Sources
import SchemaScope.World

set_option autoImplicit false

namespace SchemaScope

open Script

/-! ### Reading a stamp and writing one -/

namespace Descriptor

/-- The stamp of a document is that of the section that gets a new one. -/
theorem timestamp?_eq_bind (document : Json) :
    timestamp? document = (timestampSection? document).bind (timestampIn? document) := by
  unfold timestamp? timestampSection?
  induction timestampSections with
  | nil => rfl
  | cons name names ih =>
      rw [List.findSome?_cons, List.find?_cons]
      cases h : timestampIn? document name with
      | none => exact ih
      | some stamp => simp [h]

theorem timestamp?_eq_timestampIn? {document : Json} {name : String}
    (h : timestampSection? document = some name) :
    timestamp? document = timestampIn? document name := by
  rw [timestamp?_eq_bind, h, Option.bind_some]

/-- The descriptors that can be given a new stamp are those whose stamp can be read. -/
theorem exists_restampFile_iff {files : FileStore} {path : Path} (millis : Nat) :
    (∃ files', restampFile files path millis = .ok files') ↔
      ∃ stamp, readTimestamp files path = .ok (some stamp) := by
  constructor
  · rintro ⟨files', h⟩
    obtain ⟨text, document, name, htext, hdocument, hname, -⟩ := exists_of_restampFile h
    obtain ⟨value, hvalue⟩ := Option.isSome_iff_exists.1 (isSome_of_timestampSection? hname)
    have hstamp := (timestamp?_eq_timestampIn? hname).trans hvalue
    refine ⟨timestampText value, readTimestamp_eq_ok_iff.2 (.inr ⟨text, _, htext, ?_, rfl⟩)⟩
    exact readStamp_eq_ok_iff.2 ⟨document, value, Json.ok_of_mapError hdocument, hstamp, rfl⟩
  · rintro ⟨stamp, h⟩
    rcases readTimestamp_eq_ok_iff.1 h with ⟨-, hnone⟩ | ⟨text, t, htext, ht, -⟩
    · cases hnone
    · obtain ⟨document, value, hparse, hvalue, -⟩ := readStamp_eq_ok_iff.1 ht
      have hdocument : parse path text = .ok document := by
        rw [parse, hparse]
        rfl
      rw [timestamp?_eq_bind] at hvalue
      obtain ⟨name, hname, -⟩ := Option.bind_eq_some_iff.1 hvalue
      obtain ⟨files', hrestamp, -⟩ := exists_restampFile htext hdocument hname millis
      exact ⟨files', hrestamp⟩

/-- A new stamp changes the descriptor and nothing else. -/
theorem get?_restampFile {files files' : FileStore} {path : Path} {millis : Nat}
    (h : restampFile files path millis = .ok files') {place : Place}
    (hplace : files.locate path ≠ .ok place) : files'.get? place = files.get? place := by
  obtain ⟨text, document, name, -, -, -, hwrite⟩ := exists_of_restampFile h
  obtain ⟨at_, content, hlocate, -, rfl⟩ := FileStore.exists_place_of_writeText hwrite
  refine FileStore.get?_put_of_ne ?_ _
  rintro rfl
  exact hplace hlocate

end Descriptor

theorem Package.descriptor?_eq_some_iff {files : FileStore} {source descriptor : Path} :
    descriptor? files source = some descriptor ↔
      descriptorPath source = some descriptor ∧ files.isFile descriptor = true :=
  Option.filter_eq_some_iff

/-! ### Saving -/

namespace Session

variable {P : Parser} {s : Session P} {files : FileStore} {now : Nat} {saved descriptor : Path}

/-- What comes of writing a new stamp when a file is saved.  Nothing does if descriptors are not
wanted, if there is none next to the file, or if its path is reserved. -/
def rewriting? (s : Session P) (files : FileStore) (now : Nat) (saved : Path) :
    Option (Except RestampError FileStore) :=
  if s.config.descriptor then
    match Package.descriptor? files saved with
    | some d =>
        if s.reservations.isHeld d then none else some (Descriptor.restampFile files d now)
    | none => none
  else none

/-- Saving is told by what comes of writing the stamp. -/
theorem save_eq (s : Session P) (files : FileStore) (now : Nat) (saved : Path) :
    s.save files now saved = match s.rewriting? files now saved with
      | some (.ok files') => (true, files', s)
      | some (.error e) => (false, files, s.publish (.error e.message))
      | none => (false, files, s) := by
  unfold save rewriting?
  split
  · cases Package.descriptor? files saved with
    | none => rfl
    | some d =>
        cases hheld : s.reservations.isHeld d with
        | true =>
            have hnone : s.reservations.reserve? d = none := if_pos hheld
            simp [hnone, hheld]
        | false =>
            obtain ⟨taken, htaken⟩ := Option.isSome_iff_exists.1
              ((Reservations.reserve?_isSome s.reservations d).trans (by simp [hheld]))
            -- the path is free again before the outcome is looked at
            have hback : { s with reservations := taken.release d } = s := by
              rw [Reservations.release_reserve? htaken]
            simp only [htaken, hback, hheld, Bool.false_eq_true, if_false]
            cases Descriptor.restampFile files d now <;> rfl
  · rfl

theorem rewriting?_of_descriptor? (hon : s.config.descriptor = true) (hfree : s.reservations = .empty)
    (hd : Package.descriptor? files saved = some descriptor) :
    s.rewriting? files now saved = some (Descriptor.restampFile files descriptor now) := by
  have hheld : s.reservations.isHeld descriptor = false := by rw [hfree]; rfl
  simp [rewriting?, hon, hd, hheld]

/-- While no path is reserved, saving comes to one of three things: the descriptor is written, it is
not and an error is told, or there is none to write. -/
theorem save_cases (hfree : s.reservations = .empty) (files : FileStore) (now : Nat) (saved : Path) :
    (∃ d, s.config.descriptor = true ∧ Package.descriptorPath saved = some d ∧
      files.isFile d = true ∧
      ((∃ files', Descriptor.restampFile files d now = .ok files' ∧
          s.save files now saved = (true, files', s)) ∨
        ∃ e, Descriptor.restampFile files d now = .error e ∧
          s.save files now saved = (false, files, s.publish (.error e.message)))) ∨
    ((s.config.descriptor = false ∨
        ∀ d, Package.descriptorPath saved = some d → files.isFile d = false) ∧
      s.save files now saved = (false, files, s)) := by
  cases hon : s.config.descriptor with
  | false => exact .inr ⟨.inl rfl, by simp [save_eq, rewriting?, hon]⟩
  | true =>
      cases hd : Package.descriptor? files saved with
      | none =>
          refine .inr ⟨.inr fun d hpath => ?_, by simp [save_eq, rewriting?, hd]⟩
          by_contra hfile
          have hsome := Package.descriptor?_eq_some_iff.2 ⟨hpath, (Bool.not_eq_false _).mp hfile⟩
          rw [hd] at hsome
          cases hsome
      | some d =>
          obtain ⟨hpath, hfile⟩ := Package.descriptor?_eq_some_iff.1 hd
          refine .inl ⟨d, rfl, hpath, hfile, ?_⟩
          rw [save_eq, rewriting?_of_descriptor? hon hfree hd]
          cases Descriptor.restampFile files d now with
          | ok files' => exact .inl ⟨files', rfl, rfl⟩
          | error e => exact .inr ⟨e, rfl, rfl⟩

end Session

/-- Only saving changes files. -/
theorem World.files_perform {P : Parser} (w : World P) {c : Command} (h : ∀ saved, c ≠ .save saved) :
    (w.perform c).2.files = w.files := by
  cases c with
  | save saved => exact absurd rfl (h saved)
  | edit e =>
      simp only [perform]
      split <;> rfl
  | applyConfig overrides =>
      simp only [perform]
      split <;> rfl
  | _ => rfl

namespace Session

variable {P : Parser} {s : Session P} {files : FileStore} {now : Nat} {saved descriptor : Path}

/-! ### What comes of saving -/

/-- A descriptor is written exactly if it is wanted, is there, and has a stamp that can be read. -/
theorem saved_iff (hfree : s.reservations = .empty) :
    (s.save files now saved).1 = true ↔ s.config.descriptor = true ∧
      ∃ descriptor, Package.descriptorPath saved = some descriptor ∧
        files.isFile descriptor = true ∧
        ∃ stamp, Descriptor.readTimestamp files descriptor = .ok (some stamp) := by
  rcases save_cases hfree files now saved with
    ⟨d, hon, hpath, hfile, ⟨files', hrestamp, hsave⟩ | ⟨e, hrestamp, hsave⟩⟩ | ⟨hno, hsave⟩
  · have hstamp := (Descriptor.exists_restampFile_iff now).1 ⟨files', hrestamp⟩
    exact iff_of_true (by rw [hsave]) ⟨hon, d, hpath, hfile, hstamp⟩
  · refine iff_of_false (by simp [hsave]) ?_
    rintro ⟨-, d', hpath', -, hstamp⟩
    obtain rfl : d = d' := Option.some.inj (hpath.symm.trans hpath')
    rw [← Descriptor.exists_restampFile_iff now, hrestamp] at hstamp
    simp at hstamp
  · refine iff_of_false (by simp [hsave]) ?_
    rintro ⟨hon, d, hpath, hfile, -⟩
    rcases hno with hoff | hgone
    · simp [hon] at hoff
    · simp [hgone d hpath] at hfile

/-- What is written is the document with a new stamp in place of the one that is read, and nobody is
told. -/
theorem stamped_of_saved (hfree : s.reservations = .empty)
    (h : (s.save files now saved).1 = true) :
    (s.save files now saved).2.2 = s ∧
      ∃ descriptor text document name, Package.descriptorPath saved = some descriptor ∧
        files.readText descriptor = .ok text ∧ Descriptor.parse descriptor text = .ok document ∧
        Descriptor.timestampSection? document = some name ∧
        Descriptor.timestamp? document = Descriptor.timestampIn? document name ∧
        (s.save files now saved).2.1.readText descriptor = .ok (String.ofList (Descriptor.written
          (Descriptor.isMarked text.toList)
          (Descriptor.setTimestamp name (Descriptor.formatTimestamp now) document))) := by
  rcases save_cases hfree files now saved with
    ⟨d, -, hpath, -, ⟨files', hrestamp, hsave⟩ | ⟨e, -, hsave⟩⟩ | ⟨-, hsave⟩
  · obtain ⟨text, document, name, htext, hdocument, hname, hwrite⟩ :=
      Descriptor.exists_of_restampFile hrestamp
    rw [hsave]
    exact ⟨rfl, d, text, document, name, hpath, htext, hdocument, hname,
      Descriptor.timestamp?_eq_timestampIn? hname, FileStore.readText_writeText hwrite⟩
  · simp [hsave] at h
  · simp [hsave] at h

/-- If the descriptor is there but is not written, one error is told, and that is all. -/
theorem save_of_not_saved (hfree : s.reservations = .empty) (hon : s.config.descriptor = true)
    (hpath : Package.descriptorPath saved = some descriptor)
    (hfile : files.isFile descriptor = true) (h : (s.save files now saved).1 = false) :
    ∃ message, s.save files now saved = (false, files, s.publish (.error message)) := by
  rcases save_cases hfree files now saved with
    ⟨d, -, -, -, ⟨files', -, hsave⟩ | ⟨e, -, hsave⟩⟩ | ⟨hoff | hgone, -⟩
  · simp [hsave] at h
  · exact ⟨e.message, hsave⟩
  · simp [hon] at hoff
  · simp [hgone descriptor hpath] at hfile

/-- If descriptors are not wanted, or there is none, nothing happens. -/
theorem save_of_no_descriptor (hfree : s.reservations = .empty)
    (h : s.config.descriptor = false ∨ ∀ descriptor,
      Package.descriptorPath saved = some descriptor → files.isFile descriptor = false) :
    s.save files now saved = (false, files, s) := by
  rcases save_cases hfree files now saved with ⟨d, hon, hpath, hfile, -⟩ | ⟨-, hsave⟩
  · rcases h with hoff | hgone
    · simp [hon] at hoff
    · simp [hgone d hpath] at hfile
  · exact hsave

/-- No file but the descriptor changes. -/
theorem get?_save (hfree : s.reservations = .empty) {place : Place}
    (hplace : ∀ descriptor, Package.descriptorPath saved = some descriptor →
      files.locate descriptor ≠ .ok place) :
    (s.save files now saved).2.1.get? place = files.get? place := by
  rcases save_cases hfree files now saved with
    ⟨d, -, hpath, -, ⟨files', hrestamp, hsave⟩ | ⟨e, -, hsave⟩⟩ | ⟨-, hsave⟩ <;> rw [hsave]
  exact Descriptor.get?_restampFile hrestamp (hplace d hpath)

theorem reservations_save (s : Session P) (files : FileStore) (now : Nat) (saved : Path) :
    (s.save files now saved).2.2.reservations = s.reservations := by
  rw [save_eq]
  split <;> rfl

/-- **What saving does**, while no path is reserved.  A descriptor is written exactly if descriptors
are wanted, a regular file stands in its place next to the saved one, and a stamp can be read from
it.  What is written then is the document with a new stamp in the section from which the stamp is
read, and nobody is told.  If the file is there but is not written, it stays as it was, and exactly
one error is told.  Otherwise nothing happens.  In no case does another file change, or what is
reserved; and no other command changes any file. -/
theorem save_contract (s : Session P) (hfree : s.reservations = .empty) (files : FileStore)
    (now : Nat) (saved : Path) :
    let outcome := s.save files now saved
    (outcome.1 = true ↔ s.config.descriptor = true ∧
      ∃ descriptor, Package.descriptorPath saved = some descriptor ∧
        files.isFile descriptor = true ∧
        ∃ stamp, Descriptor.readTimestamp files descriptor = .ok (some stamp)) ∧
    (outcome.1 = true → outcome.2.2 = s ∧
      ∃ descriptor text document name, Package.descriptorPath saved = some descriptor ∧
        files.readText descriptor = .ok text ∧ Descriptor.parse descriptor text = .ok document ∧
        Descriptor.timestampSection? document = some name ∧
        Descriptor.timestamp? document = Descriptor.timestampIn? document name ∧
        outcome.2.1.readText descriptor = .ok (String.ofList (Descriptor.written
          (Descriptor.isMarked text.toList)
          (Descriptor.setTimestamp name (Descriptor.formatTimestamp now) document)))) ∧
    (∀ descriptor, s.config.descriptor = true → Package.descriptorPath saved = some descriptor →
      files.isFile descriptor = true → outcome.1 = false →
        ∃ message, outcome = (false, files, s.publish (.error message))) ∧
    ((s.config.descriptor = false ∨ ∀ descriptor, Package.descriptorPath saved = some descriptor →
      files.isFile descriptor = false) → outcome = (false, files, s)) ∧
    (∀ place, (∀ descriptor, Package.descriptorPath saved = some descriptor →
      files.locate descriptor ≠ .ok place) → outcome.2.1.get? place = files.get? place) ∧
    outcome.2.2.reservations = s.reservations ∧
    ∀ (w : World P) (c : Command), (∀ path, c ≠ .save path) → (w.perform c).2.files = w.files := by
  intro outcome
  exact ⟨saved_iff hfree, stamped_of_saved hfree,
    fun _ hon hpath hfile h => save_of_not_saved hfree hon hpath hfile h,
    save_of_no_descriptor hfree, fun _ hplace => get?_save hfree hplace,
    s.reservations_save files now saved, fun w _ hc => w.files_perform hc⟩

/-- A descriptor whose first section is no object, and which has its stamp in the second. -/
def scriptDescriptor : FileStore := Descriptor.oneFile "descriptor.json"
  "\x7b\"Descriptor\":[],\"SqlScript\":\x7b\"ModifiedOnUtc\":1\x7d\x7d"

/-- A descriptor without a stamp. -/
def unstampedDescriptor : FileStore :=
  Descriptor.oneFile "descriptor.json" "\x7b\"Descriptor\":[]\x7d"

/-- The stamp in the second section is replaced, and the new one is read from there; without a stamp
an error is told. -/
theorem save_contract_second_section :
    let s : Session Parser.standard := activate .standard
    (s.save scriptDescriptor 5 ⟨"install.sql"⟩).1 = true ∧
    (s.save scriptDescriptor 5 ⟨"install.sql"⟩).2.2 = s ∧
    Descriptor.readTimestamp (s.save scriptDescriptor 5 ⟨"install.sql"⟩).2.1 ⟨"descriptor.json"⟩ =
      .ok (some "/Date(5)/") ∧
    ∃ message, s.save unstampedDescriptor 5 ⟨"install.sql"⟩ =
      (false, unstampedDescriptor, s.publish (.error message)) := by
  intro s
  have hpath : Package.descriptorPath ⟨"install.sql"⟩ = some ⟨"descriptor.json"⟩ := by decide +kernel
  obtain ⟨hwritten, hsame, -⟩ := save_contract s rfl scriptDescriptor 5 ⟨"install.sql"⟩
  obtain ⟨hunwritten, -, htold, -⟩ := save_contract s rfl unstampedDescriptor 5 ⟨"install.sql"⟩
  have hdone := hwritten.2
    ⟨rfl, ⟨"descriptor.json"⟩, hpath, by decide +kernel, "1", by decide +kernel⟩
  have hfailed : (s.save unstampedDescriptor 5 ⟨"install.sql"⟩).1 = false := by
    refine (Bool.not_eq_true _).mp fun h => ?_
    obtain ⟨-, d, hd, -, stamp, hstamp⟩ := hunwritten.1 h
    obtain rfl : ⟨"descriptor.json"⟩ = d := Option.some.inj (hpath.symm.trans hd)
    have hnone :
        (Descriptor.readTimestamp unstampedDescriptor ⟨"descriptor.json"⟩).toOption = none := by
      decide +kernel
    simp [hstamp, Except.toOption] at hnone
  have hread : Descriptor.readTimestamp (s.save scriptDescriptor 5 ⟨"install.sql"⟩).2.1
      ⟨"descriptor.json"⟩ = .ok (some "/Date(5)/") := by
    have hstamp : (Descriptor.readTimestamp (s.save scriptDescriptor 5 ⟨"install.sql"⟩).2.1
        ⟨"descriptor.json"⟩).toOption = some (some "/Date(5)/") := by decide +kernel
    cases h : Descriptor.readTimestamp (s.save scriptDescriptor 5 ⟨"install.sql"⟩).2.1
        ⟨"descriptor.json"⟩ with
    | ok stamp => simpa [h, Except.toOption] using hstamp
    | error e => simp [h, Except.toOption] at hstamp
  exact ⟨hdone, (hsame hdone).1, hread,
    htold ⟨"descriptor.json"⟩ rfl hpath (by decide +kernel) hfailed⟩

end Session

end SchemaScope
