/-
**Editing a document.**

What a host can rely on when it sends an edit: which edits are taken, that a refused edit leaves no
trace, and that an edit that is taken does what an update with the edited text would do.  And what
the parser can rely on when it is told of the edit: that the positions it is given fit together, and
that everything behind the edit has moved on by the distance between the old end and the new.

Main results:

* `Session.edit_isOk_iff` — the edits that are taken are those that fit;
* `World.perform_edit_of_not_fits` — an edit that is refused changes nothing and is told to nobody;
* `World.edit_contract` — **what an edit does**;
* `Session.edit_span_consistent` — **what the parser is told of an edit**.
-/

import SchemaScope.Proofs.Session.Coherence
import SchemaScope.Proofs.Source.Points

set_option autoImplicit false

namespace SchemaScope

open Script

namespace Session

variable {P : Parser} {s : Session P} {e : TextEdit}

theorem exists_edited?_of_edit {s' : Session P} (h : s.edit e = .ok s') :
    ∃ edited, e.edited? s.source.toList = some edited := by
  cases hedited : e.edited? s.source.toList with
  | none =>
      rw [edit_of_edited?_eq_none s hedited] at h
      cases h
  | some edited => exact ⟨edited, rfl⟩

/-- The edits that are taken are those that fit. -/
theorem edit_isOk_iff (hP : P.Faithful) (h : s.Coherent) :
    (∃ s', s.edit e = .ok s') ↔ e.Fits s.source := by
  rw [← TextEdit.exists_edited?_iff]
  constructor
  · rintro ⟨s', hs⟩
    exact exists_edited?_of_edit hs
  · rintro ⟨edited, hedited⟩
    exact ⟨_, edit_eq_update hP h hedited⟩

theorem update_bus (s : Session P) (path : Option Path) (text : String) :
    (s.update path text).bus = s.bus.publishAll [.beforeUpdate, .afterUpdate] := rfl

end Session

namespace World

variable {P : Parser} {w : World P} {e : TextEdit}

/-- An edit that is refused changes nothing and is told to nobody. -/
theorem perform_edit_of_not_fits (h : ¬ e.Fits w.session.source) :
    w.perform (.edit e) =
      (.invalidEdit ⟨e.start, e.stop, w.session.source.utf8ByteSize⟩, w) := by
  have hnone : e.edited? w.session.source.toList = none := by
    rw [Option.eq_none_iff_forall_ne_some]
    intro edited hedited
    exact h (TextEdit.exists_edited?_iff.1 ⟨edited, hedited⟩)
  simp only [perform, Session.edit_of_edited?_eq_none _ hnone, Utf8.size_toList]

/-- **What an edit does.**  It is taken exactly if its offsets are in order, lie within the text and
are character boundaries.  Otherwise the world stays as it is, down to the queues of the subscribers.
If it is taken, the bytes between its offsets are replaced, the two events of an update are sent and
nothing else, and the session is the one that an update with the new text would have led to. -/
theorem edit_contract (hP : P.Faithful) (hw : w.Reachable) (e : TextEdit) :
    ((∃ s, w.session.edit e = .ok s) ↔ e.Fits w.session.source) ∧
      (¬ e.Fits w.session.source → w.perform (.edit e) =
        (.invalidEdit ⟨e.start, e.stop, w.session.source.utf8ByteSize⟩, w)) ∧
      ∀ s, w.session.edit e = .ok s →
        w.perform (.edit e) = (.edited (s.tree.map (·.source)), w.withSession s) ∧
        s.source.toByteArray = w.session.source.toByteArray.extract 0 e.start ++
          e.text.toByteArray ++
          w.session.source.toByteArray.extract e.stop w.session.source.utf8ByteSize ∧
        s.bus = w.session.bus.publishAll [.beforeUpdate, .afterUpdate] ∧
        s = w.session.update w.session.path s.source := by
  have hc := hw.coherent hP
  refine ⟨Session.edit_isOk_iff hP hc, perform_edit_of_not_fits, ?_⟩
  intro s hs
  -- everything follows from the update that the edit amounts to
  obtain ⟨edited, hedited⟩ := Session.exists_edited?_of_edit hs
  have hupdate := Session.edit_eq_update hP hc hedited
  rw [hs] at hupdate
  have hs' : s = w.session.update w.session.path (String.ofList edited) := Except.ok.inj hupdate
  refine ⟨by simp only [perform, hs], ?_, ?_, ?_⟩
  · rw [hs']
    exact TextEdit.toByteArray_edited hedited
  · rw [hs', Session.update_bus]
  · rw [hs']
    rfl

/-- A world with a document whose first character takes two bytes. -/
def accented : World Parser.standard :=
  ((start (.empty []) 0 .standard).perform (.update none "é = 1")).2

/-- The two bytes of a character are replaced together, and an edit between them is refused. -/
theorem edit_contract_accented :
    (∃ s, accented.session.edit ⟨0, 2, "x"⟩ = .ok s ∧ s = accented.session.update none s.source) ∧
      accented.perform (.edit ⟨1, 2, ""⟩) = (.invalidEdit ⟨1, 2, 6⟩, accented) := by
  have hw : accented.Reachable := .perform _ (.start _ _ _)
  have hfits : (⟨0, 2, "x"⟩ : TextEdit).Fits accented.session.source := by
    show TextEdit.Fits ⟨0, 2, "x"⟩ "é = 1"
    decide
  have hfits' : ¬ (⟨1, 2, ""⟩ : TextEdit).Fits accented.session.source := by
    show ¬ TextEdit.Fits ⟨1, 2, ""⟩ "é = 1"
    decide
  have htaken := edit_contract Parser.standard_faithful hw ⟨0, 2, "x"⟩
  have hrefused := edit_contract Parser.standard_faithful hw ⟨1, 2, ""⟩
  obtain ⟨s, hs⟩ := htaken.1.2 hfits
  exact ⟨⟨s, hs, (htaken.2.2 s hs).2.2.2⟩, hrefused.2.1 hfits'⟩

end World

/-! ### What the parser is told -/

namespace Session

variable {P : Parser} {s s' : Session P} {e : TextEdit}

/-- A session after an edit. -/
theorem edit_eq_ok (h : s.edit e = .ok s') :
    ∃ edited span, e.edited? s.source.toList = some edited ∧
      e.span? s.source.toList = some span ∧ s'.source.toList = edited ∧
      s'.lastParse = if isAnalyzable s.path then
        P.parse s'.source (s.lastParse.map (P.move span)) else none := by
  obtain ⟨edited, hedited⟩ := exists_edited?_of_edit h
  obtain ⟨span, hspan⟩ := TextEdit.exists_span_of_edited? hedited
  rw [edit, hedited, hspan] at h
  cases h
  exact ⟨edited, span, hedited, hspan, String.toList_ofList, rfl⟩

/-- **What the parser is told of an edit.**  It parses the new text on the basis of what came out of
the old one, moved along with the span of the edit.  The span starts at the position of the first
byte that is replaced; its old end is reached from there over the removed bytes and its new end over
the new ones, with as many bytes more as the new text has.  The position of every offset behind the
edit, also within a character, moves on by the lines between the old and the new end; it moves on by
the columns between them as long as no line feed stands before it, and keeps its column from then
on. -/
theorem edit_span_consistent (h : s.edit e = .ok s') :
    ∃ span, e.span? s.source.toList = some span ∧
      s'.lastParse = (if isAnalyzable s.path then
        P.parse s'.source (s.lastParse.map (P.move span)) else none) ∧
      Utf8.bytes s'.source.toList = (Utf8.bytes s.source.toList).take e.start ++
        Utf8.bytes e.text.toList ++ (Utf8.bytes s.source.toList).drop e.stop ∧
      span.startByte = e.start ∧ span.oldStopByte = e.stop ∧
      span.newStopByte = e.start + e.text.utf8ByteSize ∧
      pointAt? s.source.toList e.start = some span.start ∧
      pointAt? s.source.toList e.stop = some span.oldStop ∧
      pointAt? s'.source.toList span.newStopByte = some span.newStop ∧
      span.oldStop = span.start.past (e.removed s.source.toList) ∧
      span.newStop = span.start.past (Utf8.bytes e.text.toList) ∧
      ∀ n, e.stop ≤ n → n ≤ s.source.utf8ByteSize → ∃ p q,
        pointAt? s.source.toList n = some p ∧
        pointAt? s'.source.toList (n - e.stop + span.newStopByte) = some q ∧
        (q.line : Int) - p.line = span.newStop.line - span.oldStop.line ∧
        (lineFeed ∉ e.kept s.source.toList n →
          (q.column : Int) - p.column = span.newStop.column - span.oldStop.column) ∧
        (lineFeed ∈ e.kept s.source.toList n → q.column = p.column) := by
  obtain ⟨edited, span, hedited, hspan, rfl, hparse⟩ := edit_eq_ok h
  obtain ⟨start, hstart, hspan'⟩ := TextEdit.span?_of_edited? hedited
  obtain ⟨-, hstop⟩ := TextEdit.bounds_of_edited? hedited
  have hbehind : ∀ n, e.stop ≤ n → n ≤ Utf8.size s.source.toList → _ := fun n hn hsize =>
    TextEdit.pointAt?_behind hedited hspan hn hsize
  obtain ⟨hold, hnew⟩ := hbehind e.stop (le_refl _) hstop
  rw [TextEdit.kept_stop] at hold hnew
  rw [TextEdit.shifted_stop] at hnew
  cases hspan.symm.trans hspan'
  refine ⟨_, hspan, hparse, TextEdit.bytes_edited hedited, rfl, rfl, ?_, hstart, hold, hnew, rfl,
    rfl, ?_⟩
  · rw [Utf8.size_toList]
  · intro n hn hsize
    obtain ⟨hp, hq⟩ := hbehind n hn (by rwa [Utf8.size_toList])
    refine ⟨_, _, hp, hq, ?_, ?_, ?_⟩
    · simp only [Position.line_past]
      omega
    · intro hnone
      simp only [Position.column_past_of_notMem _ hnone]
      omega
    · intro hsome
      rw [Position.column_past_of_mem _ hsome, Position.column_past_of_mem _ hsome]

/-- A session with a document of three lines. -/
def threeLines : Session Parser.standard := (activate .standard).update none "ab\né = 1;\nc"

/-- Two lines are put in place of the end of one and the start of the next.  Behind them a place in
the same line moves on by one line and one column, and a place in the next line by one line. -/
theorem edit_span_consistent_acrossLines :
    ∃ s', threeLines.edit ⟨1, 5, "x\ny\nzzz"⟩ = .ok s' ∧
      (⟨1, 5, "x\ny\nzzz"⟩ : TextEdit).span? threeLines.source.toList =
        some ⟨1, 5, 8, ⟨1, 1⟩, ⟨2, 2⟩, ⟨3, 3⟩⟩ ∧
      pointAt? s'.source.toList 11 = some ⟨3, 6⟩ ∧ pointAt? s'.source.toList 14 = some ⟨4, 0⟩ := by
  have hfits : (⟨1, 5, "x\ny\nzzz"⟩ : TextEdit).Fits threeLines.source := by
    show TextEdit.Fits ⟨1, 5, "x\ny\nzzz"⟩ "ab\né = 1;\nc"
    decide
  have hcoherent : threeLines.Coherent := (coherent_activate .standard).update none _
  obtain ⟨s', hs⟩ := (edit_isOk_iff Parser.standard_faithful hcoherent).2 hfits
  obtain ⟨span, hspan, -, -, -, -, -, -, -, -, -, -, hbehind⟩ := edit_span_consistent hs
  have hspan' : (⟨1, 5, "x\ny\nzzz"⟩ : TextEdit).span? threeLines.source.toList =
      some ⟨1, 5, 8, ⟨1, 1⟩, ⟨2, 2⟩, ⟨3, 3⟩⟩ := by
    show TextEdit.span? ⟨1, 5, "x\ny\nzzz"⟩ "ab\né = 1;\nc".toList = _
    decide
  have hspans : span = ⟨1, 5, 8, ⟨1, 1⟩, ⟨2, 2⟩, ⟨3, 3⟩⟩ :=
    Option.some.inj (hspan.symm.trans hspan')
  subst hspans
  refine ⟨s', hs, hspan', ?_, ?_⟩
  · -- an offset in the line in which the edit ends
    obtain ⟨p, ⟨line, column⟩, hp, hq, hline, hcolumn, -⟩ := hbehind 8 (by decide) (by decide)
    have hp' : p = ⟨2, 5⟩ := Option.some.inj (hp.symm.trans (by decide))
    have hcolumn' := hcolumn (by decide)
    simp only [hp'] at hline hcolumn'
    obtain rfl : line = 3 := by omega
    obtain rfl : column = 6 := by omega
    exact hq
  · -- an offset in the line after it
    obtain ⟨p, ⟨line, column⟩, hp, hq, hline, -, hcolumn⟩ := hbehind 11 (by decide) (by decide)
    have hp' : p = ⟨3, 0⟩ := Option.some.inj (hp.symm.trans (by decide))
    have hcolumn' := hcolumn (by decide)
    simp only [hp'] at hline hcolumn'
    obtain rfl : line = 4 := by omega
    subst hcolumn'
    exact hq

end Session

end SchemaScope
