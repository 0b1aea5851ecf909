/-
**The last stamp counts.**

In a descriptor whose numbers are integers and whose other texts hold no backslash, a new stamp is
exact: the file is read as the same document, member by member in the same order, with the one value
replaced.  So nothing of a stamp is left when the next one is set, and the file is the one that the
next stamp alone would have written.

Main definitions:

* `Descriptor.StampReplaced` — two documents that differ in the stamp of a section.

Main results:

* `Descriptor.exists_restampFile` — a descriptor with a stamp can be given a new one;
* `Descriptor.parse_restamped` — the document that is read after a new stamp;
* `Descriptor.setTimestamp_setTimestamp` — the stamp that was set last counts;
* `Descriptor.restampFile_replaces_stamp` — **a new stamp replaces the old one, and nothing else**.
-/

import SchemaScope.Proofs.Descriptor.Restamp

set_option autoImplicit false

namespace SchemaScope.Descriptor

open Json

/-! ### Documents that differ in their stamp -/

/-- The second document has another stamp in a section; every other member of the document and of the
section is the same and stands at the same place. -/
inductive StampReplaced (name : String) (stamp : Json) : Json → Json → Prop
  | replaced {before after first last : Members} {old : Json} : name ∉ before.keys →
      timestampField ∉ first.keys →
      StampReplaced name stamp
        (.object (before ++ (name, .object (first ++ (timestampField, old) :: last)) :: after))
        (.object (before ++ (name, .object (first ++ (timestampField, stamp) :: last)) :: after))

theorem stampReplaced_setTimestamp {document : Json} {name : String}
    (h : (timestampIn? document name).isSome = true) (stamp : String) :
    StampReplaced name (.string stamp) document (setTimestamp name stamp document) := by
  obtain ⟨members, fields, rfl, hs⟩ := exists_of_timestampIn? h
  obtain ⟨old, hold⟩ : ∃ old, Members.get? timestampField fields = some old :=
    Option.isSome_iff_exists.1 (by simpa [timestampIn?, Json.member?, hs] using h)
  obtain ⟨before, after, hmembers, hname, hput⟩ := Members.exists_append_of_get? hs
  obtain ⟨first, last, hfields, hfield, hput'⟩ := Members.exists_append_of_get? hold
  rw [setTimestamp_eq hs, hput, hput', hmembers, hfields]
  exact .replaced hname hfield

/-- The stamp that was set last counts. -/
theorem setTimestamp_setTimestamp {document : Json} {name : String}
    (h : (timestampIn? document name).isSome = true) (a b : String) :
    setTimestamp name b (setTimestamp name a document) = setTimestamp name b document := by
  obtain ⟨members, fields, rfl, hs⟩ := exists_of_timestampIn? h
  rw [setTimestamp_eq hs, setTimestamp_eq hs, setTimestamp_eq (Members.get?_put_self _ _ _),
    Members.put_put, Members.put_put]

/-- A new stamp stays in its section. -/
theorem timestampSection?_setTimestamp {document : Json} {name : String}
    (h : timestampSection? document = some name) (stamp : String) :
    timestampSection? (setTimestamp name stamp document) = some name := by
  have hsome := isSome_of_timestampSection? h
  have hsame : ∀ other, (timestampIn? (setTimestamp name stamp document) other).isSome =
      (timestampIn? document other).isSome := by
    intro other
    by_cases hne : other = name
    · rw [hne, timestampIn?_setTimestamp hsome, hsome]
      rfl
    · rw [timestampIn?_setTimestamp_of_ne hne hsome]
  simp only [timestampSection?, hsame]
  exact h

theorem isIntegral_put {members : Members} (h : (Json.object members).isIntegral = true)
    {value : Json} (hvalue : value.isIntegral = true) (key : String) :
    (Json.object (members.put key value)).isIntegral = true := by
  rw [isIntegral_object_iff] at h ⊢
  intro m hm
  rcases Members.mem_put_iff.1 hm with rfl | hm
  · exact hvalue
  · exact h m (Members.mem_of_mem_others hm)

theorem isIntegral_setTimestamp {document : Json} (hd : document.isIntegral = true) {name : String}
    (h : (timestampIn? document name).isSome = true) (stamp : String) :
    (setTimestamp name stamp document).isIntegral = true := by
  obtain ⟨members, fields, rfl, hs⟩ := exists_of_timestampIn? h
  rw [setTimestamp_eq hs]
  have hfields : (Json.object fields).isIntegral = true :=
    isIntegral_object_iff.1 hd _ (Members.mem_of_get? hs)
  have hstamp : (Json.string stamp).isIntegral = true := by rw [isIntegral]
  exact isIntegral_put hd (isIntegral_put hfields hstamp timestampField) name

/-! ### Texts -/

theorem isMarked_eq_false_of_withoutMarks {text : List Char} (h : withoutMarks text = text) :
    isMarked text = false := by
  cases text with
  | nil => rfl
  | cons c cs =>
      by_contra hc
      have hmark : c = byteOrderMark := by simpa [isMarked] using hc
      have hlen : (withoutMarks cs).length ≤ cs.length := (List.dropWhile_sublist _).length_le
      have hdrop : withoutMarks (c :: cs) = withoutMarks cs := by
        rw [hmark, withoutMarks, List.dropWhile_cons_of_pos (by simp)]
        rfl
      rw [← hdrop, h, List.length_cons] at hlen
      omega

/-- A written object has a mark if it was written with one. -/
theorem isMarked_written (marked : Bool) (members : Members) :
    isMarked (written marked (.object members)) = marked := by
  cases marked with
  | true => rfl
  | false => exact isMarked_eq_false_of_withoutMarks (withoutMarks_written false members)

/-- The document that is read after a new stamp. -/
theorem parse_restamped {path : Path} {document : Json} (hd : Sound maxDepth document)
    {name : String} (h : (timestampIn? document name).isSome = true)
    (hplain : ∀ t ∈ otherTexts name document, '\\' ∉ t.toList)
    (hintegral : document.isIntegral = true) (marked : Bool) (millis : Nat) :
    parse path (String.ofList
      (written marked (setTimestamp name (formatTimestamp millis) document))) =
        .ok (setTimestamp name (shownTimestamp millis) document) := by
  have hsound := sound_setTimestamp hd h
  have halike := (alike_setTimestamp_iff (decodes_self (by decide : '\\' ∉ "".toList)) h).2
    ⟨decodes_formatTimestamp millis, fun t ht => decodes_self (hplain t ht)⟩
  obtain ⟨document', hparse, hsame⟩ := exists_parseChars_of_decodes (hsound _) (hsound _) halike
  rw [← hsame.eq_of_isIntegral (isIntegral_setTimestamp hintegral h _)] at hparse
  obtain ⟨members, fields, rfl, hs⟩ := exists_of_timestampIn? h
  rw [setTimestamp_eq hs] at hparse ⊢
  exact parse_written.2 hparse

/-! ### Files -/

/-- A descriptor with a stamp can be given a new one. -/
theorem exists_restampFile {files : FileStore} {path : Path} {text : String} {document : Json}
    {name : String} (htext : files.readText path = .ok text)
    (hdocument : parse path text = .ok document) (hname : timestampSection? document = some name)
    (millis : Nat) :
    ∃ files', restampFile files path millis = .ok files' ∧
      files.writeText path (String.ofList (written (isMarked text.toList)
        (setTimestamp name (formatTimestamp millis) document))) = .ok files' := by
  obtain ⟨files', hwrite⟩ := FileStore.exists_writeText htext (String.ofList
    (written (isMarked text.toList) (setTimestamp name (formatTimestamp millis) document)))
  refine ⟨files', ?_, hwrite⟩
  simp only [restampFile, htext, Except.mapError, restamp, hdocument, withTimestamp?, hname,
    Option.map_some, bind, Except.bind, hwrite]

/-- **A new stamp replaces the old one, and nothing else.**  Let a descriptor have a stamp, no
backslash in its other keys and strings, and no numbers but integers.  Then it can be given a new
stamp.  The file is read as the same document with this stamp in the same place, it begins with a
mark if it did before, and whatever stamp comes next, the bytes are those that the next stamp alone
would have left. -/
theorem restampFile_replaces_stamp {files : FileStore} {path : Path} {text : String}
    {document : Json} {name : String} (htext : files.readText path = .ok text)
    (hdocument : parse path text = .ok document) (hname : timestampSection? document = some name)
    (hplain : ∀ t ∈ otherTexts name document, '\\' ∉ t.toList)
    (hintegral : document.isIntegral = true) (millis : Nat) :
    ∃ files' text' document', restampFile files path millis = .ok files' ∧
      files'.readText path = .ok text' ∧ parse path text' = .ok document' ∧
      StampReplaced name (.string (shownTimestamp millis)) document document' ∧
      isMarked text'.toList = isMarked text.toList ∧
      readTimestamp files' path = .ok (some (shownTimestamp millis)) ∧
      ∀ next, ∃ twice once bytes, restampFile files' path next = .ok twice ∧
        restampFile files path next = .ok once ∧ twice.read path = .ok bytes ∧
        once.read path = .ok bytes := by
  have hsome := isSome_of_timestampSection? hname
  have hsound : Sound maxDepth document := sound_of_parseChars (ok_of_mapError hdocument)
  obtain ⟨files', hrestamp, hwrite⟩ := exists_restampFile htext hdocument hname millis
  have htext' := FileStore.readText_writeText hwrite
  have hdocument' : parse path (String.ofList (written (isMarked text.toList)
      (setTimestamp name (formatTimestamp millis) document))) =
        .ok (setTimestamp name (shownTimestamp millis) document) :=
    parse_restamped hsound hsome hplain hintegral _ millis
  have hmarked : isMarked (String.ofList (written (isMarked text.toList)
      (setTimestamp name (formatTimestamp millis) document))).toList = isMarked text.toList := by
    obtain ⟨members, fields, rfl, hs⟩ := exists_of_timestampIn? hsome
    rw [String.toList_ofList, setTimestamp_eq hs, isMarked_written]
  refine ⟨files', _, _, hrestamp, htext', hdocument', stampReplaced_setTimestamp hsome _, hmarked,
    ?_, ?_⟩
  · simp only [readTimestamp, htext', readStamp, hdocument', bind, Except.bind,
      timestamp?_setTimestamp hname]
    rfl
  · intro next
    obtain ⟨once, honce, hwrite₁⟩ := exists_restampFile htext hdocument hname next
    obtain ⟨twice, htwice, hwrite₂⟩ := exists_restampFile htext' hdocument'
      (timestampSection?_setTimestamp hname _) next
    -- the two texts are the same: the first stamp is overwritten, and the mark is kept
    rw [hmarked, setTimestamp_setTimestamp hsome] at hwrite₂
    exact ⟨twice, once, _, htwice, honce, FileStore.read_writeText hwrite₂,
      FileStore.read_writeText hwrite₁⟩

theorem exists_ok_of_any {ε α : Type} {x : Except ε α} {p : α → Bool}
    (h : x.toOption.any p = true) : ∃ a, x = .ok a ∧ p a = true := by
  cases x with
  | error e => cases h
  | ok a => exact ⟨a, rfl, h⟩

/-- A descriptor with a mark that has its stamp in the second section, after a list with a line end,
a letter beyond ASCII and a negative number. -/
def scriptDescriptor : FileStore := oneFile "descriptor.json"
  "\uFEFF\x7b\"Descriptor\":null,\"SqlScript\":\x7b\"É\":[\"a\\nb\",-2,\x7b\x7d],\"ModifiedOnUtc\":1\x7d\x7d"

/-- The stamp in the second section is replaced, and the next stamp leaves nothing of it. -/
theorem restampFile_replaces_stamp_script :
    ∃ text document, scriptDescriptor.readText ⟨"descriptor.json"⟩ = .ok text ∧
      parse ⟨"descriptor.json"⟩ text = .ok document ∧
      timestampSection? document = some "SqlScript" ∧
      ∃ files' text' document', restampFile scriptDescriptor ⟨"descriptor.json"⟩ 5 = .ok files' ∧
        files'.readText ⟨"descriptor.json"⟩ = .ok text' ∧
        parse ⟨"descriptor.json"⟩ text' = .ok document' ∧
        StampReplaced "SqlScript" (.string (shownTimestamp 5)) document document' ∧
        ∃ twice once bytes, restampFile files' ⟨"descriptor.json"⟩ 7 = .ok twice ∧
          restampFile scriptDescriptor ⟨"descriptor.json"⟩ 7 = .ok once ∧
          twice.read ⟨"descriptor.json"⟩ = .ok bytes ∧ once.read ⟨"descriptor.json"⟩ = .ok bytes := by
  have hcheck : ((scriptDescriptor.readText ⟨"descriptor.json"⟩).toOption.any fun text =>
      (parse ⟨"descriptor.json"⟩ text).toOption.any fun document =>
        decide (timestampSection? document = some "SqlScript") && document.isIntegral &&
          (otherTexts "SqlScript" document).all fun t => !t.toList.contains '\\') = true := by
    decide +kernel
  obtain ⟨text, htext, hcheck⟩ := exists_ok_of_any hcheck
  obtain ⟨document, hdocument, hcheck⟩ := exists_ok_of_any hcheck
  simp only [Bool.and_eq_true, decide_eq_true_eq, List.all_eq_true, Bool.not_eq_true',
    List.contains_eq_mem, decide_eq_false_iff_not] at hcheck
  obtain ⟨⟨hname, hintegral⟩, hplain⟩ := hcheck
  obtain ⟨files', text', document', hrestamp, htext', hdocument', hreplaced, -, -, hnext⟩ :=
    restampFile_replaces_stamp htext hdocument hname hplain hintegral 5
  exact ⟨text, document, htext, hdocument, hname, files', text', document', hrestamp, htext',
    hdocument', hreplaced, hnext 7⟩

end SchemaScope.Descriptor
