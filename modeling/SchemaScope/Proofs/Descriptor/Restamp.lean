/-
**A new stamp for a descriptor.**

Giving a descriptor a new stamp rewrites the whole file, with every pair of backslashes made single.
The stamp counts on this: it is put in with backslashes before its slashes, and is read back without
them.  Every other text of the document pays for it.  The file is read back as the document with its
new stamp exactly if no other key and no other string of the document holds a backslash.

Main definitions:

* `Descriptor.shownTimestamp` — a stamp as it is read;
* `Descriptor.otherTexts` — the keys and strings of a document beside its stamp.

Main results:

* `Descriptor.decodes_formatTimestamp` — a stamp is read back without its backslashes;
* `Descriptor.timestamp?_setTimestamp` — the stamp that was set is the stamp of the document;
* `Descriptor.alike_setTimestamp_iff` — two stampings of a document, compared text by text;
* `Descriptor.restampFile_faithful_iff` — **when a new stamp leaves the rest of a descriptor as it
  was**.
-/

import SchemaScope.Proofs.Descriptor.InStep
import SchemaScope.Proofs.Descriptor.Rereading
import SchemaScope.Proofs.File.Rewriting

set_option autoImplicit false

namespace SchemaScope.Descriptor

open Json

/-! ### The text of a stamp -/

/-- The stamp of a time in milliseconds, as it is read. -/
def shownTimestamp (millis : Nat) : String := "/Date(" ++ toString millis ++ ")/"

/-- Characters that stand for themselves between quotes. -/
def IsPlain (c : Char) : Prop := c ≠ '"' ∧ c ≠ '\\' ∧ 0x20 ≤ c.toNat

theorem writtenText_plain {text : List Char} (h : ∀ c ∈ text, IsPlain c) :
    writtenText text = text := by
  induction text with
  | nil => rfl
  | cons c text ih =>
      obtain ⟨hq, hb, hc⟩ := h c (by simp)
      rw [writtenText_cons, writtenChar_eq hb, escapeChar_of_plain hq hb hc,
        ih fun d hd => h d (by simp [hd])]
      rfl

theorem writtenText_append (a b : List Char) :
    writtenText (a ++ b) = writtenText a ++ writtenText b := List.flatMap_append

theorem spells_plain_append {text rest chars rest' : List Char} (h : ∀ c ∈ text, IsPlain c)
    (hs : Spells rest chars rest') : Spells (text ++ rest) (text ++ chars) rest' := by
  induction text with
  | nil => exact hs
  | cons c text ih =>
      obtain ⟨hq, hb, hc⟩ := h c (by simp)
      exact .glyph (.plain hq hb hc) (ih fun d hd => h d (by simp [hd]))

/-- The characters of a stamp between its two slashes. -/
def timestampBody (millis : Nat) : List Char :=
  ['D', 'a', 't', 'e', '('] ++ Nat.toDigits 10 millis ++ [')']

theorem isPlain_timestampBody (millis : Nat) : ∀ c ∈ timestampBody millis, IsPlain c := by
  have hdigit : ∀ c : Char, c.isDigit = true → IsPlain c := by
    intro c hc
    refine ⟨?_, ?_, ?_⟩
    · rintro rfl
      exact absurd hc (by decide)
    · rintro rfl
      exact absurd hc (by decide)
    · simp only [Char.isDigit, Bool.and_eq_true, decide_eq_true_eq] at hc
      have : ('0' : Char).toNat ≤ c.toNat := hc.1
      exact le_trans (by decide) this
  intro c hc
  simp only [timestampBody, List.mem_append, List.mem_cons, List.not_mem_nil, or_false] at hc
  rcases hc with ((rfl | rfl | rfl | rfl | rfl) | hc) | rfl
  case inl.inr => exact hdigit c (areDigits_toDigits millis c hc)
  all_goals exact ⟨by decide, by decide, by decide⟩

theorem toList_formatTimestamp (millis : Nat) :
    (formatTimestamp millis).toList = '\\' :: '/' :: (timestampBody millis ++ ['\\', '/']) := by
  simp [formatTimestamp, timestampBody]

theorem toList_shownTimestamp (millis : Nat) :
    (shownTimestamp millis).toList = '/' :: (timestampBody millis ++ ['/']) := by
  simp [shownTimestamp, timestampBody]

/-- A stamp is read back without its backslashes. -/
theorem decodes_formatTimestamp (millis : Nat) :
    Decodes (formatTimestamp millis) (shownTimestamp millis) := by
  intro rest
  have hslash : ∀ {text chars rest' : List Char}, Spells text chars rest' →
      Spells ('\\' :: '/' :: text) ('/' :: chars) rest' := .glyph (.simple rfl)
  have hwritten : writtenText (formatTimestamp millis).toList ++ '"' :: rest =
      '\\' :: '/' :: (timestampBody millis ++ '\\' :: '/' :: '"' :: rest) := by
    rw [toList_formatTimestamp, writtenText_cons, writtenText_cons, writtenText_append,
      writtenText_plain (isPlain_timestampBody millis)]
    have h₁ : writtenChar '/' = ['/'] := by decide
    have h₂ : writtenText ['\\', '/'] = ['\\', '/'] := by decide
    simp [h₁, h₂]
  rw [hwritten, toList_shownTimestamp]
  exact hslash (spells_plain_append (isPlain_timestampBody millis) (hslash .close))

/-! ### The stamp of a document -/

/-- A document that carries a stamp in a section. -/
theorem exists_of_timestampIn? {document : Json} {name : String}
    (h : (timestampIn? document name).isSome = true) :
    ∃ members fields, document = .object members ∧
      Members.get? name members = some (.object fields) := by
  cases document with
  | object members =>
      cases hs : Members.get? name members with
      | none => simp [timestampIn?, Json.member?, hs] at h
      | some section_ =>
          cases section_ with
          | object fields => exact ⟨members, fields, rfl, hs⟩
          | _ => simp [timestampIn?, Json.member?, hs] at h
  | _ => simp [timestampIn?, Json.member?] at h

theorem setTimestamp_eq {members fields : Members} {name : String}
    (h : Members.get? name members = some (.object fields)) (stamp : String) :
    setTimestamp name stamp (.object members) = .object (Members.put name
      (.object (Members.put timestampField (.string stamp) fields)) members) := by
  simp [setTimestamp, h, setMember]

theorem timestampIn?_setTimestamp {document : Json} {name : String}
    (h : (timestampIn? document name).isSome = true) (stamp : String) :
    timestampIn? (setTimestamp name stamp document) name = some (.string stamp) := by
  obtain ⟨members, fields, rfl, hs⟩ := exists_of_timestampIn? h
  simp [setTimestamp_eq hs, timestampIn?, Json.member?]

theorem timestampIn?_setTimestamp_of_ne {document : Json} {name other : String}
    (hne : other ≠ name) (h : (timestampIn? document name).isSome = true) (stamp : String) :
    timestampIn? (setTimestamp name stamp document) other = timestampIn? document other := by
  obtain ⟨members, fields, rfl, hs⟩ := exists_of_timestampIn? h
  simp [setTimestamp_eq hs, timestampIn?, Json.member?, Members.get?_put_of_ne hne]

theorem isSome_of_timestampSection? {document : Json} {name : String}
    (h : timestampSection? document = some name) : (timestampIn? document name).isSome = true :=
  List.find?_some (p := fun name => (timestampIn? document name).isSome) h

/-- The stamp that was set is the stamp of the document. -/
theorem timestamp?_setTimestamp {document : Json} {name : String}
    (h : timestampSection? document = some name) (stamp : String) :
    timestamp? (setTimestamp name stamp document) = some (.string stamp) := by
  have hsome := isSome_of_timestampSection? h
  obtain ⟨-, before, after, hsections, hbefore⟩ := List.find?_eq_some_iff_append.1 h
  rw [timestamp?, hsections, List.findSome?_append, List.findSome?_cons,
    timestampIn?_setTimestamp hsome]
  -- the sections that are looked through before still have no stamp
  have hnone : before.findSome? (timestampIn? (setTimestamp name stamp document)) = none := by
    rw [List.findSome?_eq_none_iff]
    intro other hother
    have ho : (timestampIn? document other).isSome = false := by simpa using hbefore other hother
    have hne : other ≠ name := by
      rintro rfl
      simp [ho] at hsome
    rw [timestampIn?_setTimestamp_of_ne hne hsome]
    simpa using ho
  rw [hnone]
  rfl

/-- Documents with the same texts have the same stamp, if it is a string. -/
theorem timestamp?_of_sameTexts {v w : Json} (h : SameTexts v w) {stamp : String}
    (hv : timestamp? v = some (.string stamp)) : timestamp? w = some (.string stamp) := by
  have hrel : ∀ name, Option.Rel SameTexts (timestampIn? v name) (timestampIn? w name) := by
    intro name
    have hm := h.member? name
    unfold timestampIn?
    generalize v.member? name = x at hm
    generalize w.member? name = y at hm
    cases hm with
    | none => exact .none
    | some hs => exact hs.member? timestampField
  unfold timestamp? at hv ⊢
  -- the search stops at the same section in both documents
  generalize timestampSections = names at hv
  induction names with
  | nil => cases hv
  | cons name names ih =>
      have hr := hrel name
      rw [List.findSome?_cons] at hv ⊢
      generalize timestampIn? v name = x at hr hv
      generalize timestampIn? w name = y at hr
      cases hr with
      | none => exact ih hv
      | some hxy =>
          cases hv
          cases hxy with
          | string heq => rw [heq]

/-! ### Two stampings of a document -/

theorem alike_string_iff {R : String → String → Prop} {a b : String} :
    Alike R (.string a) (.string b) ↔ R a b := by
  constructor
  · rintro (_ | _)
    next h => exact h
  · exact .string

/-- Two objects that differ in the value of one key. -/
theorem alike_put_iff {R : String → String → Prop} {key : String} {x y : Json}
    {members : Members} :
    Alike R (.object (Members.put key x members)) (.object (Members.put key y members)) ↔
      (R key key ∧ Alike R x y) ∧
        ∀ m ∈ Members.others key members, R m.1 m.1 ∧ Alike R m.2 m.2 :=
  alike_object_iff.trans Members.forall₂_put_iff

/-- The keys and strings of a document beside the stamp of a section, for which an empty text
stands. -/
def otherTexts (name : String) (document : Json) : List String := (setTimestamp name "" document).texts

/-- Two stampings of a document are alike if the stamps are related, and all other texts are related
to themselves. -/
theorem alike_setTimestamp_iff {R : String → String → Prop} (hempty : R "" "") {document : Json}
    {name : String} (h : (timestampIn? document name).isSome = true) {a b : String} :
    Alike R (setTimestamp name a document) (setTimestamp name b document) ↔
      R a b ∧ ∀ t ∈ otherTexts name document, R t t := by
  obtain ⟨members, fields, rfl, hs⟩ := exists_of_timestampIn? h
  rw [otherTexts, ← alike_self_iff, setTimestamp_eq hs, setTimestamp_eq hs, setTimestamp_eq hs]
  simp only [alike_put_iff, alike_string_iff]
  tauto

theorem sound_put {depth : Nat} {members : Members} (h : Sound (depth + 1) (.object members))
    {value : Json} (hv : Sound depth value) (key : String) :
    Sound (depth + 1) (.object (Members.put key value members)) := by
  cases h with
  | object hkeys hms =>
      refine .object (Members.nodup_keys_put hkeys key value) ?_
      intro m hm
      rcases Members.mem_put_iff.1 hm with rfl | hm
      · exact hv
      · exact hms m (Members.mem_of_mem_others hm)

/-- A stamp can be put into every document that can be read. -/
theorem sound_setTimestamp {depth : Nat} {document : Json} (hd : Sound depth document)
    {name : String} (h : (timestampIn? document name).isSome = true) (stamp : String) :
    Sound depth (setTimestamp name stamp document) := by
  obtain ⟨members, fields, rfl, hs⟩ := exists_of_timestampIn? h
  rw [setTimestamp_eq hs]
  cases hd with
  | @object depth _ hkeys hms =>
      have hfields : Sound depth (.object fields) := hms _ (Members.mem_of_get? hs)
      refine sound_put (.object hkeys hms) ?_ name
      cases hfields with
      | object hkeys' hms' => exact sound_put (.object hkeys' hms') .string _

/-! ### Whole documents -/

/-- A document whose texts are read back is read back as a whole. -/
theorem exists_parseChars_of_decodes {v w : Json} (hv : Sound maxDepth v) (hw : Sound maxDepth w)
    (h : Alike Decodes v w) :
    ∃ w', parseChars (undouble (prettyText 0 v)) = .ok w' ∧ SameTexts w w' := by
  obtain ⟨w', q, hread, hsame⟩ := readValue_written hv hw h 0 [] Position.origin (.inl rfl)
  rw [List.append_nil] at hread
  refine ⟨w', ?_, hsame⟩
  rw [parseChars, hread]
  rfl

/-- A document that is read was read text by text. -/
theorem inStep_of_parseChars {v w : Json} (hv : Sound maxDepth v)
    (h : parseChars (undouble (prettyText 0 v)) = .ok w) : InStep v w := by
  obtain ⟨s, hread, hend⟩ := exists_readValue_of_parseChars h
  have hsteps := readValue_inStep hv 0 [] Position.origin w s (.inl rfl)
  rw [List.append_nil] at hsteps
  rcases hsteps hread with ⟨hstep, -⟩ | hd
  · exact hstep
  · exact absurd hd (not_derailed_of_skipBlanks hend)

/-- The mark before a written object is not taken for a part of it. -/
theorem withoutMarks_written (marked : Bool) (members : Members) :
    withoutMarks (written marked (.object members)) = undouble (prettyText 0 (.object members)) := by
  obtain ⟨cs, hcs⟩ : ∃ cs, undouble (prettyText 0 (.object members)) = '\x7b' :: cs := by
    rw [← List.append_nil (prettyText 0 (.object members))]
    cases members with
    | nil => exact ⟨_, undouble_object_nil 0 []⟩
    | cons m ms => exact ⟨_, undouble_object_cons 0 m.1 m.2 ms []⟩
  cases marked <;> simp [withoutMarks, written, hcs, byteOrderMark]

theorem parse_written {path : Path} {marked : Bool} {members : Members} {document : Json} :
    parse path (String.ofList (written marked (.object members))) = .ok document ↔
      parseChars (undouble (prettyText 0 (.object members))) = .ok document := by
  rw [parse, String.toList_ofList, withoutMarks_written]
  cases parseChars (undouble (prettyText 0 (.object members))) <;> simp [Except.mapError]

/-! ### Files -/

/-- What a new stamp needs and does. -/
theorem exists_of_restampFile {files files' : FileStore} {path : Path} {millis : Nat}
    (h : restampFile files path millis = .ok files') :
    ∃ text document name, files.readText path = .ok text ∧ parse path text = .ok document ∧
      timestampSection? document = some name ∧
      files.writeText path (String.ofList (written (isMarked text.toList)
        (setTimestamp name (formatTimestamp millis) document))) = .ok files' := by
  obtain ⟨text, htext, h⟩ := exists_of_bind_ok h
  obtain ⟨output, houtput, h⟩ := exists_of_bind_ok h
  obtain ⟨document, hdocument, hrest⟩ := exists_of_bind_ok (ok_of_mapError houtput)
  cases hname : timestampSection? document with
  | none => simp [withTimestamp?, hname] at hrest
  | some name =>
      simp only [withTimestamp?, hname, Option.map_some, Except.ok.injEq] at hrest
      exact ⟨text, document, name, ok_of_mapError htext, hdocument, hname,
        hrest ▸ ok_of_mapError h⟩

/-- **When a new stamp leaves the rest of a descriptor as it was.**  The file that was written is a
document again, its stamp is the new one, and all its other keys and strings are what they were and
where they were, exactly if no other key or string holds a backslash. -/
theorem restampFile_faithful_iff {files files' : FileStore} {path : Path} {millis : Nat}
    (h : restampFile files path millis = .ok files') :
    ∃ text document name, files.readText path = .ok text ∧ parse path text = .ok document ∧
      timestampSection? document = some name ∧
      ((∃ text' document', files'.readText path = .ok text' ∧ parse path text' = .ok document' ∧
          readTimestamp files' path = .ok (some (shownTimestamp millis)) ∧
          SameTexts (setTimestamp name (shownTimestamp millis) document) document') ↔
        ∀ t ∈ otherTexts name document, '\\' ∉ t.toList) := by
  obtain ⟨text, document, name, htext, hdocument, hname, hwrite⟩ := exists_of_restampFile h
  refine ⟨text, document, name, htext, hdocument, hname, ?_⟩
  have hsome := isSome_of_timestampSection? hname
  obtain ⟨members, fields, rfl, hfields⟩ := exists_of_timestampIn? hsome
  have hsound : Sound maxDepth (.object members) := sound_of_parseChars (ok_of_mapError hdocument)
  have hsoundSet := sound_setTimestamp hsound hsome
  have hread := FileStore.readText_writeText hwrite
  have hset := setTimestamp_eq hfields
  constructor
  · -- what can be read was read text by text, and a text that came back as it was has no backslash
    rintro ⟨text', document', htext', hdocument', -, hsame⟩
    rw [hread] at htext'
    cases htext'
    have hstep : InStep (setTimestamp name (formatTimestamp millis) (.object members)) document' := by
      refine inStep_of_parseChars (hsoundSet _) ?_
      rw [hset] at hdocument' ⊢
      exact parse_written.1 hdocument'
    have hshape := (alike_setTimestamp_iff (R := fun _ _ => True) trivial hsome
      (a := formatTimestamp millis) (b := shownTimestamp millis)).2 ⟨trivial, fun _ _ => trivial⟩
    have hempty : Rereads "" "" := ⟨[], decodes_self (by decide) []⟩
    have hreread := (alike_setTimestamp_iff hempty hsome).1 (hstep.alike hshape hsame)
    intro t ht
    obtain ⟨rest, hs⟩ := hreread.2 t ht
    exact not_mem_of_spells_writtenText hs
  · -- texts without a backslash are read as they are, and the stamp loses its own
    intro hplain
    have halike := (alike_setTimestamp_iff (decodes_self (by decide : '\\' ∉ "".toList)) hsome).2
      ⟨decodes_formatTimestamp millis, fun t ht => decodes_self (hplain t ht)⟩
    obtain ⟨document', hparse, hsame⟩ :=
      exists_parseChars_of_decodes (hsoundSet _) (hsoundSet _) halike
    have hdocument' : parse path (String.ofList (written (isMarked text.toList)
        (setTimestamp name (formatTimestamp millis) (.object members)))) = .ok document' := by
      rw [hset] at hparse ⊢
      exact parse_written.2 hparse
    have hstamp := timestamp?_of_sameTexts hsame (timestamp?_setTimestamp hname _)
    refine ⟨_, document', hread, hdocument', ?_, hsame⟩
    simp only [readTimestamp, hread, readStamp, hdocument', bind, Except.bind, hstamp]
    rfl

/-- A store with one file in its base directory. -/
def oneFile (name text : String) : FileStore :=
  (FileStore.empty ["srv"]).put ["srv", name] (.file text.toUTF8)

/-- Whether the descriptor in a store has a stamp and no backslash in its other texts. -/
def hasPlainTexts (files : FileStore) (path : Path) : Bool :=
  (files.readText path).toOption.any fun text =>
    (parse path text).toOption.any fun document =>
      (timestampSection? document).any fun name =>
        (otherTexts name document).all fun t => !t.toList.contains '\\'

theorem forall_otherTexts_iff {files : FileStore} {path : Path} {text name : String}
    {document : Json} (htext : files.readText path = .ok text)
    (hdocument : parse path text = .ok document) (hname : timestampSection? document = some name) :
    (∀ t ∈ otherTexts name document, '\\' ∉ t.toList) ↔ hasPlainTexts files path = true := by
  simp [hasPlainTexts, htext, hdocument, hname, Except.toOption]

theorem exists_ok_of_isSome {ε α : Type} {x : Except ε α} (h : x.toOption.isSome = true) :
    ∃ a, x = .ok a := by
  cases x with
  | error e => cases h
  | ok a => exact ⟨a, rfl⟩

/-- A descriptor with a mark, with quotes and a control character in its texts. -/
def quotedDescriptor : FileStore := oneFile "descriptor.json"
  "\uFEFF\x7b\"Descriptor\":\x7b\"ModifiedOnUtc\":1,\"A\\u0007\":\"say \\\"hi\\\"\"\x7d\x7d"

/-- A descriptor with a backslash in one of its texts. -/
def backslashDescriptor : FileStore := oneFile "descriptor.json"
  "\x7b\"Descriptor\":\x7b\"ModifiedOnUtc\":\"x\",\"Path\":\"C:\\\\dir\"\x7d\x7d"

/-- Quotes and control characters are kept under a new stamp, and a backslash is not. -/
theorem restampFile_quote_kept_backslash_lost :
    (∃ files' text' document', restampFile quotedDescriptor ⟨"descriptor.json"⟩ 5 = .ok files' ∧
      files'.readText ⟨"descriptor.json"⟩ = .ok text' ∧
      parse ⟨"descriptor.json"⟩ text' = .ok document' ∧
      readTimestamp files' ⟨"descriptor.json"⟩ = .ok (some (shownTimestamp 5))) ∧
    ∃ files' text document name, restampFile backslashDescriptor ⟨"descriptor.json"⟩ 5 = .ok files' ∧
      backslashDescriptor.readText ⟨"descriptor.json"⟩ = .ok text ∧
      parse ⟨"descriptor.json"⟩ text = .ok document ∧ timestampSection? document = some name ∧
      ¬ ∃ text' document', files'.readText ⟨"descriptor.json"⟩ = .ok text' ∧
        parse ⟨"descriptor.json"⟩ text' = .ok document' ∧
        readTimestamp files' ⟨"descriptor.json"⟩ = .ok (some (shownTimestamp 5)) ∧
        SameTexts (setTimestamp name (shownTimestamp 5) document) document' := by
  have hquoted : (restampFile quotedDescriptor ⟨"descriptor.json"⟩ 5).toOption.isSome = true := by
    decide +kernel
  have hbackslash :
      (restampFile backslashDescriptor ⟨"descriptor.json"⟩ 5).toOption.isSome = true := by
    decide +kernel
  constructor
  · obtain ⟨files', h⟩ := exists_ok_of_isSome hquoted
    obtain ⟨text, document, name, htext, hdocument, hname, hiff⟩ := restampFile_faithful_iff h
    have hplain := (forall_otherTexts_iff htext hdocument hname).2 (by decide +kernel)
    obtain ⟨text', document', htext', hdocument', hstamp, -⟩ := hiff.2 hplain
    exact ⟨files', text', document', h, htext', hdocument', hstamp⟩
  · obtain ⟨files', h⟩ := exists_ok_of_isSome hbackslash
    obtain ⟨text, document, name, htext, hdocument, hname, hiff⟩ := restampFile_faithful_iff h
    refine ⟨files', text, document, name, h, htext, hdocument, hname, ?_⟩
    intro hkept
    have hplain := (forall_otherTexts_iff htext hdocument hname).1 (hiff.1 hkept)
    exact absurd hplain (by decide +kernel)

end SchemaScope.Descriptor
