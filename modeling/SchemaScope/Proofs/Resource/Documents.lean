/-
**Documents of items.**

A locale file is written as a sequence of elements such as
`<Item Name="LocalizableStrings.Caption.Value" Value="Save &amp; close" />`.  What an item says is
its name and its value; how the elements are laid out is another matter: what stands between them,
and whether further attributes follow the value.  The reader looks at lines, however, and takes the
value of an item to run to the last quote of its line.  So the layout does not matter as long as no
quote follows the value of a localizable string on its line, and only then.

Main definitions:

* `Locale.Attribute`, `Locale.Item`, `Locale.Layout`, `Locale.text` — items, how they are laid out,
  and the text of a document;
* `Locale.valueOf?` — what items give for a key, whatever their layout;
* `Locale.Clear` — no quote follows the value of a localizable string on its line.

Main results:

* `Locale.entries_text` — the entries of a document, item by item;
* `Locale.get?_strings_of_clear` — from a clear document every string is read as its item says;
* `Locale.strings_text_iff_clear` — **the layout of a document does not matter exactly if it is
  clear**.
-/

import SchemaScope.Proofs.Markup.Decoding
import SchemaScope.Proofs.Resource.Entries
import SchemaScope.Text.Blank

set_option autoImplicit false

namespace SchemaScope.Locale

open Text

/-! ### Items and layouts -/

/-- An attribute that follows the value of an item.  It is not another value. -/
structure Attribute where
  /-- The white space before the attribute. -/
  gap : List Char
  name : List Char
  value : List Char
  gap_ne_nil : gap ≠ [] := by decide
  gap_blank : gap.all isWhiteSpace = true := by decide
  name_plain : '"' ∉ name := by decide
  name_ne : name ≠ ['V', 'a', 'l', 'u', 'e'] := by decide
  value_plain : '"' ∉ value := by decide

/-- What an element says: a name and a value, with references for their quotes. -/
structure Item where
  name : List Char
  value : List Char
  name_plain : '"' ∉ name := by decide
  value_plain : '"' ∉ value := by decide

/-- How an element is laid out. -/
structure Layout where
  /-- What stands before the element. -/
  before : List Char
  /-- The attributes behind the value. -/
  further : List Attribute
  /-- The white space before the end of the element. -/
  space : List Char
  /-- What stands behind the element. -/
  after : List Char
  before_plain : '"' ∉ before := by decide
  space_blank : space.all isWhiteSpace = true := by decide
  after_plain : '"' ∉ after := by decide

/-- An element with a line of its own. -/
def ownLine : Layout where
  before := [' ', ' ']
  further := []
  space := [' ']
  after := ['\n']

/-- What stands before the quotes of an attribute. -/
def Attribute.label (a : Attribute) : List Char := a.gap ++ a.name ++ ['=']

/-- The text of an attribute. -/
def Attribute.text (a : Attribute) : List Char := a.label ++ '"' :: (a.value ++ ['"'])

/-- What closes an element that has no more attributes, and what stands behind it. -/
def Layout.close (l : Layout) : List Char := l.space ++ '/' :: '>' :: l.after

/-- What follows the value of an item. -/
def Layout.behind (l : Layout) : List Char := l.further.flatMap Attribute.text ++ l.close

/-- What opens an element, up to the label of its name. -/
def tag : List Char := "<Item ".toList

/-- The text of a document. -/
def text : List (Item × Layout) → List Char
  | [] => []
  | (i, l) :: rest =>
      l.before ++ tag ++ label ++ '"' ::
        (i.name ++ '"' :: (valueLabel ++ '"' :: (i.value ++ '"' :: (l.behind ++ text rest))))

/-! ### What items give -/

/-- The key of an item that is a localizable string. -/
def Item.key? (i : Item) : Option (List Char) :=
  (afterText? nameFront i.name).bind fun rest =>
    let key := rest.takeWhile isWordChar
    if IsKey key ∧ rest = key ++ nameBack then some key else none

theorem Item.key?_eq_some_iff {i : Item} {key : List Char} :
    i.key? = some key ↔ IsKey key ∧ i.name = nameOf key := by
  simp only [key?, Option.bind_eq_some_iff, Option.ite_none_right_eq_some, Option.some.injEq]
  constructor
  · rintro ⟨rest, hrest, ⟨hkey, hback⟩, rfl⟩
    rw [afterText?_eq_some hrest, nameOf, List.append_assoc, ← hback]
    exact ⟨hkey, rfl⟩
  · rintro ⟨hkey, hname⟩
    have htake : (key ++ nameBack).takeWhile isWordChar = key :=
      hkey.takeWhile_append_dot (by decide +kernel)
    refine ⟨key ++ nameBack, ?_, ?_⟩
    · rw [hname, nameOf, List.append_assoc, afterText?_append]
    · rw [htake]
      exact ⟨⟨hkey, rfl⟩, rfl⟩

/-- What items give for a key: the first value that is not empty. -/
def valueOf? (items : List Item) (key : String) : Option String :=
  items.findSome? fun i => i.key?.bind fun written => given? key written i.value

/-- No quote follows the value of a localizable string on its line, and the value holds no line
feed. -/
def Clear : List (Item × Layout) → Prop
  | [] => True
  | (i, l) :: rest =>
      (i.key?.isSome = true →
        '\n' ∉ i.value ∧ '"' ∉ (l.behind ++ text rest).takeWhile (· != '\n')) ∧ Clear rest

/-- Whether a document is clear can be found out line by line. -/
def decideClear : (doc : List (Item × Layout)) → Decidable (Clear doc)
  | [] => .isTrue trivial
  | (i, l) :: rest =>
      have := decideClear rest
      inferInstanceAs (Decidable ((i.key?.isSome = true →
        '\n' ∉ i.value ∧ '"' ∉ (l.behind ++ text rest).takeWhile (· != '\n')) ∧ Clear rest))

instance (doc : List (Item × Layout)) : Decidable (Clear doc) := decideClear doc

/-! ### Outside of quotes -/

/-- What can follow a closing quote: no name, and no value. -/
def Outside (rest : List Char) : Prop :=
  (∀ key more, rest ≠ nameOf key ++ more) ∧ ∀ more, rest ≠ valueLabel ++ '"' :: more

theorem head?_nameOf (key more : List Char) : (nameOf key ++ more).head? = some 'L' := by
  have hfront : nameFront.head? = some 'L' := by decide +kernel
  simp [nameOf, List.head?_append, hfront]

theorem quote_notMem_of_blank {text : List Char} (h : text.all isWhiteSpace = true) :
    '"' ∉ text := by
  intro hmem
  exact absurd (List.all_eq_true.1 h _ hmem) (by decide)

theorem valueLabel_eq : valueLabel = [' ', 'V', 'a', 'l', 'u', 'e', '='] := by decide +kernel

theorem Attribute.quote_notMem_label (a : Attribute) : '"' ∉ a.label := by
  simp only [label, List.mem_append, not_or]
  exact ⟨⟨quote_notMem_of_blank a.gap_blank, a.name_plain⟩, by decide⟩

/-- An attribute behind the value is not called like a value. -/
theorem Attribute.label_ne (a : Attribute) : a.label ≠ valueLabel := by
  intro h
  have hname : a.gap ++ a.name = [' ', 'V', 'a', 'l', 'u', 'e'] := by
    have hsplit : valueLabel = [' ', 'V', 'a', 'l', 'u', 'e'] ++ ['='] := valueLabel_eq
    rw [label, hsplit] at h
    exact List.append_cancel_right h
  have hblank := List.all_eq_true.1 a.gap_blank
  match hgap : a.gap, a.gap_ne_nil with
  | [c], _ =>
      rw [hgap] at hname
      exact a.name_ne (by simpa using (List.cons.inj hname).2)
  | c :: d :: gap, _ =>
      rw [hgap] at hname hblank
      obtain rfl : d = 'V' := (List.cons.inj (List.cons.inj hname).2).1
      exact absurd (hblank 'V' (by simp)) (by decide)

theorem outside_of_blank {c : Char} {rest : List Char} (hc : isWhiteSpace c = true ∨ c = '/')
    (hvalue : ∀ more, c :: rest ≠ valueLabel ++ '"' :: more) : Outside (c :: rest) := by
  refine ⟨?_, hvalue⟩
  intro key more h
  have hhead := congrArg List.head? h
  rw [head?_nameOf] at hhead
  obtain rfl : c = 'L' := by simpa using hhead
  revert hc
  decide

theorem Attribute.outside (a : Attribute) (rest : List Char) : Outside (a.text ++ rest) := by
  obtain ⟨c, gap, hgap⟩ := List.exists_cons_of_ne_nil a.gap_ne_nil
  have hblank : isWhiteSpace c = true := List.all_eq_true.1 a.gap_blank c (by simp [hgap])
  have hcons : a.text ++ rest =
      c :: (gap ++ a.name ++ ['='] ++ '"' :: (a.value ++ ['"']) ++ rest) := by
    rw [text, label, hgap]
    rfl
  rw [hcons]
  refine outside_of_blank (.inl hblank) ?_
  intro more h
  rw [← hcons, text, List.append_assoc, List.cons_append] at h
  exact a.label_ne (append_cons_inj_of_first a.quote_notMem_label quote_notMem_valueLabel h).1

theorem Layout.outside_close (l : Layout) (rest : List Char) : Outside (l.close ++ rest) := by
  have hblank := List.all_eq_true.1 l.space_blank
  rw [close]
  match hspace : l.space with
  | [] =>
      refine outside_of_blank (.inr rfl) ?_
      intro more h
      rw [valueLabel_eq] at h
      exact absurd (List.cons.inj h).1 (by decide)
  | c :: space =>
      rw [hspace] at hblank
      refine outside_of_blank (.inl (hblank c (by simp))) ?_
      intro more h
      rw [valueLabel_eq] at h
      -- the second character is white space or a slash, and no letter
      cases space with
      | nil => exact absurd (List.cons.inj (List.cons.inj h).2).1 (by decide)
      | cons d space =>
          obtain rfl : d = 'V' := (List.cons.inj (List.cons.inj h).2).1
          exact absurd (hblank 'V' (by simp)) (by decide)

/-- What follows the value of an item is no name and no value. -/
theorem Layout.outside_further (l : Layout) (further : List Attribute) (rest : List Char) :
    Outside (further.flatMap Attribute.text ++ (l.close ++ rest)) := by
  cases further with
  | nil => exact l.outside_close rest
  | cons a further =>
      rw [List.flatMap_cons, List.append_assoc]
      exact a.outside _

theorem Layout.outside_behind (l : Layout) (rest : List Char) : Outside (l.behind ++ rest) := by
  rw [behind, List.append_assoc]
  exact l.outside_further l.further rest

/-! ### Where no entry starts -/

/-- A value with the quote behind it is quiet. -/
theorem quiet_value {value rest : List Char} (hvalue : '"' ∉ value) (h : Outside rest) :
    Quiet (value ++ ['"']) rest := quiet_quoted hvalue fun _ key _ _ => h.1 key _

theorem Attribute.quiet (a : Attribute) {rest : List Char} (h : Outside rest) :
    Quiet a.text rest := by
  have hsplit : a.text = (a.label ++ ['"']) ++ (a.value ++ ['"']) := by
    rw [text, List.append_assoc, List.singleton_append]
  rw [hsplit]
  refine Quiet.append (quiet_quoted a.quote_notMem_label ?_) (quiet_value a.value_plain h)
  intro _ key value hkey heq
  -- the value would be a name, and another value would follow
  rw [List.append_assoc, List.singleton_append] at heq
  obtain ⟨-, hrest⟩ := append_cons_inj_of_first a.value_plain (quote_notMem_nameOf hkey) heq
  exact h.2 value hrest

/-- A document has no quote before the tag of its first element. -/
theorem text_cases (doc : List (Item × Layout)) :
    text doc = [] ∨ ∃ front back, text doc = front ++ '"' :: back ∧ '"' ∉ front ∧ '<' ∈ front := by
  cases doc with
  | nil => exact .inl rfl
  | cons x rest =>
      obtain ⟨i, l⟩ := x
      refine .inr ⟨l.before ++ tag ++ label, _, rfl, ?_, ?_⟩
      · have htag : '"' ∉ tag := by decide +kernel
        simp only [List.mem_append, not_or]
        exact ⟨⟨l.before_plain, htag⟩, quote_notMem_label⟩
      · have htag : '<' ∈ tag := by decide +kernel
        simp [htag]

theorem Layout.quiet_close (l : Layout) (doc : List (Item × Layout)) :
    Quiet l.close (text doc) := by
  have hclose : '"' ∉ l.close := by
    simp only [close, List.mem_append, List.mem_cons, not_or]
    exact ⟨quote_notMem_of_blank l.space_blank, by decide, by decide, l.after_plain⟩
  rcases text_cases doc with htext | ⟨front, back, htext, hfront, htag⟩
  · rw [htext]
    rintro before part hsplit -
    rw [List.append_nil]
    exact entryAt?_of_notMem fun hmem => hclose (hsplit ▸ List.mem_append_right _ hmem)
  · rw [htext]
    refine quiet_plain hclose hfront ?_
    intro part _ _ hlabel
    have hnotMem : '<' ∉ label := by decide +kernel
    exact hnotMem (hlabel ▸ List.mem_append_right _ htag)

theorem Layout.quiet_behind (l : Layout) (doc : List (Item × Layout)) :
    Quiet l.behind (text doc) := by
  have hfurther : ∀ further : List Attribute,
      Quiet (further.flatMap Attribute.text ++ l.close) (text doc) := by
    intro further
    induction further with
    | nil => exact l.quiet_close doc
    | cons a further ih =>
        rw [List.flatMap_cons, List.append_assoc]
        refine Quiet.append (a.quiet ?_) ih
        rw [List.append_assoc]
        exact l.outside_further further _
  exact hfurther l.further

/-- What stands before the label of an item is quiet. -/
theorem Layout.quiet_before (l : Layout) (rest : List Char) :
    Quiet (l.before ++ tag) (label ++ '"' :: rest) := by
  have htag : '"' ∉ tag := by decide +kernel
  refine quiet_plain ?_ quote_notMem_label ?_
  · simp only [List.mem_append, not_or]
    exact ⟨l.before_plain, htag⟩
  · intro part _ hpart hlabel
    exact hpart (List.append_left_eq_self.1 hlabel)

/-- An element from the label of its name on. -/
def core (i : Item) (l : Layout) : List Char :=
  label ++ '"' :: (i.name ++ '"' :: (valueLabel ++ '"' :: (i.value ++ '"' :: l.behind)))

theorem text_cons (i : Item) (l : Layout) (doc : List (Item × Layout)) :
    text ((i, l) :: doc) = (l.before ++ tag) ++ (core i l ++ text doc) := by
  simp only [text, core, List.append_assoc, List.cons_append]

theorem core_append (i : Item) (l : Layout) (rest : List Char) :
    core i l ++ rest = label ++ '"' ::
      (i.name ++ '"' :: (valueLabel ++ '"' :: (i.value ++ '"' :: (l.behind ++ rest)))) := by
  simp only [core, List.append_assoc, List.cons_append]

/-- In an element no entry starts behind the first character of its label. -/
theorem exists_quiet_core (i : Item) (l : Layout) (doc : List (Item × Layout)) :
    ∃ c more, core i l = c :: more ∧ Quiet more (text doc) := by
  have hlabel : label = 'N' :: ['a', 'm', 'e', '='] := by decide +kernel
  have hshort : '"' ∉ ['a', 'm', 'e', '='] ∧ ¬ label <:+ ['a', 'm', 'e', '='] ∧
      ¬ label <:+ valueLabel := by decide +kernel
  refine ⟨'N', (['a', 'm', 'e', '='] ++ ['"']) ++ ((i.name ++ ['"']) ++ ((valueLabel ++ ['"']) ++
    ((i.value ++ ['"']) ++ l.behind))), ?_, ?_⟩
  · rw [core, hlabel]
    simp only [List.append_assoc, List.cons_append, List.nil_append]
  · refine Quiet.append (quiet_quoted hshort.1 fun h => absurd h hshort.2.1) ?_
    refine Quiet.append (quiet_quoted i.name_plain ?_) ?_
    · intro _ key value _ h
      have hhead := congrArg List.head? h
      rw [head?_nameOf, valueLabel_eq] at hhead
      simp at hhead
    · refine Quiet.append (quiet_quoted quote_notMem_valueLabel fun h => absurd h hshort.2.2) ?_
      refine Quiet.append (quiet_value i.value_plain ?_) (l.quiet_behind doc)
      exact l.outside_behind _

/-! ### Entries of a document -/

/-- The entry that opens an element belongs to a localizable string. -/
theorem key?_of_entryAt? {i : Item} {l : Layout} {rest : List Char} {e : Entry}
    (h : entryAt? (core i l ++ rest) = some e) : i.key? = some e.key := by
  rw [core_append] at h
  obtain ⟨-, hkey, value, hname⟩ := pieces_of_entryAt? quote_notMem_label h
  exact Item.key?_eq_some_iff.2
    ⟨hkey, (append_cons_inj_of_first i.name_plain (quote_notMem_nameOf hkey) hname).1⟩

/-- The entry that opens a localizable string: the rest of the value's line tells how far it
runs. -/
theorem entryAt?_core {i : Item} {key : List Char} (h : i.key? = some key) (l : Layout)
    (rest : List Char) :
    entryAt? (core i l ++ rest) =
      (beforeLastQuote? ((i.value ++ '"' :: (l.behind ++ rest)).takeWhile (· != '\n'))).map
        fun raw => ⟨key, raw, opening.length + key.length + middle.length + raw.length + 1⟩ := by
  obtain ⟨hkey, hname⟩ := Item.key?_eq_some_iff.1 h
  rw [core_append, hname, entryAt?_nameOf hkey]

/-- A localizable string whose value holds a line feed is not found. -/
theorem entryAt?_core_of_newline {i : Item} (hvalue : '\n' ∈ i.value) (l : Layout)
    (rest : List Char) : entryAt? (core i l ++ rest) = none := by
  cases hentry : entryAt? (core i l ++ rest) with
  | none => rfl
  | some e =>
      obtain ⟨line, more, hsplit, hline⟩ := List.eq_append_cons_of_mem hvalue
      have htake : (i.value ++ '"' :: (l.behind ++ rest)).takeWhile (· != '\n') = line := by
        rw [hsplit, List.append_assoc, List.cons_append,
          List.takeWhile_append_of_pos (bne_of_notMem hline),
          List.takeWhile_cons_of_neg (by simp), List.append_nil]
      have hquote : '"' ∉ line := fun hmem =>
        i.value_plain (hsplit ▸ List.mem_append_left _ hmem)
      rw [entryAt?_core (key?_of_entryAt? hentry), htake,
        beforeLastQuote?_of_notMem hquote] at hentry
      cases hentry

theorem takeWhile_value {value : List Char} (hvalue : '\n' ∉ value) (rest : List Char) :
    (value ++ '"' :: rest).takeWhile (· != '\n') = value ++ '"' :: rest.takeWhile (· != '\n') := by
  rw [List.takeWhile_append_of_pos (bne_of_notMem hvalue),
    List.takeWhile_cons_of_pos (by decide)]

/-- A localizable string is found with its own value if no quote follows on its line. -/
theorem entryAt?_core_of_clear {i : Item} {key : List Char} (h : i.key? = some key) {l : Layout}
    {rest : List Char} (hvalue : '\n' ∉ i.value)
    (hline : '"' ∉ (l.behind ++ rest).takeWhile (· != '\n')) :
    entryAt? (core i l ++ rest) =
      some ⟨key, i.value, opening.length + key.length + middle.length + i.value.length + 1⟩ := by
  rw [entryAt?_core h, takeWhile_value hvalue, beforeLastQuote?_split _ hline]
  rfl

/-- With another quote on its line, the value of a localizable string goes on behind its own. -/
theorem entryAt?_core_of_quote {i : Item} {key : List Char} (h : i.key? = some key) {l : Layout}
    {rest : List Char} (hvalue : '\n' ∉ i.value)
    (hline : '"' ∈ (l.behind ++ rest).takeWhile (· != '\n')) :
    ∃ more width, entryAt? (core i l ++ rest) = some ⟨key, i.value ++ '"' :: more, width⟩ := by
  obtain ⟨more, hmore⟩ := exists_beforeLastQuote? i.value hline
  rw [entryAt?_core h, takeWhile_value hvalue, hmore]
  exact ⟨more, _, rfl⟩

theorem entriesFrom_text_cons (i : Item) (l : Layout) (doc : List (Item × Layout)) (skip : Nat) :
    entriesFrom skip (text ((i, l) :: doc)) =
      entriesFrom (skip - (l.before ++ tag).length) (core i l ++ text doc) := by
  rw [text_cons, core_append]
  exact entriesFrom_append_of_quiet (l.quiet_before _) skip

/-- The entries of a document, element by element. -/
theorem entries_text (i : Item) (l : Layout) (doc : List (Item × Layout)) :
    entries (text ((i, l) :: doc)) = match entryAt? (core i l ++ text doc) with
      | some e => e :: entriesFrom (e.width - (core i l).length) (text doc)
      | none => entries (text doc) := by
  obtain ⟨c, more, hcore, hquiet⟩ := exists_quiet_core i l doc
  rw [entries, entriesFrom_text_cons, Nat.zero_sub, hcore, List.cons_append, entriesFrom]
  cases entryAt? (c :: (more ++ text doc)) with
  | none =>
      simp only [entries]
      rw [entriesFrom_append_of_quiet hquiet, Nat.zero_sub]
  | some e =>
      simp only [List.length_cons]
      rw [entriesFrom_append_of_quiet hquiet]
      congr 2
      omega

/-- Every entry of a document has the key of one of its items. -/
theorem exists_key?_of_mem_entriesFrom {doc : List (Item × Layout)} {skip : Nat} {e : Entry}
    (h : e ∈ entriesFrom skip (text doc)) : ∃ x ∈ doc, x.1.key? = some e.key := by
  induction doc generalizing skip with
  | nil => cases skip <;> simp [text, entriesFrom] at h
  | cons x doc ih =>
      obtain ⟨i, l⟩ := x
      obtain ⟨c, more, hcore, hquiet⟩ := exists_quiet_core i l doc
      have hlater : ∀ later, e ∈ entriesFrom later (more ++ text doc) →
          ∃ x ∈ (i, l) :: doc, x.1.key? = some e.key := by
        intro later hmem
        rw [entriesFrom_append_of_quiet hquiet] at hmem
        obtain ⟨x, hx, hkey⟩ := ih hmem
        exact ⟨x, List.mem_cons_of_mem _ hx, hkey⟩
      rw [entriesFrom_text_cons, hcore, List.cons_append] at h
      cases hskip : skip - (l.before ++ tag).length with
      | succ later =>
          rw [hskip, entriesFrom] at h
          exact hlater later h
      | zero =>
          rw [hskip, entriesFrom] at h
          cases hentry : entryAt? (c :: (more ++ text doc)) with
          | none =>
              rw [hentry] at h
              exact hlater 0 h
          | some found =>
              rw [hentry] at h
              rcases List.mem_cons.1 h with rfl | h
              · rw [← List.cons_append, ← hcore] at hentry
                exact ⟨(i, l), List.mem_cons_self, key?_of_entryAt? hentry⟩
              · exact hlater _ h

theorem entries_text_of_key?_eq_none {i : Item} (h : i.key? = none) (l : Layout)
    (doc : List (Item × Layout)) : entries (text ((i, l) :: doc)) = entries (text doc) := by
  rw [entries_text]
  cases hentry : entryAt? (core i l ++ text doc) with
  | none => rfl
  | some e =>
      rw [key?_of_entryAt? hentry] at h
      cases h

/-- A clear localizable string is an entry with its own value, and the other entries are those of
the rest of the document. -/
theorem entries_text_of_clear {i : Item} {key : List Char} (h : i.key? = some key) {l : Layout}
    {doc : List (Item × Layout)} (hvalue : '\n' ∉ i.value)
    (hline : '"' ∉ (l.behind ++ text doc).takeWhile (· != '\n')) :
    ∃ width, entries (text ((i, l) :: doc)) = ⟨key, i.value, width⟩ :: entries (text doc) := by
  have hlength : (core i l).length =
      (opening ++ key ++ middle ++ (i.value ++ '"' :: l.behind)).length := by
    rw [entry_pieces, core, (Item.key?_eq_some_iff.1 h).2]
  have hwidth : opening.length + key.length + middle.length + i.value.length + 1 -
      (core i l).length = 0 := by
    rw [hlength]
    simp only [List.length_append, List.length_cons]
    omega
  refine ⟨opening.length + key.length + middle.length + i.value.length + 1, ?_⟩
  rw [entries_text, entryAt?_core_of_clear h hvalue hline]
  simp only [hwidth]
  rfl

/-! ### Layouts that do not matter -/

/-- The entries of a clear document are its localizable strings. -/
theorem entries_of_clear {doc : List (Item × Layout)} (h : Clear doc) :
    (entries (text doc)).map (fun e => (e.key, e.raw)) =
      doc.filterMap fun x => x.1.key?.map fun key => (key, x.1.value) := by
  induction doc with
  | nil => rfl
  | cons x doc ih =>
      obtain ⟨i, l⟩ := x
      obtain ⟨hclear, hrest⟩ := h
      cases hkey : i.key? with
      | none =>
          rw [entries_text_of_key?_eq_none hkey, ih hrest, List.filterMap_cons_none]
          rw [hkey]
          rfl
      | some key =>
          obtain ⟨hvalue, hline⟩ := hclear (by rw [hkey]; rfl)
          obtain ⟨width, hentries⟩ := entries_text_of_clear hkey hvalue hline
          rw [hentries, List.map_cons, ih hrest]
          simp only [List.filterMap_cons, hkey, Option.map_some]

theorem get?_strings_of_clear {doc : List (Item × Layout)} (h : Clear doc) (key : String) :
    (strings (String.ofList (text doc))).get? key = valueOf? (doc.map Prod.fst) key := by
  have hfound : (entries (text doc)).findSome? (fun e => given? key e.key e.raw) =
      ((entries (text doc)).map fun e => (e.key, e.raw)).findSome? fun p => given? key p.1 p.2 := by
    rw [List.findSome?_map]
    rfl
  rw [get?_strings_ofList, hfound, entries_of_clear h, valueOf?, List.findSome?_map,
    ← List.head?_filterMap, ← List.head?_filterMap, List.filterMap_filterMap]
  congr 2
  funext x
  cases hkey : x.1.key? <;> simp [hkey]

/-- A key that no item has is not found. -/
theorem findSome?_entries_of_not_key {doc : List (Item × Layout)} {key : String}
    (h : ∀ x ∈ doc, x.1.key? ≠ some key.toList) :
    (entries (text doc)).findSome? (fun e => given? key e.key e.raw) = none := by
  rw [List.findSome?_eq_none_iff]
  intro e he
  refine given?_of_ne ?_ _
  intro hkey
  obtain ⟨x, hx, hfound⟩ := exists_key?_of_mem_entriesFrom he
  exact h x hx (hkey ▸ hfound)

theorem valueOf?_of_not_key {doc : List (Item × Layout)} {key : String}
    (h : ∀ x ∈ doc, x.1.key? ≠ some key.toList) : valueOf? (doc.map Prod.fst) key = none := by
  rw [valueOf?, List.findSome?_map, List.findSome?_eq_none_iff]
  intro x hx
  rw [Function.comp_apply, Option.bind_eq_none_iff]
  intro written hwritten
  exact given?_of_ne (fun hkey => h x hx (hkey ▸ hwritten)) _

/-- A localizable string that is not clear is lost or found with another value, if no other item has
its key. -/
theorem findSome?_entries_ne {i : Item} {key : String} (hkey : i.key? = some key.toList)
    {l : Layout} {doc : List (Item × Layout)} (hother : ∀ x ∈ doc, x.1.key? ≠ some key.toList)
    (h : ¬ ('\n' ∉ i.value ∧ '"' ∉ (l.behind ++ text doc).takeWhile (· != '\n'))) :
    (entries (text ((i, l) :: doc))).findSome? (fun e => given? key e.key e.raw) ≠
      given? key key.toList i.value := by
  intro hgiven
  by_cases hvalue : '\n' ∈ i.value
  · -- the string is lost, although its value is not empty
    have hfilled : Markup.decodeOrKeep i.value ≠ [] := by
      rw [Ne, Markup.decodeOrKeep_eq_nil_iff]
      exact List.ne_nil_of_mem hvalue
    rw [entries_text, entryAt?_core_of_newline hvalue, findSome?_entries_of_not_key hother,
      given?_self key hfilled] at hgiven
    cases hgiven
  · -- the value goes on behind a quote
    have hline : '"' ∈ (l.behind ++ text doc).takeWhile (· != '\n') := by
      by_contra hline
      exact h ⟨hvalue, hline⟩
    obtain ⟨more, width, hentry⟩ := entryAt?_core_of_quote hkey hvalue hline
    have hfilled : Markup.decodeOrKeep (i.value ++ '"' :: more) ≠ [] := by
      rw [Ne, Markup.decodeOrKeep_eq_nil_iff]
      simp
    rw [entries_text, hentry, List.findSome?_cons, given?_self key hfilled] at hgiven
    by_cases hempty : Markup.decodeOrKeep i.value = []
    · rw [given?, if_neg (by simp [hempty])] at hgiven
      cases hgiven
    · rw [given?_self key hempty] at hgiven
      have hsame := String.ofList_injective (Option.some.inj hgiven)
      exact Markup.decodeOrKeep_quote_ne i.value more hsame

theorem valueOf?_cons (i : Item) (items : List Item) (key : String) :
    valueOf? (i :: items) key =
      (i.key?.bind fun written => given? key written i.value).or (valueOf? items key) := by
  rw [valueOf?, List.findSome?_cons]
  cases i.key?.bind fun written => given? key written i.value <;> rfl

/-- If the keys of a document are different and every string is found as its item says, then the
document is clear. -/
theorem clear_of_findSome?_entries {doc : List (Item × Layout)}
    (hkeys : (doc.filterMap fun x => x.1.key?).Nodup)
    (h : ∀ key, (entries (text doc)).findSome? (fun e => given? key e.key e.raw) =
      valueOf? (doc.map Prod.fst) key) : Clear doc := by
  induction doc with
  | nil => trivial
  | cons x doc ih =>
      obtain ⟨i, l⟩ := x
      cases hkey : i.key? with
      | none =>
          simp only [List.filterMap_cons, hkey] at hkeys
          refine ⟨fun hsome => by simp [hkey] at hsome, ih hkeys ?_⟩
          intro key
          have hsame := h key
          rwa [entries_text_of_key?_eq_none hkey, List.map_cons, valueOf?_cons, hkey] at hsame
      | some written =>
          simp only [List.filterMap_cons, hkey, List.nodup_cons] at hkeys
          obtain ⟨key, rfl⟩ : ∃ key : String, written = key.toList :=
            ⟨String.ofList written, String.toList_ofList.symm⟩
          have hother : ∀ x ∈ doc, x.1.key? ≠ some key.toList := by
            intro x hx hsame
            exact hkeys.1 (List.mem_filterMap.2 ⟨x, hx, hsame⟩)
          have hclear : '\n' ∉ i.value ∧ '"' ∉ (l.behind ++ text doc).takeWhile (· != '\n') := by
            by_contra hunclear
            refine findSome?_entries_ne hkey hother hunclear ?_
            rw [h key, List.map_cons, valueOf?_cons, hkey, valueOf?_of_not_key hother]
            simp
          obtain ⟨width, hentries⟩ := entries_text_of_clear hkey hclear.1 hclear.2
          refine ⟨fun _ => hclear, ih hkeys.2 ?_⟩
          intro other
          by_cases hsame : key = other
          · subst hsame
            rw [findSome?_entries_of_not_key hother, valueOf?_of_not_key hother]
          · have hnone : given? other key.toList i.value = none :=
              given?_of_ne (fun hlist => hsame (String.toList_inj.1 hlist)) _
            have hfound := h other
            rw [hentries, List.findSome?_cons, List.map_cons, valueOf?_cons, hkey] at hfound
            simpa [hnone] using hfound

/-- The layout of a document does not matter if it is clear; and where every item has a key of its
own, it does not matter only then. -/
theorem strings_text_iff_clear (doc : List (Item × Layout)) :
    (Clear doc → ∀ key,
      (strings (String.ofList (text doc))).get? key = valueOf? (doc.map Prod.fst) key) ∧
    ((doc.filterMap fun x => x.1.key?).Nodup →
      (∀ key, (strings (String.ofList (text doc))).get? key = valueOf? (doc.map Prod.fst) key) →
      Clear doc) := by
  refine ⟨get?_strings_of_clear, ?_⟩
  intro hkeys h
  refine clear_of_findSome?_entries hkeys fun key => ?_
  rw [← get?_strings_ofList]
  exact h key

/-- Two localizable strings. -/
def twoItems : List Item :=
  [⟨"LocalizableStrings.A.Value".toList, ['x'], by decide +kernel, by decide⟩,
    ⟨"LocalizableStrings.B.Value".toList, ['y'], by decide +kernel, by decide⟩]

/-- An element with nothing around it. -/
def packed : Layout := ⟨[], [], [' '], [], by decide, by decide, by decide⟩

/-- An element with a line of its own and an attribute behind its value. -/
def annotated : Layout where
  before := []
  further := [{ gap := [' '], name := ['n', 'o', 't', 'e'], value := ['z'] }]
  space := []
  after := ['\n']

/-- Two strings are read from two lines, but not from one line, and not with another attribute
behind the value of the first. -/
theorem strings_text_iff_clear_twoItems :
    (∀ key, (strings (String.ofList (text (twoItems.map (·, ownLine))))).get? key =
      valueOf? twoItems key) ∧
    (¬ ∀ key, (strings (String.ofList (text (twoItems.map (·, packed))))).get? key =
      valueOf? twoItems key) ∧
    ¬ ∀ key, (strings (String.ofList (text (twoItems.zip [annotated, ownLine])))).get? key =
      valueOf? twoItems key := by
  refine ⟨?_, ?_, ?_⟩
  · exact (strings_text_iff_clear (twoItems.map (·, ownLine))).1 (by decide +kernel)
  · intro h
    have hclear := (strings_text_iff_clear (twoItems.map (·, packed))).2 (by decide +kernel) h
    revert hclear
    decide +kernel
  · intro h
    have hclear := (strings_text_iff_clear (twoItems.zip [annotated, ownLine])).2
      (by decide +kernel) h
    revert hclear
    decide +kernel

end SchemaScope.Locale
