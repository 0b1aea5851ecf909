/-
**Documents read back from their single backslashes.**

A document is laid out in lines and its doubled backslashes are made single.  If every text of it is
read back as some text, the whole document is read back, with these texts in their places.

Main definitions:

* `Descriptor.Decodes` — a text is read back as another one, whatever follows it;
* `Descriptor.ReadsAs` — a value is read back as another one, up to its doubles.

Main results:

* `Descriptor.readElements_written`, `Descriptor.readMembers_written` — lists and objects are read
  back if their parts are;
* `Descriptor.readValue_written` — **a document whose texts are read back is read back**.
-/

import SchemaScope.Proofs.Descriptor.WrittenForm
import SchemaScope.Proofs.Json.Derailed

set_option autoImplicit false

namespace SchemaScope.Descriptor

open Json

/-! ### Documents whose texts are read back -/

/-- Between quotes with single backslashes, the first text is read as the second one. -/
def Decodes (s t : String) : Prop :=
  ∀ rest, Spells (writtenText s.toList ++ '"' :: rest) t.toList rest

theorem decodes_self {t : String} (h : '\\' ∉ t.toList) : Decodes t t := by
  intro rest
  exact spells_writtenText h rest

/-- The text of the first value is read as the second one, up to its doubles. -/
def ReadsAs (depth : Nat) (v w : Json) : Prop :=
  ∀ (level : Nat) (tail : List Char) (p : Position), EndsLine (undouble tail) →
    ∃ w' q, readValue depth ⟨undouble (prettyText level v ++ tail), p⟩ =
      .ok (w', ⟨undouble tail, q⟩) ∧ SameTexts w w'

theorem readElements_written {depth : Nat} {vs ws : List Json}
    (h : List.Forall₂ (ReadsAs depth) vs ws) (level : Nat) (tail : List Char) :
    ∀ (p : Position) (read : List Json) {bound : Nat}, vs.length < bound →
      ∃ ws' q, readElements (readValue depth) bound false read
          ⟨undouble (elementsTail level vs tail), p⟩ =
        .ok (.array (read.reverse ++ ws'), ⟨undouble tail, q⟩) ∧ List.Forall₂ SameTexts ws ws' := by
  induction h with
  | nil =>
      intro p read bound hbound
      obtain ⟨bound, rfl⟩ : ∃ b, bound = b + 1 := ⟨bound - 1, by omega⟩
      obtain ⟨q, hq⟩ := readElements_end (readValue depth) bound (blank_newline level)
        (undouble tail) p false read
      refine ⟨[], q, ?_, .nil⟩
      rw [undouble_elementsTail_nil, hq, List.append_nil]
  | @cons v w vs ws hv _ ih =>
      intro p read bound hbound
      rw [List.length_cons] at hbound
      obtain ⟨bound, rfl⟩ : ∃ b, bound = b + 1 := ⟨bound - 1, by omega⟩
      obtain ⟨c, cs, hcs, hblank, hne⟩ := prettyText_opens (level + 1) v (elementsTail level vs tail)
      obtain ⟨q, hq⟩ := readElements_next (readValue depth) bound (blank_newline (level + 1))
        hblank cs p hne read
      obtain ⟨w', q', hw, hsame⟩ := hv (level + 1) _ q (endsLine_elementsTail level vs tail)
      obtain ⟨ws', q'', hws, hall⟩ := ih q' (w' :: read) (by omega : vs.length < bound)
      refine ⟨w' :: ws', q'', ?_, .cons hsame hall⟩
      -- the reader keeps what it has read last first
      rw [undouble_elementsTail_cons, hcs, hq, ← hcs, hw]
      rw [List.reverse_cons, List.append_assoc] at hws
      exact hws

theorem readMembers_written {depth : Nat} {ms ns : Members}
    (h : List.Forall₂ (fun m n => Decodes m.1 n.1 ∧ ReadsAs depth m.2 n.2) ms ns) (level : Nat)
    (tail : List Char) :
    ∀ (p : Position) (read : Members) {bound : Nat}, List.length ms < bound →
      ∃ (ns' : Members) (q : Position), readMembers (readValue depth) bound false read
          ⟨undouble (membersTail level ms tail), p⟩ =
        .ok (.object (ns'.foldl (fun members m => Members.put m.1 m.2 members) read),
          ⟨undouble tail, q⟩) ∧
        List.Forall₂ (fun n n' => n.1 = n'.1 ∧ SameTexts n.2 n'.2) ns ns' := by
  induction h with
  | nil =>
      intro p read bound hbound
      obtain ⟨bound, rfl⟩ : ∃ b, bound = b + 1 := ⟨bound - 1, by omega⟩
      obtain ⟨q, hq⟩ := readMembers_end (readValue depth) bound (blank_newline level)
        (undouble tail) p read false
      refine ⟨[], q, ?_, .nil⟩
      rw [undouble_membersTail_nil, hq]
      rfl
  | @cons m n ms ns hm _ ih =>
      intro p read bound hbound
      obtain ⟨k, v⟩ := m
      obtain ⟨hk, hv⟩ := hm
      rw [List.length_cons] at hbound
      obtain ⟨bound, rfl⟩ : ∃ b, bound = b + 1 := ⟨bound - 1, by omega⟩
      obtain ⟨c, cs, hcs, hblank, hne⟩ := prettyText_opens (level + 1) v (membersTail level ms tail)
      have hspell := hk (':' :: ' ' :: undouble (prettyText (level + 1) v ++ membersTail level ms tail))
      obtain ⟨q, hq⟩ := readMembers_next (readValue depth) bound (blank_newline (level + 1))
        (writtenText k.toList ++ '"' :: ':' :: ' ' ::
          undouble (prettyText (level + 1) v ++ membersTail level ms tail)) p read
      obtain ⟨q₁, hq₁⟩ := readMember_eq (readValue depth) q hspell
      obtain ⟨q₂, hq₂⟩ := readValue_blank hblank depth cs q₁
      obtain ⟨w', q₃, hw, hsame⟩ := hv (level + 1) _ q₂ (endsLine_membersTail level ms tail)
      obtain ⟨ns', q₄, hns, hall⟩ := ih q₃ (read.put n.1 w') (by omega : List.length ms < bound)
      refine ⟨(n.1, w') :: ns', q₄, ?_, .cons ⟨rfl, hsame⟩ hall⟩
      rw [undouble_membersTail_cons, hq, hq₁, hcs, hq₂, ← hcs, hw, String.ofList_toList]
      exact hns

theorem readsAs_array {depth : Nat} {vs ws : List Json} (h : List.Forall₂ (ReadsAs depth) vs ws) :
    ReadsAs (depth + 1) (.array vs) (.array ws) := by
  intro level tail p ht
  cases h with
  | nil =>
      obtain ⟨q, hq⟩ := readElements_end (readValue depth) (undouble tail).length.succ blank_nil
        (undouble tail) (p.advance '[') true []
      refine ⟨.array [], q, ?_, .array .nil⟩
      rw [undouble_array_nil, readValue_list]
      exact hq
  | @cons v w vs ws hv hvs =>
      rw [undouble_array_cons, readValue_list]
      -- the reader may take as many steps as the text has characters, which is enough
      have hroom := length_le_elementsTail (prettyText (level + 1) v) level vs tail
      obtain ⟨bound, hbound⟩ : ∃ bound, (newline (level + 1) ++
          undouble (prettyText (level + 1) v ++ elementsTail level vs tail)).length = bound :=
        ⟨_, rfl⟩
      have hlt : vs.length < bound := by
        simp only [newline, List.length_append, List.length_cons] at hbound
        omega
      obtain ⟨c, cs, hcs, hblank, hne⟩ := prettyText_opens (level + 1) v (elementsTail level vs tail)
      obtain ⟨q, hq⟩ := readElements_first (readValue depth) bound (blank_newline (level + 1)) hblank
        cs (p.advance '[') hne []
      obtain ⟨w', q', hw, hsame⟩ := hv (level + 1) _ q (endsLine_elementsTail level vs tail)
      obtain ⟨ws', q'', hws, hsames⟩ := readElements_written hvs level tail q' [w'] hlt
      refine ⟨.array (w' :: ws'), q'', ?_, .array (.cons hsame hsames)⟩
      rw [hbound, hcs, hq, ← hcs, hw]
      exact hws

theorem readsAs_object {depth : Nat} {ms ns : Members} (hkeys : ns.keys.Nodup)
    (h : List.Forall₂ (fun m n => Decodes m.1 n.1 ∧ ReadsAs depth m.2 n.2) ms ns) :
    ReadsAs (depth + 1) (.object ms) (.object ns) := by
  intro level tail p ht
  cases h with
  | nil =>
      obtain ⟨q, hq⟩ := readMembers_end (readValue depth) (undouble tail).length.succ blank_nil
        (undouble tail) (p.advance '\x7b') [] true
      refine ⟨.object [], q, ?_, .object .nil .nil⟩
      rw [undouble_object_nil, readValue_object]
      exact hq
  | @cons m n ms ns hm hms =>
      obtain ⟨k, v⟩ := m
      obtain ⟨hk, hv⟩ := hm
      rw [undouble_object_cons, readValue_object]
      have hroom := length_le_membersTail (prettyText (level + 1) v) level ms tail
      obtain ⟨bound, hbound⟩ : ∃ bound, (newline (level + 1) ++ '"' :: (writtenText k.toList ++
          '"' :: ':' :: ' ' :: undouble (prettyText (level + 1) v ++
            membersTail level ms tail))).length = bound := ⟨_, rfl⟩
      have hlt : List.length ms < bound := by
        simp only [newline, List.length_append, List.length_cons] at hbound
        omega
      obtain ⟨c, cs, hcs, hblank, hne⟩ := prettyText_opens (level + 1) v (membersTail level ms tail)
      obtain ⟨q, hq⟩ := readMembers_first (readValue depth) bound (blank_newline (level + 1))
        (writtenText k.toList ++ '"' :: ':' :: ' ' ::
          undouble (prettyText (level + 1) v ++ membersTail level ms tail)) (p.advance '\x7b') []
      obtain ⟨q₁, hq₁⟩ := readMember_eq (readValue depth) q (hk (':' :: ' ' ::
        undouble (prettyText (level + 1) v ++ membersTail level ms tail)))
      obtain ⟨q₂, hq₂⟩ := readValue_blank hblank depth cs q₁
      obtain ⟨w', q₃, hw, hsame⟩ := hv (level + 1) _ q₂ (endsLine_membersTail level ms tail)
      obtain ⟨ns', q₄, hns, hall⟩ := readMembers_written hms level tail q₃ [(n.1, w')] hlt
      -- the keys are those of the document, so no member replaces another
      have hsames : List.Forall₂ (fun n n' => n.1 = n'.1 ∧ SameTexts n.2 n'.2) (n :: ns)
          ((n.1, w') :: ns') := .cons ⟨rfl, hsame⟩ hall
      have hkeys' : Members.keys ((n.1, w') :: ns') = Members.keys (n :: ns) := by
        rw [eq_comm, ← List.forall₂_eq_eq_eq, Members.keys, Members.keys,
          List.forall₂_map_left_iff, List.forall₂_map_right_iff]
        exact hsames.imp fun _ _ hn => hn.1
      have hlist := Members.ofList_of_nodup (hkeys' ▸ hkeys : (Members.keys ((n.1, w') :: ns')).Nodup)
      refine ⟨.object ((n.1, w') :: ns'), q₄, ?_, alike_object_iff.2 hsames⟩
      rw [hbound, hq, hq₁, hcs, hq₂, ← hcs, hw, String.ofList_toList, ← hlist]
      exact hns

/-- **A document whose texts are read back is read back.** -/
theorem readValue_written {depth : Nat} {v w : Json} (hv : Sound depth v) (hw : Sound depth w)
    (h : Alike Decodes v w) : ReadsAs depth v w := by
  -- words and numbers are written without quotes, and are the same before and after
  have hbare : ∀ {depth : Nat} {v w : Json}, Sound depth v → v.isBare = true →
      Alike Decodes v w → ReadsAs depth v w := by
    intro depth v w hv hb h level tail p ht
    obtain ⟨w', q, hq, hw'⟩ := readValue_bare hv hb ht.endsValue depth p
    rw [undouble_bare hb]
    exact ⟨w', q, hq, (hw' Eq).of_bare hb h⟩
  induction hv generalizing w with
  | null => exact hbare .null rfl h
  | bool => exact hbare .bool rfl h
  | integer hl hh => exact hbare (.integer hl hh) rfl h
  | double hx => exact hbare (.double hx) rfl h
  | string =>
      intro level tail p ht
      cases h with
      | @string s t hst =>
          obtain ⟨q, hq⟩ := readValue_quote (hst (undouble tail)) _ p
          refine ⟨.string t, q, ?_, .string rfl⟩
          rw [undouble_string, hq, String.ofList_toList]
  | @array depth vs hvs ih =>
      cases h with
      | @array _ ws h =>
          cases hw with
          | array hws =>
              rw [List.forall₂_iff_zip] at h
              refine readsAs_array (List.forall₂_iff_zip.2 ⟨h.1, fun {a b} hab => ?_⟩)
              obtain ⟨ha, hb⟩ := List.of_mem_zip hab
              exact ih a ha (hws b hb) (h.2 hab)
  | @object depth ms hkeys hms ih =>
      cases w with
      | object ns =>
          have hm := alike_object_iff.1 h
          cases hw with
          | object hkeys' hns =>
              rw [List.forall₂_iff_zip] at hm
              refine readsAs_object hkeys' (List.forall₂_iff_zip.2 ⟨hm.1, fun {a b} hab => ?_⟩)
              obtain ⟨ha, hb⟩ := List.of_mem_zip hab
              exact ⟨(hm.2 hab).1, ih a ha (hns b hb) (hm.2 hab).2⟩
      | _ => cases h

end SchemaScope.Descriptor
