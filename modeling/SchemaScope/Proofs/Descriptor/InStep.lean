/-
**A document is read in step with its text, or not at all.**

A single backslash can make a text close too early, at a quote of its own, or too late, at a quote of
its neighbour.  The reader then stands in the wrong place of a line, and since no string runs over
the end of a line it cannot recover there.  A document that is read at all was therefore read text by
text, each one between its own quotes, and only keys that were read alike can have cost it members.

Main definitions:

* `Descriptor.Rereads` — a text is read as another one between its own quotes;
* `Descriptor.InStep` — a value that was read text by text from the text of another.

Main results:

* `Descriptor.spells_or_derailed` — a text closes at its own quote, or derails the reading;
* `Descriptor.readValue_inStep` — **a document that is read is read text by text**;
* `Descriptor.InStep.alike` — if no member got lost, the texts were read back place by place.
-/

import SchemaScope.Proofs.Descriptor.WrittenForm
import SchemaScope.Proofs.Json.Derailed

set_option autoImplicit false

namespace SchemaScope.Descriptor

open Json

/-! ### Closing quotes -/

theorem guarded_writtenChar (c : Char) : Guarded (writtenChar c) := by
  by_cases hb : c = '\\'
  · subst hb
    exact guarded_of_not_mem (by decide)
  · rw [writtenChar_eq hb]
    unfold escapeChar
    split
    case h_1 =>
      -- the quote itself, which is written behind a backslash
      intro front back h
      rcases front with _ | ⟨x, _ | ⟨y, front⟩⟩
      · simp at h
      · simp only [List.cons_append, List.nil_append, List.cons.injEq] at h
        exact ⟨[], by rw [← h.1]; rfl⟩
      · simp at h
    case h_8 =>
      -- a control character is written with digits, any other character as itself
      split
      · next hc =>
        have hex : ∀ n < 32, '"' ∉ ['\\', 'u', '0', '0', hexDigit (n / 16), hexDigit (n % 16)] := by
          decide
        exact guarded_of_not_mem (hex _ hc)
      · next hq _ _ _ _ _ _ _ => exact guarded_of_not_mem (by simpa using Ne.symm hq)
    all_goals exact guarded_of_not_mem (by decide)

/-- Between the quotes of a descriptor every quote comes right after a backslash. -/
theorem guarded_writtenText (text : List Char) : Guarded (writtenText text) := by
  induction text with
  | nil => exact guarded_of_not_mem (by simp)
  | cons c text ih => exact (guarded_writtenChar c).append ih

/-- A text closes at its own quote, or derails the reading. -/
theorem spells_or_derailed {text rest chars rest' : List Char} (hl : Lost rest)
    (h : Spells (writtenText text ++ '"' :: rest) chars rest') : rest' = rest ∨ Derailed rest' := by
  rcases h.append_cases with hr | ⟨front, back, hw, rfl⟩ | ⟨chars', hs⟩
  · exact .inl hr
  · have hg : Guarded back := (hw ▸ guarded_writtenText text).of_quote
    exact .inr (derailed_of_guarded hg hl)
  · exact .inr (hl _ _ hs)

theorem lost_of_endsLine {rest : List Char} (h : EndsLine rest) : Lost rest := by
  intro chars rest' hs
  exact absurd hs (@not_spells_of_endsLine [] rest chars rest' (by simp) (by simp) h)

/-- No string is read from a text without quotes and backslashes up to the end of its line. -/
theorem lost_append {text rest : List Char} (hq : '"' ∉ text) (hb : '\\' ∉ text)
    (h : EndsLine rest) : Lost (text ++ rest) := by
  intro chars rest' hs
  exact absurd hs (not_spells_of_endsLine hq hb h)

/-- A key that reads past its own quote reaches the end of the line, or closes where the value opens
and takes the value for structure. -/
theorem lost_member (level : Nat) (v : Json) {tail : List Char} (ht : EndsLine (undouble tail)) :
    Lost (':' :: ' ' :: undouble (prettyText level v ++ tail)) := by
  by_cases hv : v.isBare = true
  · obtain ⟨hq, hb⟩ := scalarText_plain hv
    rw [undouble_bare hv]
    exact @lost_append (':' :: ' ' :: scalarText v) _ (by simp [hq]) (by simp [hb]) ht
  · cases v with
    | string t =>
        -- the key closes at the quote that opens the value
        intro chars rest hs
        rw [undouble_string] at hs
        obtain ⟨_, hs⟩ := hs.of_plain (by decide) (by decide)
        obtain ⟨_, hs⟩ := hs.of_plain (by decide) (by decide)
        rw [hs.of_quote]
        exact derailed_of_guarded (guarded_writtenText t.toList) (lost_of_endsLine ht)
    | array vs =>
        cases vs with
        | nil =>
            rw [undouble_array_nil]
            exact @lost_append [':', ' ', '[', ']'] _ (by decide) (by decide) ht
        | cons v vs =>
            rw [undouble_array_cons]
            exact @lost_append [':', ' ', '['] _ (by decide) (by decide) (endsLine_newline _ _)
    | object ms =>
        cases ms with
        | nil =>
            rw [undouble_object_nil]
            exact @lost_append [':', ' ', '\x7b', '\x7d'] _ (by decide) (by decide) ht
        | cons m ms =>
            rw [undouble_object_cons]
            exact @lost_append [':', ' ', '\x7b'] _ (by decide) (by decide) (endsLine_newline _ _)
    | _ => exact absurd rfl hv

/-! ### Reading in step -/

/-- Between its own quotes the first text is read as the second one. -/
def Rereads (s t : String) : Prop :=
  ∃ rest, Spells (writtenText s.toList ++ '"' :: rest) t.toList rest

/-- The second value was read text by text from the text of the first one.  Keys that were read alike
fall together. -/
inductive InStep : Json → Json → Prop
  | bare {v w : Json} : v.isBare = true → SameTexts v w → InStep v w
  | string {s t : String} : Rereads s t → InStep (.string s) (.string t)
  | array {vs ws : List Json} : List.Forall₂ InStep vs ws → InStep (.array vs) (.array ws)
  | object {ms ns : Members} : List.Forall₂ Rereads ms.keys ns.keys →
      List.Forall₂ InStep (ms.map Prod.snd) (ns.map Prod.snd) →
      InStep (.object ms) (.object (Members.ofList ns))

/-- Whatever is read from the text of the value was read in step with it, or the rest is derailed. -/
def StepsOrDerails (depth : Nat) (v : Json) : Prop :=
  ∀ (level : Nat) (tail : List Char) (p : Position) (w : Json) (s : Scan), EndsLine (undouble tail) →
    readValue depth ⟨undouble (prettyText level v ++ tail), p⟩ = .ok (w, s) →
    (InStep v w ∧ s.rest = undouble tail) ∨ Derailed s.rest

theorem readElements_inStep {depth : Nat} {vs : List Json} (h : ∀ v ∈ vs, StepsOrDerails depth v)
    (level : Nat) (tail : List Char) {bound : Nat} {read : List Json} {s s' : Scan} {w : Json}
    (hs : s.rest = undouble (elementsTail level vs tail))
    (hread : readElements (readValue depth) bound false read s = .ok (w, s')) :
    (∃ ws, w = .array (read.reverse ++ ws) ∧ List.Forall₂ InStep vs ws ∧
      s'.rest = undouble tail) ∨ Derailed s'.rest := by
  obtain ⟨rest, p⟩ := s
  simp only at hs
  subst hs
  -- element by element: each is read in step, or it derails all that follow
  induction vs generalizing bound read p with
  | nil =>
      cases bound with
      | zero => cases hread
      | succ bound =>
          obtain ⟨q, hq⟩ := readElements_end (readValue depth) bound (blank_newline level)
            (undouble tail) p false read
          rw [undouble_elementsTail_nil, hq] at hread
          cases hread
          exact .inl ⟨[], by simp, .nil, rfl⟩
  | cons v vs ih =>
      cases bound with
      | zero => cases hread
      | succ bound =>
          obtain ⟨c, cs, hcs, hblank, hne⟩ :=
            prettyText_opens (level + 1) v (elementsTail level vs tail)
          obtain ⟨q, hq⟩ := readElements_next (readValue depth) bound (blank_newline (level + 1))
            hblank cs p hne read
          rw [undouble_elementsTail_cons, hcs, hq, ← hcs] at hread
          obtain ⟨⟨x, rest, p'⟩, hx, hread⟩ := exists_of_bind_ok hread
          rcases h v (by simp) _ _ _ _ _ (endsLine_elementsTail level vs tail) hx with
            ⟨hstep, hrest⟩ | hd
          · simp only at hrest
            subst hrest
            rcases ih (fun v hv => h v (by simp [hv])) _ hread with ⟨ws, rfl, hws, hr⟩ | hd
            · exact .inl ⟨x :: ws, by simp, .cons hstep hws, hr⟩
            · exact .inr hd
          · -- a reading that has derailed stays so to the end of the list
            exact .inr (readElements_derailed readValue_derailed hread hd)

/-- One member: its key is read between its own quotes and its value in step, or the rest is
derailed. -/
theorem readMember_inStep {depth : Nat} {k : String} {v : Json} (hv : StepsOrDerails depth v)
    (level : Nat) {tail : List Char} (ht : EndsLine (undouble tail)) {p : Position}
    {m : String × Json} {s' : Scan}
    (h : readMember (readValue depth) ⟨'"' :: (writtenText k.toList ++ '"' :: ':' :: ' ' ::
      undouble (prettyText level v ++ tail)), p⟩ = .ok (m, s')) :
    (Rereads k m.1 ∧ InStep v m.2 ∧ s'.rest = undouble tail) ∨ Derailed s'.rest := by
  obtain ⟨chars, rest, s₁, hm, hs, hp, hx⟩ := readMember_cases rfl h
  rcases spells_or_derailed (lost_member level v ht) hs with rfl | hd
  · -- the key closed where it should, so the value is read from its own text
    obtain ⟨q, hq⟩ := readMember_eq (readValue depth) p hs
    obtain ⟨c, cs, hcs, hblank, -⟩ := prettyText_opens level v tail
    obtain ⟨q', hq'⟩ := readValue_blank hblank depth cs q
    rw [hq, hcs, hq', ← hcs] at h
    obtain ⟨⟨x, t⟩, hx', h⟩ := exists_of_bind_ok h
    cases h
    rcases hv level tail q' x _ ht hx' with ⟨hstep, hrest⟩ | hd
    · exact .inl ⟨⟨_, by simpa using hs⟩, hstep, hrest⟩
    · exact .inr hd
  · exact .inr (readValue_derailed hx (hd.of_plainly hp))

theorem readMembers_inStep {depth : Nat} {ms : Members} (h : ∀ m ∈ ms, StepsOrDerails depth m.2)
    (level : Nat) (tail : List Char) {bound : Nat} {read : Members} {s s' : Scan} {w : Json}
    (hs : s.rest = undouble (membersTail level ms tail))
    (hread : readMembers (readValue depth) bound false read s = .ok (w, s')) :
    (∃ ns : Members, w = .object (ns.foldl (fun members m => Members.put m.1 m.2 members) read) ∧
      List.Forall₂ (fun m n => Rereads m.1 n.1 ∧ InStep m.2 n.2) ms ns ∧
      s'.rest = undouble tail) ∨ Derailed s'.rest := by
  obtain ⟨rest, p⟩ := s
  simp only at hs
  subst hs
  induction ms generalizing bound read p with
  | nil =>
      cases bound with
      | zero => cases hread
      | succ bound =>
          obtain ⟨q, hq⟩ := readMembers_end (readValue depth) bound (blank_newline level)
            (undouble tail) p read false
          rw [undouble_membersTail_nil, hq] at hread
          cases hread
          exact .inl ⟨[], rfl, .nil, rfl⟩
  | cons m ms ih =>
      cases bound with
      | zero => cases hread
      | succ bound =>
          obtain ⟨q, hq⟩ := readMembers_next (readValue depth) bound (blank_newline (level + 1))
            (writtenText m.1.toList ++ '"' :: ':' :: ' ' ::
              undouble (prettyText (level + 1) m.2 ++ membersTail level ms tail)) p read
          rw [undouble_membersTail_cons, hq] at hread
          obtain ⟨⟨n, rest, p'⟩, hn, hread⟩ := exists_of_bind_ok hread
          rcases readMember_inStep (h m (by simp)) (level + 1) (endsLine_membersTail level ms tail) hn
            with ⟨hk, hstep, hrest⟩ | hd
          · simp only at hrest
            subst hrest
            rcases ih (fun m hm => h m (by simp [hm])) _ hread with ⟨ns, rfl, hns, hr⟩ | hd
            · exact .inl ⟨n :: ns, rfl, .cons ⟨hk, hstep⟩ hns, hr⟩
            · exact .inr hd
          · exact .inr (readMembers_derailed readValue_derailed hread hd)

theorem stepsOrDerails_array {depth : Nat} {vs : List Json}
    (h : ∀ v ∈ vs, StepsOrDerails depth v) : StepsOrDerails (depth + 1) (.array vs) := by
  intro level tail p w s ht hread
  cases vs with
  | nil =>
      obtain ⟨q, hq⟩ := readElements_end (readValue depth) (undouble tail).length.succ blank_nil
        (undouble tail) (p.advance '[') true []
      rw [undouble_array_nil, readValue_list] at hread
      cases hread.symm.trans hq
      exact .inl ⟨.array .nil, rfl⟩
  | cons v vs =>
      rw [undouble_array_cons, readValue_list] at hread
      obtain ⟨c, cs, hcs, hblank, hne⟩ := prettyText_opens (level + 1) v (elementsTail level vs tail)
      obtain ⟨q, hq⟩ := readElements_first (readValue depth) (newline (level + 1) ++ c :: cs).length
        (blank_newline (level + 1)) hblank cs (p.advance '[') hne []
      rw [hcs, hq, ← hcs] at hread
      obtain ⟨⟨x, t⟩, hx, hread⟩ := exists_of_bind_ok hread
      rcases h v (by simp) _ _ _ _ _ (endsLine_elementsTail level vs tail) hx with
        ⟨hstep, hrest⟩ | hd
      · rcases readElements_inStep (fun v hv => h v (by simp [hv])) level tail hrest hread with
          ⟨ws, rfl, hws, hr⟩ | hd
        · exact .inl ⟨.array (.cons hstep hws), hr⟩
        · exact .inr hd
      · exact .inr (readElements_derailed readValue_derailed hread hd)

theorem inStep_object {ms ns : Members}
    (h : List.Forall₂ (fun m n => Rereads m.1 n.1 ∧ InStep m.2 n.2) ms ns) :
    InStep (.object ms) (.object (Members.ofList ns)) := by
  refine .object ?_ ?_
  · rw [Members.keys, Members.keys, List.forall₂_map_left_iff, List.forall₂_map_right_iff]
    exact h.imp fun _ _ hm => hm.1
  · rw [List.forall₂_map_left_iff, List.forall₂_map_right_iff]
    exact h.imp fun _ _ hm => hm.2

theorem stepsOrDerails_object {depth : Nat} {ms : Members}
    (h : ∀ m ∈ ms, StepsOrDerails depth m.2) : StepsOrDerails (depth + 1) (.object ms) := by
  intro level tail p w s ht hread
  cases ms with
  | nil =>
      obtain ⟨q, hq⟩ := readMembers_end (readValue depth) (undouble tail).length.succ blank_nil
        (undouble tail) (p.advance '\x7b') [] true
      rw [undouble_object_nil, readValue_object] at hread
      cases hread.symm.trans hq
      exact .inl ⟨inStep_object .nil, rfl⟩
  | cons m ms =>
      rw [undouble_object_cons, readValue_object] at hread
      obtain ⟨q, hq⟩ := readMembers_first (readValue depth) (newline (level + 1) ++ '"' ::
          (writtenText m.1.toList ++ '"' :: ':' :: ' ' ::
            undouble (prettyText (level + 1) m.2 ++ membersTail level ms tail))).length
        (blank_newline (level + 1)) (writtenText m.1.toList ++ '"' :: ':' :: ' ' ::
          undouble (prettyText (level + 1) m.2 ++ membersTail level ms tail)) (p.advance '\x7b') []
      rw [hq] at hread
      obtain ⟨⟨n, t⟩, hn, hread⟩ := exists_of_bind_ok hread
      rcases readMember_inStep (h m (by simp)) (level + 1) (endsLine_membersTail level ms tail) hn
        with ⟨hk, hstep, hrest⟩ | hd
      · rcases readMembers_inStep (fun m hm => h m (by simp [hm])) level tail hrest hread with
          ⟨ns, rfl, hns, hr⟩ | hd
        · exact .inl ⟨@inStep_object _ (n :: ns) (.cons ⟨hk, hstep⟩ hns), hr⟩
        · exact .inr hd
      · exact .inr (readMembers_derailed readValue_derailed hread hd)

/-- **A document that is read is read text by text**, unless the reading derailed. -/
theorem readValue_inStep {depth : Nat} {v : Json} (hv : Sound depth v) :
    StepsOrDerails depth v := by
  -- words and numbers hold no quote, so nothing can go wrong with them
  have hbare : ∀ {depth : Nat} {v : Json}, Sound depth v → v.isBare = true →
      StepsOrDerails depth v := by
    intro depth v hv hb level tail p w s ht hread
    obtain ⟨w', q, hq, hw'⟩ := readValue_bare hv hb ht.endsValue depth p
    rw [undouble_bare hb, hq] at hread
    cases hread
    exact .inl ⟨.bare hb (hw' Eq), rfl⟩
  induction hv with
  | null => exact hbare .null rfl
  | bool => exact hbare .bool rfl
  | integer hl hh => exact hbare (.integer hl hh) rfl
  | double hx => exact hbare (.double hx) rfl
  | @string depth t =>
      intro level tail p w s ht hread
      rw [undouble_string] at hread
      obtain ⟨chars, rfl, hs⟩ := spells_of_readValue hread
      rcases spells_or_derailed (lost_of_endsLine ht) hs with hr | hd
      · rw [hr] at hs
        exact .inl ⟨.string ⟨_, by simpa using hs⟩, hr⟩
      · exact .inr hd
  | array _ ih => exact stepsOrDerails_array ih
  | object _ _ ih => exact stepsOrDerails_object ih

/-! ### Nothing got lost -/

/-- The same for one value after the other. -/
theorem forall₂_alike {vs ws es : List Json}
    (ih : ∀ v ∈ vs, ∀ {w e : Json}, InStep v w → Alike (fun _ _ => True) v e → SameTexts e w →
      Alike Rereads v e)
    (h : List.Forall₂ InStep vs ws) (hshape : List.Forall₂ (Alike fun _ _ => True) vs es)
    (he : List.Forall₂ SameTexts es ws) : List.Forall₂ (Alike Rereads) vs es := by
  induction h generalizing es with
  | nil =>
      cases hshape
      exact .nil
  | @cons v w vs ws hv _ ihs =>
      cases hshape with
      | cons hs hss =>
          cases he with
          | cons he hes =>
              exact .cons (ih v (by simp) hv hs he) (ihs (fun v hv => ih v (by simp [hv])) hss hes)

/-- Objects have as many members as keys that correspond. -/
theorem length_eq_of_keys {R : String → String → Prop} {ms ns : Members}
    (h : List.Forall₂ R ms.keys ns.keys) : ms.length = ns.length := by
  simpa [Members.keys] using h.length_eq

/-- If what was read has the texts of a value of the same shape, every text was read back in its
place. -/
theorem InStep.alike {v w e : Json} (h : InStep v w) (hshape : Alike (fun _ _ => True) v e)
    (he : SameTexts e w) : Alike Rereads v e := by
  induction v using Json.induction generalizing w e with
  | null => cases hshape; exact .null
  | bool b => cases hshape; exact .bool
  | integer n => cases hshape; exact .integer
  | double x => cases hshape; exact .double
  | string s =>
      cases h with
      | bare hb _ => cases hb
      | string hst =>
          cases he with
          | string heq => exact .string (heq ▸ hst)
  | array vs ih =>
      cases h with
      | bare hb _ => cases hb
      | array hws =>
          cases he with
          | array hes =>
              cases hshape with
              | array hss => exact .array (forall₂_alike (fun v hv => ih v hv) hws hss hes)
  | object ms ih =>
      cases h with
      | bare hb _ => cases hb
      | @object _ ns hkeys hvalues =>
          generalize hw : Members.ofList ns = ns' at he
          cases he with
          | @object es _ hkeys' hvalues' =>
              cases hshape with
              | object hk hs =>
                  -- as many members were read as there were, so no key replaced another
                  have hlen : (Members.ofList ns).length = ns.length := by
                    rw [hw, ← length_eq_of_keys hkeys', ← length_eq_of_keys hk,
                      length_eq_of_keys hkeys]
                  rw [Members.ofList_of_length hlen] at hw
                  subst hw
                  rw [List.forall₂_eq_eq_eq] at hkeys'
                  refine .object (hkeys' ▸ hkeys) (forall₂_alike ?_ hvalues hs hvalues')
                  intro v hv
                  obtain ⟨m, hm, rfl⟩ := List.mem_map.1 hv
                  exact ih m hm

end SchemaScope.Descriptor
