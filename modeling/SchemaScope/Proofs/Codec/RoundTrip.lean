/-
**Rules and configurations through JSON and back.**

What is written as JSON is read back as it was: a configuration always, and rules of the annotator
exactly if the values of their members are words of 64 bits.  Readers accept more than writers
write.  Records come as objects with members in any order or as arrays, and fields may be missing.
But whatever is read satisfies what is needed to be read back.  Therefore a second pass through
reading and writing changes nothing.

A record is read field by field into a draft, so what holds of all records that are read is shown as
an invariant of the draft.

Main definitions:

* `IsWord`, `HighlightRule.FitsWords` — words of 64 bits, and rules whose members have such values;
* `Decode.pass` — a JSON value read and written again;
* `RecordFormat.Maintains` — an invariant of the drafts of a format, and what it says of records.

Main results:

* `Decode.list_map_eq_ok_iff` — a list is read back if its elements are;
* `RecordFormat.Maintains.decode` — what holds of all records that are read;
* `HighlightRule.decodeAll_encodeAll_iff`, `HighlightRule.fitsWords_of_decodeAll` — which rules are
  read back, and which are read;
* `rules_and_configs_round_trip` — **rules and configurations are read back as they were written**,
  and one pass through JSON is as good as many.
-/

import SchemaScope.Proofs.Config.Overriding
import SchemaScope.Codec.HighlightRule

set_option autoImplicit false

namespace SchemaScope

/-! ### Lists and passes -/

namespace Decode

variable {α : Type} {read : Json → Except DecodeError α} {write : α → Json}

/-- A list is read back if each of its elements is. -/
theorem list_map_eq_ok_iff (xs : List α) :
    list read (.array (xs.map write)) = .ok xs ↔ ∀ x ∈ xs, read (write x) = .ok x := by
  rw [list, mapM_eq_ok_iff, List.forall₂_map_left_iff, List.forall₂_same]

/-- What holds of all that is read holds of the elements of a list that is read. -/
theorem forall_of_list {Q : α → Prop} (h : ∀ v a, read v = .ok a → Q a) {v : Json} {xs : List α}
    (hv : list read v = .ok xs) : ∀ x ∈ xs, Q x := by
  cases v with
  | array elements =>
      have hall := (mapM_eq_ok_iff read elements xs).1 hv
      clear hv
      induction hall with
      | nil => exact nofun
      | cons hx _ ih => exact List.forall_mem_cons.2 ⟨h _ _ hx, ih⟩
  | null | bool _ | integer _ | double _ | string _ | object _ => cases hv

/-- A value read and written again. -/
def pass (read : Json → Except DecodeError α) (write : α → Json) (v : Json) :
    Except DecodeError Json :=
  (read v).map write

/-- If all that is read is read back, a second pass changes nothing. -/
theorem pass_of_pass (h : ∀ v a, read v = .ok a → read (write a) = .ok a) {v w : Json}
    (hpass : pass read write v = .ok w) : pass read write w = .ok w := by
  unfold pass at hpass ⊢
  cases hread : read v with
  | error e =>
      rw [hread] at hpass
      cases hpass
  | ok a =>
      rw [hread] at hpass
      obtain rfl := Except.ok.inj hpass
      rw [h v a hread]
      rfl

end Decode

theorem exists_of_map_ok {ε α β : Type} {x : Except ε α} {f : α → β} {b : β}
    (h : x.map f = .ok b) : ∃ a, x = .ok a ∧ f a = b := by
  cases x with
  | error e => cases h
  | ok a => exact ⟨a, rfl, Except.ok.inj h⟩

theorem eq_some_of_required {α : Type} {name : String} {x : Option α} {a : α}
    (h : required name x = .ok a) : x = some a := by
  cases x with
  | none => cases h
  | some b => exact congrArg some (Except.ok.inj h)

/-! ### What holds of all records -/

namespace RecordFormat

variable {δ α : Type} {f : RecordFormat δ α} {P : δ → Prop} {Q : α → Prop}

/-- What holds of the empty draft is kept with every field that is read, and says something of the
record in the end. -/
structure Maintains (f : RecordFormat δ α) (P : δ → Prop) (Q : α → Prop) : Prop where
  start : P f.start
  read : ∀ draft key value draft', P draft → f.read draft key value = .ok draft' → P draft'
  finish : ∀ draft a, P draft → f.finish draft = .ok a → Q a

theorem Maintains.readAll (h : f.Maintains P Q) {members : List (String × Json)} {draft : δ}
    (hread : f.readAll members = .ok draft) : P draft := by
  have hfold : ∀ (members : List (String × Json)) (d : δ), P d →
      members.foldlM (fun d m => f.read d m.1 m.2) d = .ok draft → P draft := by
    intro members
    induction members with
    | nil =>
        intro d hd hok
        obtain rfl := Except.ok.inj hok
        exact hd
    | cons m members ih =>
        intro d hd hok
        rw [List.foldlM_cons] at hok
        obtain ⟨d', hm, hrest⟩ := Json.exists_of_bind_ok hok
        exact ih d' (h.read d m.1 m.2 d' hd hm) hrest
  exact hfold members f.start h.start hread

theorem Maintains.ofMembers (h : f.Maintains P Q) {members : List (String × Json)} {a : α}
    (ha : f.ofMembers members = .ok a) : Q a := by
  obtain ⟨draft, hdraft, hfinish⟩ := Json.exists_of_bind_ok ha
  exact h.finish draft a (h.readAll hdraft) (Json.ok_of_mapError hfinish)

theorem Maintains.ofElements (h : f.Maintains P Q) {elements : List Json} {a : α}
    (ha : f.ofElements elements = .ok a) : Q a := by
  obtain ⟨draft, hdraft, hfinish⟩ := Json.exists_of_bind_ok ha
  split at hfinish
  · cases hfinish
  · exact h.finish draft a (h.readAll hdraft) (Json.ok_of_mapError hfinish)

/-- **What an invariant of the drafts says holds of all records that are read.** -/
theorem Maintains.decode (h : f.Maintains P Q) (value : Json) (a : α)
    (ha : f.decode value = .ok a) : Q a := by
  cases value with
  | object members => exact h.ofMembers ha
  | array elements => exact h.ofElements ha
  | null | bool _ | integer _ | double _ | string _ => cases ha

end RecordFormat

/-! ### Members of enumerations -/

/-- A word of 64 bits with a sign. -/
def IsWord (n : Int) : Prop := -2 ^ 63 ≤ n ∧ n < 2 ^ 63

theorem integerIn_signed64_iff {v : Json} {n : Int} :
    Decode.integerIn Decode.signed64 v = .ok n ↔ v = .integer n ∧ IsWord n := by
  have hrange (k : Int) :
      (Decode.signed64.least ≤ k ∧ k ≤ Decode.signed64.greatest) ↔ IsWord k := by
    rw [IsWord, ← Int.le_sub_one_iff]
    rfl
  cases v with
  | integer k =>
      rw [Decode.integerIn]
      constructor
      · intro h
        split at h
        · next hk =>
          obtain rfl := Except.ok.inj h
          exact ⟨rfl, (hrange k).1 hk⟩
        · cases h
      · rintro ⟨hk, hn⟩
        obtain rfl := Json.integer.inj hk
        exact if_pos ((hrange k).2 hn)
  | null | bool _ | double _ | string _ | array _ | object _ =>
      exact ⟨nofun, fun h => nomatch h.1⟩

theorem ofMembers_member_iff (name value : Json) (m : String × Int) :
    memberFormat.ofMembers [("name", name), ("value", value)] = .ok m ↔
      Decode.text name = .ok m.1 ∧ Decode.integerIn Decode.signed64 value = .ok m.2 := by
  obtain ⟨name', value'⟩ := m
  cases hname : Decode.text name <;> cases hvalue : Decode.integerIn Decode.signed64 value <;>
    simp [RecordFormat.ofMembers, RecordFormat.readAll, memberFormat, hname, hvalue, required, bind,
      Except.bind, Except.map, Except.mapError, pure, Except.pure]

/-- A member of an enumeration is read back if its value is a word. -/
theorem decode_encodeMember_iff (m : String × Int) :
    memberFormat.decode (encodeMember m) = .ok m ↔ IsWord m.2 := by
  rw [encodeMember, RecordFormat.decode, ofMembers_member_iff, integerIn_signed64_iff]
  exact ⟨fun h => h.2.2, fun h => ⟨rfl, rfl, h⟩⟩

/-- The members of enumerations that are read have words for values. -/
theorem isWord_of_decode (v : Json) (m : String × Int) (h : memberFormat.decode v = .ok m) :
    IsWord m.2 := by
  have hmaintains : memberFormat.Maintains (fun d => ∀ n, d.value = some n → IsWord n)
      fun m => IsWord m.2 := by
    refine ⟨nofun, ?_, ?_⟩
    · intro d key value d' hd hread
      simp only [memberFormat] at hread
      split at hread
      · obtain ⟨name, -, rfl⟩ := exists_of_map_ok hread
        exact hd
      · split at hread
        · obtain ⟨k, hk, rfl⟩ := exists_of_map_ok hread
          rintro n hn
          obtain rfl := Option.some.inj hn
          exact (integerIn_signed64_iff.1 hk).2
        · obtain rfl := Except.ok.inj hread
          exact hd
    · intro d m hd hfinish
      obtain ⟨name, -, hfinish⟩ := Json.exists_of_bind_ok hfinish
      obtain ⟨n, hn, hfinish⟩ := Json.exists_of_bind_ok hfinish
      obtain rfl := Except.ok.inj hfinish
      exact hd n (eq_some_of_required hn)
  exact hmaintains.decode v m h

/-! ### Value rules -/

namespace ValueRule

/-- The values of the members are words. -/
def FitsWords (r : ValueRule) : Prop := ∀ m ∈ r.members, IsWord m.2

theorem ofMembers_iff (key members : Json) (r : ValueRule) :
    format.ofMembers [("attribute", key), ("members", members)] = .ok r ↔
      Decode.text key = .ok r.key ∧ Decode.list memberFormat.decode members = .ok r.members ∧
        r.ancestor = none := by
  obtain ⟨key', members', ancestor'⟩ := r
  cases hkey : Decode.text key <;> cases hmembers : Decode.list memberFormat.decode members <;>
    simp [RecordFormat.ofMembers, RecordFormat.readAll, format, hkey, hmembers, required, bind,
      Except.bind, Except.map, Except.mapError, pure, Except.pure, eq_comm]

theorem ofMembers_ancestor_iff (key members ancestor : Json) (r : ValueRule) :
    format.ofMembers [("attribute", key), ("members", members), ("ancestor", ancestor)] = .ok r ↔
      Decode.text key = .ok r.key ∧ Decode.list memberFormat.decode members = .ok r.members ∧
        Decode.optional Decode.text ancestor = .ok r.ancestor := by
  obtain ⟨key', members', ancestor'⟩ := r
  cases hkey : Decode.text key <;> cases hmembers : Decode.list memberFormat.decode members <;>
    cases hancestor : Decode.optional Decode.text ancestor <;>
    simp [RecordFormat.ofMembers, RecordFormat.readAll, format, hkey, hmembers, hancestor, required,
      bind, Except.bind, Except.map, Except.mapError, pure, Except.pure]

/-- A value rule is read back if the values of its members are words. -/
theorem ofMembers_encodeMembers_iff (r : ValueRule) :
    format.ofMembers r.encodeMembers = .ok r ↔ r.FitsWords := by
  have hmembers : Decode.list memberFormat.decode (.array (r.members.map encodeMember)) =
      .ok r.members ↔ r.FitsWords := by
    rw [Decode.list_map_eq_ok_iff]
    simp only [decode_encodeMember_iff]
    rfl
  obtain ⟨key, members, ancestor⟩ := r
  cases ancestor with
  | none => exact (ofMembers_iff _ _ _).trans (by simp [hmembers, Decode.text])
  | some name =>
      refine (ofMembers_ancestor_iff _ _ _ _).trans ?_
      simp [hmembers, Decode.text, Decode.optional, Except.map]

/-- The values of the members of all value rules that are read are words. -/
theorem maintains_fitsWords :
    format.Maintains (fun d => ∀ ms, d.members = some ms → ∀ m ∈ ms, IsWord m.2) FitsWords := by
  refine ⟨nofun, ?_, ?_⟩
  · intro d key value d' hd hread
    simp only [format] at hread
    split at hread
    · obtain ⟨_, -, rfl⟩ := exists_of_map_ok hread
      exact hd
    · split at hread
      · obtain ⟨members, hmembers, rfl⟩ := exists_of_map_ok hread
        rintro ms hms
        obtain rfl := Option.some.inj hms
        exact Decode.forall_of_list isWord_of_decode hmembers
      · split at hread
        · obtain ⟨_, -, rfl⟩ := exists_of_map_ok hread
          exact hd
        · obtain rfl := Except.ok.inj hread
          exact hd
  · intro d r hd hfinish
    obtain ⟨key, -, hfinish⟩ := Json.exists_of_bind_ok hfinish
    obtain ⟨members, hmembers, hfinish⟩ := Json.exists_of_bind_ok hfinish
    obtain rfl := Except.ok.inj hfinish
    exact hd members (eq_some_of_required hmembers)

end ValueRule

/-! ### Rules of the annotator -/

namespace HighlightRule

/-- The values of the members of a rule are words. -/
def FitsWords : HighlightRule → Prop
  | .value r => r.FitsWords
  | .businessRule => True

/-- The kind of a value rule stands beside its other members. -/
theorem decode_encode_value (r : ValueRule) :
    decode (encode (.value r)) = (ValueRule.format.ofMembers r.encodeMembers).map .value := by
  have hothers : ((RuleKind.field, Json.string (RuleKind.name .value)) :: r.encodeMembers).filter
      (fun m => m.1 ≠ RuleKind.field) = r.encodeMembers := by
    unfold ValueRule.encodeMembers
    cases r.ancestor <;> simp [RuleKind.field]
  have hdecode : decode (encode (.value r)) = ofMembers
      (((RuleKind.field, Json.string (RuleKind.name .value)) :: r.encodeMembers).filter
        fun m => m.1 ≠ RuleKind.field) .value := rfl
  rw [hdecode, hothers, ofMembers]

/-- A rule is read back if the values of its members are words. -/
theorem decode_encode_iff (rule : HighlightRule) :
    decode rule.encode = .ok rule ↔ rule.FitsWords := by
  cases rule with
  | value r =>
      rw [decode_encode_value, FitsWords, ← r.ofMembers_encodeMembers_iff]
      constructor
      · intro h
        obtain ⟨r', hr', hvalue⟩ := exists_of_map_ok h
        rw [hr', HighlightRule.value.inj hvalue]
      · intro h
        rw [h]
        rfl
  | businessRule => exact iff_of_true rfl trivial

/-- The values of the members of rules that are read are words. -/
theorem fitsWords_of_decode (v : Json) (rule : HighlightRule) (h : decode v = .ok rule) :
    rule.FitsWords := by
  cases v with
  | object members =>
      rw [decode] at h
      split at h
      · obtain ⟨kind, -, hrule⟩ := Json.exists_of_bind_ok h
        cases kind with
        | value =>
            obtain ⟨r, hr, rfl⟩ := exists_of_map_ok hrule
            exact ValueRule.maintains_fitsWords.ofMembers hr
        | businessRule =>
            obtain rfl := Except.ok.inj hrule
            trivial
      · cases h
  | array elements =>
      cases elements with
      | nil => cases h
      | cons first elements =>
          obtain ⟨kind, -, hrule⟩ := Json.exists_of_bind_ok h
          cases kind with
          | value =>
              obtain ⟨r, hr, rfl⟩ := exists_of_map_ok hrule
              exact ValueRule.maintains_fitsWords.ofElements hr
          | businessRule =>
              rw [ofElements] at hrule
              split at hrule
              · obtain rfl := Except.ok.inj hrule
                trivial
              · cases hrule
  | null | bool _ | integer _ | double _ | string _ => cases h

/-- Rules are read back if the values of all their members are words. -/
theorem decodeAll_encodeAll_iff (rules : List HighlightRule) :
    decodeAll (encodeAll rules) = .ok rules ↔ ∀ rule ∈ rules, rule.FitsWords := by
  rw [decodeAll, encodeAll, Decode.list_map_eq_ok_iff]
  simp only [decode_encode_iff]

theorem fitsWords_of_decodeAll {v : Json} {rules : List HighlightRule}
    (h : decodeAll v = .ok rules) : ∀ rule ∈ rules, rule.FitsWords :=
  Decode.forall_of_list fitsWords_of_decode h

end HighlightRule

/-- A configuration is read back. -/
theorem Config.decode_encode (c : Config) : decode c.encode = .ok c :=
  (ofMembers_iff _ _ _ _ _ c).2 ⟨rfl, rfl, rfl, rfl,
    (ofMembers_region_iff _ _ c.region).2 ⟨rfl, decodeAll_encode c.region.rules⟩⟩

/-! ### There and back -/

open HighlightRule in
/-- **Rules and configurations are read back as they were written.**  Rules are read back exactly if
the values of their members are words of 64 bits, and configurations always.  Whatever rules or
configuration are read from some JSON value, what is written for them is left as it is by every
further pass. -/
theorem rules_and_configs_round_trip :
    (∀ rules, decodeAll (encodeAll rules) = .ok rules ↔ ∀ rule ∈ rules, rule.FitsWords) ∧
      (∀ c : Config, Config.decode c.encode = .ok c) ∧
      (∀ v rules, decodeAll v = .ok rules → decodeAll (encodeAll rules) = .ok rules) ∧
      (∀ v w, Decode.pass decodeAll encodeAll v = .ok w →
        Decode.pass decodeAll encodeAll w = .ok w) ∧
      ∀ v w, Decode.pass Config.decode Config.encode v = .ok w →
        Decode.pass Config.decode Config.encode w = .ok w := by
  have hrules : ∀ v rules, decodeAll v = .ok rules → decodeAll (encodeAll rules) = .ok rules :=
    fun v rules h => (decodeAll_encodeAll_iff rules).2 (fitsWords_of_decodeAll h)
  exact ⟨decodeAll_encodeAll_iff, Config.decode_encode, hrules,
    fun _ _ => Decode.pass_of_pass hrules,
    fun _ _ => Decode.pass_of_pass fun _ c _ => c.decode_encode⟩

/-- Rules with the least and the greatest word, and with and without an ancestor. -/
def extremeRules : List HighlightRule :=
  [.value ⟨"type", [("LEAST", -2 ^ 63), ("GREATEST", 2 ^ 63 - 1)], some "diff"⟩, .businessRule,
    .value ⟨"itemType", [], none⟩]

/-- The same rules in other forms: as arrays, with members that mean nothing, with a missing
ancestor written as `null`, and with the kind behind other members. -/
def looseRules : Json :=
  .array [.array [.string "value", .string "type", .array [
      .object [("value", .integer (-2 ^ 63)), ("name", .string "LEAST"), ("note", .null)],
      .array [.string "GREATEST", .integer (2 ^ 63 - 1)]], .string "diff"],
    .array [.string "businessRule"],
    .object [("members", .array []), ("ancestor", .null), ("kind", .string "value"),
      ("attribute", .string "itemType")]]

/-- The rules are read back, also if they come in other forms.  With a value that is no word they
would not be. -/
theorem rules_and_configs_round_trip_extremeRules :
    HighlightRule.decodeAll looseRules = .ok extremeRules ∧
      HighlightRule.decodeAll (HighlightRule.encodeAll extremeRules) = .ok extremeRules ∧
      Decode.pass HighlightRule.decodeAll HighlightRule.encodeAll looseRules =
        .ok (HighlightRule.encodeAll extremeRules) ∧
      Decode.pass HighlightRule.decodeAll HighlightRule.encodeAll
        (HighlightRule.encodeAll extremeRules) = .ok (HighlightRule.encodeAll extremeRules) ∧
      HighlightRule.decodeAll (HighlightRule.encodeAll [.value ⟨"type", [("A", 2 ^ 63)], none⟩]) ≠
        .ok [.value ⟨"type", [("A", 2 ^ 63)], none⟩] := by
  obtain ⟨hback, -, hread, hpass, -⟩ := rules_and_configs_round_trip
  have hloose : HighlightRule.decodeAll looseRules = .ok extremeRules := rfl
  have hfirst : Decode.pass HighlightRule.decodeAll HighlightRule.encodeAll looseRules =
      .ok (HighlightRule.encodeAll extremeRules) := by
    rw [Decode.pass, hloose]
    rfl
  have hwide : ¬ ∀ rule ∈ [HighlightRule.value ⟨"type", [("A", 2 ^ 63)], none⟩],
      rule.FitsWords := by
    intro h
    have hword := h _ (List.mem_singleton_self _) ("A", 2 ^ 63) (List.mem_singleton_self _)
    exact absurd hword.2 (by decide)
  exact ⟨hloose, hread _ _ hloose, hfirst, hpass _ _ hfirst, mt (hback _).1 hwide⟩

end SchemaScope
