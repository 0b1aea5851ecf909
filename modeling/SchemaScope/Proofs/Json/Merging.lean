/-
**Overriding one value by another.**

An override is merged into an object member by member, in the order of the override.  What comes of
it can be told at once: the members of the base stay in their places, each overridden by what the
override has under its key, and behind them stand the members that only the override has, nulls
apart.  From this it follows that a second merge with the same override changes nothing.  The first
merge takes some values over as they are, and the second one merges them with themselves; so the
argument rests on merging a value into itself.

All this needs that an object holds each key once, which is so for every value that is read from a
text and which merging keeps so.

Main definitions:

* `Json.keysApart` — every object in a value holds each key once;
* `Members.overridden`, `Members.added` — a member after an override, and the members that an
  override adds.

Main results:

* `Json.merge_cases` — what merging comes to, by the kinds of the two values;
* `Json.mergeMembers_eq` — **the members of an object after an override**;
* `Json.get?_mergeMembers` — what stands under a key after an override;
* `Json.keysApart_of_parseChars`, `Json.keysApart_merge` — keys are apart in what is read, and stay
  so;
* `Json.merge_idempotent` — **an override that is applied twice does what it does once**.
-/

import SchemaScope.Proofs.Json.Sound
import SchemaScope.Proofs.Json.Texts

set_option autoImplicit false

namespace SchemaScope

namespace Json

/-! ### Keys that are apart -/

mutual

/-- Whether every object in a value holds each key once. -/
def keysApart : Json → Bool
  | .array vs => keysApartInElements vs
  | .object ms => decide (Members.keys ms).Nodup && keysApartInMembers ms
  | .null | .bool _ | .integer _ | .double _ | .string _ => true

/-- Whether every object in elements holds each key once. -/
def keysApartInElements : List Json → Bool
  | [] => true
  | v :: rest => keysApart v && keysApartInElements rest

/-- Whether every object in the values of members holds each key once. -/
def keysApartInMembers : List (String × Json) → Bool
  | [] => true
  | (_, v) :: rest => keysApart v && keysApartInMembers rest

end

theorem keysApart_array_iff {vs : List Json} :
    (Json.array vs).keysApart = true ↔ ∀ v ∈ vs, v.keysApart = true := by
  rw [keysApart]
  induction vs with
  | nil => simp [keysApartInElements]
  | cons v vs ih => simp [keysApartInElements, ih]

theorem keysApart_object_iff {ms : Members} :
    (Json.object ms).keysApart = true ↔ ms.keys.Nodup ∧ ∀ m ∈ ms, m.2.keysApart = true := by
  have hmembers : keysApartInMembers ms = true ↔ ∀ m ∈ ms, m.2.keysApart = true := by
    induction ms with
    | nil => simp [keysApartInMembers]
    | cons m ms ih => simp only [keysApartInMembers, Bool.and_eq_true, ih, List.forall_mem_cons]
  rw [keysApart, Bool.and_eq_true, decide_eq_true_iff, hmembers]

theorem Sound.keysApart {depth : Nat} {v : Json} (h : Sound depth v) : v.keysApart = true := by
  induction h with
  | array _ ih => exact keysApart_array_iff.2 ih
  | object hkeys _ ih => exact keysApart_object_iff.2 ⟨hkeys, ih⟩
  | null | bool | integer | double | string => rfl

end Json

/-! ### Members after an override -/

namespace Members

/-- A member after an override. -/
def overridden (os : Members) (m : String × Json) : String × Json :=
  (m.1, (os.get? m.1).elim m.2 m.2.merge)

/-- The members that an override adds to others: those under new keys, nulls apart. -/
def added (ms os : Members) : Members := os.filter fun o => o.1 ∉ ms.keys && !o.2.isNull

theorem overridden_of_get?_eq_none {os : Members} {m : String × Json} (h : os.get? m.1 = none) :
    overridden os m = m := by
  simp [overridden, h]

theorem overridden_of_get? {os : Members} {m : String × Json} {v : Json}
    (h : os.get? m.1 = some v) : overridden os m = (m.1, m.2.merge v) := by
  simp [overridden, h]

/-- The first member of an override comes before the others. -/
theorem overridden_cons {o : String × Json} {os : Members} (ho : o.1 ∉ os.keys)
    (m : String × Json) : overridden (o :: os) m = overridden os (overridden [o] m) := by
  obtain ⟨key, value⟩ := o
  by_cases hm : key = m.1
  · have hnone : os.get? m.1 = none := get?_eq_none_iff.2 (hm ▸ ho)
    simp [overridden, get?, hm, hnone]
  · simp [overridden, get?, hm]

theorem map_overridden_eq_self {ms os : Members} (h : ∀ m ∈ ms, overridden os m = m) :
    ms.map (overridden os) = ms :=
  (List.map_congr_left h).trans (List.map_id' ms)

/-- Members under keys that an override lacks stay as they are. -/
theorem map_overridden_of_notMem {ms os : Members} (h : ∀ key ∈ os.keys, key ∉ ms.keys) :
    ms.map (overridden os) = ms := by
  refine map_overridden_eq_self ?_
  intro m hm
  refine overridden_of_get?_eq_none (get?_eq_none_iff.2 ?_)
  intro hkey
  exact h m.1 hkey (mem_keys_of_mem hm)

@[simp] theorem keys_map_overridden (ms os : Members) :
    keys (ms.map (overridden os)) = ms.keys := by
  simp [keys, overridden, Function.comp_def]

theorem keys_append (xs ys : Members) : keys (xs ++ ys) = keys xs ++ keys ys := List.map_append

theorem mem_added_iff {ms os : Members} {o : String × Json} :
    o ∈ added ms os ↔ o ∈ os ∧ o.1 ∉ ms.keys ∧ o.2.isNull = false := by
  simp [added]

theorem added_cons (ms : Members) (o : String × Json) (os : Members) :
    added ms (o :: os) = added ms [o] ++ added ms os := by
  rw [added, added, added, ← List.filter_append, List.singleton_append]

theorem keys_added_sublist (ms os : Members) : (added ms os).keys.Sublist os.keys :=
  List.filter_sublist.map Prod.fst

/-- The keys of added members are new, and each comes once. -/
theorem nodup_keys_append_added {ms os : Members} (hms : ms.keys.Nodup) (hos : os.keys.Nodup) :
    (ms.keys ++ (added ms os).keys).Nodup := by
  refine List.nodup_append.2 ⟨hms, hos.sublist (keys_added_sublist ms os), ?_⟩
  rintro key hkey _ hadded rfl
  obtain ⟨o, ho, rfl⟩ := List.mem_map.1 hadded
  exact (mem_added_iff.1 ho).2.1 hkey

/-- Putting a value under a key that is there changes the one member that has it. -/
theorem put_merge_eq_map {ms : Members} (hms : ms.keys.Nodup) {key : String} {existing : Json}
    (h : ms.get? key = some existing) (value : Json) :
    ms.put key (existing.merge value) = ms.map (overridden [(key, value)]) := by
  obtain ⟨before, after, rfl, hbefore, hput⟩ := exists_append_of_get? h
  have hafter : key ∉ keys after := by
    have hkeys : (keys before ++ key :: keys after).Nodup := by simpa [keys] using hms
    exact (List.nodup_cons.1 (List.nodup_append.1 hkeys).2.1).1
  rw [hput, List.map_append, List.map_cons,
    map_overridden_of_notMem (by simpa [keys] using hbefore),
    map_overridden_of_notMem (by simpa [keys] using hafter)]
  simp [overridden, get?]

theorem get?_map_overridden (key : String) (ms os : Members) :
    get? key (ms.map (overridden os)) =
      (ms.get? key).map fun existing => (os.get? key).elim existing existing.merge :=
  get?_map (fun k v => (os.get? k).elim v v.merge) key ms

end Members

namespace Json

open Members

/-- One member of an override is merged. -/
theorem mergeMembers_cons {ms : Members} (hms : ms.keys.Nodup) (o : String × Json) (os : Members) :
    mergeMembers ms (o :: os) = mergeMembers (ms.map (overridden [o]) ++ added ms [o]) os := by
  obtain ⟨key, value⟩ := o
  rw [mergeMembers]
  cases hget : ms.get? key with
  | some existing =>
      have hkey : key ∈ ms.keys := by
        by_contra hkey
        rw [get?_eq_none_iff.2 hkey] at hget
        cases hget
      have hadded : added ms [(key, value)] = [] := by simp [added, hkey]
      simp only [put_merge_eq_map hms hget, hadded, List.append_nil]
  | none =>
      have hkey : key ∉ ms.keys := get?_eq_none_iff.1 hget
      rw [map_overridden_of_notMem (by simpa [keys] using hkey)]
      cases hvalue : value.isNull with
      | true => simp [added, hvalue]
      | false => simp [added, hvalue, hkey, put_of_not_mem hkey]

/-- **The members of an object after an override**: those that were there, each overridden in its
place, and those that the override adds. -/
theorem mergeMembers_eq {ms os : Members} (hms : ms.keys.Nodup) (hos : os.keys.Nodup) :
    mergeMembers ms os = ms.map (overridden os) ++ added ms os := by
  induction os generalizing ms with
  | nil =>
      have hfixed : ms.map (overridden []) = ms := map_overridden_of_notMem (by simp [keys])
      simp [mergeMembers, added, hfixed]
  | cons o os ih =>
      obtain ⟨ho, hos'⟩ := List.nodup_cons.1 hos
      have hkeys : keys (ms.map (overridden [o]) ++ added ms [o]) =
          ms.keys ++ (added ms [o]).keys := by
        rw [keys_append, keys_map_overridden]
      have hnodup : (keys (ms.map (overridden [o]) ++ added ms [o])).Nodup :=
        hkeys ▸ nodup_keys_append_added hms (by simp [keys])
      -- the key that comes now does not come again
      have hmembers : (ms.map (overridden [o]) ++ added ms [o]).map (overridden os) =
          ms.map (overridden (o :: os)) ++ added ms [o] := by
        have hadded : (added ms [o]).map (overridden os) = added ms [o] := by
          refine map_overridden_of_notMem ?_
          intro key hkey hold
          have hsame : key = o.1 := by simpa [keys] using (keys_added_sublist ms [o]).subset hold
          exact ho (hsame ▸ hkey)
        have hcomp : overridden os ∘ overridden [o] = overridden (o :: os) :=
          funext fun m => (overridden_cons ho m).symm
        rw [List.map_append, List.map_map, hadded, hcomp]
      have hadded : added (ms.map (overridden [o]) ++ added ms [o]) os = added ms os := by
        refine List.filter_congr ?_
        intro x hx
        have hne : x.1 ∉ (added ms [o]).keys := by
          intro hold
          have hsame : x.1 = o.1 := by simpa [keys] using (keys_added_sublist ms [o]).subset hold
          exact ho (hsame ▸ mem_keys_of_mem hx)
        simp [hkeys, hne]
      rw [mergeMembers_cons hms, ih hnodup hos', hmembers, hadded, List.append_assoc, ← added_cons]

theorem keys_mergeMembers {ms os : Members} (hms : ms.keys.Nodup) (hos : os.keys.Nodup) :
    (mergeMembers ms os).keys = ms.keys ++ (added ms os).keys := by
  rw [mergeMembers_eq hms hos, keys_append, keys_map_overridden]

/-- What stands under a key after an override. -/
theorem get?_mergeMembers {ms os : Members} (hms : ms.keys.Nodup) (hos : os.keys.Nodup)
    (key : String) :
    (mergeMembers ms os).get? key = match ms.get? key with
      | some existing => some ((os.get? key).elim existing existing.merge)
      | none => (os.get? key).filter fun value => !value.isNull := by
  rw [mergeMembers_eq hms hos, Members.get?_append, get?_map_overridden, added, get?_filter hos]
  cases hget : ms.get? key with
  | some existing => rfl
  | none => simp [get?_eq_none_iff.1 hget]

/-! ### Merging values -/

@[simp] theorem merge_null (b : Json) : b.merge .null = b := by rw [merge]

theorem merge_object (ms os : Members) :
    (Json.object ms).merge (.object os) = .object (mergeMembers ms os) := by rw [merge]

/-- An object takes the place of anything but an object. -/
theorem merge_of_ne_object {b : Json} (h : ∀ ms, b ≠ .object ms) (os : Members) :
    b.merge (.object os) = .object os := by
  rw [merge]
  exact h

/-- What merging comes to: `null` overrides nothing, an object is merged into an object, and
otherwise the override takes the place of the base. -/
theorem merge_cases (b o : Json) :
    (o = .null ∧ b.merge o = b) ∨
    (∃ ms os : Members, b = .object ms ∧ o = .object os ∧
      b.merge o = .object (mergeMembers ms os)) ∨
    (o ≠ .null ∧ ((∀ ms, b ≠ .object ms) ∨ ∀ os, o ≠ .object os) ∧ b.merge o = o) := by
  cases o with
  | null => exact .inl ⟨rfl, merge_null b⟩
  | object os =>
      by_cases hb : ∃ ms, b = .object ms
      · obtain ⟨ms, rfl⟩ := hb
        exact .inr (.inl ⟨ms, os, rfl, rfl, merge_object ms os⟩)
      · have hne : ∀ ms, b ≠ .object ms := fun ms hms => hb ⟨ms, hms⟩
        exact .inr (.inr ⟨by simp, .inl hne, merge_of_ne_object hne os⟩)
  | _ => exact .inr (.inr ⟨by simp, .inr (by simp), by rw [merge]⟩)

/-- What is not `null` takes the place of anything but an object. -/
theorem merge_of_ne_null {b o : Json} (hb : ∀ ms, b ≠ .object ms) (ho : o ≠ .null) :
    b.merge o = o := by
  rcases merge_cases b o with ⟨hnull, -⟩ | ⟨ms, -, hms, -, -⟩ | ⟨-, -, h⟩
  · exact absurd hnull ho
  · exact absurd hms (hb ms)
  · exact h

theorem keysApart_of_parseChars {cs : List Char} {v : Json} (h : parseChars cs = .ok v) :
    v.keysApart = true := (sound_of_parseChars h).keysApart

/-- Merging keeps the keys apart. -/
theorem keysApart_merge {b o : Json} (hb : b.keysApart = true) (ho : o.keysApart = true) :
    (b.merge o).keysApart = true := by
  induction o using induction generalizing b with
  | object os ih =>
      rcases merge_cases b (.object os) with ⟨hnull, -⟩ | ⟨ms, os', rfl, hos, h⟩ | ⟨-, -, h⟩
      · cases hnull
      · cases hos
        obtain ⟨hms, hmembers⟩ := keysApart_object_iff.1 hb
        obtain ⟨hos, hoverrides⟩ := keysApart_object_iff.1 ho
        rw [h]
        refine keysApart_object_iff.2 ⟨?_, ?_⟩
        · rw [keys_mergeMembers hms hos]
          exact nodup_keys_append_added hms hos
        · rw [mergeMembers_eq hms hos]
          intro m hm
          rcases List.mem_append.1 hm with hm | hm
          · obtain ⟨x, hx, rfl⟩ := List.mem_map.1 hm
            cases hget : os.get? x.1 with
            | none =>
                rw [overridden_of_get?_eq_none hget]
                exact hmembers x hx
            | some v =>
                have hv : (x.1, v) ∈ os := mem_of_get? hget
                rw [overridden_of_get? hget]
                exact ih _ hv (hmembers x hx) (hoverrides _ hv)
          · exact hoverrides m (mem_added_iff.1 hm).1
      · rw [h]
        exact ho
  | null =>
      rw [merge_null]
      exact hb
  | bool | integer | double | string | array =>
      rw [merge]
      exact ho

/-! ### Merging twice -/

/-- An override changes nothing in an object if each of its members changes nothing there, and those
under new keys are `null`. -/
theorem mergeMembers_eq_self {ms os : Members} (hms : ms.keys.Nodup) (hos : os.keys.Nodup)
    (hold : ∀ m ∈ ms, ∀ v, os.get? m.1 = some v → m.2.merge v = m.2)
    (hnew : ∀ o ∈ os, o.1 ∉ ms.keys → o.2.isNull = true) : mergeMembers ms os = ms := by
  have hfixed : ms.map (overridden os) = ms := by
    refine map_overridden_eq_self ?_
    intro m hm
    cases hget : os.get? m.1 with
    | none => exact overridden_of_get?_eq_none hget
    | some v => rw [overridden_of_get? hget, hold m hm v hget]
  have hadded : added ms os = [] := by
    refine List.filter_eq_nil_iff.2 ?_
    intro o ho
    by_cases hkey : o.1 ∈ ms.keys
    · simp [hkey]
    · simp [hnew o ho hkey]
  rw [mergeMembers_eq hms hos, hfixed, hadded, List.append_nil]

/-- A value that is merged into itself stays as it is. -/
theorem merge_self {v : Json} (h : v.keysApart = true) : v.merge v = v := by
  induction v using induction with
  | object ms ih =>
      obtain ⟨hms, hmembers⟩ := keysApart_object_iff.1 h
      rw [merge_object, mergeMembers_eq_self hms hms]
      · intro m hm v hget
        rw [get?_of_mem hms hm] at hget
        cases hget
        exact ih m hm (hmembers m hm)
      · intro m hm hkey
        exact absurd (mem_keys_of_mem hm) hkey
  | null | bool | integer | double | string | array => rw [merge]

/-- The second merge with the same override changes nothing. -/
theorem merge_merge {b o : Json} (hb : b.keysApart = true) (ho : o.keysApart = true) :
    (b.merge o).merge o = b.merge o := by
  induction o using induction generalizing b with
  | object os ih =>
      rcases merge_cases b (.object os) with ⟨hnull, -⟩ | ⟨ms, os', rfl, hos, h⟩ | ⟨-, -, h⟩
      · cases hnull
      · cases hos
        obtain ⟨hms, hmembers⟩ := keysApart_object_iff.1 hb
        obtain ⟨hos, hoverrides⟩ := keysApart_object_iff.1 ho
        obtain ⟨hmerged, -⟩ := keysApart_object_iff.1 (h ▸ keysApart_merge hb ho)
        rw [h, merge_object, mergeMembers_eq_self hmerged hos]
        · intro m hm v hget
          have hv : (m.1, v) ∈ os := mem_of_get? hget
          rw [mergeMembers_eq hms hos] at hm
          rcases List.mem_append.1 hm with hm | hm
          · -- a member of the base has been overridden by the same value
            obtain ⟨x, hx, rfl⟩ := List.mem_map.1 hm
            have hget' : os.get? x.1 = some v := hget
            rw [overridden_of_get? hget']
            exact ih _ hv (hmembers x hx) (hoverrides _ hv)
          · -- a member that was taken over meets itself
            have ho := (mem_added_iff.1 hm).1
            rw [get?_of_mem hos ho] at hget
            cases hget
            exact merge_self (hoverrides m ho)
        · intro o ho hkey
          rw [keys_mergeMembers hms hos, List.mem_append, not_or] at hkey
          by_contra hnull
          exact hkey.2 (mem_keys_of_mem (mem_added_iff.2 ⟨ho, hkey.1, by simpa using hnull⟩))
      · rw [h, merge_self ho]
  | null => rw [merge_null, merge_null]
  | bool | integer | double | string | array => rw [merge, merge]

/-- **An override that is applied twice does what it does once**, in the same order of keys, and a
value that is merged into itself stays as it is. -/
theorem merge_idempotent (b o : Json) (hb : b.keysApart = true) (ho : o.keysApart = true) :
    (b.merge o).merge o = b.merge o ∧ b.merge b = b :=
  ⟨merge_merge hb ho, merge_self hb⟩

/-- A document with an object, a scalar and a list. -/
def draftPage : Json :=
  .object [("view", .object [("rows", .integer 3), ("title", .string "a")]),
    ("tags", .array [.null]), ("owner", .integer 7)]

/-- An override that changes the kind of values, adds objects with nulls and replaces a list. -/
def pageOverride : Json :=
  .object [("owner", .object [("name", .null)]), ("view", .object [("rows", .null), ("extra",
    .object [("on", .bool true), ("off", .null)])]), ("tags", .array [.integer 1, .integer 1]),
    ("gone", .null)]

/-- The override takes hold of the document at several depths, and the second time it changes
nothing. -/
theorem merge_idempotent_draftPage :
    draftPage.merge pageOverride = .object [("view", .object [("rows", .integer 3),
        ("title", .string "a"), ("extra", .object [("on", .bool true), ("off", .null)])]),
      ("tags", .array [.integer 1, .integer 1]), ("owner", .object [("name", .null)])] ∧
    (draftPage.merge pageOverride).merge pageOverride = draftPage.merge pageOverride ∧
    draftPage.merge draftPage = draftPage :=
  ⟨by rfl, merge_idempotent draftPage pageOverride (by decide +kernel) (by decide +kernel)⟩

end Json

end SchemaScope
