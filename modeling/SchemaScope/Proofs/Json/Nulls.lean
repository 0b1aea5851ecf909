/-
**Nulls in an override.**

A `null` in an override says nothing about the place where it stands, so one may expect that it
makes no difference whether it is there or the member is left out.  It overwrites nothing indeed.
But where the base has no object, an object of the override is taken over as it is, with the nulls in
it.  So leaving them out is the same exactly if every object of the override that holds a `null` meets
an object of the base; and just then no `null` comes up where the base had none.

Places are told by paths of keys.  A path does not lead into arrays, since merging does not either.

Main definitions:

* `Json.pruned` — a value without the members that are `null`, at every depth of objects;
* `Json.at?` — the value at a path of keys;
* `Json.NullsMet` — objects of an override that hold a `null` meet objects of the base.

Main results:

* `Json.at?_merge` — where both have a value at a path, these are merged;
* `Json.merge_pruned_of_nullsMet`, `Json.at?_merge_eq_null`, `Json.nullsMet_of_at?_merge` — equal
  results, no new nulls, and nulls that are met follow from each other;
* `Json.merge_pruned_iff` — **when nulls in an override can be left out**.
-/

import SchemaScope.Proofs.Json.Merging

set_option autoImplicit false

namespace SchemaScope.Json

open Members

/-! ### Leaving out nulls -/

mutual

/-- A value without the members that are `null`, at every depth of objects.  What stands in arrays
is left as it is. -/
def pruned : Json → Json
  | .null => .null
  | .bool b => .bool b
  | .integer n => .integer n
  | .double x => .double x
  | .string t => .string t
  | .array vs => .array vs
  | .object ms => .object (prunedMembers ms)

/-- Members without those that are `null`, at every depth. -/
def prunedMembers : List (String × Json) → List (String × Json)
  | [] => []
  | (key, value) :: rest =>
      if value.isNull then prunedMembers rest else (key, value.pruned) :: prunedMembers rest

end

theorem isNull_iff {v : Json} : v.isNull = true ↔ v = .null := by
  cases v <;> simp [isNull]

theorem isNull_pruned (v : Json) : v.pruned.isNull = v.isNull := by
  cases v <;> rfl

theorem prunedMembers_eq (ms : Members) :
    prunedMembers ms = (ms.filter fun m => !m.2.isNull).map fun m => (m.1, m.2.pruned) := by
  induction ms with
  | nil => rfl
  | cons m ms ih =>
      obtain ⟨key, value⟩ := m
      rw [prunedMembers, ih]
      cases hvalue : value.isNull <;> simp [hvalue]

theorem mem_prunedMembers_iff {ms : Members} {m : String × Json} :
    m ∈ prunedMembers ms ↔ ∃ v, (m.1, v) ∈ ms ∧ v.isNull = false ∧ m.2 = v.pruned := by
  simp only [prunedMembers_eq, List.mem_map, List.mem_filter, Bool.not_eq_true']
  constructor
  · rintro ⟨x, ⟨hx, hnull⟩, rfl⟩
    exact ⟨x.2, hx, hnull, rfl⟩
  · rintro ⟨v, hv, hnull, hm⟩
    exact ⟨(m.1, v), ⟨hv, hnull⟩, Prod.ext rfl hm.symm⟩

theorem keys_prunedMembers_sublist (ms : Members) : (keys (prunedMembers ms)).Sublist ms.keys := by
  rw [prunedMembers_eq, keys, List.map_map]
  exact List.filter_sublist.map Prod.fst

theorem get?_prunedMembers {ms : Members} (hms : ms.keys.Nodup) (key : String) :
    Members.get? key (prunedMembers ms) =
      ((ms.get? key).filter fun v => !v.isNull).map pruned := by
  rw [prunedMembers_eq, ← get?_filter hms fun m => !m.2.isNull]
  exact get?_map (fun _ v => v.pruned) key _

/-- A member is overridden as before if the nulls in the value for it make no difference. -/
theorem overridden_prunedMembers {os : Members} (hos : os.keys.Nodup) {m : String × Json}
    (h : ∀ v, os.get? m.1 = some v → m.2.merge v = m.2.merge v.pruned) :
    overridden os m = overridden (prunedMembers os) m := by
  have hget := get?_prunedMembers hos m.1
  cases hv : os.get? m.1 with
  | none =>
      rw [hv] at hget
      rw [overridden_of_get?_eq_none hv, overridden_of_get?_eq_none hget]
  | some v =>
      rw [hv] at hget
      cases hnull : v.isNull with
      | true =>
          have hget : Members.get? m.1 (prunedMembers os) = none := by
            simpa [Option.filter, hnull] using hget
          rw [overridden_of_get? hv, overridden_of_get?_eq_none hget, isNull_iff.1 hnull,
            merge_null]
      | false =>
          have hget : Members.get? m.1 (prunedMembers os) = some v.pruned := by
            simpa [Option.filter, hnull] using hget
          rw [overridden_of_get? hv, overridden_of_get? hget, h v hv]

theorem added_prunedMembers (ms os : Members) :
    added ms (prunedMembers os) = (added ms os).map fun m => (m.1, m.2.pruned) := by
  simp only [added, prunedMembers_eq, List.filter_map, List.filter_filter, Function.comp_def,
    isNull_pruned]
  congr 2
  funext m
  cases m.2.isNull <;> simp

theorem keysApart_pruned {v : Json} (h : v.keysApart = true) : v.pruned.keysApart = true := by
  induction v using induction with
  | object ms ih =>
      obtain ⟨hms, hmembers⟩ := keysApart_object_iff.1 h
      refine keysApart_object_iff.2 ⟨hms.sublist (keys_prunedMembers_sublist ms), ?_⟩
      intro m hm
      obtain ⟨x, hx, -, heq⟩ := mem_prunedMembers_iff.1 hm
      exact heq ▸ ih _ hx (hmembers _ hx)
  | null | bool | integer | double | string | array => exact h

/-! ### Paths of keys -/

/-- The value at a path of keys. -/
def at? : List String → Json → Option Json
  | [], v => some v
  | key :: path, v => (v.member? key).bind (at? path)

@[simp] theorem at?_nil (v : Json) : v.at? [] = some v := rfl

theorem at?_object_cons (ms : Members) (key : String) (path : List String) :
    (Json.object ms).at? (key :: path) = (ms.get? key).bind (at? path) := rfl

theorem at?_object_of_get? {ms : Members} {key : String} {v : Json} (h : ms.get? key = some v)
    (path : List String) : (Json.object ms).at? (key :: path) = v.at? path := by
  rw [at?_object_cons, h, Option.bind_some]

/-- Only an object has a value at a path that is not empty. -/
theorem exists_get?_of_at?_cons {v w : Json} {key : String} {path : List String}
    (h : v.at? (key :: path) = some w) :
    ∃ (ms : Members) (x : Json), v = .object ms ∧ ms.get? key = some x ∧ x.at? path = some w := by
  obtain ⟨x, hx, hw⟩ := Option.bind_eq_some_iff.1 h
  cases v with
  | object ms => exact ⟨ms, x, rfl, hx, hw⟩
  | _ => cases hx

theorem isNull_of_at?_concat {v w : Json} {path : List String} {key : String}
    (h : v.at? (path ++ [key]) = some w) : v.isNull = false := by
  obtain ⟨k, rest, hpath⟩ := List.exists_cons_of_ne_nil (List.append_ne_nil_of_right_ne_nil path
    (List.cons_ne_nil key []))
  rw [hpath] at h
  obtain ⟨ms, x, rfl, -, -⟩ := exists_get?_of_at?_cons h
  rfl

/-- A path through an object that was overridden goes on in what stands under its first key. -/
theorem at?_merge_object {ms os : Members} (hms : ms.keys.Nodup) (hos : os.keys.Nodup)
    (key : String) (path : List String) :
    ((Json.object ms).merge (.object os)).at? (key :: path) = match ms.get? key with
      | some x => ((os.get? key).elim x x.merge).at? path
      | none => ((os.get? key).filter fun v => !v.isNull).bind (at? path) := by
  rw [merge_object, at?_object_cons, get?_mergeMembers hms hos]
  cases ms.get? key <;> rfl

/-- Where both values have something at a path, these are merged. -/
theorem at?_merge {b o x v : Json} (hb : b.keysApart = true) (ho : o.keysApart = true)
    {path : List String} (hx : b.at? path = some x) (hv : o.at? path = some v) :
    (b.merge o).at? path = some (x.merge v) := by
  induction path generalizing b o with
  | nil =>
      cases hx
      cases hv
      rfl
  | cons key path ih =>
      obtain ⟨ms, e, rfl, he, hx⟩ := exists_get?_of_at?_cons hx
      obtain ⟨os, f, rfl, hf, hv⟩ := exists_get?_of_at?_cons hv
      obtain ⟨hms, hmembers⟩ := keysApart_object_iff.1 hb
      obtain ⟨hos, hoverrides⟩ := keysApart_object_iff.1 ho
      rw [at?_merge_object hms hos, he, hf]
      exact ih (hmembers _ (mem_of_get? he)) (hoverrides _ (mem_of_get? hf)) hx hv

/-! ### Values without nulls -/

/-- No member of an object in the value is `null`. -/
def NullFree (v : Json) : Prop := ∀ path key, v.at? (path ++ [key]) ≠ some .null

theorem NullFree.get? {ms : Members} (h : NullFree (.object ms)) {key : String} {v : Json}
    (hv : ms.get? key = some v) : v.isNull = false ∧ NullFree v := by
  constructor
  · cases hnull : v.isNull with
    | false => rfl
    | true =>
        rw [isNull_iff.1 hnull] at hv
        exact absurd (at?_object_of_get? hv []) (h [] key)
  · intro path k hk
    exact h (key :: path) k ((at?_object_of_get? hv _).trans hk)

theorem pruned_of_nullFree {v : Json} (hv : v.keysApart = true) (h : NullFree v) :
    v.pruned = v := by
  induction v using induction with
  | object ms ih =>
      obtain ⟨hms, hmembers⟩ := keysApart_object_iff.1 hv
      have hfixed : ∀ m ∈ ms, m.2.isNull = false ∧ (m.1, m.2.pruned) = m := by
        intro m hm
        obtain ⟨hnull, hfree⟩ := h.get? (get?_of_mem hms hm)
        exact ⟨hnull, Prod.ext rfl (ih m hm (hmembers m hm) hfree)⟩
      have hkept : (ms.filter fun m => !m.2.isNull) = ms := by
        refine List.filter_eq_self.2 ?_
        intro m hm
        simp [(hfixed m hm).1]
      rw [pruned, prunedMembers_eq, hkept]
      exact congrArg Json.object ((List.map_congr_left fun m hm => (hfixed m hm).2).trans
        (List.map_id' ms))
  | null | bool | integer | double | string | array => rfl

theorem exists_of_at?_pruned_cons {v w : Json} {key : String} {path : List String}
    (h : v.pruned.at? (key :: path) = some w) :
    ∃ x : Json, x.isNull = false ∧ x.pruned.at? path = some w := by
  obtain ⟨ms, y, hms, hy, hw⟩ := exists_get?_of_at?_cons h
  cases v with
  | object vs =>
      cases hms
      obtain ⟨x, -, hx, rfl⟩ := mem_prunedMembers_iff.1 (mem_of_get? hy)
      exact ⟨x, hx, hw⟩
  | _ => cases hms

theorem nullFree_pruned (v : Json) : NullFree v.pruned := by
  intro path key h
  induction path generalizing v with
  | nil =>
      obtain ⟨x, hx, hnull⟩ := exists_of_at?_pruned_cons h
      rw [← isNull_pruned, Option.some.inj hnull] at hx
      cases hx
  | cons k path ih =>
      obtain ⟨x, -, hx⟩ := exists_of_at?_pruned_cons h
      exact ih x hx

/-! ### Nulls that are met -/

/-- Wherever an object of the override holds a `null`, the base has an object, too. -/
def NullsMet (b o : Json) : Prop :=
  ∀ path key, o.at? (path ++ [key]) = some .null → ∃ ms, b.at? path = some (.object ms)

theorem NullsMet.get? {ms os : Members} (h : NullsMet (.object ms) (.object os)) {key : String}
    {x v : Json} (hx : ms.get? key = some x) (hv : os.get? key = some v) : NullsMet x v := by
  intro path k hk
  obtain ⟨found, hfound⟩ := h (key :: path) k ((at?_object_of_get? hv _).trans hk)
  rw [at?_object_of_get? hx] at hfound
  exact ⟨found, hfound⟩

/-- A value under a key that the base lacks holds no `null`. -/
theorem NullsMet.nullFree_of_get? {ms os : Members} (h : NullsMet (.object ms) (.object os))
    {key : String} {v : Json} (hx : ms.get? key = none) (hv : os.get? key = some v) :
    NullFree v := by
  intro path k hk
  obtain ⟨found, hfound⟩ := h (key :: path) k ((at?_object_of_get? hv _).trans hk)
  rw [at?_object_cons, hx] at hfound
  cases hfound

/-- Without an object in the base the override holds no `null`. -/
theorem NullsMet.nullFree {b o : Json} (h : NullsMet b o) (hb : ∀ ms, b ≠ .object ms) :
    NullFree o := by
  intro path key hkey
  obtain ⟨found, hfound⟩ := h path key hkey
  cases path with
  | nil => exact hb found (Option.some.inj hfound)
  | cons k path =>
      obtain ⟨ms, -, rfl, -⟩ := exists_get?_of_at?_cons hfound
      exact hb ms rfl

/-! ### When nulls can be left out -/

/-- Nulls that are met can be left out. -/
theorem merge_pruned_of_nullsMet {b o : Json} (hb : b.keysApart = true) (ho : o.keysApart = true)
    (h : NullsMet b o) : b.merge o = b.merge o.pruned := by
  induction o using induction generalizing b with
  | object os ih =>
      rcases merge_cases b (.object os) with ⟨hnull, -⟩ | ⟨ms, os', rfl, hos, -⟩ | ⟨-, hne, -⟩
      · cases hnull
      · cases hos
        obtain ⟨hms, hmembers⟩ := keysApart_object_iff.1 hb
        obtain ⟨hos, hoverrides⟩ := keysApart_object_iff.1 ho
        have hpruned : (keys (prunedMembers os)).Nodup :=
          hos.sublist (keys_prunedMembers_sublist os)
        have hold : ms.map (overridden os) = ms.map (overridden (prunedMembers os)) := by
          refine List.map_congr_left ?_
          intro m hm
          refine overridden_prunedMembers hos ?_
          intro v hv
          have hmem : (m.1, v) ∈ os := mem_of_get? hv
          exact ih _ hmem (hmembers m hm) (hoverrides _ hmem) (h.get? (get?_of_mem hms hm) hv)
        have hnew : added ms os = added ms (prunedMembers os) := by
          rw [added_prunedMembers]
          refine ((List.map_congr_left ?_).trans (List.map_id' _)).symm
          intro m hm
          obtain ⟨hmem, hkey, -⟩ := mem_added_iff.1 hm
          have hfree := h.nullFree_of_get? (get?_eq_none_iff.2 hkey) (get?_of_mem hos hmem)
          exact Prod.ext rfl (pruned_of_nullFree (hoverrides m hmem) hfree)
        rw [pruned, merge_object, merge_object, mergeMembers_eq hms hos,
          mergeMembers_eq hms hpruned, hold, hnew]
      · have hne : ∀ ms, b ≠ .object ms := hne.resolve_right fun hne => hne os rfl
        rw [pruned_of_nullFree ho (h.nullFree hne)]
  | null | bool | integer | double | string | array => rfl

/-- If nulls are met, every `null` of the result has been one of the base. -/
theorem at?_merge_eq_null {b o : Json} (hb : b.keysApart = true) (ho : o.keysApart = true)
    (h : NullsMet b o) {path : List String} (hpath : (b.merge o).at? path = some .null) :
    b.at? path = some .null := by
  induction path generalizing b o with
  | nil =>
      rcases merge_cases b o with ⟨-, heq⟩ | ⟨ms, os, -, -, heq⟩ | ⟨hnull, -, heq⟩
      · exact heq ▸ hpath
      · rw [heq] at hpath
        cases hpath
      · rw [heq] at hpath
        exact absurd (Option.some.inj hpath) hnull
  | cons key path ih =>
      rcases merge_cases b o with ⟨-, heq⟩ | ⟨ms, os, rfl, rfl, -⟩ | ⟨-, hne, heq⟩
      · exact heq ▸ hpath
      · obtain ⟨hms, hmembers⟩ := keysApart_object_iff.1 hb
        obtain ⟨hos, hoverrides⟩ := keysApart_object_iff.1 ho
        rw [at?_merge_object hms hos] at hpath
        rw [at?_object_cons]
        cases hx : ms.get? key with
        | some x =>
            rw [hx] at hpath
            cases hv : os.get? key with
            | none =>
                rw [hv] at hpath
                exact hpath
            | some v =>
                rw [hv] at hpath
                exact ih (hmembers _ (mem_of_get? hx)) (hoverrides _ (mem_of_get? hv))
                  (h.get? hx hv) hpath
        | none =>
            rw [hx] at hpath
            obtain ⟨v, hv, hnull⟩ := Option.bind_eq_some_iff.1 hpath
            obtain ⟨hv, hne⟩ := Option.filter_eq_some_iff.1 hv
            -- a value that was taken over holds no nulls, and is none
            rcases path.eq_nil_or_concat with rfl | ⟨before, last, rfl⟩
            · cases hnull
              cases hne
            · rw [List.concat_eq_append] at hnull
              exact absurd hnull (h.nullFree_of_get? hx hv before last)
      · rw [heq] at hpath
        obtain ⟨os, -, rfl, -, -⟩ := exists_get?_of_at?_cons hpath
        have hne : ∀ ms, b ≠ .object ms := hne.resolve_right fun hne => hne os rfl
        obtain ⟨before, last, hlast⟩ := (key :: path).eq_nil_or_concat.resolve_left (by simp)
        rw [hlast, List.concat_eq_append] at hpath
        exact absurd hpath (h.nullFree hne before last)

/-- If no `null` comes up where the base had none, nulls are met. -/
theorem nullsMet_of_at?_merge {b o : Json} (hb : b.keysApart = true) (ho : o.keysApart = true)
    (h : ∀ path, (b.merge o).at? path = some .null → b.at? path = some .null) : NullsMet b o := by
  intro path last hlast
  induction path generalizing b o with
  | nil =>
      rcases merge_cases b o with ⟨rfl, -⟩ | ⟨ms, os, rfl, -, -⟩ | ⟨-, -, heq⟩
      · cases hlast
      · exact ⟨ms, rfl⟩
      · have hbase : b.at? [last] = some .null := h [last] (by rw [heq]; exact hlast)
        obtain ⟨ms, -, rfl, -, -⟩ := exists_get?_of_at?_cons hbase
        exact ⟨ms, rfl⟩
  | cons key path ih =>
      obtain ⟨os, v, rfl, hv, hnull⟩ := exists_get?_of_at?_cons hlast
      rcases merge_cases b (.object os) with ⟨hnull', -⟩ | ⟨ms, os', rfl, hos, -⟩ | ⟨-, hne, heq⟩
      · cases hnull'
      · cases hos
        obtain ⟨hms, hmembers⟩ := keysApart_object_iff.1 hb
        obtain ⟨hos, hoverrides⟩ := keysApart_object_iff.1 ho
        have hpart := fun rest => h (key :: rest)
        simp only [at?_merge_object hms hos, at?_object_cons, hv] at hpart
        rw [at?_object_cons]
        cases hx : ms.get? key with
        | some x =>
            simp only [hx] at hpart
            exact ih (hmembers _ (mem_of_get? hx)) (hoverrides _ (mem_of_get? hv)) hpart hnull
        | none =>
            -- the value is taken over as it is, and its nulls come up
            have hkept : (some v).filter (fun v => !v.isNull) = some v := by
              simp [Option.filter, isNull_of_at?_concat hnull]
            simp only [hx, hkept] at hpart
            cases hpart (path ++ [last]) hnull
      · have hbase : b.at? (key :: (path ++ [last])) = some .null :=
          h _ (by rw [heq]; exact hlast)
        obtain ⟨ms, -, rfl, -, -⟩ := exists_get?_of_at?_cons hbase
        exact absurd rfl ((hne.resolve_right fun hne => hne os rfl) ms)

/-- **When nulls in an override can be left out.**  Without them the result is the same exactly if
every object of the override that holds a `null` meets an object of the base, and this is so exactly
if no `null` comes up where the base had none.  In no case does a `null` overwrite a value. -/
theorem merge_pruned_iff (b o : Json) (hb : b.keysApart = true) (ho : o.keysApart = true) :
    (b.merge o = b.merge o.pruned ↔ NullsMet b o) ∧
    ((∀ path, (b.merge o).at? path = some .null → b.at? path = some .null) ↔ NullsMet b o) ∧
    ∀ path v, o.at? path = some .null → b.at? path = some v → (b.merge o).at? path = some v := by
  refine ⟨⟨?_, merge_pruned_of_nullsMet hb ho⟩, ⟨nullsMet_of_at?_merge hb ho, ?_⟩, ?_⟩
  · intro heq
    refine nullsMet_of_at?_merge hb ho ?_
    intro path hpath
    have hmet : NullsMet b o.pruned := fun path key h => absurd h (nullFree_pruned o path key)
    exact at?_merge_eq_null hb (keysApart_pruned ho) hmet (heq ▸ hpath)
  · intro h path hpath
    exact at?_merge_eq_null hb ho h hpath
  · intro path v ho' hv
    rw [at?_merge hb ho hv ho', merge_null]

/-- An override that says nothing about anything. -/
def silence : Json := .object [("a", .object [("b", .null)])]

/-- An object that has an object where the override has its `null`. -/
def shelf : Json := .object [("a", .object [("c", .integer 1)])]

/-- The `null` of the override is left out of an object that meets it.  Where nothing meets it, it
comes up in the result, and would not if it were left out of the override. -/
theorem merge_pruned_iff_silence :
    (shelf.merge silence = shelf ∧ NullsMet shelf silence) ∧
    (Json.object []).merge silence = silence ∧
    (Json.object []).merge silence.pruned = .object [("a", .object [])] ∧
    ¬ NullsMet (.object []) silence := by
  obtain ⟨hshelf, -, -⟩ := merge_pruned_iff shelf silence (by decide +kernel) (by decide +kernel)
  obtain ⟨hempty, -, -⟩ := merge_pruned_iff (.object []) silence (by decide +kernel)
    (by decide +kernel)
  refine ⟨⟨rfl, hshelf.1 rfl⟩, rfl, rfl, ?_⟩
  intro hmet
  cases hempty.2 hmet

end SchemaScope.Json
