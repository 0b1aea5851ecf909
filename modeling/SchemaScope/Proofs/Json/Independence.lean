/-
**Overrides that do not meet.**

Two overrides are independent if they set nothing in common: under every key that both have stand
objects that are independent again.  It does not matter which of two such overrides is applied
first.  The two orders take different ways: where the base has no object, the first override is
taken over as it is and the second is merged into it.  They meet because an override without nulls
is itself what comes of merging it into nothing.

The two results list their keys in different orders, so they are compared with their keys sorted.

Main definitions:

* `Json.sorted` — a value with the members of every object sorted by key;
* `Json.Independent` — two objects that set nothing in common.

Main results:

* `Json.sorted_object_eq_iff` — objects differ in the order of keys only, exactly if they have the
  same under every key;
* `Json.get?_mergeMembers_of_nullFree` — what an override without nulls does to a key;
* `Json.merge_independent_comm` — **independent overrides can be applied in either order**.
-/

import SchemaScope.Proofs.Json.Nulls

set_option autoImplicit false

namespace SchemaScope

/-! ### Members in the order of their keys -/

namespace Members

/-- The members sorted by key. -/
def byKey (members : Members) : Members := members.mergeSort fun m o => m.1 ≤ o.1

variable {ms os : Members}

theorem get?_eq_some_iff (hkeys : ms.keys.Nodup) {key : String} {value : Json} :
    ms.get? key = some value ↔ (key, value) ∈ ms :=
  ⟨mem_of_get?, get?_of_mem hkeys⟩

theorem byKey_perm (ms : Members) : ms.byKey.Perm ms := List.mergeSort_perm _ _

theorem nodup_keys_byKey (hkeys : ms.keys.Nodup) : ms.byKey.keys.Nodup :=
  ((byKey_perm ms).map Prod.fst).nodup_iff.2 hkeys

theorem byKey_pairwise (ms : Members) : ms.byKey.Pairwise fun m o => m.1 ≤ o.1 :=
  List.pairwise_mergeSort' (Order.Preimage Prod.fst (· ≤ ·)) ms

theorem get?_byKey (hkeys : ms.keys.Nodup) (key : String) : ms.byKey.get? key = ms.get? key := by
  refine Option.ext fun value => ?_
  rw [get?_eq_some_iff (nodup_keys_byKey hkeys), get?_eq_some_iff hkeys, (byKey_perm ms).mem_iff]

/-- Sorted members are the same exactly if every key has the same value. -/
theorem byKey_eq_iff (hms : ms.keys.Nodup) (hos : os.keys.Nodup) :
    ms.byKey = os.byKey ↔ ∀ key, ms.get? key = os.get? key := by
  constructor
  · intro h key
    rw [← get?_byKey hms, h, get?_byKey hos]
  · intro h
    have hmem (m : String × Json) : m ∈ ms ↔ m ∈ os := by
      rw [← get?_eq_some_iff hms, ← get?_eq_some_iff hos, h]
    have hperm : ms.byKey.Perm os.byKey :=
      ((byKey_perm ms).trans ((List.perm_ext_iff_of_nodup hms.of_map hos.of_map).2 hmem)).trans
        (byKey_perm os).symm
    refine hperm.eq_of_pairwise ?_ (byKey_pairwise ms) (byKey_pairwise os)
    -- a key has one value, so members with the same key are the same
    intro m o hm ho hle hge
    have hm' := get?_of_mem (nodup_keys_byKey hms) hm
    have ho' := get?_of_mem (nodup_keys_byKey hos) ho
    have hkey : m.1 = o.1 := String.le_antisymm hle hge
    rw [get?_byKey hms, h, ← get?_byKey hos, hkey, ho'] at hm'
    exact Prod.ext hkey (Option.some.inj hm').symm

end Members

namespace Json

open Members

mutual

/-- A value with the members of every object sorted by key. -/
def sorted : Json → Json
  | .null => .null
  | .bool b => .bool b
  | .integer n => .integer n
  | .double x => .double x
  | .string t => .string t
  | .array vs => .array (sortedElements vs)
  | .object ms => .object (byKey (sortedMembers ms))

/-- Elements with the members of every object in them sorted by key. -/
def sortedElements : List Json → List Json
  | [] => []
  | v :: rest => v.sorted :: sortedElements rest

/-- Members in their order, with the members of every object in their values sorted by key. -/
def sortedMembers : List (String × Json) → List (String × Json)
  | [] => []
  | (key, v) :: rest => (key, v.sorted) :: sortedMembers rest

end

theorem sortedMembers_eq (ms : Members) : sortedMembers ms = ms.map fun m => (m.1, m.2.sorted) := by
  induction ms with
  | nil => rfl
  | cons m ms ih => rw [sortedMembers, ih, List.map_cons]

@[simp] theorem keys_sortedMembers (ms : Members) : keys (sortedMembers ms) = ms.keys := by
  simp [sortedMembers_eq, keys]

theorem get?_sortedMembers (ms : Members) (key : String) :
    get? key (sortedMembers ms) = (ms.get? key).map sorted := by
  rw [sortedMembers_eq]
  exact get?_map (fun _ v => v.sorted) key ms

/-- Objects differ in the order of keys only, exactly if what they have under a key differs in the
order of keys only. -/
theorem sorted_object_eq_iff {ms os : Members} (hms : ms.keys.Nodup) (hos : os.keys.Nodup) :
    (Json.object ms).sorted = (Json.object os).sorted ↔
      ∀ key, (ms.get? key).map sorted = (os.get? key).map sorted := by
  rw [sorted, sorted, Json.object.injEq,
    byKey_eq_iff (by rwa [keys_sortedMembers]) (by rwa [keys_sortedMembers])]
  simp only [get?_sortedMembers]

/-! ### Overrides without nulls -/

/-- What an override without nulls does to a key: it sets what is missing, and is merged into what
is there. -/
theorem get?_mergeMembers_of_nullFree {ms os : Members} (hms : ms.keys.Nodup)
    (hos : os.keys.Nodup) (hfree : NullFree (.object os)) (key : String) :
    (mergeMembers ms os).get? key = Option.merge merge (ms.get? key) (os.get? key) := by
  rw [get?_mergeMembers hms hos]
  cases hv : os.get? key with
  | none => cases ms.get? key <;> rfl
  | some v =>
      have hnull : v.isNull = false := (hfree.get? hv).1
      cases ms.get? key with
      | none => simp [hnull]
      | some x => rfl

/-- An override without nulls is what comes of merging it into nothing. -/
theorem empty_merge {os : Members} (hos : os.keys.Nodup) (hfree : NullFree (.object os)) :
    (Json.object []).merge (.object os) = .object os := by
  have hkept : added [] os = os := by
    refine List.filter_eq_self.2 ?_
    intro o ho
    simp [keys, (hfree.get? (get?_of_mem hos ho)).1]
  rw [merge_object, mergeMembers_eq (by simp [keys]) hos, hkept]
  rfl

/-! ### Independent overrides -/

/-- Two objects set nothing in common: under every key that both have stand objects that set nothing
in common. -/
inductive Independent : Json → Json → Prop
  | object {os ps : Members} (shared : ∀ key v w, os.get? key = some v → ps.get? key = some w →
      Independent v w) : Independent (.object os) (.object ps)

theorem independent_of_mem {os ps : Members}
    (h : ∀ o ∈ os, ∀ p ∈ ps, o.1 = p.1 → Independent o.2 p.2) :
    Independent (.object os) (.object ps) :=
  .object fun _ _ _ hv hw => h _ (mem_of_get? hv) _ (mem_of_get? hw) rfl

/-- Independent overrides can be applied to an object in either order, if what stands under a key
that both have can be overridden in either order. -/
theorem sorted_mergeMembers_comm {ms os ps : Members} (hms : (Json.object ms).keysApart = true)
    (hos : (Json.object os).keysApart = true) (hps : (Json.object ps).keysApart = true)
    (hfreeo : NullFree (.object os)) (hfreep : NullFree (.object ps))
    (hshared : ∀ key v w, os.get? key = some v → ps.get? key = some w →
      (v.merge w).sorted = (w.merge v).sorted ∧
        ∀ x, ms.get? key = some x → ((x.merge v).merge w).sorted = ((x.merge w).merge v).sorted) :
    (((Json.object ms).merge (.object os)).merge (.object ps)).sorted =
      (((Json.object ms).merge (.object ps)).merge (.object os)).sorted := by
  have hmso := keysApart_merge hms hos
  have hmsp := keysApart_merge hms hps
  have hmsop := keysApart_merge hmso hps
  have hmspo := keysApart_merge hmsp hos
  simp only [merge_object, keysApart_object_iff] at *
  rw [sorted_object_eq_iff hmsop.1 hmspo.1]
  intro key
  rw [get?_mergeMembers_of_nullFree hmso.1 hps.1 hfreep,
    get?_mergeMembers_of_nullFree hms.1 hos.1 hfreeo,
    get?_mergeMembers_of_nullFree hmsp.1 hos.1 hfreeo,
    get?_mergeMembers_of_nullFree hms.1 hps.1 hfreep]
  cases hv : os.get? key with
  | none => cases ms.get? key <;> cases ps.get? key <;> rfl
  | some v =>
      cases hw : ps.get? key with
      | none => cases ms.get? key <;> rfl
      | some w =>
          obtain ⟨hnew, hold⟩ := hshared key v w hv hw
          cases hx : ms.get? key with
          | none => exact congrArg some hnew
          | some x => exact congrArg some (hold x hx)

/-- **Independent overrides can be applied in either order.**  Whatever the base is, the two results
differ in the order of keys only. -/
theorem merge_independent_comm (b o₁ o₂ : Json) (hb : b.keysApart = true)
    (ho₁ : o₁.keysApart = true) (ho₂ : o₂.keysApart = true) (hfree₁ : NullFree o₁)
    (hfree₂ : NullFree o₂) (h : Independent o₁ o₂) :
    ((b.merge o₁).merge o₂).sorted = ((b.merge o₂).merge o₁).sorted := by
  induction h generalizing b with
  | @object os ps shared ih =>
      have hmembers₁ := keysApart_object_iff.1 ho₁
      have hmembers₂ := keysApart_object_iff.1 ho₂
      -- a base that is no object is replaced, as if it were empty
      obtain ⟨ms, hms, heq₁, heq₂⟩ : ∃ ms : Members, (Json.object ms).keysApart = true ∧
          b.merge (.object os) = (Json.object ms).merge (.object os) ∧
          b.merge (.object ps) = (Json.object ms).merge (.object ps) := by
        by_cases hobject : ∃ ms, b = .object ms
        · obtain ⟨ms, rfl⟩ := hobject
          exact ⟨ms, hb, rfl, rfl⟩
        · have hne : ∀ ms, b ≠ .object ms := fun ms hms => hobject ⟨ms, hms⟩
          refine ⟨[], rfl, ?_, ?_⟩
          · rw [merge_of_ne_object hne, empty_merge hmembers₁.1 hfree₁]
          · rw [merge_of_ne_object hne, empty_merge hmembers₂.1 hfree₂]
      rw [heq₁, heq₂]
      refine sorted_mergeMembers_comm hms ho₁ ho₂ hfree₁ hfree₂ ?_
      intro key v w hv hw
      have hv' := hmembers₁.2 _ (mem_of_get? hv)
      have hw' := hmembers₂.2 _ (mem_of_get? hw)
      have hfreev := (hfree₁.get? hv).2
      have hfreew := (hfree₂.get? hw).2
      have hcomm (x : Json) (hx : x.keysApart = true) := ih key v w hv hw x hx hv' hw' hfreev hfreew
      refine ⟨?_, ?_⟩
      · -- neither meets anything: both are merged into nothing
        obtain ⟨-⟩ := shared key v w hv hw
        have hempty := hcomm (.object []) rfl
        rwa [empty_merge (keysApart_object_iff.1 hv').1 hfreev,
          empty_merge (keysApart_object_iff.1 hw').1 hfreew] at hempty
      · intro x hx
        exact hcomm x ((keysApart_object_iff.1 hms).2 _ (mem_of_get? hx))

/-- A base with a number, an object and a `null`. -/
def sparePage : Json :=
  .object [("view", .integer 1), ("size", .object [("rows", .integer 3)]), ("tags", .null)]

/-- An override of the number by an object, of a member of the object, and of a missing key. -/
def rowsOverride : Json :=
  .object [("view", .object [("title", .string "a")]), ("size", .object [("rows", .integer 5)]),
    ("extra", .object [("left", .object [("on", .bool true)])])]

/-- An override under the same keys that sets other members. -/
def columnsOverride : Json :=
  .object [("extra", .object [("left", .object [("off", .array [.null])])]),
    ("size", .object [("columns", .integer 2)]), ("view", .object [("owner", .object [])])]

/-- The two overrides share all their keys and set nothing in common.  The results are not the same,
but differ in the order of keys only. -/
theorem merge_independent_comm_sparePage :
    Independent rowsOverride columnsOverride ∧
    (sparePage.merge rowsOverride).merge columnsOverride = .object [
      ("view", .object [("title", .string "a"), ("owner", .object [])]),
      ("size", .object [("rows", .integer 5), ("columns", .integer 2)]), ("tags", .null),
      ("extra", .object [("left", .object [("on", .bool true), ("off", .array [.null])])])] ∧
    (sparePage.merge columnsOverride).merge rowsOverride = .object [
      ("view", .object [("owner", .object []), ("title", .string "a")]),
      ("size", .object [("rows", .integer 5), ("columns", .integer 2)]), ("tags", .null),
      ("extra", .object [("left", .object [("off", .array [.null]), ("on", .bool true)])])] ∧
    ((sparePage.merge rowsOverride).merge columnsOverride).sorted =
      ((sparePage.merge columnsOverride).merge rowsOverride).sorted := by
  have hindependent : Independent rowsOverride columnsOverride := by
    refine independent_of_mem ?_
    have hleft : Independent (.object [("left", .object [("on", .bool true)])])
        (.object [("left", .object [("off", .array [.null])])]) := by
      refine independent_of_mem ?_
      simpa using independent_of_mem (by simp)
    have hsize : Independent (.object [("rows", .integer 5)]) (.object [("columns", .integer 2)]) :=
      independent_of_mem (by simp)
    have hview : Independent (.object [("title", .string "a")]) (.object [("owner", .object [])]) :=
      independent_of_mem (by simp)
    simp [hleft, hsize, hview]
  have hfree₁ : NullFree rowsOverride := nullFree_pruned rowsOverride
  have hfree₂ : NullFree columnsOverride := nullFree_pruned columnsOverride
  exact ⟨hindependent, by rfl, by rfl, merge_independent_comm sparePage rowsOverride columnsOverride
    (by decide +kernel) (by decide +kernel) (by decide +kernel) hfree₁ hfree₂ hindependent⟩

end Json

end SchemaScope
