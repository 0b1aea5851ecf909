/-
**The members of an object.**

Members are listed in the order in which their keys first came, and putting a key keeps the keys
apart.  A list of entries is taken over as it stands exactly if no key comes twice in it.

Main results:

* `Members.keys_put`, `Members.nodup_keys_put` — the keys after putting one more;
* `Members.put_put`, `Members.exists_append_of_get?` — putting a key that is there changes its value
  and nothing else;
* `Members.mem_put_iff` — the members after putting one;
* `Members.forall₂_put_iff` — two objects that differ in the value of one key, member by member;
* `Members.ofList_of_nodup`, `Members.ofList_of_length` — **when a list of entries stays as it is**;
* `Members.get?_eq_none_iff`, `Members.get?_of_mem`, `Members.get?_append`, `Members.get?_map`,
  `Members.get?_filter` — looking up a key.
-/

import Mathlib
import SchemaScope.Json.Value

set_option autoImplicit false

namespace SchemaScope

namespace Members

/-! ### Putting a key -/

theorem keys_put (key : String) (value : Json) (members : Members) :
    (members.put key value).keys = if key ∈ members.keys then members.keys
      else members.keys ++ [key] := by
  induction members with
  | nil => rfl
  | cons m rest ih =>
      obtain ⟨k, v⟩ := m
      by_cases hk : k = key
      · subst hk
        simp [put, keys]
      · have hput : put key value ((k, v) :: rest) = (k, v) :: put key value rest := by
          simp [put, hk]
        have hcons : ∀ l : Members, keys ((k, v) :: l) = k :: keys l := fun _ => rfl
        rw [hput, hcons, hcons, ih]
        by_cases hr : key ∈ keys rest <;> simp [hr, Ne.symm hk]

theorem nodup_keys_put {members : Members} (h : members.keys.Nodup) (key : String) (value : Json) :
    (members.put key value).keys.Nodup := by
  rw [keys_put]
  split
  · exact h
  · next hk => exact List.nodup_append.2 ⟨h, by simp, by simpa using fun a ha => ne_of_mem_of_not_mem ha hk⟩

/-- Putting a key adds a member at the end or keeps the number of members. -/
theorem length_put (key : String) (value : Json) (members : Members) :
    members.put key value = members ++ [(key, value)] ∨
      (members.put key value).length = members.length := by
  induction members with
  | nil => exact .inl rfl
  | cons m rest ih =>
      obtain ⟨k, v⟩ := m
      by_cases hk : k = key
      · right
        simp [put, hk]
      · have hput : put key value ((k, v) :: rest) = (k, v) :: put key value rest := by
          simp [put, hk]
        rw [hput]
        rcases ih with ih | ih
        · exact .inl (by rw [ih]; rfl)
        · exact .inr (by rw [List.length_cons, ih, List.length_cons])

theorem put_of_not_mem {key : String} {members : Members} (h : key ∉ members.keys) (value : Json) :
    members.put key value = members ++ [(key, value)] := by
  induction members with
  | nil => rfl
  | cons m rest ih =>
      obtain ⟨k, v⟩ := m
      simp only [keys, List.map_cons, List.mem_cons, not_or] at h
      rw [put, if_neg (Ne.symm h.1), ih h.2]
      rfl

theorem mem_of_get? {key : String} {value : Json} {members : Members}
    (h : get? key members = some value) : (key, value) ∈ members := by
  induction members with
  | nil => cases h
  | cons m rest ih =>
      obtain ⟨k, v⟩ := m
      rw [get?] at h
      split at h
      · next hk =>
        cases h
        rw [hk]
        exact List.mem_cons_self
      · exact List.mem_cons_of_mem _ (ih h)

/-! ### Looking up a key -/

theorem get?_eq_none_iff {key : String} {members : Members} :
    get? key members = none ↔ key ∉ members.keys := by
  induction members with
  | nil => simp [keys]
  | cons m rest ih =>
      obtain ⟨k, v⟩ := m
      by_cases hk : k = key
      · simp [get?, keys, hk]
      · have hkeys : key ∉ keys ((k, v) :: rest) ↔ key ∉ keys rest := by
          simp [keys, Ne.symm hk]
        rw [get?, if_neg hk, ih, hkeys]

theorem mem_keys_of_mem {m : String × Json} {members : Members} (h : m ∈ members) :
    m.1 ∈ members.keys := List.mem_map_of_mem h

/-- Where each key comes once, a member is found under its key. -/
theorem get?_of_mem {members : Members} (hkeys : members.keys.Nodup) {m : String × Json}
    (h : m ∈ members) : get? m.1 members = some m.2 := by
  induction members with
  | nil => cases h
  | cons x rest ih =>
      obtain ⟨hx, hrest⟩ := List.nodup_cons.1 hkeys
      rcases List.mem_cons.1 h with rfl | h
      · simp [get?]
      · have hne : x.1 ≠ m.1 := by
          intro heq
          exact hx (heq ▸ mem_keys_of_mem h)
        rw [get?, if_neg hne]
        exact ih hrest h

theorem get?_append (key : String) (xs ys : Members) :
    get? key (xs ++ ys) = (get? key xs).or (get? key ys) := by
  induction xs with
  | nil => rfl
  | cons m rest ih =>
      obtain ⟨k, v⟩ := m
      by_cases hk : k = key
      · simp [get?, hk]
      · rw [List.cons_append, get?, get?, if_neg hk, if_neg hk, ih]

theorem get?_map (f : String → Json → Json) (key : String) (members : Members) :
    get? key (members.map fun m => (m.1, f m.1 m.2)) = (get? key members).map (f key) := by
  induction members with
  | nil => rfl
  | cons m rest ih =>
      obtain ⟨k, v⟩ := m
      by_cases hk : k = key
      · simp [get?, hk]
      · rw [List.map_cons, get?, get?, if_neg hk, if_neg hk, ih]

theorem get?_filter {members : Members} (hkeys : members.keys.Nodup) (p : String × Json → Bool)
    (key : String) :
    get? key (members.filter p) = (get? key members).filter fun v => p (key, v) := by
  induction members with
  | nil => rfl
  | cons m rest ih =>
      obtain ⟨k, v⟩ := m
      obtain ⟨hk, hrest⟩ := List.nodup_cons.1 hkeys
      by_cases heq : k = key
      · subst heq
        have hnone : get? k rest = none := get?_eq_none_iff.2 hk
        cases hp : p (k, v) with
        | true => simp [get?, hp, Option.filter]
        | false => simp [get?, hp, ih hrest, hnone, Option.filter]
      · cases hp : p (k, v) with
        | true => simp [get?, hp, heq, ih hrest]
        | false => simp [get?, hp, heq, ih hrest]

/-- The value that was put last counts. -/
theorem put_put (key : String) (x y : Json) (members : Members) :
    put key y (put key x members) = put key y members := by
  induction members with
  | nil => simp [put]
  | cons m rest ih =>
      obtain ⟨k, v⟩ := m
      by_cases hk : k = key
      · simp [put, hk]
      · simp [put, hk, ih]

/-- A key that is there divides the members, and putting it replaces what stands between. -/
theorem exists_append_of_get? {key : String} {value : Json} {members : Members}
    (h : get? key members = some value) :
    ∃ before after : Members, members = before ++ (key, value) :: after ∧ key ∉ before.keys ∧
      ∀ other, members.put key other = before ++ (key, other) :: after := by
  induction members with
  | nil => cases h
  | cons m rest ih =>
      obtain ⟨k, v⟩ := m
      by_cases hk : k = key
      · subst hk
        rw [get?, if_pos rfl] at h
        cases h
        exact ⟨[], rest, rfl, by simp [keys], fun other => by simp [put]⟩
      · rw [get?, if_neg hk] at h
        obtain ⟨before, after, rfl, hkeys, hput⟩ := ih h
        refine ⟨(k, v) :: before, after, rfl, ?_, ?_⟩
        · simpa [keys, Ne.symm hk] using hkeys
        · intro other
          rw [put, if_neg hk, hput]
          rfl

/-! ### The members beside a key -/

/-- The members without the first one under a key. -/
def others (key : String) (members : Members) : Members := members.eraseP (·.1 = key)

/-- What is a member after putting a key is the new value or was another member before. -/
theorem mem_put_iff {key : String} {value : Json} {members : Members} {m : String × Json} :
    m ∈ members.put key value ↔ m = (key, value) ∨ m ∈ members.others key := by
  induction members with
  | nil => simp [put, others]
  | cons x rest ih =>
      obtain ⟨k, v⟩ := x
      by_cases hk : k = key
      · subst hk
        simp [put, others]
      · have hothers : others key ((k, v) :: rest) = (k, v) :: others key rest := by
          simp [others, hk]
        rw [hothers, put, if_neg hk, List.mem_cons, List.mem_cons, ih]
        tauto

theorem mem_of_mem_others {key : String} {members : Members} {m : String × Json}
    (h : m ∈ members.others key) : m ∈ members := List.mem_of_mem_eraseP h

/-- Two objects that differ in the value of one key, compared member by member. -/
theorem forall₂_put_iff {P : String × Json → String × Json → Prop} {key : String} {x y : Json}
    {members : Members} : List.Forall₂ P (members.put key x) (members.put key y) ↔
      P (key, x) (key, y) ∧ ∀ m ∈ members.others key, P m m := by
  induction members with
  | nil => simp [put, others]
  | cons m rest ih =>
      obtain ⟨k, v⟩ := m
      by_cases hk : k = key
      · subst hk
        simp [put, others]
      · have hothers : others key ((k, v) :: rest) = (k, v) :: others key rest := by
          simp [others, hk]
        rw [hothers, put, put, if_neg hk, if_neg hk, List.forall₂_cons, ih, List.forall_mem_cons]
        tauto

/-! ### Lists of entries -/

/-- Entries are put one after the other. -/
theorem ofList_eq (entries : List (String × Json)) :
    ofList entries = entries.foldl (fun members m => put m.1 m.2 members) [] := rfl

theorem foldl_put_of_nodup {entries : List (String × Json)} {members : Members}
    (h : (members.keys ++ keys entries).Nodup) :
    entries.foldl (fun members m => put m.1 m.2 members) members = members ++ entries := by
  induction entries generalizing members with
  | nil => simp
  | cons m rest ih =>
      have hkeys : keys (m :: rest) = m.1 :: keys rest := rfl
      rw [hkeys] at h
      have hm : m.1 ∉ keys members := by
        intro hm
        exact (List.nodup_append.1 h).2.2 m.1 hm m.1 (by simp) rfl
      rw [List.foldl_cons, put_of_not_mem hm, ih]
      · simp
      · simpa [keys] using h

/-- Entries whose keys are apart stay as they are. -/
theorem ofList_of_nodup {entries : List (String × Json)} (h : (keys entries).Nodup) :
    ofList entries = entries := by
  rw [ofList_eq, foldl_put_of_nodup (by simpa [keys] using h), List.nil_append]

theorem foldl_put_of_length (entries : List (String × Json)) (members : Members) :
    (entries.foldl (fun members m => put m.1 m.2 members) members).length ≤
        members.length + entries.length ∧
      ((entries.foldl (fun members m => put m.1 m.2 members) members).length =
          members.length + entries.length →
        entries.foldl (fun members m => put m.1 m.2 members) members = members ++ entries) := by
  induction entries generalizing members with
  | nil => simp
  | cons m rest ih =>
      rw [List.foldl_cons, List.length_cons]
      obtain ⟨hle, heq⟩ := ih (put m.1 m.2 members)
      rcases length_put m.1 m.2 members with hput | hput
      · have hlen : (put m.1 m.2 members).length = members.length + 1 := by simp [hput]
        refine ⟨by omega, ?_⟩
        intro h
        rw [heq (by omega), hput, List.append_assoc]
        rfl
      · -- a key that was there before costs an entry
        exact ⟨by omega, fun h => by omega⟩

/-- Entries of which none is lost stay as they are. -/
theorem ofList_of_length {entries : List (String × Json)}
    (h : (ofList entries).length = entries.length) : ofList entries = entries := by
  rw [ofList_eq] at h ⊢
  rw [(foldl_put_of_length entries []).2 (by simpa using h), List.nil_append]

end Members

end SchemaScope
