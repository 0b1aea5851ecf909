/-
**Tables under texts.**

A table holds one value under each of its keys, sorted by key.  Two tables that answer every look-up
alike are the same table.

Main definitions:

* `Table`, `Table.entries` — a table and its entries in order;
* `Table.get?`, `Table.put`, `Table.putNew` — look-up, assignment, and assignment of a new key;
* `Table.ofList`, `Table.ofListFirst` — the table of a list in which the last, or the first, value
  of a key counts.

Main results:

* `Table.get?_put_self`, `Table.get?_put_of_ne` — what an assignment does to look-ups;
* `Table.ext_get?` — look-ups determine a table;
* `Table.get?_ofList`, `Table.get?_ofListFirst` — look-ups in the table of a list.
-/

set_option autoImplicit false

namespace SchemaScope

/-- Values under keys, sorted by key. -/
structure Table (α : Type) where
  entries : List (String × α)
  sorted : entries.Pairwise (fun a b => a.1 < b.1) := by simp

namespace Table

variable {α : Type}

/-! ### Entries -/

/-- The value that sorted entries hold under a key. -/
def lookup (key : String) : List (String × α) → Option α
  | [] => none
  | (k, v) :: rest => if k = key then some v else lookup key rest

/-- Sorted entries with a value under a key. -/
def insert (key : String) (value : α) : List (String × α) → List (String × α)
  | [] => [(key, value)]
  | (k, v) :: rest =>
      if k = key then (k, value) :: rest
      else if key < k then (key, value) :: (k, v) :: rest
      else (k, v) :: insert key value rest

theorem mem_insert {key : String} {value : α} {entries : List (String × α)} {e : String × α}
    (h : e ∈ insert key value entries) : e.1 = key ∨ e ∈ entries := by
  induction entries with
  | nil => simp_all [insert]
  | cons x rest ih =>
      obtain ⟨k, v⟩ := x
      rw [insert] at h
      split at h
      · rename_i hk
        rcases List.mem_cons.1 h with rfl | h
        · exact .inl hk
        · exact .inr (List.mem_cons_of_mem _ h)
      · split at h
        · rcases List.mem_cons.1 h with rfl | h
          · exact .inl rfl
          · exact .inr h
        · rcases List.mem_cons.1 h with rfl | h
          · exact .inr (List.mem_cons_self ..)
          · exact (ih h).imp id (List.mem_cons_of_mem _)

/-- Inserting keeps the order. -/
theorem insert_sorted (key : String) (value : α) {entries : List (String × α)}
    (h : entries.Pairwise (fun a b => a.1 < b.1)) :
    (insert key value entries).Pairwise (fun a b => a.1 < b.1) := by
  induction entries with
  | nil => simp [insert]
  | cons x rest ih =>
      obtain ⟨k, v⟩ := x
      obtain ⟨hx, hrest⟩ := List.pairwise_cons.1 h
      rw [insert]
      split
      · exact List.pairwise_cons.2 ⟨hx, hrest⟩
      · rename_i hne
        split
        · rename_i hlt
          refine List.pairwise_cons.2 ⟨fun b hb => ?_, h⟩
          rcases List.mem_cons.1 hb with rfl | hb
          · exact hlt
          · exact String.lt_trans hlt (hx b hb)
        · rename_i hge
          have hkey : k < key := by
            rcases Classical.em (k < key) with hlt | hnlt
            · exact hlt
            · exact absurd (String.le_antisymm hge hnlt) hne
          refine List.pairwise_cons.2 ⟨fun b hb => ?_, ih hrest⟩
          rcases mem_insert hb with heq | hb
          · exact heq ▸ hkey
          · exact hx b hb

theorem lookup_insert_self (key : String) (value : α) (entries : List (String × α)) :
    lookup key (insert key value entries) = some value := by
  induction entries with
  | nil => simp [insert, lookup]
  | cons x rest ih =>
      obtain ⟨k, v⟩ := x
      rw [insert]
      split
      · simp_all [lookup]
      · split <;> simp_all [lookup]

theorem lookup_insert_of_ne {key other : String} (h : other ≠ key) (value : α)
    (entries : List (String × α)) :
    lookup other (insert key value entries) = lookup other entries := by
  induction entries with
  | nil => simp [insert, lookup, Ne.symm h]
  | cons x rest ih =>
      obtain ⟨k, v⟩ := x
      rw [insert]
      split
      · rename_i hk
        subst hk
        simp [lookup, Ne.symm h]
      · split
        · simp [lookup, Ne.symm h]
        · simp [lookup, ih]

theorem lookup_eq_none {key : String} {entries : List (String × α)}
    (h : ∀ e ∈ entries, key < e.1) : lookup key entries = none := by
  induction entries with
  | nil => rfl
  | cons x rest ih =>
      obtain ⟨k, v⟩ := x
      have hk : k ≠ key := fun heq => String.lt_irrefl key (heq ▸ h (k, v) (List.mem_cons_self ..))
      simp [lookup, hk, ih fun e he => h e (List.mem_cons_of_mem _ he)]

/-- Sorted entries that answer every look-up alike are the same. -/
theorem lookup_ext {s t : List (String × α)} (hs : s.Pairwise (fun a b => a.1 < b.1))
    (ht : t.Pairwise (fun a b => a.1 < b.1)) (h : ∀ key, lookup key s = lookup key t) : s = t := by
  induction s generalizing t with
  | nil =>
      cases t with
      | nil => rfl
      | cons y t => simpa [lookup] using h y.1
  | cons x s ih =>
      cases t with
      | nil => simpa [lookup] using h x.1
      | cons y t =>
          obtain ⟨k, v⟩ := x
          obtain ⟨k', v'⟩ := y
          obtain ⟨hx, hs'⟩ := List.pairwise_cons.1 hs
          obtain ⟨hy, ht'⟩ := List.pairwise_cons.1 ht
          have below {a b : String} {w : α} {r : List (String × α)} (hr : ∀ e ∈ r, b < e.1)
              (hab : a < b) : lookup a ((b, w) :: r) = none :=
            lookup_eq_none fun e he => (List.mem_cons.1 he).elim (fun heq => heq ▸ hab)
              fun he => String.lt_trans hab (hr e he)
          have hkey : k = k' := by
            refine String.le_antisymm (fun hlt => ?_) fun hlt => ?_
            · have := h k'
              rw [below hx hlt] at this
              simp [lookup] at this
            · have := h k
              rw [below hy hlt] at this
              simp [lookup] at this
          subst hkey
          have hv : v = v' := by simpa [lookup] using h k
          subst hv
          congr 1
          refine ih hs' ht' fun key => ?_
          by_cases hk : k = key
          · subst hk
            rw [lookup_eq_none hx, lookup_eq_none hy]
          · simpa [lookup, hk] using h key

/-! ### Tables -/

/-- The table without entries. -/
def empty : Table α := ⟨[], by simp⟩

instance : Inhabited (Table α) := ⟨empty⟩

/-- The value under a key. -/
def get? (t : Table α) (key : String) : Option α := lookup key t.entries

/-- The table with a value under a key. -/
def put (t : Table α) (key : String) (value : α) : Table α :=
  ⟨insert key value t.entries, insert_sorted key value t.sorted⟩

/-- The table with a value under a key, unless there is one. -/
def putNew (t : Table α) (key : String) (value : α) : Table α :=
  if (t.get? key).isSome then t else t.put key value

/-- The keys in order. -/
def keys (t : Table α) : List String := t.entries.map Prod.fst

@[simp] theorem get?_empty (key : String) : (empty : Table α).get? key = none := rfl

@[simp] theorem get?_put_self (t : Table α) (key : String) (value : α) :
    (t.put key value).get? key = some value := lookup_insert_self ..

theorem get?_put_of_ne (t : Table α) {key other : String} (h : other ≠ key) (value : α) :
    (t.put key value).get? other = t.get? other := lookup_insert_of_ne h ..

/-- Tables that answer every look-up alike are the same. -/
theorem ext_get? {s t : Table α} (h : ∀ key, s.get? key = t.get? key) : s = t := by
  obtain ⟨s, hs⟩ := s
  obtain ⟨t, ht⟩ := t
  simpa using lookup_ext hs ht h

/-- The table of a list.  Of several values under one key the last one counts. -/
def ofList (entries : List (String × α)) : Table α :=
  entries.foldl (fun t (key, value) => t.put key value) empty

/-- The table of a list.  Of several values under one key the first one counts. -/
def ofListFirst (entries : List (String × α)) : Table α :=
  entries.foldl (fun t (key, value) => t.putNew key value) empty

theorem get?_foldl_put (entries : List (String × α)) (t : Table α) (key : String) :
    (entries.foldl (fun t (key, value) => t.put key value) t).get? key =
      ((entries.reverse.find? (·.1 = key)).map Prod.snd).or (t.get? key) := by
  induction entries generalizing t with
  | nil => simp
  | cons x rest ih =>
      obtain ⟨k, v⟩ := x
      rw [List.foldl_cons, ih, List.reverse_cons, List.find?_append]
      by_cases h : k = key
      · subst h
        cases rest.reverse.find? (·.1 = k) <;> simp
      · cases rest.reverse.find? (·.1 = key) <;> simp [h, get?_put_of_ne t (Ne.symm h)]

/-- The value under a key is the last one of the list. -/
theorem get?_ofList (entries : List (String × α)) (key : String) :
    (ofList entries).get? key = (entries.reverse.find? (·.1 = key)).map Prod.snd := by
  simp [ofList, get?_foldl_put]

theorem get?_foldl_putNew (entries : List (String × α)) (t : Table α) (key : String) :
    (entries.foldl (fun t (key, value) => t.putNew key value) t).get? key =
      (t.get? key).or ((entries.find? (·.1 = key)).map Prod.snd) := by
  induction entries generalizing t with
  | nil => simp
  | cons x rest ih =>
      obtain ⟨k, v⟩ := x
      rw [List.foldl_cons, ih]
      by_cases h : k = key
      · subst h
        cases ht : t.get? k <;> simp [putNew, ht]
      · have hne := get?_put_of_ne t (Ne.symm h) v
        cases ht : t.get? k <;> simp [putNew, ht, h, hne]

/-- The value under a key is the first one of the list. -/
theorem get?_ofListFirst (entries : List (String × α)) (key : String) :
    (ofListFirst entries).get? key = (entries.find? (·.1 = key)).map Prod.snd := by
  simp [ofListFirst, get?_foldl_putNew]

end Table

end SchemaScope
