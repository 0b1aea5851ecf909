/-
**The forest of inserted elements.**

An inserted element names its parent, and the forest is found from two sides: its roots are the
entries whose parent's name no other entry has, and below an entry stand the other entries that give
its name as their parent's.  Where no two entries have the same name, both agree with the chain of
parents of an entry: the entry comes up once, as deep as its chain is long, below its parent.  An
entry whose chain is too long, or runs in a circle, does not come up at all.

Main definitions:

* `Schema.IsParent` — another entry has the name of an entry's parent;
* `Schema.ChainEnds` — the chain of parents of an entry ends after a number of steps.

Main results:

* `Schema.mem_forestRoots_iff`, `Schema.mem_forestChildren_iff` — roots and children by parents;
* `Schema.chainEnds_of_nodeAt?` — what comes up has a chain of parents as long as it is deep;
* `Schema.exists_nodeAt?_of_chainEnds` — what has such a chain comes up;
* `Schema.nodeAt?_injective` — nothing comes up twice;
* `Schema.insertion_occurs_iff_chain` — **where an inserted element comes up**.
-/

import SchemaScope.Proofs.Outline.Addresses

set_option autoImplicit false

namespace SchemaScope.Schema

variable {entries : List LayoutEntry}

/-! ### Parents -/

/-- The second entry is another one than the first, and has the name that the first gives as its
parent's. -/
structure IsParent (entries : List LayoutEntry) (i p : Fin entries.length) : Prop where
  ne : p ≠ i
  parentName_eq : (entries.get i).parentName = some (entries.get p).name

instance (entries : List LayoutEntry) (i p : Fin entries.length) :
    Decidable (IsParent entries i p) :=
  decidable_of_iff (p ≠ i ∧ (entries.get i).parentName = some (entries.get p).name)
    ⟨fun h => ⟨h.1, h.2⟩, fun h => ⟨h.ne, h.parentName_eq⟩⟩

/-- From an entry on, going to the parent again and again ends, after a number of steps, at an entry
without a parent. -/
inductive ChainEnds (entries : List LayoutEntry) : Fin entries.length → Nat → Prop
  | root {i : Fin entries.length} : (∀ p, ¬ IsParent entries i p) → ChainEnds entries i 0
  | step {i p : Fin entries.length} {d : Nat} : IsParent entries i p → ChainEnds entries p d →
      ChainEnds entries i (d + 1)

theorem namedElsewhere_iff {i : Fin entries.length} {name : String} :
    namedElsewhere entries i name = true ↔
      ∃ p : Fin entries.length, p ≠ i ∧ (entries.get p).name = name := by
  simp only [namedElsewhere, List.any_eq_true, Bool.and_eq_true, bne_iff_ne, beq_iff_eq]
  constructor
  · rintro ⟨⟨e, k⟩, he, hk, hname⟩
    obtain ⟨hlt, heq⟩ := List.getElem?_eq_some_iff.1 (List.mem_zipIdx_iff_getElem?.1 he)
    refine ⟨⟨k, hlt⟩, fun h => hk (congrArg Fin.val h), ?_⟩
    rw [← hname]
    exact congrArg LayoutEntry.name heq
  · rintro ⟨p, hp, hname⟩
    refine ⟨(entries.get p, p), List.mem_zipIdx_iff_getElem?.2 (List.getElem?_eq_getElem p.2), ?_, hname⟩
    exact fun h => hp (Fin.ext h)

/-- The roots of the forest are the entries without a parent. -/
theorem mem_forestRoots_iff {i : Fin entries.length} :
    i ∈ forestRoots entries ↔ ∀ p, ¬ IsParent entries i p := by
  simp only [forestRoots, List.mem_filter, List.mem_finRange, true_and, Fin.getElem_fin,
    ← List.get_eq_getElem]
  cases hparent : (entries.get i).parentName with
  | none =>
      refine ⟨fun _ p hp => ?_, fun _ => rfl⟩
      rw [hp.parentName_eq] at hparent
      cases hparent
  | some parent =>
      simp only [Bool.not_eq_true', ← Bool.not_eq_true, namedElsewhere_iff, not_exists, not_and]
      constructor
      · intro h p hp
        rw [hp.parentName_eq, Option.some.injEq] at hparent
        exact h p hp.ne hparent
      · intro h p hne hname
        exact h p ⟨hne, by rw [hparent, hname]⟩

/-- Below an entry stand the entries whose parent it is. -/
theorem mem_forestChildren_iff {i p : Fin entries.length} :
    i ∈ forestChildren entries p ↔ IsParent entries i p := by
  simp only [forestChildren, List.mem_filter, List.mem_finRange, true_and, Bool.and_eq_true,
    bne_iff_ne, beq_iff_eq]
  exact ⟨fun h => ⟨h.1.symm, h.2⟩, fun h => ⟨h.ne.symm, h.parentName_eq⟩⟩

theorem forestRoots_pairwise (entries : List LayoutEntry) :
    (forestRoots entries).Pairwise (· < ·) :=
  (List.pairwise_lt_finRange _).filter _

theorem forestChildren_pairwise (entries : List LayoutEntry) (p : Fin entries.length) :
    (forestChildren entries p).Pairwise (· < ·) :=
  (List.pairwise_lt_finRange _).filter _

/-! ### What comes up in the outline -/

/-- The group of inserted elements, as a node of the outline. -/
def insertGroup (entries : List LayoutEntry) : OutlineNode := .layoutGroup ⟨.insert, entries⟩

/-- An entry comes up at an address below the group of inserted elements. -/
def Occurs (entries : List LayoutEntry) (i : Fin entries.length) (address : List Nat) : Prop :=
  ∃ depth, (insertGroup entries).nodeAt? address = some (.insertion ⟨entries, i, depth⟩)

theorem children_insertGroup (entries : List LayoutEntry) : (insertGroup entries).children =
    (forestRoots entries).map fun i => OutlineNode.insertion ⟨entries, i, 0⟩ := by
  simp [insertGroup, OutlineNode.children, OutlineNode.ofLayoutGroup, insertions]

theorem children_insertion (p : Fin entries.length) (depth : Nat) :
    (OutlineNode.insertion ⟨entries, p, depth⟩).children =
      if depth < maxDepth then
        (forestChildren entries p).map fun i => OutlineNode.insertion ⟨entries, i, depth + 1⟩
      else [] := by
  simp only [OutlineNode.children, Insertion.children]
  split <;> simp

/-- What comes up is an entry as deep as its address says: a root in the group itself, and any other
entry below its parent. -/
theorem nodeAt?_cases {address : List Nat} {k : Nat} {n : OutlineNode}
    (h : (insertGroup entries).nodeAt? (address ++ [k]) = some n) :
    ∃ i, n = .insertion ⟨entries, i, address.length⟩ ∧ address.length ≤ maxDepth ∧
      ((address = [] ∧ (forestRoots entries)[k]? = some i) ∨
        ∃ p depth, address.length = depth + 1 ∧
          (insertGroup entries).nodeAt? address = some (.insertion ⟨entries, p, depth⟩) ∧
          (forestChildren entries p)[k]? = some i) := by
  induction address using List.reverseRecOn generalizing k n with
  | nil =>
      obtain ⟨m, hm, hn⟩ := OutlineNode.nodeAt?_concat_eq_some.1 h
      cases hm
      rw [children_insertGroup, List.getElem?_map, Option.map_eq_some_iff] at hn
      obtain ⟨i, hi, rfl⟩ := hn
      exact ⟨i, rfl, Nat.zero_le _, .inl ⟨rfl, hi⟩⟩
  | append_singleton address l ih =>
      obtain ⟨m, hm, hn⟩ := OutlineNode.nodeAt?_concat_eq_some.1 h
      obtain ⟨p, rfl, -, -⟩ := ih hm
      rw [children_insertion] at hn
      split at hn
      · next hdepth =>
        rw [List.getElem?_map, Option.map_eq_some_iff] at hn
        obtain ⟨i, hi, rfl⟩ := hn
        rw [List.length_append, List.length_singleton]
        exact ⟨i, rfl, hdepth, .inr ⟨p, _, rfl, hm, hi⟩⟩
      · simp at hn

theorem not_occurs_nil (i : Fin entries.length) : ¬ Occurs entries i [] := by
  rintro ⟨depth, h⟩
  simp [insertGroup] at h

/-- An entry that comes up was found as a root or as a child of another entry that comes up. -/
theorem Occurs.cases {address : List Nat} {k : Nat} {i : Fin entries.length}
    (h : Occurs entries i (address ++ [k])) :
    (address = [] ∧ (forestRoots entries)[k]? = some i) ∨
      ∃ p, Occurs entries p address ∧ (forestChildren entries p)[k]? = some i := by
  obtain ⟨depth, h⟩ := h
  obtain ⟨j, hj, -, hcases⟩ := nodeAt?_cases h
  simp only [OutlineNode.insertion.injEq, Insertion.mk.injEq, heq_eq_eq, true_and] at hj
  obtain ⟨rfl, -⟩ := hj
  rcases hcases with hroot | ⟨p, depth, -, hp, hi⟩
  · exact .inl hroot
  · exact .inr ⟨p, ⟨depth, hp⟩, hi⟩

/-- What comes up has a chain of parents as long as it is deep. -/
theorem chainEnds_of_nodeAt? {address : List Nat} {i : Fin entries.length} {depth : Nat}
    (h : (insertGroup entries).nodeAt? address = some (.insertion ⟨entries, i, depth⟩)) :
    address.length = depth + 1 ∧ depth ≤ maxDepth ∧ ChainEnds entries i depth := by
  induction address using List.reverseRecOn generalizing i depth with
  | nil => exact absurd ⟨depth, h⟩ (not_occurs_nil i)
  | append_singleton address k ih =>
      obtain ⟨j, hj, hle, hcases⟩ := nodeAt?_cases h
      simp only [OutlineNode.insertion.injEq, Insertion.mk.injEq, heq_eq_eq, true_and] at hj
      obtain ⟨rfl, rfl⟩ := hj
      refine ⟨by simp, hle, ?_⟩
      rcases hcases with ⟨rfl, hi⟩ | ⟨p, d, hlen, hp, hi⟩
      · exact .root (mem_forestRoots_iff.1 (List.mem_of_getElem? hi))
      · rw [hlen]
        exact .step (mem_forestChildren_iff.1 (List.mem_of_getElem? hi)) (ih hp).2.2

/-- What has a chain of parents that is not too long comes up. -/
theorem exists_nodeAt?_of_chainEnds {i : Fin entries.length} {depth : Nat}
    (h : ChainEnds entries i depth) (hdepth : depth ≤ maxDepth) :
    ∃ address, (insertGroup entries).nodeAt? address = some (.insertion ⟨entries, i, depth⟩) := by
  induction h with
  | @root i hi =>
      obtain ⟨k, hk⟩ := List.getElem?_of_mem (mem_forestRoots_iff.2 hi)
      refine ⟨[] ++ [k], OutlineNode.nodeAt?_concat_eq_some.2 ⟨_, rfl, ?_⟩⟩
      rw [children_insertGroup, List.getElem?_map, hk]
      rfl
  | @step i p d hi _ ih =>
      obtain ⟨address, hp⟩ := ih (by omega)
      obtain ⟨k, hk⟩ := List.getElem?_of_mem (mem_forestChildren_iff.2 hi)
      refine ⟨address ++ [k], OutlineNode.nodeAt?_concat_eq_some.2 ⟨_, hp, ?_⟩⟩
      rw [children_insertion, if_pos (by omega), List.getElem?_map, hk]
      rfl

/-! ### Order and uniqueness -/

/-- Positions in an increasing list are in the order of what stands there. -/
theorem lt_iff_of_getElem? {n : Nat} {indices : List (Fin n)} (h : indices.Pairwise (· < ·))
    {j k : Nat} {x y : Fin n} (hx : indices[j]? = some x) (hy : indices[k]? = some y) :
    j < k ↔ x < y := by
  obtain ⟨hj, rfl⟩ := List.getElem?_eq_some_iff.1 hx
  obtain ⟨hk, rfl⟩ := List.getElem?_eq_some_iff.1 hy
  have hlt := List.pairwise_iff_getElem.1 h
  rcases lt_trichotomy j k with hjk | rfl | hkj
  · exact ⟨fun _ => hlt j k hj hk hjk, fun _ => hjk⟩
  · simp
  · have hyx := hlt k j hk hj hkj
    exact ⟨fun h => by omega, fun h => absurd h hyx.not_gt⟩

theorem eq_of_getElem? {n : Nat} {indices : List (Fin n)} (h : indices.Pairwise (· < ·)) {j k : Nat}
    {x : Fin n} (hj : indices[j]? = some x) (hk : indices[k]? = some x) : j = k := by
  have hjk := lt_iff_of_getElem? h hj hk
  have hkj := lt_iff_of_getElem? h hk hj
  simp only [lt_irrefl, iff_false] at hjk hkj
  omega

theorem Occurs.index_eq {i j : Fin entries.length} {address : List Nat}
    (hi : Occurs entries i address) (hj : Occurs entries j address) : i = j := by
  obtain ⟨d, hd⟩ := hi
  obtain ⟨e, he⟩ := hj
  have h := hd.symm.trans he
  simp only [Option.some.injEq, OutlineNode.insertion.injEq, Insertion.mk.injEq, heq_eq_eq,
    true_and] at h
  exact h.1

/-- Entries side by side keep their order. -/
theorem Occurs.lt_iff {address : List Nat} {j k : Nat} {x y : Fin entries.length}
    (hx : Occurs entries x (address ++ [j])) (hy : Occurs entries y (address ++ [k])) :
    j < k ↔ x < y := by
  rcases hx.cases with ⟨rfl, hj⟩ | ⟨p, hp, hj⟩
  · rcases hy.cases with ⟨-, hk⟩ | ⟨q, hq, -⟩
    · exact lt_iff_of_getElem? (forestRoots_pairwise entries) hj hk
    · exact absurd hq (not_occurs_nil q)
  · rcases hy.cases with ⟨rfl, -⟩ | ⟨q, hq, hk⟩
    · exact absurd hp (not_occurs_nil p)
    · rw [hq.index_eq hp] at hk
      exact lt_iff_of_getElem? (forestChildren_pairwise entries p) hj hk

section DistinctNames

variable (hnames : (entries.map LayoutEntry.name).Nodup)

include hnames

/-- An entry has at most one parent. -/
theorem IsParent.unique {i p q : Fin entries.length} (hp : IsParent entries i p)
    (hq : IsParent entries i q) : p = q := by
  have hname : (entries.get p).name = (entries.get q).name :=
    Option.some.inj (hp.parentName_eq.symm.trans hq.parentName_eq)
  have hlt : p.val < (entries.map LayoutEntry.name).length := by simp
  refine Fin.ext ((List.getElem?_inj hlt hnames).1 ?_)
  simpa using hname

/-- No entry comes up twice. -/
theorem Occurs.unique {i : Fin entries.length} {address other : List Nat}
    (h : Occurs entries i address) (h' : Occurs entries i other) : address = other := by
  induction address using List.reverseRecOn generalizing i other with
  | nil => exact absurd h (not_occurs_nil i)
  | append_singleton address k ih =>
      cases other using List.reverseRecOn with
      | nil => exact absurd h' (not_occurs_nil i)
      | append_singleton other l =>
          -- a root has no parent, so the entry is a root on both sides or a child on both sides
          rcases h.cases with ⟨rfl, hi⟩ | ⟨p, hp, hi⟩
          · have hroot := mem_forestRoots_iff.1 (List.mem_of_getElem? hi)
            rcases h'.cases with ⟨rfl, hi'⟩ | ⟨q, -, hi'⟩
            · rw [eq_of_getElem? (forestRoots_pairwise entries) hi hi']
            · exact absurd (mem_forestChildren_iff.1 (List.mem_of_getElem? hi')) (hroot q)
          · have hparent := mem_forestChildren_iff.1 (List.mem_of_getElem? hi)
            rcases h'.cases with ⟨rfl, hi'⟩ | ⟨q, hq, hi'⟩
            · exact absurd hparent (mem_forestRoots_iff.1 (List.mem_of_getElem? hi') p)
            · have hpq := hparent.unique hnames (mem_forestChildren_iff.1 (List.mem_of_getElem? hi'))
              subst hpq
              rw [ih hp hq, eq_of_getElem? (forestChildren_pairwise entries p) hi hi']

/-- An entry that has a parent comes up directly below it. -/
theorem Occurs.dropLast {i p : Fin entries.length} {address : List Nat}
    (h : Occurs entries i address) (hp : IsParent entries i p) :
    Occurs entries p address.dropLast := by
  cases address using List.reverseRecOn with
  | nil => exact absurd h (not_occurs_nil i)
  | append_singleton address k =>
      rw [List.dropLast_concat]
      rcases h.cases with ⟨rfl, hi⟩ | ⟨q, hq, hi⟩
      · exact absurd hp (mem_forestRoots_iff.1 (List.mem_of_getElem? hi) p)
      · rwa [hp.unique hnames (mem_forestChildren_iff.1 (List.mem_of_getElem? hi))]

end DistinctNames

/-- **Where an inserted element comes up.**  Let no two entries have the same name.  An entry whose
chain of parents ends after `depth` steps, within the greatest depth, comes up at one address and no
other; it is as deep as its chain is long, so without a parent it stands in the group itself, and
with one directly below it.  An entry whose chain is longer or does not end comes up nowhere.  Nothing
else comes up, and entries side by side are in their order. -/
theorem insertion_occurs_iff_chain (hnames : (entries.map LayoutEntry.name).Nodup) :
    (∀ i depth, ChainEnds entries i depth → depth ≤ maxDepth →
      ∃ address, (insertGroup entries).nodeAt? address = some (.insertion ⟨entries, i, depth⟩) ∧
        address.length = depth + 1 ∧
        (∀ other, Occurs entries i other → other = address) ∧
        ∀ p, IsParent entries i p → Occurs entries p address.dropLast) ∧
    (∀ i, (∀ depth ≤ maxDepth, ¬ ChainEnds entries i depth) →
      ∀ address, ¬ Occurs entries i address) ∧
    (∀ address n, address ≠ [] → (insertGroup entries).nodeAt? address = some n →
      ∃ i, n = .insertion ⟨entries, i, address.length - 1⟩) ∧
    ∀ address j k x y, Occurs entries x (address ++ [j]) → Occurs entries y (address ++ [k]) →
      (j < k ↔ x < y) := by
  refine ⟨?_, ?_, ?_, ?_⟩
  · intro i depth hchain hdepth
    obtain ⟨address, h⟩ := exists_nodeAt?_of_chainEnds hchain hdepth
    have hoccurs : Occurs entries i address := ⟨depth, h⟩
    refine ⟨address, h, (chainEnds_of_nodeAt? h).1, ?_, ?_⟩
    · intro other hother
      exact hother.unique hnames hoccurs
    · intro p hp
      exact hoccurs.dropLast hnames hp
  · rintro i hi address ⟨depth, h⟩
    obtain ⟨-, hdepth, hchain⟩ := chainEnds_of_nodeAt? h
    exact hi depth hdepth hchain
  · intro address n hne h
    cases address using List.reverseRecOn with
    | nil => exact absurd rfl hne
    | append_singleton address k =>
        obtain ⟨i, rfl, -⟩ := nodeAt?_cases h
        exact ⟨i, by simp⟩
  · intro address j k x y hx hy
    exact hx.lt_iff hy

/-- An inserted element with a name and the name of its parent. -/
def inserted (name : String) (parent : Option String) : LayoutEntry :=
  ⟨.insert, name, parent, none, none, none, default⟩

/-- Entries with every kind of parent: none, a known one, two in a circle, itself, an unknown one. -/
def mixedEntries : List LayoutEntry :=
  [inserted "Tabs" none, inserted "Tab" "Tabs", inserted "Left" "Right", inserted "Right" "Left",
    inserted "Self" "Self", inserted "Field" "Page"]

/-- A tab comes up once, below its tabs; two elements inside each other do not come up; an element
that names itself is a root. -/
theorem insertion_occurs_iff_chain_mixed :
    (∃ address, address.length = 2 ∧
      (∀ other, Occurs mixedEntries ⟨1, by decide⟩ other → other = address) ∧
      Occurs mixedEntries ⟨0, by decide⟩ address.dropLast) ∧
    (∀ address, ¬ Occurs mixedEntries ⟨2, by decide⟩ address) ∧
    ∃ address, address.length = 1 ∧ Occurs mixedEntries ⟨4, by decide⟩ address := by
  have hroot : ChainEnds mixedEntries ⟨0, by decide⟩ 0 := .root (by decide)
  have htab : ChainEnds mixedEntries ⟨1, by decide⟩ 1 := .step (by decide) hroot
  have hself : ChainEnds mixedEntries ⟨4, by decide⟩ 0 := .root (by decide)
  have hcircle : ∀ i depth, ChainEnds mixedEntries i depth → i.val ≠ 2 ∧ i.val ≠ 3 := by
    intro i depth h
    induction h with
    | @root i hi =>
        have h : ∀ i, (∀ p, ¬ IsParent mixedEntries i p) → i.val ≠ 2 ∧ i.val ≠ 3 := by decide
        exact h i hi
    | @step i p d hi _ ih =>
        have h : ∀ i p, IsParent mixedEntries i p → p.val ≠ 2 ∧ p.val ≠ 3 →
            i.val ≠ 2 ∧ i.val ≠ 3 := by decide
        exact h i p hi ih
  have hnames : (mixedEntries.map LayoutEntry.name).Nodup := by decide
  obtain ⟨hends, hlost, -, -⟩ := insertion_occurs_iff_chain hnames
  refine ⟨?_, ?_, ?_⟩
  · obtain ⟨address, -, hlen, hunique, hparent⟩ := hends _ 1 htab (by decide)
    exact ⟨address, hlen, hunique, hparent _ (by decide)⟩
  · refine hlost _ ?_
    intro depth _ h
    exact (hcircle _ depth h).1 rfl
  · obtain ⟨address, hat, hlen, -⟩ := hends _ 0 hself (by decide)
    exact ⟨address, hlen, 0, hat⟩

end SchemaScope.Schema
