/-
**Inserted elements that share a name.**

What stands below an inserted element is found by its name.  Where two elements share a name,
whatever is put into an element of that name stands below both, and so comes up twice, although no
chain of parents runs in a circle.  This is the only way for an element to come up twice: two
different parents, neither of them so deep that the forest is not followed below it.

Main definitions:

* `Schema.Acyclic` — no chain of parents comes back to where it started;
* `Schema.Shallow` — some chain of parents of an entry ends before the greatest depth.

Main results:

* `Schema.Occurs.shallow_cases` — what an entry that comes up stands below;
* `Schema.Acyclic.exists_chainEnds` — without circles, every chain of parents ends, and within the
  number of entries;
* `Schema.occurs_once_iff_parent_unique` — **when no element comes up twice**.
-/

import SchemaScope.Proofs.Outline.Forest

set_option autoImplicit false

namespace SchemaScope.Schema

open Relation

variable {entries : List LayoutEntry}

/-! ### Chains without circles -/

/-- No entry is reached again by going from parent to parent. -/
def Acyclic (entries : List LayoutEntry) : Prop := ∀ i, ¬ TransGen (IsParent entries) i i

/-- Some chain of parents of the entry ends before the greatest depth, so the forest is followed
below the entry. -/
def Shallow (entries : List LayoutEntry) (i : Fin entries.length) : Prop :=
  ∃ depth < maxDepth, ChainEnds entries i depth

/-- Without circles, going from parent to parent is well-founded. -/
theorem Acyclic.wellFounded (h : Acyclic entries) :
    WellFounded fun p i => TransGen (IsParent entries) i p := by
  have htrans : IsTrans (Fin entries.length) fun p i => TransGen (IsParent entries) i p :=
    ⟨fun _ _ _ hab hbc => hbc.trans hab⟩
  have hirrefl : Std.Irrefl fun p i => TransGen (IsParent entries) i p := ⟨h⟩
  exact Finite.wellFounded_of_trans_of_irrefl _

/-- The entries along a chain are all different, and are reached from where it starts. -/
theorem ChainEnds.exists_nodup (h : Acyclic entries) {i : Fin entries.length} {depth : Nat}
    (hi : ChainEnds entries i depth) :
    ∃ chain : List (Fin entries.length), chain.length = depth + 1 ∧ chain.Nodup ∧
      ∀ p ∈ chain, ReflTransGen (IsParent entries) i p := by
  induction hi with
  | @root i _ =>
      refine ⟨[i], rfl, List.nodup_singleton i, ?_⟩
      intro p hp
      rw [List.mem_singleton.1 hp]
  | @step i p d hp _ ih =>
      obtain ⟨chain, hlen, hnodup, hreach⟩ := ih
      refine ⟨i :: chain, by rw [List.length_cons, hlen], List.nodup_cons.2 ⟨?_, hnodup⟩, ?_⟩
      · intro hi
        exact h i (.head' hp (hreach i hi))
      · intro q hq
        rcases List.mem_cons.1 hq with rfl | hq
        · exact .refl
        · exact .head hp (hreach q hq)

/-- **Without circles every chain of parents ends**, and within the number of entries. -/
theorem Acyclic.exists_chainEnds (h : Acyclic entries) (i : Fin entries.length) :
    ∃ depth < entries.length, ChainEnds entries i depth := by
  have hends : ∃ depth, ChainEnds entries i depth := by
    induction i using h.wellFounded.induction with
    | _ i ih =>
        by_cases hroot : ∃ p, IsParent entries i p
        · obtain ⟨p, hp⟩ := hroot
          obtain ⟨depth, hdepth⟩ := ih p (.single hp)
          exact ⟨depth + 1, .step hp hdepth⟩
        · exact ⟨0, .root (not_exists.1 hroot)⟩
  obtain ⟨depth, hdepth⟩ := hends
  obtain ⟨chain, hlen, hnodup, -⟩ := hdepth.exists_nodup h
  have hle := hnodup.length_le_card
  rw [hlen, Fintype.card_fin] at hle
  exact ⟨depth, hle, hdepth⟩

/-! ### What an entry comes up below -/

/-- An entry that comes up is a root, or stands below a parent that comes up before the greatest
depth. -/
theorem Occurs.shallow_cases {address : List Nat} {k : Nat} {i : Fin entries.length}
    (h : Occurs entries i (address ++ [k])) :
    (address = [] ∧ (forestRoots entries)[k]? = some i) ∨
      ∃ p, Occurs entries p address ∧ Shallow entries p ∧ IsParent entries i p ∧
        (forestChildren entries p)[k]? = some i := by
  obtain ⟨depth, h⟩ := h
  obtain ⟨j, hj, hle, hcases⟩ := nodeAt?_cases h
  simp only [OutlineNode.insertion.injEq, Insertion.mk.injEq, heq_eq_eq, true_and] at hj
  obtain ⟨rfl, -⟩ := hj
  rcases hcases with hroot | ⟨p, d, hlen, hp, hi⟩
  · exact .inl hroot
  · have hshallow : Shallow entries p := ⟨d, by omega, (chainEnds_of_nodeAt? hp).2.2⟩
    exact .inr ⟨p, ⟨d, hp⟩, hshallow, mem_forestChildren_iff.1 (List.mem_of_getElem? hi), hi⟩

/-- An entry with a parent above the greatest depth comes up below it. -/
theorem Shallow.exists_occurs {i p : Fin entries.length} (h : Shallow entries p)
    (hp : IsParent entries i p) :
    ∃ address k, Occurs entries p address ∧ Occurs entries i (address ++ [k]) := by
  obtain ⟨depth, hlt, hchain⟩ := h
  obtain ⟨address, hat⟩ := exists_nodeAt?_of_chainEnds hchain (by omega)
  obtain ⟨k, hk⟩ := List.getElem?_of_mem (mem_forestChildren_iff.2 hp)
  refine ⟨address, k, ⟨depth, hat⟩, depth + 1, OutlineNode.nodeAt?_concat_eq_some.2 ⟨_, hat, ?_⟩⟩
  rw [children_insertion, if_pos hlt, List.getElem?_map, hk]
  rfl

/-- No entry has two different parents above the greatest depth. -/
def ParentUnique (entries : List LayoutEntry) : Prop :=
  ∀ i p q, IsParent entries i p → IsParent entries i q → Shallow entries p →
    Shallow entries q → p = q

/-- If no entry has two parents, no entry comes up twice. -/
theorem ParentUnique.occurs_unique (h : ParentUnique entries) {i : Fin entries.length}
    {address other : List Nat} (hi : Occurs entries i address) (hi' : Occurs entries i other) :
    address = other := by
  induction address using List.reverseRecOn generalizing i other with
  | nil => exact absurd hi (not_occurs_nil i)
  | append_singleton address k ih =>
      cases other using List.reverseRecOn with
      | nil => exact absurd hi' (not_occurs_nil i)
      | append_singleton other l =>
          -- a root has no parent, so the entry is a root on both sides or a child on both sides
          rcases hi.shallow_cases with ⟨rfl, hk⟩ | ⟨p, hp, hshallow, hparent, hk⟩
          · have hroot := mem_forestRoots_iff.1 (List.mem_of_getElem? hk)
            rcases hi'.shallow_cases with ⟨rfl, hl⟩ | ⟨q, -, -, hparent, -⟩
            · rw [eq_of_getElem? (forestRoots_pairwise entries) hk hl]
            · exact absurd hparent (hroot q)
          · rcases hi'.shallow_cases with ⟨rfl, hl⟩ | ⟨q, hq, hshallow', hparent', hl⟩
            · exact absurd hparent (mem_forestRoots_iff.1 (List.mem_of_getElem? hl) p)
            · have hpq := h i p q hparent hparent' hshallow hshallow'
              subst hpq
              rw [ih hp hq, eq_of_getElem? (forestChildren_pairwise entries p) hk hl]

/-- If no entry comes up twice, no entry has two parents. -/
theorem parentUnique_of_occurs_unique
    (h : ∀ i address other, Occurs entries i address → Occurs entries i other → address = other) :
    ParentUnique entries := by
  intro i p q hp hq hshallow hshallow'
  obtain ⟨address, k, hat, hi⟩ := hshallow.exists_occurs hp
  obtain ⟨other, l, hat', hi'⟩ := hshallow'.exists_occurs hq
  have haddress : address = other := (List.append_inj (h i _ _ hi hi') (by
    have hlen := congrArg List.length (h i _ _ hi hi')
    simpa using hlen)).1
  subst haddress
  exact hat.index_eq hat'

/-- **When no element comes up twice.**  Let no chain of parents run in a circle.  No entry comes up
twice exactly if no entry has two different parents, parents at the greatest depth not counted.  If
there are no more entries than the greatest depth, none is that deep: then every entry comes up once
and only once exactly if no entry has two different parents. -/
theorem occurs_once_iff_parent_unique (h : Acyclic entries) :
    ((∀ i address other, Occurs entries i address → Occurs entries i other → address = other) ↔
      ParentUnique entries) ∧
    (entries.length ≤ maxDepth →
      ((∀ i, ∃! address, Occurs entries i address) ↔
        ∀ i p q, IsParent entries i p → IsParent entries i q → p = q)) := by
  have honce : (∀ i address other, Occurs entries i address → Occurs entries i other →
      address = other) ↔ ParentUnique entries :=
    ⟨parentUnique_of_occurs_unique, fun hunique _ _ _ hi hi' => hunique.occurs_unique hi hi'⟩
  refine ⟨honce, fun hlen => ?_⟩
  have hshallow : ∀ i, Shallow entries i := by
    intro i
    obtain ⟨depth, hlt, hchain⟩ := h.exists_chainEnds i
    exact ⟨depth, by omega, hchain⟩
  constructor
  · intro hexists i p q hp hq
    refine honce.1 ?_ i p q hp hq (hshallow p) (hshallow q)
    intro j address other hj hj'
    exact (hexists j).unique hj hj'
  · intro hunique i
    obtain ⟨depth, hlt, hchain⟩ := hshallow i
    obtain ⟨address, hat⟩ := exists_nodeAt?_of_chainEnds hchain (by omega)
    refine ⟨address, ⟨depth, hat⟩, ?_⟩
    intro other hother
    exact honce.2 (fun j p q hp hq _ _ => hunique j p q hp hq) i _ _ hother ⟨depth, hat⟩

/-- Two elements of one name, and a third that is put into an element of that name. -/
def sharedEntries : List LayoutEntry :=
  [inserted "A" none, inserted "A" none, inserted "B" "A"]

/-- An element below two others of one name comes up twice, although no chain of parents runs in a
circle.  Once the names differ, every element comes up once. -/
theorem occurs_once_iff_parent_unique_shared :
    (∃ i address other, Occurs sharedEntries i address ∧ Occurs sharedEntries i other ∧
      address ≠ other) ∧
    ∀ i, ∃! address, Occurs (sharedEntries.tail) i address := by
  have hacyclic : ∀ entries : List LayoutEntry,
      (∀ i p, IsParent entries i p → p < i) → Acyclic entries := by
    intro entries hlt i hi
    have hdescends : ∀ j, TransGen (IsParent entries) i j → j < i := by
      intro j hj
      induction hj with
      | single hp => exact hlt _ _ hp
      | tail _ hp ih => exact (hlt _ _ hp).trans ih
    exact lt_irrefl i (hdescends i hi)
  constructor
  · have hshared := occurs_once_iff_parent_unique (hacyclic sharedEntries (by decide))
    by_contra hnone
    have hunique : ∀ i address other, Occurs sharedEntries i address →
        Occurs sharedEntries i other → address = other := by
      intro i address other hi hi'
      by_contra hne
      exact hnone ⟨i, address, other, hi, hi', hne⟩
    have hroot : ∀ p : Fin sharedEntries.length, p.val < 2 → Shallow sharedEntries p := by
      intro p hp
      refine ⟨0, by decide, .root ?_⟩
      revert hp
      revert p
      decide
    have htwo := hshared.1.1 hunique ⟨2, by decide⟩ ⟨0, by decide⟩ ⟨1, by decide⟩ (by decide)
      (by decide) (hroot _ (by decide)) (hroot _ (by decide))
    exact absurd (congrArg Fin.val htwo) (by decide)
  · have htail := occurs_once_iff_parent_unique (hacyclic sharedEntries.tail (by decide))
    exact (htail.2 (by decide)).2 (by decide)

end SchemaScope.Schema
