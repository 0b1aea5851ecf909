/-
**Ranges of the nodes of a tree.**

Siblings stand one behind the other in the source, and children inside their parent.  Therefore two
places that start at the same byte lie on one way down, and whatever is entered on this way after
the upper place is a first child.  Only the root is left out: comments before the first and after
the last statement are its children, but do not belong to its range.

Main definitions:

* `Tree.WellRanged` — siblings are ordered and not empty, and children inside their parents;
* `Tree.Inner` — the places of a tree other than its root;
* `Tree.Anchored` — the places that start behind all places of some sort above them.

Main results:

* `Tree.WellRanged.lt_of_nth?` — a child that is not the first starts behind its parent;
* `Tree.WellRanged.at?_or_at?` — **places that start at the same byte lie on one way down**;
* `Tree.WellRanged.below_or_behind`, `Tree.WellRanged.startByte_le` — the walk never goes back in the
  source;
* `Tree.Anchored.eq_of_startByte_eq` — **anchored places are known by their first byte**.
-/

import SchemaScope.Proofs.Script.Places

set_option autoImplicit false

namespace SchemaScope.Script

/-! ### Ranges of a node and its children -/

/-- The children of the node stand one behind the other, and none of them is empty. -/
structure Node.SiblingsOrdered (n : Node) : Prop where
  nonempty : ∀ c ∈ n.children, c.location.startByte < c.location.stopByte
  behind : n.children.Pairwise fun a b => a.location.stopByte ≤ b.location.startByte

instance (n : Node) : Decidable n.SiblingsOrdered :=
  decidable_of_iff ((∀ c ∈ n.children, c.location.startByte < c.location.stopByte) ∧
      n.children.Pairwise fun a b => a.location.stopByte ≤ b.location.startByte)
    ⟨fun h => ⟨h.1, h.2⟩, fun h => ⟨h.nonempty, h.behind⟩⟩

/-- The children of the node stand inside it. -/
def Node.EnclosesChildren (n : Node) : Prop :=
  ∀ c ∈ n.children, n.location.startByte ≤ c.location.startByte ∧
    c.location.stopByte ≤ n.location.stopByte

instance (n : Node) : Decidable n.EnclosesChildren :=
  inferInstanceAs (Decidable (∀ c ∈ n.children, n.location.startByte ≤ c.location.startByte ∧
    c.location.stopByte ≤ n.location.stopByte))

/-- The ranges of the tree are well formed: siblings are ordered everywhere, and below the root
children stand inside their parents. -/
structure Tree.WellRanged (t : Tree) : Prop where
  siblings : ∀ n ∈ t.root.preorder, n.SiblingsOrdered
  enclosed : ∀ n ∈ Node.preorders t.root.children, n.EnclosesChildren

instance (t : Tree) : Decidable t.WellRanged :=
  decidable_of_iff ((∀ n ∈ t.root.preorder, n.SiblingsOrdered) ∧
      ∀ n ∈ Node.preorders t.root.children, n.EnclosesChildren)
    ⟨fun h => ⟨h.1, h.2⟩, fun h => ⟨h.siblings, h.enclosed⟩⟩

/-- The byte at which the node of a cursor starts. -/
def Cursor.startByte (c : Cursor) : Nat := c.node.location.startByte

/-- The byte at which the node of a cursor ends. -/
def Cursor.stopByte (c : Cursor) : Nat := c.node.location.stopByte

/-! ### Places below the root -/

/-- The cursor stands in the tree, and not on its root. -/
def Tree.Inner (t : Tree) (c : Cursor) : Prop := ∃ p ∈ t.walk, ∃ k, p.nth? k = some c

namespace Tree.Inner

variable {t : Tree} {c d : Cursor}

theorem mem_walk (h : t.Inner c) : c ∈ t.walk := by
  obtain ⟨p, hp, k, hk⟩ := h
  exact mem_walk_of_nth? hp hk

theorem of_mem_walk (hc : c ∈ t.walk) (h : c.node.kind ≠ t.root.kind) : t.Inner c := by
  obtain rfl | hinner := eq_cursor_or_exists_nth? hc
  · exact absurd rfl h
  · exact hinner

theorem nth? {k : Nat} (hc : c ∈ t.walk) (h : c.nth? k = some d) : t.Inner d := ⟨c, hc, k, h⟩

theorem at? {a : List Nat} (hc : t.Inner c) (h : c.at? a = some d) : t.Inner d := by
  cases a using List.reverseRecOn with
  | nil =>
      cases h
      exact hc
  | append_singleton a k =>
      obtain ⟨e, he, hk⟩ := Cursor.at?_concat_eq_some.1 h
      exact ⟨e, mem_walk_of_at? hc.mem_walk he, k, hk⟩

theorem node_mem_preorders (h : t.Inner c) : c.node ∈ Node.preorders t.root.children := by
  obtain ⟨p, hp, k, hk⟩ := h
  obtain ⟨a, ha⟩ := mem_walk_iff.1 hp
  have hat : t.cursor.at? (a ++ [k]) = some c := Cursor.at?_concat_eq_some.2 ⟨p, ha, hk⟩
  cases hb : a ++ [k] with
  | nil => simp at hb
  | cons l b =>
      rw [hb] at hat
      obtain ⟨e, he, hc⟩ := Cursor.at?_cons_eq_some.1 hat
      have hnode := Cursor.map_node_at? e b
      rw [hc] at hnode
      refine Node.mem_preorders_iff.2
        ⟨e.node, List.mem_of_getElem? (Cursor.nth?_eq_some.1 he).1, ?_⟩
      exact Node.preorder_subset_of_at? hnode.symm (Node.mem_preorder_self _)

end Tree.Inner

/-! ### One behind the other -/

namespace Tree.WellRanged

variable {t : Tree} {c d p : Cursor}

theorem siblings_node (ht : t.WellRanged) (hc : c ∈ t.walk) : c.node.SiblingsOrdered :=
  ht.siblings _ (preorder_subset_of_mem_walk hc (Node.mem_preorder_self _))

theorem start_lt_stop (ht : t.WellRanged) (hc : t.Inner c) : c.startByte < c.stopByte := by
  obtain ⟨p, hp, k, hk⟩ := hc
  exact (ht.siblings_node hp).nonempty _ (List.mem_of_getElem? (Cursor.nth?_eq_some.1 hk).1)

theorem stop_le_start (ht : t.WellRanged) (hp : p ∈ t.walk) {i j : Nat} (hi : p.nth? i = some c)
    (hj : p.nth? j = some d) (hij : i < j) : c.stopByte ≤ d.startByte := by
  obtain ⟨hlt, hc⟩ := List.getElem?_eq_some_iff.1 (Cursor.nth?_eq_some.1 hi).1
  obtain ⟨hlt', hd⟩ := List.getElem?_eq_some_iff.1 (Cursor.nth?_eq_some.1 hj).1
  have hpairwise := List.pairwise_iff_getElem.1 (ht.siblings_node hp).behind i j hlt hlt' hij
  rwa [hc, hd] at hpairwise

/-- Different children are different nodes. -/
theorem nth?_unique (ht : t.WellRanged) (hp : p ∈ t.walk) {i j : Nat}
    (hi : p.nth? i = some c) (hj : p.nth? j = some d) (hnode : c.node = d.node) : i = j := by
  have hcstop := ht.start_lt_stop (.nth? hp hi)
  have hstart : c.startByte = d.startByte := congrArg (·.location.startByte) hnode
  have hstop : c.stopByte = d.stopByte := congrArg (·.location.stopByte) hnode
  by_contra hij
  rcases lt_or_gt_of_ne hij with hij | hij
  · have hle := ht.stop_le_start hp hi hj hij
    omega
  · have hle := ht.stop_le_start hp hj hi hij
    omega

theorem le_of_nth? (ht : t.WellRanged) (hc : t.Inner c) {k : Nat} (h : c.nth? k = some d) :
    c.startByte ≤ d.startByte ∧ d.stopByte ≤ c.stopByte :=
  ht.enclosed _ hc.node_mem_preorders _ (List.mem_of_getElem? (Cursor.nth?_eq_some.1 h).1)

/-- What stands below a place stands inside it. -/
theorem le_of_at? (ht : t.WellRanged) (hc : t.Inner c) {a : List Nat} (h : c.at? a = some d) :
    c.startByte ≤ d.startByte ∧ d.stopByte ≤ c.stopByte := by
  induction a generalizing c with
  | nil =>
      cases h
      exact ⟨le_rfl, le_rfl⟩
  | cons k a ih =>
      obtain ⟨e, he, hd⟩ := Cursor.at?_cons_eq_some.1 h
      have hce := ht.le_of_nth? hc he
      have hed := ih (.nth? hc.mem_walk he) hd
      omega

/-- A child that is not the first starts behind its parent. -/
theorem lt_of_nth? (ht : t.WellRanged) (hp : t.Inner p) {k : Nat} (h : p.nth? k = some c)
    (hk : 0 < k) : p.startByte < c.startByte := by
  have hlt : k < p.node.children.length :=
    (List.getElem?_eq_some_iff.1 (Cursor.nth?_eq_some.1 h).1).1
  obtain ⟨first, hfirst, -⟩ :=
    Cursor.exists_nth? (List.getElem?_eq_getElem (show 0 < p.node.children.length by omega))
  have hbefore := ht.stop_le_start hp.mem_walk hfirst h hk
  have hnonempty := ht.start_lt_stop (.nth? hp.mem_walk hfirst)
  have hle := (ht.le_of_nth? hp hfirst).1
  omega

end Tree.WellRanged

/-! ### Two places -/

/-- Of two places below a third, one lies below the other, or the ways down to them part. -/
theorem Cursor.at?_trichotomy {c d r : Cursor} {a b : List Nat} (ha : r.at? a = some c)
    (hb : r.at? b = some d) :
    (∃ x, c.at? x = some d) ∨ (∃ x, d.at? x = some c) ∨
      ∃ p x y i j e f, r.at? p = some x ∧ x.nth? i = some e ∧ x.nth? j = some f ∧ i ≠ j ∧
        e.at? y = some c ∧ ∃ z, f.at? z = some d := by
  induction a generalizing r b with
  | nil =>
      cases ha
      exact .inl ⟨b, hb⟩
  | cons i a ih =>
      cases b with
      | nil =>
          cases hb
          exact .inr (.inl ⟨i :: a, ha⟩)
      | cons j b =>
          obtain ⟨e, he, hc⟩ := at?_cons_eq_some.1 ha
          obtain ⟨f, hf, hd⟩ := at?_cons_eq_some.1 hb
          by_cases hij : i = j
          · subst hij
            obtain rfl := Option.some.inj (he.symm.trans hf)
            obtain h | h | ⟨p, x, y, k, l, u, v, hp, hrest⟩ := ih hc hd
            · exact .inl h
            · exact .inr (.inl h)
            · exact .inr (.inr ⟨i :: p, x, y, k, l, u, v, at?_cons_eq_some.2 ⟨e, he, hp⟩, hrest⟩)
          · exact .inr (.inr ⟨[], r, a, i, j, e, f, rfl, he, hf, hij, hc, b, hd⟩)

namespace Tree.WellRanged

variable {t : Tree} {c d : Cursor}

/-- Where the ways down to two places part, the one that goes to an earlier child ends before the
other. -/
theorem stop_le_start_of_nth? (ht : t.WellRanged) {x e f : Cursor} {i j : Nat} {y z : List Nat}
    (hx : x ∈ t.walk) (he : x.nth? i = some e) (hf : x.nth? j = some f) (hij : i < j)
    (hc : e.at? y = some c) (hd : f.at? z = some d) : c.stopByte ≤ d.startByte := by
  have hsiblings := ht.stop_le_start hx he hf hij
  have hce := ht.le_of_at? (.nth? hx he) hc
  have hdf := ht.le_of_at? (.nth? hx hf) hd
  omega

/-- **Places that start at the same byte lie on one way down.** -/
theorem at?_or_at? (ht : t.WellRanged) (hc : t.Inner c) (hd : t.Inner d)
    (h : c.startByte = d.startByte) : (∃ a, c.at? a = some d) ∨ ∃ a, d.at? a = some c := by
  obtain ⟨a, ha⟩ := mem_walk_iff.1 hc.mem_walk
  obtain ⟨b, hb⟩ := mem_walk_iff.1 hd.mem_walk
  obtain h' | h' | ⟨p, x, y, i, j, e, f, hp, he, hf, hij, hec, z, hfd⟩ :=
    Cursor.at?_trichotomy ha hb
  · exact .inl h'
  · exact .inr h'
  · have hx : x ∈ t.walk := mem_walk_iff.2 ⟨p, hp⟩
    have hcstop := ht.start_lt_stop hc
    have hdstop := ht.start_lt_stop hd
    rcases lt_or_gt_of_ne hij with hij | hij
    · have := ht.stop_le_start_of_nth? hx he hf hij hec hfd
      omega
    · have := ht.stop_le_start_of_nth? hx hf he hij hfd hec
      omega

/-- A place that is met later stands below the earlier one, or behind it. -/
theorem below_or_behind (ht : t.WellRanged) (hc : c ∈ t.walk) (hd : d ∈ t.walk)
    (h : c.address < d.address) : (∃ k a, c.at? (k :: a) = some d) ∨ c.stopByte ≤ d.startByte := by
  obtain ⟨a, ha⟩ := mem_walk_iff.1 hc
  obtain ⟨b, hb⟩ := mem_walk_iff.1 hd
  obtain ⟨x, hx⟩ | ⟨x, hx⟩ | ⟨p, x, y, i, j, e, f, hp, he, hf, hij, hec, z, hfd⟩ :=
    Cursor.at?_trichotomy ha hb
  · cases x with
    | nil =>
        cases hx
        exact absurd h (lt_irrefl _)
    | cons k x => exact .inl ⟨k, x, hx⟩
  · -- what stands below the later place comes after it
    cases x with
    | nil =>
        cases hx
        exact absurd h (lt_irrefl _)
    | cons k x =>
        have hlt := Cursor.lt_append_cons d.address k x
        rw [← Cursor.address_of_at? hx] at hlt
        exact absurd h hlt.not_gt
  · have hxmem : x ∈ t.walk := mem_walk_iff.2 ⟨p, hp⟩
    rcases lt_or_gt_of_ne hij with hij | hij
    · exact .inr (ht.stop_le_start_of_nth? hxmem he hf hij hec hfd)
    · have hcaddress : c.address = x.address ++ i :: y := by
        rw [Cursor.address_of_at? hec, Cursor.address_of_nth? he, List.append_assoc]
        rfl
      have hdaddress : d.address = x.address ++ j :: z := by
        rw [Cursor.address_of_at? hfd, Cursor.address_of_nth? hf, List.append_assoc]
        rfl
      have hlt : d.address < c.address := by
        rw [hcaddress, hdaddress]
        exact List.append_left_lt (List.cons_lt_cons_iff.2 (.inl hij))
      exact absurd h hlt.not_gt

/-- The walk never goes back in the source. -/
theorem startByte_le (ht : t.WellRanged) (hc : t.Inner c) (hd : t.Inner d)
    (h : c.address ≤ d.address) : c.startByte ≤ d.startByte := by
  rcases h.eq_or_lt with heq | hlt
  · rw [eq_of_address_eq hc.mem_walk hd.mem_walk heq]
  · rcases ht.below_or_behind hc.mem_walk hd.mem_walk hlt with ⟨k, a, ha⟩ | hbehind
    · exact (ht.le_of_at? hc ha).1
    · have hstop := ht.start_lt_stop hc
      omega

end Tree.WellRanged

/-! ### Anchored places -/

/-- On the way up from the place there is a step to a parent that starts earlier, and before that
nothing above the place is a site. -/
inductive Tree.Anchored (t : Tree) (site : Cursor → Prop) : Cursor → Prop
  | behind {p c : Cursor} {k : Nat} (hp : t.Inner p) (hk : p.nth? k = some c) (hlater : 0 < k) :
      Anchored t site c
  | within {p c : Cursor} {k : Nat} (hp : Anchored t site p) (hsite : ¬ site p)
      (hk : p.nth? k = some c) : Anchored t site c

namespace Tree.Anchored

variable {t : Tree} {site : Cursor → Prop} {c d : Cursor}

theorem inner (h : t.Anchored site c) : t.Inner c := by
  induction h with
  | behind hp hk _ => exact .nth? hp.mem_walk hk
  | within _ _ hk ih => exact .nth? ih.mem_walk hk

/-- What stands properly above a place stands above its parent, or is the parent. -/
theorem exists_at?_parent {p : Cursor} {k l : Nat} {a : List Nat} (h : c.at? (k :: a) = some d)
    (hp : p.nth? l = some d) : ∃ b, c.at? b = some p := by
  have hne : k :: a ≠ [] := by simp
  rw [← List.dropLast_append_getLast hne] at h
  obtain ⟨e, he, hd⟩ := Cursor.at?_concat_eq_some.1 h
  have hparent := (Cursor.parent?_of_nth? hd).symm.trans (Cursor.parent?_of_nth? hp)
  exact ⟨_, (Option.some.inj hparent) ▸ he⟩

/-- An anchored place starts behind every site above it. -/
theorem startByte_lt (ht : t.WellRanged) (hd : t.Anchored site d) (hc : t.Inner c) (hsite : site c)
    {k : Nat} {a : List Nat} (h : c.at? (k :: a) = some d) : c.startByte < d.startByte := by
  induction hd generalizing k a with
  | @behind p d l hp hl hlater =>
      obtain ⟨b, hb⟩ := exists_at?_parent h hl
      have hpd := ht.lt_of_nth? hp hl hlater
      have hcp := (ht.le_of_at? hc hb).1
      omega
  | @within p d l hp hnot hl ih =>
      obtain ⟨b, hb⟩ := exists_at?_parent h hl
      have hpd := (ht.le_of_nth? hp.inner hl).1
      cases b with
      | nil =>
          cases hb
          exact absurd hsite hnot
      | cons m b =>
          have hcp := ih hb
          omega

/-- **Anchored places that start at the same byte are the same**, if each is a site for the
other. -/
theorem eq_of_startByte_eq {site' : Cursor → Prop} (ht : t.WellRanged) (hc : t.Anchored site c)
    (hd : t.Anchored site' d) (hcsite : site' c) (hdsite : site d) (h : c.startByte = d.startByte) :
    c = d := by
  obtain ⟨a, ha⟩ | ⟨a, ha⟩ := ht.at?_or_at? hc.inner hd.inner h
  · cases a with
    | nil => exact Option.some.inj ha
    | cons k a =>
        have hlt := hd.startByte_lt ht hc.inner hcsite ha
        omega
  · cases a with
    | nil => exact (Option.some.inj ha).symm
    | cons k a =>
        have hlt := hc.startByte_lt ht hd.inner hdsite ha
        omega

end Tree.Anchored

end SchemaScope.Script
