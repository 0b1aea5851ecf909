/-
**The places of a tree, in pre-order.**

Two nodes of a tree may look the same, so a node is known by its place: the positions of the
children that are entered on the way down to it.  The walk through a tree is made of moves to the
first child, the next sibling and the parent; it comes to every place once, and in the order of the
addresses, in which a place precedes all places below it and the places below an earlier sibling
precede those below a later one.  So the search of a tree finds the first of the places that are
accepted.

Main definitions:

* `Node.at?` — the node at an address;
* `Cursor.nth?`, `Cursor.at?` — the cursor on a child, and the cursor at an address;
* `Cursor.address` — the way from the root down to a cursor;
* `Cursor.within` — a cursor and the cursors below it, in pre-order.

Main results:

* `Cursor.walk_eq_within` — the walk from a cursor meets what is below it, then what comes after it;
* `Tree.mem_walk_iff` — **the walk meets every place of the tree**;
* `Tree.walk_pairwise` — **the walk is in the order of the addresses**;
* `Tree.findFirst?_eq_some_iff`, `Tree.findFirst?_eq_none_iff` — what the search of a tree finds.
-/

import Mathlib
import SchemaScope.Script.Tree

set_option autoImplicit false

namespace SchemaScope.Script

/-! ### Addresses -/

namespace Node

/-- The node at an address: each number says which child comes next. -/
def at? (n : Node) : List Nat → Option Node
  | [] => some n
  | k :: rest => n.children[k]?.bind fun c => c.at? rest

@[simp] theorem at?_nil (n : Node) : n.at? [] = some n := rfl

theorem at?_cons (n : Node) (k : Nat) (rest : List Nat) :
    n.at? (k :: rest) = n.children[k]?.bind fun c => c.at? rest := rfl

theorem at?_append (n : Node) (address rest : List Nat) :
    n.at? (address ++ rest) = (n.at? address).bind fun m => m.at? rest := by
  induction address generalizing n with
  | nil => rfl
  | cons k tail ih =>
      rw [List.cons_append, at?_cons, at?_cons, Option.bind_assoc]
      congr 1
      funext c
      exact ih c

theorem mem_preorders_iff {n : Node} {nodes : List Node} :
    n ∈ preorders nodes ↔ ∃ m ∈ nodes, n ∈ m.preorder := by
  induction nodes with
  | nil => simp
  | cons m rest ih => simp [ih]

theorem mem_preorder_self (n : Node) : n ∈ n.preorder := by simp [preorder_eq n]

theorem preorder_subset_of_mem_children {n e : Node} (h : e ∈ n.children) :
    e.preorder ⊆ n.preorder := by
  intro m hm
  rw [preorder_eq n, List.mem_cons, mem_preorders_iff]
  exact .inr ⟨e, h, hm⟩

/-- What stands below a node of a tree is part of the tree. -/
theorem preorder_subset_of_at? {m n : Node} {a : List Nat} (h : m.at? a = some n) :
    n.preorder ⊆ m.preorder := by
  induction a generalizing m with
  | nil =>
      cases h
      exact fun _ h => h
  | cons k a ih =>
      rw [at?_cons, Option.bind_eq_some_iff] at h
      obtain ⟨e, he, hn⟩ := h
      exact List.Subset.trans (ih hn) (preorder_subset_of_mem_children (List.mem_of_getElem? he))

end Node

namespace Cursor

/-- The cursor on a child. -/
def nth? (c : Cursor) (k : Nat) : Option Cursor :=
  c.node.children[k]?.map fun n =>
    ⟨n, ⟨c.node, (c.node.children.take k).reverse, c.node.children.drop (k + 1)⟩ :: c.frames⟩

/-- The cursor at an address below a cursor. -/
def at? (c : Cursor) : List Nat → Option Cursor
  | [] => some c
  | k :: rest => (c.nth? k).bind fun d => d.at? rest

/-- The way from the root down to a cursor. -/
def address (c : Cursor) : List Nat := (c.frames.map fun f => f.earlier.length).reverse

@[simp] theorem at?_nil (c : Cursor) : c.at? [] = some c := rfl

theorem at?_cons (c : Cursor) (k : Nat) (rest : List Nat) :
    c.at? (k :: rest) = (c.nth? k).bind fun d => d.at? rest := rfl

theorem at?_cons_eq_some {c d : Cursor} {k : Nat} {rest : List Nat} :
    c.at? (k :: rest) = some d ↔ ∃ e, c.nth? k = some e ∧ e.at? rest = some d := by
  rw [at?_cons, Option.bind_eq_some_iff]

theorem at?_append (c : Cursor) (address rest : List Nat) :
    c.at? (address ++ rest) = (c.at? address).bind fun d => d.at? rest := by
  induction address generalizing c with
  | nil => rfl
  | cons k tail ih =>
      rw [List.cons_append, at?_cons, at?_cons, Option.bind_assoc]
      congr 1
      funext d
      exact ih d

theorem at?_concat_eq_some {c d : Cursor} {address : List Nat} {k : Nat} :
    c.at? (address ++ [k]) = some d ↔ ∃ e, c.at? address = some e ∧ e.nth? k = some d := by
  simp [at?_append, at?_cons, Option.bind_eq_some_iff]

theorem nth?_eq_some {c d : Cursor} {k : Nat} :
    c.nth? k = some d ↔ c.node.children[k]? = some d.node ∧
      d.frames = ⟨c.node, (c.node.children.take k).reverse, c.node.children.drop (k + 1)⟩ ::
        c.frames := by
  obtain ⟨n, frames⟩ := d
  rw [nth?, Option.map_eq_some_iff]
  constructor
  · rintro ⟨m, hm, heq⟩
    cases heq
    exact ⟨hm, rfl⟩
  · rintro ⟨hn, rfl⟩
    exact ⟨n, hn, rfl⟩

theorem exists_nth? {c : Cursor} {k : Nat} {n : Node} (h : c.node.children[k]? = some n) :
    ∃ d, c.nth? k = some d ∧ d.node = n := by
  rw [nth?, h]
  exact ⟨_, rfl, rfl⟩

theorem enclosing_of_nth? {c d : Cursor} {k : Nat} (h : c.nth? k = some d) :
    d.enclosing = c :: c.enclosing := by
  rw [enclosing, (nth?_eq_some.1 h).2]
  rfl

theorem parent?_of_nth? {c d : Cursor} {k : Nat} (h : c.nth? k = some d) : d.parent? = some c := by
  rw [parent?, (nth?_eq_some.1 h).2]

theorem address_of_nth? {c d : Cursor} {k : Nat} (h : c.nth? k = some d) :
    d.address = c.address ++ [k] := by
  obtain ⟨hk, hframes⟩ := nth?_eq_some.1 h
  have hlt : k < c.node.children.length := (List.getElem?_eq_some_iff.1 hk).1
  rw [address, hframes, List.map_cons, List.reverse_cons, List.length_reverse,
    List.length_take, min_eq_left hlt.le]
  rfl

theorem address_of_at? {c d : Cursor} {a : List Nat} (h : c.at? a = some d) :
    d.address = c.address ++ a := by
  induction a generalizing c with
  | nil =>
      cases h
      rw [List.append_nil]
  | cons k rest ih =>
      obtain ⟨e, he, hd⟩ := at?_cons_eq_some.1 h
      rw [ih hd, address_of_nth? he, List.append_assoc]
      rfl

/-- The node of the cursor at an address is the node at the address. -/
theorem map_node_at? (c : Cursor) (a : List Nat) : (c.at? a).map (·.node) = c.node.at? a := by
  induction a generalizing c with
  | nil => rfl
  | cons k rest ih =>
      rw [at?_cons, Node.at?_cons, nth?]
      cases c.node.children[k]? with
      | none => rfl
      | some n => exact ih _

/-! ### The walk in pre-order -/

mutual

/-- A node under given frames and everything below it, in pre-order. -/
def within (frames : List Frame) : Node → List Cursor
  | ⟨kind, role, location, text, children⟩ =>
      ⟨⟨kind, role, location, text, children⟩, frames⟩ ::
        withinAll ⟨kind, role, location, text, children⟩ frames [] children

/-- Siblings and everything below them, in pre-order; `earlier` are the siblings before them,
nearest first. -/
def withinAll (parent : Node) (frames : List Frame) (earlier : List Node) : List Node → List Cursor
  | [] => []
  | n :: later =>
      within (⟨parent, earlier, later⟩ :: frames) n ++ withinAll parent frames (n :: earlier) later

end

theorem within_eq (frames : List Frame) (n : Node) :
    within frames n = ⟨n, frames⟩ :: withinAll n frames [] n.children := by
  cases n
  rfl

/-- What the walk meets after a cursor and everything below it. -/
def afterwards (c : Cursor) : List Cursor := (c.climb?.map walk).getD []

theorem walk_of_advance? {c d : Cursor} (h : c.advance? = some d) : c.walk = c :: d.walk := by
  rw [walk]
  split
  · next hnone =>
    rw [h] at hnone
    cases hnone
  · next e he =>
    rw [h] at he
    cases he
    rfl

/-- A cursor without children is met alone. -/
theorem walk_of_children_eq_nil {c : Cursor} (h : c.node.children = []) :
    c.walk = c :: c.afterwards := by
  have hadvance : c.advance? = c.climb? := by
    rw [advance?, firstChild?, h]
  cases hclimb : c.climb? with
  | some d =>
      rw [walk_of_advance? (hadvance.trans hclimb), afterwards, hclimb]
      rfl
  | none =>
      rw [afterwards, hclimb, walk]
      split
      · rfl
      · next d hd =>
        rw [hadvance, hclimb] at hd
        cases hd

/-- What the walk meets from the first of several siblings on. -/
def walkAll (parent : Node) (frames : List Frame) (earlier : List Node) : List Node → List Cursor
  | [] => (⟨parent, frames⟩ : Cursor).afterwards
  | n :: later => (⟨n, ⟨parent, earlier, later⟩ :: frames⟩ : Cursor).walk

/-- After one of several siblings the walk goes on with the next. -/
theorem afterwards_eq_walkAll (parent n : Node) (frames : List Frame) (earlier later : List Node) :
    (⟨n, ⟨parent, earlier, later⟩ :: frames⟩ : Cursor).afterwards =
      walkAll parent frames (n :: earlier) later := by
  cases later <;>
    · rw [afterwards, climb?]
      rfl

mutual

/-- The walk from a cursor meets everything below it, and then what comes after it. -/
theorem walk_eq_within (frames : List Frame) :
    ∀ n : Node, (⟨n, frames⟩ : Cursor).walk =
      within frames n ++ (⟨n, frames⟩ : Cursor).afterwards
  | ⟨kind, role, location, text, []⟩ => by
      rw [walk_of_children_eq_nil rfl]
      rfl
  | ⟨kind, role, location, text, n :: later⟩ => by
      have hall := walkAll_eq_withinAll ⟨kind, role, location, text, n :: later⟩ frames []
        (n :: later)
      rw [walkAll] at hall
      rw [walk_of_advance? (c := ⟨⟨kind, role, location, text, n :: later⟩, frames⟩) rfl, hall]
      rfl

/-- The walk from the first of several siblings on meets all of them, and then what comes after
their parent. -/
theorem walkAll_eq_withinAll (parent : Node) (frames : List Frame) (earlier : List Node) :
    ∀ siblings : List Node, walkAll parent frames earlier siblings =
      withinAll parent frames earlier siblings ++ (⟨parent, frames⟩ : Cursor).afterwards
  | [] => rfl
  | n :: later => by
      rw [walkAll, walk_eq_within (⟨parent, earlier, later⟩ :: frames) n, afterwards_eq_walkAll,
        walkAll_eq_withinAll parent frames (n :: earlier) later, withinAll, List.append_assoc]

end

/-! ### Every place, in order -/

mutual

/-- Below a node stand the cursors at its addresses. -/
theorem mem_within_iff {c : Cursor} (frames : List Frame) :
    ∀ n : Node, c ∈ within frames n ↔ ∃ a, (⟨n, frames⟩ : Cursor).at? a = some c
  | ⟨kind, role, location, text, children⟩ => by
      rw [within, List.mem_cons, mem_withinAll_iff]
      constructor
      · rintro (rfl | ⟨k, rest, n, hk, hc⟩)
        · exact ⟨[], rfl⟩
        · refine ⟨k :: rest, at?_cons_eq_some.2 ⟨_, nth?_eq_some.2 ⟨hk, ?_⟩, hc⟩⟩
          rw [List.append_nil]
      · rintro ⟨a, ha⟩
        cases a with
        | nil =>
            cases ha
            exact .inl rfl
        | cons k rest =>
            obtain ⟨⟨n, frames'⟩, hd, hc⟩ := at?_cons_eq_some.1 ha
            obtain ⟨hk, hframes⟩ := nth?_eq_some.1 hd
            subst hframes
            refine .inr ⟨k, rest, n, hk, ?_⟩
            rwa [List.append_nil]

/-- Below several siblings stand the cursors at the addresses of each. -/
theorem mem_withinAll_iff {c : Cursor} (parent : Node) (frames : List Frame) (earlier : List Node) :
    ∀ siblings : List Node, c ∈ withinAll parent frames earlier siblings ↔
      ∃ k rest n, siblings[k]? = some n ∧
        (⟨n, ⟨parent, (siblings.take k).reverse ++ earlier, siblings.drop (k + 1)⟩ :: frames⟩ :
          Cursor).at? rest = some c
  | [] => by simp [withinAll]
  | n :: later => by
      rw [withinAll, List.mem_append, mem_within_iff (⟨parent, earlier, later⟩ :: frames) n,
        mem_withinAll_iff parent frames (n :: earlier) later]
      constructor
      · rintro (⟨a, ha⟩ | ⟨k, rest, m, hk, hm⟩)
        · exact ⟨0, a, n, rfl, ha⟩
        · refine ⟨k + 1, rest, m, hk, ?_⟩
          simpa using hm
      · rintro ⟨k, rest, m, hk, hm⟩
        cases k with
        | zero =>
            cases hk
            exact .inl ⟨rest, hm⟩
        | succ k =>
            refine .inr ⟨k, rest, m, hk, ?_⟩
            simpa using hm

end

/-- What stands below a cursor has an address that goes on from its address. -/
theorem exists_address_of_mem_within {c : Cursor} {frames : List Frame} {n : Node}
    (h : c ∈ within frames n) : ∃ a, c.address = (⟨n, frames⟩ : Cursor).address ++ a := by
  obtain ⟨a, ha⟩ := (mem_within_iff frames n).1 h
  exact ⟨a, address_of_at? ha⟩

/-- What stands below several siblings has an address that goes on from that of their parent with
the position of one of them. -/
theorem exists_address_of_mem_withinAll {c : Cursor} {parent : Node} {frames : List Frame}
    {earlier siblings : List Node} (h : c ∈ withinAll parent frames earlier siblings) :
    ∃ k a, c.address = (⟨parent, frames⟩ : Cursor).address ++ (earlier.length + k) :: a := by
  obtain ⟨k, rest, n, hk, hc⟩ := (mem_withinAll_iff parent frames earlier siblings).1 h
  have hlt : k < siblings.length := (List.getElem?_eq_some_iff.1 hk).1
  refine ⟨k, rest, ?_⟩
  rw [address_of_at? hc]
  simp [address, min_eq_left hlt.le, Nat.add_comm]

/-- A place precedes every place below it. -/
theorem lt_append_cons (a : List Nat) (k : Nat) (rest : List Nat) : a < a ++ k :: rest := by
  induction a with
  | nil => exact List.nil_lt_cons k rest
  | cons l a ih => exact List.cons_lt_cons_iff.2 (.inr ⟨rfl, ih⟩)

mutual

theorem within_pairwise (frames : List Frame) :
    ∀ n : Node, (within frames n).Pairwise fun c d => c.address < d.address
  | ⟨kind, role, location, text, children⟩ => by
      rw [within, List.pairwise_cons]
      refine ⟨?_, withinAll_pairwise _ frames [] children⟩
      intro d hd
      obtain ⟨k, a, hk⟩ := exists_address_of_mem_withinAll hd
      rw [hk]
      exact lt_append_cons _ _ _

theorem withinAll_pairwise (parent : Node) (frames : List Frame) (earlier : List Node) :
    ∀ siblings : List Node,
      (withinAll parent frames earlier siblings).Pairwise fun c d => c.address < d.address
  | [] => .nil
  | n :: later => by
      rw [withinAll, List.pairwise_append]
      refine ⟨within_pairwise (⟨parent, earlier, later⟩ :: frames) n,
        withinAll_pairwise parent frames (n :: earlier) later, ?_⟩
      intro c hc d hd
      -- the first sibling has the position of the siblings before it, and those after it have more
      obtain ⟨a, ha⟩ := exists_address_of_mem_within hc
      obtain ⟨k, b, hb⟩ := exists_address_of_mem_withinAll hd
      have hbase : (⟨n, ⟨parent, earlier, later⟩ :: frames⟩ : Cursor).address =
          (⟨parent, frames⟩ : Cursor).address ++ [earlier.length] := by
        simp [address]
      rw [ha, hb, hbase, List.append_assoc]
      refine List.append_left_lt (List.cons_lt_cons_iff.2 (.inl ?_))
      rw [List.length_cons]
      omega

end

end Cursor

namespace Tree

theorem walk_eq_within (t : Tree) : t.walk = Cursor.within [] t.root := by
  have hclimb : (⟨t.root, []⟩ : Cursor).climb? = none := by
    rw [Cursor.climb?]
    rfl
  have hwalk := Cursor.walk_eq_within [] t.root
  rw [Cursor.afterwards, hclimb] at hwalk
  exact hwalk.trans (List.append_nil _)

/-- **The walk meets every place of the tree**, and nothing else. -/
theorem mem_walk_iff {t : Tree} {c : Cursor} : c ∈ t.walk ↔ ∃ a, t.cursor.at? a = some c := by
  rw [walk_eq_within]
  exact Cursor.mem_within_iff [] t.root

/-- **The walk is in the order of the addresses.** -/
theorem walk_pairwise (t : Tree) : t.walk.Pairwise fun c d => c.address < d.address := by
  rw [walk_eq_within]
  exact Cursor.within_pairwise [] t.root

/-- A cursor of the tree stands at its own address. -/
theorem at?_address {t : Tree} {c : Cursor} (h : c ∈ t.walk) : t.cursor.at? c.address = some c := by
  obtain ⟨a, ha⟩ := mem_walk_iff.1 h
  have haddress : c.address = a := Cursor.address_of_at? ha
  rwa [haddress]

theorem eq_of_address_eq {t : Tree} {c d : Cursor} (hc : c ∈ t.walk) (hd : d ∈ t.walk)
    (h : c.address = d.address) : c = d :=
  Option.some.inj ((at?_address hc).symm.trans (h ▸ at?_address hd))

theorem mem_walk_of_nth? {t : Tree} {c d : Cursor} {k : Nat} (hc : c ∈ t.walk)
    (h : c.nth? k = some d) : d ∈ t.walk := by
  obtain ⟨a, ha⟩ := mem_walk_iff.1 hc
  exact mem_walk_iff.2 ⟨a ++ [k], Cursor.at?_concat_eq_some.2 ⟨c, ha, h⟩⟩

/-- A cursor of the tree is the root, or stands on a child of a cursor of the tree. -/
theorem eq_cursor_or_exists_nth? {t : Tree} {c : Cursor} (hc : c ∈ t.walk) :
    c = t.cursor ∨ ∃ p ∈ t.walk, ∃ k, p.nth? k = some c := by
  obtain ⟨a, ha⟩ := mem_walk_iff.1 hc
  cases a using List.reverseRecOn with
  | nil =>
      cases ha
      exact .inl rfl
  | append_singleton a k =>
      obtain ⟨p, hp, hk⟩ := Cursor.at?_concat_eq_some.1 ha
      exact .inr ⟨p, mem_walk_iff.2 ⟨a, hp⟩, k, hk⟩

theorem mem_walk_of_at? {t : Tree} {c d : Cursor} {a : List Nat} (hc : c ∈ t.walk)
    (h : c.at? a = some d) : d ∈ t.walk := by
  obtain ⟨b, hb⟩ := mem_walk_iff.1 hc
  refine mem_walk_iff.2 ⟨b ++ a, ?_⟩
  rw [Cursor.at?_append, hb]
  exact h

/-- The cursor above a place of the tree, if there is one. -/
theorem exists_nth?_of_enclosing {t : Tree} {c d : Cursor} {above : List Cursor} (hc : c ∈ t.walk)
    (h : c.enclosing = d :: above) :
    d ∈ t.walk ∧ above = d.enclosing ∧ ∃ k, d.nth? k = some c := by
  obtain rfl | ⟨p, hp, k, hk⟩ := eq_cursor_or_exists_nth? hc
  · cases h
  · rw [Cursor.enclosing_of_nth? hk] at h
    cases h
    exact ⟨hp, rfl, k, hk⟩

/-- The node of a cursor stands at the address of the cursor. -/
theorem root_at?_address {t : Tree} {c : Cursor} (hc : c ∈ t.walk) :
    t.root.at? c.address = some c.node := by
  have hnode := Cursor.map_node_at? t.cursor c.address
  rw [at?_address hc] at hnode
  exact hnode.symm

/-- What stands below a place of the tree is part of the tree. -/
theorem preorder_subset_of_mem_walk {t : Tree} {c : Cursor} (hc : c ∈ t.walk) :
    c.node.preorder ⊆ t.root.preorder :=
  Node.preorder_subset_of_at? (root_at?_address hc)

theorem findFirst?_eq_none_iff {t : Tree} {p : Cursor → Bool} :
    t.findFirst? p = none ↔ ∀ c ∈ t.walk, ¬ p c = true := by
  rw [findFirst?, Cursor.findFirst?_eq_find?, List.find?_eq_none]
  rfl

/-- **The search finds the first place that is accepted.** -/
theorem findFirst?_eq_some_iff {t : Tree} {p : Cursor → Bool} {c : Cursor} :
    t.findFirst? p = some c ↔
      c ∈ t.walk ∧ p c = true ∧ ∀ d ∈ t.walk, p d = true → c.address ≤ d.address := by
  have hfound : ∀ {c}, t.findFirst? p = some c →
      c ∈ t.walk ∧ p c = true ∧ ∀ d ∈ t.walk, p d = true → c.address ≤ d.address := by
    intro c h
    rw [findFirst?, Cursor.findFirst?_eq_find?, List.find?_eq_some_iff_append] at h
    obtain ⟨hp, before, after, hwalk, hnone⟩ := h
    have hwalk : t.walk = before ++ c :: after := hwalk
    have hpairwise := t.walk_pairwise
    rw [hwalk, List.pairwise_append, List.pairwise_cons] at hpairwise
    refine ⟨by simp [hwalk], hp, ?_⟩
    intro d hd hpd
    rw [hwalk, List.mem_append, List.mem_cons] at hd
    rcases hd with hd | rfl | hd
    · have := hnone d hd
      simp [hpd] at this
    · exact le_refl _
    · exact (hpairwise.2.1.1 d hd).le
  refine ⟨hfound, ?_⟩
  rintro ⟨hc, hp, hfirst⟩
  cases h : t.findFirst? p with
  | none => exact absurd hp (findFirst?_eq_none_iff.1 h c hc)
  | some d =>
      obtain ⟨hd, hpd, hfirst'⟩ := hfound h
      rw [eq_of_address_eq hd hc (le_antisymm (hfirst' c hc hp) (hfirst d hd hpd))]

end Tree

end SchemaScope.Script
