/-
**Expressions in parentheses, seen from both sides.**

Parentheses around an expression make no difference to a schema.  Whoever comes from above looks
through them, and whoever comes from below climbs out of them.  In a tree that follows the grammar
both ways lead through the same places.

Main definitions:

* `Node.Inside` — the way down to the expression inside all parentheses;
* `Cursor.Inside` — the same for cursors.

Main results:

* `Node.Inside.at?_eq` — at the end of the way stands the expression without parentheses;
* `Tree.exists_inside` — in a tree that follows the grammar there is such a way from every place;
* `Cursor.Inside.outsideParentheses_eq` — **climbing out leads where the expression stands**;
* `Tree.exists_inside_of_outsideParentheses` — where climbing out ends, the way down begins.
-/

import SchemaScope.Proofs.Script.Shape
import SchemaScope.Schema.Factory

set_option autoImplicit false

namespace SchemaScope

open Schema

namespace Script

/-! ### The way down -/

namespace Node

/-- The way from a node down to the expression inside all parentheses around it. -/
inductive Inside : Node → List Nat → Prop
  | bare {n : Node} (hkind : n.kind ≠ .parenthesized) : Inside n []
  | parenthesized {n e : Node} {k : Nat} {a : List Nat} (hkind : n.kind = .parenthesized)
      (honly : n.significant = [e]) (hk : n.children[k]? = some e) (he : Inside e a) :
      Inside n (k :: a)

theorem unwrapped_of_kind_ne {n : Node} (h : n.kind ≠ .parenthesized) : n.unwrapped = n := by
  cases n
  simp_all [unwrapped]

theorem unwrappedFirst_eq (nodes : List Node) :
    unwrappedFirst nodes = (nodes.filter isSignificant).head?.map unwrapped := by
  induction nodes with
  | nil => rfl
  | cons n rest ih =>
      rw [unwrappedFirst]
      by_cases hn : n.isSignificant = true
      · simp [hn]
      · simp [hn, ih]

theorem unwrapped_of_significant {n e : Node} (hkind : n.kind = .parenthesized)
    (honly : n.significant = [e]) : n.unwrapped = e.unwrapped := by
  obtain ⟨kind, role, location, text, children⟩ := n
  have hfilter : children.filter isSignificant = [e] := honly
  subst hkind
  simp [unwrapped, unwrappedFirst_eq, hfilter]

variable {n e : Node} {a : List Nat}

/-- At the end of the way stands the expression without parentheses. -/
theorem Inside.at?_eq (h : n.Inside a) : n.at? a = some n.unwrapped := by
  induction h with
  | bare hkind => rw [at?_nil, unwrapped_of_kind_ne hkind]
  | parenthesized hkind honly hk _ ih =>
      rw [at?_cons, hk, unwrapped_of_significant hkind honly]
      exact ih

theorem mem_significant_iff : e ∈ n.significant ↔ e ∈ n.children ∧ e.isSignificant = true :=
  List.mem_filter

/-- In a tree that follows the grammar, parentheses can be looked through. -/
theorem exists_inside : ∀ n : Node, (∀ m ∈ n.preorder, m.FollowsGrammar) → ∃ a, n.Inside a
  | ⟨kind, role, location, text, children⟩, h => by
      by_cases hkind : kind = .parenthesized
      · obtain ⟨e, honly⟩ := (h _ (mem_preorder_self _)).parenthesized hkind
        have he : e ∈ children := (mem_significant_iff.1 (honly ▸ List.mem_singleton_self e)).1
        obtain ⟨k, hk⟩ := List.mem_iff_getElem?.1 he
        have hlt := List.sizeOf_lt_of_mem he
        obtain ⟨a, ha⟩ := exists_inside e fun m hm => h m (preorder_subset_of_mem_children he hm)
        exact ⟨k :: a, .parenthesized hkind honly hk ha⟩
      · exact ⟨[], .bare hkind⟩
termination_by n => sizeOf n
decreasing_by
  simp_wf
  omega

end Node

/-! ### Cursors -/

/-- All nodes of the tree follow the grammar. -/
def Tree.FollowsGrammar (t : Tree) : Prop := ∀ n ∈ t.root.preorder, n.FollowsGrammar

/-- From the first cursor the way down to the expression inside all parentheses leads to the
second. -/
def Cursor.Inside (c d : Cursor) : Prop := ∃ a, c.node.Inside a ∧ c.at? a = some d

namespace Tree

variable {t : Tree} {c d : Cursor}

theorem FollowsGrammar.node (ht : t.FollowsGrammar) (hc : c ∈ t.walk) : c.node.FollowsGrammar :=
  ht _ (preorder_subset_of_mem_walk hc (Node.mem_preorder_self _))

end Tree

namespace Cursor.Inside

variable {t : Tree} {c d : Cursor}

theorem node_eq (h : c.Inside d) : d.node = c.node.unwrapped := by
  obtain ⟨a, ha, hd⟩ := h
  have hnode := map_node_at? c a
  rw [hd, ha.at?_eq] at hnode
  exact Option.some.inj hnode

theorem mem_walk (h : c.Inside d) (hc : c ∈ t.walk) : d ∈ t.walk := by
  obtain ⟨a, -, hd⟩ := h
  exact Tree.mem_walk_of_at? hc hd

theorem bare (h : c.node.kind ≠ .parenthesized) : c.Inside c := ⟨[], .bare h, rfl⟩

/-- The way down starts with a step into the parentheses. -/
theorem parenthesized {e : Cursor} {k : Nat} (hkind : c.node.kind = .parenthesized)
    (honly : c.node.significant = [e.node]) (hk : c.nth? k = some e) (h : e.Inside d) :
    c.Inside d := by
  obtain ⟨a, ha, hd⟩ := h
  exact ⟨k :: a, .parenthesized hkind honly (nth?_eq_some.1 hk).1 ha,
    at?_cons_eq_some.2 ⟨e, hk, hd⟩⟩

/-- **Climbing out of the parentheses leads where the expression stands.** -/
theorem outsideParentheses_eq (h : c.Inside d) :
    outsideParentheses d.enclosing = outsideParentheses c.enclosing := by
  obtain ⟨a, ha, hd⟩ := h
  generalize hn : c.node = n at ha
  induction ha generalizing c with
  | bare hkind =>
      cases hd
      rfl
  | parenthesized hkind honly hk _ ih =>
      obtain ⟨e, he, hd⟩ := at?_cons_eq_some.1 hd
      have hnode := (nth?_eq_some.1 he).1
      rw [hn, hk] at hnode
      rw [ih hd (Option.some.inj hnode).symm, enclosing_of_nth? he, outsideParentheses,
        List.dropWhile_cons_of_pos (by simp [hn, hkind])]
      rfl

end Cursor.Inside

namespace Tree

variable {t : Tree} {c d : Cursor}

/-- In a tree that follows the grammar there is a way down from every place. -/
theorem exists_inside (ht : t.FollowsGrammar) (hc : c ∈ t.walk) : ∃ d ∈ t.walk, c.Inside d := by
  obtain ⟨a, ha⟩ := Node.exists_inside c.node fun m hm => ht m (preorder_subset_of_mem_walk hc hm)
  have hnode := Cursor.map_node_at? c a
  rw [ha.at?_eq] at hnode
  obtain ⟨d, hd, -⟩ := Option.map_eq_some_iff.1 hnode
  exact ⟨d, mem_walk_of_at? hc hd, a, ha, hd⟩

/-- **Where climbing out of the parentheses ends, the way down begins.** -/
theorem exists_inside_of_outsideParentheses (ht : t.FollowsGrammar) {s : Cursor}
    {above : List Cursor} (hc : c ∈ t.walk) (hcd : c.Inside d) (hsignificant : c.node.isSignificant)
    (h : outsideParentheses c.enclosing = s :: above) :
    s ∈ t.walk ∧ above = s.enclosing ∧ ∃ k x, s.nth? k = some x ∧ x.Inside d := by
  -- by induction on the depth of the place: a step up is a step into parentheses, or the last one
  induction hdepth : c.enclosing generalizing c with
  | nil =>
      rw [hdepth] at h
      cases h
  | cons p rest ih =>
      obtain ⟨hp, rfl, k, hk⟩ := exists_nth?_of_enclosing hc hdepth
      rw [hdepth, outsideParentheses] at h
      by_cases hkind : p.node.kind = .parenthesized
      · rw [List.dropWhile_cons_of_pos (by simp [hkind])] at h
        obtain ⟨e, honly⟩ := (ht.node hp).parenthesized hkind
        have hmem : c.node ∈ p.node.significant :=
          Node.mem_significant_iff.2
            ⟨List.mem_of_getElem? (Cursor.nth?_eq_some.1 hk).1, hsignificant⟩
        rw [honly, List.mem_singleton] at hmem
        refine ih hp (.parenthesized hkind (hmem ▸ honly) hk hcd) ?_ h rfl
        simp [Node.isSignificant, hkind, Kind.isNamed]
      · rw [List.dropWhile_cons_of_neg (by simp [hkind])] at h
        cases h
        exact ⟨hp, rfl, k, c, hk, hcd⟩

end Tree

end Script

end SchemaScope
