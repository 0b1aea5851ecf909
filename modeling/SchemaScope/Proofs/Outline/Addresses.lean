/-
**Addresses in an outline.**

An outline is opened level by level, and a node may come up several times in it.  Its occurrences
are told apart by their addresses: the positions of the nodes that are opened on the way.  The full
outline below a node is the family of nodes at its addresses, and needs no bound on its depth.

Main definitions:

* `OutlineNode.nodeAt?` — the node at an address;
* `OutlineNode.Reached` — what comes up when some nodes are opened all the way.

Main results:

* `OutlineNode.nodeAt?_concat` — the last step of an address;
* `OutlineNode.Reached.induction` — **what passes from a node to what it opens into holds of all that
  is reached**.
-/

import Mathlib
import SchemaScope.Outline

set_option autoImplicit false

namespace SchemaScope.OutlineNode

/-- The node at an address: from each node on, the next number says which of the nodes that it opens
into comes next. -/
def nodeAt? (n : OutlineNode) : List Nat → Option OutlineNode
  | [] => some n
  | k :: rest => n.children[k]?.bind fun c => c.nodeAt? rest

@[simp] theorem nodeAt?_nil (n : OutlineNode) : n.nodeAt? [] = some n := rfl

theorem nodeAt?_cons (n : OutlineNode) (k : Nat) (rest : List Nat) :
    n.nodeAt? (k :: rest) = n.children[k]?.bind fun c => c.nodeAt? rest := rfl

/-- The last step of an address is taken from the node at the rest of it. -/
theorem nodeAt?_concat (n : OutlineNode) (address : List Nat) (k : Nat) :
    n.nodeAt? (address ++ [k]) = (n.nodeAt? address).bind fun m => m.children[k]? := by
  induction address generalizing n with
  | nil =>
      rw [List.nil_append, nodeAt?_cons]
      exact Option.bind_fun_some _
  | cons l rest ih =>
      rw [List.cons_append, nodeAt?_cons, nodeAt?_cons, Option.bind_assoc]
      congr 1
      funext c
      exact ih c

theorem nodeAt?_concat_eq_some {n m : OutlineNode} {address : List Nat} {k : Nat} :
    n.nodeAt? (address ++ [k]) = some m ↔
      ∃ parent, n.nodeAt? address = some parent ∧ parent.children[k]? = some m := by
  rw [nodeAt?_concat, Option.bind_eq_some_iff]

/-- The nodes that come up when some nodes are opened all the way. -/
def Reached (roots : List OutlineNode) (n : OutlineNode) : Prop :=
  ∃ root ∈ roots, ∃ address, root.nodeAt? address = some n

/-- **What passes from a node to what it opens into holds of all that is reached**, if it holds of the
nodes at the top. -/
theorem Reached.induction {P : OutlineNode → Prop} {roots : List OutlineNode} {n : OutlineNode}
    (h : Reached roots n) (top : ∀ root ∈ roots, P root)
    (step : ∀ m, P m → ∀ c ∈ m.children, P c) : P n := by
  obtain ⟨root, hroot, address, hn⟩ := h
  induction address using List.reverseRecOn generalizing n with
  | nil =>
      cases hn
      exact top _ hroot
  | append_singleton address k ih =>
      obtain ⟨m, hm, hc⟩ := nodeAt?_concat_eq_some.1 hn
      exact step m (ih hm) n (List.mem_of_getElem? hc)

end SchemaScope.OutlineNode
