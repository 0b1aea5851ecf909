/-
**Cursors: a node together with the way back to the root.**

A cursor stands on one node of a tree and knows the nodes above it and the siblings on either side,
so it can move to the first child, to the next sibling and to the parent.  The search is made of
these three moves alone, and every other way through a tree is a search: to visit all nodes is to
accept none of them.  It meets the nodes of the tree in pre-order, each once, and it ends because
every move on leaves less of the tree ahead of it.

Main definitions:

* `Cursor` — a node with its frames, nearest first;
* `Cursor.firstChild?`, `Cursor.nextSibling?`, `Cursor.parent?` — the moves;
* `Cursor.advance?` — the next cursor in pre-order;
* `Cursor.walk` — a cursor and all that come after it;
* `Cursor.search` — the search, which asks about cursors until one is accepted;
* `Cursor.visitAll`, `Cursor.findFirst?`, `Cursor.findAll` — what the search is used for;
* `Cursor.enclosing` — the cursors above a cursor, nearest first.
-/

import SchemaScope.Script.Node

set_option autoImplicit false

namespace SchemaScope.Script

/-- One step of the way from a node up to its parent: the parent, the siblings before the node,
nearest first, and the siblings after it. -/
structure Frame where
  parent : Node
  earlier : List Node
  later : List Node
  deriving Repr, Inhabited

/-- A node and the frames between it and the root, nearest first. -/
structure Cursor where
  node : Node
  frames : List Frame
  deriving Repr, Inhabited

namespace Cursor

/-- The cursor on the root of a tree. -/
def root (n : Node) : Cursor := ⟨n, []⟩

/-! ### Moves -/

/-- The first child. -/
def firstChild? (c : Cursor) : Option Cursor :=
  match c.node.children with
  | [] => none
  | n :: later => some ⟨n, ⟨c.node, [], later⟩ :: c.frames⟩

/-- The sibling that follows. -/
def nextSibling? (c : Cursor) : Option Cursor :=
  match c.frames with
  | ⟨parent, earlier, n :: later⟩ :: above => some ⟨n, ⟨parent, c.node :: earlier, later⟩ :: above⟩
  | _ => none

/-- The parent. -/
def parent? (c : Cursor) : Option Cursor :=
  match c.frames with
  | [] => none
  | f :: above => some ⟨f.parent, above⟩

/-- The cursors above a cursor whose frames are given, nearest first. -/
def ancestors : List Frame → List Cursor
  | [] => []
  | f :: above => ⟨f.parent, above⟩ :: ancestors above

/-- The cursors above this one, nearest first. -/
def enclosing (c : Cursor) : List Cursor := ancestors c.frames

theorem parent?_frames {c d : Cursor} (h : c.parent? = some d) :
    d.frames.length < c.frames.length := by
  unfold parent? at h
  split at h
  · cases h
  · cases h
    simp_all

/-- The next sibling of the cursor, or of the nearest cursor above it that has one. -/
def climb? (c : Cursor) : Option Cursor :=
  match c.nextSibling? with
  | some d => some d
  | none =>
      match _h : c.parent? with
      | none => none
      | some p => p.climb?
termination_by c.frames.length
decreasing_by exact parent?_frames _h

/-- The next cursor in pre-order: the first child if there is one, otherwise the next sibling of
the cursor or of the nearest cursor above that has one. -/
def advance? (c : Cursor) : Option Cursor :=
  match c.firstChild? with
  | some d => some d
  | none => c.climb?

/-! ### What is left to visit -/

/-- The number of nodes in the siblings still to come, at every level. -/
def pending : List Frame → Nat
  | [] => 0
  | f :: above => Node.sizes f.later + pending above

/-- The number of nodes from the cursor to the end of the tree. -/
def remaining (c : Cursor) : Nat := c.node.size + pending c.frames

theorem nextSibling?_remaining {c d : Cursor} (h : c.nextSibling? = some d) :
    d.remaining = pending c.frames := by
  unfold nextSibling? at h
  split at h
  · rename_i hf
    cases h
    simp [remaining, pending, hf, Nat.add_assoc]
  · cases h

theorem parent?_pending {c d : Cursor} (h : c.parent? = some d) :
    pending d.frames ≤ pending c.frames := by
  unfold parent? at h
  split at h
  · cases h
  · rename_i hf
    cases h
    simp [pending, hf]

theorem climb?_remaining {c d : Cursor} (h : c.climb? = some d) :
    d.remaining ≤ pending c.frames := by
  fun_induction climb? c with
  | case1 c e he => cases h; exact Nat.le_of_eq (nextSibling?_remaining he)
  | case2 => cases h
  | case3 c _ p hp ih => exact Nat.le_trans (ih h) (parent?_pending hp)

/-- Every move on leaves fewer nodes ahead. -/
theorem advance?_remaining {c d : Cursor} (h : c.advance? = some d) :
    d.remaining < c.remaining := by
  unfold advance? firstChild? at h
  cases hc : c.node.children with
  | cons n later =>
      simp only [hc] at h
      cases h
      have := Node.size_eq c.node
      simp only [hc, Node.sizes_cons] at this
      simp only [remaining, pending]
      omega
  | nil =>
      simp only [hc] at h
      have := climb?_remaining h
      have := Node.size_pos c.node
      simp only [remaining] at *
      omega

/-! ### Walks and searches -/

/-- The cursor and all cursors after it, as the moves meet them. -/
def walk (c : Cursor) : List Cursor :=
  match _h : c.advance? with
  | none => [c]
  | some d => c :: d.walk
termination_by c.remaining
decreasing_by exact advance?_remaining _h

/-- Asks about the cursor and those after it, one after the other, until one is accepted.  The
answers are given in a monad, so they can depend on what was asked before. -/
def search {m : Type → Type} [Monad m] (accept : Cursor → m Bool) (c : Cursor) :
    m (Option Cursor) := do
  match ← accept c with
  | true => return some c
  | false =>
      match _h : c.advance? with
      | none => return none
      | some d => d.search accept
termination_by c.remaining
decreasing_by exact advance?_remaining _h

/-- Visits the cursor and all cursors after it. -/
def visitAll {m : Type → Type} [Monad m] (visit : Cursor → m Unit) (c : Cursor) : m Unit := do
  let _ ← c.search fun d => do
    visit d
    return false

/-- The first cursor accepted by `p`, from `c` on. -/
def findFirst? (p : Cursor → Bool) (c : Cursor) : Option Cursor :=
  Id.run (c.search fun d => pure (p d))

/-- All cursors accepted by `p`, from `c` on, in the order in which they are visited. -/
def findAll (p : Cursor → Bool) (c : Cursor) : List Cursor :=
  let collect : StateM (Array Cursor) Unit := c.visitAll fun d =>
    modify fun found => if p d then found.push d else found
  (collect.run #[]).2.toList

/-- The search asks about the cursors of the walk. -/
theorem search_eq_findM? {m : Type → Type} [Monad m] (accept : Cursor → m Bool) (c : Cursor) :
    c.search accept = c.walk.findM? accept := by
  induction h : c.remaining using Nat.strongRecOn generalizing c with
  | ind k ih =>
      rw [search, walk]
      split
      · rfl
      · rename_i d hd
        have hlt : d.remaining < k := h ▸ advance?_remaining hd
        rw [ih _ hlt d rfl]
        rfl

/-- The search finds the first accepted cursor of the walk. -/
theorem findFirst?_eq_find? (p : Cursor → Bool) (c : Cursor) :
    c.findFirst? p = c.walk.find? p := by
  rw [findFirst?, search_eq_findM?, List.findM?_pure]
  rfl

/-- What is visited is the walk. -/
theorem visitAll_eq_forM {m : Type → Type} [Monad m] [LawfulMonad m] (visit : Cursor → m Unit)
    (c : Cursor) : c.visitAll visit = forM c.walk visit := by
  rw [visitAll, search_eq_findM?]
  induction c.walk with
  | nil => simp [List.findM?]
  | cons d rest ih =>
      rw [List.forM_cons, ← ih]
      simp [List.findM?]

/-- What is collected on the way is what a filter keeps of the walk. -/
theorem findAll_eq_filter (p : Cursor → Bool) (c : Cursor) : c.findAll p = c.walk.filter p := by
  have hcollect : ∀ (cursors : List Cursor) (found : Array Cursor),
      ((forM cursors fun d => modify fun found => if p d then found.push d else found :
        StateM (Array Cursor) Unit).run found).2.toList = found.toList ++ cursors.filter p := by
    intro cursors
    induction cursors with
    | nil =>
        intro found
        exact (List.append_nil _).symm
    | cons d rest ih =>
        intro found
        by_cases hp : p d <;> simp [hp, ih]
  rw [findAll, visitAll_eq_forM]
  exact hcollect c.walk #[]

end Cursor

end SchemaScope.Script
