/-
**The search of a tree, step by step.**

The search of a tree is one loop inside another.  The outer loop asks about the node under the
cursor and goes down to its first child; the inner loop goes to the next sibling, or up to the
parent as long as there is none.  The cursor knows only where it stands: nothing tells it which
nodes were met before, and neither loop shows by itself that it ends.

Here the two loops are taken apart into single steps, and a record is kept of the cursors that were
asked about.  What carries the proof is the list of cursors that are still ahead.  It can be read
off the place of the cursor alone, and the record followed by it is always the whole tree in
pre-order.  Every step that does not end the search takes one off the number of steps that are left.

Main definitions:

* `Tree.places` — the places of a tree in pre-order;
* `Traversal`, `Traversal.step` — where the search stands, and one step of it;
* `Traversal.Move` — what a step can do;
* `Phase.ahead`, `Phase.work` — the cursors that are still ahead, and the steps that are left;
* `Traversal.Tracks` — what holds after any number of steps.

Main results:

* `Cursor.firstChild?_eq_nth?`, `Cursor.nextSibling?_of_nth?` — where the moves lead;
* `Traversal.iterate_step_done` — the search ends after two steps for every node;
* `Tree.search_in_preorder` — **the search asks in pre-order, about no node twice, and every node is
  visited once**.
-/

import SchemaScope.Proofs.Script.Places

set_option autoImplicit false

namespace SchemaScope.Script

/-! ### Where the moves lead -/

namespace Cursor

theorem firstChild?_eq_nth? (c : Cursor) : c.firstChild? = c.nth? 0 := by
  rw [firstChild?, nth?]
  cases c.node.children <;> rfl

theorem nextSibling?_of_nth? {p c : Cursor} {k : Nat} (h : p.nth? k = some c) :
    c.nextSibling? = p.nth? (k + 1) := by
  obtain ⟨hk, hframes⟩ := nth?_eq_some.1 h
  obtain ⟨hlt, hnode⟩ := List.getElem?_eq_some_iff.1 hk
  -- the siblings before the next one are this one and those before it
  have hearlier : (p.node.children.take (k + 1)).reverse =
      c.node :: (p.node.children.take k).reverse := by
    rw [List.take_succ_eq_append_getElem hlt, hnode, List.reverse_append]
    rfl
  rw [nextSibling?, hframes, nth?, hearlier]
  by_cases hlast : k + 1 < p.node.children.length
  · rw [List.drop_eq_getElem_cons hlast, List.getElem?_eq_getElem hlast]
    rfl
  · rw [List.drop_eq_nil_of_le (by omega), List.getElem?_eq_none (by omega)]
    rfl

theorem children_eq_nil_of_firstChild? {c : Cursor} (h : c.firstChild? = none) :
    c.node.children = [] := by
  rw [firstChild?] at h
  split at h
  · assumption
  · cases h

theorem exists_walk_eq_cons (c : Cursor) : ∃ rest, c.walk = c :: rest := by
  rw [walk]
  split
  · exact ⟨_, rfl⟩
  · exact ⟨_, rfl⟩

theorem walk_of_firstChild? {c d : Cursor} (h : c.firstChild? = some d) : c.walk = c :: d.walk :=
  walk_of_advance? (by rw [advance?, h])

theorem afterwards_of_nextSibling? {c d : Cursor} (h : c.nextSibling? = some d) :
    c.afterwards = d.walk := by
  rw [afterwards, climb?, h]
  rfl

theorem afterwards_of_parent? {c p : Cursor} (h : c.nextSibling? = none) (hp : c.parent? = some p) :
    c.afterwards = p.afterwards := by
  rw [afterwards, climb?, h]
  dsimp only
  split
  · next hnone =>
    rw [hp] at hnone
    cases hnone
  · next q hq =>
    rw [hp] at hq
    cases hq
    rfl

theorem afterwards_of_root {c : Cursor} (h : c.nextSibling? = none) (hp : c.parent? = none) :
    c.afterwards = [] := by
  rw [afterwards, climb?, h]
  dsimp only
  split
  · rfl
  · next q hq =>
    rw [hp] at hq
    cases hq

mutual

theorem map_node_within (frames : List Frame) :
    ∀ n : Node, (within frames n).map (·.node) = n.preorder
  | ⟨kind, role, location, text, children⟩ => by
      rw [within, List.map_cons, map_node_withinAll, Node.preorder_eq]

theorem map_node_withinAll (parent : Node) (frames : List Frame) (earlier : List Node) :
    ∀ siblings : List Node,
      (withinAll parent frames earlier siblings).map (·.node) = Node.preorders siblings
  | [] => rfl
  | n :: later => by
      rw [withinAll, List.map_append, map_node_within (⟨parent, earlier, later⟩ :: frames) n,
        map_node_withinAll parent frames (n :: earlier) later, Node.preorders_cons]

end

end Cursor

/-! ### Steps -/

/-- Where the search stands: before it asks about a cursor, on the way up from a cursor with nothing
left below it, or at its end. -/
inductive Phase where
  | asking (c : Cursor)
  | climbing (c : Cursor)
  | done (found : Option Cursor)

/-- A search under way: where it stands, what is remembered by the one who is asked, and the cursors
asked about so far. -/
structure Traversal (σ : Type) where
  phase : Phase
  memory : σ
  asked : List Cursor

namespace Traversal

variable {σ : Type} {accept : Cursor → StateM σ Bool} {s s' : Traversal σ}

/-- One step of the two loops. -/
def step (accept : Cursor → StateM σ Bool) (s : Traversal σ) : Traversal σ :=
  match s.phase with
  | .asking c =>
      match (accept c).run s.memory with
      | (true, memory) => ⟨.done (some c), memory, s.asked ++ [c]⟩
      | (false, memory) =>
          match c.firstChild? with
          | some d => ⟨.asking d, memory, s.asked ++ [c]⟩
          | none => ⟨.climbing c, memory, s.asked ++ [c]⟩
  | .climbing c =>
      match c.nextSibling? with
      | some d => { s with phase := .asking d }
      | none =>
          match c.parent? with
          | some p => { s with phase := .climbing p }
          | none => { s with phase := .done none }
  | .done _ => s

/-- What a step can do. -/
inductive Move (accept : Cursor → StateM σ Bool) : Traversal σ → Traversal σ → Prop
  | find {c : Cursor} {memory memory' : σ} {asked : List Cursor}
      (h : (accept c).run memory = (true, memory')) :
      Move accept ⟨.asking c, memory, asked⟩ ⟨.done (some c), memory', asked ++ [c]⟩
  | descend {c d : Cursor} {memory memory' : σ} {asked : List Cursor}
      (h : (accept c).run memory = (false, memory')) (hd : c.firstChild? = some d) :
      Move accept ⟨.asking c, memory, asked⟩ ⟨.asking d, memory', asked ++ [c]⟩
  | turn {c : Cursor} {memory memory' : σ} {asked : List Cursor}
      (h : (accept c).run memory = (false, memory')) (hd : c.firstChild? = none) :
      Move accept ⟨.asking c, memory, asked⟩ ⟨.climbing c, memory', asked ++ [c]⟩
  | cross {c d : Cursor} {memory : σ} {asked : List Cursor} (hd : c.nextSibling? = some d) :
      Move accept ⟨.climbing c, memory, asked⟩ ⟨.asking d, memory, asked⟩
  | ascend {c p : Cursor} {memory : σ} {asked : List Cursor} (hd : c.nextSibling? = none)
      (hp : c.parent? = some p) :
      Move accept ⟨.climbing c, memory, asked⟩ ⟨.climbing p, memory, asked⟩
  | finish {c : Cursor} {memory : σ} {asked : List Cursor} (hd : c.nextSibling? = none)
      (hp : c.parent? = none) :
      Move accept ⟨.climbing c, memory, asked⟩ ⟨.done none, memory, asked⟩
  | rest {found : Option Cursor} {memory : σ} {asked : List Cursor} :
      Move accept ⟨.done found, memory, asked⟩ ⟨.done found, memory, asked⟩

/-- Every step does one of these things. -/
theorem move_step (accept : Cursor → StateM σ Bool) (s : Traversal σ) :
    Move accept s (s.step accept) := by
  obtain ⟨phase, memory, asked⟩ := s
  cases phase with
  | asking c =>
      simp only [step]
      split
      · next h => exact .find h
      · next h =>
        split
        · next hd => exact .descend h hd
        · next hd => exact .turn h hd
  | climbing c =>
      simp only [step]
      split
      · next hd => exact .cross hd
      · next hd =>
        split
        · next hp => exact .ascend hd hp
        · next hp => exact .finish hd hp
  | done found => exact .rest

end Traversal

/-! ### The steps that are left -/

/-- The steps from the way up out of the last child to the end of the search: two for every node in
the siblings still to come, and one for every parent. -/
def Cursor.ascent : List Frame → Nat
  | [] => 0
  | f :: above => 2 * Node.sizes f.later + 1 + ascent above

/-- The steps that are left if nothing more is accepted. -/
def Phase.work : Phase → Nat
  | .asking c => 2 * c.node.size + Cursor.ascent c.frames
  | .climbing c => 1 + Cursor.ascent c.frames
  | .done _ => 0

namespace Cursor

theorem size_of_firstChild? {c d : Cursor} (h : c.firstChild? = some d) :
    2 * d.node.size + ascent d.frames + 1 = 2 * c.node.size + ascent c.frames := by
  rw [firstChild?] at h
  split at h
  · cases h
  · next n later hchildren =>
    cases h
    have hsize := Node.size_eq c.node
    rw [hchildren, Node.sizes_cons] at hsize
    simp only [ascent]
    omega

theorem ascent_of_nextSibling? {c d : Cursor} (h : c.nextSibling? = some d) :
    2 * d.node.size + ascent d.frames = ascent c.frames := by
  rw [nextSibling?] at h
  split at h
  · next parent earlier n later above hframes =>
    cases h
    simp only [hframes, ascent, Node.sizes_cons]
    omega
  · cases h

theorem ascent_of_parent? {c p : Cursor} (h : c.parent? = some p) :
    ascent p.frames + 1 ≤ ascent c.frames := by
  rw [parent?] at h
  split at h
  · cases h
  · next f above hframes =>
    cases h
    simp only [hframes, ascent]
    omega

end Cursor

namespace Traversal

variable {σ : Type} {accept : Cursor → StateM σ Bool} {s s' : Traversal σ}

/-- A step takes one off the steps that are left. -/
theorem Move.work_le (h : Move accept s s') : s'.phase.work ≤ s.phase.work - 1 := by
  cases h with
  | find => exact Nat.zero_le _
  | descend _ hd =>
      have := Cursor.size_of_firstChild? hd
      simp only [Phase.work]
      omega
  | @turn c =>
      have := Node.size_pos c.node
      simp only [Phase.work]
      omega
  | cross hd =>
      have := Cursor.ascent_of_nextSibling? hd
      simp only [Phase.work]
      omega
  | ascend _ hp =>
      have := Cursor.ascent_of_parent? hp
      simp only [Phase.work]
      omega
  | finish => exact Nat.zero_le _
  | rest => exact Nat.zero_le _

theorem work_iterate_le (accept : Cursor → StateM σ Bool) (n : Nat) (s : Traversal σ) :
    ((step accept)^[n] s).phase.work ≤ s.phase.work - n := by
  induction n with
  | zero => exact le_refl _
  | succ n ih =>
      have hstep := (move_step accept ((step accept)^[n] s)).work_le
      rw [Function.iterate_succ_apply']
      omega

theorem exists_done_of_work {phase : Phase} (h : phase.work = 0) :
    ∃ found, phase = .done found := by
  cases phase with
  | asking c =>
      have := Node.size_pos c.node
      simp only [Phase.work] at h
      omega
  | climbing c =>
      simp only [Phase.work] at h
      omega
  | done found => exact ⟨found, rfl⟩

/-- **The search ends**: two steps for every node are enough. -/
theorem iterate_step_done (accept : Cursor → StateM σ Bool) (t : Tree) (memory : σ) :
    ∃ found, ((step accept)^[2 * t.root.size] ⟨.asking t.cursor, memory, []⟩).phase =
      .done found := by
  refine exists_done_of_work (Nat.le_zero.1 ?_)
  have hwork := work_iterate_le accept (2 * t.root.size) ⟨.asking t.cursor, memory, []⟩
  rwa [Phase.work, Tree.cursor, Cursor.root, Cursor.ascent, Nat.add_zero, Nat.sub_self] at hwork

end Traversal

/-! ### What is ahead -/

/-- The cursors that are still ahead. -/
def Phase.ahead : Phase → List Cursor
  | .asking c => c.walk
  | .climbing c => c.afterwards
  | .done _ => []

namespace Traversal

variable {σ : Type} {accept : Cursor → StateM σ Bool} {memory : σ} {places : List Cursor}
  {s s' : Traversal σ}

theorem findM?_run_of_accepted {c : Cursor} {rest : List Cursor} {memory memory' : σ}
    (h : (accept c).run memory = (true, memory')) :
    ((c :: rest).findM? accept).run memory = (some c, memory') := by
  rw [List.findM?, StateT.run_bind, h]
  rfl

theorem findM?_run_of_refused {c : Cursor} {rest : List Cursor} {memory memory' : σ}
    (h : (accept c).run memory = (false, memory')) :
    ((c :: rest).findM? accept).run memory = (rest.findM? accept).run memory' := by
  rw [List.findM?, StateT.run_bind, h]
  rfl

/-- What holds of a search through given places.  While it is under way, the cursors asked about and
those ahead are all the places, and asking about those ahead leads to the outcome that asking about
all of them would.  At its end that outcome has been reached: nothing was found after asking about
all places, or the cursor asked about last was. -/
def Tracks (accept : Cursor → StateM σ Bool) (memory : σ) (places : List Cursor)
    (s : Traversal σ) : Prop :=
  match s.phase with
  | .done found =>
      (places.findM? accept).run memory = (found, s.memory) ∧ s.asked <+: places ∧
        (found = none → s.asked = places) ∧ ∀ c, found = some c → s.asked.getLast? = some c
  | phase =>
      s.asked ++ phase.ahead = places ∧
        (phase.ahead.findM? accept).run s.memory = (places.findM? accept).run memory

/-- A cursor that is refused moves from those ahead to those asked about. -/
theorem refuse {c : Cursor} {rest asked : List Cursor} {m m' : σ}
    (h : (accept c).run m = (false, m')) (hplaces : asked ++ c :: rest = places)
    (hrun : ((c :: rest).findM? accept).run m = (places.findM? accept).run memory) :
    (asked ++ [c]) ++ rest = places ∧
      (rest.findM? accept).run m' = (places.findM? accept).run memory := by
  rw [findM?_run_of_refused h] at hrun
  exact ⟨by rw [List.append_assoc, List.singleton_append, hplaces], hrun⟩

/-- Every step keeps track. -/
theorem Move.tracks (h : Move accept s s') (ht : s.Tracks accept memory places) :
    s'.Tracks accept memory places := by
  cases h with
  | @find c m m' asked h =>
      obtain ⟨hplaces, hrun⟩ := ht
      obtain ⟨rest, hwalk⟩ := c.exists_walk_eq_cons
      simp only [Phase.ahead, hwalk] at hplaces hrun
      rw [findM?_run_of_accepted h] at hrun
      refine ⟨hrun.symm, ⟨rest, ?_⟩, nofun, ?_⟩
      · rw [List.append_assoc, List.singleton_append, hplaces]
      · rintro d ⟨⟩
        exact List.getLast?_concat
  | descend h hd =>
      obtain ⟨hplaces, hrun⟩ := ht
      simp only [Phase.ahead, Cursor.walk_of_firstChild? hd] at hplaces hrun
      exact refuse h hplaces hrun
  | turn h hd =>
      obtain ⟨hplaces, hrun⟩ := ht
      simp only [Phase.ahead,
        Cursor.walk_of_children_eq_nil (Cursor.children_eq_nil_of_firstChild? hd)] at hplaces hrun
      exact refuse h hplaces hrun
  | cross hd =>
      simpa only [Tracks, Phase.ahead, Cursor.afterwards_of_nextSibling? hd] using ht
  | ascend hd hp =>
      simpa only [Tracks, Phase.ahead, Cursor.afterwards_of_parent? hd hp] using ht
  | finish hd hp =>
      obtain ⟨hplaces, hrun⟩ := ht
      simp only [Phase.ahead, Cursor.afterwards_of_root hd hp, List.append_nil] at hplaces hrun
      refine ⟨hrun.symm, hplaces ▸ List.prefix_rfl, fun _ => hplaces, nofun⟩
  | rest => exact ht

theorem tracks_iterate (n : Nat) (h : s.Tracks accept memory places) :
    ((step accept)^[n] s).Tracks accept memory places := by
  induction n with
  | zero => exact h
  | succ n ih =>
      rw [Function.iterate_succ_apply']
      exact (move_step accept _).tracks ih

end Traversal

/-! ### Trees -/

namespace Tree

/-- The places of a tree in pre-order: a node, then one child with everything below it after the
other. -/
def places (t : Tree) : List Cursor := Cursor.within [] t.root

theorem walk_eq_places (t : Tree) : t.cursor.walk = t.places := t.walk_eq_within

/-- The search under way, right before its first question. -/
theorem tracks_start {σ : Type} (accept : Cursor → StateM σ Bool) (memory : σ) (t : Tree) :
    (⟨.asking t.cursor, memory, []⟩ : Traversal σ).Tracks accept memory t.places :=
  ⟨t.walk_eq_places, by rw [Phase.ahead, t.walk_eq_places]⟩

theorem places_pairwise (t : Tree) : t.places.Pairwise fun c d => c.address < d.address :=
  Cursor.within_pairwise [] t.root

theorem places_nodup (t : Tree) : t.places.Nodup := by
  refine t.places_pairwise.imp ?_
  rintro c _ hlt rfl
  exact lt_irrefl _ hlt

/-- The two loops end, having asked about the first places in pre-order, with what asking about the
places one after the other comes to. -/
theorem exists_iterate_step {σ : Type} (accept : Cursor → StateM σ Bool) (memory : σ) (t : Tree) :
    ∃ found memory' asked,
      (Traversal.step accept)^[2 * t.root.size] ⟨.asking t.cursor, memory, []⟩ =
          ⟨.done found, memory', asked⟩ ∧
        (t.places.findM? accept).run memory = (found, memory') ∧
        asked <+: t.places ∧ asked.Nodup ∧ (found = none → asked = t.places) ∧
        ∀ c, found = some c → asked.getLast? = some c := by
  -- after enough steps the search is done, and it has kept track all the way
  obtain ⟨found, hdone⟩ := Traversal.iterate_step_done accept t memory
  have htracks := Traversal.tracks_iterate (2 * t.root.size) (t.tracks_start accept memory)
  generalize (Traversal.step accept)^[2 * t.root.size] ⟨.asking t.cursor, memory, []⟩ = s at *
  obtain ⟨phase, memory', asked⟩ := s
  cases hdone
  obtain ⟨hrun, hprefix, hall, hlast⟩ := htracks
  exact ⟨found, memory', asked, rfl, hrun, hprefix, t.places_nodup.sublist hprefix.sublist, hall,
    hlast⟩

/-- Collecting the cursors of a tree by what their nodes are is collecting nodes in pre-order. -/
theorem map_node_findAll (t : Tree) (p : Node → Bool) :
    (t.cursor.findAll fun c => p c.node).map (·.node) = t.root.preorder.filter p := by
  rw [Cursor.findAll_eq_filter, t.walk_eq_places, ← Cursor.map_node_within [] t.root,
    List.filter_map]
  rfl

/-- **The search goes through a tree in pre-order.**  The moves lead to the first child, the next
sibling and the parent, and nowhere if there is none.  In pre-order every place of the tree stands
once, in the order of the addresses.  Whatever the answers depend on, the two loops end after two
steps for every node; the cursors asked about are the first of the places in pre-order, up to the
one that was found, or all of them if none was; and this is what the search comes to.  So the first
place that is accepted is found, nothing is found exactly if there is none, every place is visited
once, and the nodes of a kind come out in pre-order. -/
theorem search_in_preorder (t : Tree) :
    ((∀ c : Cursor, c.firstChild? = c.nth? 0) ∧
      (∀ (p c : Cursor) (k : Nat), p.nth? k = some c →
        c.nextSibling? = p.nth? (k + 1) ∧ c.parent? = some p) ∧
      t.cursor.nextSibling? = none ∧ t.cursor.parent? = none) ∧
    ((∀ c, c ∈ t.places ↔ ∃ a, t.cursor.at? a = some c) ∧
      t.places.Pairwise (fun c d => c.address < d.address) ∧
      t.places.map (·.node) = t.root.preorder) ∧
    (∀ (σ : Type) (accept : Cursor → StateM σ Bool) (memory : σ), ∃ found memory' asked,
      (Traversal.step accept)^[2 * t.root.size] ⟨.asking t.cursor, memory, []⟩ =
          ⟨.done found, memory', asked⟩ ∧
        (t.cursor.search accept).run memory = (found, memory') ∧
        asked <+: t.places ∧ asked.Nodup ∧ (found = none → asked = t.places) ∧
        ∀ c, found = some c → asked.getLast? = some c) ∧
    (∀ (m : Type → Type) [Monad m] (accept : Cursor → m Bool),
      t.cursor.search accept = t.places.findM? accept) ∧
    (∀ p : Cursor → Bool, t.findFirst? p = t.places.find? p ∧
      (t.findFirst? p = none ↔ ∀ c ∈ t.places, p c = false)) ∧
    (t.walk = t.places ∧ ∀ (σ : Type) (visit : Cursor → StateM σ Unit),
      t.cursor.visitAll visit = forM t.places visit) ∧
    (∀ name, t.named name = t.root.preorder.filter (·.kind.name == name)) ∧
    (∀ kind, t.ofKind kind = t.root.preorder.filter (·.kind == kind)) ∧
    t.comments = t.root.preorder.filter (·.kind == .comment) := by
  refine ⟨⟨Cursor.firstChild?_eq_nth?, ?_, rfl, rfl⟩,
    ⟨fun _ => Cursor.mem_within_iff [] t.root, t.places_pairwise,
      Cursor.map_node_within [] t.root⟩, ?_, ?_, ?_, ?_, ?_, ?_, ?_⟩
  · intro p c k h
    exact ⟨Cursor.nextSibling?_of_nth? h, Cursor.parent?_of_nth? h⟩
  · intro σ accept memory
    rw [Cursor.search_eq_findM?, t.walk_eq_places]
    exact t.exists_iterate_step accept memory
  · intro m _ accept
    rw [Cursor.search_eq_findM?, t.walk_eq_places]
  · intro p
    have hfind : t.findFirst? p = t.places.find? p := by
      rw [findFirst?, Cursor.findFirst?_eq_find?, t.walk_eq_places]
    refine ⟨hfind, ?_⟩
    rw [hfind, List.find?_eq_none]
    simp only [Bool.not_eq_true]
  · refine ⟨t.walk_eq_places, ?_⟩
    intro σ visit
    rw [Cursor.visitAll_eq_forM, t.walk_eq_places]
  · intro name
    exact t.map_node_findAll fun n => n.kind.name == name
  · intro kind
    exact t.map_node_findAll fun n => n.kind == kind
  · exact t.map_node_findAll fun n => n.kind == .comment

end Tree

end SchemaScope.Script
