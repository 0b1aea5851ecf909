/-
**What an outline shows stands inside its section.**

A section of the outline stands at a member of the schema object, or at the factory call.  What is
shown below it is read off descendants of this node: members of literals, elements of arrays without
the parentheses around them, strings, parameters.  All of them stand properly inside the section,
and whatever is listed together stands in the source one behind the other.  For this no grammar is
needed, only that the ranges of the script are well formed.

Main definitions:

* `Location.Within`, `Location.ProperlyWithin` — ranges inside ranges;
* `Location.LinedUp` — ranges properly inside a range, one behind the other;
* `Script.Tree.Holds` — the nodes of a tree below its root;
* `OutlineNode.OpensWithin` — all that a node opens into is lined up inside a range.

Main results:

* `Script.Tree.WellRanged.linedUp` — what is read off the children of a node is lined up;
* `OutlineNode.OpensWithin.of_mem_children`, `OutlineNode.OpensWithin.linedUp` — what one step down
  the outline preserves and shows;
* `opensWithin_of_mem_ofTree` — every section is laid out inside its range;
* `outline_contained` — **every node of an outline stands properly inside its section**, and nodes
  listed together stand one behind the other.
-/

import SchemaScope.Proofs.Outline.Dependencies

set_option autoImplicit false

namespace SchemaScope

open Script Schema

/-! ### Ranges inside ranges -/

namespace Location

/-- The range lies inside another one. -/
structure Within (l outer : Location) : Prop where
  start_le : outer.startByte ≤ l.startByte
  stop_le : l.stopByte ≤ outer.stopByte

/-- The range lies inside another one and does not fill it. -/
structure ProperlyWithin (l outer : Location) : Prop extends Within l outer where
  shorter : outer.startByte < l.startByte ∨ l.stopByte < outer.stopByte

/-- The ranges are not empty, lie inside another one, and stand one behind the other. -/
structure LinedUp (outer : Location) (ls : List Location) : Prop where
  inside : ∀ l ∈ ls, l.Within outer
  nonempty : ∀ l ∈ ls, l.startByte < l.stopByte
  behind : ls.Pairwise fun l m => l.stopByte ≤ m.startByte

variable {l m outer : Location}

theorem Within.refl (l : Location) : l.Within l := ⟨le_rfl, le_rfl⟩

theorem Within.trans (h : l.Within m) (h' : m.Within outer) : l.Within outer :=
  ⟨h'.start_le.trans h.start_le, h.stop_le.trans h'.stop_le⟩

theorem Within.trans_properly (h : l.Within m) (h' : m.ProperlyWithin outer) :
    l.ProperlyWithin outer :=
  ⟨h.trans h'.toWithin, h'.shorter.imp (·.trans_le h.start_le) h.stop_le.trans_lt⟩

theorem LinedUp.sublist {ls ls' : List Location} (h : LinedUp outer ls)
    (hsublist : ls'.Sublist ls) : LinedUp outer ls' :=
  ⟨fun l hl => h.inside l (hsublist.subset hl), fun l hl => h.nonempty l (hsublist.subset hl),
    h.behind.sublist hsublist⟩

theorem LinedUp.nil (outer : Location) : LinedUp outer [] := ⟨nofun, nofun, .nil⟩

/-- Ranges inside a range are lined up inside every range around it. -/
theorem LinedUp.mono {ls : List Location} (h : LinedUp m ls) (hm : m.Within outer) :
    LinedUp outer ls :=
  ⟨fun l hl => (h.inside l hl).trans hm, h.nonempty, h.behind⟩

theorem LinedUp.append {first second : List Location} (hfirst : LinedUp outer first)
    (hsecond : LinedUp outer second) (h : ∀ l ∈ first, ∀ m ∈ second, l.stopByte ≤ m.startByte) :
    LinedUp outer (first ++ second) where
  inside := List.forall_mem_append.2 ⟨hfirst.inside, hsecond.inside⟩
  nonempty := List.forall_mem_append.2 ⟨hfirst.nonempty, hsecond.nonempty⟩
  behind := List.pairwise_append.2 ⟨hfirst.behind, hsecond.behind, h⟩

end Location

open Location

/-! ### The nodes of a tree -/

namespace Script

/-- The node stands in the tree, and is not its root. -/
def Tree.Holds (t : Tree) (n : Node) : Prop := ∃ c, t.Inner c ∧ c.node = n

variable {t : Tree} {n a b : Node}

theorem Tree.Holds.child (h : t.Holds n) (ha : a ∈ n.children) : t.Holds a := by
  obtain ⟨c, hc, rfl⟩ := h
  obtain ⟨k, hk⟩ := List.mem_iff_getElem?.1 ha
  obtain ⟨d, hd, rfl⟩ := Cursor.exists_nth? hk
  exact ⟨d, .nth? hc.mem_walk hd, rfl⟩

theorem Node.mem_children_of_child? {role : Role} (h : n.child? role = some a) : a ∈ n.children :=
  List.mem_of_find?_eq_some h

mutual

/-- What passes from a node to its children passes to the expression inside its parentheses. -/
theorem Node.unwrapped_induction {P : Node → Prop} (step : ∀ n, P n → ∀ c ∈ n.children, P c) :
    ∀ n : Node, P n → P n.unwrapped
  | ⟨kind, role, location, text, children⟩ => by
      intro hn
      rw [Node.unwrapped]
      split
      · cases hfirst : Node.unwrappedFirst children with
        | none => exact hn
        | some e => exact Node.unwrappedFirst_induction step children (step _ hn) e hfirst
      · exact hn

theorem Node.unwrappedFirst_induction {P : Node → Prop}
    (step : ∀ n, P n → ∀ c ∈ n.children, P c) :
    ∀ nodes : List Node, (∀ n ∈ nodes, P n) → ∀ e, Node.unwrappedFirst nodes = some e → P e
  | [], _, e, he => by cases he
  | n :: rest, hnodes, e, he => by
      rw [List.forall_mem_cons] at hnodes
      rw [Node.unwrappedFirst] at he
      split at he
      · cases he
        exact Node.unwrapped_induction step n hnodes.1
      · exact Node.unwrappedFirst_induction step rest hnodes.2 e he

end

namespace Tree.WellRanged

variable (ht : t.WellRanged)

include ht

theorem nonempty (h : t.Holds n) : n.location.startByte < n.location.stopByte := by
  obtain ⟨c, hc, rfl⟩ := h
  exact ht.start_lt_stop hc

theorem siblingsOrdered (h : t.Holds n) : n.SiblingsOrdered := by
  obtain ⟨c, hc, rfl⟩ := h
  exact ht.siblings_node hc.mem_walk

theorem within_parent (h : t.Holds n) (ha : a ∈ n.children) : a.location.Within n.location := by
  obtain ⟨c, hc, rfl⟩ := h
  have hle := ht.enclosed _ hc.node_mem_preorders a ha
  exact ⟨hle.1, hle.2⟩

/-- The expression inside parentheses stands in the tree, and inside the parentheses. -/
theorem holds_unwrapped (h : t.Holds n) :
    t.Holds n.unwrapped ∧ n.unwrapped.location.Within n.location := by
  refine Node.unwrapped_induction (P := fun m => t.Holds m ∧ m.location.Within n.location) ?_ n
    ⟨h, .refl _⟩
  rintro m ⟨hm, hwithin⟩ c hc
  exact ⟨hm.child hc, (ht.within_parent hm hc).trans hwithin⟩

/-- A node with children in two roles is filled by neither of them. -/
theorem properlyWithin_of_child? (h : t.Holds n) {role other : Role} (hne : role ≠ other)
    (ha : n.child? role = some a) (hb : n.child? other = some b) :
    a.location.ProperlyWithin n.location := by
  obtain ⟨i, hi, hrole, -⟩ := Node.child?_eq_some_iff.1 ha
  obtain ⟨j, hj, hother, -⟩ := Node.child?_eq_some_iff.1 hb
  have hij : i ≠ j := by
    rintro rfl
    obtain rfl := Option.some.inj (hi.symm.trans hj)
    exact hne (Option.some.inj (hrole.symm.trans hother))
  obtain ⟨hilt, rfl⟩ := List.getElem?_eq_some_iff.1 hi
  obtain ⟨hjlt, rfl⟩ := List.getElem?_eq_some_iff.1 hj
  have hwithin := ht.within_parent h (List.getElem_mem hjlt)
  have hfull := ht.nonempty (h.child (List.getElem_mem hjlt))
  have hstart := hwithin.start_le
  have hstop := hwithin.stop_le
  have hbehind := List.pairwise_iff_getElem.1 (ht.siblingsOrdered h).behind
  refine ⟨ht.within_parent h (List.getElem_mem hilt), ?_⟩
  rcases lt_or_gt_of_ne hij with hlt | hlt
  · have hle := hbehind i j hilt hjlt hlt
    omega
  · have hle := hbehind j i hjlt hilt hlt
    omega

/-- **What is read off the children of a node is lined up inside the node**, if it stands inside the
child that it is read off. -/
theorem linedUp {α : Type} {f : Node → Option α} {place : α → Location} {elements : List Node}
    (h : t.Holds n) (hsublist : elements.Sublist n.children)
    (hf : ∀ e y, t.Holds e → f e = some y →
      (place y).Within e.location ∧ (place y).startByte < (place y).stopByte) :
    LinedUp n.location ((elements.filterMap f).map place) := by
  have hread : ∀ l ∈ (elements.filterMap f).map place, ∃ e ∈ n.children,
      l.Within e.location ∧ l.startByte < l.stopByte := by
    intro l hl
    obtain ⟨y, hy, rfl⟩ := List.mem_map.1 hl
    obtain ⟨e, he, hey⟩ := List.mem_filterMap.1 hy
    exact ⟨e, hsublist.subset he, hf e y (h.child (hsublist.subset he)) hey⟩
  constructor
  · intro l hl
    obtain ⟨e, he, hwithin, -⟩ := hread l hl
    exact hwithin.trans (ht.within_parent h he)
  · intro l hl
    obtain ⟨-, -, -, hnonempty⟩ := hread l hl
    exact hnonempty
  · rw [List.pairwise_map, List.pairwise_filterMap]
    refine ((ht.siblingsOrdered h).behind.sublist hsublist).imp_of_mem ?_
    intro e e' he he' hbehind y hy y' hy'
    have hstop := (hf e y (h.child (hsublist.subset he)) hy).1.stop_le
    have hstart := (hf e' y' (h.child (hsublist.subset he')) hy').1.start_le
    exact (hstop.trans hbehind).trans hstart

/-- What stands where children of a node stand is lined up. -/
theorem linedUp_at {α : Type} {f : Node → Option α} {place : α → Location} {elements : List Node}
    (h : t.Holds n) (hsublist : elements.Sublist n.children)
    (hf : ∀ e y, f e = some y → place y = e.location) :
    LinedUp n.location ((elements.filterMap f).map place) := by
  refine ht.linedUp h hsublist fun e y he hy => ?_
  rw [hf e y hy]
  exact ⟨.refl _, ht.nonempty he⟩

/-- The value of a member stands properly inside the member. -/
theorem holds_value {key : String} {value : Node} (h : t.Holds n) (hkey : n.key? = some key)
    (hvalue : n.child? .value = some value) :
    t.Holds value.unwrapped ∧ value.unwrapped.location.ProperlyWithin n.location := by
  have hheld : t.Holds value := h.child (Node.mem_children_of_child? hvalue)
  obtain ⟨hunwrapped, hwithin⟩ := ht.holds_unwrapped hheld
  refine ⟨hunwrapped, hwithin.trans_properly ?_⟩
  unfold Node.key? at hkey
  split at hkey
  · obtain ⟨word, hword, -⟩ := Option.bind_eq_some_iff.1 hkey
    exact ht.properlyWithin_of_child? h (by decide) hvalue hword
  · cases hkey

end Tree.WellRanged

end Script

/-! ### What one step down an outline preserves -/

/-- What a section lists is lined up inside a range, also in groups. -/
def Schema.Content.OpensWithin (outer : Location) : Content → Prop
  | .dependencies items => LinedUp outer (items.filterMap Dependency.location)
  | .mixins items | .attributes items | .methods items => LinedUp outer (items.map Item.location)
  | .details items => LinedUp outer (items.map Detail.location)
  | .messages groups => ∀ g ∈ groups, LinedUp outer (g.messages.map Message.location)
  | .businessRules groups => LinedUp outer (groups.map RuleGroup.location) ∧
      ∀ g ∈ groups, LinedUp outer (g.rules.map Rule.location)
  | .layout groups => ∀ g ∈ groups, LinedUp outer (g.entries.map LayoutEntry.location)

namespace OutlineNode

/-- All that a node of a section opens into, at any depth, is lined up inside a range. -/
def OpensWithin (outer : Location) : OutlineNode → Prop
  | .root s => s.content.OpensWithin outer
  | .messageGroup g => LinedUp outer (g.messages.map Message.location)
  | .ruleGroup g => LinedUp outer (g.rules.map Rule.location)
  | .layoutGroup g => LinedUp outer (g.entries.map LayoutEntry.location)
  | .insertion i => LinedUp outer (i.entries.map LayoutEntry.location)
  | .dependency _ | .item _ | .message _ | .detail _ | .rule _ | .layoutEntry _ => True
  | .region _ => False

variable {outer : Location} {n c : OutlineNode}

theorem OpensWithin.of_mem_ofContent {content : Content} (h : content.OpensWithin outer)
    (hc : c ∈ ofContent content) : c.OpensWithin outer := by
  cases content with
  | dependencies items | mixins items | attributes items | details items | methods items =>
      obtain ⟨i, -, rfl⟩ := List.mem_map.1 hc
      trivial
  | messages groups | layout groups =>
      obtain ⟨g, hg, rfl⟩ := List.mem_map.1 hc
      exact h g hg
  | businessRules groups =>
      obtain ⟨g, hg, rfl⟩ := List.mem_map.1 hc
      exact h.2 g hg

/-- **What a node opens into opens inside the same range.** -/
theorem OpensWithin.of_mem_children (h : n.OpensWithin outer) (hc : c ∈ n.children) :
    c.OpensWithin outer := by
  cases n with
  | root s => exact of_mem_ofContent h hc
  | messageGroup g | ruleGroup g =>
      obtain ⟨m, -, rfl⟩ := List.mem_map.1 hc
      trivial
  | layoutGroup g =>
      rw [children, ofLayoutGroup] at hc
      split at hc
      · obtain ⟨i, hi, rfl⟩ := List.mem_map.1 hc
        obtain ⟨k, -, rfl⟩ := List.mem_map.1 hi
        exact h
      · obtain ⟨e, -, rfl⟩ := List.mem_map.1 hc
        trivial
  | insertion i =>
      obtain ⟨j, hj, rfl⟩ := List.mem_map.1 hc
      rw [Insertion.children] at hj
      split at hj
      · obtain ⟨k, -, rfl⟩ := List.mem_map.1 hj
        exact h
      · cases hj
  | dependency d | item i | message m | detail d | rule r | layoutEntry e => cases hc
  | region r => exact h.elim

theorem filterMap_location_map {α : Type} {node : α → OutlineNode} {place : α → Location}
    (h : ∀ x, (node x).location = some (place x)) (xs : List α) :
    (xs.map node).filterMap location = xs.map place := by
  rw [List.filterMap_map, ← List.filterMap_eq_map]
  exact List.filterMap_congr fun x _ => h x

theorem filterMap_location_groups {α : Type} {node : α → OutlineNode}
    (h : ∀ x, (node x).location = none) (xs : List α) : (xs.map node).filterMap location = [] := by
  rw [List.filterMap_eq_nil_iff]
  intro n hn
  obtain ⟨x, -, rfl⟩ := List.mem_map.1 hn
  exact h x

/-- Some of the inserted elements, in their order, are lined up if all elements are. -/
theorem linedUp_insertions {entries : List LayoutEntry}
    (h : LinedUp outer (entries.map LayoutEntry.location)) (depth : Nat)
    {indices : List (Fin entries.length)}
    (hindices : indices.Sublist (List.finRange entries.length)) :
    LinedUp outer
      (((indices.map fun i => Insertion.mk entries i depth).map insertion).filterMap location) := by
  have hlocation (i : Insertion) : (insertion i).location = some i.entry.location := rfl
  have hall := (hindices.map entries.get).map LayoutEntry.location
  rw [List.map_get_finRange, List.map_map] at hall
  rw [filterMap_location_map hlocation, List.map_map]
  exact h.sublist hall

theorem OpensWithin.linedUp_ofContent {content : Content} (h : content.OpensWithin outer) :
    LinedUp outer ((ofContent content).filterMap location) := by
  cases content with
  | dependencies items =>
      rw [ofContent, List.filterMap_map]
      exact h
  | mixins items | attributes items | methods items =>
      rw [ofContent, filterMap_location_map fun _ => rfl]
      exact h
  | details items =>
      rw [ofContent, filterMap_location_map fun _ => rfl]
      exact h
  | messages groups | layout groups =>
      rw [ofContent, filterMap_location_groups fun _ => rfl]
      exact .nil outer
  | businessRules groups =>
      rw [ofContent, filterMap_location_map fun _ => rfl]
      exact h.1

/-- **What a node opens into is lined up.** -/
theorem OpensWithin.linedUp (h : n.OpensWithin outer) :
    LinedUp outer (n.children.filterMap location) := by
  cases n with
  | root s => exact linedUp_ofContent h
  | messageGroup g | ruleGroup g =>
      rw [children, filterMap_location_map fun _ => rfl]
      exact h
  | layoutGroup g =>
      rw [children, ofLayoutGroup]
      split
      · exact linedUp_insertions h 0 List.filter_sublist
      · rw [filterMap_location_map fun _ => rfl]
        exact h
  | insertion i =>
      rw [children, Insertion.children]
      split
      · exact linedUp_insertions h (i.depth + 1) List.filter_sublist
      · exact .nil outer
  | dependency d | item i | message m | detail d | rule r | layoutEntry e => exact .nil outer
  | region r => exact h.elim

/-- All that a node opens into is lined up, at any depth. -/
theorem OpensWithin.nodeAt? (h : n.OpensWithin outer) {address : List Nat} {m : OutlineNode}
    (hm : n.nodeAt? address = some m) : m.OpensWithin outer := by
  have hreached : Reached [n] m := ⟨n, List.mem_singleton_self n, address, hm⟩
  refine hreached.induction (P := OpensWithin outer) ?_ fun _ hp _ hc => hp.of_mem_children hc
  intro root hroot
  rwa [List.mem_singleton.1 hroot]

end OutlineNode

/-! ### The sections of a script -/

namespace Schema

variable {t : Tree} {n : Node} {outer : Location}

/-- What is shown of a factory call stands at the strings, and then at the parameters that are
left. -/
theorem filterMap_location_bindings (dependencies parameters : List Named) :
    ((padded dependencies parameters).map Dependency.ofBinding).filterMap Dependency.location =
      (dependencies ++ parameters.drop dependencies.length).map Named.location := by
  have hlocations := congrArg (List.filterMap id) (padded_locations dependencies parameters)
  rw [List.filterMap_map, List.filterMap_map] at hlocations
  rw [List.filterMap_map, ← List.filterMap_eq_map]
  exact hlocations

section Reading

variable (ht : t.WellRanged) (hn : t.Holds n)

include ht hn

theorem linedUp_itemsOf (tooltip : Node → Option String) :
    LinedUp n.location ((itemsOf tooltip n).map Item.location) := by
  refine ht.linedUp_at hn (pairs_sublist n) ?_
  intro p i hi
  simp only [Option.bind_eq_bind, Option.bind_eq_some_iff, Option.pure_def, Option.some.injEq] at hi
  obtain ⟨value, -, name, -, rfl⟩ := hi
  rfl

theorem linedUp_details (lookup : CaptionLookup) :
    LinedUp n.location ((n.pairs.filterMap (Detail.ofPair? lookup)).map Detail.location) := by
  refine ht.linedUp_at hn (pairs_sublist n) ?_
  intro p d hd
  simp only [Detail.ofPair?, Option.bind_eq_bind, Option.bind_eq_some_iff, Option.pure_def,
    Option.some.injEq] at hd
  obtain ⟨value, -, name, -, rfl⟩ := hd
  rfl

theorem linedUp_messagesOf : LinedUp n.location ((messagesOf n).map Message.location) := by
  refine ht.linedUp_at hn (pairs_sublist n) ?_
  intro p m hm
  obtain ⟨-, -, -, -, -, -, hlocation⟩ := Message.ofPair?_eq_some_iff.1 hm
  exact hlocation

theorem linedUp_ruleGroups : LinedUp n.location ((ruleGroups n).map RuleGroup.location) := by
  refine ht.linedUp_at hn (pairs_sublist n) ?_
  intro p g hg
  obtain ⟨-, value, -, -, hlocation⟩ := RuleGroup.ofPair?_eq_some_iff.1 hg
  exact hlocation

/-- The rules of a group are lined up inside the value of the member that writes the group. -/
theorem linedUp_rules {g : RuleGroup} (hg : g ∈ ruleGroups n) :
    LinedUp n.location (g.rules.map Rule.location) := by
  obtain ⟨pair, hpair, hofPair⟩ := List.mem_filterMap.1 hg
  have hmem := (pairs_sublist n).subset hpair
  obtain ⟨hkey, value, hvalue, hrules, -⟩ := RuleGroup.ofPair?_eq_some_iff.1 hofPair
  obtain ⟨hheld, hinside⟩ := ht.holds_value (hn.child hmem) hkey hvalue
  have hlined : LinedUp value.unwrapped.location (g.rules.map Rule.location) := by
    rw [hrules]
    refine ht.linedUp_at hheld (pairs_sublist _) ?_
    intro p r hr
    obtain ⟨-, -, -, -, hlocation⟩ := Rule.ofPair?_eq_some_iff.1 hr
    exact hlocation
  exact hlined.mono (hinside.toWithin.trans (ht.within_parent hn hmem))

theorem linedUp_entriesOf (lookup : CaptionLookup) :
    LinedUp n.location ((entriesOf lookup n).map LayoutEntry.location) := by
  rw [entriesOf, List.filterMap_map]
  refine ht.linedUp hn List.filter_sublist ?_
  intro e y he hy
  obtain ⟨hheld, hwithin⟩ := ht.holds_unwrapped he
  rw [(LayoutEntry.of_ofNode? hy).2]
  exact ⟨hwithin, ht.nonempty hheld⟩

theorem linedUp_dependenciesOf : LinedUp n.location ((dependenciesOf n).map Named.location) := by
  rw [dependenciesOf]
  split
  · refine ht.linedUp_at hn List.filter_sublist ?_
    intro e y hy
    obtain ⟨name, -, rfl⟩ := Option.map_eq_some_iff.1 hy
    rfl
  · exact .nil _

theorem linedUp_parametersOf : LinedUp n.location ((parametersOf n).map Named.location) := by
  have hnames : ∀ {m : Node} {elements : List Node}, t.Holds m → elements.Sublist m.children →
      LinedUp m.location (((elements.filter (·.kind == .identifier)).map fun e =>
        Named.mk e.text e.location).map Named.location) := by
    intro m elements hm hsublist
    have hlined := ht.linedUp_at (f := some) hm
      (List.filter_sublist (p := fun e => e.kind == .identifier).trans hsublist)
      fun e y hy => congrArg Node.location (Option.some.inj hy).symm
    rw [List.filterMap_some] at hlined
    rw [List.map_map]
    exact hlined
  rw [parametersOf]
  cases hsingle : n.child? .parameter with
  | some single =>
      have hmem := Node.mem_children_of_child? hsingle
      exact hnames hn (List.singleton_sublist.2 hmem)
  | none =>
      cases hlist : n.child? .parameters with
      | none => exact .nil _
      | some list =>
          have hmem := Node.mem_children_of_child? hlist
          exact (hnames (hn.child hmem) List.filter_sublist).mono (ht.within_parent hn hmem)

/-- Strings and parameters of a factory call are lined up inside its arguments. -/
theorem linedUp_bindings {name dependencies callback : Node}
    (harguments : n.significant = [name, dependencies, callback]) :
    LinedUp n.location (((padded (dependenciesOf dependencies) (parametersOf callback)).map
      Dependency.ofBinding).filterMap Dependency.location) := by
  have hmem : ∀ e ∈ [name, dependencies, callback], e ∈ n.children := by
    rw [← harguments]
    exact List.filter_sublist.subset
  have hdependencies := hmem dependencies (by simp)
  have hcallback := hmem callback (by simp)
  have hfirst := linedUp_dependenciesOf ht (hn.child hdependencies)
  have hsecond := linedUp_parametersOf ht (hn.child hcallback)
  have hbehind : dependencies.location.stopByte ≤ callback.location.startByte := by
    have hordered := (ht.siblingsOrdered hn).behind.sublist
      (List.filter_sublist (p := fun c => c.kind.isNamed && c.kind != .comment))
    rw [← Node.significant, harguments] at hordered
    simp only [List.pairwise_cons, List.mem_cons, List.not_mem_nil, or_false] at hordered
    exact hordered.2.1 _ rfl
  have hboth : LinedUp n.location
      ((dependenciesOf dependencies ++ parametersOf callback).map Named.location) := by
    rw [List.map_append]
    refine (hfirst.mono (ht.within_parent hn hdependencies)).append
      (hsecond.mono (ht.within_parent hn hcallback)) fun l hl m hm => ?_
    exact ((hfirst.inside l hl).stop_le.trans hbehind).trans (hsecond.inside m hm).start_le
  rw [filterMap_location_bindings]
  exact hboth.sublist ((List.drop_sublist _ _).append_left _ |>.map Named.location)

end Reading

/-! ### Where sections stand -/

section Sections

variable (ht : t.WellRanged)

include ht

/-- The value of a located member stands properly inside the member. -/
theorem holds_of_located? {name : String} {l : Located} (h : located? t name = some l) :
    t.Holds l.value ∧ l.value.location.ProperlyWithin l.location := by
  simp only [located?, Option.bind_eq_bind, Option.bind_eq_some_iff, Option.pure_def,
    Option.some.injEq] at h
  obtain ⟨c, hfirst, value, hvalue, rfl⟩ := h
  obtain ⟨hc, hmember, -⟩ := Tree.findFirst?_eq_some_iff.1 hfirst
  simp only [isTopLevelMember, Bool.and_eq_true, beq_iff_eq] at hmember
  have hinner : t.Inner c := by
    obtain rfl | hinner := Tree.eq_cursor_or_exists_nth? hc
    · -- the root is in no object
      cases hmember.2
    · exact hinner
  exact ht.holds_value ⟨c, hinner, rfl⟩ hmember.1.2 hvalue

theorem opensWithin_of_ofMember? {name : String} {content : Node → Content} {s : Section}
    (hs : Section.ofMember? t name content = some s)
    (h : ∀ n, t.Holds n → (content n).OpensWithin n.location) :
    ∃ inner, inner.ProperlyWithin s.location ∧ s.content.OpensWithin inner := by
  obtain ⟨l, hl, rfl⟩ := Option.map_eq_some_iff.1 hs
  obtain ⟨hheld, hproper⟩ := holds_of_located? ht (Option.eq_some_of_filter_eq_some hl)
  exact ⟨_, hproper, h _ hheld⟩

theorem opensWithin_of_layout? {lookup : CaptionLookup} {s : Section}
    (hs : Section.layout? lookup t = some s) :
    ∃ inner, inner.ProperlyWithin s.location ∧ s.content.OpensWithin inner := by
  obtain ⟨l, hl, rfl⟩ := Option.map_eq_some_iff.1 hs
  obtain ⟨hheld, hproper⟩ := holds_of_located? ht (Option.eq_some_of_filter_eq_some hl)
  refine ⟨_, hproper, fun g hg => ?_⟩
  rw [entries_of_mem_groupEntries hg]
  exact (linedUp_entriesOf ht hheld lookup).sublist (List.filter_sublist.map _)

theorem opensWithin_of_dependencies? {s : Section} (hs : Section.dependencies? t = some s)
    (hroot : t.root.kind ≠ .call) :
    ∃ inner, inner.ProperlyWithin s.location ∧ s.content.OpensWithin inner := by
  simp only [Section.dependencies?, factoryCall?, Option.map_eq_some_iff, Option.bind_eq_bind,
    Option.bind_eq_some_iff, Option.pure_def, Option.some.injEq] at hs
  obtain ⟨_, ⟨c, hfirst, ⟨name, dependencies, callback⟩, hcall, rfl⟩, rfl⟩ := hs
  obtain ⟨hc, hfactory, -⟩ := Tree.findFirst?_eq_some_iff.1 hfirst
  simp only [isFactoryCall, Bool.and_eq_true, beq_iff_eq] at hfactory
  obtain ⟨callee, arguments, hcallee, harguments, -, -, hsignificant, -⟩ :=
    factoryArguments?_eq_some_iff.1 hcall
  have hheld : t.Holds c.node := ⟨c, .of_mem_walk hc (by rw [hfactory.1]; exact hroot.symm), rfl⟩
  exact ⟨arguments.location, ht.properlyWithin_of_child? hheld (by decide) harguments hcallee,
    linedUp_bindings ht (hheld.child (Node.mem_children_of_child? harguments)) hsignificant⟩

/-- **Every section is laid out properly inside its range.** -/
theorem opensWithin_of_mem_ofTree {lookup : CaptionLookup} {s : Section}
    (hs : s ∈ Section.ofTree lookup t) (hroot : t.root.kind ≠ .call) :
    ∃ inner, inner.ProperlyWithin s.location ∧ s.content.OpensWithin inner := by
  simp only [Section.ofTree, List.mem_filterMap, List.mem_cons, List.not_mem_nil, or_false,
    id] at hs
  obtain ⟨found, hfound, hs⟩ := hs
  rcases hfound with rfl | rfl | rfl | rfl | rfl | rfl | rfl | rfl
  · exact opensWithin_of_dependencies? ht hs hroot
  · exact opensWithin_of_ofMember? ht hs fun n hn => linedUp_itemsOf ht hn _
  · refine opensWithin_of_ofMember? ht hs fun n hn g hg => ?_
    obtain ⟨d, -, rfl⟩ := List.mem_map.1 hg
    exact (linedUp_messagesOf ht hn).sublist (List.filter_sublist.map _)
  · exact opensWithin_of_ofMember? ht hs fun n hn => linedUp_itemsOf ht hn _
  · exact opensWithin_of_ofMember? ht hs fun n hn => linedUp_details ht hn lookup
  · exact opensWithin_of_ofMember? ht hs fun n hn => linedUp_itemsOf ht hn _
  · exact opensWithin_of_ofMember? ht hs fun n hn =>
      ⟨linedUp_ruleGroups ht hn, fun g hg => linedUp_rules ht hn hg⟩
  · exact opensWithin_of_layout? ht hs

end Sections

end Schema

/-- **Every node of an outline stands properly inside its section.**  Let the ranges of a tree be
well formed, and its root, whose range need not enclose its children, be no call.  Then whatever has
a place below a section, at any depth, stands properly inside the range of the section, and what a
node opens into stands in the source one behind the other. -/
theorem outline_contained {t : Tree} (ht : t.WellRanged) (hroot : t.root.kind ≠ .call)
    {lookup : CaptionLookup} {s : Section} (hs : s ∈ Section.ofTree lookup t) {address : List Nat}
    {n : OutlineNode} (hn : (OutlineNode.root s).nodeAt? address = some n) :
    (address ≠ [] → ∀ l, n.location = some l → l.ProperlyWithin s.location) ∧
      LinedUp s.location (n.children.filterMap OutlineNode.location) := by
  obtain ⟨inner, hinner, hopens⟩ := opensWithin_of_mem_ofTree ht hs hroot
  have hsection : (OutlineNode.root s).OpensWithin inner := hopens
  refine ⟨fun hne l hl => ?_, (hsection.nodeAt? hn).linedUp.mono hinner.toWithin⟩
  cases address using List.reverseRecOn with
  | nil => exact absurd rfl hne
  | append_singleton above k =>
      obtain ⟨m, hm, hk⟩ := OutlineNode.nodeAt?_concat_eq_some.1 hn
      have hlisted : l ∈ m.children.filterMap OutlineNode.location :=
        List.mem_filterMap.2 ⟨n, List.mem_of_getElem? hk, hl⟩
      exact ((hsection.nodeAt? hm).linedUp.inside l hlisted).trans_properly hinner

/-- A page with a group of two rules in parentheses. -/
def parenthesizedRules : String :=
  "define('P', [], () => \x7breturn \x7b" ++
    "businessRules: \x7bF: (\x7bp: \x7buId: '1'\x7d, q: \x7buId: '2'\x7d\x7d)\x7d\x7d\x7d)"

/-- The group of this page and its second rule stand properly inside the section, and the rules one
behind the other. -/
theorem outline_contained_parenthesizedRules :
    ∃ t, Tree.parse? parenthesizedRules = some t ∧ t.WellRanged ∧ t.root.kind ≠ .call ∧
      ∃ s ∈ Section.ofTree .none t, ∃ g r l m,
        (OutlineNode.root s).nodeAt? [0] = some g ∧ g.location = some l ∧
        (OutlineNode.root s).nodeAt? [0, 1] = some r ∧ r.location = some m ∧
        l.ProperlyWithin s.location ∧ m.ProperlyWithin s.location ∧
        LinedUp s.location (g.children.filterMap OutlineNode.location) := by
  have hpage : (Tree.parse? parenthesizedRules).any (fun t => decide t.WellRanged &&
      decide (t.root.kind ≠ .call) && (Section.ofTree .none t)[1]?.any fun s =>
        ((OutlineNode.root s).nodeAt? [0]).any (fun g => g.location.isSome) &&
          ((OutlineNode.root s).nodeAt? [0, 1]).any fun r => r.location.isSome) = true := by
    decide +kernel
  obtain ⟨t, hparse, h⟩ := (Option.any_eq_true _ _).1 hpage
  simp only [Bool.and_eq_true, decide_eq_true_eq, Option.any_eq_true, Option.isSome_iff_exists] at h
  obtain ⟨⟨ht, hroot⟩, s, hs, ⟨g, hg, l, hl⟩, r, hr, m, hm⟩ := h
  have hmem := List.mem_of_getElem? hs
  obtain ⟨hgroup, hlined⟩ := outline_contained ht hroot hmem hg
  obtain ⟨hrule, -⟩ := outline_contained ht hroot hmem hr
  exact ⟨t, hparse, ht, hroot, s, hmem, g, r, l, m, hg, hl, hr, hm, hgroup (by decide) l hl,
    hrule (by decide) m hm, hlined⟩

end SchemaScope
