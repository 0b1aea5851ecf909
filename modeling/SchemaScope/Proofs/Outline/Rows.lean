/-
**What a section shows, and where it is written.**

What a section of the schema object lists stands in the source in the order in which it is listed: a
row.  A section shows its row as it is, or sorted into groups, or each of its members with a row of
its own.  In all cases a node of the outline that has a place stands at the end of a lineage of the
section's member, and no other node of the section stands there.

Main definitions:

* `OutlineNode.startByte` — where a node of the outline starts;
* `Row` — nodes that the value of a member lists, in source order;
* `Resolves` — the nodes of a section are told apart by where they start.

Main results:

* `ValueAt.row_of_pairs`, `ValueAt.row_of_entries` — what is read off a literal is a row;
* `resolves_of_row`, `resolves_messages`, `resolves_rules`, `resolves_layout` — **in every section
  nodes are told apart by where they start**.
-/

import SchemaScope.Proofs.Outline.Forest
import SchemaScope.Proofs.Schema.Grouping

set_option autoImplicit false

namespace SchemaScope

open Script Schema

/-! ### Where nodes of an outline start -/

namespace OutlineNode

/-- The byte at which a node of the outline starts; one without a place counts as being at zero. -/
def startByte (n : OutlineNode) : Nat := (n.location.map Location.startByte).getD 0

theorem startByte_of_location {n : OutlineNode} {l : Location} (h : n.location = some l) :
    n.startByte = l.startByte := by
  rw [startByte, h]
  rfl

/-- Below a node that opens into nothing there is nothing else. -/
theorem nodeAt?_of_children_eq_nil {n m : OutlineNode} {rest : List Nat} (h : n.children = [])
    (hm : n.nodeAt? rest = some m) : rest = [] ∧ m = n := by
  cases rest with
  | nil => exact ⟨rfl, (Option.some.inj hm).symm⟩
  | cons k rest => simp [nodeAt?_cons, h] at hm

theorem nodeAt?_cons_eq_some {n m : OutlineNode} {k : Nat} {rest : List Nat} :
    n.nodeAt? (k :: rest) = some m ↔
      ∃ child, n.children[k]? = some child ∧ child.nodeAt? rest = some m := by
  rw [nodeAt?_cons, Option.bind_eq_some_iff]

/-- Among nodes in source order, a node has its position from where it starts. -/
theorem index_eq_of_pairwise {nodes : List OutlineNode} {m n : OutlineNode} {k l : Nat}
    (h : nodes.Pairwise fun m n => m.startByte < n.startByte) (hm : nodes[k]? = some m)
    (hn : nodes[l]? = some n) (hstart : m.startByte = n.startByte) : k = l := by
  obtain ⟨hk, rfl⟩ := List.getElem?_eq_some_iff.1 hm
  obtain ⟨hl, rfl⟩ := List.getElem?_eq_some_iff.1 hn
  have hlt := List.pairwise_iff_getElem.1 h
  rcases lt_trichotomy k l with hkl | hkl | hkl
  · have := hlt k l hk hl hkl
    omega
  · exact hkl
  · have := hlt l k hl hk hkl
    omega

end OutlineNode

/-! ### Rows -/

/-- The nodes of the outline are listed by the value of a member, in source order. -/
structure Row (q : Cursor) (nodes : List OutlineNode) : Prop where
  listed : ∀ n ∈ nodes, ∃ c, Lists q c ∧ n.location = some c.node.location
  ordered : nodes.Pairwise fun m n => m.startByte < n.startByte

namespace Row

variable {t : Tree} {q : Cursor} {nodes : List OutlineNode} {m n : OutlineNode}

theorem sublist {nodes' : List OutlineNode} (h : Row q nodes) (hsublist : nodes'.Sublist nodes) :
    Row q nodes' :=
  ⟨fun n hn => h.listed n (hsublist.subset hn), h.ordered.sublist hsublist⟩

/-- A node of a row has its position from where it starts. -/
theorem index_eq (h : Row q nodes) {k l : Nat} (hm : nodes[k]? = some m) (hn : nodes[l]? = some n)
    (hstart : m.startByte = n.startByte) : k = l :=
  OutlineNode.index_eq_of_pairwise h.ordered hm hn hstart

theorem index_eq_of_map {α : Type} {items : List α} {node : α → OutlineNode} {x y : α}
    (h : Row q (items.map node)) {k l : Nat} (hx : items[k]? = some x) (hy : items[l]? = some y)
    (hstart : (node x).startByte = (node y).startByte) : k = l := by
  refine h.index_eq ?_ ?_ hstart
  · rw [List.getElem?_map, hx, Option.map_some]
  · rw [List.getElem?_map, hy, Option.map_some]

theorem eq_of_startByte_eq (h : Row q nodes) (hm : m ∈ nodes) (hn : n ∈ nodes)
    (hstart : m.startByte = n.startByte) : m = n := by
  obtain ⟨k, hk⟩ := List.mem_iff_getElem?.1 hm
  obtain ⟨l, hl⟩ := List.mem_iff_getElem?.1 hn
  rw [h.index_eq hk hl hstart, hl] at hk
  exact (Option.some.inj hk).symm

theorem lineage {above : List Cursor} (h : Row q nodes) (hq : Lineage t (q :: above))
    (hn : n ∈ nodes) : ∃ c, Lineage t (c :: q :: above) ∧ n.location = some c.node.location := by
  obtain ⟨c, hlists, hlocation⟩ := h.listed n hn
  exact ⟨c, .listed hq hlists, hlocation⟩

end Row

section Reading

variable {t : Tree} {q o : Cursor} {α : Type} {f : Node → Option α} {node : α → OutlineNode}

/-- What is read off children one by one starts in the order of the children, if it starts inside
the child that it is read off. -/
theorem startByte_pairwise {elements : List Node} (ho : o.node.SiblingsOrdered)
    (hsublist : elements.Sublist o.node.children)
    (hf : ∀ e ∈ elements, ∀ y, f e = some y → e.location.startByte ≤ (node y).startByte ∧
      (node y).startByte < e.location.stopByte) :
    ((elements.filterMap f).map node).Pairwise fun m n => m.startByte < n.startByte := by
  rw [List.pairwise_map, List.pairwise_filterMap]
  refine (ho.behind.sublist hsublist).imp_of_mem ?_
  intro e e' he he' hbehind y hy y' hy'
  have hlt := (hf e he y hy).2
  have hle := (hf e' he' y' hy').1
  omega

theorem pairs_sublist (n : Node) : n.pairs.Sublist n.children := by
  rw [Node.pairs]
  split
  · exact List.filter_sublist.trans List.filter_sublist
  · exact List.nil_sublist _

/-- What is read off the members of an object literal is a row. -/
theorem Schema.ValueAt.row_of_pairs (ht : t.WellRanged) (h : ValueAt q o) (ho : o ∈ t.walk)
    (hf : ∀ p y, f p = some y → (node y).location = some p.location) :
    Row q ((o.node.pairs.filterMap f).map node) := by
  constructor
  · intro n hn
    obtain ⟨y, hy, rfl⟩ := List.mem_map.1 hn
    obtain ⟨p, hp, hpy⟩ := List.mem_filterMap.1 hy
    obtain ⟨c, j, -, rfl, hlists⟩ := h.exists_lists_of_mem_pairs hp
    exact ⟨c, hlists, hf _ _ hpy⟩
  · refine startByte_pairwise (ht.siblings_node ho) (pairs_sublist _) ?_
    intro p hp y hy
    rw [OutlineNode.startByte_of_location (hf p y hy)]
    exact ⟨le_rfl, (ht.siblings_node ho).nonempty p ((pairs_sublist _).subset hp)⟩

theorem Schema.ValueAt.row_of_items (ht : t.WellRanged) (h : ValueAt q o) (ho : o ∈ t.walk)
    (tooltip : Node → Option String) : Row q ((itemsOf tooltip o.node).map .item) := by
  refine h.row_of_pairs ht ho ?_
  intro p i hi
  simp only [Option.bind_eq_bind, Option.bind_eq_some_iff, Option.pure_def, Option.some.injEq] at hi
  obtain ⟨value, -, name, -, rfl⟩ := hi
  rfl

theorem Schema.ValueAt.row_of_details (ht : t.WellRanged) (h : ValueAt q o) (ho : o ∈ t.walk)
    (lookup : CaptionLookup) :
    Row q ((o.node.pairs.filterMap (Detail.ofPair? lookup)).map .detail) := by
  refine h.row_of_pairs ht ho ?_
  intro p d hd
  simp only [Detail.ofPair?, Option.bind_eq_bind, Option.bind_eq_some_iff, Option.pure_def,
    Option.some.injEq] at hd
  obtain ⟨value, -, name, -, rfl⟩ := hd
  rfl

theorem Schema.ValueAt.row_of_messages (ht : t.WellRanged) (h : ValueAt q o) (ho : o ∈ t.walk) :
    Row q ((messagesOf o.node).map .message) := by
  refine h.row_of_pairs ht ho ?_
  intro p m hm
  simp only [Message.ofPair?, Option.bind_eq_bind, Option.bind_eq_some_iff, Option.pure_def,
    Option.some.injEq] at hm
  obtain ⟨value, -, direction, -, name, -, rfl⟩ := hm
  rfl

theorem Schema.ValueAt.row_of_ruleGroups (ht : t.WellRanged) (h : ValueAt q o) (ho : o ∈ t.walk) :
    Row q ((ruleGroups o.node).map .ruleGroup) := by
  refine h.row_of_pairs ht ho ?_
  intro p g hg
  obtain ⟨-, value, -, -, hlocation⟩ := RuleGroup.ofPair?_eq_some_iff.1 hg
  rw [OutlineNode.location, hlocation]

/-- The rules of a group are a row below the member that writes the group. -/
theorem Schema.ValueAt.exists_row_of_mem_ruleGroups {source : String}
    (hparse : Tree.parse? source = some t) (ht : t.WellRanged) (h : ValueAt q o) (hq : q ∈ t.walk)
    {g : RuleGroup} (hg : g ∈ ruleGroups o.node) :
    ∃ p, Lists q p ∧ g.location = p.node.location ∧ Row p (g.rules.map .rule) := by
  obtain ⟨pair, hpair, hofPair⟩ := List.mem_filterMap.1 hg
  obtain ⟨p, j, -, rfl, hlists⟩ := h.exists_lists_of_mem_pairs hpair
  obtain ⟨-, -, hkind, -⟩ := mem_pairs_iff.1 hpair
  obtain ⟨-, value, hvalue, hrules, hlocation⟩ := RuleGroup.ofPair?_eq_some_iff.1 hofPair
  obtain ⟨v, o', k, -, rfl, hinside, ho', hat⟩ :=
    exists_valueAt hparse (hlists.mem_walk hq) hkind hvalue
  refine ⟨p, hlists, hlocation, ?_⟩
  rw [hrules, ← hinside.node_eq]
  refine hat.row_of_pairs ht ho' ?_
  intro pair r hr
  obtain ⟨-, -, -, -, hrlocation⟩ := Rule.ofPair?_eq_some_iff.1 hr
  rw [OutlineNode.location, hrlocation]

/-- An expression inside parentheses stands between them. -/
theorem unwrapped_within (ht : t.WellRanged) (hgrammar : t.FollowsGrammar) (ho : o ∈ t.walk)
    {e : Node} (he : e ∈ o.node.children) : e.location.startByte ≤ e.unwrapped.location.startByte ∧
      e.unwrapped.location.startByte < e.location.stopByte := by
  obtain ⟨j, hj⟩ := List.mem_iff_getElem?.1 he
  obtain ⟨c, hc, rfl⟩ := Cursor.exists_nth? hj
  have hinner : t.Inner c := .nth? ho hc
  obtain ⟨d, -, hinside⟩ := Tree.exists_inside hgrammar hinner.mem_walk
  rw [← hinside.node_eq]
  obtain ⟨a, -, ha⟩ := hinside
  have hle := ht.le_of_at? hinner ha
  have hlt := ht.start_lt_stop (hinner.at? ha)
  simp only [Cursor.startByte, Cursor.stopByte] at hle hlt
  omega

theorem kind_of_property?_eq_some {n v : Node} {key : String} (h : n.property? key = some v) :
    n.kind = .object := (property?_eq_some_iff.1 h).kind_eq

/-- A change is read off an object literal and stands where the literal stands. -/
theorem Schema.LayoutEntry.of_ofNode? {lookup : CaptionLookup} {n : Node} {e : LayoutEntry}
    (h : LayoutEntry.ofNode? lookup n = some e) : n.kind = .object ∧ e.location = n.location := by
  simp only [LayoutEntry.ofNode?, Option.bind_eq_bind, Option.bind_eq_some_iff, Option.pure_def,
    Option.some.injEq] at h
  obtain ⟨operation, -, name, hname, rfl⟩ := h
  obtain ⟨v, hv, -⟩ := Option.bind_eq_some_iff.1 hname
  exact ⟨kind_of_property?_eq_some hv, rfl⟩

/-- The changes in an array are a row. -/
theorem Schema.ValueAt.row_of_entries {source : String} (hparse : Tree.parse? source = some t)
    (ht : t.WellRanged) (h : ValueAt q o) (ho : o ∈ t.walk) (harray : o.node.kind = .array)
    (lookup : CaptionLookup) : Row q ((entriesOf lookup o.node).map .layoutEntry) := by
  have hread : entriesOf lookup o.node =
      o.node.significant.filterMap fun e => LayoutEntry.ofNode? lookup e.unwrapped := by
    rw [entriesOf, List.filterMap_map]
    rfl
  rw [hread]
  constructor
  · intro n hn
    obtain ⟨y, hy, rfl⟩ := List.mem_map.1 hn
    obtain ⟨e, he, hey⟩ := List.mem_filterMap.1 hy
    obtain ⟨hobject, hlocation⟩ := LayoutEntry.of_ofNode? hey
    obtain ⟨c, hlists, hnode⟩ := h.exists_lists_of_mem_significant hparse ho harray he hobject
    exact ⟨c, hlists, by rw [OutlineNode.location, hlocation, hnode]⟩
  · refine startByte_pairwise (ht.siblings_node ho) List.filter_sublist ?_
    intro e he y hy
    rw [OutlineNode.startByte_of_location (n := .layoutEntry y) rfl, (LayoutEntry.of_ofNode? hy).2]
    exact unwrapped_within ht (followsGrammar_of_parse? hparse) ho (Node.mem_significant_iff.1 he).1

end Reading

/-! ### What stands in groups -/

/-- In the section of messages, what has a place is a message in the group of its direction. -/
theorem OutlineNode.message_of_nodeAt? {messages : List Message} {location : Location} {k : Nat}
    {rest : List Nat} {n : OutlineNode}
    (hn : (root ⟨.messages (groupMessages messages), location⟩).nodeAt? (k :: rest) = some n)
    (hlocated : n.location.isSome = true) : ∃ d i m, Direction.all[k]? = some d ∧ rest = [i] ∧
      n = .message m ∧ (messages.filter fun m => m.direction == d)[i]? = some m := by
  obtain ⟨group, hk, hn⟩ := nodeAt?_cons_eq_some.1 hn
  simp only [children, ofContent, groupMessages, List.getElem?_map, Option.map_map,
    Option.map_eq_some_iff, Function.comp_apply] at hk
  obtain ⟨d, hd, rfl⟩ := hk
  cases rest with
  | nil =>
      cases hn
      simp [OutlineNode.location] at hlocated
  | cons i rest =>
      obtain ⟨child, hi, hn⟩ := nodeAt?_cons_eq_some.1 hn
      simp only [children, List.getElem?_map, Option.map_eq_some_iff] at hi
      obtain ⟨m, hm, rfl⟩ := hi
      obtain ⟨rfl, rfl⟩ := nodeAt?_of_children_eq_nil rfl hn
      exact ⟨d, i, m, hd, rfl, rfl, hm⟩

/-- In the section of business rules stand groups, and rules in groups. -/
theorem OutlineNode.rule_of_nodeAt? {groups : List RuleGroup} {location : Location} {k : Nat}
    {rest : List Nat} {n : OutlineNode}
    (hn : (root ⟨.businessRules groups, location⟩).nodeAt? (k :: rest) = some n) :
    ∃ g, groups[k]? = some g ∧ (rest = [] ∧ n = .ruleGroup g ∨
      ∃ i r, rest = [i] ∧ n = .rule r ∧ g.rules[i]? = some r) := by
  obtain ⟨group, hk, hn⟩ := nodeAt?_cons_eq_some.1 hn
  simp only [children, ofContent, List.getElem?_map, Option.map_eq_some_iff] at hk
  obtain ⟨g, hg, rfl⟩ := hk
  refine ⟨g, hg, ?_⟩
  cases rest with
  | nil => exact .inl ⟨rfl, (Option.some.inj hn).symm⟩
  | cons i rest =>
      obtain ⟨child, hi, hn⟩ := nodeAt?_cons_eq_some.1 hn
      simp only [children, List.getElem?_map, Option.map_eq_some_iff] at hi
      obtain ⟨r, hr, rfl⟩ := hi
      obtain ⟨rfl, rfl⟩ := nodeAt?_of_children_eq_nil rfl hn
      exact .inr ⟨i, r, rfl, rfl, hr⟩

/-- The operation of a group of changes, and which changes it holds. -/
theorem Schema.entries_of_mem_groupEntries {entries : List LayoutEntry} {g : LayoutGroup}
    (h : g ∈ groupEntries entries) :
    g.entries = entries.filter fun e => e.operation == g.operation :=
  (mem_groupEntries_iff.1 h).1

theorem Schema.operation_nodup (entries : List LayoutEntry) :
    ((groupEntries entries).map LayoutGroup.operation).Nodup :=
  (operations_sublist entries).nodup (by decide)

/-- In the section of changes, what has a place stands in a group. -/
theorem OutlineNode.layoutGroup_of_nodeAt? {groups : List LayoutGroup} {location : Location}
    {k : Nat} {rest : List Nat} {n : OutlineNode}
    (hn : (root ⟨.layout groups, location⟩).nodeAt? (k :: rest) = some n)
    (hlocated : n.location.isSome = true) : ∃ g i below, groups[k]? = some g ∧ rest = i :: below ∧
      (layoutGroup g).nodeAt? (i :: below) = some n := by
  obtain ⟨group, hk, hn⟩ := nodeAt?_cons_eq_some.1 hn
  simp only [children, ofContent, List.getElem?_map, Option.map_eq_some_iff] at hk
  obtain ⟨g, hg, rfl⟩ := hk
  cases rest with
  | nil =>
      cases hn
      simp [OutlineNode.location] at hlocated
  | cons i below => exact ⟨g, i, below, hg, rfl, hn⟩

/-- In a group of changes, what has a place stands where one of its changes stands. -/
theorem OutlineNode.entry_of_nodeAt? {g : LayoutGroup} {k : Nat} {rest : List Nat} {n : OutlineNode}
    (hn : (layoutGroup g).nodeAt? (k :: rest) = some n) :
    ∃ e ∈ g.entries, n.location = some e.location ∧
      (g.operation ≠ .insert → rest = [] ∧ g.entries[k]? = some e) ∧
      (g.operation = .insert → ∃ i, Occurs g.entries i (k :: rest) ∧ g.entries.get i = e) := by
  by_cases hinsert : g.operation = .insert
  · obtain ⟨operation, entries⟩ := g
    obtain rfl : operation = .insert := hinsert
    have hne : k :: rest ≠ [] := by simp
    rw [← List.dropLast_append_getLast hne] at hn
    obtain ⟨i, rfl, -⟩ := nodeAt?_cases hn
    refine ⟨entries.get i, List.get_mem _ _, rfl, fun h => absurd rfl h, fun _ => ⟨i, ?_, rfl⟩⟩
    rw [List.dropLast_append_getLast hne] at hn
    exact ⟨_, hn⟩
  · obtain ⟨child, hk, hn⟩ := nodeAt?_cons_eq_some.1 hn
    simp only [children, ofLayoutGroup, if_neg hinsert, List.getElem?_map,
      Option.map_eq_some_iff] at hk
    obtain ⟨e, he, rfl⟩ := hk
    obtain ⟨rfl, rfl⟩ := nodeAt?_of_children_eq_nil rfl hn
    exact ⟨e, List.mem_of_getElem? he, rfl, fun _ => ⟨rfl, he⟩, fun h => absurd h hinsert⟩

/-- In a group of changes, what starts at the same byte stands at the same address, if no two
inserted elements have the same name. -/
theorem Row.address_eq_of_layoutGroup {q : Cursor} {g : LayoutGroup}
    (hrow : Row q (g.entries.map .layoutEntry))
    (hnames : g.operation = .insert → (g.entries.map LayoutEntry.name).Nodup)
    {i j : Nat} {below below' : List Nat} {m n : OutlineNode}
    (hm : (OutlineNode.layoutGroup g).nodeAt? (i :: below) = some m)
    (hn : (OutlineNode.layoutGroup g).nodeAt? (j :: below') = some n)
    (hstart : m.startByte = n.startByte) : i :: below = j :: below' := by
  obtain ⟨e, he, helocation, hplain, hinsert⟩ := OutlineNode.entry_of_nodeAt? hm
  obtain ⟨e', he', helocation', hplain', hinsert'⟩ := OutlineNode.entry_of_nodeAt? hn
  rw [OutlineNode.startByte_of_location helocation,
    OutlineNode.startByte_of_location helocation'] at hstart
  cases hrow.eq_of_startByte_eq (List.mem_map_of_mem he) (List.mem_map_of_mem he') hstart
  -- the two are one change, and it has one position in the group
  have hindex : ∀ {x y : Nat}, g.entries[x]? = some e → g.entries[y]? = some e → x = y :=
    fun hx hy => hrow.index_eq_of_map hx hy rfl
  by_cases hoperation : g.operation = .insert
  · obtain ⟨x, hx, hxe⟩ := hinsert hoperation
    obtain ⟨y, hy, hye⟩ := hinsert' hoperation
    have hxy : x = y := Fin.ext (hindex (by rw [← hxe]; simp) (by rw [← hye]; simp))
    subst hxy
    exact hx.unique (hnames hoperation) hy
  · obtain ⟨rfl, hx⟩ := hplain hoperation
    obtain ⟨rfl, hy⟩ := hplain' hoperation
    rw [hindex hx hy]

/-! ### Telling the nodes of a section apart -/

/-- In the outline of a section, whatever has a place stands at the end of a lineage of the
section's member, and nothing else of the outline starts there. -/
structure Resolves (t : Tree) (q : Cursor) (root : OutlineNode) : Prop where
  traced : ∀ a n l, root.nodeAt? a = some n → n.location = some l →
    ∃ c above, Lineage t (c :: above) ∧ (c :: above).getLast? = some q ∧ l = c.node.location
  told : ∀ a b m n, root.nodeAt? a = some m → root.nodeAt? b = some n → m.location.isSome = true →
    n.location.isSome = true → m.startByte = n.startByte → a = b

section Sections

variable {source : String} {t : Tree} (hparse : Tree.parse? source = some t) (ht : t.WellRanged)
  {q : Cursor} (hq : Lineage t [q])

include hparse ht hq

/-- The member of a section starts before all that the section shows, so it is enough to tell apart
what stands below it. -/
theorem Resolves.of_below {root : OutlineNode} (hroot : root.location = some q.node.location)
    (below : ∀ k rest n l, root.nodeAt? (k :: rest) = some n → n.location = some l →
      ∃ c p above, Lineage t (c :: p :: above) ∧ (p :: above).getLast? = some q ∧
        l = c.node.location)
    (told : ∀ k rest k' rest' m n, root.nodeAt? (k :: rest) = some m →
      root.nodeAt? (k' :: rest') = some n → m.location.isSome = true → n.location.isSome = true →
      m.startByte = n.startByte → k :: rest = k' :: rest') : Resolves t q root := by
  -- nothing below the member starts where the member starts
  have hlater : ∀ k rest n, root.nodeAt? (k :: rest) = some n → n.location.isSome = true →
      n.startByte ≠ root.startByte := by
    intro k rest n hn hlocated hstart
    obtain ⟨l, hl⟩ := Option.isSome_iff_exists.1 hlocated
    obtain ⟨c, p, above, hlineage, -, rfl⟩ := below k rest n l hn hl
    rw [OutlineNode.startByte_of_location hl, OutlineNode.startByte_of_location hroot] at hstart
    exact absurd (hlineage.eq_of_startByte_eq hparse ht hq hstart) (by simp)
  constructor
  · intro a n l hn hl
    cases a with
    | nil =>
        cases hn
        exact ⟨q, [], hq, rfl, Option.some.inj (hl.symm.trans hroot)⟩
    | cons k rest =>
        obtain ⟨c, p, above, hlineage, hlast, hlocation⟩ := below k rest n l hn hl
        exact ⟨c, p :: above, hlineage, by rwa [List.getLast?_cons_cons], hlocation⟩
  · intro a b m n hm hn hmlocated hnlocated hstart
    cases a with
    | nil =>
        cases hm
        cases b with
        | nil => rfl
        | cons k rest => exact absurd hstart.symm (hlater k rest n hn hnlocated)
    | cons k rest =>
        cases b with
        | nil =>
            cases hn
            exact absurd hstart (hlater k rest m hm hmlocated)
        | cons k' rest' => exact told k rest k' rest' m n hm hn hmlocated hnlocated hstart

/-- A section that shows a row whose nodes do not open. -/
theorem resolves_of_row {root : OutlineNode} (hroot : root.location = some q.node.location)
    (hrow : Row q root.children) (hleaf : ∀ n ∈ root.children, n.children = []) :
    Resolves t q root := by
  have hshown : ∀ {k rest n}, root.nodeAt? (k :: rest) = some n →
      rest = [] ∧ root.children[k]? = some n := by
    intro k rest n hn
    obtain ⟨child, hk, hn⟩ := OutlineNode.nodeAt?_cons_eq_some.1 hn
    obtain ⟨rfl, rfl⟩ :=
      OutlineNode.nodeAt?_of_children_eq_nil (hleaf child (List.mem_of_getElem? hk)) hn
    exact ⟨rfl, hk⟩
  refine .of_below hparse ht hq hroot ?_ ?_
  · intro k rest n l hn hl
    obtain ⟨rfl, hk⟩ := hshown hn
    obtain ⟨c, hlineage, hlocation⟩ := hrow.lineage hq (List.mem_of_getElem? hk)
    exact ⟨c, q, [], hlineage, rfl, Option.some.inj (hl.symm.trans hlocation)⟩
  · intro k rest k' rest' m n hm hn _ _ hstart
    obtain ⟨rfl, hk⟩ := hshown hm
    obtain ⟨rfl, hk'⟩ := hshown hn
    rw [hrow.index_eq hk hk' hstart]

/-- Messages are a row that is sorted by direction. -/
theorem resolves_messages {messages : List Message} {location : Location}
    (hlocation : location = q.node.location) (hrow : Row q (messages.map .message)) :
    Resolves t q (.root ⟨.messages (groupMessages messages), location⟩) := by
  have hmem : ∀ {d : Direction} {i : Nat} {m : Message},
      (messages.filter fun m => m.direction == d)[i]? = some m →
      OutlineNode.message m ∈ messages.map .message ∧ m.direction = d := by
    intro d i m hm
    obtain ⟨hmem, hdirection⟩ := List.mem_filter.1 (List.mem_of_getElem? hm)
    exact ⟨List.mem_map_of_mem hmem, by simpa using hdirection⟩
  refine .of_below hparse ht hq (by rw [OutlineNode.location, hlocation]) ?_ ?_
  · intro k rest n l hn hl
    obtain ⟨d, i, m, -, -, rfl, hm⟩ := OutlineNode.message_of_nodeAt? hn (by simp [hl])
    obtain ⟨c, hlineage, hlocation⟩ := hrow.lineage hq (hmem hm).1
    exact ⟨c, q, [], hlineage, rfl, Option.some.inj (hl.symm.trans hlocation)⟩
  · intro k rest k' rest' m n hm hn hmlocated hnlocated hstart
    obtain ⟨d, i, x, hd, rfl, rfl, hx⟩ := OutlineNode.message_of_nodeAt? hm hmlocated
    obtain ⟨d', i', x', hd', rfl, rfl, hx'⟩ := OutlineNode.message_of_nodeAt? hn hnlocated
    obtain ⟨hxmem, rfl⟩ := hmem hx
    obtain ⟨hxmem', rfl⟩ := hmem hx'
    -- the two are one message, so they are in one group
    cases hrow.eq_of_startByte_eq hxmem hxmem' hstart
    have hdirections : Direction.all.Nodup := by decide
    obtain rfl : k = k' := (List.getElem?_inj (List.getElem?_eq_some_iff.1 hd).1 hdirections).1
      (hd.trans hd'.symm)
    have hgroup : Row q ((messages.filter fun m => m.direction == x.direction).map .message) :=
      hrow.sublist (List.filter_sublist.map _)
    rw [hgroup.index_eq_of_map hx hx' rfl]

/-- Changes are a row that is sorted by operation, and inserted elements come up in it at one
address each, if no two have the same name. -/
theorem resolves_layout {entries : List LayoutEntry} {location : Location}
    (hlocation : location = q.node.location) (hrow : Row q (entries.map .layoutEntry))
    (hnames : ∀ g ∈ groupEntries entries, g.operation = .insert →
      (g.entries.map LayoutEntry.name).Nodup) :
    Resolves t q (.root ⟨.layout (groupEntries entries), location⟩) := by
  have hmem : ∀ {g : LayoutGroup} {e : LayoutEntry}, g ∈ groupEntries entries →
      e ∈ g.entries → OutlineNode.layoutEntry e ∈ entries.map .layoutEntry ∧
        e.operation = g.operation := by
    intro g e hg he
    rw [entries_of_mem_groupEntries hg, List.mem_filter] at he
    exact ⟨List.mem_map_of_mem he.1, by simpa using he.2⟩
  refine .of_below hparse ht hq (by rw [OutlineNode.location, hlocation]) ?_ ?_
  · intro k rest n l hn hl
    obtain ⟨g, i, below, hg, rfl, hbelow⟩ :=
      OutlineNode.layoutGroup_of_nodeAt? hn (by simp [hl])
    obtain ⟨e, he, helocation, -⟩ := OutlineNode.entry_of_nodeAt? hbelow
    obtain ⟨c, hlineage, hlocation⟩ := hrow.lineage hq (hmem (List.mem_of_getElem? hg) he).1
    rw [OutlineNode.location, Option.some.injEq] at hlocation
    rw [helocation, Option.some.injEq, hlocation] at hl
    exact ⟨c, q, [], hlineage, rfl, hl.symm⟩
  · intro k rest k' rest' m n hm hn hmlocated hnlocated hstart
    obtain ⟨g, i, below, hg, rfl, hbelow⟩ := OutlineNode.layoutGroup_of_nodeAt? hm hmlocated
    obtain ⟨g', i', below', hg', rfl, hbelow'⟩ := OutlineNode.layoutGroup_of_nodeAt? hn hnlocated
    obtain rfl : k = k' := by
      obtain ⟨e, he, helocation, -⟩ := OutlineNode.entry_of_nodeAt? hbelow
      obtain ⟨e', he', helocation', -⟩ := OutlineNode.entry_of_nodeAt? hbelow'
      obtain ⟨hemem, hoperation⟩ := hmem (List.mem_of_getElem? hg) he
      obtain ⟨hemem', hoperation'⟩ := hmem (List.mem_of_getElem? hg') he'
      -- the two are one change, so they are in one group
      rw [OutlineNode.startByte_of_location helocation,
        OutlineNode.startByte_of_location helocation'] at hstart
      cases hrow.eq_of_startByte_eq hemem hemem' hstart
      have hlt : k < ((groupEntries entries).map LayoutGroup.operation).length := by
        rw [List.length_map]
        exact (List.getElem?_eq_some_iff.1 hg).1
      refine (List.getElem?_inj hlt (operation_nodup entries)).1 ?_
      rw [List.getElem?_map, List.getElem?_map, hg, hg', Option.map_some, Option.map_some,
        ← hoperation, ← hoperation']
    obtain rfl := Option.some.inj (hg.symm.trans hg')
    have hmemg := List.mem_of_getElem? hg
    have hgroup : Row q (g.entries.map .layoutEntry) := by
      rw [entries_of_mem_groupEntries hmemg]
      exact hrow.sublist (List.filter_sublist.map _)
    rw [hgroup.address_eq_of_layoutGroup (hnames g hmemg) hbelow hbelow' hstart]

omit hparse ht hq in
/-- In the section of business rules a group stands where the section lists it, and a rule where its
group lists it. -/
theorem exists_lists_of_rule {groups : List RuleGroup} {location : Location}
    (hrules : ∀ g ∈ groups, ∃ p, Lists q p ∧ g.location = p.node.location ∧
      Row p (g.rules.map .rule)) {k : Nat} {rest : List Nat} {n : OutlineNode}
    (hn : (OutlineNode.root ⟨.businessRules groups, location⟩).nodeAt? (k :: rest) = some n) :
    ∃ g p, groups[k]? = some g ∧ Lists q p ∧ g.location = p.node.location ∧
      Row p (g.rules.map .rule) ∧ (rest = [] ∧ n.location = some p.node.location ∨
        ∃ i r c, rest = [i] ∧ g.rules[i]? = some r ∧ n = .rule r ∧ Lists p c ∧
          n.location = some c.node.location) := by
  obtain ⟨g, hg, hn⟩ := OutlineNode.rule_of_nodeAt? hn
  obtain ⟨p, hlists, hlocation, hrow⟩ := hrules g (List.mem_of_getElem? hg)
  refine ⟨g, p, hg, hlists, hlocation, hrow, ?_⟩
  rcases hn with ⟨rfl, rfl⟩ | ⟨i, r, rfl, rfl, hi⟩
  · exact .inl ⟨rfl, congrArg some hlocation⟩
  · obtain ⟨c, hc, hclocation⟩ := hrow.listed _ (List.mem_map_of_mem (List.mem_of_getElem? hi))
    exact .inr ⟨i, r, c, rfl, hi, rfl, hc, hclocation⟩

/-- The groups of business rules are a row, and each of them shows a row of its own. -/
theorem resolves_rules {groups : List RuleGroup} {location : Location}
    (hlocation : location = q.node.location) (hrow : Row q (groups.map .ruleGroup))
    (hrules : ∀ g ∈ groups, ∃ p, Lists q p ∧ g.location = p.node.location ∧
      Row p (g.rules.map .rule)) :
    Resolves t q (.root ⟨.businessRules groups, location⟩) := by
  refine .of_below hparse ht hq (by rw [OutlineNode.location, hlocation]) ?_ ?_
  · intro k rest n l hn hl
    obtain ⟨g, p, -, hlists, -, -, ⟨-, hplace⟩ | ⟨i, r, c, -, -, -, hc, hplace⟩⟩ :=
      exists_lists_of_rule hrules hn
    · exact ⟨p, q, [], .listed hq hlists, rfl, Option.some.inj (hl.symm.trans hplace)⟩
    · exact ⟨c, p, [q], .listed (.listed hq hlists) hc, rfl,
        Option.some.inj (hl.symm.trans hplace)⟩
  · intro k rest k' rest' m n hm hn _ _ hstart
    obtain ⟨g, p, hg, hlists, hglocation, hrow₁, hm⟩ := exists_lists_of_rule hrules hm
    obtain ⟨g', p', hg', hlists', hglocation', hrow₂, hn⟩ := exists_lists_of_rule hrules hn
    -- the group that stands at a member has one position in the section
    have hgroup : p = p' → k = k' := by
      rintro rfl
      refine hrow.index_eq_of_map hg hg' ?_
      rw [OutlineNode.startByte_of_location (n := .ruleGroup g) rfl, hglocation,
        OutlineNode.startByte_of_location (n := .ruleGroup g') rfl, hglocation']
    -- a group has a lineage of two members, and a rule has one of three
    rcases hm with ⟨rfl, hplace⟩ | ⟨i, r, c, rfl, hi, rfl, hc, hplace⟩ <;>
      rcases hn with ⟨rfl, hplace'⟩ | ⟨i', r', c', rfl, hi', rfl, hc', hplace'⟩ <;>
      rw [OutlineNode.startByte_of_location hplace,
        OutlineNode.startByte_of_location hplace'] at hstart
    · have hsame := Lineage.eq_of_startByte_eq hparse ht (.listed hq hlists) (.listed hq hlists')
        hstart
      rw [hgroup (List.cons.inj hsame).1]
    · have hsame := Lineage.eq_of_startByte_eq hparse ht (.listed hq hlists)
        (.listed (.listed hq hlists') hc') hstart
      simp at hsame
    · have hsame := Lineage.eq_of_startByte_eq hparse ht (.listed (.listed hq hlists) hc)
        (.listed hq hlists') hstart
      simp at hsame
    · have hsame := Lineage.eq_of_startByte_eq hparse ht (.listed (.listed hq hlists) hc)
        (.listed (.listed hq hlists') hc') hstart
      obtain ⟨rfl, rfl, -⟩ : c = c' ∧ p = p' ∧ True := by simpa using hsame
      obtain rfl := hgroup rfl
      obtain rfl := Option.some.inj (hg.symm.trans hg')
      rw [hrow₁.index_eq_of_map hi hi' (by
        rw [OutlineNode.startByte_of_location hplace, OutlineNode.startByte_of_location hplace'])]

end Sections

end SchemaScope
