/-
**What is shown as opening.**

Whether a node is shown as one that opens is computed apart from what it opens into, kind by kind.
The two agree on everything that an outline holds, with one exception: a group of inserted elements
is shown as opening as soon as it has an entry, but opens into the roots of its forest, and there is
none if every entry stands below another one.

Main definitions:

* `OutlineNode.IsRootless` — a group of inserted elements each of which has another one as parent;
* `OutlineNode.Furnished` — what is known of the nodes of an outline.

Main results:

* `OutlineNode.furnished_of_reached` — what an outline holds is furnished;
* `OutlineNode.hasChildren_iff` — where the two computations agree, kind by kind;
* `OutlineNode.children_insertGroup_eq_nil_iff` — when a group of inserted elements opens into
  nothing;
* `OutlineNode.opens_unless_rootless` — **what is shown as opening opens, except for groups without a
  root**.
-/

import SchemaScope.Proofs.Outline.Forest

set_option autoImplicit false

namespace SchemaScope.OutlineNode

open Schema Script

/-! ### What an outline holds -/

/-- A group of inserted elements each of which has another one as its parent. -/
def IsRootless (n : OutlineNode) : Prop :=
  ∃ entries, n = insertGroup entries ∧ ∀ i, ∃ p, IsParent entries i p

/-- Messages are always grouped, and every group of changes has an entry. -/
def Furnished : OutlineNode → Prop
  | .root ⟨.messages groups, _⟩ => groups ≠ []
  | .root ⟨.layout groups, _⟩ => ∀ g ∈ groups, g.entries ≠ []
  | .layoutGroup g => g.entries ≠ []
  | _ => True

/-- The outlines of a script: its sections, and its regions. -/
def tops (lookup : CaptionLookup) (m : RegionMatcher) (t : Tree) : List OutlineNode :=
  (Section.ofTree lookup t).map .root ++ (m.regions t).map .region

theorem entries_ne_nil_of_mem_groupEntries {entries : List LayoutEntry} {g : LayoutGroup}
    (h : g ∈ groupEntries entries) : g.entries ≠ [] := by
  simpa using (List.mem_filter.1 h).2

/-- Every section of a script is furnished. -/
theorem furnished_of_mem_ofTree {lookup : CaptionLookup} {t : Tree} {s : Section}
    (h : s ∈ Section.ofTree lookup t) : Furnished (.root s) := by
  -- seven of the sections are members of the schema object and say what they list
  have hmember : ∀ {key : String} {content : Node → Content},
      some s = Section.ofMember? t key content →
      (∀ n location, Furnished (.root ⟨content n, location⟩)) → Furnished (.root s) := by
    intro key content hs hcontent
    obtain ⟨l, -, rfl⟩ := Option.map_eq_some_iff.1 hs.symm
    exact hcontent _ _
  obtain ⟨section?, hmem, hs⟩ := List.mem_filterMap.1 h
  have hs : section? = some s := hs
  subst hs
  simp only [List.mem_cons, List.not_mem_nil, or_false] at hmem
  rcases hmem with hs | hs | hs | hs | hs | hs | hs | hs
  · obtain ⟨call, -, rfl⟩ := Option.map_eq_some_iff.1 hs.symm
    trivial
  · exact hmember hs fun _ _ => trivial
  · exact hmember hs fun _ _ => by simp [Furnished, groupMessages, Direction.all]
  · exact hmember hs fun _ _ => trivial
  · exact hmember hs fun _ _ => trivial
  · exact hmember hs fun _ _ => trivial
  · exact hmember hs fun _ _ => trivial
  · obtain ⟨l, -, rfl⟩ := Option.map_eq_some_iff.1 hs.symm
    exact fun g hg => entries_ne_nil_of_mem_groupEntries hg

/-- What a furnished node opens into is furnished. -/
theorem Furnished.children {n c : OutlineNode} (h : n.Furnished) (hc : c ∈ n.children) :
    c.Furnished := by
  cases n with
  | root s =>
      obtain ⟨content, location⟩ := s
      cases content with
      | layout groups =>
          obtain ⟨g, hg, rfl⟩ := List.mem_map.1 hc
          exact h g hg
      | _ =>
          obtain ⟨x, -, rfl⟩ := List.mem_map.1 hc
          trivial
  | layoutGroup g =>
      simp only [OutlineNode.children, ofLayoutGroup] at hc
      split at hc
      all_goals
        obtain ⟨x, -, rfl⟩ := List.mem_map.1 hc
        trivial
  | messageGroup | ruleGroup | insertion | region =>
      obtain ⟨x, -, rfl⟩ := List.mem_map.1 hc
      trivial
  | dependency | item | message | detail | rule | layoutEntry => cases hc

/-- What the outlines of a script hold is furnished. -/
theorem furnished_of_reached {lookup : CaptionLookup} {m : RegionMatcher} {t : Tree}
    {n : OutlineNode} (h : Reached (tops lookup m t) n) : n.Furnished := by
  refine h.induction ?_ fun _ hm _ hc => hm.children hc
  intro root hroot
  simp only [tops, List.mem_append, List.mem_map] at hroot
  rcases hroot with ⟨s, hs, rfl⟩ | ⟨r, -, rfl⟩
  · exact furnished_of_mem_ofTree hs
  · trivial

/-! ### The two computations -/

theorem not_isEmpty_iff_map {α β : Type} {items : List α} {f : α → β} :
    (!items.isEmpty) = true ↔ items.map f ≠ [] := by
  simp

/-- What is shown as opening opens, if it is no group of inserted elements. -/
theorem hasChildren_iff {n : OutlineNode} (h : n.Furnished)
    (hgroup : ∀ entries, n ≠ insertGroup entries) : n.hasChildren = true ↔ n.children ≠ [] := by
  cases n with
  | root s =>
      obtain ⟨content, location⟩ := s
      cases content with
      | messages groups =>
          have hgroups : groups ≠ [] := h
          simpa [hasChildren, contentOpens, children, ofContent] using hgroups
      | _ => exact not_isEmpty_iff_map
  | messageGroup g => exact not_isEmpty_iff_map
  | ruleGroup g => exact not_isEmpty_iff_map
  | layoutGroup g =>
      obtain ⟨operation, entries⟩ := g
      have hother : operation ≠ .insert := by
        rintro rfl
        exact hgroup entries rfl
      simp [hasChildren, children, ofLayoutGroup, hother]
  | insertion i =>
      by_cases hdepth : i.depth < maxDepth <;>
        simp [hasChildren, children, Insertion.hasChildren, Insertion.children, hdepth]
  | region r => exact not_isEmpty_iff_map
  | _ => simp [hasChildren, children]

/-- A group of inserted elements opens into nothing exactly if every entry has a parent. -/
theorem children_insertGroup_eq_nil_iff {entries : List LayoutEntry} :
    (insertGroup entries).children = [] ↔ ∀ i, ∃ p, IsParent entries i p := by
  rw [children_insertGroup, List.map_eq_nil_iff, List.eq_nil_iff_forall_not_mem]
  simp only [mem_forestRoots_iff, not_forall, not_not]

/-- **What is shown as opening opens, except for groups without a root.**  A node of the outlines of a
script is shown as opening exactly if it opens into something, and its item is marked as opening
exactly if there are items below it, unless it is a group of inserted elements that all have another
one as their parent.  Such a group is shown as opening, and opens into nothing. -/
theorem opens_unless_rootless {lookup : CaptionLookup} {m : RegionMatcher} {t : Tree}
    {n : OutlineNode} (h : Reached (tops lookup m t) n) (file : String) :
    (¬ n.IsRootless → (n.hasChildren = true ↔ n.children ≠ []) ∧
      ((OutlineItem.ofNode file n).collapsible = true ↔ OutlineItem.childrenOf file n ≠ [])) ∧
    (n.IsRootless → n.hasChildren = true ∧ n.children = [] ∧
      (OutlineItem.ofNode file n).collapsible = true ∧ OutlineItem.childrenOf file n = []) := by
  have hfurnished := furnished_of_reached h
  have hitems : OutlineItem.childrenOf file n = [] ↔ n.children = [] := List.map_eq_nil_iff
  have hcollapsible : (OutlineItem.ofNode file n).collapsible = n.hasChildren := rfl
  simp only [hcollapsible, ne_eq, hitems, and_self]
  constructor
  · intro hroot
    by_cases hgroup : ∃ entries, n = insertGroup entries
    · obtain ⟨entries, rfl⟩ := hgroup
      have hentries : entries ≠ [] := hfurnished
      have hchildren : (insertGroup entries).children ≠ [] := by
        intro hnil
        exact hroot ⟨entries, rfl, children_insertGroup_eq_nil_iff.1 hnil⟩
      simpa [insertGroup, hasChildren, hentries] using hchildren
    · exact hasChildren_iff hfurnished (not_exists.1 hgroup)
  · rintro ⟨entries, rfl, hparents⟩
    have hentries : entries ≠ [] := hfurnished
    have hopens : (insertGroup entries).hasChildren = true := by
      simpa [insertGroup, hasChildren] using hentries
    have hchildren := children_insertGroup_eq_nil_iff.2 hparents
    exact ⟨hopens, hchildren, hopens, hchildren⟩

/-- A page that inserts two elements into each other. -/
def circularPage : String :=
  "define(\"P\", [], () => \x7b return \x7b diff: [\n" ++
  "  \x7b operation: \"insert\", name: \"A\", parentName: \"B\" \x7d,\n" ++
  "  \x7b operation: \"insert\", name: \"B\", parentName: \"A\" \x7d] \x7d; \x7d);"

/-- The two elements of the page. -/
def circularEntries : List LayoutEntry :=
  [⟨.insert, "A", some "B", none, none, none, ⟨⟨2, 2⟩, ⟨2, 53⟩, 43, 94⟩⟩,
    ⟨.insert, "B", some "A", none, none, none, ⟨⟨3, 2⟩, ⟨3, 53⟩, 98, 149⟩⟩]

/-- The section of changes of the page. -/
def circularLayout : Section := ⟨.layout [⟨.insert, circularEntries⟩], ⟨⟨1, 33⟩, ⟨3, 54⟩, 33, 150⟩⟩

/-- On a page that inserts two elements into each other, the section of changes opens into the group
of inserted elements, and the group is shown as opening but opens into nothing. -/
theorem opens_unless_rootless_circular :
    ∃ t, Tree.parse? circularPage = some t ∧
      ((OutlineItem.ofNode "P.js" (.root circularLayout)).collapsible = true ↔
        OutlineItem.childrenOf "P.js" (.root circularLayout) ≠ []) ∧
      Reached (tops .none (.ofRules []) t) (insertGroup circularEntries) ∧
      (OutlineItem.ofNode "P.js" (insertGroup circularEntries)).collapsible = true ∧
      OutlineItem.childrenOf "P.js" (insertGroup circularEntries) = [] := by
  have hparse : (Tree.parse? circularPage).any
      (fun t => circularLayout ∈ Section.ofTree .none t) = true := by decide +kernel
  obtain ⟨t, ht, hlayout⟩ : ∃ t, Tree.parse? circularPage = some t ∧
      circularLayout ∈ Section.ofTree .none t := by
    simpa [Option.any_eq_true] using hparse
  have htop : OutlineNode.root circularLayout ∈ tops .none (.ofRules []) t :=
    List.mem_append_left _ (List.mem_map_of_mem hlayout)
  have hsection : Reached (tops .none (.ofRules []) t) (.root circularLayout) :=
    ⟨_, htop, [], rfl⟩
  have hgroup : Reached (tops .none (.ofRules []) t) (insertGroup circularEntries) :=
    ⟨_, htop, [0], rfl⟩
  have hroot : ¬ IsRootless (.root circularLayout) := by
    rintro ⟨entries, h, -⟩
    cases h
  have hrootless : (insertGroup circularEntries).IsRootless := ⟨_, rfl, by decide⟩
  obtain ⟨-, -, hopens, hnothing⟩ := (opens_unless_rootless hgroup "P.js").2 hrootless
  exact ⟨t, ht, ((opens_unless_rootless hsection "P.js").1 hroot).2, hgroup, hopens, hnothing⟩

end SchemaScope.OutlineNode
