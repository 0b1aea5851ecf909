/-
**What identifies a node of an outline.**

A node is identified by a text made of the file, the name of the node and where it starts.  The name
may hold anything, colons and digits included; but line and column hold no colon, so they can be
read off the end of the text.  Two nodes with the same text therefore start at the same position.
Groups that only sort their members start nowhere, and are told apart by their names.  All other
nodes stand at words in the arguments of the first factory call, or at the end of a lineage of their
section's member; there the start determines the place, the place determines the section, and the
section tells its nodes apart.

Main definitions:

* `Schema.Content.key?` — the key of a section in the schema object.

Main results:

* `identityText_inj` — name, line and column can be read off the identifying text;
* `Section.titles_nodup` — no two sections of a script have the same title;
* `resolves_of_mem_ofTree` — **in every section of the schema object nodes are told apart by where
  they start**;
* `identities_distinct` — **no two nodes of an outline have the same identifying text**.
-/

import SchemaScope.Proofs.Outline.Dependencies

set_option autoImplicit false

namespace SchemaScope

open Script Schema

/-! ### The identifying text -/

theorem append_colon_inj {xs ys zs ws : List Char} (hz : ':' ∉ zs) (hw : ':' ∉ ws)
    (h : xs ++ ':' :: zs = ys ++ ':' :: ws) : xs = ys ∧ zs = ws := by
  rcases List.append_eq_append_iff.1 h with ⟨between, rfl, hrest⟩ | ⟨between, rfl, hrest⟩
  · cases between with
    | nil => exact ⟨by simp, by simpa using hrest⟩
    | cons c between =>
        obtain ⟨-, rfl⟩ := List.cons.inj hrest
        simp at hz
  · cases between with
    | nil => exact ⟨by simp, by simpa using hrest.symm⟩
    | cons c between =>
        obtain ⟨-, rfl⟩ := List.cons.inj hrest
        simp at hw

theorem colon_not_mem_toString (n : Nat) : ':' ∉ (toString n).toList := by
  intro h
  rw [Nat.toString_eq_ofList_toDigits, String.toList_ofList] at h
  exact absurd (Nat.isDigit_of_mem_toDigits (by omega) (by omega) h) (by decide)

/-- **Name, line and column can be read off the identifying text**, whatever the name holds. -/
theorem identityText_inj {file name name' : String} {line line' column column' : Nat}
    (h : identityText file name line column = identityText file name' line' column') :
    name = name' ∧ line = line' ∧ column = column' := by
  have hlist := congrArg String.toList h
  simp only [identityText, String.toList_append, List.append_assoc] at hlist
  have hrest : (name.toList ++ ':' :: (toString line).toList) ++ ':' :: (toString column).toList =
      (name'.toList ++ ':' :: (toString line').toList) ++ ':' :: (toString column').toList := by
    simpa using hlist
  obtain ⟨hfront, hcolumn⟩ :=
    append_colon_inj (colon_not_mem_toString _) (colon_not_mem_toString _) hrest
  obtain ⟨hname, hline⟩ :=
    append_colon_inj (colon_not_mem_toString _) (colon_not_mem_toString _) hfront
  exact ⟨String.toList_inj.1 hname, Nat.repr_inj.1 (String.toList_inj.1 hline),
    Nat.repr_inj.1 (String.toList_inj.1 hcolumn)⟩

/-! ### The sections of a script -/

/-- The key of a section in the schema object; the dependencies have none. -/
def Schema.Content.key? : Content → Option String
  | .dependencies _ => none
  | .mixins _ => some "mixins"
  | .messages _ => some "messages"
  | .attributes _ => some "attributes"
  | .details _ => some "details"
  | .methods _ => some "methods"
  | .businessRules _ => some "businessRules"
  | .layout _ => some "diff"

/-- No two inserted elements have the same name. -/
def Schema.Content.InsertsDistinct : Content → Prop
  | .layout groups => ∀ g ∈ groups, g.operation = .insert → (g.entries.map LayoutEntry.name).Nodup
  | _ => True

instance (c : Content) : Decidable c.InsertsDistinct :=
  match c with
  | .layout groups => inferInstanceAs (Decidable (∀ g ∈ groups, g.operation = .insert →
      (g.entries.map LayoutEntry.name).Nodup))
  | .dependencies _ | .mixins _ | .messages _ | .attributes _ | .details _ | .methods _
  | .businessRules _ => inferInstanceAs (Decidable True)

theorem Schema.Content.title_eq_of_key?_eq {c d : Content} (h : c.key? = d.key?) :
    c.title = d.title := by
  cases c <;> cases d <;> first | rfl | simp [key?] at h

namespace Schema.Section

variable {lookup : CaptionLookup} {t : Tree}

/-- Sections that are found are in the order of their titles. -/
theorem map_title_sublist {found : List (Option Section)} {titles : List String}
    (h : List.Forall₂ (fun section? title => ∀ s, section? = some s → s.content.title = title) found
      titles) : ((found.filterMap id).map fun s => s.content.title).Sublist titles := by
  induction h with
  | nil => exact .slnil
  | @cons section? title found titles htitle _ ih =>
      cases section? with
      | none => exact ih.cons _
      | some s =>
          rw [List.filterMap_cons_some (f := id) (b := s) rfl, List.map_cons, htitle s rfl]
          exact ih.cons_cons _

/-- No two sections of a script have the same title. -/
theorem titles_nodup (lookup : CaptionLookup) (t : Tree) :
    ((ofTree lookup t).map fun s => s.content.title).Nodup := by
  have hmember : ∀ {key : String} {content : Node → Content} {title : String},
      (∀ n, (content n).title = title) →
      ∀ s, ofMember? t key content = some s → s.content.title = title := by
    intro key content title htitle s hs
    obtain ⟨l, -, rfl⟩ := Option.map_eq_some_iff.1 hs
    exact htitle _
  suffices hsublist : ((ofTree lookup t).map fun s => s.content.title).Sublist ["Dependencies",
      "Mixins", "Messages", "Attributes", "Details", "Methods", "Business rules", "Diff"] from
    hsublist.nodup (by decide)
  refine map_title_sublist ?_
  refine .cons ?_ (.cons (hmember fun _ => rfl) (.cons (hmember fun _ => rfl)
    (.cons (hmember fun _ => rfl) (.cons (hmember fun _ => rfl) (.cons (hmember fun _ => rfl)
      (.cons (hmember fun _ => rfl) (.cons ?_ .nil)))))))
  · intro s hs
    obtain ⟨call, -, rfl⟩ := Option.map_eq_some_iff.1 hs
    rfl
  · intro s hs
    obtain ⟨l, -, rfl⟩ := Option.map_eq_some_iff.1 hs
    rfl

theorem index_eq_of_title_eq {i j : Nat} {s s' : Section} (hs : (ofTree lookup t)[i]? = some s)
    (hs' : (ofTree lookup t)[j]? = some s') (h : s.content.title = s'.content.title) : i = j := by
  have hlt : i < ((ofTree lookup t).map fun s => s.content.title).length := by
    rw [List.length_map]
    exact (List.getElem?_eq_some_iff.1 hs).1
  refine (List.getElem?_inj hlt (titles_nodup lookup t)).1 ?_
  rw [List.getElem?_map, List.getElem?_map, hs, hs', Option.map_some, Option.map_some, h]

end Schema.Section

/-! ### Sections of the schema object -/

section Members

variable {source : String} {t : Tree} (hparse : Tree.parse? source = some t)

include hparse

/-- A section that is an object literal, and where it is written. -/
theorem exists_member_of_ofMember? {key : String} {content : Node → Content} {s : Section}
    (hs : Section.ofMember? t key content = some s) :
    ∃ q ∈ t.walk, isTopLevelMember key q = true ∧ ∃ o ∈ t.walk, ValueAt q o ∧
      s = ⟨content o.node, q.node.location⟩ := by
  obtain ⟨l, hl, rfl⟩ := Option.map_eq_some_iff.1 hs
  obtain ⟨hlocated, -⟩ := Option.filter_eq_some_iff.1 hl
  obtain ⟨q, hq, hmember, hpair, o, ho, hvalue, hnode⟩ := exists_member_of_located? hparse hlocated
  refine ⟨q, hq, hmember, o, ho, hvalue, ?_⟩
  rw [hnode, hpair]
  rfl

variable (ht : t.WellRanged)

include ht

/-- A section whose value lists what the section shows, and whose nodes do not open. -/
theorem resolves_of_listing {key : String} {content : Node → Content} {s : Section}
    (hs : Section.ofMember? t key content = some s) (hkey : ∀ n, (content n).key? = some key)
    (hrow : ∀ q o, ValueAt q o → o ∈ t.walk → Row q (OutlineNode.ofContent (content o.node)))
    (hleaf : ∀ n, ∀ child ∈ OutlineNode.ofContent (content n), child.children = []) :
    ∃ key q, s.content.key? = some key ∧ q ∈ t.walk ∧ isTopLevelMember key q = true ∧
      Resolves t q (.root s) := by
  obtain ⟨q, hq, hmember, o, ho, hvalue, rfl⟩ := exists_member_of_ofMember? hparse hs
  exact ⟨key, q, hkey _, hq, hmember,
    resolves_of_row hparse ht (.top hq hmember) rfl (hrow q o hvalue ho) (hleaf _)⟩

/-- **In every section of the schema object nodes are told apart by where they start.** -/
theorem resolves_of_mem_ofTree {lookup : CaptionLookup} {s : Section}
    (hs : s ∈ Section.ofTree lookup t) (hnames : s.content.InsertsDistinct) :
    Section.dependencies? t = some s ∨ ∃ key q, s.content.key? = some key ∧ q ∈ t.walk ∧
      isTopLevelMember key q = true ∧ Resolves t q (.root s) := by
  have hitem : ∀ items : List Item, ∀ child ∈ items.map OutlineNode.item, child.children = [] := by
    intro items child hchild
    obtain ⟨i, -, rfl⟩ := List.mem_map.1 hchild
    rfl
  have hdetail : ∀ details : List Detail, ∀ child ∈ details.map OutlineNode.detail,
      child.children = [] := by
    intro details child hchild
    obtain ⟨d, -, rfl⟩ := List.mem_map.1 hchild
    rfl
  obtain ⟨section?, hmem, hs⟩ := List.mem_filterMap.1 hs
  obtain rfl : section? = some s := hs
  simp only [List.mem_cons, List.not_mem_nil, or_false] at hmem
  rcases hmem with hs | hs | hs | hs | hs | hs | hs | hs
  · exact .inl hs.symm
  · exact .inr (resolves_of_listing hparse ht hs.symm (fun _ => rfl)
      (fun q o h ho => h.row_of_items ht ho _) fun _ => hitem _)
  · obtain ⟨q, hq, hmember, o, ho, hvalue, rfl⟩ := exists_member_of_ofMember? hparse hs.symm
    exact .inr ⟨_, q, rfl, hq, hmember,
      resolves_messages hparse ht (.top hq hmember) rfl (hvalue.row_of_messages ht ho)⟩
  · exact .inr (resolves_of_listing hparse ht hs.symm (fun _ => rfl)
      (fun q o h ho => h.row_of_items ht ho _) fun _ => hitem _)
  · exact .inr (resolves_of_listing hparse ht hs.symm (fun _ => rfl)
      (fun q o h ho => h.row_of_details ht ho lookup) fun _ => hdetail _)
  · exact .inr (resolves_of_listing hparse ht hs.symm (fun _ => rfl)
      (fun q o h ho => h.row_of_items ht ho _) fun _ => hitem _)
  · obtain ⟨q, hq, hmember, o, ho, hvalue, rfl⟩ := exists_member_of_ofMember? hparse hs.symm
    exact .inr ⟨_, q, rfl, hq, hmember,
      resolves_rules hparse ht (.top hq hmember) rfl (hvalue.row_of_ruleGroups ht ho)
        fun g hg => hvalue.exists_row_of_mem_ruleGroups hparse ht hq hg⟩
  · obtain ⟨l, hl, rfl⟩ := Option.map_eq_some_iff.1 hs.symm
    obtain ⟨hlocated, harray⟩ := Option.filter_eq_some_iff.1 hl
    obtain ⟨q, hq, hmember, hpair, o, ho, hvalue, hnode⟩ :=
      exists_member_of_located? hparse hlocated
    rw [← hnode] at hnames harray ⊢
    refine .inr ⟨_, q, rfl, hq, hmember, ?_⟩
    refine resolves_layout hparse ht (.top hq hmember) ?_ ?_ hnames
    · rw [hpair]
      rfl
    · exact hvalue.row_of_entries hparse ht ho (by simpa using harray) lookup

end Members

/-! ### Nodes without a place -/

/-- The names of the groups that only sort what a section lists. -/
def Schema.Content.groupNames : Content → List String
  | .messages groups => groups.map fun g => g.direction.name
  | .layout groups => groups.map fun g => g.operation.name
  | _ => []

/-- What has no place is a group that only sorts, directly below its section, or a dependency. -/
theorem groupName_of_location_eq_none {s : Section} {a : List Nat} {n : OutlineNode}
    (hn : (OutlineNode.root s).nodeAt? a = some n) (hlocation : n.location = none) :
    (∃ k, a = [k] ∧ s.content.groupNames[k]? = some n.name) ∨
      ∃ items, s.content = .dependencies items ∧ n ∈ (OutlineNode.root s).children := by
  obtain ⟨content, location⟩ := s
  cases a with
  | nil =>
      cases hn
      simp [OutlineNode.location] at hlocation
  | cons k rest =>
      obtain ⟨child, hk, hrest⟩ := OutlineNode.nodeAt?_cons_eq_some.1 hn
      cases content with
      | dependencies items =>
          obtain ⟨d, -, rfl⟩ := List.mem_map.1 (List.mem_of_getElem? hk)
          obtain ⟨rfl, rfl⟩ := OutlineNode.nodeAt?_of_children_eq_nil rfl hrest
          exact .inr ⟨items, rfl, List.mem_of_getElem? hk⟩
      | mixins items | attributes items | methods items | details items =>
          obtain ⟨x, -, rfl⟩ := List.mem_map.1 (List.mem_of_getElem? hk)
          obtain ⟨rfl, rfl⟩ := OutlineNode.nodeAt?_of_children_eq_nil rfl hrest
          simp [OutlineNode.location] at hlocation
      | businessRules groups =>
          obtain ⟨g, -, ⟨-, rfl⟩ | ⟨i, r, -, rfl, -⟩⟩ := OutlineNode.rule_of_nodeAt? hn
          · simp [OutlineNode.location] at hlocation
          · simp [OutlineNode.location] at hlocation
      | messages groups =>
          simp only [OutlineNode.children, OutlineNode.ofContent, List.getElem?_map,
            Option.map_eq_some_iff] at hk
          obtain ⟨g, hg, rfl⟩ := hk
          cases rest with
          | nil =>
              cases hrest
              exact .inl ⟨k, rfl, by rw [Content.groupNames, List.getElem?_map, hg]; rfl⟩
          | cons i rest =>
              obtain ⟨child, hi, hrest⟩ := OutlineNode.nodeAt?_cons_eq_some.1 hrest
              obtain ⟨m, -, rfl⟩ := List.mem_map.1 (List.mem_of_getElem? hi)
              obtain ⟨rfl, rfl⟩ := OutlineNode.nodeAt?_of_children_eq_nil rfl hrest
              simp [OutlineNode.location] at hlocation
      | layout groups =>
          simp only [OutlineNode.children, OutlineNode.ofContent, List.getElem?_map,
            Option.map_eq_some_iff] at hk
          obtain ⟨g, hg, rfl⟩ := hk
          cases rest with
          | nil =>
              cases hrest
              exact .inl ⟨k, rfl, by rw [Content.groupNames, List.getElem?_map, hg]; rfl⟩
          | cons i rest =>
              obtain ⟨e, -, helocation, -⟩ := OutlineNode.entry_of_nodeAt? hrest
              simp [helocation] at hlocation

/-- The name of a group says which section it is in. -/
theorem Schema.Content.title_eq_of_mem_groupNames {c d : Content} {x : String}
    (hc : x ∈ c.groupNames) (hd : x ∈ d.groupNames) : c.title = d.title := by
  have hdistinct : ∀ (direction : Direction) (operation : Operation),
      direction.name ≠ operation.name := by
    intro direction operation
    cases direction <;> cases operation <;> decide
  cases c with
  | messages groups =>
      obtain ⟨g, -, rfl⟩ := List.mem_map.1 hc
      cases d with
      | messages groups' => rfl
      | layout groups' =>
          obtain ⟨g', -, hname⟩ := List.mem_map.1 hd
          exact absurd hname.symm (hdistinct _ _)
      | _ => cases hd
  | layout groups =>
      obtain ⟨g, -, rfl⟩ := List.mem_map.1 hc
      cases d with
      | messages groups' =>
          obtain ⟨g', -, hname⟩ := List.mem_map.1 hd
          exact absurd hname (hdistinct _ _)
      | layout groups' => rfl
      | _ => cases hd
  | _ => cases hc

/-- No two groups of a section have the same name. -/
theorem Schema.Section.groupNames_nodup {lookup : CaptionLookup} {t : Tree} {s : Section}
    (hs : s ∈ Section.ofTree lookup t) : s.content.groupNames.Nodup := by
  have hmember : ∀ {key : String} {content : Node → Content},
      some s = Section.ofMember? t key content → (∀ n, (content n).groupNames.Nodup) →
      s.content.groupNames.Nodup := by
    intro key content hs hcontent
    obtain ⟨l, -, rfl⟩ := Option.map_eq_some_iff.1 hs.symm
    exact hcontent _
  obtain ⟨section?, hmem, hs⟩ := List.mem_filterMap.1 hs
  obtain rfl : section? = some s := hs
  simp only [List.mem_cons, List.not_mem_nil, or_false] at hmem
  rcases hmem with hs | hs | hs | hs | hs | hs | hs | hs
  · obtain ⟨call, -, rfl⟩ := Option.map_eq_some_iff.1 hs.symm
    exact .nil
  · exact hmember hs fun _ => .nil
  · refine hmember hs fun n => ?_
    have hnames : (Content.messages (groupMessages (messagesOf n))).groupNames =
        Direction.all.map Direction.name := by
      rw [Content.groupNames, groupMessages, List.map_map]
      rfl
    rw [hnames]
    decide
  · exact hmember hs fun _ => .nil
  · exact hmember hs fun _ => .nil
  · exact hmember hs fun _ => .nil
  · exact hmember hs fun _ => .nil
  · obtain ⟨l, -, rfl⟩ := Option.map_eq_some_iff.1 hs.symm
    have hnames : ∀ entries, (Content.layout (groupEntries entries)).groupNames =
        ((groupEntries entries).map LayoutGroup.operation).map Operation.name := by
      intro entries
      rw [Content.groupNames, List.map_map]
      rfl
    rw [hnames]
    have hinjective : Function.Injective Operation.name := by
      intro o o' h
      cases o <;> cases o' <;> first | rfl | exact absurd h (by decide)
    exact (operation_nodup _).map hinjective

/-! ### Dependencies beside members -/

section Identities

variable {source : String} {t : Tree} (hparse : Tree.parse? source = some t) (ht : t.WellRanged)

include hparse ht

/-- The first factory call starts before every site. -/
theorem startByte_lt_of_lineage {call c : Cursor} {above : List Cursor} (hcall : t.Inner call)
    (hfirst : ∀ d ∈ t.walk, isFactoryCall d.node = true → call.address ≤ d.address)
    (h : Lineage t (c :: above)) : call.startByte < c.startByte := by
  generalize hlist : c :: above = list at h
  induction h generalizing c above with
  | top hc h =>
      cases hlist
      obtain ⟨-, -, other, hother, o, ho, hreturns, k, hk⟩ :=
        exists_returns_of_isTopLevelMember (followsGrammar_of_parse? hparse) hc h
      have hfactory := hreturns.isFactoryCall
      have hkind : other.node.kind = .call := by
        simp only [isFactoryCall, Bool.and_eq_true, beq_iff_eq] at hfactory
        exact hfactory.1
      have hle := ht.startByte_le hcall (inner_of_kind_ne hparse hother (by simp [hkind]))
        (hfirst other hother hfactory)
      have hlt := hreturns.startByte_lt hparse ht hother
      have hmember := (ht.le_of_nth? (hreturns.anchored hparse hother).inner hk).1
      omega
  | listed hq h ih =>
      cases hlist
      have hlt := ih rfl
      obtain ⟨k, a, ha⟩ := h.exists_at?
      have hle := (ht.le_of_at? (hq.anchored hparse).inner ha).1
      omega

/-- What the section of dependencies shows stands where no site starts. -/
theorem exists_place_of_dependencies {s : Section} (hs : Section.dependencies? t = some s)
    {a : List Nat} {n : OutlineNode} (hn : (OutlineNode.root s).nodeAt? a = some n) :
    ∃ e ∈ t.walk, n.location = some e.node.location ∧
      ∀ c above, Lineage t (c :: above) → c.startByte ≠ e.startByte := by
  obtain ⟨call, h⟩ := exists_dependenciesAt hparse ht hs
  cases a with
  | nil =>
      cases hn
      refine ⟨call, h.inner.mem_walk, by rw [OutlineNode.location, h.location], ?_⟩
      intro c above hc
      exact (startByte_lt_of_lineage hparse ht h.inner h.first hc).ne'
  | cons k rest =>
      obtain ⟨e, he, hlocation⟩ := h.exists_word hn
      refine ⟨e, he.anchored.inner.mem_walk, hlocation, ?_⟩
      intro c above hc hstart
      have hsite := hc.site (followsGrammar_of_parse? hparse)
      obtain rfl := (hc.anchored hparse).eq_of_startByte_eq ht he.anchored hsite (.inr he.isWord)
        hstart
      exact hsite.not_isWord he.isWord

/-! ### All nodes of an outline -/

variable {lookup : CaptionLookup}
  (hnames : ∀ s ∈ Section.ofTree lookup t, s.content.InsertsDistinct)

include hnames

/-- What an outline shows has a place in the script, or it is a group that only sorts. -/
theorem place_or_groupName {s : Section} (hs : s ∈ Section.ofTree lookup t) {a : List Nat}
    {n : OutlineNode} (hn : (OutlineNode.root s).nodeAt? a = some n) :
    (∃ c ∈ t.walk, n.location = some c.node.location) ∨
      n.location = none ∧ ∃ k, a = [k] ∧ s.content.groupNames[k]? = some n.name := by
  rcases resolves_of_mem_ofTree hparse ht hs (hnames s hs) with hs | ⟨key, q, hkey, -, -, hresolves⟩
  · obtain ⟨e, he, hlocation, -⟩ := exists_place_of_dependencies hparse ht hs hn
    exact .inl ⟨e, he, hlocation⟩
  · cases hlocation : n.location with
    | some l =>
        obtain ⟨c, above, hlineage, -, rfl⟩ := hresolves.traced a n l hn hlocation
        exact .inl ⟨c, (hlineage.anchored hparse).inner.mem_walk, rfl⟩
    | none =>
        rcases groupName_of_location_eq_none hn hlocation with hgroup | ⟨items, hcontent, -⟩
        · exact .inr ⟨rfl, hgroup⟩
        · simp [hcontent, Content.key?] at hkey

/-- Nodes with a place that start at the same byte are the same. -/
theorem address_eq_of_startByte_eq {i j : Nat} {s s' : Section} {a b : List Nat} {m n : OutlineNode}
    (hs : (Section.ofTree lookup t)[i]? = some s) (hm : (OutlineNode.root s).nodeAt? a = some m)
    (hs' : (Section.ofTree lookup t)[j]? = some s') (hn : (OutlineNode.root s').nodeAt? b = some n)
    {l l' : Location} (hl : m.location = some l) (hl' : n.location = some l')
    (hstart : l.startByte = l'.startByte) : i = j ∧ a = b := by
  have hmem := List.mem_of_getElem? hs
  have hmem' := List.mem_of_getElem? hs'
  have hnodes : m.startByte = n.startByte := by
    rw [OutlineNode.startByte_of_location hl, OutlineNode.startByte_of_location hl', hstart]
  rcases resolves_of_mem_ofTree hparse ht hmem (hnames s hmem) with
    hdependencies | ⟨key, q, hkey, hq, hmember, hresolves⟩
  · rcases resolves_of_mem_ofTree hparse ht hmem' (hnames s' hmem') with
      hdependencies' | ⟨key', q', -, -, -, hresolves'⟩
    · obtain rfl := Option.some.inj (hdependencies.symm.trans hdependencies')
      obtain ⟨call, h⟩ := exists_dependenciesAt hparse ht hdependencies
      exact ⟨Section.index_eq_of_title_eq hs hs' rfl, h.told hm hn hnodes⟩
    · obtain ⟨e, -, helocation, hapart⟩ := exists_place_of_dependencies hparse ht hdependencies hm
      obtain ⟨c, above, hlineage, -, rfl⟩ := hresolves'.traced b n l' hn hl'
      obtain rfl := Option.some.inj (hl.symm.trans helocation)
      exact absurd hstart.symm (hapart c above hlineage)
  · obtain ⟨c, above, hlineage, hlast, rfl⟩ := hresolves.traced a m l hm hl
    rcases resolves_of_mem_ofTree hparse ht hmem' (hnames s' hmem') with
      hdependencies' | ⟨key', q', hkey', hq', hmember', hresolves'⟩
    · obtain ⟨e, -, helocation, hapart⟩ := exists_place_of_dependencies hparse ht hdependencies' hn
      obtain rfl := Option.some.inj (hl'.symm.trans helocation)
      exact absurd hstart (hapart c above hlineage)
    · obtain ⟨d, above', hlineage', hlast', rfl⟩ := hresolves'.traced b n l' hn hl'
      -- the same lineage ends at the same member, which has one key
      rw [hlineage.eq_of_startByte_eq hparse ht hlineage' hstart, hlast'] at hlast
      obtain rfl := Option.some.inj hlast
      simp only [isTopLevelMember, Bool.and_eq_true, beq_iff_eq] at hmember hmember'
      have hsame : key = key' := Option.some.inj (hmember.1.2.symm.trans hmember'.1.2)
      obtain rfl := Section.index_eq_of_title_eq hs hs'
        (Content.title_eq_of_key?_eq (by rw [hkey, hkey', hsame]))
      obtain rfl := Option.some.inj (hs.symm.trans hs')
      exact ⟨rfl, hresolves.told a b m n hm hn (by simp [hl]) (by simp [hl']) hnodes⟩

/-- Nodes with the same identifying text start at the same byte, or they are groups of the same
name. -/
theorem startByte_eq_of_identity_eq {s s' : Section} {a b : List Nat} {m n : OutlineNode}
    (hs : s ∈ Section.ofTree lookup t) (hm : (OutlineNode.root s).nodeAt? a = some m)
    (hs' : s' ∈ Section.ofTree lookup t) (hn : (OutlineNode.root s').nodeAt? b = some n)
    {file : String} (h : m.identity file = n.identity file) :
    (∃ l l', m.location = some l ∧ n.location = some l' ∧ l.startByte = l'.startByte) ∨
      ∃ k k', a = [k] ∧ b = [k'] ∧ s.content.groupNames[k]? = some m.name ∧
        s'.content.groupNames[k']? = some m.name := by
  obtain ⟨hname, hline, hcolumn⟩ := identityText_inj h
  have hplaced : ∀ c ∈ t.walk, c.node.location.Placed source.toList :=
    fun c hc => (conforms_node hparse hc).placed
  rcases place_or_groupName hparse ht hnames hs hm with ⟨c, hc, hl⟩ | ⟨hl, k, rfl, hk⟩
  · rcases place_or_groupName hparse ht hnames hs' hn with ⟨d, hd, hl'⟩ | ⟨hl', -⟩
    · simp only [hl, hl', Option.map_some, Option.getD_some] at hline hcolumn
      have hstart : c.node.location.start = d.node.location.start := by
        rw [Position.mk.injEq]
        exact ⟨hline, hcolumn⟩
      exact .inl ⟨_, _, hl, hl', (hplaced c hc).startByte_eq (hplaced d hd) hstart⟩
    · -- lines are counted from one, and a group counts as being at line zero
      have hpos := (hplaced c hc).line_pos
      simp only [hl, hl', Option.map_some, Option.getD_some, Option.map_none,
        Option.getD_none] at hline
      omega
  · rcases place_or_groupName hparse ht hnames hs' hn with ⟨d, hd, hl'⟩ | ⟨hl', k', rfl, hk'⟩
    · have hpos := (hplaced d hd).line_pos
      simp only [hl, hl', Option.map_some, Option.getD_some, Option.map_none,
        Option.getD_none] at hline
      omega
    · exact .inr ⟨k, k', rfl, rfl, hk, by rw [hk', hname]⟩

end Identities

/-- The node at an address of the outline of a script; the first number is that of a section. -/
def shownAt? (lookup : CaptionLookup) (t : Tree) : List Nat → Option OutlineNode
  | [] => none
  | i :: address => (Section.ofTree lookup t)[i]?.bind fun s => (OutlineNode.root s).nodeAt? address

theorem shownAt?_eq_some_iff {lookup : CaptionLookup} {t : Tree} {address : List Nat}
    {n : OutlineNode} : shownAt? lookup t address = some n ↔
      ∃ i a s, address = i :: a ∧ (Section.ofTree lookup t)[i]? = some s ∧
        (OutlineNode.root s).nodeAt? a = some n := by
  cases address with
  | nil => simp [shownAt?]
  | cons i a => simp [shownAt?, Option.bind_eq_some_iff]

/-- **No two nodes of an outline have the same identifying text.**  Let the ranges of a script be
well formed, and let no two inserted elements have the same name.  Then nodes at different addresses
of the outline of the script, opened all the way, are identified by different texts, in whatever
file. -/
theorem identities_distinct {source : String} {t : Tree} (hparse : Tree.parse? source = some t)
    (ht : t.WellRanged) {lookup : CaptionLookup}
    (hnames : ∀ s ∈ Section.ofTree lookup t, s.content.InsertsDistinct) (file : String)
    {address other : List Nat} {m n : OutlineNode} (hm : shownAt? lookup t address = some m)
    (hn : shownAt? lookup t other = some n) (hne : address ≠ other) :
    m.identity file ≠ n.identity file := by
  intro hidentity
  obtain ⟨i, a, s, rfl, hs, hm⟩ := shownAt?_eq_some_iff.1 hm
  obtain ⟨j, b, s', rfl, hs', hn⟩ := shownAt?_eq_some_iff.1 hn
  have hmem := List.mem_of_getElem? hs
  have hmem' := List.mem_of_getElem? hs'
  rcases startByte_eq_of_identity_eq hparse ht hnames hmem hm hmem' hn hidentity with
    ⟨l, l', hl, hl', hstart⟩ | ⟨k, k', rfl, rfl, hk, hk'⟩
  · obtain ⟨rfl, rfl⟩ := address_eq_of_startByte_eq hparse ht hnames hs hm hs' hn hl hl' hstart
    exact hne rfl
  · -- groups are told apart by their names
    obtain rfl := Section.index_eq_of_title_eq hs hs' (Content.title_eq_of_mem_groupNames
      (List.mem_of_getElem? hk) (List.mem_of_getElem? hk'))
    obtain rfl := Option.some.inj (hs.symm.trans hs')
    obtain rfl := (List.getElem?_inj (List.getElem?_eq_some_iff.1 hk).1
      (Section.groupNames_nodup hmem)).1 (hk.trans hk'.symm)
    exact hne rfl

/-- A page whose mixin, message and inserted element have the same name. -/
def namesakes : String :=
  "define('P', ['a'], () => \x7b return \x7b mixins: \x7b a: 1 \x7d, " ++
    "messages: \x7b a: \x7b direction: 'publish' \x7d \x7d, " ++
    "diff: [\x7b operation: 'insert', name: 'a' \x7d] \x7d \x7d)"

/-- The mixin, the message and the inserted element of this page are identified by different
texts, although they have the same name. -/
theorem identities_distinct_namesakes :
    ∃ t, Tree.parse? namesakes = some t ∧ t.WellRanged ∧
      (∀ s ∈ Section.ofTree .none t, s.content.InsertsDistinct) ∧
      ∃ x m e, shownAt? .none t [1, 0] = some x ∧ shownAt? .none t [2, 1, 0] = some m ∧
        shownAt? .none t [3, 0, 0] = some e ∧ x.name = m.name ∧ m.name = e.name ∧
        x.identity "P.js" ≠ m.identity "P.js" ∧ m.identity "P.js" ≠ e.identity "P.js" := by
  have hpage : (Tree.parse? namesakes).any (fun t => decide t.WellRanged &&
      decide (∀ s ∈ Section.ofTree .none t, s.content.InsertsDistinct) &&
      (shownAt? .none t [1, 0]).any fun x => (shownAt? .none t [2, 1, 0]).any fun m =>
        (shownAt? .none t [3, 0, 0]).any fun e => x.name == m.name && m.name == e.name) = true := by
    decide +kernel
  obtain ⟨t, hparse, h⟩ := (Option.any_eq_true _ _).1 hpage
  simp only [Bool.and_eq_true, decide_eq_true_eq, Option.any_eq_true, beq_iff_eq] at h
  obtain ⟨⟨ht, hnames⟩, x, hx, m, hm, e, he, hxm, hme⟩ := h
  exact ⟨t, hparse, ht, hnames, x, m, e, hx, hm, he, hxm, hme,
    identities_distinct hparse ht hnames "P.js" hx hm (by decide),
    identities_distinct hparse ht hnames "P.js" hm he (by decide)⟩

end SchemaScope
