/-
**Where the dependencies of a module are written.**

The outline shows the dependencies of the first factory call: the strings of the array that is its
second argument and the parameters of its callback, side by side.  A dependency stands where its
string stands, or else where its parameter stands.  All of these are words in the arguments of the
call, the strings before the parameters; so they start behind the call, in the order in which they
are shown, and no site stands between the call and them.

Main definitions:

* `WordBehind` — a word behind a call, with no site in between;
* `DependenciesAt` — the section of dependencies stands at a call, and shows words behind it.

Main results:

* `padded_locations` — where dependencies stand that are shown side by side with parameters;
* `ArgumentsAt.names_pairwise` — strings and parameters are in source order;
* `exists_dependenciesAt` — **where dependencies stand**;
* `DependenciesAt.told` — dependencies are told apart by where they start.
-/

import SchemaScope.Proofs.Outline.Rows

set_option autoImplicit false

namespace SchemaScope

open Script Schema

variable {t : Tree} {source : String} {call : Cursor}

/-- The cursor stands on a string or a name that starts behind the call, and on the way up from it a
parent that starts earlier comes before any site. -/
structure WordBehind (t : Tree) (call e : Cursor) : Prop where
  isWord : IsWord e
  anchored : t.Anchored Site e
  startByte_lt : call.startByte < e.startByte

/-! ### Side by side -/

/-- What is shown of two lists side by side stands where the first of them has it, and where the
first has ended, where the second has it. -/
theorem padded_locations (dependencies parameters : List Named) :
    (padded dependencies parameters).map (fun b => (Dependency.ofBinding b).location) =
      (dependencies ++ parameters.drop dependencies.length).map fun n => some n.location := by
  fun_induction padded dependencies parameters with
  | case1 => rfl
  | case2 a rest ih =>
      rw [List.map_cons, ih]
      simp [Dependency.ofBinding]
  | case3 b rest ih =>
      rw [List.map_cons, ih]
      simp [Dependency.ofBinding]
  | case4 a rest b rest' ih =>
      rw [List.map_cons, ih]
      simp [Dependency.ofBinding]

/-- What is shown of the dependencies stands at the strings, and then at the parameters that are
left. -/
theorem exists_names (dependencies parameters : List Named) :
    ∃ names : List Named, names.Sublist (dependencies ++ parameters) ∧
      (((padded dependencies parameters).map Dependency.ofBinding).map OutlineNode.dependency).map
        OutlineNode.location = names.map fun n => some n.location := by
  refine ⟨_, (List.drop_sublist dependencies.length parameters).append_left dependencies, ?_⟩
  rw [List.map_map, List.map_map]
  exact padded_locations dependencies parameters

/-! ### The arguments of a factory call -/

/-- The second and the third argument of a factory call, from the call down. -/
structure ArgumentsAt (t : Tree) (call arguments second third : Cursor) : Prop where
  atArguments : ∃ i, 0 < i ∧ call.nth? i = some arguments
  atSecond : ∃ j, arguments.nth? j = some second
  atThird : ∃ k, arguments.nth? k = some third
  behind : second.stopByte ≤ third.startByte
  isFunction : third.node.isFunctionLiteral = true
  inner : t.Inner call
  isCall : call.node.kind = .call

section Parsed

variable (hparse : Tree.parse? source = some t) (ht : t.WellRanged)

include hparse ht

theorem exists_argumentsAt (hcall : call ∈ t.walk) (hkind : call.node.kind = .call)
    {name dependencies callback : Node}
    (h : factoryArguments? call.node = some (name, dependencies, callback)) :
    ∃ arguments second third, ArgumentsAt t call arguments second third ∧
      second.node = dependencies ∧ third.node = callback := by
  obtain ⟨callee, node, -, harguments, -, -, hsignificant, hfunction⟩ :=
    factoryArguments?_eq_some_iff.1 h
  obtain ⟨i, hchild, hrole, -⟩ := Node.child?_eq_some_iff.1 harguments
  obtain ⟨arguments, hi, rfl⟩ := Cursor.exists_nth? hchild
  obtain ⟨hinner, hpos⟩ := arguments_behind_callee hparse hcall hkind hi hrole
  have hmem : ∀ e ∈ [name, dependencies, callback],
      ∃ j c, arguments.nth? j = some c ∧ c.node = e := by
    intro e he
    rw [← hsignificant, Node.mem_significant_iff] at he
    obtain ⟨j, hj⟩ := List.mem_iff_getElem?.1 he.1
    obtain ⟨c, hc, rfl⟩ := Cursor.exists_nth? hj
    exact ⟨j, c, hc, rfl⟩
  obtain ⟨j, second, hj, rfl⟩ := hmem dependencies (by simp)
  obtain ⟨k, third, hk, rfl⟩ := hmem callback (by simp)
  have hordered : arguments.node.significant.Pairwise fun a b =>
      a.location.stopByte ≤ b.location.startByte :=
    (ht.siblings_node (Tree.mem_walk_of_nth? hcall hi)).behind.sublist List.filter_sublist
  rw [hsignificant] at hordered
  simp only [List.pairwise_cons, List.mem_cons, List.not_mem_nil, or_false] at hordered
  exact ⟨arguments, second, third, ⟨⟨i, hpos, hi⟩, ⟨j, hj⟩, ⟨k, hk⟩, hordered.2.1 _ rfl, hfunction,
    hinner, hkind⟩, rfl, rfl⟩

end Parsed

namespace ArgumentsAt

variable {arguments second third : Cursor} (h : ArgumentsAt t call arguments second third)

include h

theorem anchored : t.Anchored Site arguments ∧ ¬ Site arguments := by
  obtain ⟨i, hpos, hi⟩ := h.atArguments
  refine ⟨.behind h.inner hi hpos, ?_⟩
  exact not_site_of_outsideParentheses (outsideParentheses_of_nth? hi (by simp [h.isCall]))
    (by simp [h.isCall])

theorem anchored_second : t.Anchored Site second := by
  obtain ⟨j, hj⟩ := h.atSecond
  exact .within h.anchored.1 h.anchored.2 hj

theorem anchored_third : t.Anchored Site third := by
  obtain ⟨k, hk⟩ := h.atThird
  exact .within h.anchored.1 h.anchored.2 hk

/-- Whatever stands below the arguments starts behind the call. -/
theorem startByte_lt (ht : t.WellRanged) {a : List Nat} {e : Cursor}
    (he : arguments.at? a = some e) : call.startByte < e.startByte := by
  obtain ⟨i, hpos, hi⟩ := h.atArguments
  have hlt := ht.lt_of_nth? h.inner hi hpos
  have hle := (ht.le_of_at? (.nth? h.inner.mem_walk hi) he).1
  omega

/-- The strings of the second argument. -/
theorem wordBehind_of_mem_dependenciesOf (ht : t.WellRanged) {n : Named}
    (hn : n ∈ dependenciesOf second.node) :
    ∃ e, WordBehind t call e ∧ n.location = e.node.location ∧ e.stopByte ≤ second.stopByte := by
  unfold dependenciesOf at hn
  split at hn
  · next harray =>
    obtain ⟨node, hnode, hn⟩ := List.mem_filterMap.1 hn
    obtain ⟨name, hname, rfl⟩ := Option.map_eq_some_iff.1 hn
    obtain ⟨l, hl⟩ := List.mem_iff_getElem?.1 (Node.mem_significant_iff.1 hnode).1
    obtain ⟨e, he, rfl⟩ := Cursor.exists_nth? hl
    have hstring : e.node.kind = .string := by
      by_contra hkind
      simp [Node.stringValue?, hkind] at hname
    have hnot : ¬ Site second := fun hsite => not_landmark_of_kind (by simp [harray]) (.inl hsite)
    obtain ⟨j, hj⟩ := h.atSecond
    refine ⟨e, ⟨.inl hstring, .within h.anchored_second hnot he, ?_⟩, rfl, ?_⟩
    · exact h.startByte_lt ht (a := [j, l]) (by simp [Cursor.at?_cons, hj, he])
    · exact (ht.le_of_nth? h.anchored_second.inner he).2
  · simp at hn

/-- The parameters of the third argument. -/
theorem wordBehind_of_mem_parametersOf (ht : t.WellRanged) {n : Named}
    (hn : n ∈ parametersOf third.node) :
    ∃ e, WordBehind t call e ∧ n.location = e.node.location ∧ third.startByte ≤ e.startByte := by
  obtain ⟨k, hk⟩ := h.atThird
  have hfunction := kind_of_isFunctionLiteral h.isFunction
  have hnot : ¬ Site third :=
    fun hsite => not_landmark_of_isFunctionLiteral h.isFunction (.inl hsite)
  obtain ⟨node, hnode, rfl⟩ := List.mem_map.1 hn
  obtain ⟨hmem, hidentifier⟩ := List.mem_filter.1 hnode
  have hidentifier : node.kind = .identifier := by simpa using hidentifier
  -- a single parameter is a child of the callback, and others stand in its parameter list
  split at hmem
  · next single hsingle =>
    rw [List.mem_singleton] at hmem
    subst hmem
    obtain ⟨l, hl, -⟩ := Node.child?_eq_some_iff.1 hsingle
    obtain ⟨e, he, rfl⟩ := Cursor.exists_nth? hl
    refine ⟨e, ⟨.inr hidentifier, .within h.anchored_third hnot he, ?_⟩, rfl, ?_⟩
    · exact h.startByte_lt ht (a := [k, l]) (by simp [Cursor.at?_cons, hk, he])
    · exact (ht.le_of_nth? h.anchored_third.inner he).1
  · cases hlist : third.node.child? .parameters with
    | none => simp [hlist] at hmem
    | some list =>
        simp only [hlist, Option.map_some, Option.getD_some] at hmem
        obtain ⟨l, hl, -⟩ := Node.child?_eq_some_iff.1 hlist
        obtain ⟨parameters, hparameters, rfl⟩ := Cursor.exists_nth? hl
        obtain ⟨m, hm⟩ := List.mem_iff_getElem?.1 (Node.mem_significant_iff.1 hmem).1
        obtain ⟨e, he, rfl⟩ := Cursor.exists_nth? hm
        have hoff : third.node.kind ≠ .parenthesized ∧ third.node.kind ≠ .object ∧
            third.node.kind ≠ .array := by
          rcases hfunction with hfunction | hfunction <;> simp [hfunction]
        have hnot' : ¬ Site parameters :=
          not_site_of_outsideParentheses (outsideParentheses_of_nth? hparameters hoff.1) hoff.2
        have hanchored : t.Anchored Site parameters := .within h.anchored_third hnot hparameters
        refine ⟨e, ⟨.inr hidentifier, .within hanchored hnot' he, ?_⟩, rfl, ?_⟩
        · exact h.startByte_lt ht (a := [k, l, m]) (by simp [Cursor.at?_cons, hk, hparameters, he])
        · exact (ht.le_of_at? (a := [l, m]) h.anchored_third.inner
            (by simp [Cursor.at?_cons, hparameters, he])).1

/-- Strings and parameters are in source order, the strings before the parameters. -/
theorem names_pairwise (ht : t.WellRanged) :
    (dependenciesOf second.node ++ parametersOf third.node).Pairwise fun m n =>
      m.location.startByte < n.location.startByte := by
  have hsiblings : ∀ {c : Cursor}, c ∈ t.walk → c.node.significant.Pairwise fun a b =>
      a.location.startByte < b.location.startByte := by
    intro c hc
    have hordered := ht.siblings_node hc
    refine (hordered.behind.imp_of_mem ?_).sublist List.filter_sublist
    intro a b ha _ hle
    have hlt := hordered.nonempty a ha
    omega
  refine List.pairwise_append.2 ⟨?_, ?_, ?_⟩
  · unfold dependenciesOf
    split
    · refine List.pairwise_filterMap.2 ((hsiblings h.anchored_second.inner.mem_walk).imp ?_)
      intro a b hlt m hm n hn
      obtain ⟨_, -, rfl⟩ := Option.map_eq_some_iff.1 hm
      obtain ⟨_, -, rfl⟩ := Option.map_eq_some_iff.1 hn
      exact hlt
    · exact .nil
  · refine List.pairwise_map.2 (List.Pairwise.filter _ ?_)
    split
    · exact List.pairwise_singleton _ _
    · cases hlist : third.node.child? .parameters with
      | none => exact .nil
      | some list =>
          obtain ⟨l, hl, -⟩ := Node.child?_eq_some_iff.1 hlist
          obtain ⟨parameters, hparameters, rfl⟩ := Cursor.exists_nth? hl
          exact hsiblings (Tree.mem_walk_of_nth? h.anchored_third.inner.mem_walk hparameters)
  · intro m hm n hn
    obtain ⟨d, hd, hmlocation, hle⟩ := h.wordBehind_of_mem_dependenciesOf ht hm
    obtain ⟨e, he, hnlocation, hle'⟩ := h.wordBehind_of_mem_parametersOf ht hn
    have hlt := ht.start_lt_stop hd.anchored.inner
    have hbehind := h.behind
    rw [hmlocation, hnlocation]
    simp only [Cursor.startByte, Cursor.stopByte] at *
    omega

end ArgumentsAt

/-! ### The section of dependencies -/

/-- The section of dependencies stands at the first factory call, and what it shows stands at words
behind this call, in source order. -/
structure DependenciesAt (t : Tree) (s : Section) (call : Cursor) : Prop where
  inner : t.Inner call
  first : ∀ d ∈ t.walk, isFactoryCall d.node = true → call.address ≤ d.address
  location : s.location = call.node.location
  leaf : ∀ n ∈ (OutlineNode.root s).children, n.children = []
  word : ∀ n ∈ (OutlineNode.root s).children,
    ∃ e, WordBehind t call e ∧ n.location = some e.node.location
  ordered : (OutlineNode.root s).children.Pairwise fun m n => m.startByte < n.startByte

/-- **Where dependencies stand.** -/
theorem exists_dependenciesAt (hparse : Tree.parse? source = some t) (ht : t.WellRanged)
    {s : Section} (hs : Section.dependencies? t = some s) : ∃ call, DependenciesAt t s call := by
  simp only [Section.dependencies?, factoryCall?, Option.map_eq_some_iff, Option.bind_eq_bind,
    Option.bind_eq_some_iff, Option.pure_def, Option.some.injEq] at hs
  obtain ⟨_, ⟨call, hfirst, ⟨name, dependencies, callback⟩, harguments, rfl⟩, rfl⟩ := hs
  obtain ⟨hcall, hfactory, hfirst⟩ := Tree.findFirst?_eq_some_iff.1 hfirst
  have hkind : call.node.kind = .call := by
    simp only [isFactoryCall, Bool.and_eq_true, beq_iff_eq] at hfactory
    exact hfactory.1
  obtain ⟨arguments, second, third, h, rfl, rfl⟩ :=
    exists_argumentsAt hparse ht hcall hkind harguments
  -- what is shown stands at the strings, and then at the parameters that are left
  obtain ⟨names, hsublist, hlocations⟩ := exists_names (dependenciesOf second.node)
    (parametersOf third.node)
  refine ⟨call, h.inner, hfirst, rfl, ?_, ?_, ?_⟩
  all_goals simp only [OutlineNode.children, OutlineNode.ofContent, FactoryCall.bindings]
  · intro n hn
    obtain ⟨d, -, rfl⟩ := List.mem_map.1 hn
    rfl
  · intro n hn
    have hlocation := List.mem_map_of_mem (f := OutlineNode.location) hn
    rw [hlocations] at hlocation
    obtain ⟨m, hm, hmn⟩ := List.mem_map.1 hlocation
    rw [← hmn]
    rcases List.mem_append.1 (hsublist.subset hm) with hm | hm
    · obtain ⟨e, he, hmlocation, -⟩ := h.wordBehind_of_mem_dependenciesOf ht hm
      exact ⟨e, he, by rw [hmlocation]⟩
    · obtain ⟨e, he, hmlocation, -⟩ := h.wordBehind_of_mem_parametersOf ht hm
      exact ⟨e, he, by rw [hmlocation]⟩
  · have hstart : ∀ nodes : List OutlineNode, (nodes.map OutlineNode.location).Pairwise
        (fun l k => (l.map Location.startByte).getD 0 < (k.map Location.startByte).getD 0) →
        nodes.Pairwise fun m n => m.startByte < n.startByte := fun nodes => List.pairwise_map.1
    refine hstart _ ?_
    rw [hlocations, List.pairwise_map]
    exact (h.names_pairwise ht).sublist hsublist

namespace DependenciesAt

variable {s : Section} {k : Nat} {rest : List Nat} {n : OutlineNode}

theorem startByte_root (h : DependenciesAt t s call) :
    (OutlineNode.root s).startByte = call.startByte :=
  OutlineNode.startByte_of_location (n := .root s) (by rw [OutlineNode.location, h.location])

/-- What stands below the section. -/
theorem getElem?_of_nodeAt? (h : DependenciesAt t s call)
    (hn : (OutlineNode.root s).nodeAt? (k :: rest) = some n) :
    rest = [] ∧ (OutlineNode.root s).children[k]? = some n := by
  obtain ⟨child, hk, hrest⟩ := OutlineNode.nodeAt?_cons_eq_some.1 hn
  obtain ⟨rfl, rfl⟩ :=
    OutlineNode.nodeAt?_of_children_eq_nil (h.leaf child (List.mem_of_getElem? hk)) hrest
  exact ⟨rfl, hk⟩

theorem exists_word (h : DependenciesAt t s call)
    (hn : (OutlineNode.root s).nodeAt? (k :: rest) = some n) :
    ∃ e, WordBehind t call e ∧ n.location = some e.node.location :=
  h.word n (List.mem_of_getElem? (h.getElem?_of_nodeAt? hn).2)

/-- What stands below the section starts behind it. -/
theorem startByte_root_lt (h : DependenciesAt t s call)
    (hn : (OutlineNode.root s).nodeAt? (k :: rest) = some n) :
    (OutlineNode.root s).startByte < n.startByte := by
  obtain ⟨e, he, hlocation⟩ := h.exists_word hn
  rw [h.startByte_root, OutlineNode.startByte_of_location hlocation]
  exact he.startByte_lt

/-- **The nodes of the section are told apart by where they start.** -/
theorem told (h : DependenciesAt t s call) {a b : List Nat} {m : OutlineNode}
    (hm : (OutlineNode.root s).nodeAt? a = some m) (hn : (OutlineNode.root s).nodeAt? b = some n)
    (hstart : m.startByte = n.startByte) : a = b := by
  cases a with
  | nil =>
      cases hm
      cases b with
      | nil => rfl
      | cons l below =>
          have hlt := h.startByte_root_lt hn
          omega
  | cons k rest =>
      cases b with
      | nil =>
          cases hn
          have hlt := h.startByte_root_lt hm
          omega
      | cons l below =>
          obtain ⟨rfl, hk⟩ := h.getElem?_of_nodeAt? hm
          obtain ⟨rfl, hl⟩ := h.getElem?_of_nodeAt? hn
          rw [OutlineNode.index_eq_of_pairwise h.ordered hk hl hstart]

end DependenciesAt

end SchemaScope
