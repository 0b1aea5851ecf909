/-
**Where the members of a section are written.**

A section is a pair of the schema object, and what it lists is written inside its value: members of
an object literal or elements of an array, any of which may stand in parentheses.  The rules of a
group are listed by a member in the same way.  These places are sites.  Above a site there is always
a node that starts earlier, before any other site is met; so two sites that start at the same byte
are the same place, and a site knows the chain of members that leads to it.

Main definitions:

* `ValueAt`, `Lists` — from a member to its value, and to what its value lists;
* `Site`, `IsWord`, `Landmark` — places listed by a literal, strings and names, and both;
* `Lineage` — a site and the members above it, up to a member of a schema object.

Main results:

* `exists_member_of_located?`, `ValueAt.exists_lists_of_mem_pairs` — where what is read is written;
* `Lineage.anchored` — a site starts behind all landmarks above it, so its first byte determines it;
* `Lineage.unique` — **a site has one lineage**.
-/

import SchemaScope.Proofs.Script.Ranges
import SchemaScope.Proofs.Schema.Locator

set_option autoImplicit false

namespace SchemaScope

open Script

/-- The way into parentheses meets no site, if parentheses are none. -/
theorem Script.Tree.Anchored.inside {t : Tree} {c d : Cursor} {site : Cursor → Prop}
    (hsite : ∀ p, site p → p.node.kind ≠ .parenthesized) (h : t.Anchored site c)
    (hinside : c.Inside d) : t.Anchored site d := by
  obtain ⟨a, ha, hd⟩ := hinside
  generalize hn : c.node = n at ha
  induction ha generalizing c with
  | bare _ =>
      cases hd
      exact h
  | parenthesized hkind _ hk _ ih =>
      obtain ⟨e, he, hd⟩ := Cursor.at?_cons_eq_some.1 hd
      have hnode := (Cursor.nth?_eq_some.1 he).1
      rw [hn, hk] at hnode
      refine ih (.within h (fun hc => hsite c hc ?_) he) hd (Option.some.inj hnode).symm
      rw [hn, hkind]

namespace Schema

variable {t : Tree} {c d o q : Cursor}

/-! ### Values and what they list -/

/-- The value of a member, inside all parentheses.  It stands behind the key. -/
inductive ValueAt (q o : Cursor) : Prop
  | value {v : Cursor} {k : Nat} (hkind : q.node.kind = .pair) (hk : q.nth? k = some v)
      (hbehind : 0 < k) (hinside : v.Inside o)

/-- What a literal lists: the members of an object, and the objects in an array. -/
def IsListing (literal listed : Node) : Prop :=
  literal.kind = .object ∧ listed.kind = .pair ∨ literal.kind = .array ∧ listed.kind = .object

/-- The value of the first member lists the second place. -/
inductive Lists (q c : Cursor) : Prop
  | listed {o e : Cursor} {j : Nat} (hvalue : ValueAt q o) (hj : o.nth? j = some e)
      (hinside : e.Inside c) (hlisting : IsListing o.node c.node)

theorem IsListing.kind_ne {literal listed : Node} (h : IsListing literal listed) :
    literal.kind ≠ .parenthesized ∧ listed.kind ≠ .parenthesized := by
  rcases h with h | h <;> simp [h]

/-- From a place whose parent is no pair of parentheses, climbing out leads to the parent. -/
theorem outsideParentheses_of_nth? {e : Cursor} {j : Nat} (hj : o.nth? j = some e)
    (hkind : o.node.kind ≠ .parenthesized) : outsideParentheses e.enclosing = o :: o.enclosing := by
  rw [Cursor.enclosing_of_nth? hj, outsideParentheses, List.dropWhile_cons_of_neg (by simp [hkind])]

theorem ValueAt.kind_eq (h : ValueAt q o) : q.node.kind = .pair := by
  cases h
  assumption

theorem ValueAt.outsideParentheses_eq (h : ValueAt q o) :
    outsideParentheses o.enclosing = q :: q.enclosing := by
  cases h with
  | value hkind hk _ hinside =>
      rw [hinside.outsideParentheses_eq, outsideParentheses_of_nth? hk (by simp [hkind])]

/-- A place is the value of one member only. -/
theorem ValueAt.unique {q' : Cursor} (h : ValueAt q o) (h' : ValueAt q' o) : q = q' :=
  (List.cons.inj (h.outsideParentheses_eq.symm.trans h'.outsideParentheses_eq)).1

/-- From what is listed, climbing out of parentheses leads to the literal that lists it, and
climbing out again to the member. -/
theorem Lists.exists_outsideParentheses (h : Lists q c) :
    ∃ o, outsideParentheses c.enclosing = o :: o.enclosing ∧ ValueAt q o ∧
      IsListing o.node c.node := by
  cases h with
  | @listed o e j hvalue hj hinside hlisting =>
      refine ⟨o, ?_, hvalue, hlisting⟩
      rw [hinside.outsideParentheses_eq, outsideParentheses_of_nth? hj hlisting.kind_ne.1]

/-- A place is listed by one member only. -/
theorem Lists.unique {q' : Cursor} (h : Lists q c) (h' : Lists q' c) : q = q' := by
  obtain ⟨o, ho, hvalue, -⟩ := h.exists_outsideParentheses
  obtain ⟨o', ho', hvalue', -⟩ := h'.exists_outsideParentheses
  obtain rfl : o = o' := (List.cons.inj (ho.symm.trans ho')).1
  exact hvalue.unique hvalue'

theorem ValueAt.exists_at? (h : ValueAt q o) : ∃ k a, q.at? (k :: a) = some o := by
  cases h with
  | value _ hk _ hinside =>
      obtain ⟨a, -, ha⟩ := hinside
      exact ⟨_, a, Cursor.at?_cons_eq_some.2 ⟨_, hk, ha⟩⟩

theorem Lists.exists_at? (h : Lists q c) : ∃ k a, q.at? (k :: a) = some c := by
  cases h with
  | @listed o e j hvalue hj hinside _ =>
      obtain ⟨k, a, ha⟩ := hvalue.exists_at?
      obtain ⟨b, -, hb⟩ := hinside
      refine ⟨k, a ++ j :: b, ?_⟩
      rw [← List.cons_append, Cursor.at?_append, ha]
      exact Cursor.at?_cons_eq_some.2 ⟨_, hj, hb⟩

/-! ### Landmarks -/

/-- The place is listed by a literal, parentheses around it not counted. -/
def Site (c : Cursor) : Prop :=
  ∃ literal above, outsideParentheses c.enclosing = literal :: above ∧ IsListing literal.node c.node

/-- The place is a string or a name. -/
def IsWord (c : Cursor) : Prop := c.node.kind = .string ∨ c.node.kind = .identifier

/-- The place is listed by a literal, or is a string or a name. -/
def Landmark (c : Cursor) : Prop := Site c ∨ IsWord c

theorem Site.not_isWord (h : Site c) : ¬ IsWord c := by
  obtain ⟨literal, above, -, hlisting⟩ := h
  rcases hlisting with h | h <;> simp [IsWord, h]

theorem Landmark.kind_ne (h : Landmark c) : c.node.kind ≠ .parenthesized := by
  rcases h with ⟨literal, above, -, hlisting⟩ | h
  · exact hlisting.kind_ne.2
  · rcases h with h | h <;> simp [h]

/-- What does not stand in a literal is no site. -/
theorem not_site_of_outsideParentheses {p : Cursor} {above : List Cursor}
    (houtside : outsideParentheses c.enclosing = p :: above)
    (hkind : p.node.kind ≠ .object ∧ p.node.kind ≠ .array) : ¬ Site c := by
  rintro ⟨literal, above', houtside', hlisting⟩
  rw [houtside] at houtside'
  cases houtside'
  rcases hlisting with h | h
  · exact hkind.1 h.1
  · exact hkind.2 h.1

theorem not_isWord_of_isLiteral (h : c.node.kind = .object ∨ c.node.kind = .array) :
    ¬ IsWord c := by
  rcases h with h | h <;> simp [IsWord, h]

theorem not_landmark_of_kind (h : c.node.kind ≠ .pair ∧ c.node.kind ≠ .object ∧
    c.node.kind ≠ .string ∧ c.node.kind ≠ .identifier) : ¬ Landmark c := by
  rintro (⟨literal, above, -, hlisting⟩ | hword)
  · rcases hlisting with hlisting | hlisting <;> simp [hlisting.2] at h
  · rcases hword with hword | hword <;> simp [hword] at h

theorem ValueAt.anchored (h : ValueAt q o) (hq : t.Inner q) {site : Cursor → Prop}
    (hsite : ∀ p, site p → p.node.kind ≠ .parenthesized) : t.Anchored site o := by
  cases h with
  | value _ hk hbehind hinside => exact (Tree.Anchored.behind hq hk hbehind).inside hsite hinside

/-- A literal that is the value of a member is no landmark: it is not listed by a literal. -/
theorem ValueAt.not_landmark (h : ValueAt q o)
    (hkind : o.node.kind = .object ∨ o.node.kind = .array) : ¬ Landmark o := by
  rintro (hsite | hword)
  · exact not_site_of_outsideParentheses h.outsideParentheses_eq (by simp [h.kind_eq]) hsite
  · exact not_isWord_of_isLiteral hkind hword

theorem Lists.site (h : Lists q c) : Site c := by
  obtain ⟨o, houtside, -, hlisting⟩ := h.exists_outsideParentheses
  exact ⟨o, o.enclosing, houtside, hlisting⟩

theorem Lists.anchored (h : Lists q c) (hq : t.Inner q) : t.Anchored Landmark c := by
  cases h with
  | @listed o e j hvalue hj hinside hlisting =>
      have hsite : ∀ p, Landmark p → p.node.kind ≠ .parenthesized := fun _ => Landmark.kind_ne
      have hnot : ¬ Landmark o := hvalue.not_landmark (hlisting.imp And.left And.left)
      exact (Tree.Anchored.within (hvalue.anchored hq hsite) hnot hj).inside hsite hinside

/-! ### Parsed scripts -/

section Parsed

variable {source : String} (hparse : Tree.parse? source = some t)

include hparse

theorem conforms_node (hc : c ∈ t.walk) : c.node.Conforms source.toList :=
  (Tree.conformsThroughout_of_parse? hparse).1 _
    (Tree.preorder_subset_of_mem_walk hc (Node.mem_preorder_self _))

theorem inner_of_kind_ne (hc : c ∈ t.walk) (h : c.node.kind ≠ .program) : t.Inner c :=
  .of_mem_walk hc (by rwa [(Tree.conformsThroughout_of_parse? hparse).2])

/-- The value of a member has a place. -/
theorem exists_valueAt (hq : q ∈ t.walk) (hkind : q.node.kind = .pair) {n : Node}
    (hvalue : q.node.child? .value = some n) :
    ∃ v o k, q.nth? k = some v ∧ v.node = n ∧ v.Inside o ∧ o ∈ t.walk ∧ ValueAt q o := by
  obtain ⟨k, hk, hrole, -⟩ := Node.child?_eq_some_iff.1 hvalue
  obtain ⟨v, hv, rfl⟩ := Cursor.exists_nth? hk
  have hbehind : k ≠ 0 := by
    rintro rfl
    refine (conforms_node hparse hq).behind_key hkind v.node ?_ hrole
    rw [Option.mem_def, List.head?_eq_getElem?, hk]
  obtain ⟨o, ho, hinside⟩ := Tree.exists_inside (followsGrammar_of_parse? hparse)
    (Tree.mem_walk_of_nth? hq hv)
  exact ⟨v, o, k, hv, rfl, hinside, ho, .value hkind hv (Nat.pos_of_ne_zero hbehind) hinside⟩

/-- What is located is the value of a member of a schema object. -/
theorem exists_member_of_located? {name : String} {l : Located} (h : located? t name = some l) :
    ∃ q ∈ t.walk, isTopLevelMember name q = true ∧ q.node = l.pair ∧
      ∃ o ∈ t.walk, ValueAt q o ∧ o.node = l.value := by
  simp only [located?, Option.bind_eq_bind, Option.bind_eq_some_iff, Option.pure_def,
    Option.some.injEq] at h
  obtain ⟨q, hq, n, hn, rfl⟩ := h
  obtain ⟨hmem, hmember, -⟩ := Tree.findFirst?_eq_some_iff.1 hq
  have hkind : q.node.kind = .pair := by
    simp only [isTopLevelMember, Bool.and_eq_true, beq_iff_eq] at hmember
    exact hmember.1.1
  obtain ⟨v, o, k, -, rfl, hinside, ho, hvalue⟩ := exists_valueAt hparse hmem hkind hn
  exact ⟨q, hmem, hmember, rfl, o, ho, hvalue, hinside.node_eq⟩

/-- The arguments of a call stand behind the callee. -/
theorem arguments_behind_callee {call arguments : Cursor} {i : Nat} (hcall : call ∈ t.walk)
    (hkind : call.node.kind = .call) (hi : call.nth? i = some arguments)
    (hrole : arguments.node.role = some .arguments) : t.Inner call ∧ 0 < i := by
  refine ⟨inner_of_kind_ne hparse hcall (by simp [hkind]), Nat.pos_of_ne_zero ?_⟩
  rintro rfl
  refine (conforms_node hparse hcall).behind_callee hkind arguments.node ?_ hrole
  rw [Option.mem_def, List.head?_eq_getElem?, (Cursor.nth?_eq_some.1 hi).1]

/-- An object in an array has a place. -/
theorem ValueAt.exists_lists_of_mem_significant (h : ValueAt q o) (ho : o ∈ t.walk) {e : Node}
    (harray : o.node.kind = .array) (he : e ∈ o.node.significant)
    (hobject : e.unwrapped.kind = .object) : ∃ c, Lists q c ∧ c.node = e.unwrapped := by
  obtain ⟨j, hj⟩ := List.mem_iff_getElem?.1 (Node.mem_significant_iff.1 he).1
  obtain ⟨element, helement, rfl⟩ := Cursor.exists_nth? hj
  obtain ⟨c, -, hinside⟩ := Tree.exists_inside (followsGrammar_of_parse? hparse)
    (Tree.mem_walk_of_nth? ho helement)
  refine ⟨c, .listed h helement hinside (.inr ⟨harray, ?_⟩), hinside.node_eq⟩
  rw [hinside.node_eq, hobject]

end Parsed

/-- Members that are read are the members that are written. -/
theorem mem_pairs_iff {n p : Node} : p ∈ n.pairs ↔ n.kind = .object ∧ p ∈ n.significant ∧
    p.kind = .pair ∧ p.key?.isSome = true ∧ (p.child? .value).isSome = true := by
  have hkind : p.key?.isSome = true → p.kind = .pair := by
    intro h
    by_contra hne
    simp [Node.key?, hne] at h
  rw [Node.pairs]
  split
  · next hobject =>
    simp only [List.mem_filter, Bool.and_eq_true, hobject, true_and]
    constructor
    · rintro ⟨hmem, hkey, hvalue⟩
      exact ⟨hmem, hkind hkey, hkey, hvalue⟩
    · rintro ⟨hmem, -, hkey, hvalue⟩
      exact ⟨hmem, hkey, hvalue⟩
  · next hobject => simp [hobject]

/-- A member of the value of a member has a place. -/
theorem ValueAt.exists_lists_of_mem_pairs (h : ValueAt q o) {p : Node} (hp : p ∈ o.node.pairs) :
    ∃ c j, o.nth? j = some c ∧ c.node = p ∧ Lists q c := by
  obtain ⟨hobject, hmem, hkind, -, -⟩ := mem_pairs_iff.1 hp
  obtain ⟨j, hj⟩ := List.mem_iff_getElem?.1 (Node.mem_significant_iff.1 hmem).1
  obtain ⟨c, hc, rfl⟩ := Cursor.exists_nth? hj
  exact ⟨c, j, hc, rfl, .listed h hc (.bare (by simp [hkind])) (.inl ⟨hobject, hkind⟩)⟩

theorem Lists.mem_walk (h : Lists q c) (hq : q ∈ t.walk) : c ∈ t.walk := by
  obtain ⟨k, a, ha⟩ := h.exists_at?
  exact Tree.mem_walk_of_at? hq ha

/-! ### Groups of rules -/

theorem RuleGroup.ofPair?_eq_some_iff {pair : Node} {g : RuleGroup} :
    RuleGroup.ofPair? pair = some g ↔ pair.key? = some g.attributeName ∧
      ∃ value, pair.child? .value = some value ∧
        g.rules = value.unwrapped.pairs.filterMap (Rule.ofPair? g.attributeName) ∧
      g.location = pair.location := by
  simp only [ofPair?, Option.bind_eq_bind, Option.bind_eq_some_iff, Option.pure_def,
    Option.some.injEq]
  constructor
  · rintro ⟨attributeName, hkey, value, hvalue, rfl⟩
    exact ⟨hkey, value, hvalue, rfl, rfl⟩
  · rintro ⟨hkey, value, hvalue, hrules, hlocation⟩
    exact ⟨g.attributeName, hkey, value, hvalue, by rw [← hrules, ← hlocation]⟩

theorem Rule.ofPair?_eq_some_iff {attributeName : String} {pair : Node} {r : Rule} :
    Rule.ofPair? attributeName pair = some r ↔ ∃ value, pair.child? .value = some value ∧
      BusinessRule.ofNode? value.unwrapped = some r.rule ∧
      r.description = r.rule.describe attributeName ∧ r.location = pair.location := by
  simp only [ofPair?, Option.bind_eq_bind, Option.bind_eq_some_iff, Option.pure_def,
    Option.some.injEq]
  constructor
  · rintro ⟨value, hvalue, rule, hrule, rfl⟩
    exact ⟨value, hvalue, hrule, rfl, rfl⟩
  · rintro ⟨value, hvalue, hrule, hdescription, hlocation⟩
    exact ⟨value, hvalue, r.rule, hrule, by rw [← hdescription, ← hlocation]⟩

/-! ### Members of schema objects -/

theorem Returns.kind_eq {call : Cursor} (h : Returns call o) : o.node.kind = .object := by
  cases h
  assumption

theorem Returns.exists_outsideParentheses {call : Cursor} (h : Returns call o) :
    ∃ statement above, outsideParentheses o.enclosing = statement :: above ∧
      statement.node.kind = .returnStatement := by
  cases h with
  | @returned arguments callback body statement expression object i j k l m hi hj hcallback hk
      hblock hl hreturn hm hinside hobject =>
    refine ⟨statement, statement.enclosing, ?_, hreturn⟩
    rw [hinside.outsideParentheses_eq, outsideParentheses_of_nth? hm (by simp [hreturn])]

theorem Returns.not_landmark {call : Cursor} (h : Returns call o) : ¬ Landmark o := by
  obtain ⟨statement, above, houtside, hreturn⟩ := h.exists_outsideParentheses
  rintro (hsite | hword)
  · exact not_site_of_outsideParentheses houtside (by simp [hreturn]) hsite
  · exact not_isWord_of_isLiteral (.inl h.kind_eq) hword

theorem kind_of_isFunctionLiteral {n : Node} (h : n.isFunctionLiteral = true) :
    n.kind = .functionExpression ∨ n.kind = .arrowFunction := by
  unfold Node.isFunctionLiteral Kind.isFunctionLiteral at h
  split at h
  · next hkind => exact .inl hkind
  · next hkind => exact .inr hkind
  · cases h

theorem not_landmark_of_isFunctionLiteral (h : c.node.isFunctionLiteral = true) : ¬ Landmark c := by
  rcases kind_of_isFunctionLiteral h with h | h <;> exact not_landmark_of_kind (by simp [h])

/-- A schema object starts behind the call that returns it, and no landmark stands in between. -/
theorem Returns.anchored {source : String} (hparse : Tree.parse? source = some t) {call : Cursor}
    (hcall : call ∈ t.walk) (h : Returns call o) : t.Anchored Landmark o := by
  cases h with
  | @returned arguments callback body statement expression object i j k l m hi hj hcallback hk
      hblock hl hreturn hm hinside hobject =>
    obtain ⟨hinner, hpos⟩ :=
      arguments_behind_callee hparse hcall hcallback.isCall hi hcallback.inRole.1
    have harguments : t.Anchored Landmark arguments := .behind hinner hi hpos
    have hfunction : t.Anchored Landmark callback :=
      .within harguments (not_landmark_of_kind (by simp [hcallback.isArguments.2])) hj
    have hbody : t.Anchored Landmark body :=
      .within hfunction (not_landmark_of_isFunctionLiteral hcallback.isFunction.2) hk
    have hstatement : t.Anchored Landmark statement :=
      .within hbody (not_landmark_of_kind (by simp [hblock])) hl
    have hexpression : t.Anchored Landmark expression :=
      .within hstatement (not_landmark_of_kind (by simp [hreturn])) hm
    exact hexpression.inside (fun _ => Landmark.kind_ne) hinside

theorem Returns.startByte_lt {source : String} (hparse : Tree.parse? source = some t)
    (ht : t.WellRanged) {call : Cursor} (hcall : call ∈ t.walk) (h : Returns call o) :
    call.startByte < o.startByte := by
  cases h with
  | @returned arguments callback body statement expression object i j k l m hi hj hcallback hk
      hblock hl hreturn hm hinside hobject =>
    obtain ⟨hinner, hpos⟩ :=
      arguments_behind_callee hparse hcall hcallback.isCall hi hcallback.inRole.1
    obtain ⟨inner, -, hat⟩ := hinside
    have hbelow : arguments.at? (j :: k :: l :: m :: inner) = some o := by
      simp [Cursor.at?_cons, hj, hk, hl, hm, hat]
    have hlt := ht.lt_of_nth? hinner hi hpos
    have hle := (ht.le_of_at? (.nth? hcall hi) hbelow).1
    omega

/-- A member of a schema object, and the call that returns the object. -/
theorem exists_returns_of_isTopLevelMember (ht : t.FollowsGrammar) {name : String} (hc : c ∈ t.walk)
    (h : isTopLevelMember name c = true) : c.node.kind = .pair ∧ c.node.key? = some name ∧
      ∃ call ∈ t.walk, ∃ o ∈ t.walk, Returns call o ∧ ∃ k, o.nth? k = some c := by
  simp only [isTopLevelMember, Bool.and_eq_true, beq_iff_eq] at h
  obtain ⟨⟨hkind, hkey⟩, hparent⟩ := h
  obtain ⟨o, ho, hobject⟩ := (Option.any_eq_true _ _).1 hparent
  obtain rfl | ⟨p, hp, k, hk⟩ := Tree.eq_cursor_or_exists_nth? hc
  · simp [Tree.cursor, Cursor.root, Cursor.parent?] at ho
  · rw [Cursor.parent?_of_nth? hk, Option.some.injEq] at ho
    subst ho
    obtain ⟨call, hcall, hreturns⟩ := exists_returns_of_isSchemaObject ht hp hobject
    exact ⟨hkind, hkey, call, hcall, p, hp, hreturns, k, hk⟩

/-! ### Lineages -/

/-- A site and the members above it that lead to it, up to a member of a schema object. -/
inductive Lineage (t : Tree) : List Cursor → Prop
  | top {c : Cursor} {name : String} (hc : c ∈ t.walk) (h : isTopLevelMember name c = true) :
      Lineage t [c]
  | listed {c q : Cursor} {above : List Cursor} (hq : Lineage t (q :: above)) (h : Lists q c) :
      Lineage t (c :: q :: above)

namespace Lineage

variable {source : String} {above above' : List Cursor}

theorem site (ht : t.FollowsGrammar) (h : Lineage t (c :: above)) : Site c := by
  cases h with
  | top hc h =>
      obtain ⟨hkind, -, call, -, o, -, hreturns, k, hk⟩ :=
        exists_returns_of_isTopLevelMember ht hc h
      have hobject := hreturns.kind_eq
      exact ⟨o, o.enclosing, outsideParentheses_of_nth? hk (by simp [hobject]),
        .inl ⟨hobject, hkind⟩⟩
  | listed _ h => exact h.site

theorem anchored (hparse : Tree.parse? source = some t) (h : Lineage t (c :: above)) :
    t.Anchored Landmark c := by
  generalize hlist : c :: above = list at h
  induction h generalizing c above with
  | top hc h =>
      cases hlist
      obtain ⟨-, -, call, hcall, o, -, hreturns, k, hk⟩ :=
        exists_returns_of_isTopLevelMember (followsGrammar_of_parse? hparse) hc h
      exact .within (hreturns.anchored hparse hcall) hreturns.not_landmark hk
  | listed _ h ih =>
      cases hlist
      exact h.anchored (ih rfl).inner

/-- A member of a schema object is listed by nothing: from the object, climbing out leads to a
`return`. -/
theorem not_lists_of_isTopLevelMember (ht : t.FollowsGrammar) {name : String} (hc : c ∈ t.walk)
    (h : isTopLevelMember name c = true) : ¬ Lists q c := by
  intro hlists
  obtain ⟨-, -, call, -, o, -, hreturns, k, hk⟩ := exists_returns_of_isTopLevelMember ht hc h
  obtain ⟨o', ho', hvalue, -⟩ := hlists.exists_outsideParentheses
  rw [outsideParentheses_of_nth? hk (by simp [hreturns.kind_eq])] at ho'
  cases ho'
  obtain ⟨statement, above, houtside, hreturn⟩ := hreturns.exists_outsideParentheses
  rw [hvalue.outsideParentheses_eq] at houtside
  cases houtside
  simp [hvalue.kind_eq] at hreturn

/-- **A site has one lineage.** -/
theorem unique (ht : t.FollowsGrammar) (h : Lineage t (c :: above)) (h' : Lineage t (c :: above')) :
    above = above' := by
  generalize hlist : c :: above = list at h
  induction h generalizing c above above' with
  | top hc h =>
      cases hlist
      cases h' with
      | top _ _ => rfl
      | listed _ hlists => exact absurd hlists (not_lists_of_isTopLevelMember ht hc h)
  | @listed c q above hq h ih =>
      cases hlist
      cases h' with
      | top hc htop => exact absurd h (not_lists_of_isTopLevelMember ht hc htop)
      | listed hq' hlists =>
          obtain rfl := h.unique hlists
          rw [ih hq' rfl]

/-- Sites that start at the same byte have the same lineage. -/
theorem eq_of_startByte_eq (hparse : Tree.parse? source = some t) (ht : t.WellRanged)
    (hc : Lineage t (c :: above)) (hd : Lineage t (d :: above')) (h : c.startByte = d.startByte) :
    c :: above = d :: above' := by
  have hgrammar := followsGrammar_of_parse? hparse
  obtain rfl := (hc.anchored hparse).eq_of_startByte_eq ht (hd.anchored hparse)
    (.inl (hc.site hgrammar)) (.inl (hd.site hgrammar)) h
  rw [hc.unique hgrammar hd]

end Lineage

end Schema

end SchemaScope
