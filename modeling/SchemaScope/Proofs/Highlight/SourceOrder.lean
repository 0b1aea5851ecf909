/-
**Annotations in the order of the source.**

The annotator meets the members of a script in pre-order, a member before everything that stands in
it, and puts the name of a number behind the number and the summary of a rule in front of the rule.
So the annotations of a member stand in its value, and what is met later and stands in the member
stands in this value too, or behind it, or in its key.  Behind a number nothing is left of the
member, and the key in front of a number is a word or a string.  But a rule may stand under a key
that is computed, and members that stand in this key are met after the rule that they stand in front
of.  These are the only annotations that are out of order.

Main definitions:

* `Tree.LinesInOrder` — no end of a node is on a line above that of an earlier end;
* `annotatedMembers` — the annotations of a script with the members that they belong to;
* `InKey`, `HasValue` — a place in the key of a member, and the value of a member;
* `NotedAt` — where the annotations of a member stand.

Main results:

* `Tree.kind_ne_pair_of_bare` — no member stands in a word or a literal;
* `NotedAt.le_or_inKey` — **an annotation stands in front of every member that is met later**, unless
  this stands in the key;
* `annotate_in_source_order` — the order of all annotations, and of those that are in view.
-/

import SchemaScope.Proofs.Highlight.RuleSummaries

set_option autoImplicit false

namespace SchemaScope

open Script Schema

/-! ### Lines -/

/-- The two ends of a location. -/
def Location.ends (l : Location) : List Location := [l.startPoint, l.endPoint]

/-- Lines do not decrease from one end of a node to a later end of a node. -/
def Script.Tree.LinesInOrder (t : Tree) : Prop :=
  ∀ n ∈ t.root.preorder, ∀ m ∈ t.root.preorder, ∀ a ∈ n.location.ends, ∀ b ∈ m.location.ends,
    a.startByte ≤ b.startByte → a.start.line ≤ b.start.line

instance (t : Tree) : Decidable t.LinesInOrder :=
  inferInstanceAs (Decidable (∀ n ∈ t.root.preorder, ∀ m ∈ t.root.preorder,
    ∀ a ∈ n.location.ends, ∀ b ∈ m.location.ends,
      a.startByte ≤ b.startByte → a.start.line ≤ b.start.line))

section View

variable {hs : List Highlight}
  (h : hs.Pairwise fun a b => a.location.start.line ≤ b.location.start.line)

include h

theorem filter_line_le_prefix (last : Nat) :
    (hs.filter fun a => a.location.start.line ≤ last) <+: hs := by
  induction hs with
  | nil => exact List.prefix_rfl
  | cons a hs ih =>
      obtain ⟨ha, hrest⟩ := List.pairwise_cons.1 h
      by_cases hlast : a.location.start.line ≤ last
      · rw [List.filter_cons_of_pos (by simpa using hlast), List.prefix_cons_inj]
        exact ih hrest
      · have hnone : (a :: hs).filter (fun a => a.location.start.line ≤ last) = [] := by
          rw [List.filter_eq_nil_iff]
          intro b hb
          rcases List.mem_cons.1 hb with rfl | hb
          · simpa using hlast
          · have hab := ha b hb
            simp only [decide_eq_true_eq]
            omega
        rw [hnone]
        exact List.nil_prefix

theorem filter_le_line_suffix (first : Nat) :
    (hs.filter fun a => first ≤ a.location.start.line) <:+ hs := by
  induction hs with
  | nil => exact List.suffix_rfl
  | cons a hs ih =>
      obtain ⟨ha, hrest⟩ := List.pairwise_cons.1 h
      by_cases hfirst : first ≤ a.location.start.line
      · have hall : (a :: hs).filter (fun a => first ≤ a.location.start.line) = a :: hs := by
          rw [List.filter_eq_self]
          intro b hb
          rcases List.mem_cons.1 hb with rfl | hb
          · simpa using hfirst
          · have hab := ha b hb
            simp only [decide_eq_true_eq]
            omega
        rw [hall]
      · rw [List.filter_cons_of_neg (by simpa using hfirst)]
        exact (ih hrest).trans (List.suffix_cons a hs)

/-- Annotations whose lines do not decrease are in view without a gap. -/
theorem visible_infix (first last : Nat) : visible hs first last <:+: hs := by
  have hsuffix := filter_le_line_suffix h (first - margin)
  have hprefix := filter_line_le_prefix (h.sublist hsuffix.sublist) (last + margin)
  have hvisible : visible hs first last =
      (hs.filter fun a => first - margin ≤ a.location.start.line).filter
        fun a => a.location.start.line ≤ last + margin := by
    rw [visible, List.filter_filter]
    exact List.filter_congr fun a _ => Bool.and_comm _ _
  rw [hvisible]
  exact hprefix.isInfix.trans hsuffix.isInfix

end View

/-! ### Words and literals -/

section Parsed

variable {t : Tree} {source : String} {c d x : Cursor}

/-- Below a word or a literal stand nothing but comments. -/
theorem Script.Tree.kind_eq_comment_of_bare (hparse : Tree.parse? source = some t) (hx : x ∈ t.walk)
    (hbare : x.node.kind.isBare = true) {k : Nat} {a : List Nat} (h : x.at? (k :: a) = some d) :
    d.node.kind = .comment := by
  induction a generalizing x k with
  | nil =>
      obtain ⟨e, he, hd⟩ := Cursor.at?_cons_eq_some.1 h
      cases hd
      exact (conforms_node hparse hx).bare hbare _ (List.mem_of_getElem? (Cursor.nth?_eq_some.1 he).1)
  | cons l a ih =>
      obtain ⟨e, he, hd⟩ := Cursor.at?_cons_eq_some.1 h
      have hcomment : e.node.kind = .comment :=
        (conforms_node hparse hx).bare hbare _ (List.mem_of_getElem? (Cursor.nth?_eq_some.1 he).1)
      exact ih (Tree.mem_walk_of_nth? hx he) (by rw [hcomment]; rfl) hd

/-- No member stands in a word or a literal. -/
theorem Script.Tree.kind_ne_pair_of_bare (hparse : Tree.parse? source = some t) (hx : x ∈ t.walk)
    (hbare : x.node.kind.isBare = true) {a : List Nat} (h : x.at? a = some d) :
    d.node.kind ≠ .pair := by
  cases a with
  | nil =>
      cases h
      intro hpair
      simp [hpair, Kind.isBare] at hbare
  | cons k a => simp [Tree.kind_eq_comment_of_bare hparse hx hbare h]

theorem Script.Node.isBare_of_not_isSignificant {n : Node} (h : ¬ n.isSignificant = true) :
    n.kind.isBare = true := by
  unfold Node.isSignificant at h
  cases hkind : n.kind <;> simp_all [Kind.isNamed, Kind.isBare]

/-- A member in parentheses stands in the expression inside them. -/
theorem Script.Cursor.Inside.exists_at?_of_pair (hparse : Tree.parse? source = some t)
    (ht : t.WellRanged) {v o : Cursor} (h : v.Inside o) (hv : v ∈ t.walk) {a : List Nat}
    (hd : v.at? a = some d) (hpair : d.node.kind = .pair) : ∃ b, o.at? b = some d := by
  obtain ⟨way, hway, ho⟩ := h
  generalize hn : v.node = n at hway
  induction hway generalizing v a with
  | bare _ =>
      cases ho
      exact ⟨a, hd⟩
  | @parenthesized n e k way hkind honly hk _ ih =>
      subst hn
      obtain ⟨inner, hinner, ho⟩ := Cursor.at?_cons_eq_some.1 ho
      have hinnerNode : inner.node = e := by
        have hchild := (Cursor.nth?_eq_some.1 hinner).1
        rw [hk] at hchild
        exact (Option.some.inj hchild).symm
      cases a with
      | nil =>
          cases hd
          simp [hpair] at hkind
      | cons j a =>
          obtain ⟨y, hy, hd⟩ := Cursor.at?_cons_eq_some.1 hd
          have hymem := Tree.mem_walk_of_nth? hv hy
          -- a mark or a comment holds no member, so the way goes on into the expression
          have hsignificant : y.node.isSignificant = true := by
            by_contra hnot
            exact Tree.kind_ne_pair_of_bare hparse hymem (Node.isBare_of_not_isSignificant hnot) hd
              hpair
          have hynode : y.node = e := by
            have hmem : y.node ∈ v.node.significant := Node.mem_significant_iff.2
              ⟨List.mem_of_getElem? (Cursor.nth?_eq_some.1 hy).1, hsignificant⟩
            rw [honly] at hmem
            exact List.mem_singleton.1 hmem
          obtain rfl := ht.nth?_unique hv hy hinner (hynode.trans hinnerNode.symm)
          obtain rfl := Option.some.inj (hy.symm.trans hinner)
          exact ih hymem hd ho hinnerNode

/-! ### Keys -/

/-- The second place stands in the key of the first. -/
def InKey (c d : Cursor) : Prop :=
  ∃ k x a, c.nth? k = some x ∧ x.node.role = some .key ∧ x.at? a = some d

/-- The significant parts of a member are its key and its value. -/
theorem exists_key_value (hparse : Tree.parse? source = some t) (hc : c ∈ t.walk)
    (hkind : c.node.kind = .pair) : ∃ key value : Node, c.node.significant = [key, value] ∧
      key.role = some .key ∧ value.role = some .value := by
  have hroles := (conforms_node hparse hc).key_value hkind
  obtain ⟨key, rest, hparts, hkey, hroles⟩ := List.map_eq_cons_iff.1 hroles
  obtain ⟨value, rest, rfl, hvalue, hroles⟩ := List.map_eq_cons_iff.1 hroles
  obtain rfl := List.map_eq_nil_iff.1 hroles
  exact ⟨key, value, hparts, hkey, hvalue⟩

/-- A key that can be read is a word or a string, and no member stands in it. -/
theorem not_inKey_of_key? (hparse : Tree.parse? source = some t) (hc : c ∈ t.walk)
    (hkey : c.node.key?.isSome = true) (hpair : d.node.kind = .pair) : ¬ InKey c d := by
  rintro ⟨k, x, a, hx, hrole, hd⟩
  have hkind : c.node.kind = .pair := by
    by_contra hne
    simp [Node.key?, hne] at hkey
  have hxmem := Tree.mem_walk_of_nth? hc hx
  have hxchild : x.node ∈ c.node.children := List.mem_of_getElem? (Cursor.nth?_eq_some.1 hx).1
  obtain ⟨text, htext⟩ := Option.isSome_iff_exists.1 hkey
  simp only [Node.key?, if_pos hkind, Option.bind_eq_bind, Option.bind_eq_some_iff] at htext
  obtain ⟨key, hchild, hread⟩ := htext
  have hbare : key.kind.isBare = true ∧ key.isSignificant = true := by
    unfold Node.isSignificant
    split at hread <;> simp_all [Kind.isBare, Kind.isNamed]
  -- the key that is read and the key on the way are the same
  obtain ⟨j, hj, hkeyrole, -⟩ := Node.child?_eq_some_iff.1 hchild
  obtain ⟨key', value, hparts, hkey', hvalue⟩ := exists_key_value hparse hc hkind
  have hsame : ∀ n ∈ c.node.significant, n.role = some .key → n = key' := by
    intro n hn hrole
    rw [hparts] at hn
    rcases List.mem_pair.1 hn with rfl | rfl
    · rfl
    · simp [hvalue] at hrole
  have hbarex : x.node.kind.isBare = true := by
    by_cases hsignificant : x.node.isSignificant = true
    · rw [hsame x.node (Node.mem_significant_iff.2 ⟨hxchild, hsignificant⟩) hrole,
        ← hsame key (Node.mem_significant_iff.2 ⟨List.mem_of_getElem? hj, hbare.2⟩) hkeyrole]
      exact hbare.1
    · exact Node.isBare_of_not_isSignificant hsignificant
  exact Tree.kind_ne_pair_of_bare hparse hxmem hbarex hd hpair

/-- The second place is the value of the first, and its child of the given number. -/
structure HasValue (c v : Cursor) (k : Nat) : Prop where
  nth : c.nth? k = some v
  value : c.node.child? .value = some v.node
  first : ∀ n ∈ c.node.children.take k, n.role ≠ some .value

theorem exists_hasValue {value : Node} (h : c.node.child? .value = some value) :
    ∃ v k, HasValue c v k ∧ v.node = value := by
  obtain ⟨k, hk, -, hfirst⟩ := Node.child?_eq_some_iff.1 h
  obtain ⟨v, hv, rfl⟩ := Cursor.exists_nth? hk
  exact ⟨v, k, ⟨hv, h, hfirst⟩, rfl⟩

theorem HasValue.node_eq {v w : Cursor} {k l : Nat} (hv : HasValue c v k) (hw : HasValue c w l) :
    v.node = w.node :=
  Option.some.inj (hv.value.symm.trans hw.value)

/-- What stands in a member in front of its value stands in its key. -/
theorem HasValue.inKey_of_lt (hparse : Tree.parse? source = some t) {v : Cursor} {k : Nat}
    (hv : HasValue c v k) (hc : c ∈ t.walk) (hkind : c.node.kind = .pair) {j : Nat} {a : List Nat}
    (hj : c.nth? j = some x) (hlt : j < k) (hd : x.at? a = some d) (hpair : d.node.kind = .pair) :
    InKey c d := by
  have hchild := (Cursor.nth?_eq_some.1 hj).1
  have hsignificant : x.node.isSignificant = true := by
    by_contra hnot
    exact Tree.kind_ne_pair_of_bare hparse (Tree.mem_walk_of_nth? hc hj)
      (Node.isBare_of_not_isSignificant hnot) hd hpair
  obtain ⟨key, value, hparts, hkey, hvalue⟩ := exists_key_value hparse hc hkind
  have hmem : x.node ∈ c.node.significant :=
    Node.mem_significant_iff.2 ⟨List.mem_of_getElem? hchild, hsignificant⟩
  rw [hparts] at hmem
  rcases List.mem_pair.1 hmem with hx | hx
  · exact ⟨j, x, a, hj, hx ▸ hkey, hd⟩
  · have hbefore : x.node ∈ c.node.children.take k := by
      refine List.mem_of_getElem? (i := j) ?_
      rw [List.getElem?_take_of_lt hlt, hchild]
    exact absurd (hx ▸ hvalue) (hv.first x.node hbefore)

/-! ### Where annotations stand -/

/-- Where an annotation of a member stands: behind the number that is the value of the member, under
a key that can be read; or, if it is the summary of a rule, in front of the literal that is the
value of the member, inside all parentheses. -/
inductive NotedAt (c : Cursor) (h : Highlight) : Prop
  | number {v : Cursor} {k : Nat} (hv : HasValue c v k) (hnumber : v.node.kind = .number)
      (hkey : c.node.key?.isSome = true) (hlocation : h.location = v.node.location.endPoint)
  | summary {v o : Cursor} {k : Nat} (hv : HasValue c v k) (hinside : v.Inside o)
      (hobject : o.node.kind = .object) (hsummary : businessRuleHighlight? c = some h)
      (hlocation : h.location = o.node.location.startPoint)

theorem ValueRule.of_highlight? {r : ValueRule} {h : Highlight} (hnote : r.highlight? c = some h) :
    ∃ value, c.node.child? .value = some value ∧ value.kind = .number ∧
      c.node.key?.isSome = true ∧ h.location = value.location.endPoint := by
  simp only [highlight?, Option.bind_eq_bind, Option.bind_eq_some_iff,
    Option.ite_none_right_eq_some, Option.some.injEq] at hnote
  obtain ⟨value, hvalue, number, hnumber, ⟨hkey, -⟩, rfl⟩ := hnote
  simp only [Node.numberValue?, Option.ite_none_right_eq_some] at hnumber
  exact ⟨value, hvalue, hnumber.1, by simp [hkey], rfl⟩

/-- Every annotation of a member stands at one of these places. -/
theorem notedAt_of_mem (hparse : Tree.parse? source = some t) {rules : List HighlightRule}
    (hc : c ∈ t.walk) {h : Highlight} (hmem : h ∈ annotateMember rules c) :
    c.node.kind = .pair ∧ NotedAt c h := by
  have hkind : c.node.kind = .pair := by
    by_contra hne
    simp [annotateMember, hne] at hmem
  rw [annotateMember, if_pos hkind] at hmem
  obtain ⟨rule, -, hnote⟩ := List.mem_filterMap.1 hmem
  refine ⟨hkind, ?_⟩
  cases rule with
  | value rule =>
      obtain ⟨value, hvalue, hnumber, hkey, hlocation⟩ := ValueRule.of_highlight? hnote
      obtain ⟨v, k, hv, rfl⟩ := exists_hasValue hvalue
      exact .number hv hnumber hkey hlocation
  | businessRule =>
      obtain ⟨value, rule, hvalue, hrule, -, rfl⟩ := businessRuleHighlight?_eq_some_iff.1 hnote
      obtain ⟨v, k, hv, rfl⟩ := exists_hasValue hvalue
      obtain ⟨o, -, hinside⟩ := Tree.exists_inside (followsGrammar_of_parse? hparse)
        (Tree.mem_walk_of_nth? hc hv.nth)
      rw [← hinside.node_eq] at hrule
      exact .summary hv hinside (BusinessRule.kind_of_ofNode? hrule) hnote (by rw [hinside.node_eq])

namespace NotedAt

variable {h h' : Highlight}

theorem isPoint (hnoted : NotedAt c h) : h.location.isPoint = true := by
  cases hnoted with
  | number _ _ _ hlocation => rw [hlocation, Location.isPoint_endPoint]
  | summary _ _ _ _ hlocation => rw [hlocation, Location.isPoint_startPoint]

/-- An annotation stands at an end of a node of the tree. -/
theorem exists_mem_ends (hnoted : NotedAt c h) (hc : c ∈ t.walk) :
    ∃ n ∈ t.root.preorder, h.location ∈ n.location.ends := by
  cases hnoted with
  | @number v k hv _ _ hlocation =>
      have hvmem := Tree.mem_walk_of_nth? hc hv.nth
      exact ⟨v.node, Tree.preorder_subset_of_mem_walk hvmem (Node.mem_preorder_self _),
        by simp [hlocation, Location.ends]⟩
  | @summary v o k hv hinside _ _ hlocation =>
      have ho := hinside.mem_walk (Tree.mem_walk_of_nth? hc hv.nth)
      exact ⟨o.node, Tree.preorder_subset_of_mem_walk ho (Node.mem_preorder_self _),
        by simp [hlocation, Location.ends]⟩

/-- An annotation stands inside the member. -/
theorem bounds (ht : t.WellRanged) (hnoted : NotedAt c h) (hc : t.Inner c) :
    c.startByte ≤ h.location.startByte ∧ h.location.startByte ≤ c.stopByte := by
  cases hnoted with
  | @number v k hv _ _ hlocation =>
      have hbyte : h.location.startByte = v.stopByte := by rw [hlocation]; rfl
      have hle := ht.le_of_nth? hc hv.nth
      have hlt := ht.start_lt_stop (.nth? hc.mem_walk hv.nth)
      omega
  | @summary v o k hv hinside _ _ hlocation =>
      have hbyte : h.location.startByte = o.startByte := by rw [hlocation]; rfl
      obtain ⟨a, -, ho⟩ := hinside
      have hinner : t.Inner v := .nth? hc.mem_walk hv.nth
      have hle := ht.le_of_nth? hc hv.nth
      have hle' := ht.le_of_at? hinner ho
      have hlt := ht.start_lt_stop (hinner.at? ho)
      omega

/-- All annotations of a member stand at the same place. -/
theorem location_eq (hnoted : NotedAt c h) (hnoted' : NotedAt c h') : h.location = h'.location := by
  -- the value of a member is a number or a literal, and not both
  have hnot : ∀ {v w o : Cursor} {k l : Nat}, HasValue c v k → HasValue c w l →
      v.node.kind = .number → w.Inside o → o.node.kind ≠ .object := by
    intro v w o k l hv hw hnumber hinside
    rw [hv.node_eq hw] at hnumber
    rw [hinside.node_eq, Node.unwrapped_of_kind_ne (by simp [hnumber]), hnumber]
    simp
  cases hnoted with
  | number hv hnumber _ hlocation =>
      cases hnoted' with
      | number hv' _ _ hlocation' => rw [hlocation, hlocation', hv.node_eq hv']
      | summary hv' hinside hobject _ _ => exact absurd hobject (hnot hv hv' hnumber hinside)
  | summary hv hinside hobject _ hlocation =>
      cases hnoted' with
      | number hv' hnumber _ _ => exact absurd hobject (hnot hv' hv hnumber hinside)
      | summary hv' hinside' _ _ hlocation' =>
          rw [hlocation, hlocation', hinside.node_eq, hinside'.node_eq, hv.node_eq hv']

/-- **An annotation of a member stands in front of every member inside it**, unless it is the summary
of a rule and the other member stands in the key. -/
theorem le_or_inKey (hparse : Tree.parse? source = some t) (ht : t.WellRanged)
    (hnoted : NotedAt c h) (hc : t.Inner c) (hkind : c.node.kind = .pair) {j : Nat} {a : List Nat}
    (hd : c.at? (j :: a) = some d) (hpair : d.node.kind = .pair) :
    h.location.startByte ≤ d.startByte ∨ businessRuleHighlight? c = some h ∧ InKey c d := by
  obtain ⟨x, hx, hd⟩ := Cursor.at?_cons_eq_some.1 hd
  have hdx := ht.le_of_at? (.nth? hc.mem_walk hx) hd
  cases hnoted with
  | @number v k hv hnumber hkey hlocation =>
      have hbyte : h.location.startByte = v.stopByte := by rw [hlocation]; rfl
      rcases lt_trichotomy j k with hlt | rfl | hlt
      · have hinKey := hv.inKey_of_lt hparse hc.mem_walk hkind hx hlt hd hpair
        exact absurd hinKey (not_inKey_of_key? hparse hc.mem_walk hkey hpair)
      · obtain rfl := Option.some.inj (hv.nth.symm.trans hx)
        have hbare : v.node.kind.isBare = true := by rw [hnumber]; rfl
        exact absurd hpair (Tree.kind_ne_pair_of_bare hparse (Tree.mem_walk_of_nth? hc.mem_walk hx)
          hbare hd)
      · have hbehind := ht.stop_le_start hc.mem_walk hv.nth hx hlt
        left
        omega
  | @summary v o k hv hinside _ hsummary hlocation =>
      have hbyte : h.location.startByte = o.startByte := by rw [hlocation]; rfl
      have hinner : t.Inner v := .nth? hc.mem_walk hv.nth
      rcases lt_trichotomy j k with hlt | rfl | hlt
      · exact .inr ⟨hsummary, hv.inKey_of_lt hparse hc.mem_walk hkind hx hlt hd hpair⟩
      · obtain rfl := Option.some.inj (hv.nth.symm.trans hx)
        obtain ⟨b, hb⟩ := hinside.exists_at?_of_pair hparse ht hinner.mem_walk hd hpair
        obtain ⟨way, -, ho⟩ := hinside
        left
        rw [hbyte]
        exact (ht.le_of_at? (hinner.at? ho) hb).1
      · obtain ⟨way, -, ho⟩ := hinside
        have hvo := ht.le_of_at? hinner ho
        have hlt' := ht.start_lt_stop (hinner.at? ho)
        have hbehind := ht.stop_le_start hc.mem_walk hv.nth hx hlt
        left
        omega

end NotedAt

end Parsed

/-! ### All annotations of a script -/

section Annotations

variable {t : Tree} {source : String} {rules : List HighlightRule}

/-- The annotations of a script, each with the member that it belongs to. -/
def annotatedMembers (rules : List HighlightRule) (t : Tree) : List (Cursor × Highlight) :=
  t.walk.flatMap fun c => (annotateMember rules c).map fun h => (c, h)

theorem map_annotatedMembers (rules : List HighlightRule) (t : Tree) :
    (annotatedMembers rules t).map Prod.snd = annotate rules t := by
  simp only [annotatedMembers, annotate, List.map_flatMap, List.map_map]
  exact List.flatMap_congr fun c _ => List.map_id _

theorem mem_annotatedMembers_iff {c : Cursor} {h : Highlight} :
    (c, h) ∈ annotatedMembers rules t ↔ c ∈ t.walk ∧ h ∈ annotateMember rules c := by
  simp [annotatedMembers]

/-- The first annotation stands in front of the second, or it is the summary of a rule, and the
second belongs to a member in the key of this rule. -/
def InOrderButKeys (a b : Cursor × Highlight) : Prop :=
  a.2.location.startByte ≤ b.2.location.startByte ∨
    businessRuleHighlight? a.1 = some a.2 ∧ InKey a.1 b.1

section Parsed

variable (hparse : Tree.parse? source = some t) (ht : t.WellRanged)

include hparse ht

/-- Annotations come in order, but for those that stand in the key of a rule. -/
theorem annotatedMembers_pairwise : (annotatedMembers rules t).Pairwise InOrderButKeys := by
  refine List.pairwise_flatMap.2 ⟨?_, ?_⟩
  · -- at one member all annotations stand at the same place
    intro c hc
    refine List.pairwise_map.2 (List.pairwise_of_forall_mem_list ?_)
    intro h hh h' hh'
    have hlocation := (notedAt_of_mem hparse hc hh).2.location_eq (notedAt_of_mem hparse hc hh').2
    exact .inl (le_of_eq (congrArg Location.startByte hlocation))
  · refine (Tree.walk_pairwise t).imp_of_mem ?_
    intro c d hc hd haddress a ha b hb
    obtain ⟨h, hh, rfl⟩ := List.mem_map.1 ha
    obtain ⟨h', hh', rfl⟩ := List.mem_map.1 hb
    obtain ⟨hckind, hcnoted⟩ := notedAt_of_mem hparse hc hh
    obtain ⟨hdkind, hdnoted⟩ := notedAt_of_mem hparse hd hh'
    have hcinner := inner_of_kind_ne hparse hc (by simp [hckind])
    have hcbounds := hcnoted.bounds ht hcinner
    have hdbounds := hdnoted.bounds ht (inner_of_kind_ne hparse hd (by simp [hdkind]))
    rcases ht.below_or_behind hc hd haddress with ⟨k, a, hbelow⟩ | hbehind
    · rcases hcnoted.le_or_inKey hparse ht hcinner hckind hbelow hdkind with hle | hkey
      · exact .inl (hle.trans hdbounds.1)
      · exact .inr hkey
    · left
      show h.location.startByte ≤ h'.location.startByte
      omega

omit ht in
/-- Where bytes do not decrease, lines do not. -/
theorem line_le_of_startByte_le (hlines : t.LinesInOrder) {h h' : Highlight}
    (hh : h ∈ annotate rules t) (hh' : h' ∈ annotate rules t)
    (hle : h.location.startByte ≤ h'.location.startByte) :
    h.location.start.line ≤ h'.location.start.line := by
  obtain ⟨c, hc, hch⟩ := List.mem_flatMap.1 hh
  obtain ⟨d, hd, hdh⟩ := List.mem_flatMap.1 hh'
  obtain ⟨n, hn, hnends⟩ := (notedAt_of_mem hparse hc hch).2.exists_mem_ends hc
  obtain ⟨m, hm, hmends⟩ := (notedAt_of_mem hparse hd hdh).2.exists_mem_ends hd
  exact hlines n hn m hm _ hnends _ hmends hle

/-- **Annotations come out in the order of the source, but for those in the key of a rule.**  Every
annotation is a point inside the member that it belongs to.  If one is met before another and stands
behind it, it is the summary of a rule, and the other belongs to a member in the key of this rule.
If there is no such annotation, the annotations are in order, and those in view are a run of them
without a gap. -/
theorem annotate_in_source_order (hlines : t.LinesInOrder) (rules : List HighlightRule) :
    (annotatedMembers rules t).map Prod.snd = annotate rules t ∧
    (∀ c h, (c, h) ∈ annotatedMembers rules t → c.node.kind = .pair ∧ h.location.isPoint = true ∧
      c.startByte ≤ h.location.startByte ∧ h.location.startByte ≤ c.stopByte) ∧
    (annotatedMembers rules t).Pairwise InOrderButKeys ∧
    ((∀ c h d h', (c, h) ∈ annotatedMembers rules t → (d, h') ∈ annotatedMembers rules t →
        businessRuleHighlight? c = some h → ¬ InKey c d) →
      (annotate rules t).Pairwise (fun h h' => h.location.startByte ≤ h'.location.startByte) ∧
      ∀ first last, visible (annotate rules t) first last <:+: annotate rules t) := by
  have hpairwise : (annotatedMembers rules t).Pairwise InOrderButKeys :=
    annotatedMembers_pairwise hparse ht
  refine ⟨map_annotatedMembers rules t, ?_, hpairwise, ?_⟩
  · intro c h hmem
    obtain ⟨hc, hh⟩ := mem_annotatedMembers_iff.1 hmem
    obtain ⟨hkind, hnoted⟩ := notedAt_of_mem hparse hc hh
    exact ⟨hkind, hnoted.isPoint,
      hnoted.bounds ht (inner_of_kind_ne hparse hc (by simp [hkind]))⟩
  · intro hkeys
    have hbytes : (annotate rules t).Pairwise
        fun h h' => h.location.startByte ≤ h'.location.startByte := by
      rw [← map_annotatedMembers, List.pairwise_map]
      refine hpairwise.imp_of_mem ?_
      rintro ⟨c, h⟩ ⟨d, h'⟩ hch hdh (hle | ⟨hsummary, hkey⟩)
      · exact hle
      · exact absurd hkey (hkeys c h d h' hch hdh hsummary)
    refine ⟨hbytes, visible_infix ?_⟩
    exact hbytes.imp_of_mem fun hh hh' => line_le_of_startByte_le hparse hlines hh hh'

end Parsed

/-- No key of the script holds a member. -/
def keysHoldNoMember (t : Tree) : Bool :=
  t.walk.all fun x => x.node.role != some .key || x.node.preorder.all (·.kind != .pair)

theorem not_inKey_of_keysHoldNoMember (h : keysHoldNoMember t = true) {c d : Cursor}
    (hc : c ∈ t.walk) (hpair : d.node.kind = .pair) : ¬ InKey c d := by
  rintro ⟨k, x, a, hx, hrole, hd⟩
  have htest := List.all_eq_true.1 h x (Tree.mem_walk_of_nth? hc hx)
  have hnode : x.node.at? a = some d.node := by rw [← Cursor.map_node_at?, hd]; rfl
  have hmem : d.node ∈ x.node.preorder :=
    Node.preorder_subset_of_at? hnode (Node.mem_preorder_self _)
  simp only [hrole, bne_self_eq_false, Bool.false_or, List.all_eq_true] at htest
  simpa [hpair] using htest d.node hmem

/-- The rule that names fives, and the rule for business rules. -/
def fiveRules : List HighlightRule := [.value ⟨"n", [("FIVE", 5)], none⟩, .businessRule]

/-- A rule in parentheses under a computed key, with a five inside it and another behind it. -/
def computedKey : String :=
  "x=\x7bbusinessRules:\x7bA:\x7b[k]:(\x7buId:'r',n:5\x7d),n:5\x7d\x7d\x7d"

theorem annotate_in_source_order_computedKey : ∃ t, Tree.parse? computedKey = some t ∧
    t.WellRanged ∧ t.LinesInOrder ∧
    (annotate fiveRules t).map (·.location.startByte) = [26, 38, 44] ∧
    (annotate fiveRules t).Pairwise (fun h h' => h.location.startByte ≤ h'.location.startByte) ∧
    visible (annotate fiveRules t) 1 1 <:+: annotate fiveRules t := by
  have hsource : (Tree.parse? computedKey).any (fun t => decide t.WellRanged &&
      decide t.LinesInOrder && keysHoldNoMember t &&
      (annotate fiveRules t).map (·.location.startByte) == [26, 38, 44]) = true := by
    decide +kernel
  obtain ⟨t, hparse, h⟩ := (Option.any_eq_true _ _).1 hsource
  simp only [Bool.and_eq_true, decide_eq_true_eq, beq_iff_eq] at h
  obtain ⟨⟨⟨ht, hlines⟩, hkeys⟩, hbytes⟩ := h
  obtain ⟨-, hmembers, -, hordered⟩ := annotate_in_source_order hparse ht hlines fiveRules
  obtain ⟨hpairwise, hvisible⟩ := hordered fun c h d h' hc hd _ =>
    not_inKey_of_keysHoldNoMember hkeys (mem_annotatedMembers_iff.1 hc).1 (hmembers d h' hd).1
  exact ⟨t, hparse, ht, hlines, hbytes, hpairwise, hvisible 1 1⟩

/-- A rule under a key that is computed from an object with a five. -/
def fiveInKey : String :=
  "x=\x7bbusinessRules:\x7bA:\x7b[\x7bn:5\x7d]:\x7buId:'r'\x7d\x7d\x7d\x7d"

/-- The summary of the rule is met first and stands behind the five. -/
theorem annotate_out_of_order_fiveInKey : ∃ t, Tree.parse? fiveInKey = some t ∧
    t.WellRanged ∧ t.LinesInOrder ∧
    (annotate fiveRules t).map (·.location.startByte) = [29, 26] ∧
    ¬ (annotate fiveRules t).Pairwise
      (fun h h' => h.location.startByte ≤ h'.location.startByte) := by
  have hsource : (Tree.parse? fiveInKey).any (fun t => decide t.WellRanged &&
      decide t.LinesInOrder &&
      (annotate fiveRules t).map (·.location.startByte) == [29, 26]) = true := by
    decide +kernel
  obtain ⟨t, hparse, h⟩ := (Option.any_eq_true _ _).1 hsource
  simp only [Bool.and_eq_true, decide_eq_true_eq, beq_iff_eq] at h
  obtain ⟨⟨ht, hlines⟩, hbytes⟩ := h
  refine ⟨t, hparse, ht, hlines, hbytes, fun hpairwise => ?_⟩
  have hordered := List.pairwise_map.2 hpairwise
  rw [hbytes] at hordered
  revert hordered
  decide

end Annotations

end SchemaScope
