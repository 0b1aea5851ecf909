/-
**Two ways to the summary of a business rule.**

The outline comes to a business rule from above: from the section to the member that holds a group
of rules, through any parentheses to the rule itself, and the key of that member is the attribute
that the rule is declared on.  The annotator meets the rule on its walk and looks up: from the
member that writes the rule to the literal around it, and from there to its parent.  This parent is
the member that holds the group, unless the group stands in parentheses.  Then it has no key, and
the summary is made for an attribute of unknown name.

Main definitions:

* `RuleWritten` — a rule that the outline lists, and the nodes that write it and its group.

Main results:

* `RuleWritten.exists_member` — the member that writes the rule, and what the annotator sees from
  it;
* `eq_of_highlight_location_eq` — annotations of rules at the same place belong to the same member;
* `rule_annotated_as_listed_iff` — **when a rule is annotated with the summary that the outline
  shows**.
-/

import SchemaScope.Highlight
import SchemaScope.Proofs.Schema.Sites

set_option autoImplicit false

namespace SchemaScope

open Script Platform Schema

/-! ### Looking up -/

namespace Script.Cursor

variable {c d : Cursor}

theorem enclosing_subset_of_at? {a : List Nat} (h : c.at? a = some d) :
    c.enclosing ⊆ d.enclosing := by
  induction a generalizing c with
  | nil =>
      cases h
      exact fun _ h => h
  | cons k a ih =>
      obtain ⟨e, he, hd⟩ := at?_cons_eq_some.1 h
      refine List.Subset.trans ?_ (ih hd)
      rw [enclosing_of_nth? he]
      exact List.subset_cons_self _ _

/-- What stands properly above a place is met on the way up. -/
theorem mem_enclosing_of_at? {k : Nat} {a : List Nat} (h : c.at? (k :: a) = some d) :
    c ∈ d.enclosing := by
  obtain ⟨e, he, hd⟩ := at?_cons_eq_some.1 h
  apply enclosing_subset_of_at? hd
  rw [enclosing_of_nth? he]
  exact List.mem_cons_self

theorem Inside.eq_of_kind_ne (h : c.Inside d) (hkind : c.node.kind ≠ .parenthesized) : d = c := by
  obtain ⟨a, ha, hd⟩ := h
  cases ha with
  | bare _ => exact (Option.some.inj hd).symm
  | parenthesized hparenthesized => exact absurd hparenthesized hkind

/-- Inside parentheses, the parent is a pair of parentheses. -/
theorem Inside.exists_parent? (h : c.Inside d) (hkind : c.node.kind = .parenthesized) :
    ∃ p, d.parent? = some p ∧ p.node.kind = .parenthesized := by
  obtain ⟨a, ha, hd⟩ := h
  generalize hn : c.node = n at ha
  induction ha generalizing c with
  | bare hne =>
      rw [hn] at hkind
      exact absurd hkind hne
  | @parenthesized n e k a hparenthesized _ hk he ih =>
      obtain ⟨x, hx, hd⟩ := at?_cons_eq_some.1 hd
      have hnode := (nth?_eq_some.1 hx).1
      rw [hn, hk, Option.some.injEq] at hnode
      cases he with
      | bare _ =>
          cases hd
          exact ⟨c, parent?_of_nth? hx, hkind⟩
      | parenthesized hinner _ _ _ => exact ih (hnode ▸ hinner) hd hnode.symm

end Script.Cursor

theorem Script.Node.key?_eq_none {n : Node} (h : n.kind ≠ .pair) : n.key? = none := by
  rw [key?, if_neg h]

/-! ### How rules are written -/

/-- A rule that the outline lists in a group, and how both are written: `group` is the value of
the member that writes the group, as it stands, and `object` is the literal that writes the rule. -/
inductive RuleWritten (t : Tree) (g : RuleGroup) (r : Rule) (group object : Node) : Prop
  | written {l : Located} {groupPair rulePair value : Node}
      (hsection : locatedObject? t "businessRules" = some l)
      (hgroupPair : groupPair ∈ l.value.pairs) (hg : RuleGroup.ofPair? groupPair = some g)
      (hgroup : groupPair.child? .value = some group)
      (hrulePair : rulePair ∈ group.unwrapped.pairs)
      (hr : Rule.ofPair? g.attributeName rulePair = some r)
      (hvalue : rulePair.child? .value = some value) (hobject : value.unwrapped = object)

variable {t : Tree} {g : RuleGroup} {r : Rule}

theorem Schema.BusinessRule.kind_of_ofNode? {n : Node} {rule : BusinessRule}
    (h : BusinessRule.ofNode? n = some rule) : n.kind = .object := by
  simp only [ofNode?, Option.bind_eq_bind, Option.bind_eq_some_iff] at h
  obtain ⟨uid, -, h⟩ := h
  by_contra hkind
  simp [hkind] at h

/-- Every rule that the outline lists is written somewhere. -/
theorem exists_ruleWritten {s : Section} {groups : List RuleGroup}
    (hs : Section.businessRules? t = some s) (hcontent : s.content = .businessRules groups)
    (hg : g ∈ groups) (hr : r ∈ g.rules) : ∃ group object, RuleWritten t g r group object := by
  simp only [Section.businessRules?, Section.ofMember?, Option.map_eq_some_iff] at hs
  obtain ⟨l, hl, rfl⟩ := hs
  cases hcontent
  obtain ⟨groupPair, hgroupPair, hofPair⟩ := List.mem_filterMap.1 hg
  obtain ⟨-, group, hgroup, hrules, -⟩ := RuleGroup.ofPair?_eq_some_iff.1 hofPair
  rw [hrules] at hr
  obtain ⟨rulePair, hrulePair, hrule⟩ := List.mem_filterMap.1 hr
  obtain ⟨value, hvalue, -⟩ := Rule.ofPair?_eq_some_iff.1 hrule
  exact ⟨group, value.unwrapped, .written hl hgroupPair hofPair hgroup hrulePair hrule hvalue rfl⟩

/-! ### What the annotator sees -/

theorem mem_annotate_businessRule_iff {h : Highlight} : h ∈ annotate [.businessRule] t ↔
    ∃ c ∈ t.walk, c.node.kind = .pair ∧ businessRuleHighlight? c = some h := by
  simp only [annotate, List.mem_flatMap, annotateMember]
  refine exists_congr fun c => and_congr_right fun _ => ?_
  split
  · next hkind => simp [hkind, HighlightRule.highlight?]
  · next hkind => simp [hkind]

/-- What is annotated at a member. -/
theorem businessRuleHighlight?_eq_some_iff {c : Cursor} {h : Highlight} :
    businessRuleHighlight? c = some h ↔ ∃ value rule, c.node.child? .value = some value ∧
      BusinessRule.ofNode? value.unwrapped = some rule ∧ isInside "businessRules" c = true ∧
      h = ⟨rule.describe (owningAttribute c), value.unwrapped.location.startPoint⟩ := by
  simp only [businessRuleHighlight?, Option.bind_eq_bind, Option.bind_eq_some_iff,
    Option.ite_none_right_eq_some, Option.some.injEq]
  constructor
  · rintro ⟨value, hvalue, rule, hrule, hinside, rfl⟩
    exact ⟨value, rule, hvalue, hrule, hinside, rfl⟩
  · rintro ⟨value, rule, hvalue, hrule, hinside, rfl⟩
    exact ⟨value, hvalue, rule, hrule, hinside, rfl⟩

section Parsed

variable {source : String} (hparse : Tree.parse? source = some t)

include hparse

/-- The member that writes a rule.  The annotator finds the attribute of the rule above it, unless
the group of the rule stands in parentheses. -/
theorem RuleWritten.exists_member {group object : Node} (h : RuleWritten t g r group object) :
    ∃ c ∈ t.walk, c.node.kind = .pair ∧ r.description = r.rule.describe g.attributeName ∧
      owningAttribute c = (if group.kind = .parenthesized then unknown else g.attributeName) ∧
      businessRuleHighlight? c =
        some ⟨r.rule.describe (owningAttribute c), object.location.startPoint⟩ := by
  cases h with
  | @written l groupPair rulePair value hsection hgroupPair hg hgroup hrulePair hr hvalue hobject =>
    subst hobject
    obtain ⟨hl, -⟩ := Option.filter_eq_some_iff.1 hsection
    -- from the section down to the member that writes the group
    obtain ⟨top, htop, hmember, -, o, ho, htopvalue, honode⟩ := exists_member_of_located? hparse hl
    rw [← honode] at hgroupPair
    obtain ⟨groupMember, j, -, rfl, htoplists⟩ := htopvalue.exists_lists_of_mem_pairs hgroupPair
    have hgroupMember := htoplists.mem_walk htop
    obtain ⟨-, -, hgroupKind, -⟩ := mem_pairs_iff.1 hgroupPair
    obtain ⟨hkey, -⟩ := RuleGroup.ofPair?_eq_some_iff.1 hg
    -- and on to the member that writes the rule
    obtain ⟨v, o', k, hv, rfl, hinside, -, hgroupvalue⟩ :=
      exists_valueAt hparse hgroupMember hgroupKind hgroup
    rw [← hinside.node_eq] at hrulePair
    obtain ⟨member, j', hj', rfl, hlists⟩ := hgroupvalue.exists_lists_of_mem_pairs hrulePair
    obtain ⟨-, -, hkind, -⟩ := mem_pairs_iff.1 hrulePair
    obtain ⟨value', hvalue', hrule, hdescription, -⟩ := Rule.ofPair?_eq_some_iff.1 hr
    obtain rfl : value = value' := Option.some.inj (hvalue.symm.trans hvalue')
    refine ⟨member, hlists.mem_walk hgroupMember, hkind, hdescription, ?_, ?_⟩
    · rw [owningAttribute, Cursor.parent?_of_nth? hj', Option.bind_some]
      by_cases hparenthesized : v.node.kind = .parenthesized
      · obtain ⟨p, hp, hpkind⟩ := hinside.exists_parent? hparenthesized
        rw [if_pos hparenthesized, hp, Option.bind_some, Node.key?_eq_none (by simp [hpkind])]
        rfl
      · rw [if_neg hparenthesized, hinside.eq_of_kind_ne hparenthesized, Cursor.parent?_of_nth? hv,
          Option.bind_some, hkey]
        rfl
    · refine businessRuleHighlight?_eq_some_iff.2 ⟨value, r.rule, hvalue, hrule, ?_, rfl⟩
      obtain ⟨k₁, a₁, hat₁⟩ := htoplists.exists_at?
      obtain ⟨k₂, a₂, hat₂⟩ := hlists.exists_at?
      have habove : top ∈ member.enclosing :=
        Cursor.enclosing_subset_of_at? hat₂ (Cursor.mem_enclosing_of_at? hat₁)
      have htopkey : top.node.key? = some "businessRules" := by
        simp only [isTopLevelMember, Bool.and_eq_true, beq_iff_eq] at hmember
        exact hmember.1.2
      exact List.any_eq_true.2 ⟨top, habove, by simp [htopkey]⟩

/-- Annotations of rules at the same place belong to the same member: the literals that write the
rules start behind every literal above them. -/
theorem eq_of_highlight_location_eq (ht : t.WellRanged) {c d : Cursor} {h h' : Highlight}
    (hc : c ∈ t.walk) (hckind : c.node.kind = .pair) (hch : businessRuleHighlight? c = some h)
    (hd : d ∈ t.walk) (hdkind : d.node.kind = .pair) (hdh : businessRuleHighlight? d = some h')
    (hlocation : h.location = h'.location) : c = d := by
  obtain ⟨value, rule, hvalue, hrule, -, rfl⟩ := businessRuleHighlight?_eq_some_iff.1 hch
  obtain ⟨value', rule', hvalue', hrule', -, rfl⟩ := businessRuleHighlight?_eq_some_iff.1 hdh
  obtain ⟨v, o, k, -, rfl, hinside, -, hat⟩ := exists_valueAt hparse hc hckind hvalue
  obtain ⟨v', o', k', -, rfl, hinside', -, hat'⟩ := exists_valueAt hparse hd hdkind hvalue'
  rw [← hinside.node_eq] at hrule hlocation
  rw [← hinside'.node_eq] at hrule' hlocation
  have hsite : ∀ p : Cursor, p.node.kind = .object → p.node.kind ≠ .parenthesized := by
    intro p hp
    simp [hp]
  have hanchored := hat.anchored (inner_of_kind_ne hparse hc (by simp [hckind])) hsite
  have hanchored' := hat'.anchored (inner_of_kind_ne hparse hd (by simp [hdkind])) hsite
  have hbyte : o.startByte = o'.startByte := (Location.mk.inj hlocation).2.2.1
  obtain rfl := hanchored.eq_of_startByte_eq ht hanchored' (BusinessRule.kind_of_ofNode? hrule)
    (BusinessRule.kind_of_ofNode? hrule') hbyte
  exact hat.unique hat'

/-- **When a rule is annotated with the summary that the outline shows.**  Every rule of the outline
is written somewhere.  If its group does not stand in parentheses, the rule is annotated at the
start of its literal with the summary of the outline.  If its group does, it is so exactly if the
summary does not depend on the name of the attribute, that is, if it is also the summary for an
attribute of unknown name. -/
theorem rule_annotated_as_listed_iff :
    (∀ s groups, Section.businessRules? t = some s → s.content = .businessRules groups →
      ∀ g ∈ groups, ∀ r ∈ g.rules, ∃ group object, RuleWritten t g r group object) ∧
    ∀ g r group object, RuleWritten t g r group object →
      (group.kind ≠ .parenthesized →
        ⟨r.description, object.location.startPoint⟩ ∈ annotate [.businessRule] t) ∧
      (group.kind = .parenthesized → t.WellRanged →
        (⟨r.description, object.location.startPoint⟩ ∈ annotate [.businessRule] t ↔
          r.rule.describe unknown = r.description)) := by
  refine ⟨fun s groups hs hcontent g hg r hr => exists_ruleWritten hs hcontent hg hr, ?_⟩
  intro g r group object hwritten
  obtain ⟨c, hc, hkind, hdescription, howner, hhighlight⟩ := hwritten.exists_member hparse
  rw [howner] at hhighlight
  constructor
  · intro hbare
    rw [if_neg hbare, ← hdescription] at hhighlight
    exact mem_annotate_businessRule_iff.2 ⟨c, hc, hkind, hhighlight⟩
  · intro hparenthesized ht
    rw [if_pos hparenthesized] at hhighlight
    rw [mem_annotate_businessRule_iff]
    constructor
    · rintro ⟨d, hd, hdkind, hdhighlight⟩
      obtain rfl :=
        eq_of_highlight_location_eq hparse ht hc hkind hhighlight hd hdkind hdhighlight rfl
      have hsame := hhighlight.symm.trans hdhighlight
      exact congrArg Highlight.name (Option.some.inj hsame)
    · intro hsame
      exact ⟨c, hc, hkind, by rw [hhighlight, hsame]⟩

end Parsed

/-- Whether some rule of the script, together with the value that holds its group, passes a test. -/
def someRule (test : Node → Rule → Bool) (t : Tree) : Bool :=
  (locatedObject? t "businessRules").any fun l => l.value.pairs.any fun groupPair =>
    (RuleGroup.ofPair? groupPair).any fun g => (groupPair.child? .value).any fun group =>
      group.unwrapped.pairs.any fun rulePair =>
        (Rule.ofPair? g.attributeName rulePair).any fun r =>
          (rulePair.child? .value).isSome && test group r

theorem exists_ruleWritten_of_someRule {test : Node → Rule → Bool} (h : someRule test t = true) :
    ∃ g r group object, RuleWritten t g r group object ∧ test group r = true := by
  simp only [someRule, Option.any_eq_true, List.any_eq_true, Bool.and_eq_true] at h
  obtain ⟨l, hl, groupPair, hgroupPair, g, hg, group, hgroup, rulePair, hrulePair, r, hr, hvalue,
    htest⟩ := h
  obtain ⟨value, hvalue⟩ := Option.isSome_iff_exists.1 hvalue
  exact ⟨g, r, group, value.unwrapped,
    .written hl hgroupPair hg hgroup hrulePair hr hvalue rfl, htest⟩

/-- A page with two groups of one rule each, the second group in parentheses. -/
def guardedRules : String :=
  "define('P', [], () => \x7b return \x7b businessRules: \x7b " ++
    "A: \x7b r: \x7b uId: 'r' \x7d \x7d, " ++
    "B: (\x7b r: \x7b uId: 's', ruleType: 1, type: 0, value: 5 \x7d \x7d) \x7d \x7d \x7d)"

/-- On this page the first rule is annotated as the outline shows it, and the second is not. -/
theorem rule_annotated_as_listed_iff_guardedRules :
    ∃ t, Tree.parse? guardedRules = some t ∧ t.WellRanged ∧
      (∃ g r group object, RuleWritten t g r group object ∧ group.kind ≠ .parenthesized ∧
        ⟨r.description, object.location.startPoint⟩ ∈ annotate [.businessRule] t) ∧
      ∃ g r group object, RuleWritten t g r group object ∧ group.kind = .parenthesized ∧
        ⟨r.description, object.location.startPoint⟩ ∉ annotate [.businessRule] t := by
  have hpage : (Tree.parse? guardedRules).any (fun t => decide t.WellRanged &&
      someRule (fun group _ => group.kind != .parenthesized) t &&
      someRule (fun group r => group.kind == .parenthesized &&
        r.rule.describe unknown != r.description) t) = true := by decide +kernel
  obtain ⟨t, hparse, h⟩ := (Option.any_eq_true _ _).1 hpage
  simp only [Bool.and_eq_true, decide_eq_true_eq] at h
  obtain ⟨⟨ht, hbare⟩, hparenthesized⟩ := h
  obtain ⟨g, r, group, object, hwritten, hkind⟩ := exists_ruleWritten_of_someRule hbare
  obtain ⟨g', r', group', object', hwritten', htest⟩ :=
    exists_ruleWritten_of_someRule hparenthesized
  simp only [bne_iff_ne, Bool.and_eq_true, beq_iff_eq] at hkind htest
  have hannotated := (rule_annotated_as_listed_iff hparse).2
  refine ⟨t, hparse, ht, ⟨g, r, group, object, hwritten, hkind, ?_⟩,
    g', r', group', object', hwritten', htest.1, ?_⟩
  · exact (hannotated g r group object hwritten).1 hkind
  · exact fun hmem => htest.2 (((hannotated g' r' group' object' hwritten').2 htest.1 ht).1 hmem)

end SchemaScope
