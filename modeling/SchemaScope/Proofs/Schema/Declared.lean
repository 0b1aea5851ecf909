/-
**What counterparts declare.**

Messages, details, rules and changes of the layout are read off values without the parentheses
around them.  So a member and its counterpart in a tree with more parentheses declare the same,
places aside, and so do the literals that list them.  Only what is shown as it is written must have
been written the same.  The dependencies of the module are read off its arguments, which are left
alone.

Main definitions:

* `Section.unplaced` — a section without its places, and the same for all that a section lists;
* `Section.fadedAt` — a section without the tooltip of one of its plain items.

Main results:

* `filterMap_eq_filterMap_iff` — what two lists yield, place by place;
* `messages_unplaced_eq`, `details_unplaced_eq`, `businessRules_unplaced_eq`, `layout_unplaced_eq` —
  **what counterparts list**;
* `dependencies?_unplaced_eq` — the dependencies of the module.
-/

import SchemaScope.Proofs.Schema.Counterparts
import SchemaScope.Proofs.Schema.Bindings

set_option autoImplicit false

namespace SchemaScope

open Script Script.Node

/-! ### Lists read side by side -/

/-- Where one list yields something exactly if the other does, they yield the same as a whole if
they do so place by place. -/
theorem filterMap_eq_filterMap_iff {α β : Type} {f g : α → Option β} {l l' : List α}
    (h : List.Forall₂ (fun x y => (g y).isSome = (f x).isSome) l l') :
    l'.filterMap g = l.filterMap f ↔ List.Forall₂ (fun x y => g y = f x) l l' := by
  induction h with
  | nil => simp
  | @cons x y l l' hxy _ ih =>
      rw [List.forall₂_cons]
      cases hx : f x with
      | none =>
          rw [hx, Option.isSome_none, Option.isSome_eq_false_iff, Option.isNone_iff_eq_none] at hxy
          rw [List.filterMap_cons_none hx, List.filterMap_cons_none hxy, ih, hxy]
          simp
      | some b =>
          rw [hx, Option.isSome_some, Option.isSome_iff_exists] at hxy
          obtain ⟨b', hy⟩ := hxy
          rw [List.filterMap_cons_some hx, List.filterMap_cons_some hy, List.cons.injEq, ih, hy,
            Option.some.injEq]

theorem filterMap_eq_filterMap_of_forall₂ {α β : Type} {R : α → α → Prop} {f g : α → Option β}
    {l l' : List α} (h : List.Forall₂ R l l') (hfg : ∀ x ∈ l, ∀ y, R x y → g y = f x) :
    l'.filterMap g = l.filterMap f := by
  have hsame : List.Forall₂ (fun x y => g y = f x) l l' :=
    ((List.forall₂_and_left l l').2 ⟨fun _ hx => hx, h⟩).imp fun x y hxy => hfg x hxy.1 y hxy.2
  exact (filterMap_eq_filterMap_iff (hsame.imp fun _ _ hxy => by rw [hxy])).2 hsame

/-- Where two lists yield the same in all places but one, and a changed entry there, the lists that
they yield are the same but for this entry. -/
theorem exists_filterMap_eq_modify {α β : Type} {f g : α → Option β} {change : β → β}
    {l l' : List α} {d : Nat} (hlength : l.length = l'.length)
    (h : ∀ (i : Nat) (x y : α), l[i]? = some x → l'[i]? = some y →
      g y = f x ∨ i = d ∧ g y = (f x).map change) :
    ∃ k, l'.filterMap g = (l.filterMap f).modify k change := by
  induction l generalizing l' d with
  | nil => exact ⟨0, by rw [List.eq_nil_of_length_eq_zero hlength.symm]; rfl⟩
  | cons x l ih =>
      obtain ⟨y, l', rfl⟩ := List.exists_cons_of_length_eq_add_one hlength.symm
      have hlength' : l.length = l'.length := Nat.succ.inj hlength
      rcases h 0 x y rfl rfl with hsame | ⟨rfl, hchanged⟩
      · obtain ⟨k, hk⟩ := ih (d := d - 1) hlength' fun i x' y' hx' hy' =>
          (h (i + 1) x' y' hx' hy').imp id fun hi => ⟨by omega, hi.2⟩
        cases hx : f x with
        | none =>
            rw [List.filterMap_cons_none hx, List.filterMap_cons_none (hsame.trans hx)]
            exact ⟨k, hk⟩
        | some b =>
            rw [List.filterMap_cons_some hx, List.filterMap_cons_some (hsame.trans hx), hk]
            exact ⟨k + 1, rfl⟩
      · -- behind the place, everything is the same
        have hrest : l'.filterMap g = l.filterMap f := by
          refine filterMap_eq_filterMap_of_forall₂ (R := fun x y => g y = f x)
            (List.forall₂_iff_get.2 ⟨hlength', fun i hi hi' => ?_⟩) fun _ _ _ hxy => hxy
          have hplace := h (i + 1) _ _ (List.getElem?_eq_getElem hi) (List.getElem?_eq_getElem hi')
          refine hplace.resolve_right ?_
          rintro ⟨hi, -⟩
          cases hi
        cases hx : f x with
        | none =>
            rw [hx] at hchanged
            rw [List.filterMap_cons_none hx, List.filterMap_cons_none hchanged, hrest]
            exact ⟨l.length, (List.modify_eq_self (List.length_filterMap_le f l)).symm⟩
        | some b =>
            rw [hx] at hchanged
            rw [List.filterMap_cons_some hx, List.filterMap_cons_some hchanged, hrest]
            exact ⟨0, rfl⟩

namespace Schema

/-! ### Sections without places -/

/-- The name without its place. -/
def Named.unplaced (n : Named) : Named := { n with location := default }

/-- The dependency without its place. -/
def Dependency.unplaced (d : Dependency) : Dependency :=
  { d with location := d.location.map fun _ => default }

/-- The item without its place. -/
def Item.unplaced (i : Item) : Item := { i with location := default }

/-- The item without its tooltip. -/
def Item.untipped (i : Item) : Item := { i with tooltip := none }

/-- The detail without its place. -/
def Detail.unplaced (d : Detail) : Detail := { d with location := default }

/-- The message without its place. -/
def Message.unplaced (m : Message) : Message := { m with location := default }

/-- The messages of a direction without their places. -/
def MessageGroup.unplaced (g : MessageGroup) : MessageGroup :=
  { g with messages := g.messages.map Message.unplaced }

/-- The rule without its place. -/
def Rule.unplaced (r : Rule) : Rule := { r with location := default }

/-- The rules on an attribute without their places. -/
def RuleGroup.unplaced (g : RuleGroup) : RuleGroup :=
  { g with rules := g.rules.map Rule.unplaced, location := default }

/-- The change without its place. -/
def LayoutEntry.unplaced (e : LayoutEntry) : LayoutEntry := { e with location := default }

/-- The changes of an operation without their places. -/
def LayoutGroup.unplaced (g : LayoutGroup) : LayoutGroup :=
  { g with entries := g.entries.map LayoutEntry.unplaced }

/-- What a section lists, without places. -/
def Content.unplaced : Content → Content
  | .dependencies items => .dependencies (items.map Dependency.unplaced)
  | .mixins items => .mixins (items.map Item.unplaced)
  | .messages groups => .messages (groups.map MessageGroup.unplaced)
  | .attributes items => .attributes (items.map Item.unplaced)
  | .details items => .details (items.map Detail.unplaced)
  | .methods items => .methods (items.map Item.unplaced)
  | .businessRules groups => .businessRules (groups.map RuleGroup.unplaced)
  | .layout groups => .layout (groups.map LayoutGroup.unplaced)

/-- What a section lists, without the tooltip of the plain item at a position, if there is one. -/
def Content.fadedAt (k : Nat) : Content → Content
  | .mixins items => .mixins (items.modify k Item.untipped)
  | .attributes items => .attributes (items.modify k Item.untipped)
  | .methods items => .methods (items.modify k Item.untipped)
  | content => content

/-- A section without its places. -/
def Section.unplaced (s : Section) : Section := ⟨s.content.unplaced, default⟩

/-- A section without the tooltip of the plain item at a position. -/
def Section.fadedAt (k : Nat) (s : Section) : Section := ⟨s.content.fadedAt k, s.location⟩

/-! ### What counterparts declare -/

section Declared

variable {quoted : Node → Prop} {n n' : Node}

theorem symbol?_eq (h : Kin quoted n n') (key : String) : symbol? n' key = symbol? n key := by
  unfold symbol?
  rcases h.property?_cases key with ⟨hv, hv'⟩ | ⟨v, v', hv, hv', hvalue⟩
  · rw [hv, hv']
  · rw [hv, hv']
    simp only [Option.bind_eq_bind, Option.bind_some, hvalue.stringValue?_eq, hvalue.memberPath?_eq]

theorem Caption.ofNode?_eq (h : Kin quoted n n') (stringIsKey : Bool) :
    Caption.ofNode? stringIsKey n' = Caption.ofNode? stringIsKey n := by
  unfold Caption.ofNode?
  rw [h.kind_eq, h.stringValue?_eq, h.memberPath?_eq, h.propertyString?_eq]

theorem attributeType?_eq (h : Kin quoted n n') : attributeType? n' = attributeType? n := by
  unfold attributeType?
  rcases h.property?_cases "dataValueType" with ⟨hv, hv'⟩ | ⟨v, v', hv, hv', hvalue⟩
  · rw [hv, hv']
  · rw [hv, hv']
    simp only [Option.bind_eq_bind, Option.bind_some, hvalue.numberValue?_eq, hvalue.memberPath?_eq]

theorem parameterText?_eq (h : Kin quoted n n')
    (hquoted : n.isFunctionLiteral = true → ∀ p, n.child? .parameters = some p → quoted p) :
    parameterText? n' = parameterText? n := by
  unfold parameterText?
  rw [h.isFunctionLiteral_eq]
  split
  · next hfunction =>
    rcases h.child?_cases .parameters with ⟨hp, hp'⟩ | ⟨p, p', hp, hp', hchild, hrole⟩
    · rw [hp, hp']
    · have halike := (hchild.kin_of_role hrole (by simp)).alike_of_closed
        (.inr (hquoted hfunction p hp))
      rw [hp, hp', Option.map_some, Option.map_some, halike.text]
  · rfl

theorem Message.ofPair?_eq (h : Kin quoted n n') :
    (Message.ofPair? n').map unplaced = (Message.ofPair? n).map unplaced := by
  unfold Message.ofPair?
  rcases h.child?_cases .value with ⟨hv, hv'⟩ | ⟨v, v', hv, hv', hchild, -⟩
  · rw [hv, hv']
    rfl
  · rw [hv, hv']
    simp only [Option.bind_eq_bind, Option.bind_some, symbol?_eq hchild.unwrapped, h.key?_eq]
    cases (symbol? v.unwrapped "direction").bind Direction.ofName? with
    | none => rfl
    | some direction => cases n.key? <;> rfl

theorem Detail.ofPair?_eq (h : Kin quoted n n') (lookup : CaptionLookup) :
    (Detail.ofPair? lookup n').map unplaced = (Detail.ofPair? lookup n).map unplaced := by
  unfold Detail.ofPair?
  rcases h.child?_cases .value with ⟨hv, hv'⟩ | ⟨v, v', hv, hv', hchild, -⟩
  · rw [hv, hv']
    rfl
  · have hcaption : (v'.unwrapped.property? "captionName").bind (Caption.ofNode? true) =
        (v.unwrapped.property? "captionName").bind (Caption.ofNode? true) := by
      rcases hchild.unwrapped.property?_cases "captionName" with ⟨hc, hc'⟩ | ⟨c, c', hc, hc', hkin⟩
      · rw [hc, hc']
      · rw [hc, hc']
        exact Caption.ofNode?_eq hkin true
    rw [hv, hv']
    simp only [Option.bind_eq_bind, Option.bind_some, hcaption, hchild.unwrapped.propertyString?_eq,
      h.key?_eq]
    cases n.key? <;> rfl

/-- A rule says the same, if its value is written the same. -/
theorem BusinessRule.ofNode?_eq (h : Kin quoted n n')
    (hquoted : ∀ v, n.property? "value" = some v → quoted v) :
    BusinessRule.ofNode? n' = BusinessRule.ofNode? n := by
  have hvalue : (n'.property? "value").map (·.text) = (n.property? "value").map (·.text) := by
    rcases h.property?_cases "value" with ⟨hv, hv'⟩ | ⟨v, v', hv, hv', hkin⟩
    · rw [hv, hv']
    · have halike := hkin.alike_of_closed (.inr (hquoted v hv))
      rw [hv, hv', Option.map_some, Option.map_some, halike.text]
  unfold BusinessRule.ofNode?
  simp only [h.propertyString?_eq, h.propertyInteger?_eq, h.kind_eq, hvalue]

theorem Rule.ofPair?_eq (h : Kin quoted n n') (attributeName : String)
    (hquoted : ∀ c, n.child? .value = some c → ∀ v, c.unwrapped.property? "value" = some v →
      quoted v) :
    (Rule.ofPair? attributeName n').map unplaced = (Rule.ofPair? attributeName n).map unplaced := by
  unfold Rule.ofPair?
  rcases h.child?_cases .value with ⟨hv, hv'⟩ | ⟨v, v', hv, hv', hchild, -⟩
  · rw [hv, hv']
    rfl
  · rw [hv, hv']
    simp only [Option.bind_eq_bind, Option.bind_some,
      BusinessRule.ofNode?_eq hchild.unwrapped (hquoted v hv)]
    cases BusinessRule.ofNode? v.unwrapped <;> rfl

theorem LayoutEntry.ofNode?_eq (h : Kin quoted n n') (lookup : CaptionLookup) :
    (LayoutEntry.ofNode? lookup n').map unplaced = (LayoutEntry.ofNode? lookup n).map unplaced := by
  have hcaption : LayoutEntry.caption? n' = LayoutEntry.caption? n := by
    unfold LayoutEntry.caption?
    rcases h.property?_cases "values" with ⟨hv, hv'⟩ | ⟨v, v', hv, hv', hkin⟩
    · rw [hv, hv']
    · rw [hv, hv']
      simp only [Option.bind_eq_bind, Option.bind_some]
      rcases hkin.property?_cases "caption" with ⟨hc, hc'⟩ | ⟨c, c', hc, hc', hcaption⟩
      · rcases hkin.property?_cases "captionValue" with ⟨hd, hd'⟩ | ⟨d, d', hd, hd', hcaption⟩
        · rw [hc, hc', hd, hd']
        · rw [hc, hc', hd, hd']
          exact Caption.ofNode?_eq hcaption false
      · rw [hc, hc']
        exact Caption.ofNode?_eq hcaption false
  unfold LayoutEntry.ofNode?
  simp only [h.propertyString?_eq, hcaption, Option.bind_eq_bind]
  cases (n.propertyString? "operation").bind Operation.ofName? with
  | none => rfl
  | some operation => cases n.propertyString? "name" <;> rfl

theorem RuleGroup.ofPair?_eq (h : Kin quoted n n')
    (hquoted : ∀ v, n.child? .value = some v → ∀ rule ∈ v.unwrapped.pairs,
      ∀ c, rule.child? .value = some c → ∀ e, c.unwrapped.property? "value" = some e → quoted e) :
    (RuleGroup.ofPair? n').map unplaced = (RuleGroup.ofPair? n).map unplaced := by
  unfold RuleGroup.ofPair?
  rw [h.key?_eq]
  cases n.key? with
  | none => rfl
  | some attributeName =>
      rcases h.child?_cases .value with ⟨hv, hv'⟩ | ⟨v, v', hv, hv', hchild, -⟩
      · rw [hv, hv']
        rfl
      · have hrules :
            (v'.unwrapped.pairs.filterMap (Rule.ofPair? attributeName)).map Rule.unplaced =
              (v.unwrapped.pairs.filterMap (Rule.ofPair? attributeName)).map Rule.unplaced := by
          rw [List.map_filterMap, List.map_filterMap]
          exact filterMap_eq_filterMap_of_forall₂ hchild.unwrapped.pairs fun rule hmem _ hkin =>
            Rule.ofPair?_eq hkin attributeName (hquoted v hv rule hmem)
        rw [hv, hv']
        simp only [Option.bind_eq_bind, Option.bind_some, Option.pure_def, Option.map_some,
          unplaced, hrules]

/-! ### What counterparts list -/

theorem groupMessages_map_unplaced (messages : List Message) :
    (groupMessages messages).map MessageGroup.unplaced =
      groupMessages (messages.map Message.unplaced) := by
  rw [groupMessages, groupMessages, List.map_map]
  refine List.map_congr_left fun d _ => ?_
  simp only [Function.comp_apply, MessageGroup.unplaced, List.filter_map]
  rfl

theorem messages_unplaced_eq (h : Kin quoted n n') :
    (Content.messages (groupMessages (messagesOf n'))).unplaced =
      (Content.messages (groupMessages (messagesOf n))).unplaced := by
  have hmessages : (messagesOf n').map Message.unplaced = (messagesOf n).map Message.unplaced := by
    rw [messagesOf, messagesOf, List.map_filterMap, List.map_filterMap]
    exact filterMap_eq_filterMap_of_forall₂ h.pairs fun _ _ _ hp => Message.ofPair?_eq hp
  simp only [Content.unplaced, groupMessages_map_unplaced, hmessages]

theorem details_unplaced_eq (h : Kin quoted n n') (lookup : CaptionLookup) :
    (Content.details (n'.pairs.filterMap (Detail.ofPair? lookup))).unplaced =
      (Content.details (n.pairs.filterMap (Detail.ofPair? lookup))).unplaced := by
  simp only [Content.unplaced, List.map_filterMap]
  rw [filterMap_eq_filterMap_of_forall₂ h.pairs fun _ _ _ hp => Detail.ofPair?_eq hp lookup]

theorem businessRules_unplaced_eq (h : Kin quoted n n')
    (hquoted : ∀ group ∈ n.pairs, ∀ v, group.child? .value = some v → ∀ rule ∈ v.unwrapped.pairs,
      ∀ c, rule.child? .value = some c → ∀ e, c.unwrapped.property? "value" = some e → quoted e) :
    (Content.businessRules (ruleGroups n')).unplaced =
      (Content.businessRules (ruleGroups n)).unplaced := by
  simp only [Content.unplaced, ruleGroups, List.map_filterMap]
  rw [filterMap_eq_filterMap_of_forall₂ h.pairs fun group hmem _ hkin =>
    RuleGroup.ofPair?_eq hkin (hquoted group hmem)]

theorem groupEntries_map_unplaced (entries : List LayoutEntry) :
    (groupEntries entries).map LayoutGroup.unplaced =
      groupEntries (entries.map LayoutEntry.unplaced) := by
  have hgroups : (fun o => LayoutGroup.mk o
        ((entries.map LayoutEntry.unplaced).filter fun e => e.operation == o)) =
      LayoutGroup.unplaced ∘ fun o => ⟨o, entries.filter fun e => e.operation == o⟩ := by
    funext o
    simp only [Function.comp_apply, LayoutGroup.unplaced, List.filter_map]
    rfl
  have hempty : (fun g : LayoutGroup => !g.entries.isEmpty) ∘ LayoutGroup.unplaced =
      fun g => !g.entries.isEmpty := by
    funext g
    exact congrArg (!·) List.isEmpty_map
  rw [groupEntries, groupEntries, hgroups, ← List.map_map,
    List.filter_map (f := LayoutGroup.unplaced), hempty]

theorem layout_unplaced_eq (h : Kin quoted n n') (lookup : CaptionLookup) :
    (Content.layout (groupEntries (entriesOf lookup n'))).unplaced =
      (Content.layout (groupEntries (entriesOf lookup n))).unplaced := by
  have hentries : (entriesOf lookup n').map LayoutEntry.unplaced =
      (entriesOf lookup n).map LayoutEntry.unplaced := by
    rw [entriesOf, entriesOf, List.map_filterMap, List.map_filterMap]
    have helements : List.Forall₂ (Kin quoted) (n.significant.map Node.unwrapped)
        (n'.significant.map Node.unwrapped) := by
      rw [List.forall₂_map_left_iff, List.forall₂_map_right_iff]
      exact h.significant.imp fun _ _ hc => hc.unwrapped
    exact filterMap_eq_filterMap_of_forall₂ helements fun _ _ _ he =>
      LayoutEntry.ofNode?_eq he lookup
  simp only [Content.unplaced, groupEntries_map_unplaced, hentries]

/-! ### Dependencies -/

theorem elementsOf_kin (hkind : n'.kind = n.kind)
    (h : n.kind = .array → List.Forall₂ (Kin quoted) n.significant n'.significant) :
    List.Forall₂ (Kin quoted) (elementsOf n) (elementsOf n') := by
  unfold elementsOf
  rw [hkind]
  split
  · next harray => exact h harray
  · exact .nil

theorem dependenciesOf_unplaced_eq (hkind : n'.kind = n.kind)
    (h : n.kind = .array → List.Forall₂ (Kin quoted) n.significant n'.significant) :
    (dependenciesOf n').map Named.unplaced = (dependenciesOf n).map Named.unplaced := by
  rw [dependenciesOf_eq, dependenciesOf_eq, List.map_filterMap, List.map_filterMap]
  refine filterMap_eq_filterMap_of_forall₂ (elementsOf_kin hkind h) fun e _ e' he => ?_
  rw [stringNamed?, stringNamed?, he.stringValue?_eq]
  cases e.stringValue? <;> rfl

theorem parameterNodes_kin (h : Kin quoted n n') :
    List.Forall₂ (Kin quoted) (parameterNodes n) (parameterNodes n') := by
  unfold parameterNodes
  rcases h.child?_cases .parameter with ⟨hs, hs'⟩ | ⟨s, s', hs, hs', hchild, hrole⟩
  · rw [hs, hs']
    rcases h.child?_cases .parameters with ⟨hp, hp'⟩ | ⟨p, p', hp, hp', hchild, hrole⟩
    · rw [hp, hp']
      exact .nil
    · rw [hp, hp']
      refine (hchild.kin_of_role hrole (by simp)).significant.imp fun c c' hc => ?_
      rcases hc.kin with hkin | ⟨hholds, -⟩
      · exact hkin
      · exact absurd hrole hholds.role.2
  · rw [hs, hs']
    exact .cons (hchild.kin_of_role hrole (by simp)) .nil

theorem parametersOf_unplaced_eq (h : Kin quoted n n') :
    (parametersOf n').map Named.unplaced = (parametersOf n).map Named.unplaced := by
  rw [parametersOf_eq, parametersOf_eq, List.map_filterMap, List.map_filterMap]
  refine filterMap_eq_filterMap_of_forall₂ (parameterNodes_kin h) fun p _ p' hp => ?_
  rw [plainNamed?, plainNamed?, hp.kind_eq]
  split
  · next hkind => rw [hp.text_eq (by simp [hkind, Kind.isWord])]; rfl
  · rfl

end Declared

theorem padded_map {α β : Type} (f : α → α) (g : β → β) (as : List α) (bs : List β) :
    padded (as.map f) (bs.map g) = (padded as bs).map (Prod.map (Option.map f) (Option.map g)) := by
  fun_induction padded as bs with
  | case1 => rw [List.map_nil, List.map_nil, padded, List.map_nil]
  | case2 a as ih => rw [List.map_cons, List.map_nil, padded, ← List.map_nil (f := g), ih]; rfl
  | case3 b bs ih => rw [List.map_cons, List.map_nil, padded, ← List.map_nil (f := f), ih]; rfl
  | case4 a as b bs ih => rw [List.map_cons, List.map_cons, padded, ih]; rfl

theorem Dependency.unplaced_ofBinding (binding : Option Named × Option Named) :
    (ofBinding binding).unplaced =
      ofBinding (Prod.map (Option.map Named.unplaced) (Option.map Named.unplaced) binding) := by
  obtain ⟨dependency, parameter⟩ := binding
  cases dependency <;> cases parameter <;> rfl

section Sections

variable {quoted : Node → Prop} {w : List Nat} {t t' : Tree}

/-- The dependencies are the same. -/
theorem dependencies?_unplaced_eq (h : KinAt quoted w [] t.root t'.root) :
    (Section.dependencies? t').map Section.unplaced =
      (Section.dependencies? t).map Section.unplaced := by
  rcases findFirst?_isFactoryCall_cases h with ⟨hc, hc'⟩ | ⟨c, c', hc, hc', hsame⟩
  · simp [Section.dependencies?, factoryCall?, hc, hc']
  · rcases factoryArguments?_cases hsame.kin with ⟨hargs, -⟩ | ⟨name, deps, callback, name',
      deps', callback', hargs, hargs', hcallback, hkind, hdeps⟩
    · have hcall := (Tree.findFirst?_eq_some_iff.1 hc).2.1
      simp [isFactoryCall, hargs] at hcall
    · rw [dependencies?_of_findFirst? hc hargs, dependencies?_of_findFirst? hc' hargs',
        Option.map_some, Option.map_some]
      have hitems : ∀ (d : List Named) (p : List Named),
          ((padded d p).map Dependency.ofBinding).map Dependency.unplaced =
            (padded (d.map Named.unplaced) (p.map Named.unplaced)).map Dependency.ofBinding := by
        intro d p
        rw [padded_map, List.map_map, List.map_map]
        exact List.map_congr_left fun b _ => Dependency.unplaced_ofBinding b
      simp only [Section.unplaced, Content.unplaced, hitems, dependenciesOf_unplaced_eq hkind hdeps,
        parametersOf_unplaced_eq hcallback]

end Sections

end Schema

end SchemaScope
