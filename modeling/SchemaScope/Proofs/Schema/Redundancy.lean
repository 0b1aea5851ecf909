/-
**What redundant parentheses change.**

Parentheses around the value of a member or around an element of an array say nothing.  They change
nothing of what is read without parentheses: the dependencies, messages, details, business rules and
changes of the layout, and the names of mixins, attributes and methods.  The tooltip of these three
is read off the value as it stands, and a value in parentheses has none.  So the tooltip is lost
exactly where the value that is put in parentheses had one.

Main definitions:

* `Node.IsChild` — the child in a role, and its position;
* `itemOf?` — the item that a member of a plain section writes;
* `LiteralAt`, `ListedAt` — the addresses of what a section lists;
* `Quoted` — the nodes whose text is shown as it is written;
* `PlainSection`, `PlainSection.all` — the mixins, the attributes and the methods.

Main results:

* `exists_itemsOf_eq_modify`, `itemsOf_unplaced_eq_iff` — the items of an object literal and of its
  counterpart;
* `ListedAt.name_eq` — an address is listed in one section only;
* `PlainSection.ofTree?_unplaced_eq_iff` — when a section of plain items is the same;
* `sections_of_guardedAt` — **what parentheses change of a schema, and what not**.
-/

import SchemaScope.Proofs.Schema.Declared
import SchemaScope.Proofs.Schema.Sites

set_option autoImplicit false

namespace SchemaScope

open Script Script.Node

/-! ### Children by role and position -/

namespace Script.Node

/-- The child in a role, and its position. -/
structure IsChild (n : Node) (role : Role) (k : Nat) (c : Node) : Prop where
  place : n.children[k]? = some c
  role_eq : c.role = some role
  first : ∀ s ∈ n.children.take k, s.role ≠ some role

section IsChild

variable {quoted : Node → Prop} {w a : List Nat} {n n' c d : Node} {role : Role} {k l : Nat}

theorem child?_eq_some_iff_isChild : n.child? role = some c ↔ ∃ k, n.IsChild role k c := by
  rw [child?_eq_some_iff]
  exact exists_congr fun k => ⟨fun ⟨hk, hrole, hfirst⟩ => ⟨hk, hrole, hfirst⟩,
    fun h => ⟨h.place, h.role_eq, h.first⟩⟩

theorem IsChild.unique (h : n.IsChild role k c) (h' : n.IsChild role l d) : k = l ∧ c = d := by
  have hle : ∀ {k l : Nat} {c d : Node}, n.IsChild role k c → n.IsChild role l d → k ≤ l := by
    intro k l c d h h'
    by_contra hlt
    have hmem : d ∈ n.children.take k := by
      refine List.mem_of_getElem? (i := l) ?_
      rw [List.getElem?_take_of_lt (by omega)]
      exact h'.place
    exact h.first d hmem h'.role_eq
  obtain rfl := le_antisymm (hle h h') (hle h' h)
  exact ⟨rfl, Option.some.inj (h.place.symm.trans h'.place)⟩

/-- The child in a role has a counterpart in the same role at the same position. -/
theorem KinAt.exists_isChild (h : KinAt quoted w a n n') (hc : n.IsChild role k c) :
    ∃ c', n'.IsChild role k c' ∧ ChildAt quoted w a n k c c' := by
  obtain ⟨c', hc', hchild⟩ := h.child hc.place
  have hroles : n'.children.map (·.role) = n.children.map (·.role) :=
    h.kin.map_children_eq fun _ _ hchild => hchild.role
  refine ⟨c', ⟨hc', hchild.role.trans hc.role_eq, ?_⟩, hchild⟩
  have hfirst : ∀ r ∈ (n.children.map (·.role)).take k, r ≠ some role := by
    rw [← List.map_take, List.forall_mem_map]
    exact hc.first
  rw [← hroles, ← List.map_take, List.forall_mem_map] at hfirst
  exact hfirst

end IsChild

end Script.Node

namespace Schema

/-! ### Plain items -/

/-- The item that a member writes. -/
def itemOf? (tooltip : Node → Option String) (pair : Node) : Option Item := do
  let value ← pair.child? .value
  let name ← pair.key?
  return ⟨name, tooltip value, pair.location⟩

section Item

variable {n c : Node} {read : Node → Option String}

theorem itemOf?_eq_some {key : String} (hkey : n.key? = some key) (hc : n.child? .value = some c) :
    itemOf? read n = some ⟨key, read c, n.location⟩ := by
  rw [itemOf?, hkey, hc]
  rfl

theorem itemOf?_eq_none (h : n.key? = none ∨ n.child? .value = none) : itemOf? read n = none := by
  rw [itemOf?]
  rcases h with hkey | hc
  · rw [hkey]
    cases n.child? .value <;> rfl
  · rw [hc]
    rfl

theorem kind_of_isSome_key? (h : n.key?.isSome = true) : n.kind = .pair := by
  by_contra hne
  simp [key?, hne] at h

/-- A child of an object literal with a key and a value is a member. -/
theorem mem_pairs_of_mem_children {p : Node} (hkind : n.kind = .object) (hp : p ∈ n.children)
    (hkey : p.key?.isSome = true) (hc : p.child? .value = some c) : p ∈ n.pairs := by
  have hpair := kind_of_isSome_key? hkey
  refine mem_pairs_iff.2 ⟨hkind, mem_significant_iff.2 ⟨hp, ?_⟩, hpair, hkey, by simp [hc]⟩
  simp [isSignificant, hpair, Kind.isNamed]

theorem itemsOf_eq_filterMap (hkind : n.kind = .object) :
    itemsOf read n = n.children.filterMap (itemOf? read) := by
  have hpairs : itemsOf read n = n.pairs.filterMap (itemOf? read) := rfl
  rw [hpairs, Node.pairs, if_pos hkind, significant_eq, List.filterMap_filter,
    List.filterMap_filter]
  refine List.filterMap_congr fun p _ => ?_
  -- what is no member with a key and a value is no item
  cases hkey : p.key? with
  | none => simp [itemOf?_eq_none (.inl hkey)]
  | some key =>
      have hpair : p.kind = .pair := kind_of_isSome_key? (by simp [hkey])
      cases hc : p.child? .value with
      | none => simp [itemOf?_eq_none (.inr hc)]
      | some c => simp [isSignificant, hpair, Kind.isNamed]

end Item

section Items

variable {quoted : Node → Prop} {w a : List Nat} {n n' : Node} {read : Node → Option String}

/-- A member and its counterpart write the same item.  Only if the value was put in parentheses, the
tooltip is gone. -/
theorem itemOf?_cases (h : KinAt quoted w a n n')
    (hkin : n.key?.isSome = true → ∀ c, n.child? .value = some c → ∀ c', Kin quoted c c' →
      read c' = read c)
    (hguards : ∀ c c', Guards c c' → read c' = none) :
    (itemOf? read n').map Item.unplaced = (itemOf? read n).map Item.unplaced ∧
        (∀ k c, n.key?.isSome = true → n.IsChild .value k c → w ≠ a ++ [k]) ∨
      ∃ k c, n.key?.isSome = true ∧ n.IsChild .value k c ∧ w = a ++ [k] ∧
        (itemOf? read n').map Item.unplaced =
          ((itemOf? read n).map Item.unplaced).map Item.untipped ∧
        ((itemOf? read n').map Item.unplaced = (itemOf? read n).map Item.unplaced ↔
          read c = none) := by
  cases hkey : n.key? with
  | none =>
      rw [itemOf?_eq_none (.inl hkey), itemOf?_eq_none (.inl (h.kin.key?_eq.trans hkey))]
      exact .inl ⟨rfl, by simp⟩
  | some key =>
      rcases h.kin.child?_cases .value with ⟨hv, hv'⟩ | ⟨c, c', hv, hv', -, -⟩
      · rw [itemOf?_eq_none (.inr hv), itemOf?_eq_none (.inr hv')]
        refine .inl ⟨rfl, fun k c _ hc => ?_⟩
        rw [child?_eq_some_iff_isChild.2 ⟨k, hc⟩] at hv
        cases hv
      · rw [itemOf?_eq_some hkey hv, itemOf?_eq_some (h.kin.key?_eq.trans hkey) hv']
        obtain ⟨k, hc⟩ := child?_eq_some_iff_isChild.1 hv
        obtain ⟨d', hd', hchild⟩ := h.exists_isChild hc
        obtain rfl : d' = c' :=
          Option.some.inj ((child?_eq_some_iff_isChild.2 ⟨k, hd'⟩).symm.trans hv')
        rcases hchild.kin with ⟨hsame, hw⟩ | ⟨hw, -, hparentheses⟩
        · refine .inl ⟨?_, fun l d _ hd => ?_⟩
          · rw [hkin (by simp [hkey]) c hv d' hsame.kin]
            rfl
          · obtain ⟨rfl, -⟩ := hc.unique hd
            exact hw
        · refine .inr ⟨k, c, rfl, hc, hw, ?_, ?_⟩
          · rw [hguards c d' hparentheses]
            rfl
          · rw [hguards c d' hparentheses]
            simp [Item.unplaced, eq_comm]

section Members

variable (h : KinAt quoted w a n n') (hkind : n.kind = .object)
  (hkin : ∀ p ∈ n.pairs, ∀ c, p.child? .value = some c → ∀ c', Kin quoted c c' → read c' = read c)
  (hguards : ∀ c c', Guards c c' → read c' = none)

include h hkind hkin hguards

/-- The same of a member at a position of an object literal. -/
theorem itemOf?_cases_of_getElem? {i : Nat} {p p' : Node} (hp : n.children[i]? = some p)
    (hp' : n'.children[i]? = some p') :
    (itemOf? read p').map Item.unplaced = (itemOf? read p).map Item.unplaced ∧
        (∀ k c, p.key?.isSome = true → p.IsChild .value k c → w ≠ a ++ [i, k]) ∨
      ∃ k c, p.key?.isSome = true ∧ p.IsChild .value k c ∧ w = a ++ [i, k] ∧
        (itemOf? read p').map Item.unplaced =
          ((itemOf? read p).map Item.unplaced).map Item.untipped ∧
        ((itemOf? read p').map Item.unplaced = (itemOf? read p).map Item.unplaced ↔
          read c = none) := by
  obtain ⟨_, hp'', hchild⟩ := h.child hp
  obtain rfl := Option.some.inj (hp'.symm.trans hp'')
  have hpair := hchild.kinAt_of_kind (by simp [hkind]) (by simp [hkind])
  have hcases := itemOf?_cases hpair (fun hkey c hc => hkin p
    (mem_pairs_of_mem_children hkind (List.mem_of_getElem? hp) hkey hc) c hc) hguards
  simpa only [List.append_assoc, List.cons_append, List.nil_append] using hcases

/-- **At most one item loses its tooltip.** -/
theorem exists_itemsOf_eq_modify :
    ∃ k, (itemsOf read n').map Item.unplaced =
      ((itemsOf read n).map Item.unplaced).modify k Item.untipped := by
  rw [itemsOf_eq_filterMap hkind, itemsOf_eq_filterMap (h.kin.kind_eq.trans hkind),
    List.map_filterMap, List.map_filterMap]
  refine exists_filterMap_eq_modify (d := (w.drop a.length).headD 0) h.kin.children.length_eq ?_
  intro i p p' hp hp'
  rcases itemOf?_cases_of_getElem? h hkind hkin hguards hp hp' with ⟨hsame, -⟩ | hlost
  · exact .inl hsame
  · obtain ⟨k, c, -, -, rfl, hfaded, -⟩ := hlost
    exact .inr ⟨by simp, hfaded⟩

/-- **The tooltips are the same, unless a value was put in parentheses that had one.** -/
theorem itemsOf_unplaced_eq_iff :
    (itemsOf read n').map Item.unplaced = (itemsOf read n).map Item.unplaced ↔
      ∀ i p k c, n.children[i]? = some p → p.key?.isSome = true → p.IsChild .value k c →
        w = a ++ [i, k] → read c = none := by
  have hcases : ∀ {i p p'}, n.children[i]? = some p → n'.children[i]? = some p' → _ :=
    fun hp hp' => itemOf?_cases_of_getElem? h hkind hkin hguards hp hp'
  have hsome : List.Forall₂ (fun p p' => ((itemOf? read p').map Item.unplaced).isSome =
      ((itemOf? read p).map Item.unplaced).isSome) n.children n'.children := by
    refine List.forall₂_iff_get.2 ⟨h.kin.children.length_eq, fun i hi hi' => ?_⟩
    rcases hcases (List.getElem?_eq_getElem hi) (List.getElem?_eq_getElem hi') with
      ⟨hsame, -⟩ | ⟨k, c, -, -, -, hfaded, -⟩
    · exact congrArg Option.isSome hsame
    · simpa using congrArg Option.isSome hfaded
  rw [itemsOf_eq_filterMap hkind, itemsOf_eq_filterMap (h.kin.kind_eq.trans hkind),
    List.map_filterMap, List.map_filterMap, filterMap_eq_filterMap_iff hsome, List.forall₂_iff_get]
  constructor
  · rintro ⟨-, hall⟩ i p k c hp hkey hc hw
    obtain ⟨p', hp', -⟩ := h.child hp
    rcases hcases hp hp' with ⟨-, hnot⟩ | ⟨l, d, -, hd, -, -, hiff⟩
    · exact absurd hw (hnot k c hkey hc)
    · obtain ⟨-, rfl⟩ := hc.unique hd
      obtain ⟨hi, rfl⟩ := List.getElem?_eq_some_iff.1 hp
      obtain ⟨hi', rfl⟩ := List.getElem?_eq_some_iff.1 hp'
      exact hiff.1 (hall i hi hi')
  · intro hall
    refine ⟨h.kin.children.length_eq, fun i hi hi' => ?_⟩
    rcases hcases (List.getElem?_eq_getElem hi) (List.getElem?_eq_getElem hi') with
      ⟨hsame, -⟩ | ⟨k, c, hkey, hc, hw, -, hiff⟩
    · exact hsame
    · exact hiff.2 (hall i _ k c (List.getElem?_eq_getElem hi) hkey hc hw)

end Members

end Items

/-! ### Where the items are written -/

/-- The address of the object literal that the first member with the given key has for its value. -/
inductive LiteralAt (t : Tree) (name : String) : List Nat → Node → Prop
  | value {q : Cursor} {v : Node} {k : Nat} {inner : List Nat}
      (hq : t.findFirst? (isTopLevelMember name) = some q) (hv : q.node.IsChild .value k v)
      (hinside : v.Inside inner) (hobject : v.unwrapped.kind = .object) :
      LiteralAt t name (q.address ++ k :: inner) v.unwrapped

/-- The address of the value of one of the members of this object literal. -/
inductive ListedAt (t : Tree) (name : String) : List Nat → Node → Prop
  | listed {a : List Nat} {i k : Nat} {n p c : Node} (hn : LiteralAt t name a n)
      (hp : n.children[i]? = some p) (hkey : p.key?.isSome = true) (hc : p.IsChild .value k c) :
      ListedAt t name (a ++ [i, k]) c

/-- The nodes whose text is shown: the values that rules compare with, and the parameter lists of
methods. -/
inductive Quoted (t : Tree) : Node → Prop
  | value {l : Located} {group v rule c e : Node}
      (hl : locatedObject? t "businessRules" = some l) (hgroup : group ∈ l.value.pairs)
      (hv : group.child? .value = some v) (hrule : rule ∈ v.unwrapped.pairs)
      (hc : rule.child? .value = some c) (he : c.unwrapped.property? "value" = some e) : Quoted t e
  | parameters {l : Located} {method c e : Node} (hl : locatedObject? t "methods" = some l)
      (hmethod : method ∈ l.value.pairs) (hc : method.child? .value = some c)
      (hfunction : c.isFunctionLiteral = true) (he : c.child? .parameters = some e) : Quoted t e

section Located

variable {quoted : Node → Prop} {w a : List Nat} {t t' : Tree} {name : String} {n : Node}

theorem located?_cases (h : KinAt quoted w [] t.root t'.root) (name : String) :
    (located? t name = none ∧ located? t' name = none) ∨
    ∃ l l', located? t name = some l ∧ located? t' name = some l' ∧
      Kin quoted l.value l'.value := by
  unfold located?
  rcases findFirst?_isTopLevelMember_cases h name with ⟨hq, hq'⟩ | ⟨q, q', hq, hq', hsame⟩
  · rw [hq, hq']
    exact .inl ⟨rfl, rfl⟩
  · rw [hq, hq']
    simp only [Option.bind_eq_bind, Option.bind_some]
    rcases hsame.kin.child?_cases .value with ⟨hv, hv'⟩ | ⟨v, v', hv, hv', hchild, -⟩
    · rw [hv, hv']
      exact .inl ⟨rfl, rfl⟩
    · rw [hv, hv']
      exact .inr ⟨_, _, rfl, rfl, hchild.unwrapped⟩

theorem locatedObject?_cases (h : KinAt quoted w [] t.root t'.root) (name : String) :
    (locatedObject? t name = none ∧ locatedObject? t' name = none) ∨
    ∃ l l', locatedObject? t name = some l ∧ locatedObject? t' name = some l' ∧
      Kin quoted l.value l'.value := by
  unfold locatedObject?
  rcases located?_cases h name with ⟨hl, hl'⟩ | ⟨l, l', hl, hl', hkin⟩
  · rw [hl, hl']
    exact .inl ⟨rfl, rfl⟩
  · rw [hl, hl']
    by_cases hkind : l.value.kind = .object
    · exact .inr ⟨l, l', by simp [hkind], by simp [hkin.kind_eq, hkind], hkin⟩
    · exact .inl ⟨by simp [hkind], by simp [hkin.kind_eq, hkind]⟩

theorem locatedObject?_eq_some {q : Cursor} {v : Node}
    (hq : t.findFirst? (isTopLevelMember name) = some q) (hv : q.node.child? .value = some v)
    (hobject : v.unwrapped.kind = .object) :
    locatedObject? t name = some ⟨q.node, v.unwrapped⟩ := by
  simp [locatedObject?, located?, hq, hv, hobject]

theorem LiteralAt.kind_eq (h : LiteralAt t name a n) : n.kind = .object := by
  cases h
  assumption

/-- The literal at an address and its counterpart. -/
theorem LiteralAt.exists_kinAt (h : KinAt quoted w [] t.root t'.root) (hn : LiteralAt t name a n) :
    ∃ l l', locatedObject? t name = some l ∧ locatedObject? t' name = some l' ∧ l.value = n ∧
      KinAt quoted w a n l'.value := by
  cases hn with
  | @value q v k inner hq hv hinside hobject =>
      rcases findFirst?_isTopLevelMember_cases h name with ⟨hnone, -⟩ | ⟨_, q', hq₁, hq', hsame⟩
      · rw [hq] at hnone
        cases hnone
      · obtain rfl := Option.some.inj (hq.symm.trans hq₁)
        obtain ⟨v', hv', hchild⟩ := hsame.kinAt.exists_isChild hv
        have hkin := hchild.unwrapped hinside
        refine ⟨_, _, locatedObject?_eq_some hq (child?_eq_some_iff_isChild.2 ⟨k, hv⟩) hobject,
          locatedObject?_eq_some hq' (child?_eq_some_iff_isChild.2 ⟨k, hv'⟩) ?_, rfl, hkin⟩
        rw [hkin.kin.kind_eq, hobject]

/-- What is located has an address. -/
theorem exists_literalAt (ht : t.FollowsGrammar) {l : Located}
    (hl : locatedObject? t name = some l) : ∃ a, LiteralAt t name a l.value := by
  rw [locatedObject?, Option.filter_eq_some_iff] at hl
  obtain ⟨hl, hobject⟩ := hl
  simp only [located?, Option.bind_eq_bind, Option.bind_eq_some_iff, Option.pure_def,
    Option.some.injEq] at hl
  obtain ⟨q, hq, v, hv, rfl⟩ := hl
  obtain ⟨k, hk⟩ := child?_eq_some_iff_isChild.1 hv
  have hmem := (Tree.findFirst?_eq_some_iff.1 hq).1
  obtain ⟨inner, hinside⟩ := exists_inside v fun m hm => ht m
    (Tree.preorder_subset_of_mem_walk hmem
      (preorder_subset_of_mem_children (List.mem_of_getElem? hk.place) hm))
  exact ⟨_, .value hq hk hinside (by simpa using hobject)⟩

/-- The members above what is listed are found again by climbing out of the parentheses. -/
theorem ListedAt.exists_cursors {c : Node} (h : ListedAt t name w c) :
    ∃ (q o p : Cursor) (k : Nat), q.node.key? = some name ∧ p ∈ t.walk ∧ w = p.address ++ [k] ∧
      outsideParentheses p.enclosing = o :: o.enclosing ∧
      outsideParentheses o.enclosing = q :: q.enclosing := by
  cases h with
  | @listed _ i j _ p _ hn hp _ _ =>
      cases hn with
      | @value q v k inner hq hv hinside hobject =>
          obtain ⟨hmem, hmember, -⟩ := Tree.findFirst?_eq_some_iff.1 hq
          simp only [isTopLevelMember, Bool.and_eq_true, beq_iff_eq] at hmember
          obtain ⟨vc, hvc, rfl⟩ := Cursor.exists_nth? hv.place
          have hat := Cursor.map_node_at? vc inner
          rw [hinside.at?_eq] at hat
          obtain ⟨o, ho, hnode⟩ := Option.map_eq_some_iff.1 hat
          rw [← hnode] at hp hobject
          obtain ⟨pc, hpc, rfl⟩ := Cursor.exists_nth? hp
          have hwalk := Tree.mem_walk_of_at? (Tree.mem_walk_of_nth? hmem hvc) ho
          refine ⟨q, o, pc, j, hmember.1.2, Tree.mem_walk_of_nth? hwalk hpc, ?_, ?_, ?_⟩
          · rw [Cursor.address_of_nth? hpc, Cursor.address_of_at? ho, Cursor.address_of_nth? hvc]
            simp
          · exact outsideParentheses_of_nth? hpc (by simp [hobject])
          · have hclimb : vc.Inside o := ⟨inner, hinside, ho⟩
            rw [hclimb.outsideParentheses_eq]
            exact outsideParentheses_of_nth? hvc (by simp [hmember.1.1])

/-- An address is listed in one section only. -/
theorem ListedAt.name_eq {name' : String} {c c' : Node} (h : ListedAt t name w c)
    (h' : ListedAt t name' w c') : name = name' := by
  obtain ⟨q, o, p, k, hkey, hp, hw, houter, hinner⟩ := h.exists_cursors
  obtain ⟨q', o', p', k', hkey', hp', hw', houter', hinner'⟩ := h'.exists_cursors
  obtain ⟨haddress, -⟩ := List.append_inj' (hw.symm.trans hw') rfl
  obtain rfl := Tree.eq_of_address_eq hp hp' haddress
  obtain ⟨rfl, -⟩ := List.cons.inj (houter.symm.trans houter')
  obtain ⟨rfl, -⟩ := List.cons.inj (hinner.symm.trans hinner')
  exact Option.some.inj (hkey.symm.trans hkey')

end Located

/-! ### Sections of plain items -/

/-- A section of plain items: the key of its member, its position among the sections, what is read
off the value of an item, and the kind of section. -/
structure PlainSection where
  name : String
  position : Nat
  tooltip : Node → Option String
  content : List Item → Content

namespace PlainSection

/-- The mixins, the attributes and the methods. -/
def all : List PlainSection :=
  [⟨"mixins", 1, Node.stringValue?, .mixins⟩, ⟨"attributes", 3, attributeType?, .attributes⟩,
    ⟨"methods", 5, parameterText?, .methods⟩]

/-- The section of a script. -/
def ofTree? (s : PlainSection) (t : Tree) : Option Section :=
  Section.ofMember? t s.name fun n => s.content (itemsOf s.tooltip n)

/-- What the plain sections have in common. -/
structure IsPlain (s : PlainSection) : Prop where
  unplaced : ∀ items, (s.content items).unplaced = s.content (items.map Item.unplaced)
  fadedAt : ∀ k items, (s.content items).fadedAt k = s.content (items.modify k Item.untipped)
  injective : s.content.Injective
  kin : ∀ {t l}, locatedObject? t s.name = some l → ∀ p ∈ l.value.pairs, ∀ c,
    p.child? .value = some c → ∀ c', Kin (Quoted t) c c' → s.tooltip c' = s.tooltip c
  guards : ∀ c c', Guards c c' → s.tooltip c' = none

theorem isPlain {s : PlainSection} (h : s ∈ all) : s.IsPlain := by
  simp only [all, List.mem_cons, List.not_mem_nil, or_false] at h
  rcases h with rfl | rfl | rfl
  · refine ⟨fun _ => rfl, fun _ _ => rfl, fun _ _ => Content.mixins.inj,
      fun _ _ _ _ _ _ hkin => hkin.stringValue?_eq, fun c c' hguards => ?_⟩
    simp [stringValue?, hguards.kind_eq]
  · refine ⟨fun _ => rfl, fun _ _ => rfl, fun _ _ => Content.attributes.inj,
      fun _ _ _ _ _ _ hkin => attributeType?_eq hkin, fun c c' hguards => ?_⟩
    simp [attributeType?, property?, Node.pairs, hguards.kind_eq]
  · refine ⟨fun _ => rfl, fun _ _ => rfl, fun _ _ => Content.methods.inj,
      fun hl p hp c hc c' hkin => parameterText?_eq hkin fun hfunction e he =>
        .parameters hl hp hc hfunction he, fun c c' hguards => ?_⟩
    simp [parameterText?, Node.isFunctionLiteral, hguards.kind_eq, Kind.isFunctionLiteral]

variable {s s' : PlainSection} {w : List Nat} {t t' : Tree}

theorem eq_of_name_eq (h : s ∈ all) (h' : s' ∈ all) (hname : s.name = s'.name) : s = s' := by
  simp only [all, List.mem_cons, List.not_mem_nil, or_false] at h h'
  rcases h with rfl | rfl | rfl <;> rcases h' with rfl | rfl | rfl <;> simp_all

theorem ofTree?_map_unplaced (hs : s.IsPlain) {l : Located}
    (hl : locatedObject? t s.name = some l) :
    (s.ofTree? t).map Section.unplaced =
      some ⟨s.content ((itemsOf s.tooltip l.value).map Item.unplaced), default⟩ := by
  simp [ofTree?, Section.ofMember?, hl, Section.unplaced, hs.unplaced]

/-- At most one item of the section loses its tooltip. -/
theorem exists_ofTree?_eq_fadedAt (hs : s.IsPlain) (ht : t.FollowsGrammar)
    (h : KinAt (Quoted t) w [] t.root t'.root) :
    ∃ k, (s.ofTree? t').map Section.unplaced =
      ((s.ofTree? t).map Section.unplaced).map (Section.fadedAt k) := by
  rcases locatedObject?_cases h s.name with ⟨hl, hl'⟩ | ⟨l, l', hl, hl', -⟩
  · exact ⟨0, by simp [ofTree?, Section.ofMember?, hl, hl']⟩
  · obtain ⟨a, hn⟩ := exists_literalAt ht hl
    obtain ⟨_, l₂, -, hl₂, -, hkin⟩ := hn.exists_kinAt h
    obtain rfl := Option.some.inj (hl'.symm.trans hl₂)
    obtain ⟨k, hk⟩ := exists_itemsOf_eq_modify hkin hn.kind_eq (hs.kin hl) hs.guards
    refine ⟨k, ?_⟩
    rw [ofTree?_map_unplaced hs hl, ofTree?_map_unplaced hs hl', hk, Option.map_some,
      Section.fadedAt, hs.fadedAt]

/-- **The section is the same, unless a value was put in parentheses that had a tooltip.** -/
theorem ofTree?_unplaced_eq_iff (hs : s.IsPlain) (ht : t.FollowsGrammar)
    (h : KinAt (Quoted t) w [] t.root t'.root) :
    (s.ofTree? t').map Section.unplaced = (s.ofTree? t).map Section.unplaced ↔
      ∀ c, ListedAt t s.name w c → s.tooltip c = none := by
  have hliteral : ∀ {a n}, LiteralAt t s.name a n →
      ((s.ofTree? t').map Section.unplaced = (s.ofTree? t).map Section.unplaced ↔
      ∀ i p k c, n.children[i]? = some p → p.key?.isSome = true → p.IsChild .value k c →
        w = a ++ [i, k] → s.tooltip c = none) := by
    intro a n hn
    have hkind := hn.kind_eq
    obtain ⟨l, l', hl, hl', rfl, hkin⟩ := hn.exists_kinAt h
    rw [← itemsOf_unplaced_eq_iff hkin hkind (hs.kin hl) hs.guards, ofTree?_map_unplaced hs hl,
      ofTree?_map_unplaced hs hl']
    simp [hs.injective.eq_iff]
  constructor
  · intro heq c hc
    generalize hw : w = address at hc
    cases hc with
    | listed hn hp hkey hc => exact (hliteral hn).1 heq _ _ _ _ hp hkey hc hw
  · intro hall
    rcases locatedObject?_cases h s.name with ⟨hl, hl'⟩ | ⟨l, l', hl, hl', -⟩
    · simp [ofTree?, Section.ofMember?, hl, hl']
    · obtain ⟨a, hn⟩ := exists_literalAt ht hl
      refine (hliteral hn).2 fun i p k c hp hkey hc hw => hall c ?_
      rw [hw]
      exact .listed hn hp hkey hc

end PlainSection

/-! ### All sections -/

section Sections

variable {quoted : Node → Prop} {w : List Nat} {t t' : Tree}

/-- A section, as far as it is the same for counterparts. -/
theorem ofMember?_unplaced_eq (h : KinAt quoted w [] t.root t'.root) (name : String)
    {content : Node → Content}
    (hcontent : ∀ l n', locatedObject? t name = some l → Kin quoted l.value n' →
      (content n').unplaced = (content l.value).unplaced) :
    (Section.ofMember? t' name content).map Section.unplaced =
      (Section.ofMember? t name content).map Section.unplaced := by
  unfold Section.ofMember?
  rcases locatedObject?_cases h name with ⟨hl, hl'⟩ | ⟨l, l', hl, hl', hkin⟩
  · rw [hl, hl']
  · rw [hl, hl']
    simp only [Option.map_some, Section.unplaced, hcontent l l'.value hl hkin]

theorem layout?_unplaced_eq (h : KinAt quoted w [] t.root t'.root) (lookup : CaptionLookup) :
    (Section.layout? lookup t').map Section.unplaced =
      (Section.layout? lookup t).map Section.unplaced := by
  unfold Section.layout?
  rcases located?_cases h "diff" with ⟨hl, hl'⟩ | ⟨l, l', hl, hl', hkin⟩
  · rw [hl, hl']
  · rw [hl, hl']
    by_cases hkind : l.value.kind = .array
    · simp only [Option.filter_some, hkin.kind_eq, hkind, beq_self_eq_true, if_true,
        Option.map_some, Section.unplaced, layout_unplaced_eq hkin lookup]
    · simp [Option.filter_some, hkin.kind_eq, hkind]

/-- The sections in their order, those that are missing among them. -/
def sectionsOf (lookup : CaptionLookup) (t : Tree) : List (Option Section) :=
  [Section.dependencies? t, Section.mixins? t, Section.messages? t, Section.attributes? t,
    Section.details? lookup t, Section.methods? t, Section.businessRules? t,
    Section.layout? lookup t]

theorem ofTree_map_unplaced (lookup : CaptionLookup) (t : Tree) :
    (Section.ofTree lookup t).map Section.unplaced =
      (sectionsOf lookup t).filterMap (Option.map Section.unplaced) := by
  rw [Section.ofTree, List.map_filterMap]
  rfl

/-- At each position the sections are the same, or they are plain. -/
theorem sectionsOf_cases (h : KinAt (Quoted t) w [] t.root t'.root) (lookup : CaptionLookup)
    {i : Nat} {x y : Option Section} (hx : (sectionsOf lookup t)[i]? = some x)
    (hy : (sectionsOf lookup t')[i]? = some y) :
    y.map Section.unplaced = x.map Section.unplaced ∨
      ∃ s ∈ PlainSection.all, s.position = i ∧ s.ofTree? t = x ∧ s.ofTree? t' = y := by
  match i with
  | 0 =>
      cases hx
      cases hy
      exact .inl (dependencies?_unplaced_eq h)
  | 1 => exact .inr ⟨_, List.mem_cons_self, rfl, Option.some.inj hx, Option.some.inj hy⟩
  | 2 =>
      cases hx
      cases hy
      exact .inl (ofMember?_unplaced_eq h "messages" fun _ _ _ hkin => messages_unplaced_eq hkin)
  | 3 =>
      exact .inr ⟨_, List.mem_cons_of_mem _ List.mem_cons_self, rfl, Option.some.inj hx,
        Option.some.inj hy⟩
  | 4 =>
      cases hx
      cases hy
      exact .inl (ofMember?_unplaced_eq h "details" fun _ _ _ hkin =>
        details_unplaced_eq hkin lookup)
  | 5 =>
      exact .inr ⟨_, List.mem_cons_of_mem _ (List.mem_cons_of_mem _ List.mem_cons_self), rfl,
        Option.some.inj hx, Option.some.inj hy⟩
  | 6 =>
      cases hx
      cases hy
      exact .inl (ofMember?_unplaced_eq h "businessRules" fun _ _ hl hkin =>
        businessRules_unplaced_eq hkin fun _ hgroup _ hv _ hrule _ hc _ he =>
          .value hl hgroup hv hrule hc he)
  | 7 =>
      cases hx
      cases hy
      exact .inl (layout?_unplaced_eq h lookup)
  | i + 8 => simp [sectionsOf] at hx

theorem getElem?_sectionsOf {s : PlainSection} (hs : s ∈ PlainSection.all) (lookup : CaptionLookup)
    (t : Tree) : (sectionsOf lookup t)[s.position]? = some (s.ofTree? t) := by
  simp only [PlainSection.all, List.mem_cons, List.not_mem_nil, or_false] at hs
  rcases hs with rfl | rfl | rfl <;> rfl

/-- The sections are the same except for one tooltip at most. -/
theorem exists_sectionsOf_eq_modify (ht : t.FollowsGrammar)
    (h : KinAt (Quoted t) w [] t.root t'.root) (lookup : CaptionLookup) :
    ∃ j k, (sectionsOf lookup t').filterMap (Option.map Section.unplaced) =
      ((sectionsOf lookup t).filterMap (Option.map Section.unplaced)).modify j
        (Section.fadedAt k) := by
  have hsame : ∀ s ∈ PlainSection.all, (∀ c, ¬ ListedAt t s.name w c) →
      (s.ofTree? t').map Section.unplaced = (s.ofTree? t).map Section.unplaced := fun s hs hnot =>
    (PlainSection.ofTree?_unplaced_eq_iff (PlainSection.isPlain hs) ht h).2
      fun c hc => absurd hc (hnot c)
  -- the section that lists what was put in parentheses, if there is one
  by_cases hlisted : ∃ s ∈ PlainSection.all, ∃ c, ListedAt t s.name w c
  · obtain ⟨s, hs, c, hc⟩ := hlisted
    obtain ⟨k, hk⟩ := PlainSection.exists_ofTree?_eq_fadedAt (PlainSection.isPlain hs) ht h
    refine exists_comm.1 ⟨k, exists_filterMap_eq_modify (d := s.position) rfl ?_⟩
    intro i x y hx hy
    rcases sectionsOf_cases h lookup hx hy with heq | ⟨s', hs', rfl, rfl, rfl⟩
    · exact .inl heq
    · by_cases hname : s'.name = s.name
      · obtain rfl := PlainSection.eq_of_name_eq hs' hs hname
        exact .inr ⟨rfl, hk⟩
      · exact .inl (hsame s' hs' fun c' hc' => hname (hc'.name_eq hc))
  · refine exists_comm.1 ⟨0, exists_filterMap_eq_modify (d := 0) rfl ?_⟩
    intro i x y hx hy
    rcases sectionsOf_cases h lookup hx hy with heq | ⟨s, hs, rfl, rfl, rfl⟩
    · exact .inl heq
    · exact .inl (hsame s hs fun c hc => hlisted ⟨s, hs, c, hc⟩)

/-- The sections are the same, unless a value was put in parentheses that had a tooltip. -/
theorem sectionsOf_eq_iff (ht : t.FollowsGrammar) (h : KinAt (Quoted t) w [] t.root t'.root)
    (lookup : CaptionLookup) :
    (sectionsOf lookup t').filterMap (Option.map Section.unplaced) =
        (sectionsOf lookup t).filterMap (Option.map Section.unplaced) ↔
      ∀ s ∈ PlainSection.all, ∀ c, ListedAt t s.name w c → s.tooltip c = none := by
  have hplain : ∀ s ∈ PlainSection.all,
      ((s.ofTree? t').map Section.unplaced = (s.ofTree? t).map Section.unplaced ↔
        ∀ c, ListedAt t s.name w c → s.tooltip c = none) :=
    fun s hs => PlainSection.ofTree?_unplaced_eq_iff (PlainSection.isPlain hs) ht h
  have hsome : List.Forall₂ (fun x y => (y.map Section.unplaced).isSome =
      (x.map Section.unplaced).isSome) (sectionsOf lookup t) (sectionsOf lookup t') := by
    refine List.forall₂_iff_get.2 ⟨rfl, fun i hi hi' => ?_⟩
    rcases sectionsOf_cases h lookup (List.getElem?_eq_getElem hi)
      (List.getElem?_eq_getElem hi') with heq | ⟨s, hs, -, hx, hy⟩
    · exact congrArg Option.isSome heq
    · obtain ⟨k, hk⟩ := PlainSection.exists_ofTree?_eq_fadedAt (PlainSection.isPlain hs) ht h
      rw [hx, hy] at hk
      simpa using congrArg Option.isSome hk
  rw [filterMap_eq_filterMap_iff hsome, List.forall₂_iff_get]
  constructor
  · rintro ⟨-, hall⟩ s hs
    obtain ⟨hi, hx⟩ := List.getElem?_eq_some_iff.1 (getElem?_sectionsOf hs lookup t)
    obtain ⟨hi', hy⟩ := List.getElem?_eq_some_iff.1 (getElem?_sectionsOf hs lookup t')
    refine (hplain s hs).1 ?_
    rw [← hx, ← hy]
    exact hall s.position hi hi'
  · intro hall
    refine ⟨rfl, fun i hi hi' => ?_⟩
    rcases sectionsOf_cases h lookup (List.getElem?_eq_getElem hi)
      (List.getElem?_eq_getElem hi') with heq | ⟨s, hs, -, hx, hy⟩
    · exact heq
    · have heq := (hplain s hs).2 (hall s hs)
      rwa [hx, hy] at heq

/-- **What redundant parentheses change.**  Take a tree that follows the grammar, and parentheses
around one value of a member or one element of an array, outside the texts that are shown as they
are written.  Places aside, the sections are the same except for one tooltip at most.  That tooltip
is lost exactly if what was put in parentheses is the value of a mixin, an attribute or a method
that had one. -/
theorem sections_of_guardedAt (ht : t.FollowsGrammar) (hw : w ≠ [])
    (h : GuardedAt (Quoted t) w t.root t'.root) (lookup : CaptionLookup) :
    (∃ j k, (Section.ofTree lookup t').map Section.unplaced =
        ((Section.ofTree lookup t).map Section.unplaced).modify j (Section.fadedAt k)) ∧
      ((Section.ofTree lookup t').map Section.unplaced =
          (Section.ofTree lookup t).map Section.unplaced ↔
        ∀ s ∈ PlainSection.all, ∀ c, ListedAt t s.name w c → s.tooltip c = none) := by
  obtain ⟨i, b, rfl⟩ := List.exists_cons_of_ne_nil hw
  have hroot : KinAt (Quoted t) (i :: b) [] t.root t'.root := .guarded rfl h
  rw [ofTree_map_unplaced, ofTree_map_unplaced]
  exact ⟨exists_sectionsOf_eq_modify ht hroot lookup, sectionsOf_eq_iff ht hroot lookup⟩

end Sections

/-- A page with one attribute. -/
def attributePage : String :=
  "define('P', [], () => \x7b return \x7b attributes: \x7b " ++
    "A: \x7b dataValueType: 12 \x7d \x7d \x7d \x7d)"

/-- The same page with parentheses around the description of the attribute. -/
def guardedAttributePage : String :=
  "define('P', [], () => \x7b return \x7b attributes: \x7b " ++
    "A: (\x7b dataValueType: 12 \x7d) \x7d \x7d \x7d)"

/-- Whether the value of a member at given positions of the first member with a given key, which is
not in parentheses, has a tooltip. -/
def listsTooltip (t : Tree) (name : String) (read : Node → Option String) (a : List Nat)
    (k i j : Nat) : Bool :=
  (t.findFirst? (isTopLevelMember name)).any fun q => q.address == a &&
    q.node.children[k]?.any fun v => v.role == some .value &&
      (q.node.children.take k).all (·.role != some .value) && v.kind == .object &&
      v.children[i]?.any fun p => p.key?.isSome && p.children[j]?.any fun c =>
        c.role == some .value && (p.children.take j).all (·.role != some .value) && (read c).isSome

theorem exists_listedAt_of_listsTooltip {t : Tree} {name : String} {read : Node → Option String}
    {a : List Nat} {k i j : Nat} (h : listsTooltip t name read a k i j = true) :
    ∃ c, ListedAt t name (a ++ [k] ++ [i, j]) c ∧ read c ≠ none := by
  simp only [listsTooltip, Option.any_eq_true, Bool.and_eq_true, beq_iff_eq, List.all_eq_true,
    bne_iff_ne] at h
  obtain ⟨q, hq, rfl, v, hv, ⟨⟨hrole, hfirst⟩, hkind⟩, p, hp, hkey, c, hc, ⟨hvalue, hbefore⟩,
    htooltip⟩ := h
  have hbare : v.kind ≠ .parenthesized := by simp [hkind]
  have hn : LiteralAt t name (q.address ++ [k]) v.unwrapped :=
    .value hq ⟨hv, hrole, hfirst⟩ (.bare hbare) (by rw [unwrapped_of_kind_ne hbare, hkind])
  rw [unwrapped_of_kind_ne hbare] at hn
  exact ⟨c, .listed hn hp hkey ⟨hc, hvalue, hbefore⟩, Option.isSome_iff_ne_none.1 htooltip⟩

/-- On this page the parentheses change the tooltip of the attribute, and nothing else. -/
theorem sections_of_guardedAt_attributePage :
    ∃ t t', Tree.parse? attributePage = some t ∧ Tree.parse? guardedAttributePage = some t' ∧
      (∃ j k, (Section.ofTree .none t').map Section.unplaced =
        ((Section.ofTree .none t).map Section.unplaced).modify j (Section.fadedAt k)) ∧
      (Section.ofTree .none t').map Section.unplaced ≠
        (Section.ofTree .none t).map Section.unplaced := by
  have hpages : (Tree.parse? attributePage).any (fun t =>
      (Tree.parse? guardedAttributePage).any fun t' =>
        isGuardedAt [0, 0, 1, 5, 2, 1, 1, 1, 2, 1, 2] t.root t'.root &&
        (locatedObject? t "businessRules").isNone && (locatedObject? t "methods").isNone &&
        listsTooltip t "attributes" attributeType? [0, 0, 1, 5, 2, 1, 1, 1] 2 1 2) = true := by
    decide +kernel
  obtain ⟨t, hparse, hguarded⟩ := (Option.any_eq_true _ _).1 hpages
  obtain ⟨t', hparse', h⟩ := (Option.any_eq_true _ _).1 hguarded
  simp only [Bool.and_eq_true, Option.isNone_iff_eq_none] at h
  obtain ⟨⟨⟨hguarded, hrules⟩, hmethods⟩, hlists⟩ := h
  -- there are no rules and no methods, so nothing is quoted
  have hquoted : ∀ n, ¬ Quoted t n := by
    rintro n (⟨hl, -⟩ | ⟨hl, -⟩)
    · rw [hrules] at hl
      cases hl
    · rw [hmethods] at hl
      cases hl
  obtain ⟨c, hlisted, htooltip⟩ := exists_listedAt_of_listsTooltip hlists
  obtain ⟨hfaded, hiff⟩ := sections_of_guardedAt (followsGrammar_of_parse? hparse) (by simp)
    (guardedAt_of_isGuardedAt hquoted hguarded) .none
  refine ⟨t, t', hparse, hparse', hfaded, fun heq => htooltip ?_⟩
  exact hiff.1 heq ⟨"attributes", 3, attributeType?, .attributes⟩ (by simp [PlainSection.all]) c
    hlisted

end Schema

end SchemaScope
