/-
**Messages by direction, changes by operation.**

The messages of a page are listed in three groups and the changes of its layout in up to four.  An
item gets into a group by a chain of look-ups, each of which may come to nothing: the first member
of a name, the parentheses around its value, a string or an access chain, and a name among a few
that are known.  Here this chain is stated once as a relation between what is written and the item
that it stands for.  Then every group is what its relation makes of the whole literal, in order.

Main definitions:

* `Listed` — a list made from another in order, by a relation that not everything takes part in;
* `FirstMember`, `Spells`, `Direction.NamedBy` — the look-ups;
* `Declares`, `Changes` — a member that declares a message, an element that describes a change.

Main results:

* `Message.ofPair?_eq_some_iff`, `LayoutEntry.ofNode?_eq_some_iff` — what is read is what is written;
* `listed_messagesOf`, `listed_entriesOf` — the messages and the changes of a literal;
* `sections_partitioned` — **every item is in the group of its direction or operation**, in order, and
  nothing else is.
-/

import SchemaScope.Proofs.Schema.Sites

set_option autoImplicit false

namespace SchemaScope.Schema

open Script

/-! ### Lists made in order -/

/-- The second list is made from the first in order: what stands for something gives it, and
everything else is passed over. -/
inductive Listed {α β : Type} (R : α → β → Prop) : List α → List β → Prop
  | nil : Listed R [] []
  | keep {x : α} {y : β} {xs : List α} {ys : List β} (h : R x y) (hrest : Listed R xs ys) :
      Listed R (x :: xs) (y :: ys)
  | pass {x : α} {xs : List α} {ys : List β} (h : ∀ y, ¬ R x y) (hrest : Listed R xs ys) :
      Listed R (x :: xs) ys

section Listed

variable {α β : Type} {R : α → β → Prop} {f : α → Option β}

theorem listed_filterMap (hf : ∀ x y, f x = some y ↔ R x y) (xs : List α) :
    Listed R xs (xs.filterMap f) := by
  induction xs with
  | nil => exact .nil
  | cons x xs ih =>
      cases hx : f x with
      | none =>
          rw [List.filterMap_cons_none hx]
          refine .pass (fun y hy => ?_) ih
          rw [← hf, hx] at hy
          cases hy
      | some y =>
          rw [List.filterMap_cons_some hx]
          exact .keep ((hf x y).1 hx) ih

/-- Some of the items: those that pass a test. -/
theorem listed_filter (hf : ∀ x y, f x = some y ↔ R x y) (test : β → Prop) [DecidablePred test]
    (xs : List α) :
    Listed (fun x y => R x y ∧ test y) xs ((xs.filterMap f).filter fun y => test y) := by
  have hboth : ∀ x y, (f x).filter (fun y => test y) = some y ↔ R x y ∧ test y := by
    intro x y
    rw [Option.filter_eq_some_iff, hf]
    simp
  rw [List.filter_filterMap]
  exact listed_filterMap hboth xs

end Listed

/-! ### Members by name -/

/-- The value of the first member of an object literal with the given name, without the parentheses
around it. -/
inductive FirstMember (object : Node) (key : String) : Node → Prop
  | first {before after : List Node} {pair value : Node}
      (hpairs : object.pairs = before ++ pair :: after) (hbefore : ∀ p ∈ before, p.key? ≠ some key)
      (hkey : pair.key? = some key) (hvalue : pair.child? .value = some value) :
      FirstMember object key value.unwrapped

theorem property?_eq_some_iff {object v : Node} {key : String} :
    object.property? key = some v ↔ FirstMember object key v := by
  simp only [Node.property?, Option.bind_eq_bind, Option.bind_eq_some_iff, Option.pure_def,
    Option.some.injEq]
  constructor
  · rintro ⟨pair, hfind, value, hvalue, rfl⟩
    obtain ⟨hkey, before, after, hpairs, hbefore⟩ := List.find?_eq_some_iff_append.1 hfind
    exact .first hpairs (fun p hp => by simpa using hbefore p hp) (by simpa using hkey) hvalue
  · rintro ⟨hpairs, hbefore, hkey, hvalue⟩
    refine ⟨_, List.find?_eq_some_iff_append.2 ⟨by simpa using hkey, _, _, hpairs, ?_⟩, _, hvalue,
      rfl⟩
    intro p hp
    simpa using hbefore p hp

theorem FirstMember.kind_eq {object v : Node} {key : String} (h : FirstMember object key v) :
    object.kind = .object := by
  obtain ⟨hpairs, -, -, -⟩ := h
  exact (mem_pairs_iff.1 (hpairs ▸ List.mem_append_right _ List.mem_cons_self)).1

theorem propertyString?_eq_some_iff {object : Node} {key text : String} :
    object.propertyString? key = some text ↔
      ∃ v, FirstMember object key v ∧ v.stringValue? = some text := by
  simp only [Node.propertyString?, Option.bind_eq_some_iff, property?_eq_some_iff]

/-- What a value spells: the text of a string, or the last name of an access chain of at least two
names. -/
inductive Spells (value : Node) (text : String) : Prop
  | string (h : value.stringValue? = some text)
  | path {front : List String} (hfront : front ≠ [])
      (h : value.memberPath? = some (front ++ [text]))

/-- A string is no access chain. -/
theorem memberPath?_of_stringValue? {value : Node} {text : String}
    (h : value.stringValue? = some text) : value.memberPath? = none := by
  obtain ⟨kind, role, location, written, children⟩ := value
  simp only [Node.stringValue?, Option.ite_none_right_eq_some] at h
  obtain ⟨⟨hkind, -⟩, -⟩ := h
  subst hkind
  simp [Node.memberPath?]

theorem symbol?_eq_some_iff {config : Node} {key text : String} :
    symbol? config key = some text ↔ ∃ v, FirstMember config key v ∧ Spells v text := by
  simp only [symbol?, Option.bind_eq_bind, Option.bind_eq_some_iff, property?_eq_some_iff]
  refine exists_congr fun v => and_congr_right fun _ => ?_
  cases hstring : v.stringValue? with
  | some written =>
      constructor
      · intro h
        exact .string (hstring.trans h)
      · rintro (h | ⟨-, h⟩)
        · exact hstring.symm.trans h
        · rw [memberPath?_of_stringValue? hstring] at h
          cases h
  | none =>
      constructor
      · intro h
        obtain ⟨path, hpath, hlast⟩ := Option.bind_eq_some_iff.1 h
        obtain ⟨hpath, hlength⟩ := Option.filter_eq_some_iff.1 hpath
        obtain ⟨front, rfl⟩ := List.getLast?_eq_some_iff.1 hlast
        refine .path ?_ hpath
        rintro rfl
        simp at hlength
      · rintro (h | ⟨hfront, h⟩)
        · rw [hstring] at h
          cases h
        · have hlength := List.length_pos_iff.2 hfront
          simp [h, Option.filter, hlength]

/-! ### Messages -/

/-- The text names the direction, in any case of ASCII letters. -/
def Direction.NamedBy (d : Direction) (text : String) : Prop :=
  text.toList.map Char.toUpper = d.name.toList

theorem Direction.ofName?_eq_some_iff {d : Direction} {text : String} :
    ofName? text = some d ↔ d.NamedBy text := by
  unfold ofName? NamedBy
  generalize text.toList.map Char.toUpper = upper
  have hname : ∀ d : Direction, (d.name == String.ofList upper) = true ↔ upper = d.name.toList := by
    intro d
    rw [beq_iff_eq, ← String.toList_inj, String.toList_ofList, eq_comm]
  constructor
  · intro h
    exact (hname d).1 (List.find?_some (p := fun d : Direction => d.name == _) h)
  · rintro rfl
    cases d <;> decide

/-- The member declares the message: it has a name of its own, and the first member `direction` of
its value names the direction. -/
inductive Declares (pair : Node) (m : Message) : Prop
  | declared {value v : Node} {text : String} (hkey : pair.key? = some m.name)
      (hvalue : pair.child? .value = some value)
      (hfirst : FirstMember value.unwrapped "direction" v) (hspells : Spells v text)
      (hdirection : m.direction.NamedBy text)
      (hmode : ∀ mode, m.mode = some mode ↔
        ∃ w, FirstMember value.unwrapped "mode" w ∧ Spells w mode)
      (hlocation : m.location = pair.location)

theorem Message.ofPair?_eq_some_iff {pair : Node} {m : Message} :
    Message.ofPair? pair = some m ↔ Declares pair m := by
  simp only [Message.ofPair?, Option.bind_eq_bind, Option.bind_eq_some_iff, Option.pure_def,
    Option.some.injEq]
  constructor
  · rintro ⟨value, hvalue, direction, ⟨text, htext, hdirection⟩, name, hname, rfl⟩
    obtain ⟨v, hfirst, hspells⟩ := symbol?_eq_some_iff.1 htext
    exact .declared hname hvalue hfirst hspells (Direction.ofName?_eq_some_iff.1 hdirection)
      (fun _ => symbol?_eq_some_iff) rfl
  · rintro ⟨hkey, hvalue, hfirst, hspells, hdirection, hmode, hlocation⟩
    have hsame : symbol? _ "mode" = m.mode :=
      Option.ext fun mode => symbol?_eq_some_iff.trans (hmode mode).symm
    refine ⟨_, hvalue, m.direction, ⟨_, symbol?_eq_some_iff.2 ⟨_, hfirst, hspells⟩,
      Direction.ofName?_eq_some_iff.2 hdirection⟩, m.name, hkey, ?_⟩
    rw [hsame, ← hlocation]

/-- A reader that takes nothing but what passes a test may as well read everything. -/
theorem filterMap_filter_of_imp {α β : Type} {f : α → Option β} {test : α → Bool}
    (h : ∀ x, (f x).isSome = true → test x = true) (xs : List α) :
    (xs.filter test).filterMap f = xs.filterMap f := by
  induction xs with
  | nil => rfl
  | cons x xs ih =>
      by_cases hx : test x = true
      · rw [List.filter_cons_of_pos hx, List.filterMap_cons, List.filterMap_cons, ih]
      · have hnone : f x = none := by
          by_contra hne
          exact hx (h x (Option.isSome_iff_ne_none.2 hne))
        rw [List.filter_cons_of_neg hx, ih, List.filterMap_cons_none hnone]

/-- The messages of an object literal are read off everything that stands in it. -/
theorem messagesOf_eq {object : Node} (hkind : object.kind = .object) :
    messagesOf object = object.children.filterMap Message.ofPair? := by
  have hmember : ∀ c : Node, (Message.ofPair? c).isSome = true → c.kind = .pair ∧
      c.key?.isSome = true ∧ (c.child? .value).isSome = true := by
    intro c hc
    obtain ⟨m, hm⟩ := Option.isSome_iff_exists.1 hc
    obtain ⟨hkey, hvalue, -, -, -, -, -⟩ := Message.ofPair?_eq_some_iff.1 hm
    refine ⟨?_, by simp [hkey], by simp [hvalue]⟩
    by_contra hne
    simp [Node.key?, hne] at hkey
  rw [messagesOf, Node.pairs, if_pos hkind, filterMap_filter_of_imp, Node.significant,
    filterMap_filter_of_imp]
  · intro c hc
    simp [(hmember c hc).1, Kind.isNamed]
  · intro c hc
    simp [(hmember c hc).2]

/-- The messages of one direction, as they are declared. -/
theorem listed_messagesOf {object : Node} (hkind : object.kind = .object) (d : Direction) :
    Listed (fun pair m => Declares pair m ∧ m.direction = d) object.children
      ((messagesOf object).filter fun m => m.direction == d) := by
  rw [messagesOf_eq hkind]
  exact listed_filter (fun _ _ => Message.ofPair?_eq_some_iff) (·.direction = d) object.children

/-! ### Changes of the layout -/

theorem Operation.ofName?_eq_some_iff {o : Operation} {text : String} :
    ofName? text = some o ↔ text = o.name := by
  constructor
  · intro h
    have hfound := List.find?_some (p := fun o : Operation => o.name == text) h
    exact (beq_iff_eq.1 hfound).symm
  · rintro rfl
    cases o <;> decide

/-- The element describes the change: inside all parentheses it is an object literal whose first
member `operation` is the name of the operation and whose first member `name` is a string. -/
inductive Changes (lookup : CaptionLookup) (element : Node) (e : LayoutEntry) : Prop
  | changed {v w : Node} (hkind : element.unwrapped.kind = .object)
      (hoperation : FirstMember element.unwrapped "operation" v)
      (hknown : v.stringValue? = some e.operation.name)
      (hname : FirstMember element.unwrapped "name" w) (hstring : w.stringValue? = some e.name)
      (hparent : e.parentName = element.unwrapped.propertyString? "parentName")
      (hproperty : e.propertyName = element.unwrapped.propertyString? "propertyName")
      (hcaption : e.captionKey =
        (LayoutEntry.caption? element.unwrapped).bind Caption.resourceKey?)
      (htooltip : e.tooltip =
        (LayoutEntry.caption? element.unwrapped).bind (Caption.tooltip? lookup))
      (hlocation : e.location = element.unwrapped.location)

theorem LayoutEntry.ofNode?_eq_some_iff {lookup : CaptionLookup} {element : Node}
    {e : LayoutEntry} :
    LayoutEntry.ofNode? lookup element.unwrapped = some e ↔ Changes lookup element e := by
  simp only [LayoutEntry.ofNode?, Option.bind_eq_bind, Option.bind_eq_some_iff, Option.pure_def,
    Option.some.injEq]
  constructor
  · rintro ⟨operation, ⟨text, htext, hoperation⟩, name, hname, rfl⟩
    obtain rfl := Operation.ofName?_eq_some_iff.1 hoperation
    obtain ⟨v, hv, hvtext⟩ := propertyString?_eq_some_iff.1 htext
    obtain ⟨w, hw, hwtext⟩ := propertyString?_eq_some_iff.1 hname
    exact .changed hv.kind_eq hv hvtext hw hwtext rfl rfl rfl rfl rfl
  · rintro ⟨-, hv, hvtext, hw, hwtext, hparent, hproperty, hcaption, htooltip, hlocation⟩
    refine ⟨e.operation, ⟨e.operation.name, propertyString?_eq_some_iff.2 ⟨_, hv, hvtext⟩,
      Operation.ofName?_eq_some_iff.2 rfl⟩, e.name,
      propertyString?_eq_some_iff.2 ⟨_, hw, hwtext⟩, ?_⟩
    rw [← hparent, ← hproperty, ← hcaption, ← htooltip, ← hlocation]

/-- The changes in an array are read off everything that stands in it. -/
theorem entriesOf_eq (lookup : CaptionLookup) (array : Node) :
    entriesOf lookup array =
      array.children.filterMap fun element => LayoutEntry.ofNode? lookup element.unwrapped := by
  rw [entriesOf, List.filterMap_map, Node.significant]
  refine filterMap_filter_of_imp (fun c hc => ?_) array.children
  -- marks and comments are no object literals, not even in parentheses
  obtain ⟨e, he⟩ := Option.isSome_iff_exists.1 hc
  obtain ⟨hkind, -⟩ := LayoutEntry.ofNode?_eq_some_iff.1 he
  by_contra hnot
  have hbare : c.kind ≠ .parenthesized ∧ c.kind ≠ .object := by
    constructor <;>
    · intro h
      simp [h, Kind.isNamed] at hnot
  rw [Node.unwrapped_of_kind_ne hbare.1] at hkind
  exact hbare.2 hkind

/-- The changes of one operation, as they are described. -/
theorem listed_entriesOf (lookup : CaptionLookup) (array : Node) (o : Operation) :
    Listed (fun element e => Changes lookup element e ∧ e.operation = o) array.children
      ((entriesOf lookup array).filter fun e => e.operation == o) := by
  rw [entriesOf_eq]
  exact listed_filter (fun _ _ => LayoutEntry.ofNode?_eq_some_iff) (·.operation = o) array.children

/-- The groups of changes are those of the operations that occur. -/
theorem mem_groupEntries_iff {entries : List LayoutEntry} {g : LayoutGroup} :
    g ∈ groupEntries entries ↔
      g.entries = (entries.filter fun e => e.operation == g.operation) ∧ g.entries ≠ [] := by
  rw [groupEntries, List.mem_filter, List.mem_map]
  constructor
  · rintro ⟨⟨o, -, rfl⟩, hne⟩
    exact ⟨rfl, by simpa using hne⟩
  · rintro ⟨hentries, hne⟩
    refine ⟨⟨g.operation, Operation.mem_all _, ?_⟩, by simpa using hne⟩
    rw [← hentries]

/-- Groups come in the order of the operations. -/
theorem operations_sublist (entries : List LayoutEntry) :
    ((groupEntries entries).map LayoutGroup.operation).Sublist Operation.all := by
  have hsublist := (List.filter_sublist (p := fun g : LayoutGroup => !g.entries.isEmpty)
    (l := Operation.all.map fun o =>
      LayoutGroup.mk o (entries.filter fun e => e.operation == o))).map LayoutGroup.operation
  rwa [List.map_map, show (LayoutGroup.operation ∘ fun o => LayoutGroup.mk o
    (entries.filter fun e => e.operation == o)) = id from rfl, List.map_id] at hsublist

/-! ### The two sections -/

/-- **Every item is in the group of its direction or operation, in order, and nothing else is.**  The
groups of messages are those of the three directions.  The groups of changes are those of the
operations that occur, in their order, and none is empty.  A member declares at most one message and
an element describes at most one change, so none of them is in two groups. -/
theorem sections_partitioned (t : Tree) (lookup : CaptionLookup) :
    (∀ s, Section.messages? t = some s → ∃ l groups, locatedObject? t "messages" = some l ∧
      s = ⟨.messages groups, l.location⟩ ∧
      groups.map MessageGroup.direction = [.subscribe, .publish, .bidirectional] ∧
      ∀ g ∈ groups, Listed (fun pair m => Declares pair m ∧ m.direction = g.direction)
        l.value.children g.messages) ∧
    (∀ s, Section.layout? lookup t = some s → ∃ l groups, located? t "diff" = some l ∧
      l.value.kind = .array ∧ s = ⟨.layout groups, l.location⟩ ∧
      (groups.map LayoutGroup.operation).Sublist [.remove, .merge, .insert, .move] ∧
      (∀ g ∈ groups, g.entries ≠ [] ∧
        Listed (fun element e => Changes lookup element e ∧ e.operation = g.operation)
          l.value.children g.entries) ∧
      ∀ element ∈ l.value.children, ∀ e, Changes lookup element e →
        e.operation ∈ groups.map LayoutGroup.operation) ∧
    (∀ pair m m', Declares pair m → Declares pair m' → m = m') ∧
    ∀ element e e', Changes lookup element e → Changes lookup element e' → e = e' := by
  refine ⟨?_, ?_, ?_, ?_⟩
  · intro s hs
    simp only [Section.messages?, Section.ofMember?, Option.map_eq_some_iff] at hs
    obtain ⟨l, hl, rfl⟩ := hs
    have hkind : l.value.kind = .object := by
      simpa using (Option.filter_eq_some_iff.1 hl).2
    refine ⟨l, _, hl, rfl, rfl, ?_⟩
    intro g hg
    obtain ⟨d, -, rfl⟩ := List.mem_map.1 hg
    exact listed_messagesOf hkind d
  · intro s hs
    simp only [Section.layout?, Option.map_eq_some_iff] at hs
    obtain ⟨l, hl, rfl⟩ := hs
    obtain ⟨hl, hkind⟩ := Option.filter_eq_some_iff.1 hl
    refine ⟨l, _, hl, by simpa using hkind, rfl, operations_sublist _, ?_, ?_⟩
    · intro g hg
      obtain ⟨hentries, hne⟩ := mem_groupEntries_iff.1 hg
      refine ⟨hne, ?_⟩
      rw [hentries]
      exact listed_entriesOf lookup l.value g.operation
    · intro element helement e he
      -- the change is among those of its operation, so there is a group for them
      set entries := (entriesOf lookup l.value).filter fun x => x.operation == e.operation
      have hmem : e ∈ entries := by
        rw [List.mem_filter, entriesOf_eq, List.mem_filterMap]
        exact ⟨⟨element, helement, LayoutEntry.ofNode?_eq_some_iff.2 he⟩, by simp⟩
      have hgroup : (⟨e.operation, entries⟩ : LayoutGroup) ∈ groupEntries (entriesOf lookup l.value) :=
        mem_groupEntries_iff.2 ⟨rfl, List.ne_nil_of_mem hmem⟩
      exact List.mem_map_of_mem hgroup
  · intro pair m m' hm hm'
    rw [← Message.ofPair?_eq_some_iff] at hm hm'
    exact Option.some.inj (hm.symm.trans hm')
  · intro element e e' he he'
    rw [← LayoutEntry.ofNode?_eq_some_iff] at he he'
    exact Option.some.inj (he.symm.trans he')

/-- The names of what the groups of a section list. -/
def namesByGroup (s : Section) : List (List String) :=
  match s.content with
  | .messages groups => groups.map fun g => g.messages.map Message.name
  | .layout groups => groups.map fun g => g.entries.map LayoutEntry.name
  | _ => []

/-- A page with messages of two directions and changes of two operations, and with a member and an
element that are neither. -/
def mixedSections : String :=
  "define('P',[],()=>\x7breturn\x7b" ++
    "messages:\x7bA:\x7bdirection:'publish'\x7d,B:1,C:(\x7bdirection:X.SUBSCRIBE\x7d)\x7d," ++
    "diff:[\x7boperation:'move',name:'p'\x7d,1,(\x7boperation:'merge',name:'q'\x7d)]\x7d\x7d)"

theorem sections_partitioned_mixed : ∃ t messages layout, Tree.parse? mixedSections = some t ∧
    Section.messages? t = some messages ∧ Section.layout? .none t = some layout ∧
    namesByGroup messages = [["C"], ["A"], []] ∧ namesByGroup layout = [["q"], ["p"]] ∧
    (∃ l groups, locatedObject? t "messages" = some l ∧ messages = ⟨.messages groups, l.location⟩ ∧
      ∀ g ∈ groups, Listed (fun pair m => Declares pair m ∧ m.direction = g.direction)
        l.value.children g.messages) ∧
    ∃ l groups, located? t "diff" = some l ∧ layout = ⟨.layout groups, l.location⟩ ∧
      ∀ g ∈ groups, Listed (fun element e => Changes .none element e ∧ e.operation = g.operation)
        l.value.children g.entries := by
  have hpage : (Tree.parse? mixedSections).any (fun t =>
      (Section.messages? t).any (fun s => namesByGroup s == [["C"], ["A"], []]) &&
      (Section.layout? .none t).any fun s => namesByGroup s == [["q"], ["p"]]) = true := by
    decide +kernel
  obtain ⟨t, hparse, h⟩ := (Option.any_eq_true _ _).1 hpage
  simp only [Bool.and_eq_true, Option.any_eq_true, beq_iff_eq] at h
  obtain ⟨⟨messages, hmessages, hdirections⟩, layout, hlayout, hoperations⟩ := h
  obtain ⟨hlisted, hlisted', -, -⟩ := sections_partitioned t .none
  obtain ⟨l, groups, hl, hs, -, hgroups⟩ := hlisted messages hmessages
  obtain ⟨l', groups', hl', -, hs', -, hgroups', -⟩ := hlisted' layout hlayout
  exact ⟨t, messages, layout, hparse, hmessages, hlayout, hdirections, hoperations,
    ⟨l, groups, hl, hs, hgroups⟩, l', groups', hl', hs', fun g hg => (hgroups' g hg).2⟩

end SchemaScope.Schema
