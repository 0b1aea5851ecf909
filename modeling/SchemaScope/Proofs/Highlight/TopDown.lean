/-
**The annotator, from the top down.**

The annotator looks at each member of a script by itself.  For every rule it goes up from the member
to find the names of the members around it and the attribute that a business rule is declared on.
The same annotations come from one descent through the tree, on which every node is handed what is
above it: the names of the members it stands in, and the member it stands in directly.

The two agree if every number literal has its say on the descent, and says what the annotator
understands.  They can differ in two ways.  A literal whose text is not understood, such as a big
integer in a radix, is no number to the annotator, and it leaves the literal out.  And a number that
is understood can be another one than the literal writes, if it is too big for the doubles or for 64
bits; then a rule can give it another name.

Main definitions:

* `Script.Surroundings` — what a node is handed on the way down;
* `Script.Node.descend` — a descent through a tree;
* `Script.Cursor.surroundings` — what is above a place, looked up from there;
* `NumberReading` — what number literals say;
* `ValueRule.note?`, `HighlightRule.note?`, `topDown` — the annotations on the way down;
* `ValueRule.Asks` — a rule asks for the value of a number literal;
* `NumberReading.Agrees` — a literal is understood, and has the name that it should have.

Main results:

* `Script.Cursor.names_surroundings`, `Script.Cursor.owner_surroundings` — what is above a place;
* `Schema.BusinessRule.isSome_ofNode?_iff` — what a business rule is read off;
* `Script.Tree.flatMap_walk` — a walk on which every place looks up is a descent;
* `annotate_eq_topDown_iff` — **what the annotator finds, from the top down**.
-/

import SchemaScope.Highlight
import SchemaScope.Proofs.Number.ExactValues
import SchemaScope.Proofs.Script.Places

set_option autoImplicit false

namespace SchemaScope

open Script Platform Schema

/-! ### Descending -/

namespace Script

/-- What a node is handed on the way down: the names of the members it stands in, nearest first, the
name of the member it stands in directly, that is, as its value, and the name of the member that the
literal around it stands in directly. -/
structure Surroundings where
  names : List String
  holder : Option String
  owner : Option String
  deriving DecidableEq, Repr, Inhabited

namespace Surroundings

/-- Nothing is above the root. -/
def outside : Surroundings := ⟨[], none, none⟩

/-- What a node hands to its children. -/
def below (s : Surroundings) (n : Node) : Surroundings :=
  ⟨n.key?.toList ++ s.names, n.key?, s.holder⟩

end Surroundings

namespace Node

variable {β : Type}

mutual

/-- Descends through a tree and puts together what is found at its nodes, a parent before its
children. -/
def descend (find : Surroundings → Node → List β) (s : Surroundings) : Node → List β
  | ⟨kind, role, location, text, children⟩ =>
      find s ⟨kind, role, location, text, children⟩ ++
        descendAll find (s.below ⟨kind, role, location, text, children⟩) children

/-- Descends through several trees, one after the other. -/
def descendAll (find : Surroundings → Node → List β) (s : Surroundings) : List Node → List β
  | [] => []
  | n :: later => n.descend find s ++ descendAll find s later

end

end Node

/-! ### Looking up -/

namespace Cursor

variable {β : Type}

/-- What is above a place with the given frames. -/
def surroundingsOf : List Frame → Surroundings
  | [] => .outside
  | f :: above => (surroundingsOf above).below f.parent

/-- What is above a place. -/
def surroundings (c : Cursor) : Surroundings := surroundingsOf c.frames

theorem names_surroundings (c : Cursor) :
    c.surroundings.names = c.enclosing.filterMap fun above => above.node.key? := by
  rw [surroundings, enclosing]
  induction c.frames with
  | nil => rfl
  | cons f above ih =>
      rw [surroundingsOf, Surroundings.below, ih, ancestors, List.filterMap_cons]
      cases f.parent.key? <;> rfl

theorem holder_surroundings (c : Cursor) :
    c.surroundings.holder = c.parent?.bind fun above => above.node.key? := by
  rw [surroundings, parent?]
  cases c.frames <;> rfl

theorem owner_surroundings (c : Cursor) :
    c.surroundings.owner = (c.parent?.bind parent?).bind fun above => above.node.key? := by
  obtain ⟨n, frames⟩ := c
  cases frames with
  | nil => rfl
  | cons f above => exact holder_surroundings ⟨f.parent, above⟩

mutual

/-- Below a node, a descent finds what every place finds that looks up. -/
theorem flatMap_within (find : Surroundings → Node → List β) (frames : List Frame) :
    ∀ n : Node, (within frames n).flatMap (fun c => find c.surroundings c.node) =
      n.descend find (surroundingsOf frames)
  | ⟨kind, role, location, text, children⟩ => by
      rw [within, List.flatMap_cons, flatMap_withinAll find _ frames [] children]
      rfl

/-- Below several siblings, a descent finds what every place finds that looks up. -/
theorem flatMap_withinAll (find : Surroundings → Node → List β) (parent : Node)
    (frames : List Frame) (earlier : List Node) :
    ∀ siblings : List Node, (withinAll parent frames earlier siblings).flatMap
        (fun c => find c.surroundings c.node) =
      Node.descendAll find ((surroundingsOf frames).below parent) siblings
  | [] => rfl
  | n :: later => by
      rw [withinAll, List.flatMap_append, flatMap_within find _ n,
        flatMap_withinAll find parent frames (n :: earlier) later]
      rfl

end

/-- A place is inside a member of a name if this is among the names above it. -/
theorem isInside_eq (name : String) (c : Cursor) :
    isInside name c = c.surroundings.names.contains name := by
  rw [isInside, Bool.eq_iff_iff, List.any_eq_true, List.contains_iff_mem, names_surroundings,
    List.mem_filterMap]
  simp

end Cursor

/-- A walk on which every place looks up is a descent. -/
theorem Tree.flatMap_walk {β : Type} (t : Tree) (find : Surroundings → Node → List β) :
    t.walk.flatMap (fun c => find c.surroundings c.node) = t.root.descend find .outside := by
  rw [t.walk_eq_within]
  exact Cursor.flatMap_within find [] t.root

end Script

/-! ### Annotations on the way down -/

/-- What a number literal says: nothing if its text is not understood, and otherwise its value if that
is an integer. -/
abbrev NumberReading := Node → Option (Option Int)

/-- What the annotator understands of a number literal. -/
def Script.Node.understood : NumberReading := fun literal => literal.numberValue?.map Binary64.integer?

namespace ValueRule

/-- The name of the first member with a value. -/
def nameOf (r : ValueRule) (value : Option Int) : String :=
  ((value.bind fun n => r.members.find? fun m => m.2 == n).map Prod.fst).getD unknown

/-- The rule asks for the value of the literal: the literal is the value of a member with the name of
the rule, inside a member with the name that the rule demands. -/
def Asks (r : ValueRule) (s : Surroundings) (pair literal : Node) : Prop :=
  pair.child? .value = some literal ∧ pair.key? = some r.key ∧ literal.kind = .number ∧
    r.ancestor.all (s.names.contains ·) = true

/-- The annotation of a member: the name of its number, right after it. -/
def note? (reading : NumberReading) (r : ValueRule) (s : Surroundings) (pair : Node) :
    Option Highlight := do
  let literal ← pair.child? .value
  if pair.key? = some r.key ∧ literal.kind = .number ∧ r.ancestor.all (s.names.contains ·) then
    (reading literal).map fun value => ⟨r.nameOf value, literal.location.endPoint⟩
  else none

end ValueRule

/-- The annotation of a business rule: its summary, right before it. -/
def businessRuleNote? (s : Surroundings) (pair : Node) : Option Highlight := do
  let value ← pair.child? .value
  let rule ← BusinessRule.ofNode? value.unwrapped
  if s.names.contains "businessRules" then
    some ⟨rule.describe (s.owner.getD unknown), value.unwrapped.location.startPoint⟩
  else none

/-- The annotation of a member by a rule. -/
def HighlightRule.note? (reading : NumberReading) (s : Surroundings) (pair : Node) :
    HighlightRule → Option Highlight
  | .value rule => rule.note? reading s pair
  | .businessRule => businessRuleNote? s pair

/-- The annotations at a node. -/
def notes (reading : NumberReading) (rules : List HighlightRule) (s : Surroundings) (n : Node) :
    List Highlight :=
  if n.kind = .pair then rules.filterMap fun rule => rule.note? reading s n else []

/-- The annotations of a script, on one way down. -/
def topDown (reading : NumberReading) (rules : List HighlightRule) (t : Tree) : List Highlight :=
  t.root.descend (notes reading rules) .outside

/-! ### What the annotator finds -/

/-- A rule is read off an object with a string as its identifier. -/
theorem Schema.BusinessRule.isSome_ofNode?_iff {n : Node} : (BusinessRule.ofNode? n).isSome ↔
    n.kind = .object ∧ (n.propertyString? "uId").isSome := by
  unfold ofNode?
  cases n.propertyString? "uId" <;> simp

theorem ValueRule.highlight?_eq_note? (r : ValueRule) (c : Cursor) :
    r.highlight? c = r.note? Node.understood c.surroundings c.node := by
  simp only [highlight?, note?, Cursor.isInside_eq, Node.understood]
  cases c.node.child? .value with
  | none => rfl
  | some literal =>
      cases hnumber : literal.numberValue? with
      | none => simp [hnumber]
      | some number =>
          have hkind : literal.kind = .number := by
            by_contra hne
            simp [Node.numberValue?, hne] at hnumber
          simp [hnumber, hkind, memberName, nameOf]

theorem HighlightRule.highlight?_eq_note? (rule : HighlightRule) (c : Cursor) :
    rule.highlight? c = rule.note? Node.understood c.surroundings c.node := by
  cases rule with
  | value rule => exact rule.highlight?_eq_note? c
  | businessRule =>
      simp only [highlight?, note?, businessRuleHighlight?, businessRuleNote?, Cursor.isInside_eq,
        owningAttribute, Cursor.owner_surroundings]

theorem annotateMember_eq_notes (rules : List HighlightRule) (c : Cursor) :
    annotateMember rules c = notes Node.understood rules c.surroundings c.node := by
  simp only [annotateMember, notes, HighlightRule.highlight?_eq_note?]

/-- The annotator finds on its walk what a descent finds on which number literals are understood as
the annotator does. -/
theorem annotate_eq_topDown_understood (rules : List HighlightRule) (t : Tree) :
    annotate rules t = topDown Node.understood rules t := by
  rw [annotate, topDown, ← t.flatMap_walk]
  exact List.flatMap_congr fun c _ => annotateMember_eq_notes rules c

/-! ### Where every literal has its say -/

/-- Lists put together from parts that are at most as long as those of another list are the same as
this only if all parts are. -/
theorem flatMap_eq_flatMap_iff_of_length_le {α β : Type} {f g : α → List β} {l : List α}
    (h : ∀ x ∈ l, (f x).length ≤ (g x).length) :
    l.flatMap f = l.flatMap g ↔ ∀ x ∈ l, f x = g x := by
  refine ⟨fun heq => ?_, List.flatMap_congr⟩
  induction l with
  | nil => exact nofun
  | cons x l ih =>
      rw [List.forall_mem_cons] at h
      rw [List.flatMap_cons, List.flatMap_cons] at heq
      have hrest : (l.flatMap f).length ≤ (l.flatMap g).length := by
        rw [List.length_flatMap, List.length_flatMap]
        exact List.sum_le_sum h.2
      have hlength := congrArg List.length heq
      rw [List.length_append, List.length_append] at hlength
      obtain ⟨hx, hl⟩ := List.append_inj heq (by have := h.1; omega)
      exact List.forall_mem_cons.2 ⟨hx, ih h.2 hl⟩

section Reading

variable {reading : NumberReading} {rules : List HighlightRule} {t : Tree}

/-- Every literal says something. -/
def NumberReading.IsTotal (reading : NumberReading) : Prop := ∀ literal, (reading literal).isSome

/-- The annotator understands the literal, and the rule gives what it understands the name of what the
literal says. -/
def NumberReading.Agrees (reading : NumberReading) (r : ValueRule) (literal : Node) : Prop :=
  ∃ number value, literal.numberValue? = some number ∧ reading literal = some value ∧
    r.nameOf number.integer? = r.nameOf value

theorem ValueRule.note?_eq_some_iff {r : ValueRule} {s : Surroundings} {pair : Node}
    {h : Highlight} : r.note? reading s pair = some h ↔
      ∃ literal value, r.Asks s pair literal ∧ reading literal = some value ∧
        h = ⟨r.nameOf value, literal.location.endPoint⟩ := by
  simp only [note?, Asks, Option.bind_eq_bind, Option.bind_eq_some_iff, Option.ite_none_right_eq_some,
    Option.map_eq_some_iff]
  constructor
  · rintro ⟨literal, hliteral, ⟨hkey, hkind, habove⟩, value, hvalue, rfl⟩
    exact ⟨literal, value, ⟨hliteral, hkey, hkind, habove⟩, hvalue, rfl⟩
  · rintro ⟨literal, value, ⟨hliteral, hkey, hkind, habove⟩, hvalue, rfl⟩
    exact ⟨literal, hliteral, ⟨hkey, hkind, habove⟩, value, hvalue, rfl⟩

/-- Where something is noted down for understood literals, something is noted down for all. -/
theorem HighlightRule.isSome_note?_of_understood (htotal : reading.IsTotal) {s : Surroundings}
    {pair : Node} {rule : HighlightRule} (hnote : (rule.note? Node.understood s pair).isSome) :
    (rule.note? reading s pair).isSome := by
  cases rule with
  | businessRule => exact hnote
  | value r =>
      obtain ⟨h, hnote⟩ := Option.isSome_iff_exists.1 hnote
      obtain ⟨literal, -, hasks, -, -⟩ := ValueRule.note?_eq_some_iff.1 hnote
      obtain ⟨value, hvalue⟩ := Option.isSome_iff_exists.1 (htotal literal)
      exact Option.isSome_iff_exists.2
        ⟨_, ValueRule.note?_eq_some_iff.2 ⟨literal, value, hasks, hvalue, rfl⟩⟩

/-- A rule notes down the same in both ways exactly if the literal that it asks for agrees. -/
theorem HighlightRule.note?_eq_iff (htotal : reading.IsTotal) {s : Surroundings} {pair : Node}
    {rule : HighlightRule} : rule.note? Node.understood s pair = rule.note? reading s pair ↔
      ∀ r literal, rule = .value r → r.Asks s pair literal → reading.Agrees r literal := by
  constructor
  · rintro hsame r literal rfl hasks
    obtain ⟨value, hvalue⟩ := Option.isSome_iff_exists.1 (htotal literal)
    have hnote : (HighlightRule.value r).note? Node.understood s pair =
        some ⟨r.nameOf value, literal.location.endPoint⟩ :=
      hsame.trans (ValueRule.note?_eq_some_iff.2 ⟨literal, value, hasks, hvalue, rfl⟩)
    obtain ⟨literal', value', hasks', hvalue', hname⟩ := ValueRule.note?_eq_some_iff.1 hnote
    obtain rfl : literal = literal' := Option.some.inj (hasks.1.symm.trans hasks'.1)
    obtain ⟨number, hnumber, rfl⟩ := Option.map_eq_some_iff.1 hvalue'
    exact ⟨number, value, hnumber, hvalue, (congrArg Highlight.name hname).symm⟩
  · intro hagrees
    cases hnote : rule.note? reading s pair with
    | none =>
        -- nothing is noted down where nothing is noted down for all literals
        refine Option.not_isSome_iff_eq_none.1 fun hsome => ?_
        have hless := HighlightRule.isSome_note?_of_understood htotal hsome
        rw [hnote] at hless
        cases hless
    | some h =>
        cases rule with
        | businessRule => exact hnote
        | value r =>
            obtain ⟨literal, value, hasks, hvalue, rfl⟩ := ValueRule.note?_eq_some_iff.1 hnote
            obtain ⟨number, value', hnumber, hvalue', hname⟩ := hagrees r literal rfl hasks
            obtain rfl : value = value' := Option.some.inj (hvalue.symm.trans hvalue')
            rw [← hname]
            exact ValueRule.note?_eq_some_iff.2
              ⟨literal, _, hasks, by rw [Node.understood, hnumber]; rfl, rfl⟩

theorem HighlightRule.length_note?_le (htotal : reading.IsTotal) (s : Surroundings) (pair : Node)
    (rule : HighlightRule) : (rule.note? Node.understood s pair).toList.length ≤
      (rule.note? reading s pair).toList.length := by
  cases hnote : rule.note? Node.understood s pair with
  | none => exact Nat.zero_le _
  | some h =>
      have hsome := HighlightRule.isSome_note?_of_understood htotal (by rw [hnote]; rfl)
      obtain ⟨h', hnote'⟩ := Option.isSome_iff_exists.1 hsome
      rw [hnote']
      exact Nat.le_refl 1

theorem length_notes_le (htotal : reading.IsTotal) (s : Surroundings) (n : Node) :
    (notes Node.understood rules s n).length ≤ (notes reading rules s n).length := by
  unfold notes
  split
  · rw [List.filterMap_eq_flatMap_toList, List.filterMap_eq_flatMap_toList, List.length_flatMap,
      List.length_flatMap]
    exact List.sum_le_sum fun rule _ => rule.length_note?_le htotal s n
  · exact Nat.le_refl _

/-- At a node the same is noted down in both ways exactly if the literals that rules ask for agree. -/
theorem notes_eq_iff (htotal : reading.IsTotal) {s : Surroundings} {n : Node} :
    notes Node.understood rules s n = notes reading rules s n ↔
      ∀ r literal, .value r ∈ rules → r.Asks s n literal → reading.Agrees r literal := by
  unfold notes
  split
  · next hkind =>
    rw [List.filterMap_eq_flatMap_toList, List.filterMap_eq_flatMap_toList,
      flatMap_eq_flatMap_iff_of_length_le fun rule _ => rule.length_note?_le htotal s n]
    constructor
    · intro hsame r literal hr hasks
      have hnote := congrArg List.head? (hsame _ hr)
      rw [Option.head?_toList, Option.head?_toList] at hnote
      exact (HighlightRule.note?_eq_iff htotal).1 hnote r literal rfl hasks
    · intro hagrees rule hrule
      refine congrArg Option.toList ((HighlightRule.note?_eq_iff htotal).2 ?_)
      rintro r literal rfl hasks
      exact hagrees r literal hrule hasks
  · next hkind =>
    -- only members have names
    refine ⟨fun _ r literal _ hasks => ?_, fun _ => rfl⟩
    have hkey := hasks.2.1
    rw [Node.key?, if_neg hkind] at hkey
    cases hkey

/-- **What the annotator finds, from the top down.**  For all rules and all scripts, the annotations
are those of one descent on which the number literals that are understood have their say.  Whatever
number literals are taken to say, the annotations are those of a descent on which every number literal
has its say exactly if every literal that a rule asks for is understood, and gets the name that the
rule has for what it says. -/
theorem annotate_eq_topDown_iff (rules : List HighlightRule) (t : Tree) :
    annotate rules t = topDown Node.understood rules t ∧
    ∀ reading : NumberReading, reading.IsTotal →
      (annotate rules t = topDown reading rules t ↔
        ∀ c ∈ t.walk, ∀ r literal, .value r ∈ rules → r.Asks c.surroundings c.node literal →
          reading.Agrees r literal) := by
  refine ⟨annotate_eq_topDown_understood rules t, fun reading htotal => ?_⟩
  rw [annotate_eq_topDown_understood, topDown, topDown, ← t.flatMap_walk, ← t.flatMap_walk,
    flatMap_eq_flatMap_iff_of_length_le fun c _ => length_notes_le htotal c.surroundings c.node]
  exact forall₂_congr fun c _ => notes_eq_iff htotal

end Reading

/-- A literal says the whole number that it writes, if it writes one. -/
def exactReading : NumberReading := fun literal =>
  some ((Literal.whole? literal.text.toList).map Int.ofNat)

/-- Numbers under one key stand for two members, one of them the greatest number of 64 bits. -/
def gridRules : List HighlightRule :=
  [.value ⟨"itemType", [("GRID", 0), ("LAST", 9223372036854775807)], none⟩]

theorem exactReading_isTotal : exactReading.IsTotal := fun _ => rfl

/-- A zero is annotated from the top down as by the annotator.  A big integer in a radix is not: the
annotator leaves it out, since its text is not understood.  And a number of more than 63 bits gets the
name of the greatest one that has a place. -/
theorem annotate_eq_topDown_iff_bigInteger :
    exactReading.IsTotal ∧
    (∃ t, Tree.parse? "var x = \x7b itemType: 0x0 \x7d;" = some t ∧
      annotate gridRules t = topDown exactReading gridRules t ∧
      (annotate gridRules t).map (·.name) = ["GRID"]) ∧
    (∃ t, Tree.parse? "var x = \x7b itemType: 0x5n \x7d;" = some t ∧ annotate gridRules t = [] ∧
      topDown exactReading gridRules t = [⟨unknown, ⟨⟨1, 24⟩, ⟨1, 24⟩, 24, 24⟩⟩]) ∧
    ∃ t, Tree.parse? "var x = \x7b itemType: 9223372036854775808 \x7d;" = some t ∧
      (annotate gridRules t).map (·.name) = ["LAST"] ∧
      (topDown exactReading gridRules t).map (·.name) = [unknown] ∧
      ∃ c ∈ t.walk, ∃ r literal, .value r ∈ gridRules ∧ r.Asks c.surroundings c.node literal ∧
        ¬ exactReading.Agrees r literal := by
  have hzero : (Tree.parse? "var x = \x7b itemType: 0x0 \x7d;").any (fun t =>
      decide (topDown exactReading gridRules t = topDown Node.understood gridRules t) &&
        (topDown exactReading gridRules t).map (·.name) == ["GRID"]) = true := by decide +kernel
  have hbig : (Tree.parse? "var x = \x7b itemType: 0x5n \x7d;").any (fun t =>
      decide (topDown Node.understood gridRules t = []) &&
        decide (topDown exactReading gridRules t = [⟨unknown, ⟨⟨1, 24⟩, ⟨1, 24⟩, 24, 24⟩⟩])) =
          true := by decide +kernel
  have hlong : (Tree.parse? "var x = \x7b itemType: 9223372036854775808 \x7d;").any (fun t =>
      (topDown Node.understood gridRules t).map (·.name) == ["LAST"] &&
        (topDown exactReading gridRules t).map (·.name) == [unknown]) = true := by decide +kernel
  obtain ⟨t, hparse, h⟩ := (Option.any_eq_true _ _).1 hzero
  obtain ⟨t', hparse', h'⟩ := (Option.any_eq_true _ _).1 hbig
  obtain ⟨t'', hparse'', h''⟩ := (Option.any_eq_true _ _).1 hlong
  simp only [Bool.and_eq_true, decide_eq_true_eq, beq_iff_eq] at h h' h''
  obtain ⟨hfound, -⟩ := annotate_eq_topDown_iff gridRules t
  obtain ⟨hfound', -⟩ := annotate_eq_topDown_iff gridRules t'
  obtain ⟨hfound'', hiff⟩ := annotate_eq_topDown_iff gridRules t''
  refine ⟨exactReading_isTotal, ⟨t, hparse, hfound.trans h.1.symm, ?_⟩,
    ⟨t', hparse', hfound'.trans h'.1, h'.2⟩, t'', hparse'', ?_, h''.2, ?_⟩
  · rw [hfound, ← h.1]
    exact h.2
  · rw [hfound'']
    exact h''.1
  · -- the two differ, so some literal is asked for and does not agree
    have hne : annotate gridRules t'' ≠ topDown exactReading gridRules t'' := by
      rw [hfound'']
      intro heq
      rw [heq, h''.2] at h''
      exact absurd h''.1 (by decide)
    have hsome := mt (hiff exactReading exactReading_isTotal).2 hne
    push Not at hsome
    obtain ⟨c, hc, r, literal, hr, hasks, hnot⟩ := hsome
    exact ⟨c, hc, r, literal, hr, hasks, hnot⟩

end SchemaScope
