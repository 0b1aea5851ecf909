/-
**Shapes that the grammar allows.**

Whoever looks for parts of a node relies on how the grammar puts nodes together: parentheses hold
one expression, only a call has a callee, a pair has a key and a value and the value stands behind
the key, and there is nothing in a word or a literal.
These are statements about a node and its children, and they survive both changes that are made to
nodes after they have been read: a literal that turns out to be a target, and comments that are put
in their places.

Main definitions:

* `Node.FollowsGrammar` — parentheses, callees and pairs are as the grammar says;
* `Kind.isBare`, `Kind.isPlain` — kinds of words and literals, and kinds that make no demands;
* `Node.Conforms` — moreover, a pair is a key and a value, values stand behind keys, arguments behind
  callees, words and literals hold nothing, and the node starts where its first byte is;
* `Node.ConformsThroughout` — this holds of all nodes of a tree;
* `Node.Part`, `Node.Reading`, `Node.IsMark` — what the productions of the grammar are made of.

Main results:

* `Location.Placed.startByte_eq` — where a line and column of a text determine the byte;
* `Node.Reading.of_plain` — a node around parts, if its kind makes no demands;
* `Node.part_of_toTarget?` — a target conforms if the literal does;
* `Node.conformsThroughout_weave` — **comments can be put anywhere into a tree that conforms**.
-/

import SchemaScope.Proofs.Script.Places
import SchemaScope.Script.Shape

set_option autoImplicit false

namespace SchemaScope

/-! ### Marks of a text -/

/-- The mark is where the rest of a text begins. -/
def Mark.Reaches (source : List Char) (m : Mark) (rest : List Char) : Prop :=
  ∃ before, source = before ++ rest ∧ m = Mark.origin.advanceText before

namespace Mark

variable {source rest text : List Char} {m : Mark}

theorem advanceText_append (m : Mark) (s t : List Char) :
    m.advanceText (s ++ t) = (m.advanceText s).advanceText t := List.foldl_append

theorem Reaches.advanceText (h : m.Reaches source (text ++ rest)) :
    (m.advanceText text).Reaches source rest := by
  obtain ⟨before, rfl, rfl⟩ := h
  exact ⟨before ++ text, by simp, (advanceText_append _ _ _).symm⟩

theorem Reaches.advance {c : Char} (h : m.Reaches source (c :: rest)) :
    (m.advance c).Reaches source rest := by
  have hfront : m.Reaches source ([c] ++ rest) := h
  exact hfront.advanceText

theorem Reaches.drop (h : m.Reaches source rest) (width : Nat) :
    (m.advanceText (rest.take width)).Reaches source (rest.drop width) := by
  refine Reaches.advanceText ?_
  rwa [List.take_append_drop]

theorem position_advanceText (m : Mark) (text : List Char) :
    (m.advanceText text).position = m.position.advanceText text := by
  induction text generalizing m with
  | nil => rfl
  | cons c text ih => exact ih (m.advance c)

/-- Of two marks of a text, one is reached from the other. -/
theorem Reaches.or_advanceText {n : Mark} {rest' : List Char} (hm : m.Reaches source rest)
    (hn : n.Reaches source rest') :
    ∃ text, n = m.advanceText text ∨ m = n.advanceText text := by
  obtain ⟨before, hsource, rfl⟩ := hm
  obtain ⟨before', hsource', rfl⟩ := hn
  rcases List.append_eq_append_iff.1 (hsource.symm.trans hsource') with
    ⟨text, rfl, -⟩ | ⟨text, rfl, -⟩
  · exact ⟨text, .inl (advanceText_append _ _ _)⟩
  · exact ⟨text, .inr (advanceText_append _ _ _)⟩

end Mark

namespace Position

theorem before_advance (p : Position) (c : Char) : p.before (p.advance c) = true := by
  have hsize := c.utf8Size_pos
  unfold before advance
  split
  · simp
  · simp [hsize]

theorem before_trans {p q r : Position} (hpq : p.before q = true) (hqr : q.before r = true) :
    p.before r = true := by
  simp only [before, Bool.or_eq_true, Bool.and_eq_true, beq_iff_eq, decide_eq_true_eq] at *
  omega

/-- A position moves on with every text that is read. -/
theorem before_advanceText (p : Position) {text : List Char} (h : text ≠ []) :
    p.before (p.advanceText text) = true := by
  induction text generalizing p with
  | nil => exact absurd rfl h
  | cons c text ih =>
      rw [advanceText_cons]
      by_cases htext : text = []
      · subst htext
        exact p.before_advance c
      · exact before_trans (p.before_advance c) (ih _ htext)

theorem eq_nil_of_advanceText_eq {p : Position} {text : List Char} (h : p.advanceText text = p) :
    text = [] := by
  by_contra htext
  have hbefore := p.before_advanceText htext
  rw [h] at hbefore
  simp [before] at hbefore

theorem line_le_advanceText (p : Position) (text : List Char) :
    p.line ≤ (p.advanceText text).line := by
  by_cases htext : text = []
  · simp [htext]
  · have hbefore := p.before_advanceText htext
    simp only [before, Bool.or_eq_true, Bool.and_eq_true, beq_iff_eq, decide_eq_true_eq] at hbefore
    omega

end Position

/-- Marks of a text at the same position are the same. -/
theorem Mark.Reaches.eq_of_position {source rest rest' : List Char} {m n : Mark}
    (hm : m.Reaches source rest) (hn : n.Reaches source rest') (h : m.position = n.position) :
    m = n := by
  obtain ⟨text, rfl | rfl⟩ := hm.or_advanceText hn
  · rw [position_advanceText] at h
    rw [Position.eq_nil_of_advanceText_eq h.symm, advanceText_nil]
  · rw [position_advanceText] at h
    rw [Position.eq_nil_of_advanceText_eq h, advanceText_nil]

/-- The location starts at a mark of the text. -/
def Location.Placed (source : List Char) (l : Location) : Prop :=
  ∃ m rest, Mark.Reaches source m rest ∧ l.start = m.position ∧ l.startByte = m.byte

theorem Mark.Reaches.placed {source rest : List Char} {m : Mark} (h : m.Reaches source rest)
    (stop : Mark) : (m.upTo stop).Placed source :=
  ⟨m, rest, h, rfl, rfl⟩

namespace Location.Placed

variable {source : List Char} {l k : Location}

/-- Locations of a text that start at the same position start at the same byte. -/
theorem startByte_eq (hl : l.Placed source) (hk : k.Placed source) (h : l.start = k.start) :
    l.startByte = k.startByte := by
  obtain ⟨m, rest, hm, hmstart, hmbyte⟩ := hl
  obtain ⟨n, rest', hn, hnstart, hnbyte⟩ := hk
  have heq : m = n := hm.eq_of_position hn (by rw [← hmstart, ← hnstart, h])
  rw [hmbyte, hnbyte, heq]

/-- Lines are counted from one. -/
theorem line_pos (hl : l.Placed source) : 0 < l.start.line := by
  obtain ⟨m, rest, ⟨before, -, rfl⟩, hstart, -⟩ := hl
  have hline := Position.origin.line_le_advanceText before
  rw [hstart, Mark.position_advanceText]
  exact hline

end Location.Placed

namespace Script

/-- The kinds of single words, literals and marks: nothing but a comment stands in them. -/
def Kind.isBare : Kind → Bool
  | .token _ | .comment | .identifier | .propertyIdentifier | .number | .string => true
  | _ => false

/-- The kinds that ask nothing of the children of a node, and are neither anonymous nor comments. -/
def Kind.isPlain : Kind → Bool
  | .token _ | .comment | .identifier | .propertyIdentifier | .number | .string | .parenthesized
  | .pair | .call => false
  | _ => true

@[grind =] theorem Kind.isPlain_eq (kind : Kind) : kind.isPlain = decide (kind ≠ .token kind.name ∧
    kind ≠ .comment ∧ kind ≠ .identifier ∧ kind ≠ .propertyIdentifier ∧ kind ≠ .number ∧
    kind ≠ .string ∧ kind ≠ .parenthesized ∧ kind ≠ .pair ∧ kind ≠ .call) := by
  cases kind <;> simp [isPlain, name]

/-- The kinds that a node without children may have, if it is neither anonymous nor a comment. -/
def Kind.mayBeEmpty : Kind → Bool
  | .token _ | .comment | .parenthesized | .pair | .call => false
  | _ => true

@[grind =] theorem Kind.mayBeEmpty_eq (kind : Kind) : kind.mayBeEmpty = decide
    (kind ≠ .token kind.name ∧ kind ≠ .comment ∧ kind ≠ .parenthesized ∧ kind ≠ .pair ∧
      kind ≠ .call) := by
  cases kind <;> simp [mayBeEmpty, name]

theorem Kind.isBare_eq_false {kind : Kind} (h : kind.isPlain = true) : kind.isBare = false := by
  cases kind <;> simp_all [isPlain, isBare]

namespace Node

variable {source : List Char} {n c : Node}

attribute [grind =] inRole_kind inRole_children

@[simp, grind =] theorem inRole_location (role : Role) :
    (n.inRole role).location = n.location := rfl

@[simp, grind =] theorem inRole_text (role : Role) : (n.inRole role).text = n.text := rfl

/-! ### What the grammar asks of a node -/

/-- Parentheses hold one expression, only a call has a callee, and a pair has a value. -/
structure FollowsGrammar (n : Node) : Prop where
  parenthesized : n.kind = .parenthesized → ∃ e, n.significant = [e]
  call : (n.child? .callee).isSome → n.kind = .call
  value : n.kind = .pair → (n.child? .value).isSome

/-- The node follows the grammar, a pair is made of a key and a value, the value is not its first
child, the arguments of a call are not its first child, a word or a literal holds nothing but
comments, and the node starts where its first byte is. -/
structure Conforms (source : List Char) (n : Node) : Prop extends FollowsGrammar n where
  key_value : n.kind = .pair → n.significant.map role = [some .key, some .value]
  behind_key : n.kind = .pair → ∀ c ∈ n.children.head?, c.role ≠ some .value
  behind_callee : n.kind = .call → ∀ c ∈ n.children.head?, c.role ≠ some .arguments
  bare : n.kind.isBare = true → ∀ c ∈ n.children, c.kind = .comment
  placed : n.location.Placed source

/-- All nodes of the tree conform. -/
def ConformsThroughout (source : List Char) (n : Node) : Prop := ∀ m ∈ n.preorder, m.Conforms source

theorem conformsThroughout_iff : n.ConformsThroughout source ↔
    n.Conforms source ∧ ∀ c ∈ n.children, c.ConformsThroughout source := by
  simp only [ConformsThroughout, preorder_eq n, List.forall_mem_cons, mem_preorders_iff]
  constructor
  · rintro ⟨hn, hbelow⟩
    exact ⟨hn, fun c hc m hm => hbelow m ⟨c, hc, hm⟩⟩
  · rintro ⟨hn, hbelow⟩
    refine ⟨hn, ?_⟩
    rintro m ⟨c, hc, hm⟩
    exact hbelow c hc m hm

theorem ConformsThroughout.self (h : n.ConformsThroughout source) : n.Conforms source :=
  (conformsThroughout_iff.1 h).1

theorem ConformsThroughout.child (h : n.ConformsThroughout source) (hc : c ∈ n.children) :
    c.ConformsThroughout source :=
  (conformsThroughout_iff.1 h).2 c hc

/-- The role of a node is no concern of its own. -/
theorem Conforms.withRole (h : n.Conforms source) (role : Option Role) :
    ({ n with role := role } : Node).Conforms source :=
  ⟨⟨h.parenthesized, h.call, h.value⟩, h.key_value, h.behind_key, h.behind_callee, h.bare, h.placed⟩

theorem ConformsThroughout.withRole (h : n.ConformsThroughout source) (role : Option Role) :
    ({ n with role := role } : Node).ConformsThroughout source :=
  conformsThroughout_iff.2 ⟨h.self.withRole role, fun _ hc => h.child hc⟩

theorem role_ne_of_child?_eq_none {role : Role} (h : n.child? role = none) (hc : c ∈ n.children) :
    c.role ≠ some role := by
  have hfind := List.find?_eq_none.1 h c hc
  simpa using hfind

/-- A node that is no call has no child that is a callee. -/
theorem Conforms.role_ne_callee (h : n.Conforms source) (hkind : n.kind ≠ .call)
    (hc : c ∈ n.children) : c.role ≠ some .callee := by
  refine role_ne_of_child?_eq_none ?_ hc
  by_contra hsome
  exact hkind (h.call (Option.isSome_iff_ne_none.2 hsome))

theorem child?_eq_none {role : Role} (h : ∀ c ∈ n.children, c.role ≠ some role) :
    n.child? role = none := by
  rw [child?, List.find?_eq_none]
  intro c hc
  simpa using h c hc

/-- A node of a plain kind without a callee conforms wherever it is placed. -/
theorem conforms_of_plain (hkind : n.kind.isPlain = true)
    (hroles : ∀ c ∈ n.children, c.role ≠ some .callee) (hplaced : n.location.Placed source) :
    n.Conforms source where
  parenthesized h := by simp [h, Kind.isPlain] at hkind
  call h := by simp [child?_eq_none hroles] at h
  value h := by simp [h, Kind.isPlain] at hkind
  key_value h := by simp [h, Kind.isPlain] at hkind
  behind_key h := by simp [h, Kind.isPlain] at hkind
  behind_callee h := by simp [h, Kind.isPlain] at hkind
  bare h := by simp [Kind.isBare_eq_false hkind] at h
  placed := hplaced

/-- A node without children conforms wherever it is placed, if it is no pair and no parentheses. -/
theorem conforms_of_isEmpty (hchildren : n.children = [])
    (hkind : n.kind ≠ .parenthesized ∧ n.kind ≠ .pair) (hplaced : n.location.Placed source) :
    n.Conforms source where
  parenthesized h := absurd h hkind.1
  call h := by simp [child?, hchildren] at h
  value h := absurd h hkind.2
  key_value h := absurd h hkind.2
  behind_key _ := by simp [hchildren]
  behind_callee _ := by simp [hchildren]
  bare _ := by simp [hchildren]
  placed := hplaced

/-! ### What productions are made of -/

/-- What may be a child of any node: a tree that conforms, and no callee. -/
structure Part (source : List Char) (n : Node) : Prop where
  conforms : n.ConformsThroughout source
  role : n.role ≠ some .callee

/-- What a production yields: a tree that conforms, named and without a role yet. -/
structure Reading (source : List Char) (n : Node) : Prop where
  conforms : n.ConformsThroughout source
  role : n.role = none
  significant : n.isSignificant = true

/-- A keyword or a mark of punctuation. -/
structure IsMark (source : List Char) (n : Node) : Prop where
  kind : n.kind.isNamed = false
  role : n.role = none
  children : n.children = []
  placed : n.location.Placed source

theorem IsMark.conforms (h : n.IsMark source) : n.ConformsThroughout source := by
  obtain ⟨kind, role, location, text, children⟩ := n
  obtain ⟨hkind, hrole, hchildren, hplaced⟩ := h
  subst hchildren
  cases kind with
  | token text =>
      refine conformsThroughout_iff.2 ⟨conforms_of_isEmpty ?_ ?_ hplaced, ?_⟩ <;> simp
  | _ => simp [Kind.isNamed] at hkind

@[grind →] theorem IsMark.part (h : n.IsMark source) : n.Part source :=
  ⟨h.conforms, by simp [h.role]⟩

theorem IsMark.not_significant (h : n.IsMark source) : n.isSignificant = false := by
  simp [isSignificant, h.kind]

@[grind →] theorem Reading.part (h : n.Reading source) : n.Part source :=
  ⟨h.conforms, by simp [h.role]⟩

@[grind .] theorem Part.inRole (h : n.Part source) {role : Role} (hrole : role ≠ .callee) :
    (n.inRole role).Part source :=
  ⟨h.conforms.withRole _, by simpa [Node.inRole] using hrole⟩

/-- Several nodes that may be children of any node. -/
def Parts (source : List Char) (nodes : List Node) : Prop := ∀ n ∈ nodes, n.Part source

section Parts

variable {xs ys : List Node}

@[simp, grind .] theorem parts_nil : Parts source [] := by simp [Parts]

@[simp, grind =] theorem parts_cons :
    Parts source (n :: xs) ↔ n.Part source ∧ Parts source xs := List.forall_mem_cons

/-- Three nodes at a time, for the long lists of children in some productions. -/
@[grind =] theorem parts_cons_cons_cons {a b c : Node} : Parts source (a :: b :: c :: xs) ↔
    a.Part source ∧ b.Part source ∧ c.Part source ∧ Parts source xs := by simp

@[simp, grind =] theorem parts_append :
    Parts source (xs ++ ys) ↔ Parts source xs ∧ Parts source ys := List.forall_mem_append

@[simp, grind =] theorem parts_reverse : Parts source xs.reverse ↔ Parts source xs := by
  simp [Parts]

end Parts

/-- **A node of a plain kind around parts is a reading.** -/
theorem Reading.of_plain {kind : Kind} {location : Location} {text : String} {children : List Node}
    (hkind : kind.isPlain = true) (hchildren : Parts source children)
    (hplaced : location.Placed source) :
    Reading source ⟨kind, none, location, text, children⟩ where
  conforms := conformsThroughout_iff.2
    ⟨conforms_of_plain hkind (fun c hc => (hchildren c hc).role) hplaced,
      fun c hc => (hchildren c hc).conforms⟩
  role := rfl
  significant := by cases kind <;> simp_all [isSignificant, Kind.isPlain, Kind.isNamed]

/-- A reading that is no call may turn out to be of another plain kind, and be part of a node. -/
@[grind .] theorem Reading.partOfKind (h : n.Reading source) (hcall : n.kind ≠ .call) {kind : Kind}
    {role : Option Role} (hkind : kind.isPlain = true) (hrole : role ≠ some .callee) :
    Part source ⟨kind, role, n.location, n.text, n.children⟩ where
  conforms := conformsThroughout_iff.2
    ⟨conforms_of_plain hkind (fun _ hc => h.conforms.self.role_ne_callee hcall hc)
      h.conforms.self.placed, fun _ hc => h.conforms.child hc⟩
  role := hrole

/-- A reading that is no call may turn out to be of another plain kind. -/
@[grind .] theorem Reading.ofKind (h : n.Reading source) (hcall : n.kind ≠ .call) {kind : Kind}
    {role : Option Role} (hkind : kind.isPlain = true) (hrole : role = none) :
    Reading source ⟨kind, role, n.location, n.text, n.children⟩ := by
  subst hrole
  refine .of_plain hkind (fun c hc => ?_) h.conforms.self.placed
  exact ⟨h.conforms.child hc, h.conforms.self.role_ne_callee hcall hc⟩

/-- The children of a node that is no call are parts. -/
@[grind .] theorem Reading.children (h : n.Reading source) (hcall : n.kind ≠ .call) :
    Parts source n.children :=
  fun _ hc => ⟨h.conforms.child hc, h.conforms.self.role_ne_callee hcall hc⟩

/-! ### Targets -/

mutual

/-- A target is a part if the literal is. -/
@[grind .] theorem part_of_toTarget? :
    ∀ {n m : Node}, n.toTarget? = some m → n.Part source → m.Part source
  | ⟨kind, role, location, text, children⟩, m, h, hn => by
      have hplaced : location.Placed source := hn.conforms.self.placed
      have hparts : kind ≠ .call → ∀ c ∈ children, c.Part source :=
        fun hkind c hc => ⟨hn.conforms.child hc, hn.conforms.self.role_ne_callee hkind hc⟩
      -- the kind may change and the children may become targets, but no callee appears
      have hchanged : ∀ {kind' : Kind} {cs : List Node}, kind'.isPlain = true →
          (∀ c ∈ cs, c.Part source) → Part source ⟨kind', role, location, text, cs⟩ := by
        intro kind' cs hkind hcs
        refine ⟨conformsThroughout_iff.2 ⟨conforms_of_plain hkind ?_ hplaced, ?_⟩, hn.role⟩
        · exact fun c hc => (hcs c hc).role
        · exact fun c hc => (hcs c hc).conforms
      have hmapped : ∀ {kind' : Kind} {targets : Option (List Node)}, kind'.isPlain = true →
          (∀ cs, targets = some cs → ∀ c ∈ cs, c.Part source) →
          targets.map (fun cs => (⟨kind', role, location, text, cs⟩ : Node)) = some m →
          m.Part source := by
        intro kind' targets hkind htargets hm
        obtain ⟨cs, hcs, rfl⟩ := Option.map_eq_some_iff.1 hm
        exact hchanged hkind (htargets cs hcs)
      unfold toTarget? at h
      split at h
      case h_1 | h_2 | h_3 | h_4 | h_5 | h_6 | h_7 | h_8 | h_9 =>
        cases h
        exact hn
      case h_10 | h_15 =>
        cases h
        exact hchanged rfl (hparts (by simp))
      case h_11 | h_12 | h_13 =>
        exact hmapped rfl (fun cs hcs => parts_of_toTargets? hcs (hparts (by simp))) h
      case h_14 => exact hmapped rfl (fun cs hcs => parts_of_valueTargets? hcs (hparts (by simp))) h
      case h_16 => cases h

theorem parts_of_toTargets? : ∀ {nodes targets : List Node}, toTargets? nodes = some targets →
    (∀ c ∈ nodes, c.Part source) → ∀ c ∈ targets, c.Part source
  | [], targets, h, _ => by
      cases h
      simp
  | n :: rest, targets, h, hnodes => by
      simp only [toTargets?, Option.bind_eq_bind, Option.bind_eq_some_iff, Option.pure_def,
        Option.some.injEq] at h
      obtain ⟨m, hm, ms, hms, rfl⟩ := h
      rw [List.forall_mem_cons] at hnodes ⊢
      exact ⟨part_of_toTarget? hm hnodes.1, parts_of_toTargets? hms hnodes.2⟩

theorem parts_of_valueTargets? : ∀ {nodes targets : List Node},
    valueTargets? nodes = some targets → (∀ c ∈ nodes, c.Part source) → ∀ c ∈ targets, c.Part source
  | [], targets, h, _ => by
      cases h
      simp
  | n :: rest, targets, h, hnodes => by
      simp only [valueTargets?, Option.bind_eq_bind, Option.bind_eq_some_iff] at h
      obtain ⟨ms, hms, h⟩ := h
      rw [List.forall_mem_cons] at hnodes
      have hrest := parts_of_valueTargets? hms hnodes.2
      split at h
      · simp only [Option.bind_eq_some_iff, Option.pure_def, Option.some.injEq] at h
        obtain ⟨m, hm, rfl⟩ := h
        exact List.forall_mem_cons.2 ⟨part_of_toTarget? hm hnodes.1, hrest⟩
      · cases h
        exact List.forall_mem_cons.2 ⟨hnodes.1, hrest⟩

end

/-- A list in parentheses that is read again as parameters keeps its role. -/
theorem conforms_of_toParameters? {m : Node} (h : n.toParameters? = some m)
    (hn : n.ConformsThroughout source) (hcall : n.kind ≠ .call) :
    m.ConformsThroughout source ∧ m.role = n.role ∧ m.kind = .formalParameters := by
  simp only [toParameters?, Option.bind_eq_bind, Option.bind_eq_some_iff, Option.pure_def,
    Option.some.injEq] at h
  obtain ⟨children, hchildren, rfl⟩ := h
  have hparts : ∀ c ∈ children, c.Part source := by
    refine parts_of_toTargets? hchildren fun c hc => ?_
    exact ⟨hn.child hc, hn.self.role_ne_callee hcall hc⟩
  refine ⟨conformsThroughout_iff.2 ⟨?_, fun c hc => (hparts c hc).conforms⟩, rfl, rfl⟩
  exact conforms_of_plain rfl (fun c hc => (hparts c hc).role) hn.self.placed

@[grind .] theorem part_of_toParameters? {m : Node} (h : n.toParameters? = some m)
    (hn : n.Part source)
    (hcall : n.kind ≠ .call) : m.Part source := by
  obtain ⟨hm, hrole, -⟩ := conforms_of_toParameters? h hn.conforms hcall
  exact ⟨hm, hrole ▸ hn.role⟩

@[grind .] theorem reading_of_toParameters? {m : Node} (h : n.toParameters? = some m)
    (hn : n.Reading source)
    (hcall : n.kind ≠ .call) : m.Reading source := by
  obtain ⟨hm, hrole, hkind⟩ := conforms_of_toParameters? h hn.conforms hcall
  refine ⟨hm, hrole.trans hn.role, ?_⟩
  simp [isSignificant, hkind, Kind.isNamed]

/-! ### Comments in their places -/

/-- A comment: a leaf without a role. -/
structure IsComment (source : List Char) (n : Node) : Prop where
  kind : n.kind = .comment
  role : n.role = none
  children : n.children = []
  placed : n.location.Placed source

theorem IsComment.conforms (h : n.IsComment source) : n.ConformsThroughout source := by
  obtain ⟨kind, role, location, text, children⟩ := n
  obtain ⟨rfl, rfl, rfl, hplaced⟩ := h
  refine conformsThroughout_iff.2 ⟨conforms_of_isEmpty ?_ ?_ hplaced, ?_⟩ <;> simp

/-- The second list is the first with comments put in, and with other nodes of the same kinds and
roles. -/
inductive Woven : List Node → List Node → Prop
  | nil : Woven [] []
  | comment {c : Node} {xs ys : List Node} : c.kind = .comment → c.role = none → Woven xs ys →
      Woven xs (c :: ys)
  | keep {x y : Node} {xs ys : List Node} : y.kind = x.kind → y.role = x.role → Woven xs ys →
      Woven (x :: xs) (y :: ys)

namespace Woven

variable {xs ys : List Node}

theorem comments {cs : List Node} (hcs : ∀ c ∈ cs, c.IsComment source) (h : Woven xs ys) :
    Woven xs (cs ++ ys) := by
  induction cs with
  | nil => exact h
  | cons c cs ih =>
      rw [List.forall_mem_cons] at hcs
      exact .comment hcs.1.kind hcs.1.role (ih hcs.2)

theorem isSome_find? (h : Woven xs ys) (role : Role) :
    (ys.find? fun c => c.role == some role).isSome =
      (xs.find? fun c => c.role == some role).isSome := by
  induction h with
  | nil => rfl
  | comment _ hrole _ ih => rw [List.find?_cons_of_neg (by simp [hrole]), ih]
  | @keep x y xs ys _ hrole _ ih => by_cases hx : x.role = some role <;> simp_all

theorem roles_significant (h : Woven xs ys) :
    (ys.filter isSignificant).map role = (xs.filter isSignificant).map role := by
  induction h with
  | nil => rfl
  | comment hkind _ _ ih => rw [List.filter_cons_of_neg (by simp [isSignificant, hkind]), ih]
  | @keep x y xs ys hkind hrole _ ih =>
      have hsame : y.isSignificant = x.isSignificant := by simp [isSignificant, hkind]
      by_cases hx : x.isSignificant = true <;> simp_all

theorem all_comments (h : Woven xs ys) (hxs : ∀ c ∈ xs, c.kind = .comment) :
    ∀ c ∈ ys, c.kind = .comment := by
  induction h with
  | nil => exact hxs
  | comment hkind _ _ ih => exact List.forall_mem_cons.2 ⟨hkind, ih hxs⟩
  | keep hkind _ _ ih =>
      rw [List.forall_mem_cons] at hxs
      exact List.forall_mem_cons.2 ⟨hkind.trans hxs.1, ih hxs.2⟩

theorem head_role (h : Woven xs ys) {role : Role} (hxs : ∀ c ∈ xs.head?, c.role ≠ some role) :
    ∀ c ∈ ys.head?, c.role ≠ some role := by
  cases h with
  | nil => simp
  | comment _ hrole _ => simp [hrole]
  | keep _ hrole _ => simpa [hrole] using hxs

end Woven

theorem Conforms.of_woven {kind : Kind} {role : Option Role} {location : Location} {text : String}
    {xs ys : List Node} (h : Conforms source ⟨kind, role, location, text, xs⟩) (hw : Woven xs ys) :
    Conforms source ⟨kind, role, location, text, ys⟩ where
  parenthesized hkind := by
    obtain ⟨e, he⟩ := h.parenthesized hkind
    have hlen : (ys.filter isSignificant).length = 1 := by
      have hroles := congrArg List.length hw.roles_significant
      rw [List.length_map, List.length_map] at hroles
      exact hroles.trans (congrArg List.length he)
    exact List.length_eq_one_iff.1 hlen
  call hsome := h.call (by rwa [child?, hw.isSome_find?] at hsome)
  value hkind := by
    rw [child?, hw.isSome_find?]
    exact h.value hkind
  key_value hkind := hw.roles_significant.trans (h.key_value hkind)
  behind_key hkind := hw.head_role (h.behind_key hkind)
  behind_callee hkind := hw.head_role (h.behind_callee hkind)
  bare hkind := hw.all_comments (h.bare hkind)
  placed := h.placed

mutual

/-- **Comments can be put anywhere into a tree that conforms.** -/
theorem conformsThroughout_weave : ∀ {comments : List Node} {n : Node},
    (∀ c ∈ comments, c.IsComment source) → n.ConformsThroughout source →
    (n.weave comments).ConformsThroughout source
  | comments, ⟨kind, role, location, text, children⟩, hcomments, hn => by
      obtain ⟨hwoven, hall⟩ := woven_weaveAll hcomments fun c hc => hn.child hc
      exact conformsThroughout_iff.2 ⟨hn.self.of_woven hwoven, hall⟩

theorem woven_weaveAll : ∀ {comments nodes : List Node}, (∀ c ∈ comments, c.IsComment source) →
    (∀ c ∈ nodes, c.ConformsThroughout source) →
    Woven nodes (weaveAll comments nodes) ∧
      ∀ c ∈ weaveAll comments nodes, c.ConformsThroughout source
  | comments, [], hcomments, _ => by
      rw [weaveAll]
      have hwoven := Woven.comments hcomments .nil
      rw [List.append_nil] at hwoven
      exact ⟨hwoven, fun c hc => (hcomments c hc).conforms⟩
  | comments, n :: rest, hcomments, hnodes => by
      rw [List.forall_mem_cons] at hnodes
      -- whatever part of the comments is put somewhere, it consists of comments
      have hbefore : ∀ p, ∀ c ∈ comments.takeWhile p, c.IsComment source :=
        fun p c hc => hcomments c (List.takeWhile_subset p hc)
      have hothers : ∀ p, ∀ c ∈ comments.dropWhile p, c.IsComment source :=
        fun p c hc => hcomments c (List.dropWhile_subset p hc)
      have hinside : ∀ p q, ∀ c ∈ (comments.dropWhile p).takeWhile q, c.IsComment source :=
        fun p q c hc => hothers p c (List.takeWhile_subset q hc)
      have hafter : ∀ p q, ∀ c ∈ (comments.dropWhile p).dropWhile q, c.IsComment source :=
        fun p q c hc => hothers p c (List.dropWhile_subset q hc)
      have hnode : ∀ inside : List Node, (∀ c ∈ inside, c.IsComment source) →
          let m := if inside.isEmpty then n else n.weave inside
          m.kind = n.kind ∧ m.role = n.role ∧ m.ConformsThroughout source := by
        intro inside hinside
        dsimp only
        split
        · exact ⟨rfl, rfl, hnodes.1⟩
        · have hweave := conformsThroughout_weave hinside hnodes.1
          cases n
          exact ⟨rfl, rfl, hweave⟩
      rw [weaveAll]
      obtain ⟨hkind, hrole, hconforms⟩ := hnode _ (hinside _ _)
      obtain ⟨hwoven, hall⟩ := woven_weaveAll (hafter _ _) hnodes.2
      refine ⟨.comments (hbefore _) (.keep hkind hrole hwoven), ?_⟩
      intro c hc
      rcases List.mem_append.1 hc with hc | hc
      · exact (hbefore _ c hc).conforms
      · rcases List.mem_cons.1 hc with rfl | hc
        · exact hconforms
        · exact hall c hc

end

end Node

end Script

end SchemaScope
