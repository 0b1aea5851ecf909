/-
**Redundant parentheses.**

Parentheses around the value of a member or around an element of an array change what such a value
looks like, the texts of the nodes above it, and where everything behind it stands.  They change
nothing else.  So a node of the one script and its counterpart in the other are alike but for their
places, or they are the same down to the parentheses; and what is read off the one and off the other
is the same, as long as the reader looks through parentheses.

Words have no parts, so no parentheses come between them.  Other nodes may be quoted as they are
written; from those the parentheses must stay away, too.

Main definitions:

* `Node.unplaced`, `Node.Alike` — a node without its places, and nodes that differ in places only;
* `Node.Guards` — parentheses around a node;
* `Node.Holds` — the children that may be put in parentheses;
* `Node.GuardedAt` — a tree is another one with parentheses around the node at an address;
* `Node.Kin` — alike, or the same down to the parentheses.

Main results:

* `Node.Kin.children` — children of counterparts are counterparts, or one of them was put in
  parentheses;
* `Node.Kin.unwrapped`, `Node.Kin.key?_eq`, `Node.Kin.memberPath?_eq`,
  `Node.Kin.property?_cases` — **what is read off counterparts is the same**.
-/

import SchemaScope.Proofs.Schema.Parentheses

set_option autoImplicit false

namespace SchemaScope.Script

/-- The kinds of words. -/
def Kind.isWord : Kind → Bool
  | .token _ | .identifier | .propertyIdentifier | .string | .number | .this => true
  | _ => false

namespace Node

/-! ### Nodes without their places -/

mutual

/-- A node without its places. -/
def unplaced : Node → Node
  | ⟨kind, role, _, text, children⟩ => ⟨kind, role, default, text, unplacedAll children⟩

/-- Several nodes without their places. -/
def unplacedAll : List Node → List Node
  | [] => []
  | n :: rest => n.unplaced :: unplacedAll rest

end

theorem unplacedAll_eq_map (nodes : List Node) : unplacedAll nodes = nodes.map unplaced := by
  induction nodes with
  | nil => rfl
  | cons n rest ih => rw [unplacedAll, ih, List.map_cons]

theorem unplaced_eq (n : Node) :
    n.unplaced = ⟨n.kind, n.role, default, n.text, n.children.map unplaced⟩ := by
  cases n
  rw [unplaced, unplacedAll_eq_map]

/-- The nodes differ in their places, and in the role they play, at most. -/
structure Alike (n n' : Node) : Prop where
  kind : n'.kind = n.kind
  text : n'.text = n.text
  children : n'.children.map unplaced = n.children.map unplaced

theorem unplaced_eq_iff {n n' : Node} :
    n'.unplaced = n.unplaced ↔ n'.role = n.role ∧ Alike n n' := by
  rw [unplaced_eq, unplaced_eq, mk.injEq]
  constructor
  · rintro ⟨hkind, hrole, -, htext, hchildren⟩
    exact ⟨hrole, hkind, htext, hchildren⟩
  · rintro ⟨hrole, hkind, htext, hchildren⟩
    exact ⟨hkind, hrole, rfl, htext, hchildren⟩

/-! ### Parentheses around a node -/

/-- Parentheses around a node. -/
inductive Guards (c : Node) : Node → Prop
  | parentheses {e : Node} (location opening closing : Location) (text : String)
      (halike : Alike c e) (hrole : e.role = none) :
      Guards c ⟨.parenthesized, c.role, location, text,
        [⟨.token "(", none, opening, "(", []⟩, e, ⟨.token ")", none, closing, ")", []⟩]⟩

/-- The child may be put in parentheses: it is the value of a member or an element of an array, and
neither an argument nor a parameter. -/
structure Holds (n c : Node) : Prop where
  place : n.kind = .pair ∧ c.role = some .value ∨ n.kind = .array ∧ c.role = none
  role : n.role ≠ some .arguments ∧ n.role ≠ some .parameters
  significant : c.isSignificant = true

/-- Words and operators have no parts. -/
def isWord (n : Node) : Bool := n.kind.isWord || n.role == some .operator

/-- The second tree is the first with parentheses around the node at an address, except for places
and for the texts of the nodes above.  These are neither words nor `quoted`, and an array among the
arguments of a call is left alone. -/
inductive GuardedAt (quoted : Node → Prop) : List Nat → Node → Node → Prop
  | here {c p : Node} (h : Guards c p) : GuardedAt quoted [] c p
  | deeper {n n' c c' : Node} {before before' after after' : List Node} {a : List Nat}
      (hword : n.isWord = false) (hquoted : ¬ quoted n) (hkind : n'.kind = n.kind)
      (hchildren : n.children = before ++ c :: after)
      (hchildren' : n'.children = before' ++ c' :: after')
      (hbefore : before'.map unplaced = before.map unplaced)
      (hafter : after'.map unplaced = after.map unplaced) (hrole : c'.role = c.role)
      (hholds : a = [] → n.Holds c)
      (hargument : n.role = some .arguments → c.kind = .array → ∀ k, a ≠ [k])
      (h : GuardedAt quoted a c c') : GuardedAt quoted (before.length :: a) n n'

/-- The nodes are alike, or the same down to parentheses around something below them. -/
inductive Kin (quoted : Node → Prop) (n n' : Node) : Prop
  | alike (h : Alike n n')
  | guarded {i : Nat} {a : List Nat} (h : GuardedAt quoted (i :: a) n n')

/-- A child of a node and its counterpart. -/
structure Child (quoted : Node → Prop) (n c c' : Node) : Prop where
  role : c'.role = c.role
  kin : Kin quoted c c' ∨ n.Holds c ∧ Guards c c'

variable {quoted : Node → Prop} {n n' c c' : Node}

theorem Guards.kind_eq (h : Guards c c') : c'.kind = .parenthesized := by
  cases h
  rfl

theorem Guards.isSignificant (h : Guards c c') : c'.isSignificant = true := by
  cases h
  rfl

/-- Inside the parentheses there is a node like the one that was put in them, and nothing else of
significance. -/
theorem Guards.exists_significant (h : Guards c c') (hc : c.isSignificant = true) :
    ∃ e, c'.significant = [e] ∧ Alike c e := by
  cases h with
  | @parentheses e _ _ _ _ halike _ =>
      refine ⟨e, ?_, halike⟩
      have he : e.isSignificant = true := by
        rw [Node.isSignificant, halike.kind]
        exact hc
      have hsignificant : ∀ s : Node, s.significant = s.children.filter Node.isSignificant :=
        fun _ => rfl
      rw [hsignificant, List.filter_cons_of_neg (by simp [Node.isSignificant, Kind.isNamed]),
        List.filter_cons_of_pos he,
        List.filter_cons_of_neg (by simp [Node.isSignificant, Kind.isNamed]), List.filter_nil]

/-! ### Counterparts -/

theorem Holds.kind (h : n.Holds c) : n.kind = .pair ∨ n.kind = .array :=
  h.place.imp And.left And.left

theorem Holds.role_child (h : n.Holds c) : c.role = some .value ∨ c.role = none :=
  h.place.imp And.right And.right

theorem Child.kin_of_kind (h : Child quoted n c c') (hpair : n.kind ≠ .pair)
    (harray : n.kind ≠ .array) : Kin quoted c c' := by
  rcases h.kin with hkin | ⟨hholds, -⟩
  · exact hkin
  · rcases hholds.kind with hkind | hkind
    · exact absurd hkind hpair
    · exact absurd hkind harray

theorem Child.kin_of_role (h : Child quoted n c c') {role : Role} (hrole : c.role = some role)
    (hne : role ≠ .value) : Kin quoted c c' := by
  rcases h.kin with hkin | ⟨hholds, -⟩
  · exact hkin
  · rcases hholds.role_child with hvalue | hnone
    · exact absurd (Option.some.inj (hrole.symm.trans hvalue)) hne
    · rw [hnone] at hrole
      cases hrole

namespace Kin

theorem kind_eq (h : Kin quoted n n') : n'.kind = n.kind := by
  cases h with
  | alike h => exact h.kind
  | guarded h =>
      cases h with
      | deeper _ _ hkind => exact hkind

/-- Words and nodes that are quoted are alike. -/
theorem alike_of_closed (h : Kin quoted n n') (hclosed : n.isWord = true ∨ quoted n) :
    Alike n n' := by
  cases h with
  | alike h => exact h
  | guarded h =>
      cases h with
      | deeper hword hquoted =>
          rcases hclosed with hclosed | hclosed
          · rw [hclosed] at hword
            cases hword
          · exact absurd hclosed hquoted

theorem isSignificant_eq (h : Kin quoted n n') : n'.isSignificant = n.isSignificant := by
  rw [isSignificant, isSignificant, h.kind_eq]

theorem isFunctionLiteral_eq (h : Kin quoted n n') :
    n'.isFunctionLiteral = n.isFunctionLiteral := by
  rw [isFunctionLiteral, isFunctionLiteral, h.kind_eq]

end Kin

theorem child_of_unplaced_eq (h : c'.unplaced = c.unplaced) : Child quoted n c c' := by
  obtain ⟨hrole, halike⟩ := unplaced_eq_iff.1 h
  exact ⟨hrole, .inl (.alike halike)⟩

theorem forall₂_of_map_unplaced {nodes nodes' : List Node}
    (h : nodes'.map unplaced = nodes.map unplaced) :
    List.Forall₂ (fun c c' => c'.unplaced = c.unplaced) nodes nodes' := by
  have heq : List.Forall₂ (· = ·) (nodes.map unplaced) (nodes'.map unplaced) :=
    List.forall₂_eq_eq_eq ▸ h.symm
  rw [List.forall₂_map_left_iff, List.forall₂_map_right_iff] at heq
  exact heq.imp fun _ _ hc => hc.symm

/-- Children of counterparts are counterparts, or one of them was put in parentheses. -/
theorem Kin.children (h : Kin quoted n n') :
    List.Forall₂ (Child quoted n) n.children n'.children := by
  have hsame : ∀ {nodes nodes' : List Node}, nodes'.map unplaced = nodes.map unplaced →
      List.Forall₂ (Child quoted n) nodes nodes' :=
    fun hmap => (forall₂_of_map_unplaced hmap).imp fun _ _ hc => child_of_unplaced_eq hc
  cases h with
  | alike h => exact hsame h.children
  | @guarded _ a h =>
      cases h with
      | deeper _ _ _ hchildren hchildren' hbefore hafter hrole hholds _ h =>
          rw [hchildren, hchildren']
          refine List.rel_append (hsame hbefore) (.cons ⟨hrole, ?_⟩ (hsame hafter))
          cases a with
          | nil =>
              cases h with
              | here hguards => exact .inr ⟨hholds rfl, hguards⟩
          | cons i a => exact .inl (.guarded h)

theorem Kin.map_children_eq {α : Type} {f : Node → α} (h : Kin quoted n n')
    (hf : ∀ c c', Child quoted n c c' → f c' = f c) : n'.children.map f = n.children.map f := by
  have hsame : List.Forall₂ (· = ·) (n.children.map f) (n'.children.map f) := by
    rw [List.forall₂_map_left_iff, List.forall₂_map_right_iff]
    exact h.children.imp fun c c' hc => (hf c c' hc).symm
  rw [List.forall₂_eq_eq_eq] at hsame
  exact hsame.symm

theorem Child.isSignificant_eq (h : Child quoted n c c') : c'.isSignificant = c.isSignificant := by
  rcases h.kin with hkin | ⟨hholds, hguards⟩
  · exact hkin.isSignificant_eq
  · rw [hguards.isSignificant, hholds.significant]

theorem significant_eq (n : Node) : n.significant = n.children.filter isSignificant := rfl

theorem forall₂_filter {R : Node → Node → Prop} {p q : Node → Bool} {nodes nodes' : List Node}
    (h : List.Forall₂ R nodes nodes') (hp : ∀ c c', R c c' → q c' = p c) :
    List.Forall₂ R (nodes.filter p) (nodes'.filter q) := by
  induction h with
  | nil => exact .nil
  | @cons c c' _ _ hc _ ih =>
      have hsame := hp c c' hc
      by_cases hpc : p c = true
      · rw [List.filter_cons_of_pos hpc, List.filter_cons_of_pos (hsame.trans hpc)]
        exact .cons hc ih
      · rw [List.filter_cons_of_neg hpc, List.filter_cons_of_neg (by rw [hsame]; exact hpc)]
        exact ih

theorem find?_cases {R : Node → Node → Prop} {p q : Node → Bool} {nodes nodes' : List Node}
    (h : List.Forall₂ R nodes nodes') (hp : ∀ c c', R c c' → q c' = p c) :
    (nodes.find? p = none ∧ nodes'.find? q = none) ∨
    ∃ c c', nodes.find? p = some c ∧ nodes'.find? q = some c' ∧ R c c' := by
  induction h with
  | nil => exact .inl ⟨rfl, rfl⟩
  | @cons c c' _ _ hc _ ih =>
      have hsame := hp c c' hc
      by_cases hpc : p c = true
      · exact .inr ⟨c, c', List.find?_cons_of_pos hpc, List.find?_cons_of_pos (hsame.trans hpc), hc⟩
      · rw [List.find?_cons_of_neg hpc, List.find?_cons_of_neg (by rwa [hsame])]
        exact ih

theorem role_of_child? {role : Role} (h : n.child? role = some c) : c.role = some role := by
  obtain ⟨hrole, -⟩ := List.find?_eq_some_iff_append.1 h
  simpa using hrole

theorem unwrapped_of_kind (h : n.kind = .parenthesized) :
    n.unwrapped = (n.significant.head?.map unwrapped).getD n := by
  obtain ⟨kind, role, location, text, children⟩ := n
  rw [unwrapped, if_pos h, unwrappedFirst_eq]
  rfl

theorem objectPath?_eq (nodes : List Node) :
    objectPath? nodes = (nodes.find? fun c => c.role == some .object).bind memberPath? := by
  induction nodes with
  | nil => rfl
  | cons n rest ih =>
      rw [objectPath?]
      by_cases hn : n.role = some .object
      · rw [if_pos (by simp [hn]), List.find?_cons_of_pos (by simp [hn])]
        rfl
      · rw [if_neg (by simp [hn]), List.find?_cons_of_neg (by simp [hn]), ih]

theorem memberPath?_of_kind_ne (h : n.kind ≠ .member) : n.memberPath? =
    if n.kind = .identifier ∨ n.kind = .propertyIdentifier ∨ n.kind = .this then some [n.text]
    else none := by
  obtain ⟨kind, role, location, text, children⟩ := n
  rw [memberPath?.eq_def]
  dsimp only
  split <;> simp_all

theorem memberPath?_of_member (h : n.kind = .member) : n.memberPath? = (do
    let property ← n.child? .property
    let path ← (n.child? .object).bind memberPath?
    if property.kind = .propertyIdentifier then some (path ++ [property.text]) else none) := by
  obtain ⟨kind, role, location, text, children⟩ := n
  obtain rfl : kind = .member := h
  rw [memberPath?, objectPath?_eq]
  rfl

theorem forall₂_kin_of_map_unplaced {nodes nodes' : List Node}
    (h : nodes'.map unplaced = nodes.map unplaced) : List.Forall₂ (Kin quoted) nodes nodes' :=
  (forall₂_of_map_unplaced h).imp fun _ _ hc => .alike (unplaced_eq_iff.1 hc).2

/-- If the parentheses stand further down, all children of counterparts are counterparts. -/
theorem GuardedAt.forall₂_kin {i : Nat} {a : List Nat} (h : GuardedAt quoted (i :: a) n n')
    (ha : a ≠ []) : List.Forall₂ (Kin quoted) n.children n'.children := by
  cases h with
  | deeper _ _ _ hchildren hchildren' hbefore hafter _ _ _ h =>
      rw [hchildren, hchildren']
      refine List.rel_append (forall₂_kin_of_map_unplaced hbefore)
        (.cons ?_ (forall₂_kin_of_map_unplaced hafter))
      cases a with
      | nil => exact absurd rfl ha
      | cons k a => exact .guarded h

/-- Arguments of a call are not put in parentheses, and neither are the elements of an array among
them. -/
theorem Kin.arguments (h : Kin quoted n n') (hrole : n.role = some .arguments) :
    List.Forall₂ (fun c c' => Kin quoted c c' ∧
      (c.kind = .array → List.Forall₂ (Kin quoted) c.significant c'.significant))
      n.significant n'.significant := by
  have hfilter : ∀ {nodes nodes' : List Node}, List.Forall₂ (Kin quoted) nodes nodes' →
      List.Forall₂ (Kin quoted) (nodes.filter isSignificant) (nodes'.filter isSignificant) :=
    fun hnodes => forall₂_filter hnodes fun _ _ hc => hc.isSignificant_eq
  have hsame : ∀ {nodes nodes' : List Node}, nodes'.map unplaced = nodes.map unplaced →
      List.Forall₂ (fun c c' => Kin quoted c c' ∧
        (c.kind = .array → List.Forall₂ (Kin quoted) c.significant c'.significant))
        nodes nodes' := by
    intro nodes nodes' hmap
    refine (forall₂_of_map_unplaced hmap).imp fun c c' hc => ?_
    obtain ⟨-, halike⟩ := unplaced_eq_iff.1 hc
    exact ⟨.alike halike, fun _ => hfilter (forall₂_kin_of_map_unplaced halike.children)⟩
  refine forall₂_filter ?_ fun _ _ hc => hc.1.isSignificant_eq
  cases h with
  | alike h => exact hsame h.children
  | @guarded _ a h =>
      cases h with
      | deeper _ _ _ hchildren hchildren' hbefore hafter _ hholds hargument h =>
          rw [hchildren, hchildren']
          refine List.rel_append (hsame hbefore) (.cons ?_ (hsame hafter))
          cases a with
          | nil => exact absurd hrole (hholds rfl).role.1
          | cons k a =>
              refine ⟨.guarded h, fun harray => hfilter (h.forall₂_kin ?_)⟩
              rintro rfl
              exact hargument hrole harray k rfl

namespace Kin

theorem significant (h : Kin quoted n n') :
    List.Forall₂ (Child quoted n) n.significant n'.significant := by
  rw [significant_eq, significant_eq]
  exact forall₂_filter h.children fun _ _ hc => hc.isSignificant_eq

/-- The child in a role. -/
theorem child?_cases (h : Kin quoted n n') (role : Role) :
    (n.child? role = none ∧ n'.child? role = none) ∨
    ∃ c c', n.child? role = some c ∧ n'.child? role = some c' ∧ Child quoted n c c' ∧
      c.role = some role := by
  rcases find?_cases (p := fun c => c.role == some role) (q := fun c => c.role == some role)
    h.children fun _ _ hc => by rw [hc.role] with hnone | ⟨c, c', hc, hc', hchild⟩
  · exact .inl hnone
  · exact .inr ⟨c, c', hc, hc', hchild, role_of_child? hc⟩

/-! ### What is read off counterparts -/

/-- Counterparts are still so without the parentheses around them. -/
theorem unwrapped : ∀ {n n' : Node}, Kin quoted n n' → Kin quoted n.unwrapped n'.unwrapped
  | ⟨kind, role, location, text, children⟩, n', h => by
      by_cases hkind : kind = .parenthesized
      · have hsignificant := h.significant
        rw [unwrapped_of_kind hkind, unwrapped_of_kind (h.kind_eq.trans hkind)]
        generalize hnodes : (⟨kind, role, location, text, children⟩ : Node).significant = nodes
          at hsignificant
        generalize n'.significant = nodes' at hsignificant
        cases hsignificant with
        | nil => exact h
        | @cons c c' _ _ hc _ =>
            have hmem : c ∈ children := (mem_significant_iff.1 (hnodes ▸ List.mem_cons_self)).1
            have hlt := List.sizeOf_lt_of_mem hmem
            exact unwrapped (hc.kin_of_kind (by simp [hkind]) (by simp [hkind]))
      · rw [unwrapped_of_kind_ne hkind, unwrapped_of_kind_ne (by rwa [h.kind_eq])]
        exact h
termination_by n => sizeOf n
decreasing_by
  simp_wf
  omega

end Kin

/-- In parentheses or not, without them a child and its counterpart are counterparts. -/
theorem Child.unwrapped (h : Child quoted n c c') : Kin quoted c.unwrapped c'.unwrapped := by
  rcases h.kin with hkin | ⟨hholds, hguards⟩
  · exact hkin.unwrapped
  · obtain ⟨e, he, halike⟩ := hguards.exists_significant hholds.significant
    rw [unwrapped_of_significant hguards.kind_eq he]
    exact (Kin.alike halike).unwrapped

namespace Kin

/-- The text of a string. -/
theorem stringValue?_eq (h : Kin quoted n n') : n'.stringValue? = n.stringValue? := by
  unfold stringValue?
  by_cases hkind : n.kind = .string
  · rw [(h.alike_of_closed (.inl (by simp [isWord, hkind, Kind.isWord]))).text, h.kind_eq]
  · rw [if_neg (fun hs => hkind (h.kind_eq ▸ hs.1)), if_neg (fun hs => hkind hs.1)]

/-- The value of a number. -/
theorem numberValue?_eq (h : Kin quoted n n') : n'.numberValue? = n.numberValue? := by
  unfold numberValue?
  by_cases hkind : n.kind = .number
  · rw [(h.alike_of_closed (.inl (by simp [isWord, hkind, Kind.isWord]))).text, h.kind_eq]
  · rw [if_neg (by rwa [h.kind_eq]), if_neg hkind]

theorem signedValue?_eq (h : Kin quoted n n') : n'.signedValue? = n.signedValue? := by
  unfold signedValue?
  rw [h.kind_eq, h.numberValue?_eq]
  by_cases hkind : n.kind = .unary
  · rw [if_pos hkind, if_pos hkind]
    have hkin : ∀ {c c'}, Child quoted n c c' → Kin quoted c c' :=
      fun hc => hc.kin_of_kind (by simp [hkind]) (by simp [hkind])
    rcases h.child?_cases .operator with ⟨ho, ho'⟩ | ⟨o, o', ho, ho', hoperator, hrole⟩
    · rw [ho, ho']
      rfl
    · rcases h.child?_cases .argument with ⟨hx, hx'⟩ | ⟨x, x', hx, hx', hargument, -⟩
      · rw [ho, ho', hx, hx']
        rfl
      · have htext : o'.text = o.text :=
          ((hkin hoperator).alike_of_closed (.inl (by simp [isWord, hrole]))).text
        rw [ho, ho', hx, hx']
        simp only [Option.bind_eq_bind, Option.bind_some, (hkin hargument).numberValue?_eq, htext]
  · rw [if_neg hkind, if_neg hkind]

/-- The text of a word. -/
theorem text_eq (h : Kin quoted n n') (hkind : n.kind.isWord = true) : n'.text = n.text :=
  (h.alike_of_closed (.inl (by simp [isWord, hkind]))).text

/-- The key of a member. -/
theorem key?_eq (h : Kin quoted n n') : n'.key? = n.key? := by
  unfold key?
  rw [h.kind_eq]
  by_cases hkind : n.kind = .pair
  · rw [if_pos hkind, if_pos hkind]
    rcases h.child?_cases .key with ⟨hc, hc'⟩ | ⟨c, c', hc, hc', hchild, hrole⟩
    · rw [hc, hc']
    · -- a key is not put in parentheses
      have hkin := hchild.kin_of_role hrole (by simp)
      rw [hc, hc']
      simp only [Option.bind_eq_bind, Option.bind_some, hkin.kind_eq]
      cases hword : c.kind with
      | propertyIdentifier | identifier => simp only [hkin.text_eq (by simp [hword, Kind.isWord])]
      | string => exact hkin.stringValue?_eq
      | _ => rfl
  · rw [if_neg hkind, if_neg hkind]

/-- The names of an access chain. -/
theorem memberPath?_eq : ∀ {n n' : Node}, Kin quoted n n' → n'.memberPath? = n.memberPath?
  | ⟨kind, role, location, text, children⟩, n', h => by
      have hkind : n'.kind = kind := h.kind_eq
      by_cases hmember : kind = .member
      · have hkin : ∀ {c c'}, Child quoted ⟨kind, role, location, text, children⟩ c c' →
            Kin quoted c c' := fun hc => hc.kin_of_kind (by simp [hmember]) (by simp [hmember])
        have hpath : (⟨kind, role, location, text, children⟩ : Node).memberPath? = _ :=
          memberPath?_of_member hmember
        rw [memberPath?_of_member (hkind.trans hmember), hpath]
        rcases h.child?_cases .property with ⟨hp, hp'⟩ | ⟨p, p', hp, hp', hproperty, -⟩
        · rw [hp, hp']
          rfl
        · rcases h.child?_cases .object with ⟨ho, ho'⟩ | ⟨o, o', ho, ho', hobject, -⟩
          · rw [hp, hp', ho, ho']
            rfl
          · have hmem : o ∈ children := List.mem_of_find?_eq_some ho
            have hlt := List.sizeOf_lt_of_mem hmem
            have hpath := memberPath?_eq (hkin hobject)
            rw [hp, hp', ho, ho']
            simp only [Option.bind_eq_bind, Option.bind_some, hpath, (hkin hproperty).kind_eq]
            by_cases hword : p.kind = .propertyIdentifier
            · simp only [(hkin hproperty).text_eq (by simp [hword, Kind.isWord])]
            · simp only [if_neg hword]
      · have hpath : (⟨kind, role, location, text, children⟩ : Node).memberPath? = _ :=
          memberPath?_of_kind_ne hmember
        rw [memberPath?_of_kind_ne (by rwa [hkind]), hpath, hkind]
        split
        · next hword =>
          have htext := h.text_eq (by rcases hword with rfl | rfl | rfl <;> rfl)
          exact congrArg (some [·]) htext
        · rfl
termination_by n => sizeOf n
decreasing_by
  simp_wf
  omega

/-- The members of an object literal. -/
theorem pairs (h : Kin quoted n n') : List.Forall₂ (Kin quoted) n.pairs n'.pairs := by
  unfold Node.pairs
  rw [h.kind_eq]
  by_cases hkind : n.kind = .object
  · rw [if_pos hkind, if_pos hkind]
    have hkin : ∀ {c c'}, Child quoted n c c' → Kin quoted c c' :=
      fun hc => hc.kin_of_kind (by simp [hkind]) (by simp [hkind])
    refine forall₂_filter (h.significant.imp fun _ _ hc => hkin hc) fun c c' hc => ?_
    rw [hc.key?_eq]
    rcases hc.child?_cases .value with ⟨hv, hv'⟩ | ⟨v, v', hv, hv', -⟩
    · rw [hv, hv']
    · rw [hv, hv']
      rfl
  · rw [if_neg hkind, if_neg hkind]
    exact .nil

/-- The value of a member, without parentheses. -/
theorem property?_cases (h : Kin quoted n n') (key : String) :
    (n.property? key = none ∧ n'.property? key = none) ∨
    ∃ v v', n.property? key = some v ∧ n'.property? key = some v' ∧ Kin quoted v v' := by
  unfold property?
  rcases find?_cases (p := fun c => c.key? == some key) (q := fun c => c.key? == some key) h.pairs
    fun _ _ hc => by rw [hc.key?_eq] with ⟨hp, hp'⟩ | ⟨p, p', hp, hp', hpair⟩
  · rw [hp, hp']
    exact .inl ⟨rfl, rfl⟩
  · rw [hp, hp']
    simp only [Option.bind_eq_bind, Option.bind_some]
    rcases hpair.child?_cases .value with ⟨hv, hv'⟩ | ⟨v, v', hv, hv', hvalue, -⟩
    · rw [hv, hv']
      exact .inl ⟨rfl, rfl⟩
    · rw [hv, hv']
      exact .inr ⟨_, _, rfl, rfl, hvalue.unwrapped⟩

theorem propertyString?_eq (h : Kin quoted n n') (key : String) :
    n'.propertyString? key = n.propertyString? key := by
  unfold propertyString?
  rcases h.property?_cases key with ⟨hv, hv'⟩ | ⟨v, v', hv, hv', hvalue⟩
  · rw [hv, hv']
  · rw [hv, hv']
    exact hvalue.stringValue?_eq

theorem propertyInteger?_eq (h : Kin quoted n n') (key : String) :
    n'.propertyInteger? key = n.propertyInteger? key := by
  unfold propertyInteger? propertyNumber?
  rcases h.property?_cases key with ⟨hv, hv'⟩ | ⟨v, v', hv, hv', hvalue⟩
  · rw [hv, hv']
  · rw [hv, hv']
    exact congrArg (·.bind Binary64.integer?) hvalue.signedValue?_eq

end Kin

/-! ### A test -/

mutual

/-- Whether two nodes are the same but for their places. -/
def sameAs : Node → Node → Bool
  | ⟨kind, role, _, text, children⟩, ⟨kind', role', _, text', children'⟩ =>
      kind' == kind && role' == role && text' == text && sameAll children children'

/-- Whether several nodes are the same but for their places. -/
def sameAll : List Node → List Node → Bool
  | [], [] => true
  | n :: rest, n' :: rest' => sameAs n n' && sameAll rest rest'
  | _, _ => false

end

mutual

theorem unplaced_eq_of_sameAs : ∀ {n n' : Node}, sameAs n n' = true → n'.unplaced = n.unplaced
  | ⟨kind, role, _, text, children⟩, ⟨kind', role', _, text', children'⟩, h => by
      simp only [sameAs, Bool.and_eq_true, beq_iff_eq] at h
      obtain ⟨⟨⟨rfl, rfl⟩, rfl⟩, hchildren⟩ := h
      rw [unplaced, unplaced, unplacedAll_eq_map, unplacedAll_eq_map,
        map_unplaced_eq_of_sameAll hchildren]

theorem map_unplaced_eq_of_sameAll : ∀ {nodes nodes' : List Node}, sameAll nodes nodes' = true →
    nodes'.map unplaced = nodes.map unplaced
  | [], [], _ => rfl
  | n :: rest, n' :: rest', h => by
      simp only [sameAll, Bool.and_eq_true] at h
      rw [List.map_cons, List.map_cons, unplaced_eq_of_sameAs h.1, map_unplaced_eq_of_sameAll h.2]
  | [], _ :: _, h => by simp [sameAll] at h
  | _ :: _, [], h => by simp [sameAll] at h

end

/-- Whether the second node is the first in parentheses. -/
def isGuardOf (c : Node) : Node → Bool
  | ⟨kind, role, _, _, [⟨left, none, _, opening, []⟩, e, ⟨right, none, _, closing, []⟩]⟩ =>
      kind == .parenthesized && role == c.role && left == .token "(" && opening == "(" &&
        right == .token ")" && closing == ")" && e.role == none && e.kind == c.kind &&
        e.text == c.text && sameAll c.children e.children
  | _ => false

theorem guards_of_isGuardOf (h : isGuardOf c c' = true) : Guards c c' := by
  unfold isGuardOf at h
  split at h
  · simp only [Bool.and_eq_true, beq_iff_eq] at h
    obtain ⟨⟨⟨⟨⟨⟨⟨⟨⟨rfl, rfl⟩, rfl⟩, rfl⟩, rfl⟩, rfl⟩, hrole⟩, hkind⟩, htext⟩, hchildren⟩ := h
    exact .parentheses _ _ _ _ ⟨hkind, htext, map_unplaced_eq_of_sameAll hchildren⟩ hrole
  · cases h

/-- Whether the child may be put in parentheses. -/
def isHolderOf (n c : Node) : Bool :=
  (n.kind == .pair && c.role == some .value || n.kind == .array && c.role == none) &&
    n.role != some .arguments && n.role != some .parameters && c.isSignificant

theorem holds_of_isHolderOf (h : isHolderOf n c = true) : n.Holds c := by
  simp only [isHolderOf, Bool.and_eq_true, Bool.or_eq_true, beq_iff_eq, bne_iff_ne] at h
  obtain ⟨⟨⟨hplace, harguments⟩, hparameters⟩, hsignificant⟩ := h
  exact ⟨hplace, ⟨harguments, hparameters⟩, hsignificant⟩

/-- Whether the second tree is the first with parentheses around the node at an address, if nothing
is quoted. -/
def isGuardedAt : List Nat → Node → Node → Bool
  | [], c, p => isGuardOf c p
  | k :: a, n, n' =>
      match n.children[k]?, n'.children[k]? with
      | some c, some c' =>
          !n.isWord && n'.kind == n.kind && c'.role == c.role &&
            sameAll (n.children.take k) (n'.children.take k) &&
            sameAll (n.children.drop (k + 1)) (n'.children.drop (k + 1)) &&
            (!a.isEmpty || isHolderOf n c) &&
            (n.role != some .arguments || c.kind != .array || a.length != 1) && isGuardedAt a c c'
      | _, _ => false

theorem guardedAt_of_isGuardedAt (hquoted : ∀ n, ¬ quoted n) :
    ∀ {a : List Nat} {n n' : Node}, isGuardedAt a n n' = true → GuardedAt quoted a n n'
  | [], _, _, h => .here (guards_of_isGuardOf h)
  | k :: a, n, n', h => by
      rw [isGuardedAt] at h
      split at h
      · next c c' hc hc' =>
        simp only [Bool.and_eq_true, Bool.or_eq_true, Bool.not_eq_true', beq_iff_eq,
          bne_iff_ne] at h
        obtain ⟨⟨⟨⟨⟨⟨⟨hword, hkind⟩, hrole⟩, hbefore⟩, hafter⟩, hholds⟩, hargument⟩, hdeeper⟩ := h
        obtain ⟨hk, rfl⟩ := List.getElem?_eq_some_iff.1 hc
        obtain ⟨hk', rfl⟩ := List.getElem?_eq_some_iff.1 hc'
        have hsplit : ∀ {nodes : List Node} (hlt : k < nodes.length),
            nodes = nodes.take k ++ nodes[k] :: nodes.drop (k + 1) := by
          intro nodes hlt
          rw [List.getElem_cons_drop, List.take_append_drop]
        have hlength : (n.children.take k).length = k := by
          rw [List.length_take, min_eq_left hk.le]
        have hguarded := GuardedAt.deeper hword (hquoted n) hkind (hsplit hk) (hsplit hk')
          (map_unplaced_eq_of_sameAll hbefore) (map_unplaced_eq_of_sameAll hafter) hrole ?_ ?_
          (guardedAt_of_isGuardedAt hquoted hdeeper)
        · rwa [hlength] at hguarded
        · rintro rfl
          exact holds_of_isHolderOf (by simpa using hholds)
        · rintro hn harray l rfl
          simp [hn, harray] at hargument
      · cases h

end Node

end SchemaScope.Script
