/-
**Counterparts in a tree with more parentheses.**

A search goes through a tree from the top and looks at the nodes above each place.  In a tree with
parentheses around one more node it meets the same places, and the parentheses besides; above each
place there are the same nodes, and perhaps the parentheses.  So a search that looks through
parentheses, and accepts none itself, finds the same.

Main definitions:

* `Node.KinAt`, `Node.ChildAt` — nodes at an address and their counterparts, when the address of the
  node in parentheses is known;
* `Counterpart` — cursors of the one tree and of the other.

Main results:

* `Node.KinAt.child`, `Node.ChildAt.unwrapped` — counterparts on the way down;
* `Counterpart.any_parent?_eq`, `Counterpart.outsideParentheses_cases` — counterparts on the way up;
* `Tree.findFirst?_cases` — **the search finds counterparts, or nothing in either tree**.
-/

import SchemaScope.Proofs.Schema.Guarding
import SchemaScope.Proofs.Schema.Locator

set_option autoImplicit false

namespace SchemaScope

open Schema

namespace Script

/-! ### Addresses of counterparts -/

namespace Node

variable {quoted : Node → Prop} {w a b : List Nat} {n n' c c' : Node} {k : Nat}

/-- The node at an address, and its counterpart in the tree that is guarded at `w`. -/
inductive KinAt (quoted : Node → Prop) (w a : List Nat) (n n' : Node) : Prop
  | alike (hnot : ∀ i b, w ≠ a ++ i :: b) (h : Alike n n')
  | guarded {i : Nat} {b : List Nat} (hw : w = a ++ i :: b) (h : GuardedAt quoted (i :: b) n n')

/-- The child at a position, and its counterpart. -/
structure ChildAt (quoted : Node → Prop) (w a : List Nat) (n : Node) (k : Nat) (c c' : Node) :
    Prop where
  role : c'.role = c.role
  kin : KinAt quoted w (a ++ [k]) c c' ∧ w ≠ a ++ [k] ∨ w = a ++ [k] ∧ n.Holds c ∧ Guards c c'

theorem KinAt.kin (h : KinAt quoted w a n n') : Kin quoted n n' := by
  cases h with
  | alike _ h => exact .alike h
  | guarded _ h => exact .guarded h

theorem ChildAt.child (h : ChildAt quoted w a n k c c') : Child quoted n c c' :=
  ⟨h.role, h.kin.imp (fun hkin => hkin.1.kin) And.right⟩

theorem ChildAt.kinAt_of_kind (h : ChildAt quoted w a n k c c') (hpair : n.kind ≠ .pair)
    (harray : n.kind ≠ .array) : KinAt quoted w (a ++ [k]) c c' := by
  rcases h.kin with ⟨hkin, -⟩ | ⟨-, hholds, -⟩
  · exact hkin
  · rcases hholds.kind with hkind | hkind
    · exact absurd hkind hpair
    · exact absurd hkind harray

theorem exists_getElem?_of_map_unplaced {nodes nodes' : List Node}
    (h : nodes'.map unplaced = nodes.map unplaced) (hk : nodes[k]? = some c) :
    ∃ c', nodes'[k]? = some c' ∧ c'.unplaced = c.unplaced := by
  have hplace := congrArg (·[k]?) h
  simp only [List.getElem?_map, hk, Option.map_some, Option.map_eq_some_iff] at hplace
  exact hplace

/-- What does not lie on the way to the parentheses has an alike counterpart. -/
theorem childAt_of_unplaced_eq (h : c'.unplaced = c.unplaced)
    (hnot : ∀ b, w ≠ a ++ k :: b) : ChildAt quoted w a n k c c' := by
  obtain ⟨hrole, halike⟩ := unplaced_eq_iff.1 h
  refine ⟨hrole, .inl ⟨.alike (fun i b hw => hnot (i :: b) ?_) halike, hnot []⟩⟩
  rw [hw, List.append_assoc]
  rfl

/-- The child at a position has a counterpart there. -/
theorem KinAt.child (h : KinAt quoted w a n n') (hk : n.children[k]? = some c) :
    ∃ c', n'.children[k]? = some c' ∧ ChildAt quoted w a n k c c' := by
  cases h with
  | alike hnot h =>
      obtain ⟨c', hc', hsame⟩ := exists_getElem?_of_map_unplaced h.children hk
      exact ⟨c', hc', childAt_of_unplaced_eq hsame (hnot k)⟩
  | @guarded _ b hw h =>
      cases h with
      | @deeper _ _ d d' before before' after after' _ _ _ _ hchildren hchildren' hbefore hafter
          hrole hholds _ h =>
          have hlength : before'.length = before.length := by
            simpa using congrArg List.length hbefore
          have hnot : k ≠ before.length → ∀ b', w ≠ a ++ k :: b' := by
            rintro hne b' heq
            rw [hw, List.append_cancel_left_eq, List.cons.injEq] at heq
            exact hne heq.1.symm
          rw [hchildren] at hk
          rw [hchildren']
          rcases lt_trichotomy k before.length with hlt | rfl | hlt
          · rw [List.getElem?_append_left hlt] at hk
            obtain ⟨c', hc', hsame⟩ := exists_getElem?_of_map_unplaced hbefore hk
            exact ⟨c', by rwa [List.getElem?_append_left (hlength ▸ hlt)],
              childAt_of_unplaced_eq hsame (hnot hlt.ne)⟩
          · rw [List.getElem?_append_right le_rfl, Nat.sub_self] at hk
            cases hk
            have hd' : (before' ++ d' :: after')[before.length]? = some d' := by
              rw [← hlength, List.getElem?_append_right le_rfl, Nat.sub_self]
              rfl
            refine ⟨d', hd', hrole, ?_⟩
            cases b with
            | nil =>
                cases h with
                | here hguards => exact .inr ⟨hw, hholds rfl, hguards⟩
            | cons i b =>
                refine .inl ⟨.guarded (by rw [hw, List.append_assoc]; rfl) h, fun heq => ?_⟩
                rw [hw, List.append_cancel_left_eq] at heq
                cases heq
          · obtain ⟨m, rfl⟩ := Nat.exists_eq_add_of_lt hlt
            rw [List.getElem?_append_right (by omega),
              show before.length + m + 1 - before.length = m + 1 by omega,
              List.getElem?_cons_succ] at hk
            obtain ⟨c', hc', hsame⟩ := exists_getElem?_of_map_unplaced hafter hk
            refine ⟨c', ?_, childAt_of_unplaced_eq hsame (hnot hlt.ne')⟩
            rwa [List.getElem?_append_right (by omega),
              show before.length + m + 1 - before'.length = m + 1 by omega, List.getElem?_cons_succ]

/-- Counterparts are still so at the end of the way into the parentheses around them. -/
theorem KinAt.unwrapped (hinside : n.Inside b) (h : KinAt quoted w a n n') :
    KinAt quoted w (a ++ b) n.unwrapped n'.unwrapped := by
  induction hinside generalizing a n' with
  | bare hkind =>
      rw [List.append_nil, unwrapped_of_kind_ne hkind,
        unwrapped_of_kind_ne (by rwa [h.kin.kind_eq])]
      exact h
  | @parenthesized n e k b hkind honly hk _ ih =>
      obtain ⟨e', he', hchild⟩ := h.child hk
      -- the counterpart of the expression is all that the parentheses hold
      have honly' : n'.significant = [e'] := by
        have hsignificant := h.kin.significant
        rw [honly] at hsignificant
        obtain ⟨d, _, -, hnil, hd⟩ := List.forall₂_cons_left_iff.1 hsignificant
        rw [List.forall₂_nil_left_iff.1 hnil] at hd
        have he : e.isSignificant = true :=
          (mem_significant_iff.1 (honly ▸ List.mem_singleton_self e)).2
        have hmem : e' ∈ n'.significant := mem_significant_iff.2
          ⟨List.mem_of_getElem? he', hchild.child.isSignificant_eq.trans he⟩
        rw [hd, List.mem_singleton] at hmem
        rw [hd, hmem]
      have hstep := ih (hchild.kinAt_of_kind (by simp [hkind]) (by simp [hkind]))
      rw [unwrapped_of_significant hkind honly,
        unwrapped_of_significant (h.kin.kind_eq.trans hkind) honly']
      rwa [List.append_assoc] at hstep

theorem ne_append_cons_of_eq (hw : w = a) (k : Nat) (b : List Nat) : w ≠ a ++ k :: b := by
  intro h
  simpa using congrArg List.length (hw.symm.trans h)

/-- In parentheses or not, without them a child has a counterpart. -/
theorem ChildAt.unwrapped (h : ChildAt quoted w a n k c c') (hinside : c.Inside b) :
    KinAt quoted w (a ++ k :: b) c.unwrapped c'.unwrapped := by
  have haddress : a ++ k :: b = a ++ [k] ++ b := by rw [List.append_assoc]; rfl
  rw [haddress]
  rcases h.kin with ⟨hkin, -⟩ | ⟨hw, hholds, hguards⟩
  · exact hkin.unwrapped hinside
  · obtain ⟨e, he, halike⟩ := hguards.exists_significant hholds.significant
    rw [unwrapped_of_significant hguards.kind_eq he]
    exact (KinAt.alike (ne_append_cons_of_eq hw) halike).unwrapped hinside

end Node

/-! ### Cursors -/

section Cursors

open Node

variable {quoted : Node → Prop} {w : List Nat} {t t' : Tree} {c c' : Cursor}

/-- A cursor and its counterpart in the tree that is guarded at `w`. -/
inductive Counterpart (quoted : Node → Prop) (w : List Nat) (t t' : Tree) : Cursor → Cursor → Prop
  | root (h : KinAt quoted w [] t.root t'.root) : Counterpart quoted w t t' t.cursor t'.cursor
  | child {p p' c c' : Cursor} {k : Nat} (hp : Counterpart quoted w t t' p p')
      (hc : p.nth? k = some c) (hc' : p'.nth? k = some c')
      (h : KinAt quoted w c.address c.node c'.node) : Counterpart quoted w t t' c c'
  | inside {p p' c g c' : Cursor} {k : Nat} (hp : Counterpart quoted w t t' p p')
      (hc : p.nth? k = some c) (hg : p'.nth? k = some g) (hw : w = c.address)
      (hholds : p.node.Holds c.node) (hguards : Guards c.node g.node) (hc' : g.nth? 1 = some c') :
      Counterpart quoted w t t' c c'

namespace Counterpart

theorem kinAt (h : Counterpart quoted w t t' c c') : KinAt quoted w c.address c.node c'.node := by
  cases h with
  | root h => exact h
  | child _ _ _ h => exact h
  | @inside _ _ _ g _ _ _ _ _ hw _ hguards hc' =>
      obtain ⟨g, frames⟩ := g
      cases hguards with
      | parentheses _ _ _ _ halike _ =>
          obtain rfl := Option.some.inj (Cursor.nth?_eq_some.1 hc').1
          exact .alike (ne_append_cons_of_eq hw) halike

theorem kin (h : Counterpart quoted w t t' c c') : Kin quoted c.node c'.node := h.kinAt.kin

/-- A test of the parent has the same outcome, if it accepts counterparts alike and neither what may
hold parentheses nor parentheses. -/
theorem any_parent?_eq (h : Counterpart quoted w t t' c c') {f : Cursor → Bool}
    (hsame : ∀ p p', Counterpart quoted w t t' p p' → f p' = f p)
    (hholds : ∀ p : Cursor, p.node.Holds c.node → f p = false)
    (hguards : ∀ g : Cursor, (∃ e, Guards e g.node) → f g = false) :
    c'.parent?.any f = c.parent?.any f := by
  cases h with
  | root => rfl
  | child hp hc hc' _ =>
      rw [Cursor.parent?_of_nth? hc, Cursor.parent?_of_nth? hc', Option.any_some, Option.any_some]
      exact hsame _ _ hp
  | @inside _ _ _ _ _ _ _ hc _ _ hh hg hc' =>
      rw [Cursor.parent?_of_nth? hc, Cursor.parent?_of_nth? hc', Option.any_some, Option.any_some,
        hguards _ ⟨_, hg⟩, hholds _ hh]

/-- Outside the parentheses around counterparts, if there is anything, there are counterparts. -/
theorem outsideParentheses_cases (h : Counterpart quoted w t t' c c') :
    (outsideParentheses c.enclosing = [] ∧ outsideParentheses c'.enclosing = []) ∨
    ∃ s s', outsideParentheses c.enclosing = s :: s.enclosing ∧
      outsideParentheses c'.enclosing = s' :: s'.enclosing ∧ Counterpart quoted w t t' s s' := by
  have hstop : ∀ s : Cursor, s.node.kind ≠ .parenthesized →
      outsideParentheses (s :: s.enclosing) = s :: s.enclosing :=
    fun s hs => List.dropWhile_cons_of_neg (by simpa using hs)
  have hpass : ∀ s : Cursor, s.node.kind = .parenthesized →
      outsideParentheses (s :: s.enclosing) = outsideParentheses s.enclosing :=
    fun s hs => List.dropWhile_cons_of_pos (by simpa using hs)
  induction h with
  | root => exact .inl ⟨rfl, rfl⟩
  | @child p p' _ _ _ hp hc hc' _ ih =>
      rw [Cursor.enclosing_of_nth? hc, Cursor.enclosing_of_nth? hc']
      by_cases hkind : p.node.kind = .parenthesized
      · rw [hpass p hkind, hpass p' (hp.kin.kind_eq.trans hkind)]
        exact ih
      · exact .inr ⟨p, p', hstop p hkind, hstop p' (by rwa [hp.kin.kind_eq]), hp⟩
  | @inside p p' _ g _ _ hp hc hg _ hholds hguards hc' _ =>
      have hkind : p.node.kind ≠ .parenthesized := by rcases hholds.kind with h | h <;> simp [h]
      rw [Cursor.enclosing_of_nth? hc, Cursor.enclosing_of_nth? hc', hpass g hguards.kind_eq,
        Cursor.enclosing_of_nth? hg]
      exact .inr ⟨p, p', hstop p hkind, hstop p' (by rwa [hp.kin.kind_eq]), hp⟩

end Counterpart

/-! ### Searches -/

/-- What a walk meets below a cursor: its children and everything below them. -/
theorem Cursor.withinAll_eq_flatMap (parent : Node) (frames : List Frame) :
    ∀ earlier siblings : List Node, parent.children = earlier.reverse ++ siblings →
      withinAll parent frames earlier siblings =
        (List.range' earlier.length siblings.length).flatMap fun k =>
          ((⟨parent, frames⟩ : Cursor).nth? k).toList.flatMap fun d => within d.frames d.node
  | _, [], _ => rfl
  | earlier, n :: later, h => by
      have hnth : (⟨parent, frames⟩ : Cursor).nth? earlier.length =
          some ⟨n, ⟨parent, earlier, later⟩ :: frames⟩ :=
        nth?_eq_some.2 ⟨by simp [h], by simp [h, List.drop_append]⟩
      rw [withinAll, withinAll_eq_flatMap parent frames (n :: earlier) later (by simp [h]),
        List.length_cons, List.length_cons, List.range'_succ, List.flatMap_cons, hnth]
      simp

theorem Cursor.within_eq_flatMap (c : Cursor) : within c.frames c.node =
    c :: (List.range c.node.children.length).flatMap fun k =>
      (c.nth? k).toList.flatMap fun d => within d.frames d.node := by
  rw [within_eq, withinAll_eq_flatMap c.node c.frames [] c.node.children rfl,
    List.range_eq_range', List.length_nil]

theorem Cursor.sizeOf_node_lt_of_nth? {c d : Cursor} {k : Nat} (h : c.nth? k = some d) :
    sizeOf d.node < sizeOf c.node := by
  have hmem := List.sizeOf_lt_of_mem (List.mem_of_getElem? (nth?_eq_some.1 h).1)
  obtain ⟨⟨kind, role, location, text, children⟩, frames⟩ := c
  simp only [Node.mk.sizeOf_spec] at hmem ⊢
  omega

section Search

variable {accepts : Cursor → Bool}
  (hparentheses : ∀ c : Cursor, c.node.kind = .parenthesized → accepts c = false)
  (htoken : ∀ c : Cursor, c.node.kind.isNamed = false → accepts c = false)

include hparentheses htoken

/-- Of parentheses and everything below them, nothing is accepted outside the node that was put in
them. -/
theorem Node.Guards.exists_filter_within {c : Node} {g : Cursor} (h : Guards c g.node) :
    ∃ e, g.nth? 1 = some e ∧ (Cursor.within g.frames g.node).filter accepts =
      (Cursor.within e.frames e.node).filter accepts := by
  obtain ⟨g, frames⟩ := g
  cases h with
  | @parentheses e location opening closing text _ _ =>
      have hmark : ∀ mark location frames,
          accepts ⟨⟨.token mark, none, location, mark, []⟩, frames⟩ = false :=
        fun _ _ _ => htoken _ rfl
      refine ⟨_, rfl, ?_⟩
      simp [Cursor.within, Cursor.withinAll, hparentheses, hmark]

variable (hsame : ∀ c c', Counterpart quoted w t t' c c' → accepts c' = accepts c)

include hsame

/-- What is accepted below counterparts are counterparts. -/
theorem Counterpart.forall₂_within {c c' : Cursor} (h : Counterpart quoted w t t' c c') :
    List.Forall₂ (Counterpart quoted w t t') ((Cursor.within c.frames c.node).filter accepts)
      ((Cursor.within c'.frames c'.node).filter accepts) := by
  have hlength : c'.node.children.length = c.node.children.length := h.kin.children.length_eq.symm
  have hbelow : List.Forall₂ (Counterpart quoted w t t')
      (((List.range c.node.children.length).flatMap fun k =>
        (c.nth? k).toList.flatMap fun d => Cursor.within d.frames d.node).filter accepts)
      (((List.range c'.node.children.length).flatMap fun k =>
        (c'.nth? k).toList.flatMap fun d => Cursor.within d.frames d.node).filter accepts) := by
    rw [hlength, List.filter_flatMap, List.filter_flatMap]
    refine List.rel_flatMap (R := Eq) (List.forall₂_eq_eq_eq ▸ rfl) ?_
    rintro k _ rfl
    beta_reduce
    cases hd : c.nth? k with
    | none =>
        have hnone : c.node.children[k]? = none := Option.map_eq_none_iff.1 hd
        have hnone' : c'.nth? k = none := by
          rw [Cursor.nth?, List.getElem?_eq_none (hlength ▸ List.getElem?_eq_none_iff.1 hnone)]
          rfl
        rw [hnone']
        exact .nil
    | some d =>
        obtain ⟨_, hk, hchild⟩ := h.kinAt.child (Cursor.nth?_eq_some.1 hd).1
        obtain ⟨d', hd', rfl⟩ := Cursor.exists_nth? hk
        have hsmaller := Cursor.sizeOf_node_lt_of_nth? hd
        rw [hd']
        simp only [Option.toList_some, List.flatMap_cons, List.flatMap_nil, List.append_nil]
        have hplace := hchild.kin
        rw [← Cursor.address_of_nth? hd] at hplace
        rcases hplace with ⟨hkin, -⟩ | ⟨hw, hholds, hguards⟩
        · exact forall₂_within (.child h hd hd' hkin)
        · obtain ⟨e, he, hsame⟩ := hguards.exists_filter_within hparentheses htoken
          rw [hsame]
          exact forall₂_within (.inside h hd hd' hw hholds hguards he)
  rw [c.within_eq_flatMap, c'.within_eq_flatMap]
  by_cases hc : accepts c = true
  · rw [List.filter_cons_of_pos hc, List.filter_cons_of_pos ((hsame c c' h).trans hc)]
    exact .cons h hbelow
  · rw [List.filter_cons_of_neg hc, List.filter_cons_of_neg (by rwa [hsame c c' h])]
    exact hbelow
termination_by sizeOf c.node

/-- **A search finds counterparts, or nothing in either tree.** -/
theorem Tree.findFirst?_cases (h : KinAt quoted w [] t.root t'.root) :
    (t.findFirst? accepts = none ∧ t'.findFirst? accepts = none) ∨
    ∃ c c', t.findFirst? accepts = some c ∧ t'.findFirst? accepts = some c' ∧
      Counterpart quoted w t t' c c' := by
  have hwalks := (Counterpart.root h).forall₂_within hparentheses htoken hsame
  have hfirst : ∀ s : Tree, s.findFirst? accepts =
      ((Cursor.within s.cursor.frames s.cursor.node).filter accepts).head? := by
    intro s
    rw [List.head?_filter, Tree.findFirst?, Cursor.findFirst?_eq_find?]
    exact congrArg _ s.walk_eq_within
  rw [hfirst, hfirst]
  generalize (Cursor.within t.cursor.frames t.cursor.node).filter accepts = accepted at hwalks ⊢
  generalize (Cursor.within t'.cursor.frames t'.cursor.node).filter accepts = accepted' at hwalks ⊢
  cases hwalks with
  | nil => exact .inl ⟨rfl, rfl⟩
  | cons hc _ => exact .inr ⟨_, _, rfl, rfl, hc⟩

end Search

end Cursors

end Script

/-! ### The locator -/

namespace Schema

open Script Node

/-- The cursor stands on the arguments of a factory call. -/
def standsAsArguments (c : Cursor) : Bool :=
  c.node.kind == .arguments && isChildIn .arguments c &&
    c.parent?.any fun p => (factoryArguments? p.node).isSome

/-- The cursor stands on the callback of a factory call. -/
def standsAsCallback (c : Cursor) : Bool :=
  c.node.isFunctionLiteral && (isThirdOfThree c && c.parent?.any standsAsArguments)

/-- The cursor stands on the body of the callback. -/
def standsAsBody (c : Cursor) : Bool :=
  c.node.kind == .statementBlock && c.parent?.any standsAsCallback

/-- The cursor stands on a `return` directly in the body of the callback. -/
def standsAsReturn (c : Cursor) : Bool :=
  c.node.kind == .returnStatement && c.parent?.any standsAsBody

/-- Climbing parent by parent checks the same as looking at the five cursors at once. -/
theorem isReturnedByFactory_eq {above : List Cursor} {s : Cursor}
    (h : outsideParentheses above = s :: s.enclosing) :
    isReturnedByFactory above = standsAsReturn s := by
  rw [isReturnedByFactory, h]
  obtain ⟨n, frames⟩ := s
  match frames with
  | [] | [_] | [_, _] | [_, _, _] =>
      simp [Cursor.enclosing, Cursor.ancestors, standsAsReturn, standsAsBody, standsAsCallback,
        standsAsArguments, Cursor.parent?]
  | body :: callback :: arguments :: call :: _ =>
      -- the same seven tests in another order
      simp only [Cursor.enclosing, Cursor.ancestors, standsAsReturn, standsAsBody, standsAsCallback,
        standsAsArguments, Cursor.parent?, Option.any_some]
      ac_rfl

section Locator

variable {quoted : Node → Prop} {w : List Nat} {t t' : Tree} {c c' : Cursor} {n n' : Node}

/-- The arguments of a factory call.  Where the second is an array, its elements have
counterparts. -/
theorem factoryArguments?_cases (h : Kin quoted n n') :
    (factoryArguments? n = none ∧ factoryArguments? n' = none) ∨
    ∃ name dependencies callback name' dependencies' callback',
      factoryArguments? n = some (name, dependencies, callback) ∧
      factoryArguments? n' = some (name', dependencies', callback') ∧
      Kin quoted callback callback' ∧ dependencies'.kind = dependencies.kind ∧
      (dependencies.kind = .array →
        List.Forall₂ (Kin quoted) dependencies.significant dependencies'.significant) := by
  unfold factoryArguments?
  rcases h.child?_cases .callee with ⟨hf, hf'⟩ | ⟨f, f', hf, hf', hcallee, hfrole⟩
  · exact .inl (by simp [hf, hf'])
  rcases h.child?_cases .arguments with ⟨hx, hx'⟩ | ⟨x, x', hx, hx', harguments, hxrole⟩
  · exact .inl (by simp [hf, hf', hx, hx'])
  have hfkin := hcallee.kin_of_role hfrole (by simp)
  have hlist := (harguments.kin_of_role hxrole (by simp)).arguments hxrole
  rw [hf, hf', hx, hx']
  simp only [Option.bind_eq_bind, Option.bind_some, hfkin.kind_eq]
  have htext : f.kind = .identifier → f'.text = f.text :=
    fun hkind => hfkin.text_eq (by simp [hkind, Kind.isWord])
  by_cases hname : f.kind = .identifier ∧ f.text = factoryName
  · rw [if_pos hname, if_pos ⟨hname.1, (htext hname.1).trans hname.2⟩]
    generalize x.significant = nodes at hlist
    generalize x'.significant = nodes' at hlist
    -- there are as many arguments, and three are needed
    cases hlist with
    | nil => exact .inl ⟨rfl, rfl⟩
    | @cons a a' _ _ _ hlist =>
        cases hlist with
        | nil => exact .inl ⟨rfl, rfl⟩
        | @cons b b' _ _ hb hlist =>
            cases hlist with
            | nil => exact .inl ⟨rfl, rfl⟩
            | @cons f f' _ _ hf hlist =>
                cases hlist with
                | cons _ _ => exact .inl ⟨rfl, rfl⟩
                | nil =>
                    have hfunction := hf.1.isFunctionLiteral_eq
                    by_cases hliteral : f.isFunctionLiteral = true
                    · refine .inr ⟨a, b, f, a', b', f', ?_, ?_, hf.1, hb.1.kind_eq, hb.2⟩
                      · simp [hliteral]
                      · simp [hfunction, hliteral]
                    · exact .inl (by simp [hfunction, hliteral])
  · rw [if_neg hname, if_neg ?_]
    · exact .inl ⟨rfl, rfl⟩
    · rintro ⟨hkind, hdefine⟩
      exact hname ⟨hkind, (htext hkind).symm.trans hdefine⟩

theorem isSome_factoryArguments?_eq (h : Kin quoted n n') :
    (factoryArguments? n').isSome = (factoryArguments? n).isSome := by
  rcases factoryArguments?_cases h with ⟨hn, hn'⟩ | ⟨_, _, _, _, _, _, hn, hn', -⟩
  · rw [hn, hn']
  · rw [hn, hn']
    rfl

theorem isFactoryCall_eq (h : Kin quoted n n') : isFactoryCall n' = isFactoryCall n := by
  rw [isFactoryCall, isFactoryCall, h.kind_eq, isSome_factoryArguments?_eq h]

/-- Parentheses are no factory call. -/
theorem factoryArguments?_of_guards {e : Node} (h : Guards e n) : factoryArguments? n = none := by
  cases h with
  | parentheses _ _ _ _ _ hrole => simp [factoryArguments?, child?, hrole]

/-- Counterparts play the role of arguments alike. -/
theorem isChildIn_eq (h : Counterpart quoted w t t' c c') :
    isChildIn .arguments c' = isChildIn .arguments c := by
  rw [Bool.eq_iff_iff]
  cases h with
  | root => exact Iff.rfl
  | @child p p' _ _ k hp hc hc' _ =>
      have hroles : p'.node.children.map (·.role) = p.node.children.map (·.role) :=
        hp.kin.map_children_eq fun _ _ hchild => hchild.role
      have hrole : c'.node.role = c.node.role := by
        have hk := congrArg (·[k]?) hroles
        simpa [(Cursor.nth?_eq_some.1 hc).1, (Cursor.nth?_eq_some.1 hc').1] using hk
      have hearlier : ∀ s : Node, (∀ d ∈ s.children.take k, d.role ≠ some .arguments) ↔
          ∀ r ∈ (s.children.map (·.role)).take k, r ≠ some .arguments := by
        intro s
        rw [← List.map_take, List.forall_mem_map]
      rw [isChildIn_of_nth? hc, isChildIn_of_nth? hc', hrole, hearlier, hearlier, hroles]
  | @inside _ _ _ g _ _ _ hc _ _ hholds hguards hc' =>
      -- what is put in parentheses is no list of arguments, and plays no role inside them
      have hrole : c'.node.role = none := by
        obtain ⟨g, frames⟩ := g
        cases hguards with
        | parentheses _ _ _ _ _ hrole =>
            obtain rfl := Option.some.inj (Cursor.nth?_eq_some.1 hc').1
            exact hrole
      rw [isChildIn_of_nth? hc, isChildIn_of_nth? hc', hrole]
      refine iff_of_false (by simp) ?_
      rcases hholds.role_child with hvalue | hnone
      · simp [hvalue]
      · simp [hnone]

theorem role_of_isChildIn {role : Role} (h : isChildIn role c = true) :
    c.node.role = some role := by
  unfold isChildIn at h
  split at h
  · cases h
  · simp only [Bool.and_eq_true, beq_iff_eq] at h
    exact h.1

theorem standsAsArguments_eq (h : Counterpart quoted w t t' c c') :
    standsAsArguments c' = standsAsArguments c := by
  rw [standsAsArguments, standsAsArguments, h.kin.kind_eq, isChildIn_eq h]
  by_cases hrole : isChildIn .arguments c = true
  · congr 1
    refine h.any_parent?_eq (fun p p' hp => isSome_factoryArguments?_eq hp.kin) ?_ ?_
    · intro p hholds
      rcases hholds.role_child with hvalue | hnone
      · simp [role_of_isChildIn hrole] at hvalue
      · simp [role_of_isChildIn hrole] at hnone
    · rintro g ⟨e, hguards⟩
      rw [factoryArguments?_of_guards hguards]
      rfl
  · simp [hrole]

theorem standsAsCallback_eq (h : Counterpart quoted w t t' c c') :
    standsAsCallback c' = standsAsCallback c := by
  rw [standsAsCallback, standsAsCallback, h.kin.isFunctionLiteral_eq]
  congr 1
  cases h with
  | root => rfl
  | @child p p' _ _ k hp hc hc' _ =>
      have hsignificant : p'.node.children.map isSignificant = p.node.children.map isSignificant :=
        hp.kin.map_children_eq fun _ _ hchild => hchild.isSignificant_eq
      have hthird : isThirdOfThree c' = isThirdOfThree c := by
        have hbefore : ∀ s : Node, ((s.children.take k).filter isSignificant).length =
            ((s.children.map isSignificant).take k).countP id := by
          intro s
          rw [← List.map_take, List.countP_map, List.countP_eq_length_filter]
          rfl
        have hafter : ∀ s : Node, (∀ d ∈ s.children.drop (k + 1), d.isSignificant = false) ↔
            ∀ b ∈ (s.children.map isSignificant).drop (k + 1), b = false := by
          intro s
          rw [← List.map_drop, List.forall_mem_map]
        rw [Bool.eq_iff_iff, isThirdOfThree_of_nth? hc, isThirdOfThree_of_nth? hc', hbefore,
          hbefore, hafter, hafter, hsignificant]
      rw [hthird, Cursor.parent?_of_nth? hc, Cursor.parent?_of_nth? hc', Option.any_some,
        Option.any_some, standsAsArguments_eq hp]
  | @inside p _ _ g _ _ _ hc _ _ hholds hguards hc' =>
      have hp : standsAsArguments p = false := by
        rcases hholds.kind with hkind | hkind <;> simp [standsAsArguments, hkind]
      have hg : standsAsArguments g = false := by simp [standsAsArguments, hguards.kind_eq]
      rw [Cursor.parent?_of_nth? hc, Cursor.parent?_of_nth? hc', Option.any_some, Option.any_some,
        hp, hg, Bool.and_false, Bool.and_false]

theorem standsAsBody_eq (h : Counterpart quoted w t t' c c') :
    standsAsBody c' = standsAsBody c := by
  rw [standsAsBody, standsAsBody, h.kin.kind_eq]
  congr 1
  refine h.any_parent?_eq (fun _ _ hp => standsAsCallback_eq hp) ?_ ?_
  · intro p hholds
    rcases hholds.kind with hkind | hkind <;>
      simp [standsAsCallback, Node.isFunctionLiteral, hkind, Kind.isFunctionLiteral]
  · rintro g ⟨_, hguards⟩
    simp [standsAsCallback, Node.isFunctionLiteral, hguards.kind_eq, Kind.isFunctionLiteral]

theorem standsAsReturn_eq (h : Counterpart quoted w t t' c c') :
    standsAsReturn c' = standsAsReturn c := by
  rw [standsAsReturn, standsAsReturn, h.kin.kind_eq]
  congr 1
  refine h.any_parent?_eq (fun _ _ hp => standsAsBody_eq hp) ?_ ?_
  · intro p hholds
    rcases hholds.kind with hkind | hkind <;> simp [standsAsBody, hkind]
  · rintro g ⟨_, hguards⟩
    simp [standsAsBody, hguards.kind_eq]

/-- Counterparts are schema objects alike. -/
theorem isSchemaObject_eq (h : Counterpart quoted w t t' c c') :
    isSchemaObject c' = isSchemaObject c := by
  rw [isSchemaObject, isSchemaObject, h.kin.kind_eq]
  congr 1
  rcases h.outsideParentheses_cases with ⟨hs, hs'⟩ | ⟨s, s', hs, hs', hsame⟩
  · rw [isReturnedByFactory, isReturnedByFactory, hs, hs']
  · rw [isReturnedByFactory_eq hs, isReturnedByFactory_eq hs', standsAsReturn_eq hsame]

/-- Counterparts are members of schema objects alike. -/
theorem isTopLevelMember_eq (h : Counterpart quoted w t t' c c') (name : String) :
    isTopLevelMember name c' = isTopLevelMember name c := by
  rw [isTopLevelMember, isTopLevelMember, h.kin.kind_eq, h.kin.key?_eq]
  congr 1
  refine h.any_parent?_eq (fun _ _ hp => isSchemaObject_eq hp) ?_ ?_
  · intro p hholds
    rcases hholds.kind with hkind | hkind <;> simp [isSchemaObject, hkind]
  · rintro g ⟨_, hguards⟩
    simp [isSchemaObject, hguards.kind_eq]

/-- **The first member with a given key has its counterpart for the first member.** -/
theorem findFirst?_isTopLevelMember_cases (h : KinAt quoted w [] t.root t'.root) (name : String) :
    (t.findFirst? (isTopLevelMember name) = none ∧ t'.findFirst? (isTopLevelMember name) = none) ∨
    ∃ c c', t.findFirst? (isTopLevelMember name) = some c ∧
      t'.findFirst? (isTopLevelMember name) = some c' ∧ Counterpart quoted w t t' c c' := by
  refine Tree.findFirst?_cases ?_ ?_ (fun _ _ hc => isTopLevelMember_eq hc name) h
  · intro c hkind
    simp [isTopLevelMember, hkind]
  · intro c htoken
    have hkind : c.node.kind ≠ .pair := by
      rintro hpair
      simp [hpair, Kind.isNamed] at htoken
    simp [isTopLevelMember, hkind]

/-- **The first factory call has its counterpart for the first factory call.** -/
theorem findFirst?_isFactoryCall_cases (h : KinAt quoted w [] t.root t'.root) :
    (t.findFirst? (fun c => isFactoryCall c.node) = none ∧
      t'.findFirst? (fun c => isFactoryCall c.node) = none) ∨
    ∃ c c', t.findFirst? (fun c => isFactoryCall c.node) = some c ∧
      t'.findFirst? (fun c => isFactoryCall c.node) = some c' ∧ Counterpart quoted w t t' c c' := by
  refine Tree.findFirst?_cases ?_ ?_ (fun _ _ hc => isFactoryCall_eq hc.kin) h
  · intro c hkind
    simp [isFactoryCall, hkind]
  · intro c htoken
    have hkind : c.node.kind ≠ .call := by
      rintro hcall
      simp [hcall, Kind.isNamed] at htoken
    simp [isFactoryCall, hkind]

end Locator

end Schema

end SchemaScope
