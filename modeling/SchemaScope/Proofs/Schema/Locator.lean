/-
**The locator finds what the schema returns.**

The schema object is recognised from below: a search meets the objects of a script one after the
other, and climbs from each through parentheses, a `return`, a block, a function and an argument
list to a call of `define`.  What is meant is a way down: from such a call into its third argument,
through the body of the function to a `return` and to the object that it returns.  In a tree that
follows the grammar the two agree at every place, so the first object that is recognised is the
first one that is meant.

Main definitions:

* `IsFactoryCallback` — the callback of a factory call, seen from the call;
* `SchemaObjectAt` — the places of schema objects, from the call down;
* `MemberAt` — the places of their members.

Main results:

* `isSchemaObject_iff` — **recognising from below is the same as coming from above**;
* `schemaObject?_eq_some_iff`, `located?_eq_some_iff` — what is located, in terms of places;
* `isSome_factoryCall?_of_located?` — where a member is located, there is a factory call;
* `locator_sound_complete_first` — all of it together.
-/

import SchemaScope.Proofs.Schema.Parentheses
import SchemaScope.Proofs.Script.Statements
import SchemaScope.Schema.Section

set_option autoImplicit false

namespace SchemaScope

open Script

/-! ### Children by role -/

namespace Script

/-- The child in a role is the first that plays it. -/
theorem Node.child?_eq_some_iff {n c : Node} {role : Role} :
    n.child? role = some c ↔ ∃ k, n.children[k]? = some c ∧ c.role = some role ∧
      ∀ s ∈ n.children.take k, s.role ≠ some role := by
  rw [child?, List.find?_eq_some_iff_append]
  constructor
  · rintro ⟨hrole, before, after, hchildren, hnone⟩
    refine ⟨before.length, by simp [hchildren], by simpa using hrole, ?_⟩
    intro s hs
    rw [hchildren, List.take_left] at hs
    simpa using hnone s hs
  · rintro ⟨k, hk, hrole, hnone⟩
    obtain ⟨hlt, rfl⟩ := List.getElem?_eq_some_iff.1 hk
    refine ⟨by simpa using hrole, n.children.take k, n.children.drop (k + 1), ?_, ?_⟩
    · rw [List.getElem_cons_drop, List.take_append_drop]
    · intro s hs
      simpa using hnone s hs

end Script

namespace Schema

theorem isChildIn_of_nth? {p c : Cursor} {k : Nat} (h : p.nth? k = some c) (role : Role) :
    isChildIn role c = true ↔
      c.node.role = some role ∧ ∀ s ∈ p.node.children.take k, s.role ≠ some role := by
  simp [isChildIn, (Cursor.nth?_eq_some.1 h).2]

theorem isThirdOfThree_of_nth? {p c : Cursor} {k : Nat} (h : p.nth? k = some c) :
    isThirdOfThree c = true ↔ ((p.node.children.take k).filter Node.isSignificant).length = 2 ∧
      ∀ s ∈ p.node.children.drop (k + 1), s.isSignificant = false := by
  simp [isThirdOfThree, (Cursor.nth?_eq_some.1 h).2, List.filter_reverse]

/-! ### Seen from the call -/

/-- The callback of a factory call: a function that is the third of exactly three arguments of a
call to `define`.  The arguments are the child of the call at `i`, and the callback is theirs at
`j`. -/
structure IsFactoryCallback (call : Node) (i : Nat) (arguments : Node) (j : Nat)
    (callback : Node) : Prop where
  isCall : call.kind = .call
  callsFactory : ∃ callee, call.child? .callee = some callee ∧ callee.kind = .identifier ∧
    callee.text = factoryName
  isArguments : call.children[i]? = some arguments ∧ arguments.kind = .arguments
  inRole : arguments.role = some .arguments ∧
    ∀ s ∈ call.children.take i, s.role ≠ some .arguments
  isFunction : arguments.children[j]? = some callback ∧ callback.isFunctionLiteral = true
  twoBefore : ((arguments.children.take j).filter Node.isSignificant).length = 2
  noneAfter : ∀ s ∈ arguments.children.drop (j + 1), s.isSignificant = false

/-- The places of schema objects: a factory call, its callback, the block of the callback, a
`return` directly in the block, and the object that it returns inside any number of parentheses. -/
inductive SchemaObjectAt (root : Node) : List Nat → Prop
  | returned {path inner : List Nat} {i j k l m : Nat}
      {call arguments callback body statement expression : Node}
      (hcall : root.at? path = some call)
      (hcallback : IsFactoryCallback call i arguments j callback)
      (hbody : callback.children[k]? = some body) (hblock : body.kind = .statementBlock)
      (hstatement : body.children[l]? = some statement)
      (hreturn : statement.kind = .returnStatement)
      (hexpression : statement.children[m]? = some expression)
      (hinside : expression.Inside inner) (hobject : expression.unwrapped.kind = .object) :
      SchemaObjectAt root (path ++ [i, j, k, l, m] ++ inner)

/-- The places of the members of schema objects that have the given key. -/
inductive MemberAt (root : Node) (name : String) : List Nat → Prop
  | direct {address : List Nat} {k : Nat} {pair : Node} (hobject : SchemaObjectAt root address)
      (hpair : root.at? (address ++ [k]) = some pair) (hkind : pair.kind = .pair)
      (hkey : pair.key? = some name) : MemberAt root name (address ++ [k])

/-! ### The arguments of a factory call -/

theorem factoryArguments?_eq_some_iff {call name dependencies callback : Node} :
    factoryArguments? call = some (name, dependencies, callback) ↔
      ∃ callee arguments, call.child? .callee = some callee ∧
        call.child? .arguments = some arguments ∧ callee.kind = .identifier ∧
        callee.text = factoryName ∧ arguments.significant = [name, dependencies, callback] ∧
        callback.isFunctionLiteral = true := by
  simp only [factoryArguments?, Option.bind_eq_bind, Option.bind_eq_some_iff]
  constructor
  · rintro ⟨callee, hcallee, arguments, harguments, h⟩
    split at h
    · next hname =>
      split at h
      · next hsignificant =>
        split at h
        · next hfunction =>
          cases h
          exact ⟨callee, arguments, hcallee, harguments, hname.1, hname.2, hsignificant, hfunction⟩
        · cases h
      · cases h
    · cases h
  · rintro ⟨callee, arguments, hcallee, harguments, hkind, htext, hsignificant, hfunction⟩
    exact ⟨callee, hcallee, arguments, harguments, by simp [hkind, htext, hsignificant, hfunction]⟩

theorem isSignificant_of_isFunctionLiteral {n : Node} (h : n.isFunctionLiteral = true) :
    n.isSignificant = true := by
  unfold Node.isFunctionLiteral Kind.isFunctionLiteral at h
  unfold Node.isSignificant
  split at h <;> simp_all [Kind.isNamed]

/-- The callback of a factory call is the last of its arguments. -/
theorem IsFactoryCallback.factoryArguments?_eq {call arguments callback : Node} {i j : Nat}
    (h : IsFactoryCallback call i arguments j callback) :
    ∃ name dependencies, factoryArguments? call = some (name, dependencies, callback) := by
  obtain ⟨callee, hcallee, hkind, htext⟩ := h.callsFactory
  have harguments : call.child? .arguments = some arguments :=
    Node.child?_eq_some_iff.2 ⟨i, h.isArguments.1, h.inRole⟩
  obtain ⟨hj, hfunction⟩ := h.isFunction
  obtain ⟨name, dependencies, htwo⟩ := List.length_eq_two.1 h.twoBefore
  have hnone : (arguments.children.drop (j + 1)).filter Node.isSignificant = [] :=
    List.filter_eq_nil_iff.2 fun s hs => by simp [h.noneAfter s hs]
  have hchildren : arguments.children =
      arguments.children.take j ++ callback :: arguments.children.drop (j + 1) := by
    obtain ⟨hlt, rfl⟩ := List.getElem?_eq_some_iff.1 hj
    rw [List.getElem_cons_drop, List.take_append_drop]
  have hsignificant : arguments.children.filter Node.isSignificant
      = [name, dependencies, callback] := by
    rw [hchildren, List.filter_append, htwo,
      List.filter_cons_of_pos (isSignificant_of_isFunctionLiteral hfunction), hnone]
    rfl
  exact ⟨name, dependencies, factoryArguments?_eq_some_iff.2
    ⟨callee, arguments, hcallee, harguments, hkind, htext, hsignificant, hfunction⟩⟩

/-! ### Cursors between a call and its schema object -/

/-- The cursors on the way from a factory call down to a schema object. -/
inductive Returns (call : Cursor) : Cursor → Prop
  | returned {arguments callback body statement expression object : Cursor} {i j k l m : Nat}
      (hi : call.nth? i = some arguments) (hj : arguments.nth? j = some callback)
      (hcallback : IsFactoryCallback call.node i arguments.node j callback.node)
      (hk : callback.nth? k = some body) (hblock : body.node.kind = .statementBlock)
      (hl : body.nth? l = some statement) (hreturn : statement.node.kind = .returnStatement)
      (hm : statement.nth? m = some expression) (hinside : expression.Inside object)
      (hobject : object.node.kind = .object) : Returns call object

variable {t : Tree} {c call : Cursor}

/-- What is checked of the five cursors above an object, once the parentheses are left. -/
theorem isReturnedByFactory_iff {above : List Cursor} : isReturnedByFactory above = true ↔
    ∃ statement body callback arguments call rest,
      outsideParentheses above = statement :: body :: callback :: arguments :: call :: rest ∧
      statement.node.kind = .returnStatement ∧ body.node.kind = .statementBlock ∧
      callback.node.isFunctionLiteral = true ∧ arguments.node.kind = .arguments ∧
      (factoryArguments? call.node).isSome = true ∧ isChildIn .arguments arguments = true ∧
      isThirdOfThree callback = true := by
  unfold isReturnedByFactory
  generalize outsideParentheses above = outside
  split
  · next statement body callback arguments call rest =>
    simp only [Bool.and_eq_true, beq_iff_eq, and_assoc]
    constructor
    · intro h
      exact ⟨statement, body, callback, arguments, call, rest, rfl, h⟩
    · rintro ⟨_, _, _, _, _, _, heq, h⟩
      cases heq
      exact h
  · next hne =>
    refine iff_of_false (by simp) ?_
    rintro ⟨statement, body, callback, arguments, call, rest, heq, -⟩
    exact hne _ _ _ _ _ _ heq

/-- From below: what is recognised is returned by a factory call. -/
theorem exists_returns_of_isSchemaObject (ht : t.FollowsGrammar) (hc : c ∈ t.walk)
    (h : isSchemaObject c = true) : ∃ call ∈ t.walk, Returns call c := by
  simp only [isSchemaObject, Bool.and_eq_true, beq_iff_eq] at h
  obtain ⟨hobject, hreturned⟩ := h
  obtain ⟨statement, body, callback, arguments, call, rest, houtside, hreturn, hblock, hfunction,
    harguments, hfactory, hrole, hthird⟩ := isReturnedByFactory_iff.1 hreturned
  have hbare : c.Inside c := .bare (by simp [hobject])
  obtain ⟨hs, habove, m, x, hm, hx⟩ := Tree.exists_inside_of_outsideParentheses ht hc hbare
    (by simp [Node.isSignificant, hobject, Kind.isNamed]) houtside
  obtain ⟨hb, habove, l, hl⟩ := Tree.exists_nth?_of_enclosing hs habove.symm
  obtain ⟨hcb, habove, k, hk⟩ := Tree.exists_nth?_of_enclosing hb habove.symm
  obtain ⟨ha, habove, j, hj⟩ := Tree.exists_nth?_of_enclosing hcb habove.symm
  obtain ⟨hcall, -, i, hi⟩ := Tree.exists_nth?_of_enclosing ha habove.symm
  obtain ⟨⟨name, dependencies, function⟩, hfactory⟩ := Option.isSome_iff_exists.1 hfactory
  obtain ⟨callee, -, hcallee, -, hkind, htext, -, -⟩ := factoryArguments?_eq_some_iff.1 hfactory
  rw [isThirdOfThree_of_nth? hj] at hthird
  have hcallback : IsFactoryCallback call.node i arguments.node j callback.node :=
    { isCall := (ht.node hcall).call (by simp [hcallee])
      callsFactory := ⟨callee, hcallee, hkind, htext⟩
      isArguments := ⟨(Cursor.nth?_eq_some.1 hi).1, harguments⟩
      inRole := (isChildIn_of_nth? hi .arguments).1 hrole
      isFunction := ⟨(Cursor.nth?_eq_some.1 hj).1, hfunction⟩
      twoBefore := hthird.1
      noneAfter := hthird.2 }
  exact ⟨call, hcall, .returned hi hj hcallback hk hblock hl hreturn hm hx hobject⟩

/-- From above: what a factory call returns is recognised. -/
theorem Returns.isSchemaObject (h : Returns call c) : isSchemaObject c = true := by
  cases h with
  | @returned arguments callback body statement expression object i j k l m hi hj hcallback hk
      hblock hl hreturn hm hinside hobject =>
    have houtside : outsideParentheses c.enclosing =
        statement :: body :: callback :: arguments :: call :: call.enclosing := by
      rw [hinside.outsideParentheses_eq, Cursor.enclosing_of_nth? hm, outsideParentheses,
        List.dropWhile_cons_of_neg (by simp [hreturn]), Cursor.enclosing_of_nth? hl,
        Cursor.enclosing_of_nth? hk, Cursor.enclosing_of_nth? hj, Cursor.enclosing_of_nth? hi]
    obtain ⟨name, dependencies, hfactory⟩ := hcallback.factoryArguments?_eq
    simp only [Schema.isSchemaObject, hobject, beq_self_eq_true, Bool.true_and]
    refine isReturnedByFactory_iff.2 ⟨statement, body, callback, arguments, call, _, houtside,
      hreturn, hblock, hcallback.isFunction.2, hcallback.isArguments.2, by simp [hfactory], ?_, ?_⟩
    · exact (isChildIn_of_nth? hi .arguments).2 hcallback.inRole
    · exact (isThirdOfThree_of_nth? hj).2 ⟨hcallback.twoBefore, hcallback.noneAfter⟩

/-- A cursor at a position stands on the child at that position. -/
theorem node_eq_of_nth? {p d : Cursor} {k : Nat} {n : Node} (hd : p.nth? k = some d)
    (hn : p.node.children[k]? = some n) : n = d.node :=
  Option.some.inj (hn.symm.trans (Cursor.nth?_eq_some.1 hd).1)

/-- Where the addresses on the way lead, the cursors on the way stand. -/
theorem SchemaObjectAt.exists_returns (hc : c ∈ t.walk) (h : SchemaObjectAt t.root c.address) :
    ∃ call ∈ t.walk, Returns call c := by
  generalize haddress : c.address = address at h
  cases h with
  | @returned path inner i j k l m call arguments callback body statement expression hcall
      hcallback hbody hblock hstatement hreturn hexpression hinside hobject =>
    have hat := Tree.at?_address hc
    rw [haddress, List.append_assoc, Cursor.at?_append, Option.bind_eq_some_iff] at hat
    obtain ⟨top, htop, hat⟩ := hat
    have hnode := Cursor.map_node_at? t.cursor path
    rw [htop] at hnode
    obtain rfl : top.node = call := Option.some.inj (hnode.trans hcall)
    -- one step of the address after the other
    obtain ⟨a, hi, hat⟩ := Cursor.at?_cons_eq_some.1 hat
    obtain rfl := node_eq_of_nth? hi hcallback.isArguments.1
    obtain ⟨cb, hj, hat⟩ := Cursor.at?_cons_eq_some.1 hat
    obtain rfl := node_eq_of_nth? hj hcallback.isFunction.1
    obtain ⟨b, hk, hat⟩ := Cursor.at?_cons_eq_some.1 hat
    obtain rfl := node_eq_of_nth? hk hbody
    obtain ⟨s, hl, hat⟩ := Cursor.at?_cons_eq_some.1 hat
    obtain rfl := node_eq_of_nth? hl hstatement
    obtain ⟨x, hm, hat⟩ := Cursor.at?_cons_eq_some.1 hat
    obtain rfl := node_eq_of_nth? hm hexpression
    have hxc : x.Inside c := ⟨inner, hinside, hat⟩
    exact ⟨top, Tree.mem_walk_iff.2 ⟨path, htop⟩,
      .returned hi hj hcallback hk hblock hl hreturn hm hxc (hxc.node_eq ▸ hobject)⟩

/-- Where the cursors on the way stand, the addresses on the way lead. -/
theorem Returns.schemaObjectAt (hcall : call ∈ t.walk) (h : Returns call c) :
    SchemaObjectAt t.root c.address := by
  cases h with
  | @returned arguments callback body statement expression object i j k l m hi hj hcallback hk
      hblock hl hreturn hm hinside hobject =>
    have hexpression := hinside.node_eq
    obtain ⟨inner, hinner, hat⟩ := hinside
    have haddress : c.address = call.address ++ [i, j, k, l, m] ++ inner := by
      rw [Cursor.address_of_at? hat, Cursor.address_of_nth? hm, Cursor.address_of_nth? hl,
        Cursor.address_of_nth? hk, Cursor.address_of_nth? hj, Cursor.address_of_nth? hi]
      simp
    rw [haddress]
    exact .returned (Tree.root_at?_address hcall) hcallback (Cursor.nth?_eq_some.1 hk).1 hblock
      (Cursor.nth?_eq_some.1 hl).1 hreturn (Cursor.nth?_eq_some.1 hm).1 hinner
      (hexpression ▸ hobject)

/-- **Recognising from below is the same as coming from above.** -/
theorem isSchemaObject_iff (ht : t.FollowsGrammar) (hc : c ∈ t.walk) :
    isSchemaObject c = true ↔ SchemaObjectAt t.root c.address := by
  constructor
  · intro h
    obtain ⟨call, hcall, hreturns⟩ := exists_returns_of_isSchemaObject ht hc h
    exact hreturns.schemaObjectAt hcall
  · intro h
    obtain ⟨call, -, hreturns⟩ := h.exists_returns hc
    exact hreturns.isSchemaObject

theorem isTopLevelMember_iff (ht : t.FollowsGrammar) (hc : c ∈ t.walk) (name : String) :
    isTopLevelMember name c = true ↔ MemberAt t.root name c.address := by
  simp only [isTopLevelMember, Bool.and_eq_true, beq_iff_eq]
  obtain rfl | ⟨p, hp, k, hk⟩ := Tree.eq_cursor_or_exists_nth? hc
  · -- the root is no member of anything
    refine iff_of_false (by simp [Tree.cursor, Cursor.root, Cursor.parent?]) fun h => ?_
    generalize haddress : t.cursor.address = address at h
    cases h
    simp [Tree.cursor, Cursor.root, Cursor.address] at haddress
  · have hat := Tree.root_at?_address hc
    rw [Cursor.address_of_nth? hk] at hat ⊢
    rw [Cursor.parent?_of_nth? hk, Option.any_some, isSchemaObject_iff ht hp]
    constructor
    · rintro ⟨⟨hkind, hkey⟩, hobject⟩
      exact .direct hobject hat hkind hkey
    · intro h
      generalize haddress : p.address ++ [k] = address at h
      cases h with
      | direct hobject hpair hkind hkey =>
          obtain ⟨rfl, hsame⟩ := List.append_inj' haddress rfl
          cases hsame
          obtain rfl := Option.some.inj (hat.symm.trans hpair)
          exact ⟨⟨hkind, hkey⟩, hobject⟩

/-! ### What is located -/

/-- The node stands at the first of the given places. -/
def FirstAt (root : Node) (places : List Nat → Prop) (n : Node) : Prop :=
  ∃ address, places address ∧ root.at? address = some n ∧ ∀ other, places other → address ≤ other

theorem exists_cursor_of_at? {address : List Nat} {n : Node} (h : t.root.at? address = some n) :
    ∃ c ∈ t.walk, c.address = address ∧ c.node = n := by
  have hnode := Cursor.map_node_at? t.cursor address
  obtain ⟨c, hc, rfl⟩ := Option.map_eq_some_iff.1 (hnode.trans h)
  exact ⟨c, Tree.mem_walk_iff.2 ⟨address, hc⟩, Cursor.address_of_at? hc, rfl⟩

section Search

variable {p : Cursor → Bool} {places : List Nat → Prop}
  (hp : ∀ c ∈ t.walk, p c = true ↔ places c.address)
  (hplaces : ∀ address, places address → ∃ n, t.root.at? address = some n)

include hp hplaces

/-- A search for places that can be told from below finds the first of them. -/
theorem findFirst?_eq_some_iff_firstAt {n : Node} :
    (∃ c, t.findFirst? p = some c ∧ c.node = n) ↔ FirstAt t.root places n := by
  constructor
  · rintro ⟨c, hc, rfl⟩
    obtain ⟨hmem, hpc, hfirst⟩ := Tree.findFirst?_eq_some_iff.1 hc
    refine ⟨c.address, (hp c hmem).1 hpc, Tree.root_at?_address hmem, ?_⟩
    intro other hother
    obtain ⟨m, hm⟩ := hplaces other hother
    obtain ⟨d, hd, rfl, -⟩ := exists_cursor_of_at? hm
    exact hfirst d hd ((hp d hd).2 hother)
  · rintro ⟨address, haddress, hat, hfirst⟩
    obtain ⟨c, hc, rfl, rfl⟩ := exists_cursor_of_at? hat
    refine ⟨c, Tree.findFirst?_eq_some_iff.2 ⟨hc, (hp c hc).2 haddress, ?_⟩, rfl⟩
    intro d hd hpd
    exact hfirst d.address ((hp d hd).1 hpd)

theorem findFirst?_eq_none_iff_places : t.findFirst? p = none ↔ ∀ address, ¬ places address := by
  rw [Tree.findFirst?_eq_none_iff]
  constructor
  · intro h address haddress
    obtain ⟨n, hn⟩ := hplaces address haddress
    obtain ⟨c, hc, rfl, -⟩ := exists_cursor_of_at? hn
    exact h c hc ((hp c hc).2 haddress)
  · intro h c hc hpc
    exact h c.address ((hp c hc).1 hpc)

end Search

theorem SchemaObjectAt.exists_at? {root : Node} {address : List Nat}
    (h : SchemaObjectAt root address) : ∃ n, root.at? address = some n := by
  cases h with
  | @returned path inner i j k l m call arguments callback body statement expression hcall hcallback
      hbody hblock hstatement hreturn hexpression hinside hobject =>
    refine ⟨expression.unwrapped, ?_⟩
    simp [Node.at?_append, Node.at?_cons, hcall, hcallback.isArguments.1, hcallback.isFunction.1,
      hbody, hstatement, hexpression, hinside.at?_eq]

theorem MemberAt.exists_at? {root : Node} {name : String} {address : List Nat}
    (h : MemberAt root name address) : ∃ n, root.at? address = some n := by
  cases h with
  | direct _ hpair _ _ => exact ⟨_, hpair⟩

theorem schemaObject?_eq_some_iff (ht : t.FollowsGrammar) {n : Node} :
    schemaObject? t = some n ↔ FirstAt t.root (SchemaObjectAt t.root) n := by
  rw [schemaObject?, Option.map_eq_some_iff]
  exact findFirst?_eq_some_iff_firstAt (fun c hc => isSchemaObject_iff ht hc)
    fun _ h => h.exists_at?

theorem schemaObject?_eq_none_iff (ht : t.FollowsGrammar) :
    schemaObject? t = none ↔ ∀ address, ¬ SchemaObjectAt t.root address := by
  rw [schemaObject?, Option.map_eq_none_iff]
  exact findFirst?_eq_none_iff_places (fun c hc => isSchemaObject_iff ht hc)
    fun _ h => h.exists_at?

/-- The first member is located together with its value. -/
theorem located?_eq_some_iff (ht : t.FollowsGrammar) {name : String} {l : Located} :
    located? t name = some l ↔ FirstAt t.root (MemberAt t.root name) l.pair ∧
      (l.pair.child? .value).map Node.unwrapped = some l.value := by
  rw [← findFirst?_eq_some_iff_firstAt (fun c hc => isTopLevelMember_iff ht hc name)
    fun _ h => h.exists_at?]
  obtain ⟨pair, value⟩ := l
  simp only [located?, Option.bind_eq_bind, Option.bind_eq_some_iff, Option.pure_def,
    Option.some.injEq, Located.mk.injEq, Option.map_eq_some_iff]
  constructor
  · rintro ⟨c, hc, v, hv, rfl, rfl⟩
    exact ⟨⟨c, hc, rfl⟩, v, hv, rfl⟩
  · rintro ⟨⟨c, hc, rfl⟩, v, hv, rfl⟩
    exact ⟨c, hc, v, hv, rfl, rfl⟩

theorem located?_eq_none_iff (ht : t.FollowsGrammar) {name : String} :
    located? t name = none ↔ ∀ address, ¬ MemberAt t.root name address := by
  rw [← findFirst?_eq_none_iff_places (fun c hc => isTopLevelMember_iff ht hc name)
    fun _ h => h.exists_at?]
  constructor
  · intro h
    cases hfound : t.findFirst? (isTopLevelMember name) with
    | none => rfl
    | some c =>
        obtain ⟨hc, hmember, -⟩ := Tree.findFirst?_eq_some_iff.1 hfound
        simp only [isTopLevelMember, Bool.and_eq_true, beq_iff_eq] at hmember
        obtain ⟨v, hv⟩ := Option.isSome_iff_exists.1 ((ht.node hc).value hmember.1.1)
        simp [located?, hfound, hv] at h
  · intro h
    simp [located?, h]

/-! ### The factory call of a located member -/

theorem isSome_factoryCall?_iff :
    (factoryCall? t).isSome = true ↔ ∃ c ∈ t.walk, isFactoryCall c.node = true := by
  constructor
  · intro h
    obtain ⟨info, hinfo⟩ := Option.isSome_iff_exists.1 h
    simp only [factoryCall?, Option.bind_eq_bind, Option.bind_eq_some_iff] at hinfo
    obtain ⟨c, hc, -⟩ := hinfo
    obtain ⟨hmem, hcall, -⟩ := Tree.findFirst?_eq_some_iff.1 hc
    exact ⟨c, hmem, hcall⟩
  · rintro ⟨c, hc, hcall⟩
    cases hfound : t.findFirst? (fun c => isFactoryCall c.node) with
    | none => exact absurd hcall (Tree.findFirst?_eq_none_iff.1 hfound c hc)
    | some d =>
        obtain ⟨-, hd, -⟩ := Tree.findFirst?_eq_some_iff.1 hfound
        simp only [isFactoryCall, Bool.and_eq_true] at hd
        obtain ⟨⟨name, dependencies, callback⟩, hfactory⟩ := Option.isSome_iff_exists.1 hd.2
        simp [factoryCall?, hfound, hfactory]

theorem Returns.isFactoryCall (h : Returns call c) : isFactoryCall call.node = true := by
  cases h with
  | returned _ _ hcallback =>
      obtain ⟨name, dependencies, hfactory⟩ := hcallback.factoryArguments?_eq
      simp [Schema.isFactoryCall, hcallback.isCall, hfactory]

/-- Where a member is located, there is a factory call. -/
theorem isSome_factoryCall?_of_located? (ht : t.FollowsGrammar) {name : String}
    (h : (located? t name).isSome = true) : (factoryCall? t).isSome = true := by
  obtain ⟨l, hl⟩ := Option.isSome_iff_exists.1 h
  obtain ⟨⟨address, hmember, -⟩, -⟩ := (located?_eq_some_iff ht).1 hl
  cases hmember with
  | @direct address k pair hobject hpair hkind hkey =>
      obtain ⟨n, hn⟩ := hobject.exists_at?
      obtain ⟨c, hc, rfl, -⟩ := exists_cursor_of_at? hn
      obtain ⟨call, hcall, hreturns⟩ := hobject.exists_returns hc
      exact isSome_factoryCall?_iff.2 ⟨call, hcall, hreturns.isFactoryCall⟩

/-- Whatever is parsed follows the grammar. -/
theorem followsGrammar_of_parse? {source : String} (h : Tree.parse? source = some t) :
    t.FollowsGrammar :=
  fun n hn => ((Tree.conformsThroughout_of_parse? h).1 n hn).toFollowsGrammar

/-- Every section but the dependencies is a member of a schema object. -/
theorem exists_located?_of_section {lookup : CaptionLookup} {found : Option Section}
    (hfound : found ∈ [Section.mixins? t, Section.messages? t, Section.attributes? t,
      Section.details? lookup t, Section.methods? t, Section.businessRules? t,
      Section.layout? lookup t]) (hsome : found.isSome = true) :
    ∃ name, (located? t name).isSome = true := by
  have hmember : ∀ {name : String} {content : Node → Content},
      (Section.ofMember? t name content).isSome = true → (located? t name).isSome = true := by
    intro name content h
    simp only [Section.ofMember?, locatedObject?, Option.isSome_map] at h
    exact Option.isSome_of_isSome_filter _ _ h
  simp only [List.mem_cons, List.not_mem_nil, or_false] at hfound
  rcases hfound with rfl | rfl | rfl | rfl | rfl | rfl | rfl
  case inr.inr.inr.inr.inr.inr =>
    simp only [Section.layout?, Option.isSome_map] at hsome
    exact ⟨"diff", Option.isSome_of_isSome_filter _ _ hsome⟩
  all_goals exact ⟨_, hmember hsome⟩

/-- **The locator is sound, complete and first in pre-order.** In every tree that follows the
grammar it finds the first schema object, and the first member with a given key of any schema
object; it finds nothing only if there is none; and where it finds a section, there is a factory
call. -/
theorem locator_sound_complete_first (ht : t.FollowsGrammar) :
    (∀ n, schemaObject? t = some n ↔ FirstAt t.root (SchemaObjectAt t.root) n) ∧
      (schemaObject? t = none ↔ ∀ address, ¬ SchemaObjectAt t.root address) ∧
      (∀ name l, located? t name = some l ↔ FirstAt t.root (MemberAt t.root name) l.pair ∧
        (l.pair.child? .value).map Node.unwrapped = some l.value) ∧
      (∀ name, located? t name = none ↔ ∀ address, ¬ MemberAt t.root name address) ∧
      ∀ lookup, ∀ found ∈ [Section.mixins? t, Section.messages? t, Section.attributes? t,
          Section.details? lookup t, Section.methods? t, Section.businessRules? t,
          Section.layout? lookup t],
        found.isSome = true → (factoryCall? t).isSome = true := by
  refine ⟨fun n => schemaObject?_eq_some_iff ht, schemaObject?_eq_none_iff ht,
    fun name l => located?_eq_some_iff ht, fun name => located?_eq_none_iff ht, ?_⟩
  intro lookup found hfound hsome
  obtain ⟨name, hname⟩ := exists_located?_of_section hfound hsome
  exact isSome_factoryCall?_of_located? ht hname

/-- A page whose schema object stands in parentheses, behind a `return` that a condition guards. -/
def guardedPage : String :=
  "define('P', [], () => \x7b if (a) return \x7b b: 1 \x7d; " ++
    "return (\x7b mixins: \x7b\x7d \x7d) \x7d)"

theorem locator_sound_complete_first_guardedPage :
    ∃ t, Tree.parse? guardedPage = some t ∧ t.FollowsGrammar ∧
      ∃ n l, schemaObject? t = some n ∧ FirstAt t.root (SchemaObjectAt t.root) n ∧
        located? t "mixins" = some l ∧ FirstAt t.root (MemberAt t.root "mixins") l.pair ∧
        (∀ address, ¬ MemberAt t.root "b" address) ∧ (factoryCall? t).isSome = true := by
  have hpage : (Tree.parse? guardedPage).any (fun t => (schemaObject? t).isSome &&
      (located? t "mixins").isSome && (located? t "b").isNone && (Section.mixins? t).isSome)
      = true := by decide +kernel
  obtain ⟨t, hparse, h⟩ := (Option.any_eq_true _ _).1 hpage
  simp only [Bool.and_eq_true, Option.isNone_iff_eq_none] at h
  obtain ⟨⟨⟨hobject, hmixins⟩, hb⟩, hsection⟩ := h
  obtain ⟨n, hn⟩ := Option.isSome_iff_exists.1 hobject
  obtain ⟨l, hl⟩ := Option.isSome_iff_exists.1 hmixins
  have ht := followsGrammar_of_parse? hparse
  obtain ⟨hfirst, -, hmember, hnone, hcall⟩ := locator_sound_complete_first ht
  exact ⟨t, hparse, ht, n, l, hn, (hfirst n).1 hn, hl, ((hmember "mixins" l).1 hl).1,
    (hnone "b").1 hb, hcall .none _ (by simp) hsection⟩

end Schema

end SchemaScope
