/-
**Which parameter is shown beside a dependency.**

The module loader hands the value of the dependency at a place of the array to the parameter at the
same place of the callback.  The outline first drops what is no string from the array and what is no
plain name from the parameters, and then puts the two lists side by side.  So a dependency is shown
with the plain parameter before which there are as many plain ones as there are strings before the
dependency.  This is the parameter that the loader hands it to if the array and the parameters have
dropped equally much up to there, and may be another one if not.

Main definitions:

* `elementsOf`, `parameterNodes` — what the array and the parameter list of a callback hold;
* `isString`, `isPlainName` — what is kept of them;
* `rankAt` — how many of the kept nodes stand before a place;
* `loaderParameter` — the name of the parameter that the loader uses for a place.

Main results:

* `getElem?_filterMap_rank` — where a kept entry of a list ends up;
* `getElem?_padded` — what stands at a place of two lists side by side;
* `dependency_beside_parameter` — **which parameter is shown beside a dependency**;
* `not_dependency_beside_loaderParameter` — this is not always the parameter that the loader uses.
-/

import SchemaScope.Schema.Section

set_option autoImplicit false

namespace SchemaScope.Schema

open Script Platform

/-! ### Places in lists -/

/-- How many entries that are kept stand before a place. -/
def rankAt {α : Type} (keep : α → Bool) (l : List α) (i : Nat) : Nat := (l.take i).countP keep

@[simp] theorem rankAt_zero {α : Type} (keep : α → Bool) (l : List α) : rankAt keep l 0 = 0 := rfl

theorem rankAt_cons_succ {α : Type} (keep : α → Bool) (a : α) (l : List α) (i : Nat) :
    rankAt keep (a :: l) (i + 1) = rankAt keep l i + if keep a then 1 else 0 := by
  rw [rankAt, List.take_succ_cons, List.countP_cons, rankAt]

/-- An entry of a list that is kept comes to stand behind the kept ones before it. -/
theorem getElem?_filterMap_rank {α β : Type} (f : α → Option β) {l : List α} {i : Nat} {a : α} {b : β}
    (ha : l[i]? = some a) (hb : f a = some b) :
    (l.filterMap f)[rankAt (fun x => (f x).isSome) l i]? = some b := by
  induction l generalizing i with
  | nil => cases ha
  | cons x l ih =>
      cases i with
      | zero =>
          cases ha
          rw [rankAt_zero, List.filterMap_cons_some hb]
          rfl
      | succ i =>
          rw [rankAt_cons_succ]
          cases hx : f x with
          | none =>
              rw [List.filterMap_cons_none hx]
              exact ih ha
          | some y =>
              rw [List.filterMap_cons_some hx]
              exact ih ha

/-- Two lists side by side have at each place of the first what both have there. -/
theorem getElem?_padded {α β : Type} {as : List α} {bs : List β} {k : Nat} {a : α}
    (ha : as[k]? = some a) : (padded as bs)[k]? = some (some a, bs[k]?) := by
  induction as generalizing bs k with
  | nil => cases ha
  | cons x as ih =>
      cases k with
      | zero =>
          cases ha
          cases bs <;>
            · rw [padded]
              rfl
      | succ k =>
          cases bs with
          | nil =>
              rw [padded, List.getElem?_cons_succ, ih ha]
              rfl
          | cons y bs =>
              rw [padded, List.getElem?_cons_succ, ih ha]
              rfl

/-! ### Elements and parameters -/

/-- The elements of an array literal. -/
def elementsOf (n : Node) : List Node := if n.kind = .array then n.significant else []

/-- The parameters of a callback, patterns and defaults among them. -/
def parameterNodes (callback : Node) : List Node :=
  match callback.child? .parameter with
  | some single => [single]
  | none => ((callback.child? .parameters).map Node.significant).getD []

/-- What is kept of an array. -/
def stringNamed? (e : Node) : Option Named := e.stringValue?.map fun name => ⟨name, e.location⟩

/-- What is kept of the parameters. -/
def plainNamed? (p : Node) : Option Named :=
  if p.kind = .identifier then some ⟨p.text, p.location⟩ else none

/-- Whether a node is a string literal. -/
def isString (e : Node) : Bool := e.stringValue?.isSome

/-- Whether a parameter is a plain name. -/
def isPlainName (p : Node) : Bool := p.kind == .identifier

theorem isSome_stringNamed? (e : Node) : (stringNamed? e).isSome = isString e := Option.isSome_map

theorem isSome_plainNamed? (p : Node) : (plainNamed? p).isSome = isPlainName p := by
  unfold plainNamed? isPlainName
  split <;> simp_all

theorem dependenciesOf_eq (n : Node) : dependenciesOf n = (elementsOf n).filterMap stringNamed? := by
  unfold dependenciesOf elementsOf
  split <;> rfl

theorem parametersOf_eq (callback : Node) :
    parametersOf callback = (parameterNodes callback).filterMap plainNamed? := by
  have hkept : ∀ nodes : List Node, (nodes.filter (·.kind == .identifier)).map
      (fun n => (⟨n.text, n.location⟩ : Named)) = nodes.filterMap plainNamed? := by
    intro nodes
    induction nodes with
    | nil => rfl
    | cons n nodes ih =>
        by_cases hn : n.kind = .identifier
        · rw [List.filter_cons_of_pos (by simp [hn]), List.map_cons, ih,
            List.filterMap_cons_some (by rw [plainNamed?, if_pos hn])]
        · rw [List.filter_cons_of_neg (by simp [hn]), ih,
            List.filterMap_cons_none (by rw [plainNamed?, if_neg hn])]
  exact hkept _

/-- A string of the array stands among the dependencies behind the strings before it. -/
theorem getElem?_dependenciesOf {n e : Node} {i : Nat} {text : String}
    (he : (elementsOf n)[i]? = some e) (htext : e.stringValue? = some text) :
    (dependenciesOf n)[rankAt isString (elementsOf n) i]? = some ⟨text, e.location⟩ := by
  have hnamed : stringNamed? e = some ⟨text, e.location⟩ := by rw [stringNamed?, htext]; rfl
  have hplace := getElem?_filterMap_rank stringNamed? he hnamed
  simp only [isSome_stringNamed?] at hplace
  rw [dependenciesOf_eq]
  exact hplace

/-- A plain parameter stands among the parameters behind the plain ones before it. -/
theorem getElem?_parametersOf {callback p : Node} {j : Nat}
    (hp : (parameterNodes callback)[j]? = some p) (hplain : isPlainName p = true) :
    (parametersOf callback)[rankAt isPlainName (parameterNodes callback) j]? =
      some ⟨p.text, p.location⟩ := by
  have hnamed : plainNamed? p = some ⟨p.text, p.location⟩ := if_pos (by simpa [isPlainName] using hplain)
  have hplace := getElem?_filterMap_rank plainNamed? hp hnamed
  simp only [isSome_plainNamed?] at hplace
  rw [parametersOf_eq]
  exact hplace

theorem length_parametersOf (callback : Node) :
    (parametersOf callback).length = (parameterNodes callback).countP isPlainName := by
  rw [parametersOf_eq, List.length_filterMap_eq_countP]
  exact congrArg (List.countP · _) (funext isSome_plainNamed?)

/-! ### What is shown -/

section Shown

variable {t : Tree} {call : Cursor} {name dependencies callback : Node}

/-- The first factory call of a script has a section of dependencies. -/
theorem dependencies?_of_findFirst? (hcall : t.findFirst? (fun c => isFactoryCall c.node) = some call)
    (hargs : factoryArguments? call.node = some (name, dependencies, callback)) :
    Section.dependencies? t =
      some ⟨.dependencies ((padded (dependenciesOf dependencies) (parametersOf callback)).map
        Dependency.ofBinding), call.node.location⟩ := by
  simp only [Section.dependencies?, factoryCall?, hcall, Option.bind_eq_bind, Option.bind_some, hargs]
  rfl

/-- **Which parameter is shown beside a dependency.**  The outline of a script with a factory call has
a section of dependencies.  The string at any place of the array is shown there, behind as many others
as there are strings before it.  Beside it stands the plain parameter that has as many plain ones
before it, wherever it stands among the parameters, and the mark of the unknown if there are no more
plain ones than that. -/
theorem dependency_beside_parameter
    (hcall : t.findFirst? (fun c => isFactoryCall c.node) = some call)
    (hargs : factoryArguments? call.node = some (name, dependencies, callback)) :
    ∃ items, Section.dependencies? t = some ⟨.dependencies items, call.node.location⟩ ∧
      ∀ (i : Nat) (e : Node) (text : String), (elementsOf dependencies)[i]? = some e →
        e.stringValue? = some text →
        ∃ item, items[rankAt isString (elementsOf dependencies) i]? = some item ∧
          item.name = text ∧ item.location = some e.location ∧
          (∀ (j : Nat) (p : Node), (parameterNodes callback)[j]? = some p → isPlainName p = true →
            rankAt isPlainName (parameterNodes callback) j =
              rankAt isString (elementsOf dependencies) i → item.parameter = p.text) ∧
          ((parameterNodes callback).countP isPlainName ≤
            rankAt isString (elementsOf dependencies) i → item.parameter = unknown) := by
  refine ⟨_, dependencies?_of_findFirst? hcall hargs, fun i e text he htext => ?_⟩
  have hpair : (padded (dependenciesOf dependencies) (parametersOf callback))[
      rankAt isString (elementsOf dependencies) i]? = some (some ⟨text, e.location⟩,
        (parametersOf callback)[rankAt isString (elementsOf dependencies) i]?) :=
    getElem?_padded (getElem?_dependenciesOf he htext)
  refine ⟨_, by rw [List.getElem?_map, hpair]; rfl, rfl, rfl, ?_, ?_⟩
  · intro j p hp hplain hrank
    rw [← hrank, getElem?_parametersOf hp hplain]
    rfl
  · intro hfew
    rw [← length_parametersOf] at hfew
    rw [List.getElem?_eq_none hfew]
    rfl

end Shown

/-- A page on which a pattern stands among the parameters, and a number in the array. -/
def patternPage : String :=
  "define('P', ['A', 7, 'B', 'C'], function(a, \x7b x \x7d, b, c) \x7b return \x7b\x7d; \x7d)"

/-- Whether some factory call of a script passes a test on its dependencies and its callback. -/
def firstCallSatisfies (test : Node → Node → Bool) (t : Tree) : Bool :=
  (t.findFirst? fun c => isFactoryCall c.node).any fun call =>
    (factoryArguments? call.node).any fun arguments => test arguments.2.1 arguments.2.2

theorem exists_of_firstCallSatisfies {test : Node → Node → Bool} {t : Tree}
    (h : firstCallSatisfies test t = true) : ∃ call name dependencies callback,
      t.findFirst? (fun c => isFactoryCall c.node) = some call ∧
      factoryArguments? call.node = some (name, dependencies, callback) ∧
      test dependencies callback = true := by
  simp only [firstCallSatisfies, Option.any_eq_true] at h
  obtain ⟨call, hcall, ⟨name, dependencies, callback⟩, hargs, htest⟩ := h
  exact ⟨call, name, dependencies, callback, hcall, hargs, htest⟩

/-- On this page the string at the third place is shown with the plain parameter at the third place:
one string and one plain parameter stand before them. -/
theorem dependency_beside_parameter_patternPage :
    ∃ t call dependencies callback e p items item, Tree.parse? patternPage = some t ∧
      t.findFirst? (fun c => isFactoryCall c.node) = some call ∧
      (elementsOf dependencies)[2]? = some e ∧ (parameterNodes callback)[2]? = some p ∧
      Section.dependencies? t = some ⟨.dependencies items, call.node.location⟩ ∧
      items[1]? = some item ∧ item.name = "B" ∧ item.parameter = p.text ∧ p.text = "b" := by
  have hpage : (Tree.parse? patternPage).any (firstCallSatisfies fun dependencies callback =>
      ((elementsOf dependencies)[2]?.any fun e => e.stringValue? == some "B") &&
      ((parameterNodes callback)[2]?.any fun p => isPlainName p && p.text == "b") &&
      rankAt isString (elementsOf dependencies) 2 == 1 &&
      rankAt isPlainName (parameterNodes callback) 2 == 1) = true := by decide +kernel
  obtain ⟨t, hparse, h⟩ := (Option.any_eq_true _ _).1 hpage
  obtain ⟨call, name, dependencies, callback, hcall, hargs, htest⟩ := exists_of_firstCallSatisfies h
  simp only [Bool.and_eq_true, Option.any_eq_true, beq_iff_eq] at htest
  obtain ⟨⟨⟨⟨e, he, hname⟩, p, hp, hplain, htext⟩, hstrings⟩, hplains⟩ := htest
  obtain ⟨items, hsection, hshown⟩ := dependency_beside_parameter hcall hargs
  obtain ⟨item, hitem, hitemname, -, hparameter, -⟩ := hshown 2 e "B" he hname
  rw [hstrings] at hitem
  exact ⟨t, call, dependencies, callback, e, p, items, item, hparse, hcall, he, hp, hsection, hitem,
    hitemname, hparameter 2 p hp hplain (hplains.trans hstrings.symm), htext⟩

/-- The name of the parameter that the loader hands the dependency at a place to, if it is plain. -/
def loaderParameter (callback : Node) (i : Nat) : String :=
  (((parameterNodes callback)[i]?.filter isPlainName).map (·.text)).getD unknown

/-- A dependency is not always shown with the parameter that the loader uses. -/
theorem not_dependency_beside_loaderParameter :
    ¬ ∀ (source : String) (t : Tree) (call : Cursor) (name dependencies callback : Node),
      Tree.parse? source = some t →
      t.findFirst? (fun c => isFactoryCall c.node) = some call →
      factoryArguments? call.node = some (name, dependencies, callback) →
      ∃ items, Section.dependencies? t = some ⟨.dependencies items, call.node.location⟩ ∧
        ∀ (i : Nat) (e : Node) (text : String), (elementsOf dependencies)[i]? = some e →
          e.stringValue? = some text → ∃ item ∈ items, item.name = text ∧
            item.location = some e.location ∧ item.parameter = loaderParameter callback i := by
  intro hclaim
  -- the second of the strings goes to the pattern, and is shown with the parameter behind it
  have hpage : (Tree.parse? "define('P', ['A', 'B'], ([a], b) => 0)").any
      (firstCallSatisfies fun dependencies callback =>
        ((elementsOf dependencies)[0]?.any fun e => e.stringValue? == some "A") &&
        loaderParameter callback 0 == unknown &&
        (dependenciesOf dependencies).map (·.name) == ["A", "B"] &&
        (parametersOf callback).map (·.name) == ["b"]) = true := by decide +kernel
  obtain ⟨t, hparse, h⟩ := (Option.any_eq_true _ _).1 hpage
  obtain ⟨call, name, dependencies, callback, hcall, hargs, htest⟩ := exists_of_firstCallSatisfies h
  simp only [Bool.and_eq_true, Option.any_eq_true, beq_iff_eq] at htest
  obtain ⟨⟨⟨⟨e, he, hname⟩, hloader⟩, hstrings⟩, hplains⟩ := htest
  obtain ⟨items, hitems, hshown⟩ := hclaim _ t call name dependencies callback hparse hcall hargs
  obtain ⟨item, hitem, hitemname, -, hparameter⟩ := hshown 0 e "A" he hname
  -- the section shows the two strings, the first of them with the only plain parameter
  simp only [List.map_eq_cons_iff, List.map_eq_nil_iff] at hstrings hplains
  obtain ⟨first, _, hds, hfirst, second, _, rfl, hsecond, rfl⟩ := hstrings
  obtain ⟨plain, _, hps, hplain, rfl⟩ := hplains
  rw [dependencies?_of_findFirst? hcall hargs, hds, hps] at hitems
  simp only [padded, List.map_cons, List.map_nil, Dependency.ofBinding] at hitems
  cases hitems
  simp only [List.mem_cons, List.not_mem_nil, or_false] at hitem
  rcases hitem with rfl | rfl
  · simp [hplain, hloader, unknown] at hparameter
  · simp [hsecond] at hitemname

end SchemaScope.Schema
