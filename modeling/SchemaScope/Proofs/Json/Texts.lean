/-
**The texts of a value.**

The keys and strings of a value are its texts.  Two values are alike in a relation of texts if they
differ in nothing but their texts and doubles, and their texts are related place by place.

Main definitions:

* `Json.texts` — the keys and strings of a value;
* `Json.Alike` — values that are alike, given a relation of their texts;
* `Json.SameTexts` — values with the same texts at the same places;
* `Json.isIntegral` — all numbers of a value are integers.

Main results:

* `Json.induction` — induction over the elements and members of a value;
* `Json.alike_self_iff` — a value is alike itself if all its texts are related to themselves;
* `Json.SameTexts.member?` — values with the same texts have members under the same keys;
* `Json.SameTexts.eq_of_isIntegral` — values with the same texts are the same, if all numbers are
  integers.
-/

import SchemaScope.Proofs.Json.Members

set_option autoImplicit false

namespace SchemaScope.Json

/-- Induction over the elements of lists and the members of objects. -/
@[elab_as_elim]
theorem induction {P : Json → Prop} (null : P .null) (bool : ∀ b, P (.bool b))
    (integer : ∀ n, P (.integer n)) (double : ∀ x, P (.double x)) (string : ∀ t, P (.string t))
    (array : ∀ vs : List Json, (∀ v ∈ vs, P v) → P (.array vs))
    (object : ∀ ms : Members, (∀ m ∈ ms, P m.2) → P (.object ms)) : ∀ v, P v
  | .null => null
  | .bool b => bool b
  | .integer n => integer n
  | .double x => double x
  | .string t => string t
  | .array vs => array vs fun v _ => induction null bool integer double string array object v
  | .object ms => object ms fun (k, v) hm =>
      have : sizeOf v < 1 + sizeOf ms := by
        have hlt := List.sizeOf_lt_of_mem hm
        rw [Prod.mk.sizeOf_spec] at hlt
        omega
      induction null bool integer double string array object v

/-! ### Texts -/

mutual

/-- The keys and strings of a value. -/
def texts : Json → List String
  | .string t => [t]
  | .array vs => textsOfElements vs
  | .object ms => textsOfMembers ms
  | .null | .bool _ | .integer _ | .double _ => []

/-- The keys and strings of elements. -/
def textsOfElements : List Json → List String
  | [] => []
  | v :: rest => texts v ++ textsOfElements rest

/-- The keys and strings of members. -/
def textsOfMembers : List (String × Json) → List String
  | [] => []
  | (k, v) :: rest => k :: texts v ++ textsOfMembers rest

end

theorem mem_texts_array {vs : List Json} {t : String} :
    t ∈ (Json.array vs).texts ↔ ∃ v ∈ vs, t ∈ v.texts := by
  rw [texts]
  induction vs with
  | nil => simp [textsOfElements]
  | cons v vs ih => simp [textsOfElements, ih]

theorem mem_texts_object {ms : Members} {t : String} :
    t ∈ (Json.object ms).texts ↔ ∃ m ∈ ms, t = m.1 ∨ t ∈ m.2.texts := by
  rw [texts]
  induction ms with
  | nil => simp [textsOfMembers]
  | cons m ms ih => simp [textsOfMembers, ih, or_assoc]

/-! ### Values that are alike -/

/-- The values differ in nothing but their texts and doubles, and their texts are related. -/
inductive Alike (R : String → String → Prop) : Json → Json → Prop
  | null : Alike R .null .null
  | bool {b : Bool} : Alike R (.bool b) (.bool b)
  | integer {n : Int} : Alike R (.integer n) (.integer n)
  | double {x y : Binary64} : Alike R (.double x) (.double y)
  | string {s t : String} : R s t → Alike R (.string s) (.string t)
  | array {vs ws : List Json} : List.Forall₂ (Alike R) vs ws → Alike R (.array vs) (.array ws)
  | object {ms ns : Members} : List.Forall₂ R ms.keys ns.keys →
      List.Forall₂ (Alike R) (ms.map Prod.snd) (ns.map Prod.snd) → Alike R (.object ms) (.object ns)

/-- The values have the same texts at the same places, and differ at most in their doubles. -/
abbrev SameTexts : Json → Json → Prop := Alike Eq

/-- Objects are alike if they are alike member by member. -/
theorem alike_object_iff {R : String → String → Prop} {ms ns : Members} :
    Alike R (.object ms) (.object ns) ↔
      List.Forall₂ (fun m n => R m.1 n.1 ∧ Alike R m.2 n.2) ms ns := by
  have hsplit : List.Forall₂ (fun m n => R m.1 n.1 ∧ Alike R m.2 n.2) ms ns ↔
      List.Forall₂ R ms.keys ns.keys ∧
        List.Forall₂ (Alike R) (ms.map Prod.snd) (ns.map Prod.snd) := by
    simp only [Members.keys, List.forall₂_map_left_iff, List.forall₂_map_right_iff]
    simp only [List.forall₂_iff_zip]
    constructor
    · rintro ⟨hl, h⟩
      exact ⟨⟨hl, fun hm => (h hm).1⟩, hl, fun hm => (h hm).2⟩
    · rintro ⟨⟨hl, hk⟩, -, hv⟩
      exact ⟨hl, fun hm => ⟨hk hm, hv hm⟩⟩
  rw [hsplit]
  constructor
  · rintro (_ | _)
    next hk hv => exact ⟨hk, hv⟩
  · rintro ⟨hk, hv⟩
    exact .object hk hv

/-- A value is alike itself if all its texts are related to themselves. -/
theorem alike_self_iff {R : String → String → Prop} {v : Json} :
    Alike R v v ↔ ∀ t ∈ v.texts, R t t := by
  induction v using induction with
  | null => exact ⟨fun _ => by simp [texts], fun _ => .null⟩
  | bool b => exact ⟨fun _ => by simp [texts], fun _ => .bool⟩
  | integer n => exact ⟨fun _ => by simp [texts], fun _ => .integer⟩
  | double x => exact ⟨fun _ => by simp [texts], fun _ => .double⟩
  | string t =>
      constructor
      · rintro (_ | _)
        next h => simpa [texts] using h
      · intro h
        exact .string (h t (by simp [texts]))
  | array vs ih =>
      constructor
      · rintro (_ | _) t ht
        next h =>
          obtain ⟨v, hv, ht⟩ := mem_texts_array.1 ht
          exact (ih v hv).1 (List.forall₂_same.1 h v hv) t ht
      · intro h
        refine .array (List.forall₂_same.2 ?_)
        intro v hv
        refine (ih v hv).2 ?_
        intro t ht
        exact h t (mem_texts_array.2 ⟨v, hv, ht⟩)
  | object ms ih =>
      rw [alike_object_iff, List.forall₂_same]
      constructor
      · intro h t ht
        obtain ⟨m, hm, rfl | ht⟩ := mem_texts_object.1 ht
        · exact (h m hm).1
        · exact (ih m hm).1 (h m hm).2 t ht
      · intro h m hm
        refine ⟨h m.1 (mem_texts_object.2 ⟨m, hm, .inl rfl⟩), (ih m hm).2 ?_⟩
        intro t ht
        exact h t (mem_texts_object.2 ⟨m, hm, .inr ht⟩)

/-- Values with the same texts have members under the same keys, again with the same texts. -/
theorem SameTexts.member? {v w : Json} (h : SameTexts v w) (key : String) :
    Option.Rel SameTexts (v.member? key) (w.member? key) := by
  cases v with
  | object ms =>
      cases w with
      | object ns =>
          have hm := alike_object_iff.1 h
          simp only [Json.member?]
          -- the keys are the same, so the look-ups stop at the same member
          induction hm with
          | nil => exact .none
          | @cons m n ms ns hmn _ ih =>
              obtain ⟨⟨k, x⟩, ⟨l, y⟩⟩ := m, n
              obtain ⟨hk, hxy⟩ := hmn
              simp only at hk
              subst hk
              by_cases hkey : k = key
              · simp only [Members.get?, hkey, if_true]
                exact .some hxy
              · simp only [Members.get?, hkey, if_false]
                exact ih (alike_object_iff.2 (by assumption))
      | _ => cases h
  | _ =>
      cases h
      exact .none

/-! ### Values without doubles -/

mutual

/-- Whether all numbers of a value are integers. -/
def isIntegral : Json → Bool
  | .double _ => false
  | .array vs => areIntegral vs
  | .object ms => haveIntegral ms
  | .null | .bool _ | .integer _ | .string _ => true

/-- Whether all numbers of elements are integers. -/
def areIntegral : List Json → Bool
  | [] => true
  | v :: rest => isIntegral v && areIntegral rest

/-- Whether all numbers of members are integers. -/
def haveIntegral : List (String × Json) → Bool
  | [] => true
  | (_, v) :: rest => isIntegral v && haveIntegral rest

end

theorem isIntegral_array_iff {vs : List Json} :
    (Json.array vs).isIntegral = true ↔ ∀ v ∈ vs, v.isIntegral = true := by
  rw [isIntegral]
  induction vs with
  | nil => simp [areIntegral]
  | cons v vs ih => simp [areIntegral, ih]

theorem isIntegral_object_iff {ms : Members} :
    (Json.object ms).isIntegral = true ↔ ∀ m ∈ ms, m.2.isIntegral = true := by
  rw [isIntegral]
  induction ms with
  | nil => simp [haveIntegral]
  | cons m ms ih => simp only [haveIntegral, Bool.and_eq_true, ih, List.forall_mem_cons]

/-- Values with the same texts differ at most in their doubles, so they are the same if there are
none. -/
theorem SameTexts.eq_of_isIntegral {v w : Json} (h : SameTexts v w) (hv : v.isIntegral = true) :
    v = w := by
  induction v using induction generalizing w with
  | double x => cases hv
  | array vs ih =>
      cases h with
      | @array _ ws h =>
          rw [isIntegral_array_iff] at hv
          have heq : vs = ws := by
            rw [← List.forall₂_eq_eq_eq, List.forall₂_iff_zip]
            rw [List.forall₂_iff_zip] at h
            refine ⟨h.1, fun {a b} hab => ?_⟩
            have ha := (List.of_mem_zip hab).1
            exact ih a ha (h.2 hab) (hv a ha)
          rw [heq]
  | object ms ih =>
      cases w with
      | object ns =>
          have hm := alike_object_iff.1 h
          rw [isIntegral_object_iff] at hv
          have heq : ms = ns := by
            rw [← List.forall₂_eq_eq_eq, List.forall₂_iff_zip]
            rw [List.forall₂_iff_zip] at hm
            refine ⟨hm.1, fun {a b} hab => ?_⟩
            have ha := (List.of_mem_zip hab).1
            obtain ⟨hkey, hvalue⟩ := hm.2 hab
            exact Prod.ext hkey (ih a ha hvalue (hv a ha))
          rw [heq]
      | _ => cases h
  | string t =>
      cases h with
      | string heq => rw [heq]
  | null | bool | integer =>
      cases h
      rfl

end SchemaScope.Json
