/-
**The text of a document with single backslashes.**

A document is laid out in lines, and then every pair of backslashes is made single.  The equations
of this module give the text that comes out, part by part and with anything behind it: words,
numbers and structure as they are, and texts between quotes as `Descriptor.writtenText` has them.

Main definitions:

* `Descriptor.elementsTail`, `Descriptor.membersTail` — what stands after an element or a member.

Main results:

* `Descriptor.undouble_bare`, `Descriptor.undouble_string`, `Descriptor.undouble_array_cons`,
  `Descriptor.undouble_object_cons` — the text of a value by its kind;
* `Descriptor.endsLine_elementsTail`, `Descriptor.endsLine_membersTail` — a value ends its line;
* `Descriptor.length_le_elementsTail`, `Descriptor.length_le_membersTail` — every further element or
  member takes room.
-/

import SchemaScope.Proofs.Descriptor.SingleBackslash
import SchemaScope.Proofs.Json.Layout

set_option autoImplicit false

namespace SchemaScope.Descriptor

open Json

/-! ### The text of a value -/

theorem undouble_newline_append (level : Nat) (rest : List Char) :
    undouble (newline level ++ rest) = newline level ++ undouble rest := by
  refine undouble_append ?_ rest
  simp [newline, List.mem_replicate]

/-- What stands after an element: the further elements, the closing bracket and the rest. -/
def elementsTail (level : Nat) (vs : List Json) (tail : List Char) : List Char :=
  prettyElements (level + 1) vs ++ (newline level ++ ']' :: tail)

/-- What stands after a member: the further members, the closing brace and the rest. -/
def membersTail (level : Nat) (ms : Members) (tail : List Char) : List Char :=
  prettyMembers (level + 1) ms ++ (newline level ++ '\x7d' :: tail)

theorem prettyText_bare {v : Json} (hv : v.isBare = true) (level : Nat) :
    prettyText level v = scalarText v := by
  cases v <;> first | rfl | cases hv

theorem undouble_bare {v : Json} (hv : v.isBare = true) (level : Nat) (tail : List Char) :
    undouble (prettyText level v ++ tail) = scalarText v ++ undouble tail := by
  rw [prettyText_bare hv]
  exact undouble_append (scalarText_plain hv).2 tail

theorem undouble_string (t : String) (level : Nat) (tail : List Char) :
    undouble (prettyText level (.string t) ++ tail) =
      '"' :: (writtenText t.toList ++ '"' :: undouble tail) := by
  rw [prettyText]
  · exact undouble_quote_append t tail
  all_goals simp

theorem undouble_array_nil (level : Nat) (tail : List Char) :
    undouble (prettyText level (.array []) ++ tail) = '[' :: ']' :: undouble tail := by
  rw [prettyText]
  exact @undouble_append ['[', ']'] (by decide) tail

theorem undouble_array_cons (level : Nat) (v : Json) (vs : List Json) (tail : List Char) :
    undouble (prettyText level (.array (v :: vs)) ++ tail) =
      '[' :: (newline (level + 1) ++
        undouble (prettyText (level + 1) v ++ elementsTail level vs tail)) := by
  rw [prettyText, ← undouble_newline_append, ← undouble_cons (by decide : '[' ≠ '\\')]
  simp [elementsTail]

theorem undouble_elementsTail_nil (level : Nat) (tail : List Char) :
    undouble (elementsTail level [] tail) = newline level ++ ']' :: undouble tail := by
  rw [elementsTail, prettyElements, List.nil_append, undouble_newline_append,
    undouble_cons (by decide)]

theorem undouble_elementsTail_cons (level : Nat) (v : Json) (vs : List Json) (tail : List Char) :
    undouble (elementsTail level (v :: vs) tail) =
      ',' :: (newline (level + 1) ++
        undouble (prettyText (level + 1) v ++ elementsTail level vs tail)) := by
  rw [elementsTail, prettyElements, ← undouble_newline_append,
    ← undouble_cons (by decide : ',' ≠ '\\')]
  simp [elementsTail]

theorem undouble_object_nil (level : Nat) (tail : List Char) :
    undouble (prettyText level (.object []) ++ tail) = '\x7b' :: '\x7d' :: undouble tail := by
  rw [prettyText]
  exact @undouble_append ['\x7b', '\x7d'] (by decide) tail

/-- A member from its key's opening quote on, and what stands after it. -/
theorem undouble_member (level : Nat) (k : String) (v : Json) (rest : List Char) :
    undouble (quote k ++ (':' :: ' ' :: (prettyText level v ++ rest))) =
      '"' :: (writtenText k.toList ++ '"' :: ':' :: ' ' ::
        undouble (prettyText level v ++ rest)) := by
  rw [undouble_quote_append, undouble_cons (by decide), undouble_cons (by decide)]

theorem undouble_object_cons (level : Nat) (k : String) (v : Json) (ms : Members)
    (tail : List Char) :
    undouble (prettyText level (.object ((k, v) :: ms)) ++ tail) =
      '\x7b' :: (newline (level + 1) ++ '"' :: (writtenText k.toList ++ '"' :: ':' :: ' ' ::
        undouble (prettyText (level + 1) v ++ membersTail level ms tail))) := by
  rw [prettyText, ← undouble_member, ← undouble_newline_append,
    ← undouble_cons (by decide : '\x7b' ≠ '\\')]
  simp [membersTail]

theorem undouble_membersTail_nil (level : Nat) (tail : List Char) :
    undouble (membersTail level [] tail) = newline level ++ '\x7d' :: undouble tail := by
  rw [membersTail, prettyMembers, List.nil_append, undouble_newline_append,
    undouble_cons (by decide)]

theorem undouble_membersTail_cons (level : Nat) (k : String) (v : Json) (ms : Members)
    (tail : List Char) :
    undouble (membersTail level ((k, v) :: ms) tail) =
      ',' :: (newline (level + 1) ++ '"' :: (writtenText k.toList ++ '"' :: ':' :: ' ' ::
        undouble (prettyText (level + 1) v ++ membersTail level ms tail))) := by
  rw [membersTail, prettyMembers, ← undouble_member, ← undouble_newline_append,
    ← undouble_cons (by decide : ',' ≠ '\\')]
  simp [membersTail]

theorem endsLine_elementsTail (level : Nat) (vs : List Json) (tail : List Char) :
    EndsLine (undouble (elementsTail level vs tail)) := by
  cases vs with
  | nil =>
      rw [undouble_elementsTail_nil]
      exact endsLine_newline _ _
  | cons v vs =>
      rw [undouble_elementsTail_cons]
      exact endsLine_comma _ _

theorem endsLine_membersTail (level : Nat) (ms : Members) (tail : List Char) :
    EndsLine (undouble (membersTail level ms tail)) := by
  cases ms with
  | nil =>
      rw [undouble_membersTail_nil]
      exact endsLine_newline _ _
  | cons m ms =>
      rw [undouble_membersTail_cons]
      exact endsLine_comma _ _

/-- The text of a value begins with a character that is no blank and no closing bracket. -/
theorem prettyText_opens (level : Nat) (v : Json) (tail : List Char) :
    ∃ c cs, undouble (prettyText level v ++ tail) = c :: cs ∧ isBlank c = false ∧ c ≠ ']' := by
  by_cases hv : v.isBare = true
  · obtain ⟨c, cs, hcs, hb, hne⟩ := scalarText_opens hv
    exact ⟨c, cs ++ undouble tail, by rw [undouble_bare hv, hcs, List.cons_append], hb, hne⟩
  · cases v with
    | string t => exact ⟨'"', _, undouble_string t level tail, by decide, by decide⟩
    | array vs =>
        cases vs with
        | nil => exact ⟨'[', _, undouble_array_nil level tail, by decide, by decide⟩
        | cons v vs => exact ⟨'[', _, undouble_array_cons level v vs tail, by decide, by decide⟩
    | object ms =>
        cases ms with
        | nil => exact ⟨'\x7b', _, undouble_object_nil level tail, by decide, by decide⟩
        | cons m ms =>
            exact ⟨'\x7b', _, undouble_object_cons level m.1 m.2 ms tail, by decide, by decide⟩
    | _ => exact absurd rfl hv

/-! ### Room -/

theorem length_le_undouble (text : List Char) : text.length ≤ 2 * (undouble text).length := by
  fun_induction undouble text with
  | case1 => simp
  | case2 rest ih =>
      simp only [List.length_cons]
      omega
  | case3 c rest _ ih =>
      simp only [List.length_cons]
      omega

theorem length_le_elementsTail (text : List Char) (level : Nat) (vs : List Json)
    (tail : List Char) : vs.length ≤ (undouble (text ++ elementsTail level vs tail)).length := by
  -- every element has a comma and a line end of its own
  have hpretty : 2 * vs.length ≤ (prettyElements (level + 1) vs).length := by
    induction vs with
    | nil => simp
    | cons v vs ih =>
        simp only [prettyElements, newline, List.length_cons, List.length_append]
        omega
  have hhalf := length_le_undouble (text ++ elementsTail level vs tail)
  have hlen : (prettyElements (level + 1) vs).length ≤
      (text ++ elementsTail level vs tail).length := by
    simp only [elementsTail, List.length_append]
    omega
  omega

theorem length_le_membersTail (text : List Char) (level : Nat) (ms : Members) (tail : List Char) :
    List.length ms ≤ (undouble (text ++ membersTail level ms tail)).length := by
  have hpretty : 2 * List.length ms ≤ (prettyMembers (level + 1) ms).length := by
    induction ms with
    | nil => simp
    | cons m ms ih =>
        simp only [prettyMembers, newline, List.length_cons, List.length_append]
        omega
  have hhalf := length_le_undouble (text ++ membersTail level ms tail)
  have hlen : (prettyMembers (level + 1) ms).length ≤ (text ++ membersTail level ms tail).length := by
    simp only [membersTail, List.length_append]
    omega
  omega

end SchemaScope.Descriptor
