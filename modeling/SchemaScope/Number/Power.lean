/-
**Powers of two and of ten.**

Main definitions:

* `twoTo`, `tenTo` — the powers, as natural numbers.
-/

set_option autoImplicit false

namespace SchemaScope

/-- A power of two. -/
def twoTo (n : Nat) : Nat := Nat.pow 2 n

/-- A power of ten. -/
def tenTo (n : Nat) : Nat := Nat.pow 10 n

@[simp] theorem twoTo_zero : twoTo 0 = 1 := rfl

@[simp] theorem tenTo_zero : tenTo 0 = 1 := rfl

theorem twoTo_succ (n : Nat) : twoTo (n + 1) = 2 * twoTo n := Nat.mul_comm ..

theorem tenTo_succ (n : Nat) : tenTo (n + 1) = 10 * tenTo n := Nat.mul_comm ..

theorem twoTo_pos (n : Nat) : 0 < twoTo n := by
  induction n with
  | zero => decide
  | succ n ih =>
      rw [twoTo_succ]
      omega

theorem tenTo_pos (n : Nat) : 0 < tenTo n := by
  induction n with
  | zero => decide
  | succ n ih =>
      rw [tenTo_succ]
      omega

end SchemaScope
