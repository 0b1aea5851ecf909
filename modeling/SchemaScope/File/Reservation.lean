/-
**Reserved paths.**

While a file is being changed its path is reserved, so that nobody else starts on it.  A reservation
is held by a guard and ends when the guard is released.  Paths that spell the same steps are one
path.

Main definitions:

* `Reservations`, `Reservations.isHeld`, `Reservations.reserve?`, `Reservations.release` — the paths
  that are reserved;
* `GuardLedger`, `GuardLedger.request`, `GuardLedger.release` — reservations with the guards that
  hold them.
-/

import SchemaScope.File.Path

set_option autoImplicit false

namespace SchemaScope

/-- The paths that are reserved, by their steps. -/
structure Reservations where
  held : List (List Segment)
  deriving DecidableEq, Repr, Inhabited

namespace Reservations

/-- Nothing is reserved. -/
def empty : Reservations := ⟨[]⟩

/-- Whether a path is reserved. -/
def isHeld (c : Reservations) (p : Path) : Bool := c.held.contains p.segments

/-- The reservations with one more, unless the path is reserved. -/
def reserve? (c : Reservations) (p : Path) : Option Reservations :=
  if c.isHeld p then none else some ⟨p.segments :: c.held⟩

/-- The reservations without the one on a path. -/
def release (c : Reservations) (p : Path) : Reservations := ⟨c.held.filter (· ≠ p.segments)⟩

theorem reserve?_isSome (c : Reservations) (p : Path) : (c.reserve? p).isSome = !c.isHeld p := by
  simp only [reserve?]
  split <;> simp_all

/-- Releasing a reservation that has just been made leaves the reservations as they were. -/
theorem release_reserve? {c d : Reservations} {p : Path} (h : c.reserve? p = some d) :
    d.release p = c := by
  rw [reserve?] at h
  split at h
  · cases h
  · rename_i hp
    cases h
    obtain ⟨held⟩ := c
    simp only [isHeld, List.contains_eq_mem, decide_eq_true_eq] at hp
    have : held.filter (fun s => decide (s ≠ p.segments)) = held :=
      List.filter_eq_self.2 fun s hs => by
        simp only [decide_eq_true_eq]
        exact fun heq => hp (heq ▸ hs)
    simpa [release] using this

end Reservations

/-! ### Guards -/

/-- Reservations and the guards that were asked for.  A guard that was refused, or released, is
absent. -/
structure GuardLedger where
  reservations : Reservations
  guards : List (Option Path)
  deriving DecidableEq, Repr, Inhabited

namespace GuardLedger

/-- No guard was asked for. -/
def empty : GuardLedger := ⟨.empty, []⟩

/-- Asks for a guard of a path.  The answer says whether it was given. -/
def request (l : GuardLedger) (p : Path) : Bool × GuardLedger :=
  match l.reservations.reserve? p with
  | some reservations => (true, ⟨reservations, l.guards ++ [some p]⟩)
  | none => (false, ⟨l.reservations, l.guards ++ [none]⟩)

/-- Releases the guard with the given number, if it is there. -/
def release (l : GuardLedger) (index : Nat) : GuardLedger :=
  match l.guards[index]?.join with
  | some p => ⟨l.reservations.release p, l.guards.set index none⟩
  | none => l

/-- Whether a path is reserved. -/
def isHeld (l : GuardLedger) (p : Path) : Bool := l.reservations.isHeld p

end GuardLedger

end SchemaScope
