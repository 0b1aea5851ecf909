/-
**Guards exclude each other.**

A guard is given for a path, and ends when it is released.  Whether a path is reserved is kept apart
from the guards, by the steps that the path spells.  The two are nevertheless in step: whatever is
asked for and released, in whatever order, and however the paths are spelled, a path is reserved
exactly while a guard for it is alive, and there is never a second one.

Main definitions:

* `GuardLedger.Step`, `GuardLedger.run` — what can be done with a ledger, and the ledger after
  several steps;
* `GuardLedger.Alive` — a guard was given and has not been released;
* `GuardLedger.Exclusive` — what is reserved is what the guards hold, each path once.

Main results:

* `GuardLedger.step_cases` — what a step can do;
* `GuardLedger.exclusive_run` — guards and reservations stay in step;
* `GuardLedger.guards_run_iff_alive` — the guards of a ledger are those that are alive;
* `GuardLedger.one_guard_per_path` — **a guard is given exactly while no other one for the path is
  alive**.
-/

import Mathlib
import SchemaScope.File.Reservation

set_option autoImplicit false

namespace SchemaScope

theorem Path.same_iff {p q : Path} : p.same q = true ↔ p.segments = q.segments := beq_iff_eq

namespace Reservations

theorem isHeld_iff {c : Reservations} {p : Path} : c.isHeld p = true ↔ p.segments ∈ c.held := by
  simp [isHeld]

theorem mem_held_release {c : Reservations} {p : Path} {steps : List Segment} :
    steps ∈ (c.release p).held ↔ steps ∈ c.held ∧ steps ≠ p.segments := by
  simp [release]

end Reservations

namespace GuardLedger

/-! ### Steps -/

/-- What can be done with a ledger. -/
inductive Step where
  | request (p : Path)
  | release (index : Nat)
  | ask (p : Path)
  deriving DecidableEq

/-- The ledger after a step.  Asking whether a path is reserved changes nothing. -/
def step (l : GuardLedger) : Step → GuardLedger
  | .request p => (l.request p).2
  | .release index => l.release index
  | .ask _ => l

/-- The ledger after several steps. -/
def run (l : GuardLedger) (steps : List Step) : GuardLedger := steps.foldl step l

@[simp] theorem run_nil (l : GuardLedger) : l.run [] = l := rfl

@[simp] theorem run_cons (l : GuardLedger) (x : Step) (steps : List Step) :
    l.run (x :: steps) = (l.step x).run steps := rfl

theorem run_append (l : GuardLedger) (before after : List Step) :
    l.run (before ++ after) = (l.run before).run after := List.foldl_append

/-- Whether a step asks for a guard. -/
def Step.isRequest : Step → Bool
  | .request _ => true
  | _ => false

/-- How many guards are asked for. -/
def requests (steps : List Step) : Nat := steps.countP Step.isRequest

/-- The guard that was asked for with the given number was given, for the given path, and has not
been released since.  Numbers count from zero, and refused requests count. -/
def Alive (steps : List Step) (i : Nat) (p : Path) : Prop :=
  ∃ before after, steps = before ++ .request p :: after ∧ requests before = i ∧
    ((empty.run before).request p).1 = true ∧ Step.release i ∉ after

variable {l : GuardLedger} {i : Nat} {p : Path}

theorem request_of_isHeld (h : l.isHeld p = true) :
    l.request p = (false, ⟨l.reservations, l.guards ++ [none]⟩) := by
  have hnone : l.reservations.reserve? p = none := if_pos h
  simp only [request, hnone]

theorem request_of_not_isHeld (h : l.isHeld p = false) :
    l.request p =
      (true, ⟨⟨p.segments :: l.reservations.held⟩, l.guards ++ [some p]⟩) := by
  have hsome : l.reservations.reserve? p = some ⟨p.segments :: l.reservations.held⟩ :=
    if_neg (by rw [isHeld] at h; simp [h])
  simp only [request, hsome]

theorem request_fst (l : GuardLedger) (p : Path) : (l.request p).1 = !l.isHeld p := by
  cases h : l.isHeld p with
  | true => rw [request_of_isHeld h]; rfl
  | false => rw [request_of_not_isHeld h]; rfl

theorem release_of_some (h : l.guards[i]? = some (some p)) :
    l.release i = ⟨l.reservations.release p, l.guards.set i none⟩ := by
  simp only [release, h, Option.join_some]

/-- Releasing a guard that is not there changes nothing. -/
theorem release_of_absent (h : ∀ p, l.guards[i]? ≠ some (some p)) : l.release i = l := by
  have hnone : l.guards[i]?.join = none := by
    cases hg : l.guards[i]? with
    | none => rfl
    | some g =>
        cases g with
        | none => rfl
        | some p => exact absurd hg (h p)
  simp only [release, hnone]

theorem getElem?_concat_guard {g : Option Path} :
    (l.guards ++ [g])[i]? = some (some p) ↔
      l.guards[i]? = some (some p) ∨ i = l.guards.length ∧ g = some p := by
  rcases Nat.lt_trichotomy i l.guards.length with hlt | rfl | hgt
  · simp [List.getElem?_append_left hlt, hlt.ne]
  · simp
  · simp [hgt.le, hgt, hgt.ne']

/-- What a step can do: it refuses a guard, it gives one, it ends one, or it changes nothing. -/
theorem step_cases (l : GuardLedger) (x : Step) :
    (∃ p, x = .request p ∧ l.isHeld p = true ∧
      l.step x = ⟨l.reservations, l.guards ++ [none]⟩) ∨
    (∃ p, x = .request p ∧ l.isHeld p = false ∧
      l.step x = ⟨⟨p.segments :: l.reservations.held⟩, l.guards ++ [some p]⟩) ∨
    (∃ i p, x = .release i ∧ l.guards[i]? = some (some p) ∧
      l.step x = ⟨l.reservations.release p, l.guards.set i none⟩) ∨
    (∀ p, x ≠ .request p) ∧ (∀ i p, x = .release i → l.guards[i]? ≠ some (some p)) ∧
      l.step x = l := by
  cases x with
  | request p =>
      cases h : l.isHeld p with
      | true => exact .inl ⟨p, rfl, h, by rw [step, request_of_isHeld h]⟩
      | false => exact .inr (.inl ⟨p, rfl, h, by rw [step, request_of_not_isHeld h]⟩)
  | release i =>
      by_cases hthere : ∃ p, l.guards[i]? = some (some p)
      · obtain ⟨p, hp⟩ := hthere
        exact .inr (.inr (.inl ⟨i, p, rfl, hp, release_of_some hp⟩))
      · refine .inr (.inr (.inr ⟨by simp, ?_, release_of_absent fun p hp => hthere ⟨p, hp⟩⟩))
        rintro _ p ⟨rfl⟩ hp
        exact hthere ⟨p, hp⟩
  | ask p => exact .inr (.inr (.inr ⟨by simp, by simp, rfl⟩))

/-- The guards after a step are those from before, but for one that is released, and one that is
given. -/
theorem getElem?_step_iff {x : Step} :
    (l.step x).guards[i]? = some (some p) ↔ l.guards[i]? = some (some p) ∧ x ≠ .release i ∨
      x = .request p ∧ i = l.guards.length ∧ l.isHeld p = false := by
  rcases l.step_cases x with ⟨q, rfl, hheld, hstep⟩ | ⟨q, rfl, hfree, hstep⟩ |
    ⟨index, q, rfl, -, hstep⟩ | ⟨hrequest, hrelease, hstep⟩ <;> rw [hstep]
  · have hother : ¬ (q = p ∧ i = l.guards.length ∧ l.isHeld p = false) := by
      rintro ⟨rfl, -, hfree⟩
      rw [hheld] at hfree
      cases hfree
    simp [getElem?_concat_guard, hother]
  · rw [getElem?_concat_guard]
    constructor
    · rintro (hold | ⟨rfl, hq⟩)
      · exact .inl ⟨hold, by simp⟩
      · cases hq
        exact .inr ⟨rfl, rfl, hfree⟩
    · rintro (⟨hold, -⟩ | ⟨hq, rfl, -⟩)
      · exact .inl hold
      · cases hq
        exact .inr ⟨rfl, rfl⟩
  · rw [List.getElem?_set]
    split
    · next heq => simp [heq]
    · next hne => simp [hne]
  · constructor
    · exact fun h => .inl ⟨h, fun hx => hrelease i p hx h⟩
    · rintro (⟨h, -⟩ | ⟨h, -⟩)
      · exact h
      · exact absurd h (hrequest p)

/-! ### Guards and reservations -/

/-- What is reserved is what the guards hold, and no two of them hold the same path. -/
structure Exclusive (l : GuardLedger) : Prop where
  mem_held_iff : ∀ steps, steps ∈ l.reservations.held ↔
    ∃ (i : Nat) (p : Path), l.guards[i]? = some (some p) ∧ p.segments = steps
  unique : ∀ {i j : Nat} {p q : Path}, l.guards[i]? = some (some p) →
    l.guards[j]? = some (some q) → p.segments = q.segments → i = j

theorem exclusive_empty : empty.Exclusive :=
  ⟨fun steps => by simp [empty, Reservations.empty], fun h => by simp [empty] at h⟩

theorem Exclusive.isHeld_iff (h : l.Exclusive) :
    l.isHeld p = true ↔ ∃ (i : Nat) (q : Path), l.guards[i]? = some (some q) ∧
      q.segments = p.segments :=
  Reservations.isHeld_iff.trans (h.mem_held_iff p.segments)

/-- After a step, what is reserved is still what the guards hold. -/
theorem Exclusive.mem_held_step (h : l.Exclusive) (x : Step) (steps : List Segment) :
    steps ∈ (l.step x).reservations.held ↔
      ∃ (i : Nat) (p : Path), (l.step x).guards[i]? = some (some p) ∧ p.segments = steps := by
  rcases l.step_cases x with ⟨q, rfl, hheld, hstep⟩ | ⟨q, rfl, hfree, hstep⟩ |
    ⟨index, q, rfl, hq, hstep⟩ | ⟨-, -, hstep⟩
  · simpa [hstep, getElem?_concat_guard] using h.mem_held_iff steps
  · simp only [hstep, List.mem_cons, h.mem_held_iff steps, getElem?_concat_guard,
      Option.some.injEq]
    constructor
    · rintro (rfl | ⟨i, p, hp, hsteps⟩)
      · exact ⟨_, q, .inr ⟨rfl, rfl⟩, rfl⟩
      · exact ⟨i, p, .inl hp, hsteps⟩
    · rintro ⟨i, p, hp | ⟨-, rfl⟩, hsteps⟩
      · exact .inr ⟨i, p, hp, hsteps⟩
      · exact .inl hsteps.symm
  · -- the released guard was the only one for its path
    simp only [getElem?_step_iff, reduceCtorEq, false_and, or_false, Step.release.injEq, ne_eq]
    rw [hstep, Reservations.mem_held_release, h.mem_held_iff steps]
    constructor
    · rintro ⟨⟨i, p, hp, rfl⟩, hne⟩
      refine ⟨i, p, ⟨hp, ?_⟩, rfl⟩
      rintro rfl
      obtain rfl : q = p := by simpa [hq] using hp
      exact hne rfl
    · rintro ⟨i, p, ⟨hp, hne⟩, rfl⟩
      exact ⟨⟨i, p, hp, rfl⟩, fun heq => hne (h.unique hq hp heq.symm)⟩
  · rw [hstep]
    exact h.mem_held_iff steps

/-- An older guard for the same path keeps a new one from being given. -/
theorem Exclusive.segments_ne (h : l.Exclusive) {q : Path} (hp : l.guards[i]? = some (some p))
    (hfree : l.isHeld q = false) : p.segments ≠ q.segments := by
  intro heq
  rw [h.isHeld_iff.2 ⟨i, p, hp, heq⟩] at hfree
  cases hfree

/-- A step keeps guards and reservations together. -/
theorem Exclusive.step (h : l.Exclusive) (x : Step) : (l.step x).Exclusive := by
  refine ⟨h.mem_held_step x, ?_⟩
  intro i j p q hi hj heq
  rcases getElem?_step_iff.1 hi with ⟨hi, -⟩ | ⟨-, hi, hfree⟩ <;>
    rcases getElem?_step_iff.1 hj with ⟨hj, -⟩ | ⟨-, hj, hfree'⟩
  · exact h.unique hi hj heq
  · exact absurd heq (h.segments_ne hi hfree')
  · exact absurd heq.symm (h.segments_ne hj hfree)
  · rw [hi, hj]

/-- Guards and reservations stay in step. -/
theorem exclusive_run (h : l.Exclusive) (steps : List Step) : (l.run steps).Exclusive := by
  induction steps generalizing l with
  | nil => exact h
  | cons x steps ih => exact ih (h.step x)

/-! ### Guards that are alive -/

theorem requests_append (before after : List Step) :
    requests (before ++ after) = requests before + requests after := List.countP_append

theorem length_step (l : GuardLedger) (x : Step) :
    (l.step x).guards.length = l.guards.length + requests [x] := by
  rcases l.step_cases x with ⟨p, rfl, -, hstep⟩ | ⟨p, rfl, -, hstep⟩ | ⟨i, p, rfl, -, hstep⟩ |
    ⟨hrequest, -, hstep⟩ <;> rw [hstep]
  · simp [requests, Step.isRequest]
  · simp [requests, Step.isRequest]
  · simp [requests, Step.isRequest]
  · cases x with
    | request p => exact absurd rfl (hrequest p)
    | release i | ask p => rfl

theorem length_run (l : GuardLedger) (steps : List Step) :
    (l.run steps).guards.length = l.guards.length + requests steps := by
  induction steps generalizing l with
  | nil => rfl
  | cons x steps ih =>
      rw [run_cons, ih, length_step, Nat.add_assoc, ← requests_append, List.singleton_append]

/-- The guards that are alive after one more step. -/
theorem alive_concat_iff {steps : List Step} {x : Step} :
    Alive (steps ++ [x]) i p ↔ Alive steps i p ∧ x ≠ .release i ∨
      x = .request p ∧ i = requests steps ∧ ((empty.run steps).request p).1 = true := by
  constructor
  · rintro ⟨before, after, heq, hcount, hgiven, hkept⟩
    rcases List.eq_nil_or_concat' after with rfl | ⟨after, last, rfl⟩
    · obtain ⟨rfl, hlast⟩ := List.append_inj' heq rfl
      obtain rfl : x = .request p := by simpa using hlast
      exact .inr ⟨rfl, hcount.symm, hgiven⟩
    · have heq' : steps ++ [x] = (before ++ .request p :: after) ++ [last] := by simpa using heq
      obtain ⟨rfl, hlast⟩ := List.append_inj' heq' rfl
      obtain rfl : x = last := by simpa using hlast
      simp only [List.mem_append, List.mem_singleton, not_or] at hkept
      exact .inl ⟨⟨before, after, rfl, hcount, hgiven, hkept.1⟩, Ne.symm hkept.2⟩
  · rintro (⟨⟨before, after, rfl, hcount, hgiven, hkept⟩, hx⟩ | ⟨rfl, rfl, hgiven⟩)
    · refine ⟨before, after ++ [x], by simp, hcount, hgiven, ?_⟩
      simp [hkept, Ne.symm hx]
    · exact ⟨steps, [], rfl, rfl, hgiven, List.not_mem_nil⟩

/-- The guards of a ledger are those that are alive. -/
theorem guards_run_iff_alive {steps : List Step} :
    (empty.run steps).guards[i]? = some (some p) ↔ Alive steps i p := by
  induction steps using List.reverseRecOn with
  | nil =>
      refine iff_of_false (by simp [empty]) ?_
      rintro ⟨before, after, hnil, -⟩
      simp at hnil
  | append_singleton steps x ih =>
      have hlen : (empty.run steps).guards.length = requests steps := by
        rw [length_run]
        exact Nat.zero_add _
      rw [run_append, run_cons, run_nil, getElem?_step_iff, alive_concat_iff, ih, hlen, request_fst,
        Bool.not_eq_true']

theorem isHeld_run_iff (steps : List Step) (p : Path) :
    (empty.run steps).isHeld p = true ↔ ∃ i q, Alive steps i q ∧ q.same p = true := by
  simp only [← guards_run_iff_alive, Path.same_iff]
  exact (exclusive_run exclusive_empty steps).isHeld_iff

/-- **A guard is given exactly while no other one for the path is alive.**  After any steps: of two
guards for one path, however it is spelled, not both are alive; a request for a path is granted
exactly if no guard for it is alive, and the new guard is then alive; a path is reserved exactly if a
guard for it is alive; no step ends a guard but its own release, so that its path stays reserved; and
a request that is refused, or the release of a guard that is not alive, leaves every reservation as
it was. -/
theorem one_guard_per_path (steps : List Step) :
    (∀ i j p q, Alive steps i p → Alive steps j q → p.same q = true → i = j) ∧
    (∀ p, ((empty.run steps).request p).1 = true ↔
      ¬ ∃ i q, Alive steps i q ∧ q.same p = true) ∧
    (∀ p, ((empty.run steps).request p).1 = true →
      Alive (steps ++ [.request p]) (requests steps) p) ∧
    (∀ p, (empty.run steps).isHeld p = true ↔ ∃ i q, Alive steps i q ∧ q.same p = true) ∧
    (∀ i p x, Alive steps i p → x ≠ .release i →
      Alive (steps ++ [x]) i p ∧ (empty.run (steps ++ [x])).isHeld p = true) ∧
    (∀ p, ((empty.run steps).request p).1 = false →
      ∀ q, (empty.run (steps ++ [.request p])).isHeld q = (empty.run steps).isHeld q) ∧
    ∀ i, (∀ p, ¬ Alive steps i p) → empty.run (steps ++ [.release i]) = empty.run steps := by
  have hexclusive := exclusive_run exclusive_empty steps
  refine ⟨?_, ?_, ?_, isHeld_run_iff steps, ?_, ?_, ?_⟩
  · intro i j p q hi hj hsame
    exact hexclusive.unique (guards_run_iff_alive.2 hi) (guards_run_iff_alive.2 hj)
      (Path.same_iff.1 hsame)
  · intro p
    rw [request_fst, ← isHeld_run_iff, Bool.not_eq_true', Bool.not_eq_true]
  · intro p hgiven
    exact alive_concat_iff.2 (.inr ⟨rfl, rfl, hgiven⟩)
  · intro i p x halive hx
    have hstill := alive_concat_iff.2 (.inl ⟨halive, hx⟩)
    exact ⟨hstill, (isHeld_run_iff _ p).2 ⟨i, p, hstill, Path.same_iff.2 rfl⟩⟩
  · intro p hrefused q
    have hheld : (empty.run steps).isHeld p = true := by
      rw [request_fst] at hrefused
      simpa using hrefused
    rw [run_append, run_cons, run_nil, step, request_of_isHeld hheld]
    rfl
  · intro i hnone
    rw [run_append, run_cons, run_nil, step]
    exact release_of_absent fun p hp => hnone p (guards_run_iff_alive.1 hp)

/-- A guard is given, one for another spelling of its path is refused, and the guard that is not there
is released. -/
def respelledRequests : List Step :=
  [.request ⟨"a/b"⟩, .request ⟨"a//./b/"⟩, .release 1]

/-- The first guard is still alive, and holds its path under every spelling; it is given anew once
the first guard is released. -/
theorem one_guard_per_path_respelled :
    Alive respelledRequests 0 ⟨"a/b"⟩ ∧
    (empty.run respelledRequests).isHeld ⟨"a/b/."⟩ = true ∧
    ((empty.run respelledRequests).request ⟨"a//b"⟩).1 = false ∧
    Alive (respelledRequests ++ [.release 0] ++ [.request ⟨"a//b"⟩]) 2 ⟨"a//b"⟩ := by
  have halive : Alive respelledRequests 0 ⟨"a/b"⟩ :=
    ⟨[], respelledRequests.tail, rfl, rfl, by decide, by decide⟩
  obtain ⟨-, hgranted, -, hheld, -⟩ := one_guard_per_path respelledRequests
  obtain ⟨-, -, hgiven, -⟩ := one_guard_per_path (respelledRequests ++ [.release 0])
  refine ⟨halive, (hheld _).2 ⟨0, _, halive, by decide⟩, ?_, hgiven _ (by decide)⟩
  rw [← Bool.not_eq_true, hgranted, not_not]
  exact ⟨0, _, halive, by decide⟩

end GuardLedger

end SchemaScope
