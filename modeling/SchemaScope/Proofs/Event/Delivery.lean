/-
**What a bus delivers.**

Subscribers come, take what waits for them and leave, all of them may be detached at once, and events
are sent in between.  What a subscriber gets can be told from these steps alone: the events that are
sent after it has come and before the subscribers are next detached, in their order, each of them
once.  A subscriber that leaves is not noticed before an event is sent to it in vain, so until then
it is still counted.

Main definitions:

* `Bus.Step`, `Bus.run` — what can be done with a bus, and the bus after several steps;
* `Bus.taken` — what a subscriber takes in the course of several steps;
* `Bus.subscriptions`, `Bus.since` — how many subscribers come, and the steps after one of them has
  come;
* `Bus.sent` — the events that are sent before the subscribers are detached;
* `Bus.Current`, `Bus.Missed` — subscribers that came after the last detachment, and subscribers that
  an event was sent to in vain.

Main results:

* `Bus.getElem?_step` — a step changes each subscriber on its own;
* `Bus.taken_append_due`, `Bus.taken_prefix_due` — what is taken and what is still due make up what
  was due before, and what is lost by leaving comes last;
* `Bus.attached_run_iff` — whom the bus still sends to;
* `Bus.delivers_what_is_sent` — **what subscribers get, and how many of them are counted**.
-/

import Mathlib
import SchemaScope.Event

set_option autoImplicit false

namespace SchemaScope

namespace Bus

/-! ### Steps -/

/-- What can be done with a bus. -/
inductive Step where
  | subscribe
  | leave (index : Nat)
  | publish (event : Event)
  | drain (index : Nat)
  | clear

/-- The bus after a step. -/
def step (b : Bus) : Step → Bus
  | .subscribe => b.subscribe.2
  | .leave index => b.leave index
  | .publish event => b.publish event
  | .drain index => (b.drain index).2
  | .clear => b.clear

/-- What a subscriber takes in a step. -/
def takes (b : Bus) (i : Nat) : Step → List Event
  | .drain index => if index = i then (b.drain index).1.getD [] else []
  | _ => []

/-- The bus after several steps. -/
def run (b : Bus) (steps : List Step) : Bus := steps.foldl step b

/-- What a subscriber takes in the course of several steps. -/
def taken (b : Bus) (i : Nat) : List Step → List Event
  | [] => []
  | x :: steps => b.takes i x ++ (b.step x).taken i steps

@[simp] theorem run_nil (b : Bus) : b.run [] = b := rfl

@[simp] theorem run_cons (b : Bus) (x : Step) (steps : List Step) :
    b.run (x :: steps) = (b.step x).run steps := rfl

theorem run_append (b : Bus) (before after : List Step) :
    b.run (before ++ after) = (b.run before).run after := List.foldl_append

theorem taken_append (b : Bus) (i : Nat) (before after : List Step) :
    b.taken i (before ++ after) = b.taken i before ++ (b.run before).taken i after := by
  induction before generalizing b with
  | nil => rfl
  | cons x before ih => simp only [List.cons_append, taken, run_cons, ih, List.append_assoc]

/-! ### Histories -/

/-- Whether a subscriber comes. -/
def Step.isSubscribe : Step → Bool
  | .subscribe => true
  | _ => false

/-- How many subscribers come. -/
def subscriptions (steps : List Step) : Nat := steps.countP Step.isSubscribe

/-- The steps after the subscriber with the given number has come.  Numbers count from zero, in the
order in which subscribers come. -/
def since : Nat → List Step → List Step
  | _, [] => []
  | 0, .subscribe :: steps => steps
  | i + 1, .subscribe :: steps => since i steps
  | i, _ :: steps => since i steps

/-- The events that are sent before the subscribers are detached. -/
def sent : List Step → List Event
  | [] => []
  | .clear :: _ => []
  | .publish event :: steps => event :: sent steps
  | _ :: steps => sent steps

/-- A subscriber that came, and since then the subscribers have not been detached. -/
def Current (steps : List Step) (i : Nat) : Prop :=
  i < subscriptions steps ∧ Step.clear ∉ since i steps

/-- The subscriber leaves, and an event is sent afterwards. -/
def Missed (i : Nat) (steps : List Step) : Prop :=
  ∃ event, [Step.leave i, Step.publish event].Sublist steps

theorem subscriptions_subscribe (steps : List Step) :
    subscriptions (.subscribe :: steps) = subscriptions steps + 1 := List.countP_cons_of_pos rfl

theorem subscriptions_of_not_isSubscribe {x : Step} (hx : x.isSubscribe = false)
    (steps : List Step) : subscriptions (x :: steps) = subscriptions steps :=
  List.countP_cons_of_neg (by simp [hx])

theorem subscriptions_append (before after : List Step) :
    subscriptions (before ++ after) = subscriptions before + subscriptions after :=
  List.countP_append

theorem since_of_not_isSubscribe {x : Step} (hx : x.isSubscribe = false) (i : Nat)
    (steps : List Step) : since i (x :: steps) = since i steps := by
  cases x with
  | subscribe => cases hx
  | leave _ | publish _ | drain _ | clear => cases i <;> rfl

/-- The step at which a subscriber comes. -/
theorem exists_before {i : Nat} {steps : List Step} (h : i < subscriptions steps) :
    ∃ before, steps = before ++ .subscribe :: since i steps ∧ subscriptions before = i := by
  induction steps generalizing i with
  | nil => exact absurd h (Nat.not_lt_zero i)
  | cons x steps ih =>
      cases hx : x.isSubscribe with
      | false =>
          rw [subscriptions_of_not_isSubscribe hx] at h
          obtain ⟨before, hsteps, hcount⟩ := ih h
          refine ⟨x :: before, ?_, by rw [subscriptions_of_not_isSubscribe hx, hcount]⟩
          rw [since_of_not_isSubscribe hx, List.cons_append, ← hsteps]
      | true =>
          obtain rfl : x = .subscribe := by cases x <;> simp_all [Step.isSubscribe]
          cases i with
          | zero => exact ⟨[], rfl, rfl⟩
          | succ i =>
              rw [subscriptions_subscribe] at h
              obtain ⟨before, hsteps, hcount⟩ := ih (Nat.lt_of_succ_lt_succ h)
              refine ⟨.subscribe :: before, ?_, by rw [subscriptions_subscribe, hcount]⟩
              rw [since, List.cons_append, ← hsteps]

/-! ### One subscriber -/

end Bus

namespace Subscriber

/-- The subscriber with the given number after a step of its bus. -/
def after (i : Nat) (s : Subscriber) : Bus.Step → Subscriber
  | .subscribe => s
  | .leave index => if index = i then s.close else s
  | .publish event => s.receive event
  | .drain index => if index = i then { s with queue := [] } else s
  | .clear => s.detach

/-- What a subscriber has yet to take, if the given steps follow: what waits for it, and what is sent
to it.  There is nothing for a subscriber that has left. -/
def due (s : Subscriber) (steps : List Bus.Step) : List Event :=
  if s.listening then s.queue ++ (if s.attached then Bus.sent steps else []) else []

@[simp] theorem due_new (steps : List Bus.Step) : new.due steps = Bus.sent steps := rfl

end Subscriber

namespace Bus

variable {b : Bus} {i : Nat} {s : Subscriber}

/-- A step changes each subscriber on its own. -/
theorem getElem?_step (h : b.subscribers[i]? = some s) (x : Step) :
    (b.step x).subscribers[i]? = some (s.after i x) := by
  cases x with
  | subscribe =>
      obtain ⟨hlt, -⟩ := List.getElem?_eq_some_iff.1 h
      exact (List.getElem?_append_left hlt).trans h
  | leave index => simp [step, leave, List.getElem?_modify, h, Subscriber.after]
  | publish event => simp [step, publish, h, Subscriber.after]
  | drain index => simp [step, drain, List.getElem?_modify, h, Subscriber.after]
  | clear => simp [step, clear, h, Subscriber.after]

theorem queued?_eq (h : b.subscribers[i]? = some s) :
    b.queued? i = if s.listening then some s.queue else none := by
  cases hl : s.listening <;> simp [queued?, h, Option.filter, hl]

theorem takes_eq (h : b.subscribers[i]? = some s) (x : Step) :
    b.takes i x = match x with
      | .drain index => if index = i ∧ s.listening then s.queue else []
      | _ => [] := by
  cases x with
  | drain index =>
      by_cases hi : index = i
      · subst hi
        cases hl : s.listening <;> simp [takes, drain, queued?_eq h, hl]
      · simp [takes, hi]
  | _ => rfl

/-- What is taken in a step and what is due after it make up what was due before it, unless the
subscriber leaves. -/
theorem takes_append_due (h : b.subscribers[i]? = some s) {x : Step} (hx : x ≠ .leave i)
    (steps : List Step) : b.takes i x ++ (s.after i x).due steps = s.due (x :: steps) := by
  rw [takes_eq h]
  obtain ⟨queue, listening, attached⟩ := s
  cases x with
  | subscribe => rfl
  | leave index =>
      have hne : index ≠ i := fun heq => hx (heq ▸ rfl)
      simp [Subscriber.after, Subscriber.due, sent, hne]
  | publish event =>
      cases listening <;> cases attached <;>
        simp [Subscriber.after, Subscriber.receive, Subscriber.due, sent]
  | drain index =>
      by_cases hi : index = i <;> cases listening <;>
        simp [Subscriber.after, Subscriber.due, sent, hi]
  | clear => cases listening <;> simp [Subscriber.after, Subscriber.detach, Subscriber.due, sent]

/-- A subscriber that leaves loses what was due to it, and nothing else does. -/
theorem takes_append_due_isPrefix (h : b.subscribers[i]? = some s) (x : Step) (steps : List Step) :
    b.takes i x ++ (s.after i x).due steps <+: s.due (x :: steps) := by
  by_cases hx : x = .leave i
  · subst hx
    have hnothing : (s.after i (.leave i)).due steps = [] := by
      simp [Subscriber.after, Subscriber.close, Subscriber.due]
    rw [hnothing]
    exact List.nil_prefix
  · rw [takes_append_due h hx]

/-- What is taken and what is due in the end make up what was due at the start, for a subscriber that
does not leave. -/
theorem taken_append_due (h : b.subscribers[i]? = some s) {steps : List Step}
    (hstays : Step.leave i ∉ steps) :
    ∃ s', (b.run steps).subscribers[i]? = some s' ∧ s'.listening = s.listening ∧
      b.taken i steps ++ s'.due [] = s.due steps := by
  induction steps generalizing b s with
  | nil => exact ⟨s, h, rfl, rfl⟩
  | cons x steps ih =>
      rw [List.mem_cons, not_or] at hstays
      obtain ⟨s', hs', hlistening, hdue⟩ := ih (getElem?_step h x) hstays.2
      refine ⟨s', hs', hlistening.trans ?_, ?_⟩
      · -- only leaving ends listening
        cases x with
        | leave index =>
            have hne : index ≠ i := fun heq => hstays.1 (heq ▸ rfl)
            simp [Subscriber.after, hne]
        | publish event =>
            simp only [Subscriber.after, Subscriber.receive]
            split <;> [split; skip] <;> rfl
        | drain index =>
            simp only [Subscriber.after]
            split <;> rfl
        | subscribe | clear => rfl
      · rw [taken, List.append_assoc, hdue, takes_append_due h (Ne.symm hstays.1)]

/-- What a subscriber takes is what was due to it, from the first event on. -/
theorem taken_prefix_due (h : b.subscribers[i]? = some s) (steps : List Step) :
    b.taken i steps <+: s.due steps := by
  induction steps generalizing b s with
  | nil => exact List.nil_prefix
  | cons x steps ih =>
      refine List.IsPrefix.trans ?_ (takes_append_due_isPrefix h x steps)
      exact (List.prefix_append_right_inj _).2 (ih (getElem?_step h x))

/-! ### Whom the bus sends to -/

end Bus

/-- Steps after which a subscriber is found to have left: it leaves, unless it has, and then the
event is sent. -/
def Subscriber.farewell (i : Nat) (s : Subscriber) (event : Event) : List Bus.Step :=
  if s.listening then [.leave i, .publish event] else [.publish event]

/-- The bus sends to the subscriber, and goes on to do so through the given steps: the subscribers
are not detached, and it is not found to have left. -/
def Subscriber.Kept (i : Nat) (s : Subscriber) (steps : List Bus.Step) : Prop :=
  s.attached = true ∧ Bus.Step.clear ∉ steps ∧ ∀ event, ¬ (s.farewell i event).Sublist steps

namespace Bus

variable {b : Bus} {i : Nat} {s : Subscriber}

theorem kept_cons_iff (x : Step) (steps : List Step) :
    s.Kept i (x :: steps) ↔ (s.after i x).Kept i steps := by
  obtain ⟨queue, listening, attached⟩ := s
  cases x with
  | subscribe =>
      cases listening <;>
        simp [Subscriber.Kept, Subscriber.farewell, Subscriber.after, List.cons_sublist_cons']
  | leave index =>
      by_cases hi : index = i
      · subst hi
        cases listening <;>
          simp [Subscriber.Kept, Subscriber.farewell, Subscriber.after, Subscriber.close]
      · cases listening <;>
          simp [Subscriber.Kept, Subscriber.farewell, Subscriber.after, List.cons_sublist_cons', hi,
            Ne.symm hi]
  | publish event =>
      cases listening with
      | true =>
          cases attached <;>
            simp [Subscriber.Kept, Subscriber.farewell, Subscriber.after, Subscriber.receive,
              List.cons_sublist_cons']
      | false =>
          -- this is the event that is sent in vain
          have hvain : ¬ (⟨queue, false, attached⟩ : Subscriber).Kept i (.publish event :: steps) := by
            rintro ⟨-, -, hnone⟩
            exact hnone event (by simp [Subscriber.farewell])
          refine iff_of_false hvain ?_
          rintro ⟨hattached, -, -⟩
          cases attached <;> simp [Subscriber.after, Subscriber.receive] at hattached
  | drain index =>
      by_cases hi : index = i <;> cases listening <;>
        simp [Subscriber.Kept, Subscriber.farewell, Subscriber.after, List.cons_sublist_cons', hi]
  | clear => simp [Subscriber.Kept, Subscriber.after, Subscriber.detach]

/-- Whom the bus still sends to after several steps. -/
theorem attached_run_iff (h : b.subscribers[i]? = some s) (steps : List Step) :
    ∃ s', (b.run steps).subscribers[i]? = some s' ∧ (s'.attached = true ↔ s.Kept i steps) := by
  induction steps generalizing b s with
  | nil =>
      refine ⟨s, h, ?_⟩
      cases hl : s.listening <;> simp [Subscriber.Kept, Subscriber.farewell, hl]
  | cons x steps ih =>
      obtain ⟨s', hs', hattached⟩ := ih (getElem?_step h x)
      exact ⟨s', hs', hattached.trans (kept_cons_iff x steps).symm⟩

/-! ### All subscribers -/

theorem length_step (b : Bus) (x : Step) :
    (b.step x).subscribers.length = b.subscribers.length + subscriptions [x] := by
  cases x <;>
    simp [step, subscribe, leave, publish, drain, clear, subscriptions, Step.isSubscribe]

theorem length_run (b : Bus) (steps : List Step) :
    (b.run steps).subscribers.length = b.subscribers.length + subscriptions steps := by
  induction steps generalizing b with
  | nil => rfl
  | cons x steps ih =>
      rw [run_cons, ih, length_step, Nat.add_assoc, ← subscriptions_append, List.singleton_append]

/-- Before it has come, a subscriber takes nothing. -/
theorem taken_of_le {steps : List Step}
    (h : b.subscribers.length + subscriptions steps ≤ i) : b.taken i steps = [] := by
  induction steps generalizing b with
  | nil => rfl
  | cons x steps ih =>
      rw [← List.singleton_append, subscriptions_append, ← Nat.add_assoc, ← length_step] at h
      have hnone : b.subscribers[i]? = none := by
        have hlen := length_step b x
        exact List.getElem?_eq_none (by omega)
      have htakes : b.takes i x = [] := by
        cases x with
        | drain index =>
            by_cases hi : index = i
            · subst hi
              simp [takes, drain, queued?, hnone]
            · simp [takes, hi]
        | _ => rfl
      rw [taken, htakes, ih h, List.nil_append]

/-- What concerns a subscriber begins with the step at which it comes. -/
theorem exists_joined {steps : List Step} (h : i < subscriptions steps) :
    ∃ b : Bus, b.subscribers[i]? = some .new ∧ empty.run steps = b.run (since i steps) ∧
      empty.taken i steps = b.taken i (since i steps) := by
  obtain ⟨before, hsteps, hcount⟩ := exists_before h
  have hlen : (empty.run before).subscribers.length = i := by
    rw [length_run, hcount]
    exact Nat.zero_add i
  have htaken : empty.taken i before = [] := taken_of_le (by rw [hcount]; exact (Nat.zero_add i).le)
  refine ⟨(empty.run before).step .subscribe, ?_, ?_, ?_⟩
  · simp [step, subscribe, ← hlen]
  · conv_lhs => rw [hsteps]
    rw [run_append, run_cons]
  · conv_lhs => rw [hsteps]
    rw [taken_append, htaken]
    rfl

/-- The bus sends to a subscriber if it came after the last detachment and has not missed an
event. -/
theorem attached_iff {steps : List Step} :
    (∃ s, (empty.run steps).subscribers[i]? = some s ∧ s.attached = true) ↔
      Current steps i ∧ ¬ Missed i (since i steps) := by
  by_cases hi : i < subscriptions steps
  · obtain ⟨b, hb, hrun, -⟩ := exists_joined hi
    obtain ⟨s, hs, hattached⟩ := attached_run_iff hb (since i steps)
    have hkept : Subscriber.new.Kept i (since i steps) ↔
        Step.clear ∉ since i steps ∧ ¬ Missed i (since i steps) := by
      simp [Subscriber.Kept, Subscriber.new, Subscriber.farewell, Missed]
    rw [hrun, hs]
    simp only [Option.some.injEq, exists_eq_left', hattached, hkept, Current, hi, true_and]
  · have hnone : (empty.run steps).subscribers[i]? = none :=
      List.getElem?_eq_none (by rw [length_run]; simpa [empty] using hi)
    simp [hnone, Current, hi]

theorem count_eq_ncard (b : Bus) :
    b.count = {i : Nat | ∃ s, b.subscribers[i]? = some s ∧ s.attached = true}.ncard := by
  have hset : {i : Nat | ∃ s, b.subscribers[i]? = some s ∧ s.attached = true} =
      ↑(b.subscribers.findIdxs (·.attached)).toFinset := by
    ext i
    simp only [Set.mem_ofPred_eq, List.coe_toFinset, List.mem_findIdxs_iff_exists_getElem_pos,
      List.getElem?_eq_some_iff]
    constructor
    · rintro ⟨s, ⟨hi, rfl⟩, hattached⟩
      exact ⟨hi, hattached⟩
    · rintro ⟨hi, hattached⟩
      exact ⟨_, ⟨hi, rfl⟩, hattached⟩
  rw [hset, Set.ncard_coe_finset, List.toFinset_card_of_nodup List.nodup_findIdxs,
    List.length_findIdxs, count]

/-- **What subscribers get, and how many of them are counted.**  After any steps, what a subscriber
that has not left has taken so far, with what still waits for it behind, is what was sent since it
came and before the subscribers were next detached.  One that has left has taken an initial part of
this.  The bus counts the subscribers that came after the last detachment, but for those that left
and then missed an event. -/
theorem delivers_what_is_sent (steps : List Step) :
    (∀ i < subscriptions steps, Step.leave i ∉ since i steps →
      ∃ queue, (empty.run steps).queued? i = some queue ∧
        empty.taken i steps ++ queue = sent (since i steps)) ∧
    (∀ i < subscriptions steps, empty.taken i steps <+: sent (since i steps)) ∧
    (empty.run steps).count = {i | Current steps i}.ncard -
      {i | Current steps i ∧ Missed i (since i steps)}.ncard := by
  refine ⟨?_, ?_, ?_⟩
  · intro i hi hstays
    obtain ⟨b, hb, hrun, htaken⟩ := exists_joined hi
    obtain ⟨s, hs, hlistening, hdue⟩ := taken_append_due hb hstays
    have hlistening' : s.listening = true := hlistening
    refine ⟨s.queue, ?_, ?_⟩
    · rw [hrun, queued?_eq hs, if_pos hlistening']
    · rw [htaken, ← Subscriber.due_new, ← hdue]
      simp [Subscriber.due, hlistening', sent]
  · intro i hi
    obtain ⟨b, hb, -, htaken⟩ := exists_joined hi
    rw [htaken]
    exact taken_prefix_due hb (since i steps)
  · have hfinite : {i | Current steps i ∧ Missed i (since i steps)}.Finite :=
      (Set.finite_lt_nat (subscriptions steps)).subset fun i hi => hi.1.1
    have hsub : {i | Current steps i ∧ Missed i (since i steps)} ⊆ {i | Current steps i} :=
      fun i hi => hi.1
    rw [count_eq_ncard, ← Set.ncard_sdiff hsub hfinite]
    congr 1
    ext i
    rw [Set.mem_ofPred_eq, attached_iff]
    simp only [Set.mem_sdiff, Set.mem_ofPred_eq, not_and, and_congr_right_iff]
    exact fun hcurrent => ⟨fun h _ => h, fun h => h hcurrent⟩

/-- Three subscribers: one that is detached, one that leaves between two events, and one that takes
two events and has the third before it. -/
def crossing : List Step :=
  [.subscribe, .clear, .subscribe, .subscribe, .publish .beforeUpdate, .leave 1,
    .publish .afterUpdate, .drain 2, .publish (.error "late")]

/-- The last subscriber gets all three events, and is the only one that is counted. -/
theorem delivers_what_is_sent_crossing :
    (∃ queue, (empty.run crossing).queued? 2 = some queue ∧
      empty.taken 2 crossing ++ queue = [.beforeUpdate, .afterUpdate, .error "late"]) ∧
    empty.taken 1 crossing <+: [.beforeUpdate, .afterUpdate, .error "late"] ∧
    1 = {i | Current crossing i}.ncard -
      {i | Current crossing i ∧ Missed i (since i crossing)}.ncard := by
  obtain ⟨hstays, hany, hcount⟩ := delivers_what_is_sent crossing
  refine ⟨hstays 2 (by decide) ?_, hany 1 (by decide), hcount⟩
  simp [crossing, since]

end Bus

end SchemaScope
