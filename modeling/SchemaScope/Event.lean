/-
**Notifications.**

A bus sends every event to all its subscribers, each of which has a queue of its own.  A subscriber
that has stopped listening is detached when the next event is sent, and all are detached when the
bus is cleared; a detached subscriber keeps what is queued.

Main definitions:

* `Event` — what a session tells its subscribers;
* `Subscriber`, `Bus` — queues, and the bus that fills them;
* `Bus.subscribe`, `Bus.leave`, `Bus.publish`, `Bus.drain`, `Bus.clear`, `Bus.count` — what can be
  done with a bus.
-/

import SchemaScope.Resource.Set

set_option autoImplicit false

namespace SchemaScope

/-- What a session tells its subscribers. -/
inductive Event where
  | beforeUpdate
  | afterUpdate
  | resourcesUpdated (resources : Option ResourceSet)
  | error (message : String)
  deriving Inhabited

/-- A subscriber: the events it has not taken yet, whether it still listens, and whether the bus
still sends to it. -/
structure Subscriber where
  queue : List Event
  listening : Bool
  attached : Bool
  deriving Inhabited

namespace Subscriber

/-- A subscriber that nothing has been sent to. -/
def new : Subscriber := ⟨[], true, true⟩

/-- A subscriber when an event is sent. -/
def receive (event : Event) (s : Subscriber) : Subscriber :=
  if s.attached then
    if s.listening then { s with queue := s.queue ++ [event] } else { s with attached := false }
  else s

/-- A subscriber that has stopped listening.  Its queue is gone. -/
def close (s : Subscriber) : Subscriber := { s with queue := [], listening := false }

/-- A subscriber that the bus does not send to any more. -/
def detach (s : Subscriber) : Subscriber := { s with attached := false }

end Subscriber

/-- All subscribers that a bus ever had, in the order in which they subscribed. -/
structure Bus where
  subscribers : List Subscriber
  deriving Inhabited

namespace Bus

/-- A bus without subscribers. -/
def empty : Bus := ⟨[]⟩

/-- The number of the next subscriber, and the bus with it. -/
def subscribe (b : Bus) : Nat × Bus := (b.subscribers.length, ⟨b.subscribers ++ [.new]⟩)

/-- The bus after a subscriber has stopped listening. -/
def leave (b : Bus) (index : Nat) : Bus := ⟨b.subscribers.modify index Subscriber.close⟩

/-- The bus after an event has been sent. -/
def publish (b : Bus) (event : Event) : Bus := ⟨b.subscribers.map (Subscriber.receive event)⟩

/-- The bus after several events have been sent. -/
def publishAll (b : Bus) (events : List Event) : Bus := events.foldl publish b

/-- The events that wait for a subscriber that still listens. -/
def queued? (b : Bus) (index : Nat) : Option (List Event) :=
  (b.subscribers[index]?.filter (·.listening)).map (·.queue)

/-- The events that wait for a subscriber, and the bus after it has taken them. -/
def drain (b : Bus) (index : Nat) : Option (List Event) × Bus :=
  (b.queued? index, ⟨b.subscribers.modify index fun s => { s with queue := [] }⟩)

/-- The bus after all subscribers have been detached. -/
def clear (b : Bus) : Bus := ⟨b.subscribers.map Subscriber.detach⟩

/-- The number of subscribers that the bus sends to. -/
def count (b : Bus) : Nat := b.subscribers.countP (·.attached)

@[simp] theorem count_empty : empty.count = 0 := rfl

@[simp] theorem count_subscribe (b : Bus) : b.subscribe.2.count = b.count + 1 := by
  simp [subscribe, count, Subscriber.new]

@[simp] theorem count_clear (b : Bus) : b.clear.count = 0 := by
  simp [clear, count, List.countP_map, Subscriber.detach, List.countP_eq_zero]

end Bus

end SchemaScope
