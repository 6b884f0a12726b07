import Mathlib.Data.List.AList
import Yazpp.Lib.Machine
import Yazpp.SocketManager.Model

/-!
# The event queue in memory

The embedding of `putEvent`, `getEvent` and `removeEvent` of `src/yaz-socket-manager.cpp` down to
their pointers. The events are nodes in memory with a link in each direction: `next` is towards the
front of the queue, and `prev` towards its back. To read or write an event that is not there is a
fault (it was freed, or never made), and so is an assertion that fails.

An event is made by `new`, which leaves its links as the memory was, and is put in the queue. One
that `getEvent` has returned is freed by its caller, after it was notified. Memory that was freed
may be used again.
-/

set_option autoImplicit false

namespace Yazpp

open Yazpp.Lib

/-- The address of an event; null is `none` wherever there may be one. -/
abbrev EventAddr := Nat

/-- A `SocketEvent` in memory. -/
structure EventNode (ω : Type) extends SocketEvent ω where
  /-- front in queue -/
  next : Option EventAddr
  /-- back in queue -/
  prev : Option EventAddr
deriving DecidableEq, Repr

/-- What goes wrong. `unending` is a loop that has visited more events than there are. -/
inductive QueueFault
  | assertFailed
  | dangling (event : EventAddr)
  | unending
deriving DecidableEq, Repr

/-- `queue_front` and `queue_back` of `SocketManager::Rep`, and the events in memory. -/
structure EventQueue (ω : Type) where
  heap : AList fun _ : EventAddr => EventNode ω := ∅
  queueFront : Option EventAddr := none
  queueBack : Option EventAddr := none

/-- `assert`. -/
def assertThat (condition : Bool) : Except QueueFault Unit :=
  if condition then .ok () else .error .assertFailed

namespace EventQueue

variable {ω : Type}

/-- An event is read. -/
def read (event : EventAddr) (q : EventQueue ω) : Except QueueFault (EventNode ω) :=
  match q.heap.lookup event with
  | some node => .ok node
  | none => .error (.dangling event)

/-- An event is written. -/
def write (event : EventAddr) (node : EventNode ω) (q : EventQueue ω) : EventQueue ω :=
  { q with heap := q.heap.insert event node }

/-- `event->next = next`. -/
def setNext (event : EventAddr) (next : Option EventAddr) (q : EventQueue ω) :
    Except QueueFault (EventQueue ω) := do
  let node ← q.read event
  return q.write event { node with next := next }

/-- `event->prev = prev`. -/
def setPrev (event : EventAddr) (prev : Option EventAddr) (q : EventQueue ω) :
    Except QueueFault (EventQueue ω) := do
  let node ← q.read event
  return q.write event { node with prev := prev }

/-- `if (event) event->next = next; else queue_back = next;` -/
def setNextOrBack (event next : Option EventAddr) (q : EventQueue ω) :
    Except QueueFault (EventQueue ω) :=
  match event with
  | some event => q.setNext event next
  | none => .ok { q with queueBack := next }

/-- `if (event) event->prev = prev; else queue_front = prev;` -/
def setPrevOrFront (event prev : Option EventAddr) (q : EventQueue ω) :
    Except QueueFault (EventQueue ω) :=
  match event with
  | some event => q.setPrev event prev
  | none => .ok { q with queueFront := prev }

/-- `delete event`. -/
def free (event : EventAddr) (q : EventQueue ω) : Except QueueFault (EventQueue ω) := do
  let _ ← q.read event
  return { q with heap := q.heap.erase event }

/-- `Rep::putEvent`. -/
def putEvent (event : EventAddr) (q : EventQueue ω) : Except QueueFault (EventQueue ω) := do
  let q ← match q.queueBack with
    | some back => do
      let q ← q.setPrev back (some event)
      assertThat q.queueFront.isSome
      pure q
    | none => do
      assertThat q.queueFront.isNone
      pure { q with queueFront := some event }
  let q ← q.setNext event q.queueBack
  let q ← q.setPrev event none
  return { q with queueBack := some event }

/-- `Rep::getEvent`. -/
def getEvent (q : EventQueue ω) : Except QueueFault (EventQueue ω × Option EventAddr) :=
  match q.queueFront with
  | none => return (q, none)
  | some event => do
    assertThat q.queueBack.isSome
    let node ← q.read event
    let q := { q with queueFront := node.prev }
    match q.queueFront with
    | some front => do
      assertThat q.queueBack.isSome
      let q ← q.setNext front none
      return (q, some event)
    | none => return ({ q with queueBack := none }, some event)

/-- What `removeEvent` does with an event of the observer. -/
def removeNode (ev : EventAddr) (q : EventQueue ω) : Except QueueFault (EventQueue ω) := do
  let node ← q.read ev
  let q ← q.setNextOrBack node.prev node.next
  let node ← q.read ev
  let q ← q.setPrevOrFront node.next node.prev
  q.free ev

variable [DecidableEq ω]

/-- The loop of `removeEvent`, at `ev`. -/
def removeLoop (observer : ω) : Nat → Option EventAddr → EventQueue ω →
    Except QueueFault (EventQueue ω)
  | _, none, q => .ok q
  | 0, some _, _ => .error .unending
  | fuel + 1, some ev, q => do
    let node ← q.read ev
    let evNext := node.next
    let q ← if observer = node.observer then q.removeNode ev else pure q
    removeLoop observer fuel evNext q

/-- `Rep::removeEvent`. It visits an event of memory once at most. -/
def removeEvent (observer : ω) (q : EventQueue ω) : Except QueueFault (EventQueue ω) :=
  removeLoop observer q.heap.keys.length q.queueBack q

end EventQueue

/-- A use of the queue. -/
inductive QueueInput (ω : Type)
  -- `new SocketEvent` at an address, with links that nobody has set, then `putEvent`
  | putEvent (event : EventAddr) (node : EventNode ω)
  | getEvent
  | removeEvent (observer : ω)
  -- `delete event`, of an event that `getEvent` returned
  | delete (event : EventAddr)
deriving DecidableEq, Repr

/-- What the users of a queue see of it. -/
inductive QueueOutput (ω : Type)
  | got (event : Option (EventAddr × SocketEvent ω))
  | fault (fault : QueueFault)
deriving DecidableEq, Repr

/-- The queue and its users: `held` are the events that were returned and not freed yet. -/
structure QueueUse (ω : Type) where
  queue : EventQueue ω := {}
  held : List EventAddr := []

namespace QueueUse

variable {ω : Type}

/-- `putEvent` of an event that was just made. -/
def putEvent (event : EventAddr) (node : EventNode ω) (u : QueueUse ω) :
    Except QueueFault (QueueUse ω × List (QueueOutput ω)) := do
  let q ← (u.queue.write event node).putEvent event
  return ({ u with queue := q }, [])

/-- `getEvent`, and what it returned is read. -/
def getEvent (u : QueueUse ω) : Except QueueFault (QueueUse ω × List (QueueOutput ω)) := do
  let (q, event) ← u.queue.getEvent
  match event with
  | none => return ({ u with queue := q }, [.got none])
  | some event => do
    let node ← q.read event
    return ({ queue := q, held := event :: u.held }, [.got (some (event, node.toSocketEvent))])

/-- `removeEvent`. -/
def removeEvent [DecidableEq ω] (observer : ω) (u : QueueUse ω) :
    Except QueueFault (QueueUse ω × List (QueueOutput ω)) := do
  let q ← u.queue.removeEvent observer
  return ({ u with queue := q }, [])

/-- `delete` of a returned event. -/
def delete (event : EventAddr) (u : QueueUse ω) :
    Except QueueFault (QueueUse ω × List (QueueOutput ω)) := do
  let q ← u.queue.free event
  return ({ queue := q, held := u.held.erase event }, [])

/-- What may be done: `new` returns memory that is not in use, and only what was returned and is
still there is freed. -/
def admits (u : QueueUse ω) : QueueInput ω → Bool
  | .putEvent event _ => (u.queue.heap.lookup event).isNone
  | .getEvent | .removeEvent _ => true
  | .delete event => event ∈ u.held

/-- One use, as one function. -/
def perform [DecidableEq ω] (u : QueueUse ω) :
    QueueInput ω → Except QueueFault (QueueUse ω × List (QueueOutput ω))
  | .putEvent event node => u.putEvent event node
  | .getEvent => u.getEvent
  | .removeEvent observer => u.removeEvent observer
  | .delete event => u.delete event

end QueueUse

/-- The queue under any sequence of uses. A fault is put out, and nothing else is done. -/
def eventQueue (ω : Type) [DecidableEq ω] :
    Machine (QueueUse ω) (QueueInput ω) (QueueOutput ω) where
  step u i :=
    if u.admits i then
      match u.perform i with
      | .ok next => some next
      | .error f => some (u, [.fault f])
    else none

end Yazpp
