import Yazpp.Lib.Chain
import Yazpp.SocketManager.Queue

/-!
# `SocketManager` in memory

The embedding of `src/yaz-socket-manager.cpp` once more, down to its pointers: the entries are nodes
in memory, linked one way and newest first, and the events are those of `EventQueue`. Each function
has its loops over the entries, its `new` and its `delete`.

`new` leaves what it finds in memory (`Memory`): it may return any address that is not in use, one
that was freed too, and what it does not set is whatever was there. `addObserver` does not set
`timeout_this`, nor is it read before the first poll has set it.

An event is freed when the `socketNotify` that it was for has returned (`LinkedInput.returned`).
-/

set_option autoImplicit false

namespace Yazpp

open Yazpp.Lib

/-- Where `new` puts the next thing that is made, and what it finds there. -/
structure Memory extends Allocator where
  word : Nat → Int
  link : Nat → Option Nat

/-- What goes wrong: at an entry, or at an event. -/
inductive ManagerFault
  | entry (fault : ChainFault)
  | event (fault : QueueFault)
deriving DecidableEq, Repr

/-- `SocketManager::Rep`. `made` is how often `new` was called. -/
structure LinkedManager (ω : Type) where
  observers : Chain (SocketEntry ω) := {}
  events : QueueUse ω := {}
  made : Nat := 0

/-- What an operation leaves: the manager, what it did, and its `int`. -/
structure LinkedManaged (ω : Type) where
  manager : LinkedManager ω
  calls : List (ManagerCall ω) := []
  ret : Int := 0

/-- A step over the entries. -/
def onEntries {α : Type} (x : Except ChainFault α) : Except ManagerFault α :=
  x.mapError ManagerFault.entry

/-- A step over the events. -/
def onEvents {α : Type} (x : Except QueueFault α) : Except ManagerFault α :=
  x.mapError ManagerFault.event

namespace LinkedManager

variable {ω : Type}

/-- A field of an entry is set. -/
def setEntry (node : Nat) (f : SocketEntry ω → SocketEntry ω) (m : LinkedManager ω) :
    Except ManagerFault (LinkedManager ω) := do
  let cell ← onEntries (m.observers.read node)
  let observers ← onEntries (m.observers.setItem node (f cell.item))
  return { m with observers := observers }

/-- `SocketManager::getNumberOfObservers`, which is also how `processEvent` counts. -/
def getNumberOfObservers (m : LinkedManager ω) : Except ManagerFault Nat := do
  let (_, count) ← onEntries (m.observers.each (fun e i => (e, i + 1)) 0)
  return count

/-- The turn of the loop of `processEvent` for one entry: it is armed, and what is known of the poll
is its timeout and its descriptors so far. -/
def armEntry (now : Int) (e : SocketEntry ω) (poll : Int × List PollFd) :
    SocketEntry ω × (Int × List PollFd) :=
  (e.arm now, (e.least now poll.1, poll.2 ++ [e.pollFd]))

/-- `new SocketEvent`, and `putEvent`. -/
def putEvent (mem : Memory) (ev : SocketEvent ω) (m : LinkedManager ω) :
    Except ManagerFault (LinkedManaged ω) := do
  let addr := mem.malloc m.made m.events.queue.heap.keys
  let node : EventNode ω :=
    { toSocketEvent := ev, next := mem.link m.made, prev := mem.link m.made }
  let (events, _) ← onEvents (m.events.putEvent addr node)
  return { manager := { m with events := events, made := m.made + 1 }
           calls := [.putEvent ev.observer ev.event] }

/-- `getEvent`, and the observer of the event is notified. -/
def notifyFront (otherwise : List (ManagerCall ω)) (m : LinkedManager ω) :
    Except ManagerFault (LinkedManaged ω) := do
  let (events, out) ← onEvents m.events.getEvent
  match out with
  | [.got (some (_, ev))] =>
    return { manager := { m with events := events }
             calls := [.socketNotify ev.observer ev.event]
             ret := 1 }
  | _ => return { manager := { m with events := events }, calls := otherwise, ret := 1 }

/-- One turn of the loop of `Rep::inspect_poll_result`, and what is added to `no_lost_observers`. -/
def inspectFd (mem : Memory) (res timeout now : Int) (fd : Int) (output : PollMask)
    (m : LinkedManager ω) : Except ManagerFault (LinkedManaged ω × Nat) := do
  match ← onEntries (m.observers.find fun p => p.fd = fd) with
  | none => return ({ manager := m }, 1)
  | some p => do
    let cell ← onEntries (m.observers.read p)
    if output.events ≠ 0 then
      let m ← m.setEntry p fun e => { e with lastActivity := now }
      let put ← m.putEvent mem { observer := cell.item.observer, event := output.events }
      return (put, 0)
    else if res = 0 ∧ cell.item.timeoutThis = timeout then
      let m ← m.setEntry p fun e => { e with lastActivity := now }
      let put ← m.putEvent mem { observer := cell.item.observer, event := observeTimeout }
      if cell.item.lastActivity = 0 then
        return ({ put with calls := .assertFailed :: put.calls }, 0)
      else return (put, 0)
    else return ({ manager := m }, 0)

/-- The loop of `Rep::inspect_poll_result`, and `no_lost_observers` behind it. -/
def inspectFds (mem : Memory) (res timeout now : Int) :
    List PollFd → List PollMask → LinkedManager ω → Except ManagerFault (LinkedManaged ω × Nat)
  | [], _, m => return ({ manager := m }, 0)
  | fd :: fds, output, m => do
    let (first, lost) ← m.inspectFd mem res timeout now fd.fd (output.headD {})
    let (rest, more) ← inspectFds mem res timeout now fds output.tail first.manager
    return ({ rest with calls := first.calls ++ rest.calls }, lost + more)

/-- `Rep::inspect_poll_result`. -/
def inspectPollResult (mem : Memory) (reply : PollReply) (fds : List PollFd) (timeout now : Int)
    (m : LinkedManager ω) : Except ManagerFault (LinkedManaged ω) := do
  let (put, noLostObservers) ← inspectFds mem reply.res timeout now fds reply.output m
  let otherwise := if noLostObservers = 0 then [.unhandled reply.res] else []
  let notified ← put.manager.notifyFront otherwise
  return { notified with calls := put.calls ++ notified.calls }

/-- `SocketManager::processEvent`; `none` is a call whose poll loop has not ended. -/
def processEvent (mem : Memory) (now : Int) (replies : List PollReply) (later : Int)
    (m : LinkedManager ω) : Except ManagerFault (Option (LinkedManaged ω)) := do
  if m.events.queue.queueFront.isSome then return some (← m.notifyFront [])
  else if (← m.getNumberOfObservers) = 0 then return some { manager := m }
  else
    let (observers, timeout, fds) ← onEntries (m.observers.each (armEntry now) (-1, []))
    let armed := { m with observers := observers }
    match pollLoop 0 replies with
    | none => return none
    | some (polls, ended) =>
      let made := List.replicate polls (.yazPoll fds timeout)
      match ended with
      | .interrupted => return some { manager := armed, calls := made, ret := 1 }
      | .polled reply =>
        if 0 ≤ reply.res then
          let inspected ← armed.inspectPollResult mem reply fds timeout later
          return some { inspected with calls := made ++ inspected.calls, ret := 1 }
        else return some { manager := armed, calls := made, ret := -1 }

variable [DecidableEq ω]

/-- `Rep::lookupObserver`: the place of the pointer to the observer's entry, or the last one. -/
def lookupObserver (observer : ω) (m : LinkedManager ω) : Except ManagerFault Place :=
  onEntries (m.observers.seek fun e => e.observer = observer)

/-- The fields that are set in the entry of an observer, when it has one. -/
def assign (observer : ω) (f : SocketEntry ω → SocketEntry ω) (m : LinkedManager ω) :
    Except ManagerFault (LinkedManaged ω) := do
  match ← onEntries (m.observers.load (← m.lookupObserver observer)) with
  | some se => return { manager := ← m.setEntry se f }
  | none => return { manager := m }

/-- `new SocketEntry`, in front of the others. -/
def newEntry (mem : Memory) (observer : ω) (m : LinkedManager ω) : Nat × LinkedManager ω :=
  let node := mem.malloc m.made m.observers.heap.keys
  let found := mem.word m.made
  let entry : SocketEntry ω :=
    { observer := observer, fd := found, mask := found.toNat, timeout := found
      timeoutThis := found, lastActivity := found }
  let observers := m.observers.write node { item := entry, next := m.observers.head }
  (node, { m with observers := { observers with head := some node }, made := m.made + 1 })

/-- `SocketManager::addObserver`. -/
def addObserver (mem : Memory) (fd : Int) (observer : ω) (m : LinkedManager ω) :
    Except ManagerFault (LinkedManaged ω) := do
  let (se, m) ← match ← onEntries (m.observers.load (← m.lookupObserver observer)) with
    | some se => pure (se, m)
    | none => pure (m.newEntry mem observer)
  let m ← m.setEntry se fun e => { e with fd := fd, mask := 0, lastActivity := 0, timeout := -1 }
  return { manager := m, calls := [.added observer] }

/-- `SocketManager::deleteObserver`. -/
def deleteObserver (observer : ω) (m : LinkedManager ω) :
    Except ManagerFault (LinkedManaged ω) := do
  let place ← m.lookupObserver observer
  match ← onEntries (m.observers.load place) with
  | none => return { manager := m, calls := [.deleted observer] }
  | some se => do
    let (events, _) ← onEvents (m.events.removeEvent observer)
    let cell ← onEntries (m.observers.read se)
    let observers ← onEntries (m.observers.store place cell.next)
    let observers ← onEntries (observers.free se)
    return { manager := { m with observers := observers, events := events }
             calls := [.deleted observer] }

/-- `SocketManager::deleteObservers`. -/
def deleteObservers (m : LinkedManager ω) : Except ManagerFault (LinkedManaged ω) := do
  return { manager := { m with observers := ← onEntries m.observers.clear } }

/-- `SocketManager::~SocketManager`, and what it leaves in memory. -/
def destroy (m : LinkedManager ω) : Except ManagerFault (LinkedManager ω) := do
  return (← m.deleteObservers).manager

/-- `SocketManager::maskObserver`. -/
def maskObserver (observer : ω) (mask : Nat) (fd : Int) (m : LinkedManager ω) :
    Except ManagerFault (LinkedManaged ω) :=
  m.assign observer fun e => { e with mask := mask, fd := if fd ≠ -1 then fd else e.fd }

/-- `SocketManager::timeoutObserver`. -/
def timeoutObserver (observer : ω) (timeout : Int) (m : LinkedManager ω) :
    Except ManagerFault (LinkedManaged ω) :=
  m.assign observer fun e => { e with timeout := timeout }

/-- What an operation does, as one function. -/
def perform (mem : Memory) (m : LinkedManager ω) :
    ManagerInput ω → Except ManagerFault (Option (LinkedManaged ω))
  | .addObserver fd observer => (m.addObserver mem fd observer).map some
  | .deleteObserver observer => (m.deleteObserver observer).map some
  | .deleteObservers => m.deleteObservers.map some
  | .maskObserver observer mask fd => (m.maskObserver observer mask fd).map some
  | .timeoutObserver observer timeout => (m.timeoutObserver observer timeout).map some
  | .processEvent now replies later => m.processEvent mem now replies later

end LinkedManager

/-- What happens to a manager: an operation, or the last `socketNotify` that has not returned yet
returns. -/
inductive LinkedInput (ω : Type)
  | call (input : ManagerInput ω)
  | returned
deriving DecidableEq, Repr

/-- What is seen of it. -/
inductive LinkedOutput (ω : Type)
  | call (call : ManagerCall ω)
  | fault (fault : ManagerFault)
deriving DecidableEq, Repr

namespace LinkedManager

variable {ω : Type} [DecidableEq ω]

/-- `delete event`, behind `socketNotify`. -/
def returned (m : LinkedManager ω) : Except ManagerFault (Option (LinkedManaged ω)) :=
  match m.events.held with
  | [] => return none
  | event :: _ => do
    let (events, _) ← onEvents (m.events.delete event)
    return some { manager := { m with events := events } }

/-- One step, as one function. -/
def advance (mem : Memory) (m : LinkedManager ω) :
    LinkedInput ω → Except ManagerFault (Option (LinkedManaged ω))
  | .call input => m.perform mem input
  | .returned => m.returned

end LinkedManager

/-- One `SocketManager` in memory. A fault is put out, and nothing else is done. -/
def linkedManager (ω : Type) [DecidableEq ω] (mem : Memory) :
    Machine (LinkedManager ω) (LinkedInput ω) (LinkedOutput ω) where
  step m i :=
    match m.advance mem i with
    | .ok next => next.map fun o => (o.manager, o.calls.map .call)
    | .error f => some (m, [.fault f])

end Yazpp
