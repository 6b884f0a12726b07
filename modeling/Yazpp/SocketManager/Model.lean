import Yazpp.CInt
import Yazpp.Comstack
import Yazpp.Lib.Machine

/-!
# `SocketManager`, function by function

The embedding of `src/yaz-socket-manager.cpp`, over any type of observers. The list of entries and
the event queue are the two private structures of `SocketManager::Rep`. An observer has one entry
at most, which is a field of the structure: `addObserver` looks the observer up before it makes a
new entry. The queue is a list with its front first; `putEvent` puts at the back.

`yaz_poll` and `time(0)` are not part of the repository. Their answers come with the input
`processEvent`: one `PollReply` for each turn of the poll loop. A call that has not got an answer
which ends the loop has not returned, and the machine refuses it.

A `socketNotify` is the last thing `processEvent` does: behind it, only the event itself and the
poll set are freed. So a call that the observer makes from inside `socketNotify` is the next input,
a nested `processEvent` too, and no frame is kept.

Left out: `log` and the debug lines, and `getNumberOfObservers`, which changes nothing.
-/

set_option autoImplicit false

namespace Yazpp

open Yazpp.Lib

/-- `SocketManager::SocketEntry`. `timeoutThis` is not set before the first poll, which sets it in
every entry. -/
structure SocketEntry (ω : Type) where
  observer : ω
  fd : Int
  mask : Nat := 0
  timeout : Int := -1
  timeoutThis : Int := -1
  lastActivity : Int := 0
deriving DecidableEq, Repr

/-- `SocketManager::SocketEvent`. -/
structure SocketEvent (ω : Type) where
  observer : ω
  event : Nat
deriving DecidableEq, Repr

/-- `SocketManager::Rep`: the entries, newest first, and the event queue, front first. -/
structure SocketManager (ω : Type) where
  observers : List (SocketEntry ω) := []
  queue : List (SocketEvent ω) := []
  nodup : (observers.map SocketEntry.observer).Nodup := by exact List.nodup_nil

/-- `enum yaz_poll_mask`. -/
structure PollMask where
  read : Bool := false
  write : Bool := false
  except : Bool := false
deriving DecidableEq, Repr

/-- `struct yaz_poll_fd`, as `processEvent` fills it in. -/
structure PollFd where
  fd : Int
  inputMask : PollMask
deriving DecidableEq, Repr

/-- One answer of `yaz_poll`: its `int`, whether `errno` is `EINTR`, and the output masks in the
order of the poll set. -/
structure PollReply where
  res : Int
  eintr : Bool := false
  output : List PollMask := []
deriving DecidableEq, Repr

/-- What the manager does that others see, its own queue included. -/
inductive ManagerCall (ω : Type)
  | added (observer : ω)
  | deleted (observer : ω)
  | yazPoll (fds : List PollFd) (timeout : Int)
  | putEvent (observer : ω) (event : Nat)
  | socketNotify (observer : ω) (event : Nat)
  -- `assert (p->last_activity)`
  | assertFailed
  -- "unhandled socket event"
  | unhandled (res : Int)
deriving DecidableEq, Repr

/-- What an operation leaves: the manager, what it did, and its `int`. -/
structure Managed (ω : Type) where
  manager : SocketManager ω
  calls : List (ManagerCall ω) := []
  ret : Int := 0

/-- The output mask of a poll as a mask of events. -/
def PollMask.events (p : PollMask) : Nat :=
  (if p.read then observeRead else 0) ||| (if p.write then observeWrite else 0) |||
    (if p.except then observeExcept else 0)

/-- The poll set's record of an entry. -/
def SocketEntry.pollFd {ω : Type} (e : SocketEntry ω) : PollFd where
  fd := e.fd
  inputMask :=
    { read := testMask e.mask observeRead
      write := testMask e.mask observeWrite
      except := testMask e.mask observeExcept }

/-- Whether an entry has a timeout to wait for: one of 0 counts only where nothing is to be
written. -/
def SocketEntry.timed {ω : Type} (e : SocketEntry ω) : Bool :=
  0 < e.timeout || (e.timeout == 0 && !testMask e.mask observeWrite)

/-- What is left of an entry's timeout, as the source computes it in an `int`. -/
def SocketEntry.remaining {ω : Type} (now : Int) (e : SocketEntry ω) : Int :=
  let timeoutThis :=
    if e.lastActivity ≠ 0 then toInt32 (e.timeout - (now - e.lastActivity)) else e.timeout
  if timeoutThis < 0 ∨ 2147483646 < timeoutThis then 0 else timeoutThis

/-- An entry as the poll set is built: `timeout_this` is set, and a timed entry that had no
activity yet starts now. -/
def SocketEntry.arm {ω : Type} (now : Int) (e : SocketEntry ω) : SocketEntry ω :=
  if e.timed then
    { e with
      timeoutThis := e.remaining now
      lastActivity := if e.lastActivity ≠ 0 then e.lastActivity else now }
  else { e with timeoutThis := -1 }

/-- The timeout of the poll so far, and one more entry. -/
def SocketEntry.least {ω : Type} (now : Int) (timeout : Int) (e : SocketEntry ω) : Int :=
  if e.timed ∧ (timeout = -1 ∨ e.remaining now < timeout) then e.remaining now else timeout

/-- How the poll loop ends. -/
inductive PollEnd
  | interrupted
  | polled (reply : PollReply)
deriving DecidableEq, Repr

/-- The loop around `yaz_poll`, with the number of its calls. Nothing in it changes `pass`. -/
def pollLoop (pass : Nat) : List PollReply → Option (Nat × PollEnd)
  | [] => none
  | r :: rs =>
    if r.res < 0 ∧ pass < 10 then
      if r.eintr then some (1, .interrupted)
      else (pollLoop pass rs).map fun next => (next.1 + 1, next.2)
    else some (1, .polled r)

namespace SocketManager

variable {ω : Type} [DecidableEq ω]

/-- The constructor. -/
def new : SocketManager ω := {}

/-- `Rep::lookupObserver`. -/
def lookupObserver (observer : ω) (m : SocketManager ω) : Option (SocketEntry ω) :=
  m.observers.find? fun e => e.observer = observer

/-- An assignment to the entry of an observer, when it has one. -/
def assign (observer : ω) (f : SocketEntry ω → SocketEntry ω)
    (same : ∀ e, (f e).observer = e.observer) (m : SocketManager ω) : SocketManager ω where
  observers := m.observers.map fun e => if e.observer = observer then f e else e
  queue := m.queue
  nodup := by
    have keys : (m.observers.map fun e => if e.observer = observer then f e else e).map
        SocketEntry.observer = m.observers.map SocketEntry.observer := by
      rw [List.map_map]
      apply List.map_congr_left
      intro e _
      show (if e.observer = observer then f e else e).observer = e.observer
      split
      · exact same e
      · rfl
    rw [keys]
    exact m.nodup

/-- `SocketManager::addObserver`. -/
def addObserver (fd : Int) (observer : ω) (m : SocketManager ω) : Managed ω where
  calls := [.added observer]
  manager :=
    match found : m.lookupObserver observer with
    | some _ =>
      m.assign observer
        (fun e => { e with fd := fd, mask := 0, lastActivity := 0, timeout := -1 }) fun _ => rfl
    | none =>
      { observers := { observer := observer, fd := fd } :: m.observers
        queue := m.queue
        nodup := by
          refine List.nodup_cons.mpr ⟨?_, m.nodup⟩
          intro hmem
          obtain ⟨e, he, hobs⟩ := List.mem_map.mp hmem
          have := List.find?_eq_none.mp found e he
          exact this (decide_eq_true hobs) }

/-- `Rep::removeEvent`. -/
def removeEvent (observer : ω) (queue : List (SocketEvent ω)) : List (SocketEvent ω) :=
  queue.filter fun ev => ev.observer ≠ observer

/-- `SocketManager::deleteObserver`. -/
def deleteObserver (observer : ω) (m : SocketManager ω) : Managed ω where
  calls := [.deleted observer]
  manager :=
    if (m.lookupObserver observer).isSome then
      { observers := m.observers.eraseP fun e => e.observer = observer
        queue := removeEvent observer m.queue
        nodup := m.nodup.sublist (List.eraseP_sublist.map _) }
    else m

/-- `SocketManager::deleteObservers`. -/
def deleteObservers (m : SocketManager ω) : Managed ω where
  manager := { queue := m.queue }

/-- `SocketManager::maskObserver`. -/
def maskObserver (observer : ω) (mask : Nat) (fd : Int) (m : SocketManager ω) : Managed ω where
  manager := m.assign observer
    (fun e => { e with mask := mask, fd := if fd ≠ -1 then fd else e.fd }) fun _ => rfl

/-- `SocketManager::timeoutObserver`. -/
def timeoutObserver (observer : ω) (timeout : Int) (m : SocketManager ω) : Managed ω where
  manager := m.assign observer (fun e => { e with timeout := timeout }) fun _ => rfl

/-- `Rep::putEvent`. -/
def putEvent (ev : SocketEvent ω) (m : SocketManager ω) : Managed ω where
  manager := { m with queue := m.queue ++ [ev] }
  calls := [.putEvent ev.observer ev.event]

/-- One turn of the loop of `Rep::inspect_poll_result`, for a descriptor of the poll set and its
output mask; `now` is the second reading of the clock. -/
def inspectFd (res timeout now : Int) (fd : Int) (output : PollMask) (m : SocketManager ω) :
    Managed ω :=
  match m.observers.find? fun p => p.fd = fd with
  | none => { manager := m }
  | some p =>
    let touched := m.assign p.observer (fun e => { e with lastActivity := now }) fun _ => rfl
    if output.events ≠ 0 then touched.putEvent { observer := p.observer, event := output.events }
    else if res = 0 ∧ p.timeoutThis = timeout then
      let put := touched.putEvent { observer := p.observer, event := observeTimeout }
      if p.lastActivity = 0 then { put with calls := .assertFailed :: put.calls } else put
    else { manager := m }

/-- The loop of `Rep::inspect_poll_result`. -/
def inspectFds (res timeout now : Int) :
    List PollFd → List PollMask → SocketManager ω → Managed ω
  | [], _, m => { manager := m }
  | fd :: fds, output, m =>
    let first := m.inspectFd res timeout now fd.fd (output.headD {})
    let rest := inspectFds res timeout now fds output.tail first.manager
    { rest with calls := first.calls ++ rest.calls }

/-- The front of the queue is taken out and notified; `otherwise` is what is done with none. -/
def notifyFront (otherwise : List (ManagerCall ω)) (m : SocketManager ω) : Managed ω :=
  match m.queue with
  | [] => { manager := m, calls := otherwise, ret := 1 }
  | ev :: queue =>
    { manager := { m with queue := queue }
      calls := [.socketNotify ev.observer ev.event]
      ret := 1 }

/-- `Rep::inspect_poll_result`. An observer is lost only when the list of entries changed since
the poll, which one thread cannot do. -/
def inspectPollResult (reply : PollReply) (fds : List PollFd) (timeout now : Int)
    (m : SocketManager ω) : Managed ω :=
  let put := inspectFds reply.res timeout now fds reply.output m
  let lost := fds.any fun fd => (m.observers.find? fun p => p.fd = fd.fd).isNone
  let notified := put.manager.notifyFront (if lost then [] else [.unhandled reply.res])
  { notified with calls := put.calls ++ notified.calls }

/-- The manager as the poll set is built. -/
def arm (now : Int) (m : SocketManager ω) : SocketManager ω where
  observers := m.observers.map (SocketEntry.arm now)
  queue := m.queue
  nodup := by
    have keys : (m.observers.map (SocketEntry.arm now)).map SocketEntry.observer =
        m.observers.map SocketEntry.observer := by
      rw [List.map_map]
      apply List.map_congr_left
      intro e _
      show (e.arm now).observer = e.observer
      unfold SocketEntry.arm
      split <;> rfl
    rw [keys]
    exact m.nodup

/-- `SocketManager::processEvent`: a queued event, or a poll. `now` and `later` are the two
readings of the clock; `none` is a call whose poll loop has not ended. -/
def processEvent (now : Int) (replies : List PollReply) (later : Int) (m : SocketManager ω) :
    Option (Managed ω) :=
  if m.queue ≠ [] then some (m.notifyFront [])
  else if m.observers = [] then some { manager := m }
  else
    let fds := m.observers.map SocketEntry.pollFd
    let timeout := m.observers.foldl (SocketEntry.least now) (-1)
    let armed := m.arm now
    (pollLoop 0 replies).map fun (polls, ended) =>
      let made := List.replicate polls (.yazPoll fds timeout)
      match ended with
      | .interrupted => { manager := armed, calls := made, ret := 1 }
      | .polled reply =>
        if 0 ≤ reply.res then
          let inspected := armed.inspectPollResult reply fds timeout later
          { inspected with calls := made ++ inspected.calls, ret := 1 }
        else { manager := armed, calls := made, ret := -1 }

end SocketManager

/-- An operation of the manager. -/
inductive ManagerInput (ω : Type)
  | addObserver (fd : Int) (observer : ω)
  | deleteObserver (observer : ω)
  | deleteObservers
  | maskObserver (observer : ω) (mask : Nat) (fd : Int)
  | timeoutObserver (observer : ω) (timeout : Int)
  | processEvent (now : Int) (replies : List PollReply) (later : Int)
deriving DecidableEq, Repr

/-- What an operation does, as one function. -/
def ManagerInput.perform {ω : Type} [DecidableEq ω] (m : SocketManager ω) :
    ManagerInput ω → Option (Managed ω)
  | .addObserver fd observer => some (m.addObserver fd observer)
  | .deleteObserver observer => some (m.deleteObserver observer)
  | .deleteObservers => some m.deleteObservers
  | .maskObserver observer mask fd => some (m.maskObserver observer mask fd)
  | .timeoutObserver observer timeout => some (m.timeoutObserver observer timeout)
  | .processEvent now replies later => m.processEvent now replies later

/-- One `SocketManager` under any sequence of operations. -/
def socketManager (ω : Type) [DecidableEq ω] :
    Machine (SocketManager ω) (ManagerInput ω) (ManagerCall ω) where
  step m i := (i.perform m).map fun o => (o.manager, o.calls)

end Yazpp
