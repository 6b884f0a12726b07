import Yazpp.Lib.Lookup
import Yazpp.SocketManager.Spec

/-!
# What a poll puts in the queue

`inspect_poll_result` matches the slots of the poll set back to the entries by descriptor: a slot
speaks for the FIRST entry that has its descriptor. What it reads of an entry (the observer, the
descriptor and `timeout_this`) it does not change, so the events of the whole loop can be read off
the entries as they are when the poll set is built (`slotEvents`), and `processEvent` behind a poll
is known exactly (`Polled`): it puts these events, and notifies the first of them.

Where the descriptors are pairwise distinct a slot speaks for its own entry (`slotEvents_distinct`).
-/

set_option autoImplicit false

namespace Yazpp

open Yazpp.Lib

variable {ω : Type}

/-- What the inspection of a poll reads of an entry. -/
structure PollSlot (ω : Type) where
  observer : ω
  fd : Int
  timeoutThis : Int
deriving DecidableEq, Repr

def SocketEntry.slot (e : SocketEntry ω) : PollSlot ω where
  observer := e.observer
  fd := e.fd
  timeoutThis := e.timeoutThis

/-- The event that an entry gets for an output mask. -/
def PollSlot.event? (res timeout : Int) (slot : PollSlot ω) (output : PollMask) :
    Option (SocketEvent ω) :=
  if output.events ≠ 0 then some { observer := slot.observer, event := output.events }
  else if res = 0 ∧ slot.timeoutThis = timeout then
    some { observer := slot.observer, event := observeTimeout }
  else none

/-- The event that a descriptor of the poll set gives: its first entry gets it. -/
def slotEvent (res timeout : Int) (slots : List (PollSlot ω)) (fd : Int) (output : PollMask) :
    Option (SocketEvent ω) :=
  (slots.find? fun slot => slot.fd = fd).bind fun slot => slot.event? res timeout output

/-- The events of a poll set. -/
def slotEvents (res timeout : Int) (slots : List (PollSlot ω)) :
    List PollFd → List PollMask → List (SocketEvent ω)
  | [], _ => []
  | fd :: fds, output =>
    (slotEvent res timeout slots fd.fd (output.headD {})).toList ++
      slotEvents res timeout slots fds output.tail

/-- The events of the entries when each slot speaks for its own. -/
def ownEvents (res timeout : Int) : List (PollSlot ω) → List PollMask → List (SocketEvent ω)
  | [], _ => []
  | slot :: slots, output =>
    (slot.event? res timeout (output.headD {})).toList ++ ownEvents res timeout slots output.tail

/-- A call of `yaz_poll`. -/
def ManagerCall.polls : ManagerCall ω → Bool
  | .yazPoll _ _ => true
  | _ => false

/-- A call that `processEvent` makes before it notifies. -/
def ManagerCall.polling : ManagerCall ω → Bool
  | .yazPoll _ _ | .putEvent _ _ | .assertFailed => true
  | _ => false

/-! ## The events of the entries -/

theorem PollSlot.observer_of_event? {res timeout : Int} {slot : PollSlot ω} {output : PollMask}
    {ev : SocketEvent ω} (h : slot.event? res timeout output = some ev) :
    ev.observer = slot.observer := by
  unfold PollSlot.event? at h
  split at h
  · cases h; rfl
  · split at h
    · cases h; rfl
    · cases h

/-- Own events are in the order of the entries, one for each at most. -/
theorem ownEvents_sublist (res timeout : Int) (slots : List (PollSlot ω))
    (output : List PollMask) :
    ((ownEvents res timeout slots output).map SocketEvent.observer).Sublist
      (slots.map PollSlot.observer) := by
  induction slots generalizing output with
  | nil => exact .slnil
  | cons slot slots ih =>
    simp only [ownEvents, List.map_append, List.map_cons]
    cases hev : slot.event? res timeout (output.headD {}) with
    | none => exact (ih output.tail).cons _
    | some ev =>
      simp only [Option.toList_some, List.map_cons, List.map_nil, List.singleton_append,
        PollSlot.observer_of_event? hev]
      exact (ih output.tail).cons_cons _

/-- Distinct descriptors: each slot speaks for its own entry. By induction on the part of the
entries that is still to come. -/
theorem slotEvents_distinct {slots : List (PollSlot ω)}
    (distinct : (slots.map PollSlot.fd).Nodup) (res timeout : Int) (part : List (PollSlot ω))
    (fds : List PollFd) (hfds : fds.map PollFd.fd = part.map PollSlot.fd)
    (sub : ∀ slot ∈ part, slot ∈ slots) (output : List PollMask) :
    slotEvents res timeout slots fds output = ownEvents res timeout part output := by
  induction part generalizing fds output with
  | nil =>
    rw [List.map_eq_nil_iff.mp hfds]
    rfl
  | cons slot part ih =>
    obtain ⟨fd, fds, rfl, hfd, hrest⟩ := List.map_eq_cons_iff.mp hfds
    have hslot := sub slot List.mem_cons_self
    have own := find?_key hslot (alone_of_nodup distinct hslot)
    have later := ih fds hrest (fun s hs => sub s (List.mem_cons_of_mem _ hs)) output.tail
    simp only [slotEvents, ownEvents, slotEvent, hfd, own, Option.bind_some, later]

/-- A loop around `yaz_poll` that has ended has polled. -/
theorem pollLoop_pos {pass : Nat} {replies : List PollReply} {polls : Nat} {ended : PollEnd}
    (h : pollLoop pass replies = some (polls, ended)) : 0 < polls := by
  cases replies with
  | nil => cases h
  | cons r rs =>
    unfold pollLoop at h
    split at h
    · split at h
      · cases h
        exact Nat.one_pos
      · obtain ⟨⟨n, e⟩, -, hn⟩ := Option.map_eq_some_iff.mp h
        cases hn
        exact Nat.succ_pos n
    · cases h
      exact Nat.one_pos

namespace SocketManager

/-- The entries of a manager as a poll reads them. -/
def slots (m : SocketManager ω) : List (PollSlot ω) := m.observers.map SocketEntry.slot

theorem slots_map_fd (m : SocketManager ω) :
    m.slots.map PollSlot.fd = m.observers.map SocketEntry.fd :=
  List.map_map

theorem slots_map_observer (m : SocketManager ω) :
    m.slots.map PollSlot.observer = m.registered :=
  List.map_map

/-- The entry that a descriptor is matched to, read through its slot. -/
theorem find?_slots (m : SocketManager ω) (fd : Int) :
    (m.slots.find? fun slot => slot.fd = fd) =
      (m.observers.find? fun e => e.fd = fd).map SocketEntry.slot := by
  unfold slots
  rw [List.find?_map]
  rfl

/-- Building the poll set keeps the descriptors. -/
@[simp] theorem arm_fds (now : Int) (m : SocketManager ω) :
    (m.arm now).observers.map SocketEntry.fd = m.observers.map SocketEntry.fd := by
  show (m.observers.map (SocketEntry.arm now)).map SocketEntry.fd = _
  rw [List.map_map]
  apply List.map_congr_left
  intro e _
  exact e.arm_fd now

/-! ## What a poll puts -/

/-- What one turn of the inspection, or several of them, do: `puts` goes to the back of the queue,
and what a poll reads of the entries stays. -/
structure Puts (m : SocketManager ω) (o : Managed ω) (puts : List (SocketEvent ω)) : Prop where
  slots : o.manager.slots = m.slots
  queue : o.manager.queue = m.queue ++ puts
  puts : o.calls.filterMap ManagerCall.put? = puts
  polling : ∀ c ∈ o.calls, c.polling = true

/-- One inspection after another. -/
theorem Puts.append {m : SocketManager ω} {o o' : Managed ω} {puts puts' : List (SocketEvent ω)}
    (first : Puts m o puts) (rest : Puts o.manager o' puts') :
    Puts m { o' with calls := o.calls ++ o'.calls } (puts ++ puts') where
  slots := rest.slots.trans first.slots
  queue := by rw [rest.queue, first.queue, List.append_assoc]
  puts := by rw [List.filterMap_append, first.puts, rest.puts]
  polling := by
    intro c hc
    rcases List.mem_append.mp hc with hc | hc
    · exact first.polling c hc
    · exact rest.polling c hc

/-- The timeout of a manager's next poll. -/
def pollTimeout (now : Int) (m : SocketManager ω) : Int :=
  m.observers.foldl (SocketEntry.least now) (-1)

/-- The poll set of a manager. -/
def pollSet (m : SocketManager ω) : List PollFd := m.observers.map SocketEntry.pollFd

/-- What a poll of this manager puts for a reply. -/
def pollEvents (now : Int) (reply : PollReply) (m : SocketManager ω) : List (SocketEvent ω) :=
  slotEvents reply.res (m.pollTimeout now) (m.arm now).slots m.pollSet reply.output

/-- Where the descriptors are distinct, what a poll puts are the entries' own events. -/
theorem pollEvents_own {m : SocketManager ω} (distinct : (m.observers.map SocketEntry.fd).Nodup)
    (now : Int) (reply : PollReply) : m.pollEvents now reply =
      ownEvents reply.res (m.pollTimeout now) (m.arm now).slots reply.output := by
  apply slotEvents_distinct
  · rw [slots_map_fd, arm_fds]
    exact distinct
  · rw [slots_map_fd, arm_fds]
    exact List.map_map
  · exact fun _ hs => hs

/-- Nobody is lost: the entries that the set was built from are still there. -/
theorem none_lost (now : Int) (m : SocketManager ω) :
    (m.pollSet.any fun fd => ((m.arm now).observers.find? fun p => p.fd = fd.fd).isNone) =
      false := by
  rw [List.any_eq_false]
  intro fd hfd
  obtain ⟨e, he, rfl⟩ := List.mem_map.mp hfd
  have hmem : e.fd ∈ (m.arm now).observers.map SocketEntry.fd :=
    arm_fds now m ▸ List.mem_map_of_mem he
  obtain ⟨p, hp, hfd⟩ := List.mem_map.mp hmem
  rw [Option.isNone_iff_eq_none, List.find?_eq_none]
  intro h
  exact h p hp (decide_eq_true hfd)

/-- The front of what was put is notified, and an empty queue is unhandled. -/
theorem notifyFront_eq (m : SocketManager ω) (otherwise : List (ManagerCall ω)) :
    (m.notifyFront otherwise).manager.queue = m.queue.tail ∧
      (m.notifyFront otherwise).calls =
        m.queue.head?.elim otherwise fun ev => [.socketNotify ev.observer ev.event] := by
  unfold notifyFront
  split
  · next hq =>
    rw [hq]
    exact ⟨rfl, rfl⟩
  · next hq =>
    rw [hq]
    exact ⟨rfl, rfl⟩

variable [DecidableEq ω]

/-- An activity is not what a poll reads. -/
theorem slots_touch (m : SocketManager ω) (observer : ω) (now : Int) :
    (m.assign observer (fun e => { e with lastActivity := now }) fun _ => rfl).slots =
      m.slots := by
  show (m.observers.map _).map SocketEntry.slot = _
  rw [List.map_map]
  apply List.map_congr_left
  intro e _
  show SocketEntry.slot (if e.observer = observer then _ else e) = e.slot
  split <;> rfl

theorem inspectFd_puts (res timeout now fd : Int) (output : PollMask) (m : SocketManager ω) :
    Puts m (m.inspectFd res timeout now fd output)
      (slotEvent res timeout m.slots fd output).toList := by
  unfold slotEvent inspectFd
  rw [find?_slots]
  cases hfind : m.observers.find? fun e => e.fd = fd with
  | none => exact ⟨rfl, (List.append_nil _).symm, rfl, List.forall_mem_nil _⟩
  | some p =>
    dsimp only [Option.map_some, Option.bind_some, SocketEntry.slot, PollSlot.event?]
    have touched := slots_touch m p.observer now
    by_cases hev : output.events ≠ 0
    · rw [if_pos hev, if_pos hev]
      exact ⟨touched, rfl, rfl, List.forall_mem_singleton.mpr rfl⟩
    rw [if_neg hev, if_neg hev]
    by_cases hto : res = 0 ∧ p.timeoutThis = timeout
    · rw [if_pos hto, if_pos hto]
      split
      · refine ⟨touched, rfl, rfl, ?_⟩
        exact List.forall_mem_cons.mpr ⟨rfl, List.forall_mem_singleton.mpr rfl⟩
      · exact ⟨touched, rfl, rfl, List.forall_mem_singleton.mpr rfl⟩
    · rw [if_neg hto, if_neg hto]
      exact ⟨rfl, (List.append_nil _).symm, rfl, List.forall_mem_nil _⟩

theorem inspectFds_puts (res timeout now : Int) (fds : List PollFd) (output : List PollMask)
    (m : SocketManager ω) :
    Puts m (m.inspectFds res timeout now fds output)
      (slotEvents res timeout m.slots fds output) := by
  induction fds generalizing output m with
  | nil => exact ⟨rfl, (List.append_nil _).symm, rfl, List.forall_mem_nil _⟩
  | cons fd fds ih =>
    have first := inspectFd_puts res timeout now fd.fd (output.headD {}) m
    have rest := ih output.tail (m.inspectFd res timeout now fd.fd (output.headD {})).manager
    rw [first.slots] at rest
    exact first.append rest

/-- What `processEvent` does when its poll answered: the events `puts` are put, and the first of
them is notified; with none, the poll is unhandled. -/
structure Polled (res : Int) (puts : List (SocketEvent ω)) (o : Managed ω) : Prop where
  queue : o.manager.queue = puts.tail
  calls : ∃ made, made.filterMap ManagerCall.put? = puts ∧ (∀ c ∈ made, c.polling = true) ∧
    o.calls = made ++ (puts.head?.elim [.unhandled res] fun ev =>
      [.socketNotify ev.observer ev.event])

/-- A call that polls has found the queue empty and somebody registered. -/
theorem processEvent_polling {now later : Int} {replies : List PollReply} {m : SocketManager ω}
    {o : Managed ω} (call : m.processEvent now replies later = some o)
    (polled : ∃ c ∈ o.calls, c.polls = true) : m.queue = [] ∧ m.observers ≠ [] := by
  obtain ⟨c, hc, hpolls⟩ := polled
  unfold processEvent at call
  split at call
  · cases call
    obtain ⟨-, hcalls⟩ := notifyFront_eq m []
    rw [hcalls] at hc
    cases hq : m.queue with
    | nil => simp [hq] at hc
    | cons ev queue =>
      simp only [hq, List.head?_cons, Option.elim_some, List.mem_singleton] at hc
      rw [hc] at hpolls
      cases hpolls
  · next idle =>
    split at call
    · cases call
      cases hc
    · next observed => exact ⟨Classical.not_not.mp idle, observed⟩

/-- **A call that polls**, with an answer that ends its loop: exactly the events of the poll are
put, and the first is notified. -/
theorem processEvent_polled {now later : Int} {replies : List PollReply} {polls : Nat}
    {reply : PollReply} {m : SocketManager ω} {o : Managed ω}
    (call : m.processEvent now replies later = some o) (polled : ∃ c ∈ o.calls, c.polls = true)
    (ended : pollLoop 0 replies = some (polls, .polled reply)) (answered : 0 ≤ reply.res) :
    Polled reply.res (m.pollEvents now reply) o := by
  obtain ⟨idle, observed⟩ := processEvent_polling call polled
  clear polled
  let put := (m.arm now).inspectFds reply.res (m.pollTimeout now) later m.pollSet reply.output
  have hput : Puts (m.arm now) put (m.pollEvents now reply) := inspectFds_puts ..
  have hqueue : put.manager.queue = m.pollEvents now reply := by
    rw [hput.queue, show (m.arm now).queue = [] from idle, List.nil_append]
  obtain ⟨hleft, hnotified⟩ := notifyFront_eq put.manager [.unhandled reply.res]
  have same : (m.arm now).inspectPollResult reply m.pollSet (m.pollTimeout now) later =
      { put.manager.notifyFront [.unhandled reply.res] with
        calls := put.calls ++ (put.manager.notifyFront [.unhandled reply.res]).calls } := by
    simp only [inspectPollResult, none_lost, Bool.false_eq_true, if_false]
    rfl
  let made := List.replicate polls (.yazPoll m.pollSet (m.pollTimeout now)) ++ put.calls
  have polled : ∀ c ∈ List.replicate polls (ManagerCall.yazPoll (ω := ω) m.pollSet
      (m.pollTimeout now)), c.put? = none ∧ c.polling = true := by
    intro c hc
    rw [List.eq_of_mem_replicate hc]
    exact ⟨rfl, rfl⟩
  have hcall : o = { (m.arm now).inspectPollResult reply m.pollSet (m.pollTimeout now) later with
      calls := List.replicate polls (.yazPoll m.pollSet (m.pollTimeout now)) ++
        ((m.arm now).inspectPollResult reply m.pollSet (m.pollTimeout now) later).calls
      ret := 1 } := by
    simp only [processEvent, idle, ne_eq, not_true_eq_false, if_false, observed, ended,
      Option.map_some, answered, if_true, Option.some.injEq] at call
    exact call.symm
  rw [hcall, same]
  refine ⟨hqueue ▸ hleft, made, ?_, ?_, ?_⟩
  · have hnone := List.filterMap_eq_nil_iff.mpr fun c hc => (polled c hc).1
    rw [List.filterMap_append, hnone, hput.puts, List.nil_append]
  · intro c hc
    rcases List.mem_append.mp hc with hc | hc
    · exact (polled c hc).2
    · exact hput.polling c hc
  · show _ ++ (put.calls ++ (put.manager.notifyFront _).calls) = _
    rw [hnotified, hqueue, List.append_assoc]

end SocketManager

end Yazpp
