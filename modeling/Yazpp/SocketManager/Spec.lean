import Yazpp.SocketManager.Model

/-!
# What each operation of `SocketManager` can do

Who is registered and what is queued behind each operation. `Processed` is the whole of what
`processEvent` does to entries and queue: nothing, or it puts events for registered observers at
the back and notifies the front. Every later proof is a case analysis on it, and none looks at a
poll again.
-/

set_option autoImplicit false

namespace Yazpp

open Yazpp.Lib

variable {ω : Type}

/-- The event that a call puts in the queue. -/
def ManagerCall.put? : ManagerCall ω → Option (SocketEvent ω)
  | .putEvent observer event => some { observer := observer, event := event }
  | _ => none

/-- A call that adds, deletes and notifies nobody. -/
def ManagerCall.silent : ManagerCall ω → Bool
  | .added _ | .deleted _ | .socketNotify _ _ => false
  | _ => true

@[simp] theorem SocketEntry.arm_observer (now : Int) (e : SocketEntry ω) :
    (e.arm now).observer = e.observer := by
  unfold arm
  split <;> rfl

@[simp] theorem SocketEntry.arm_fd (now : Int) (e : SocketEntry ω) : (e.arm now).fd = e.fd := by
  unfold arm
  split <;> rfl

namespace SocketManager

/-- The registered observers. -/
def registered (m : SocketManager ω) : List ω := m.observers.map SocketEntry.observer

theorem registered_of_map {m : SocketManager ω} {f : SocketEntry ω → SocketEntry ω}
    (same : ∀ e, (f e).observer = e.observer) :
    (m.observers.map f).map SocketEntry.observer = m.registered := by
  rw [List.map_map]
  exact List.map_congr_left fun e _ => same e

@[simp] theorem registered_arm (now : Int) (m : SocketManager ω) :
    (m.arm now).registered = m.registered :=
  registered_of_map (SocketEntry.arm_observer now)

/-! ## What one call of `processEvent` comes to -/

/-- What the poll and its inspection do to entries and queue: the events `puts`, each for a
registered observer, are put at the back. Nobody is added, deleted or notified. -/
structure Inspected (m : SocketManager ω) (o : Managed ω) (puts : List (SocketEvent ω)) :
    Prop where
  registered : o.manager.registered = m.registered
  queue : o.manager.queue = m.queue ++ puts
  owned : ∀ ev ∈ puts, ev.observer ∈ m.registered
  puts : o.calls.filterMap ManagerCall.put? = puts
  silent : ∀ c ∈ o.calls, c.silent = true

/-- Nothing is inspected. -/
theorem Inspected.none (m : SocketManager ω) : Inspected m { manager := m } [] :=
  ⟨rfl, (List.append_nil _).symm, List.forall_mem_nil _, rfl, List.forall_mem_nil _⟩

/-- One inspection after another. -/
theorem Inspected.append {m : SocketManager ω} {o o' : Managed ω}
    {puts puts' : List (SocketEvent ω)} (first : Inspected m o puts)
    (rest : Inspected o.manager o' puts') :
    Inspected m { o' with calls := o.calls ++ o'.calls } (puts ++ puts') where
  registered := rest.registered.trans first.registered
  queue := by rw [rest.queue, first.queue, List.append_assoc]
  owned := by
    intro ev hev
    rcases List.mem_append.mp hev with hev | hev
    · exact first.owned ev hev
    · exact first.registered ▸ rest.owned ev hev
  puts := by rw [List.filterMap_append, first.puts, rest.puts]
  silent := by
    intro c hc
    rcases List.mem_append.mp hc with hc | hc
    · exact first.silent c hc
    · exact rest.silent c hc

/-- What `processEvent` does to entries and queue: nothing, or it puts events for registered
observers and notifies the front. -/
inductive Processed (m : SocketManager ω) : Managed ω → Prop
  | nothing {o : Managed ω} : o.manager.registered = m.registered → o.manager.queue = m.queue →
      (∀ c ∈ o.calls, c.silent = true) → o.calls.filterMap ManagerCall.put? = [] → Processed m o
  | notified {o : Managed ω} {made : List (ManagerCall ω)} (puts : List (SocketEvent ω))
      (ev : SocketEvent ω) : o.manager.registered = m.registered →
      (∀ e ∈ puts, e.observer ∈ m.registered) → m.queue ++ puts = ev :: o.manager.queue →
      made.filterMap ManagerCall.put? = puts → (∀ c ∈ made, c.silent = true) →
      o.calls = made ++ [.socketNotify ev.observer ev.event] → Processed m o

/-- Behind an inspection, the front is notified. -/
theorem Inspected.notifyFront {m : SocketManager ω} {o : Managed ω} {puts : List (SocketEvent ω)}
    (inspected : Inspected m o puts) (otherwise : List (ManagerCall ω)) (ret : Int)
    (silent : ∀ c ∈ otherwise, c.silent = true)
    (quiet : otherwise.filterMap ManagerCall.put? = []) :
    Processed m { o.manager.notifyFront otherwise with
      calls := o.calls ++ (o.manager.notifyFront otherwise).calls, ret := ret } := by
  cases hq : o.manager.queue with
  | nil =>
    have hboth := inspected.queue.symm.trans hq
    obtain ⟨hm, rfl⟩ := List.append_eq_nil_iff.mp hboth
    have same : o.manager.notifyFront otherwise =
        { manager := o.manager, calls := otherwise, ret := 1 } := by
      simp only [SocketManager.notifyFront, hq]
    rw [same]
    refine .nothing inspected.registered (hq.trans hm.symm) ?_ ?_
    · intro c hc
      exact (List.mem_append.mp hc).elim (inspected.silent c) (silent c)
    · rw [List.filterMap_append, inspected.puts, quiet, List.append_nil]
  | cons ev queue =>
    have same : o.manager.notifyFront otherwise =
        { manager := { o.manager with queue := queue }
          calls := [.socketNotify ev.observer ev.event], ret := 1 } := by
      simp only [SocketManager.notifyFront, hq]
    rw [same]
    exact .notified puts ev inspected.registered inspected.owned
      (inspected.queue.symm.trans hq) inspected.puts inspected.silent rfl

/-! ## One operation -/

variable [DecidableEq ω]

@[simp] theorem registered_assign (m : SocketManager ω) (o : ω)
    (f : SocketEntry ω → SocketEntry ω) (same : ∀ e, (f e).observer = e.observer) :
    (m.assign o f same).registered = m.registered := by
  apply registered_of_map
  intro e
  split
  · exact same e
  · rfl

theorem lookupObserver_isSome {m : SocketManager ω} {o : ω} :
    (m.lookupObserver o).isSome = true ↔ o ∈ m.registered := by
  simp only [lookupObserver, registered, List.find?_isSome, List.mem_map, decide_eq_true_eq]

/-- `addObserver` registers its observer, and nobody else. -/
theorem registered_addObserver {m : SocketManager ω} {fd : Int} {o o' : ω} :
    o' ∈ (m.addObserver fd o).manager.registered ↔ o' = o ∨ o' ∈ m.registered := by
  simp only [addObserver]
  split
  · next e found =>
    have ho : o ∈ m.registered := lookupObserver_isSome.mp (found ▸ rfl)
    rw [registered_assign]
    refine ⟨.inr, ?_⟩
    rintro (rfl | h)
    · exact ho
    · exact h
  · exact List.mem_cons

theorem queue_addObserver (m : SocketManager ω) (fd : Int) (o : ω) :
    (m.addObserver fd o).manager.queue = m.queue := by
  simp only [addObserver]
  split <;> rfl

/-- `deleteObserver` unregisters its observer, which had one entry, and nobody else. -/
theorem registered_deleteObserver {m : SocketManager ω} {o o' : ω} :
    o' ∈ (m.deleteObserver o).manager.registered ↔ o' ≠ o ∧ o' ∈ m.registered := by
  have erased : ∀ {es : List (SocketEntry ω)}, (es.map SocketEntry.observer).Nodup →
      (es.eraseP fun e => e.observer = o).map SocketEntry.observer =
        (es.map SocketEntry.observer).erase o := by
    intro es nodup
    induction es with
    | nil => rfl
    | cons e es ih =>
      by_cases he : e.observer = o
      · simp [he]
      · simp [he, ih (List.nodup_cons.mp nodup).2]
  simp only [deleteObserver]
  split
  · show o' ∈ (m.observers.eraseP _).map SocketEntry.observer ↔ _
    rw [erased m.nodup, m.nodup.mem_erase_iff]
    rfl
  · next hnone =>
    refine ⟨fun h => ⟨?_, h⟩, fun h => h.2⟩
    rintro rfl
    exact hnone (lookupObserver_isSome.mpr h)

/-- `deleteObserver` takes the events of a registered observer out, and leaves the others. -/
theorem mem_queue_deleteObserver {m : SocketManager ω} {o : ω} {ev : SocketEvent ω} :
    ev ∈ (m.deleteObserver o).manager.queue ↔
      ev ∈ m.queue ∧ (o ∈ m.registered → ev.observer ≠ o) := by
  simp only [deleteObserver]
  split
  · next hsome =>
    have ho : o ∈ m.registered := lookupObserver_isSome.mp hsome
    simp only [removeEvent, List.mem_filter, decide_eq_true_eq, ho, true_implies]
  · next hnone =>
    have ho : o ∉ m.registered := fun h => hnone (lookupObserver_isSome.mpr h)
    simp only [ho, false_implies, and_true]

/-! ## `processEvent` -/

/-- One descriptor puts one event at most, for the observer of an entry. -/
theorem inspectFd_inspected (res timeout now fd : Int) (output : PollMask) (m : SocketManager ω) :
    ∃ puts, Inspected m (m.inspectFd res timeout now fd output) puts := by
  unfold inspectFd
  split
  · exact ⟨[], .none m⟩
  next p found =>
  have owned : p.observer ∈ m.registered := List.mem_map_of_mem (List.mem_of_find?_eq_some found)
  have put : ∀ ev : SocketEvent ω, ev.observer = p.observer → ∀ calls : List (ManagerCall ω),
      calls.filterMap ManagerCall.put? = [ev] → (∀ c ∈ calls, c.silent = true) →
      ∃ puts, Inspected m
        { manager := ((m.assign p.observer (fun e => { e with lastActivity := now })
            fun _ => rfl).putEvent ev).manager
          calls := calls } puts := by
    intro ev hev calls hputs silent
    refine ⟨[ev], ?_, rfl, ?_, hputs, silent⟩
    · exact registered_assign m p.observer (fun e => { e with lastActivity := now }) fun _ => rfl
    · intro ev' hev'
      rw [List.mem_singleton.mp hev', hev]
      exact owned
  dsimp only
  split
  · exact put _ rfl _ rfl (List.forall_mem_singleton.mpr rfl)
  · split
    · split
      · apply put { observer := p.observer, event := observeTimeout } rfl _ rfl
        exact List.forall_mem_cons.mpr ⟨rfl, List.forall_mem_singleton.mpr rfl⟩
      · exact put _ rfl _ rfl (List.forall_mem_singleton.mpr rfl)
    · exact ⟨[], .none m⟩

/-- The loop over the poll set, by induction on the set. -/
theorem inspectFds_inspected (res timeout now : Int) (fds : List PollFd) (output : List PollMask)
    (m : SocketManager ω) :
    ∃ puts, Inspected m (m.inspectFds res timeout now fds output) puts := by
  induction fds generalizing output m with
  | nil => exact ⟨[], .none m⟩
  | cons fd fds ih =>
    obtain ⟨puts, first⟩ := inspectFd_inspected res timeout now fd.fd (output.headD {}) m
    obtain ⟨puts', rest⟩ :=
      ih output.tail (m.inspectFd res timeout now fd.fd (output.headD {})).manager
    exact ⟨puts ++ puts', first.append rest⟩

theorem processEvent_processed {now later : Int} {replies : List PollReply}
    {m : SocketManager ω} {o : Managed ω} (h : m.processEvent now replies later = some o) :
    Processed m o := by
  unfold processEvent at h
  split at h
  · next hq =>
    -- a queued event is notified without a poll
    have front := (Inspected.none m).notifyFront [] 1 (List.forall_mem_nil _) rfl
    have same : o =
        { m.notifyFront [] with calls := [] ++ (m.notifyFront []).calls, ret := 1 } := by
      rw [← Option.some.inj h]
      unfold SocketManager.notifyFront
      split <;> rfl
    exact same ▸ front
  split at h
  · cases h
    exact .nothing rfl rfl (List.forall_mem_nil _) rfl
  next hq _ =>
  have empty : m.queue = [] := Classical.not_not.mp hq
  obtain ⟨⟨polls, ended⟩, hloop, rfl⟩ := Option.map_eq_some_iff.mp h
  have polled : ∀ c ∈ List.replicate polls (ManagerCall.yazPoll (ω := ω)
      (m.observers.map SocketEntry.pollFd) (m.observers.foldl (SocketEntry.least now) (-1))),
      c.silent = true ∧ c.put? = none := by
    intro c hc
    rw [List.eq_of_mem_replicate hc]
    exact ⟨rfl, rfl⟩
  have armed : Inspected m
      { manager := m.arm now
        calls := List.replicate polls (.yazPoll (m.observers.map SocketEntry.pollFd)
          (m.observers.foldl (SocketEntry.least now) (-1))) } [] :=
    ⟨registered_arm now m, (List.append_nil _).symm, List.forall_mem_nil _,
      List.filterMap_eq_nil_iff.mpr fun c hc => (polled c hc).2, fun c hc => (polled c hc).1⟩
  cases ended with
  | interrupted => exact .nothing armed.registered rfl armed.silent armed.puts
  | polled reply =>
    dsimp only
    split
    · obtain ⟨puts, inspected⟩ := inspectFds_inspected reply.res
        (m.observers.foldl (SocketEntry.least now) (-1)) later
        (m.observers.map SocketEntry.pollFd) reply.output (m.arm now)
      have processed := (armed.append inspected).notifyFront
        (if (m.observers.map SocketEntry.pollFd).any (fun fd =>
          ((m.arm now).observers.find? fun p => p.fd = fd.fd).isNone) then []
          else [.unhandled reply.res]) 1 (by split <;> simp [ManagerCall.silent])
        (by split <;> rfl)
      simpa only [inspectPollResult, List.append_assoc] using processed
    · exact .nothing armed.registered rfl armed.silent armed.puts

end SocketManager

end Yazpp
