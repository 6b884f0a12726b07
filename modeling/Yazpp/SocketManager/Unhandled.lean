import Yazpp.SocketManager.Poll

/-!
# When a poll is handled

A poll that returns more than 0 always puts an event, for the first entry of a ready descriptor. A
poll that returns 0 puts a timeout event for a slot only when the FIRST entry of its descriptor is
one whose time is up. So an entry whose time is up gets its one event exactly when it shares its
descriptor with no other entry (`handled_iff_alone`): behind another entry of the same descriptor
it is never found, and where it is the first it gets one event for each of the entries that share.
With several observers added without a descriptor, all of them have the descriptor -1.
-/

set_option autoImplicit false

namespace Yazpp

open Yazpp.Lib

variable {ω : Type}

/-- What `yaz_poll` promises of its answers: it ignores the descriptor -1, it returns more than 0
only when a descriptor is ready, and it returns 0 only when none is and a timeout was set. -/
structure PollReply.Sound (fds : List PollFd) (timeout : Int) (reply : PollReply) : Prop where
  ignored : ∀ i, (fds[i]?.map PollFd.fd) = some (-1) → (reply.output.getD i {}).events = 0
  ready : 0 < reply.res → ∃ i < fds.length, (reply.output.getD i {}).events ≠ 0
  expired : reply.res = 0 → 0 ≤ timeout ∧ ∀ i, (reply.output.getD i {}).events = 0

/-- A poll whose timeout expired. -/
theorem PollReply.sound_expired {fds : List PollFd} {timeout : Int} (waits : 0 ≤ timeout) :
    PollReply.Sound fds timeout { res := 0 } where
  ignored _ _ := congrArg PollMask.events List.getD_nil
  ready h := absurd h (by decide)
  expired _ := ⟨waits, fun _ => congrArg PollMask.events List.getD_nil⟩

namespace SocketManager

/-- An entry whose time is up when the poll returns 0: its own remaining time is the timeout of the
poll. -/
def Due (now : Int) (m : SocketManager ω) (e : SocketEntry ω) : Prop :=
  e ∈ m.observers ∧ e.timed = true ∧ e.remaining now = m.pollTimeout now

/-- A poll is handled: somebody is notified, the unhandled branch is not taken, and when it
returned 0, an observer gets one timeout event when its time is up and none otherwise. -/
structure Handled [DecidableEq ω] (now : Int) (reply : PollReply) (m : SocketManager ω)
    (o : Managed ω) : Prop where
  notified : ∃ observer event, .socketNotify observer event ∈ o.calls
  handled : ∀ res, .unhandled res ∉ o.calls
  due : reply.res = 0 → ∀ e, m.Due now e → o.calls.count (.putEvent e.observer observeTimeout) = 1
  others : reply.res = 0 → ∀ observer, (∀ e, m.Due now e → e.observer ≠ observer) →
    o.calls.count (.putEvent observer observeTimeout) = 0

/-! ## The timeout of the poll -/

/-- The timeout of a poll is the remaining time of a timed entry, unless it is the one that the
loop started with. By induction on the entries, for any start. -/
theorem foldl_least (now : Int) (es : List (SocketEntry ω)) (timeout : Int) :
    es.foldl (SocketEntry.least now) timeout = timeout ∨
      ∃ e ∈ es, e.timed = true ∧ e.remaining now = es.foldl (SocketEntry.least now) timeout := by
  induction es generalizing timeout with
  | nil => exact .inl rfl
  | cons e es ih =>
    rw [List.foldl_cons]
    rcases ih (SocketEntry.least now timeout e) with same | ⟨e', he', htimed, hleast⟩
    · rw [same]
      unfold SocketEntry.least
      split
      · next h => exact .inr ⟨e, List.mem_cons_self, h.1, rfl⟩
      · exact .inl rfl
    · exact .inr ⟨e', List.mem_cons_of_mem _ he', htimed, hleast⟩

/-- A poll with a timeout waits for somebody. -/
theorem exists_due {now : Int} {m : SocketManager ω} (h : 0 ≤ m.pollTimeout now) :
    ∃ e, m.Due now e := by
  rcases foldl_least now m.observers (-1) with none | ⟨e, he, htimed, hleast⟩
  · have h' : m.pollTimeout now = -1 := none
    omega
  · exact ⟨e, he, htimed, hleast⟩

/-- The slot of an entry whose time is up is one that waited for as long as the poll. -/
theorem due_iff {now : Int} {m : SocketManager ω} (h : 0 ≤ m.pollTimeout now)
    {e : SocketEntry ω} (he : e ∈ m.observers) :
    m.Due now e ↔ (e.arm now).slot.timeoutThis = m.pollTimeout now := by
  unfold Due SocketEntry.arm SocketEntry.slot
  by_cases htimed : e.timed = true
  · simp only [htimed, if_true, he, true_and]
  · simp only [htimed, if_false, he, true_and, false_and, Bool.false_eq_true, false_iff]
    omega

/-! ## What a poll that returns 0 puts -/

/-- With no descriptor ready, a slot gives an event when its first entry has waited for as long as
the poll. -/
theorem slotEvents_expired (timeout : Int) (slots : List (PollSlot ω)) (fds : List PollFd)
    (output : List PollMask) (empty : ∀ i, (output.getD i {}).events = 0) :
    slotEvents 0 timeout slots fds output =
      fds.filterMap fun fd => slotEvent 0 timeout slots fd.fd {} := by
  induction fds generalizing output with
  | nil => rfl
  | cons fd fds ih =>
    have hhead : (output.headD {}).events = 0 := by
      have := empty 0
      cases output <;> exact this
    have htail : ∀ i, (output.tail.getD i {}).events = 0 := by
      intro i
      have := empty (i + 1)
      cases output <;> exact this
    have same : ∀ slot : PollSlot ω,
        slot.event? 0 timeout (output.headD {}) = slot.event? 0 timeout {} := by
      intro slot
      have hnone : ({} : PollMask).events = 0 := rfl
      simp only [PollSlot.event?, hhead, hnone, ne_eq, not_true_eq_false, if_false]
    simp only [slotEvents, slotEvent, same, ih output.tail htail, List.filterMap_cons]
    cases (slots.find? fun slot => slot.fd = fd.fd).bind fun slot =>
      slot.event? 0 timeout {} <;> rfl

/-- Whom a slot's event is for: its first entry. -/
theorem slotEvent_expired_iff {timeout : Int} {slots : List (PollSlot ω)} {fd : Int}
    {observer : ω} :
    slotEvent 0 timeout slots fd {} = some { observer := observer, event := observeTimeout } ↔
      ∃ slot, (slots.find? fun s => s.fd = fd) = some slot ∧ slot.timeoutThis = timeout ∧
        slot.observer = observer := by
  have hevent : ∀ slot : PollSlot ω, slot.event? 0 timeout {} =
      if slot.timeoutThis = timeout then
        some { observer := slot.observer, event := observeTimeout } else none := by
    intro slot
    have hnone : ({} : PollMask).events = 0 := rfl
    simp only [PollSlot.event?, hnone, ne_eq, not_true_eq_false, if_false, true_and]
  simp only [slotEvent, Option.bind_eq_some_iff, hevent]
  refine exists_congr fun slot => and_congr_right fun _ => ?_
  split
  · next h => simp only [Option.some.injEq, SocketEvent.mk.injEq, and_true, h, true_and]
  · next h => simp only [reduceCtorEq, h, false_and]

/-! ## What a poll that returns more than 0 puts -/

/-- A ready descriptor gives an event, if the entries have it. By induction on the poll set. -/
theorem slotEvents_ne_nil {res timeout : Int} {slots : List (PollSlot ω)} {fds : List PollFd}
    {output : List PollMask} {i : Nat} (known : ∀ fd ∈ fds, ∃ slot ∈ slots, slot.fd = fd.fd)
    (hi : i < fds.length) (ready : (output.getD i {}).events ≠ 0) :
    slotEvents res timeout slots fds output ≠ [] := by
  induction fds generalizing output i with
  | nil => exact absurd hi (Nat.not_lt_zero i)
  | cons fd fds ih =>
    intro none
    obtain ⟨first, rest⟩ := List.append_eq_nil_iff.mp none
    cases i with
    | zero =>
      obtain ⟨slot, hslot, hfd⟩ := known fd List.mem_cons_self
      have hhead : (output.headD {}).events ≠ 0 := by
        cases output <;> exact ready
      cases hfind : slots.find? fun slot => slot.fd = fd.fd with
      | none => exact List.find?_eq_none.mp hfind slot hslot (decide_eq_true hfd)
      | some slot =>
        simp only [slotEvent, hfind, Option.bind_some, PollSlot.event?, if_pos hhead,
          Option.toList_some, reduceCtorEq] at first
    | succ i =>
      have htail : (output.tail.getD i {}).events ≠ 0 := by
        cases output <;> exact ready
      exact ih (fun fd hfd => known fd (List.mem_cons_of_mem _ hfd)) (Nat.lt_of_succ_lt_succ hi)
        htail rest

/-- Somebody is notified, and the poll is not unhandled, when an event was put. -/
theorem Polled.told {res : Int} {puts : List (SocketEvent ω)} {o : Managed ω}
    (polled : Polled res puts o) (some_put : puts ≠ []) :
    (∃ observer event, .socketNotify observer event ∈ o.calls) ∧
      ∀ res, .unhandled res ∉ o.calls := by
  obtain ⟨made, -, hmade, hcalls⟩ := polled.calls
  obtain ⟨ev, rest, rfl⟩ := List.exists_cons_of_ne_nil some_put
  rw [hcalls]
  refine ⟨⟨ev.observer, ev.event, List.mem_append_right _ (List.mem_singleton.mpr rfl)⟩, ?_⟩
  intro res hmem
  rcases List.mem_append.mp hmem with hmem | hmem
  · exact Bool.noConfusion (hmade _ hmem)
  · cases List.mem_singleton.mp hmem

variable [DecidableEq ω]

/-- How many timeout events a poll that returns 0 puts for an observer: one for each slot whose
first entry is one of its own that has waited for as long as the poll. -/
theorem count_expired {now : Int} {m : SocketManager ω} {reply : PollReply}
    (returned : reply.res = 0) (empty : ∀ i, (reply.output.getD i {}).events = 0) (observer : ω) :
    (m.pollEvents now reply).count { observer := observer, event := observeTimeout } =
      (m.arm now).slots.countP fun z =>
        slotEvent 0 (m.pollTimeout now) (m.arm now).slots z.fd {} =
          some { observer := observer, event := observeTimeout } := by
  have fds : m.pollSet.map PollFd.fd = (m.arm now).slots.map PollSlot.fd := by
    rw [slots_map_fd, arm_fds]
    exact List.map_map
  unfold pollEvents
  rw [returned, slotEvents_expired _ _ _ _ empty,
    show (fun fd : PollFd => slotEvent 0 (m.pollTimeout now) (m.arm now).slots fd.fd {}) =
      (fun fd => slotEvent 0 (m.pollTimeout now) (m.arm now).slots fd {}) ∘ PollFd.fd from rfl,
    ← List.filterMap_map, fds, List.filterMap_map, List.count_filterMap]
  apply List.countP_congr
  intro z _
  simp

/-- An observer without an entry whose time is up gets no timeout event. -/
theorem count_expired_other {now : Int} {m : SocketManager ω} {reply : PollReply}
    (returned : reply.res = 0) (empty : ∀ i, (reply.output.getD i {}).events = 0)
    (waits : 0 ≤ m.pollTimeout now) {observer : ω}
    (other : ∀ e, m.Due now e → e.observer ≠ observer) :
    (m.pollEvents now reply).count { observer := observer, event := observeTimeout } = 0 := by
  rw [count_expired returned empty, List.countP_eq_zero]
  intro z _ hz
  obtain ⟨slot, hfind, hslot, hobs⟩ := slotEvent_expired_iff.mp (of_decide_eq_true hz)
  obtain ⟨armed, harmed, rfl⟩ := List.mem_map.mp (List.mem_of_find?_eq_some hfind)
  obtain ⟨e, he, rfl⟩ := List.mem_map.mp harmed
  refine other e ((due_iff waits he).mpr hslot) ?_
  rw [← hobs]
  exact (e.arm_observer now).symm

/-- An entry whose time is up gets its one timeout event exactly when it has its descriptor
alone. -/
theorem count_expired_due {now : Int} {m : SocketManager ω} {reply : PollReply}
    (returned : reply.res = 0) (empty : ∀ i, (reply.output.getD i {}).events = 0)
    (waits : 0 ≤ m.pollTimeout now) {e : SocketEntry ω} (due : m.Due now e) :
    (m.pollEvents now reply).count { observer := e.observer, event := observeTimeout } = 1 ↔
      ∀ e' ∈ m.observers, e'.fd = e.fd → e' = e := by
  let slots := (m.arm now).slots
  have observers : (slots.map PollSlot.observer).Nodup := by
    rw [slots_map_observer, registered_arm]
    exact m.nodup
  have nodup : slots.Nodup :=
    (List.pairwise_map.mp observers).imp fun hne heq => hne (congrArg _ heq)
  have slot_mem : ∀ e' ∈ m.observers, (e'.arm now).slot ∈ slots := fun e' he' =>
    List.mem_map_of_mem (List.mem_map_of_mem he')
  have slot_observer : ∀ e' : SocketEntry ω, (e'.arm now).slot.observer = e'.observer := fun e' =>
    e'.arm_observer now
  -- the events of this observer are those of the slots that find this entry
  have found : ∀ z ∈ slots,
      decide (slotEvent 0 (m.pollTimeout now) slots z.fd {} =
        some { observer := e.observer, event := observeTimeout }) = true ↔
      decide ((slots.find? fun s => s.fd = z.fd) = some (e.arm now).slot) = true := by
    intro z _
    rw [decide_eq_true_iff, decide_eq_true_iff, slotEvent_expired_iff]
    constructor
    · rintro ⟨slot, hfind, -, hobs⟩
      rw [hfind, alone_of_nodup observers (slot_mem e due.1) slot
        (List.mem_of_find?_eq_some hfind) (hobs.trans (slot_observer e).symm)]
    · intro hfind
      exact ⟨_, hfind, (due_iff waits due.1).mp due, slot_observer e⟩
  rw [count_expired returned empty, List.countP_congr found,
    countP_find?_eq_one nodup (slot_mem e due.1)]
  constructor
  · intro alone e' he' hfd
    have same := alone _ (slot_mem e' he') (((e'.arm_fd now).trans hfd).trans (e.arm_fd now).symm)
    apply alone_of_nodup m.nodup due.1 e' he'
    rw [← slot_observer e', same, slot_observer e]
  · intro alone slot hslot hfd
    obtain ⟨armed, harmed, rfl⟩ := List.mem_map.mp hslot
    obtain ⟨e', he', rfl⟩ := List.mem_map.mp harmed
    rw [alone e' he' (((e'.arm_fd now).symm.trans hfd).trans (e.arm_fd now))]

/-! ## The poll as a whole -/

/-- The events that the calls put are counted in the events of the poll. -/
theorem Polled.count {res : Int} {puts : List (SocketEvent ω)} {o : Managed ω}
    (polled : Polled res puts o) (observer : ω) (event : Nat) :
    o.calls.count (.putEvent observer event) =
      puts.count { observer := observer, event := event } := by
  obtain ⟨made, hputs, -, hcalls⟩ := polled.calls
  have tail : (puts.head?.elim [ManagerCall.unhandled res] fun ev =>
      [.socketNotify ev.observer ev.event]).count (.putEvent observer event) = 0 := by
    apply List.count_eq_zero.mpr
    cases puts.head? <;> simp
  rw [hcalls, List.count_append, tail, Nat.add_zero, ← hputs, List.count_filterMap]
  apply List.countP_congr
  intro c _
  cases c <;> simp [ManagerCall.put?]

/-- **A poll is handled exactly when** it did not return 0, or every entry whose time is up has its
descriptor alone. -/
theorem handled_iff_alone {m : SocketManager ω} {now later : Int} {replies : List PollReply}
    {polls : Nat} {reply : PollReply} {o : Managed ω}
    (call : m.processEvent now replies later = some o) (polled : ∃ c ∈ o.calls, c.polls = true)
    (ended : pollLoop 0 replies = some (polls, .polled reply)) (answered : 0 ≤ reply.res)
    (sound : reply.Sound m.pollSet (m.pollTimeout now)) :
    m.Handled now reply o ↔
      (reply.res = 0 → ∀ e, m.Due now e → ∀ e' ∈ m.observers, e'.fd = e.fd → e' = e) := by
  have polled := processEvent_polled call polled ended answered
  constructor
  · intro handled returned e due
    obtain ⟨waits, empty⟩ := sound.expired returned
    have one := handled.due returned e due
    rw [polled.count] at one
    exact (count_expired_due returned empty waits due).mp one
  intro alone
  by_cases returned : reply.res = 0
  · obtain ⟨waits, empty⟩ := sound.expired returned
    have one : ∀ e, m.Due now e → (m.pollEvents now reply).count
        { observer := e.observer, event := observeTimeout } = 1 := fun e due =>
      (count_expired_due returned empty waits due).mpr (alone returned e due)
    obtain ⟨e, due⟩ := exists_due waits
    have some_put : m.pollEvents now reply ≠ [] := by
      intro none
      have hone := one e due
      rw [none] at hone
      cases hone
    obtain ⟨notified, handled⟩ := polled.told some_put
    refine ⟨notified, handled, fun _ e due => ?_, fun _ observer other => ?_⟩
    · rw [polled.count, one e due]
    · rw [polled.count, count_expired_other returned empty waits other]
  · obtain ⟨i, hi, ready⟩ := sound.ready (by omega)
    have some_put : m.pollEvents now reply ≠ [] := by
      apply slotEvents_ne_nil _ hi ready
      intro fd hfd
      obtain ⟨e, he, rfl⟩ := List.mem_map.mp hfd
      exact ⟨_, List.mem_map_of_mem (List.mem_map_of_mem he), e.arm_fd now⟩
    obtain ⟨notified, handled⟩ := polled.told some_put
    exact ⟨notified, handled, fun h => absurd h returned, fun h => absurd h returned⟩

/-- An observer that waits for a second, beside one that does not wait, gets its timeout. -/
theorem handled_iff_alone_one :
    ∃ m : SocketManager Nat, ∃ o, m.processEvent 5 [{ res := 0 }] 6 = some o ∧
      m.observers.map SocketEntry.timeout = [-1, 1] ∧ m.Handled 5 { res := 0 } o := by
  obtain ⟨m, o, call, polled, waits, timeouts, alone⟩ : ∃ m : SocketManager Nat, ∃ o,
      m.processEvent 5 [{ res := 0 }] 6 = some o ∧ (∃ c ∈ o.calls, c.polls = true) ∧
      0 ≤ m.pollTimeout 5 ∧ m.observers.map SocketEntry.timeout = [-1, 1] ∧
      ∀ e ∈ m.observers, e.timed = true → e.remaining 5 = m.pollTimeout 5 →
        ∀ e' ∈ m.observers, e'.fd = e.fd → e' = e :=
    ⟨((SocketManager.new.addObserver 3 1).manager.timeoutObserver 1 1).manager.addObserver 4 2
      |>.manager, _, rfl, by decide, by decide, by decide, by decide⟩
  refine ⟨m, o, call, timeouts, ?_⟩
  refine (handled_iff_alone call polled rfl (by decide) (PollReply.sound_expired waits)).mpr ?_
  intro _ e due
  exact alone e due.1 due.2.1 due.2.2

/-- Two observers without a descriptor, the one behind with the shorter time: its time is up, and
the poll is unhandled. -/
theorem unhandled_behind :
    ∃ m o, (socketManager Nat).exec SocketManager.new
        [.addObserver (-1) 1, .timeoutObserver 1 5, .addObserver (-1) 2, .timeoutObserver 2 10] =
          some (m, [.added 1, .added 2]) ∧
      m.processEvent 100 [{ res := 0 }] 105 = some o ∧
      PollReply.Sound m.pollSet (m.pollTimeout 100) { res := 0 } ∧ .unhandled 0 ∈ o.calls ∧
      ¬ m.Handled 100 { res := 0 } o := by
  obtain ⟨m, o, added, call, waits, unhandled⟩ : ∃ m o, (socketManager Nat).exec SocketManager.new
        [.addObserver (-1) 1, .timeoutObserver 1 5, .addObserver (-1) 2, .timeoutObserver 2 10] =
          some (m, [.added 1, .added 2]) ∧
      m.processEvent 100 [{ res := 0 }] 105 = some o ∧ 0 ≤ m.pollTimeout 100 ∧
      .unhandled 0 ∈ o.calls :=
    ⟨_, _, rfl, rfl, by decide, by decide⟩
  refine ⟨m, o, added, call, PollReply.sound_expired waits, unhandled, ?_⟩
  intro handled
  exact handled.handled 0 unhandled

end SocketManager

end Yazpp
