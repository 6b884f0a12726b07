import Yazpp.SocketManager.Notify
import Yazpp.SocketManager.Retry
import Yazpp.SocketManager.Unhandled

/-!
# No timeout is early

A poll waits for the least of the remaining times, and behind one that returns 0 the observers that
remained for as long get their timeout event. An entry's stamp is never later than the clock
(`Stamped`, kept by every operation of a run), so an entry whose time is up has waited for its
timeout or longer (`waited`): either its time was over when the poll set was built, or what was
left of it is what the poll has waited. An entry that can be found by its remaining time has a
stamp (`Started`), so `assert(last_activity)` does not fail.
-/

set_option autoImplicit false

namespace Yazpp

open Yazpp.Lib

variable {ω : Type}

/-- What `yaz_poll` promises when it returns 0: it had a timeout to wait for, the clock has gone on
by it, and no descriptor is ready. -/
def PollReply.Expired (now later timeout : Int) (reply : PollReply) : Prop :=
  reply.res = 0 → 0 ≤ timeout ∧ now + timeout ≤ later ∧
    ∀ i, (reply.output.getD i {}).events = 0

/-- The readings of the clock in an operation. -/
def ManagerInput.readings : ManagerInput ω → List Int
  | .processEvent now _ later => [now, later]
  | _ => []

/-- The timeout that an operation sets. -/
def ManagerInput.timeout? : ManagerInput ω → Option Int
  | .timeoutObserver _ timeout => some timeout
  | _ => none

theorem PollMask.events_ne_timeout (p : PollMask) : p.events ≠ observeTimeout := by
  obtain ⟨read, write, except⟩ := p
  cases read <;> cases write <;> cases except <;> decide

namespace SocketManager

/-- **The stamps**: no entry's last activity is later than `last`, and no timeout is larger than the
largest that is waited for. -/
def Stamped (last : Int) (m : SocketManager ω) : Prop :=
  ∀ e ∈ m.observers, e.timeout ≤ 2147483646 ∧ (e.lastActivity ≠ 0 → e.lastActivity ≤ last)

/-- An entry that remained for as long as the poll has a stamp. -/
def Started (timeout : Int) (m : SocketManager ω) : Prop :=
  ∀ e ∈ m.observers, e.timeoutThis = timeout → e.lastActivity ≠ 0

/-- What a call of `processEvent` does to time: a timeout event is put only behind a poll that
returned 0, for an entry that had no I/O in it and whose timeout has passed since its last activity;
each entry whose remaining time was the least gets one; and the assertion holds. -/
structure InTime [DecidableEq ω] (now later : Int) (replies : List PollReply)
    (m : SocketManager ω) (calls : List (ManagerCall ω)) : Prop where
  fired : ∀ observer, .putEvent observer observeTimeout ∈ calls →
    ∃ polls reply i e, pollLoop 0 replies = some (polls, .polled reply) ∧ reply.res = 0 ∧
      m.observers[i]? = some e ∧ e.observer = observer ∧ (reply.output.getD i {}).events = 0 ∧
      e.timeout ≤ later - (e.arm now).lastActivity
  alone : ∀ observer event, .putEvent observer observeTimeout ∈ calls →
    .putEvent observer event ∈ calls → event = observeTimeout
  due : ∀ polls reply, (∃ c ∈ calls, c.polls = true) →
    pollLoop 0 replies = some (polls, .polled reply) → reply.res = 0 →
    ∀ e, m.Due now e → calls.count (.putEvent e.observer observeTimeout) = 1
  asserted : .assertFailed ∉ calls

/-! ## The stamps -/

theorem Stamped.later {last last' : Int} {m : SocketManager ω} (stamped : m.Stamped last)
    (order : last ≤ last') : m.Stamped last' := fun e he =>
  ⟨(stamped e he).1, fun h => Int.le_trans ((stamped e he).2 h) order⟩

/-- Building the poll set stamps with the clock. -/
theorem Stamped.arm {now : Int} {m : SocketManager ω} (stamped : m.Stamped now) :
    (m.arm now).Stamped now := by
  intro e he
  obtain ⟨e, hmem, rfl⟩ := List.mem_map.mp he
  obtain ⟨small, stamp⟩ := stamped e hmem
  unfold SocketEntry.arm
  split
  · refine ⟨small, fun _ => ?_⟩
    dsimp only
    split
    · next h => exact stamp h
    · exact Int.le_refl now
  · exact ⟨small, stamp⟩

/-- Behind the poll set, who remained for as long as the poll is timed, and has a stamp. -/
theorem started_arm {now timeout : Int} (set : now ≠ 0) (waits : 0 ≤ timeout)
    (m : SocketManager ω) : (m.arm now).Started timeout := by
  intro e he hthis
  obtain ⟨e, he, rfl⟩ := List.mem_map.mp he
  unfold SocketEntry.arm at hthis ⊢
  split
  · dsimp only
    split
    · assumption
    · exact set
  · next h =>
    rw [if_neg h] at hthis
    change (-1 : Int) = timeout at hthis
    omega

/-- An own event is that of an entry, for its place in the output. -/
theorem mem_ownEvents {res timeout : Int} {slots : List (PollSlot ω)} {output : List PollMask}
    {ev : SocketEvent ω} (h : ev ∈ ownEvents res timeout slots output) :
    ∃ (i : Nat) (slot : PollSlot ω), slots[i]? = some slot ∧
      slot.event? res timeout (output.getD i {}) = some ev := by
  induction slots generalizing output with
  | nil => cases h
  | cons slot slots ih =>
    rcases List.mem_append.mp h with first | rest
    · refine ⟨0, slot, rfl, ?_⟩
      rw [Option.mem_toList] at first
      cases output <;> exact first
    · obtain ⟨i, slot', hi, hev⟩ := ih rest
      refine ⟨i + 1, slot', hi, ?_⟩
      cases output <;> exact hev

/-- **An entry whose time is up has waited**: for its timeout at least, by the reading behind the
poll. -/
theorem waited {now later : Int} {m : SocketManager ω} {e : SocketEntry ω}
    (stamped : m.Stamped now) (due : m.Due now e) (order : now ≤ later)
    (elapsed : now + m.pollTimeout now ≤ later) :
    e.timeout ≤ later - (e.arm now).lastActivity := by
  obtain ⟨he, timed, least⟩ := due
  obtain ⟨small, stamp⟩ := stamped e he
  rw [SocketEntry.arm, if_pos timed]
  rw [← least] at elapsed
  unfold SocketEntry.remaining at elapsed
  by_cases fresh : e.lastActivity = 0
  · simp only [fresh, ne_eq, not_true_eq_false, if_false] at elapsed ⊢
    have waits : 0 ≤ e.timeout := by
      simp only [SocketEntry.timed, Bool.or_eq_true, decide_eq_true_eq, Bool.and_eq_true,
        beq_iff_eq] at timed
      omega
    rw [if_neg (by omega)] at elapsed
    omega
  · have past := stamp fresh
    simp only [ne_eq, fresh, not_false_eq_true, if_true] at elapsed ⊢
    by_cases expired : e.timeout ≤ now - e.lastActivity
    · omega
    · rw [toInt32_eq (by omega) (by omega), if_neg (by omega)] at elapsed
      omega

/-- The end of a call touches no entry. -/
theorem observers_notifyFront (m : SocketManager ω) (otherwise : List (ManagerCall ω)) :
    (m.notifyFront otherwise).manager.observers = m.observers := by
  unfold notifyFront
  split <;> rfl

/-- Readings that do not go back, cut in two: the last of the first part is not later than any of
the second. -/
theorem readings_cut {last : Int} {first rest : List Int}
    (order : (last :: (first ++ rest)).Pairwise (· ≤ ·)) :
    ∃ mid, (last :: (first ++ [mid])).Pairwise (· ≤ ·) ∧ (mid :: rest).Pairwise (· ≤ ·) := by
  induction first generalizing last with
  | nil => exact ⟨last, by simp, order⟩
  | cons r first ih =>
    obtain ⟨above, order⟩ := List.pairwise_cons.mp order
    obtain ⟨mid, before, after⟩ := ih order
    have last_r := above r List.mem_cons_self
    refine ⟨mid, List.pairwise_cons.mpr ⟨fun r' hr' => ?_, before⟩, after⟩
    rcases List.mem_cons.mp hr' with rfl | hr'
    · exact last_r
    · exact Int.le_trans last_r ((List.pairwise_cons.mp before).1 r' hr')

variable [DecidableEq ω]

/-- An assignment to one entry, seen from an entry behind it. -/
theorem mem_assign {m : SocketManager ω} {o : ω} {f : SocketEntry ω → SocketEntry ω}
    (same : ∀ e, (f e).observer = e.observer) {e : SocketEntry ω}
    (h : e ∈ (m.assign o f same).observers) : ∃ e₀ ∈ m.observers, e = f e₀ ∨ e = e₀ := by
  obtain ⟨e₀, he₀, rfl⟩ := List.mem_map.mp h
  refine ⟨e₀, he₀, ?_⟩
  split
  · exact .inl rfl
  · exact .inr rfl

/-- An activity in a poll is the only thing that its inspection changes in an entry. -/
theorem mem_inspectFd {res timeout later fd : Int} {output : PollMask} {m : SocketManager ω}
    {e : SocketEntry ω} (h : e ∈ (m.inspectFd res timeout later fd output).manager.observers) :
    ∃ e₀ ∈ m.observers, e = { e₀ with lastActivity := later } ∨ e = e₀ := by
  have touched : ∀ o, e ∈ (m.assign o (fun e => { e with lastActivity := later })
      fun _ => rfl).observers →
      ∃ e₀ ∈ m.observers, e = { e₀ with lastActivity := later } ∨ e = e₀ :=
    fun o h => mem_assign _ h
  unfold inspectFd at h
  split at h
  · exact ⟨e, h, .inr rfl⟩
  · dsimp only at h
    split at h
    · exact touched _ h
    · split at h
      · split at h <;> exact touched _ h
      · exact ⟨e, h, .inr rfl⟩

theorem mem_inspectFds {res timeout later : Int} {fds : List PollFd} {output : List PollMask}
    {m : SocketManager ω} {e : SocketEntry ω}
    (h : e ∈ (m.inspectFds res timeout later fds output).manager.observers) :
    ∃ e₀ ∈ m.observers, e = { e₀ with lastActivity := later } ∨ e = e₀ := by
  induction fds generalizing output m with
  | nil => exact ⟨e, h, .inr rfl⟩
  | cons fd fds ih =>
    obtain ⟨e₁, he₁, hlast⟩ := ih h
    obtain ⟨e₀, he₀, hfirst⟩ := mem_inspectFd he₁
    refine ⟨e₀, he₀, ?_⟩
    rcases hlast with rfl | rfl
    · rcases hfirst with rfl | rfl <;> exact .inl rfl
    · exact hfirst

/-- Behind an inspection every stamp is one from before, or the clock's. -/
theorem Stamped.inspectPollResult {later : Int} {m : SocketManager ω} (stamped : m.Stamped later)
    (reply : PollReply) (fds : List PollFd) (timeout : Int) :
    (m.inspectPollResult reply fds timeout later).manager.Stamped later := by
  intro e he
  unfold SocketManager.inspectPollResult at he
  rw [show ∀ calls : List (ManagerCall ω), ∀ o : Managed ω,
    ({ o with calls := calls } : Managed ω).manager = o.manager from fun _ _ => rfl,
    observers_notifyFront] at he
  obtain ⟨e₀, he₀, rfl | rfl⟩ := mem_inspectFds he
  · exact ⟨(stamped e₀ he₀).1, fun _ => Int.le_refl later⟩
  · exact stamped e he₀

theorem Stamped.processEvent {last now later : Int} {replies : List PollReply}
    {m : SocketManager ω} {o : Managed ω} (stamped : m.Stamped last) (begun : last ≤ now)
    (order : now ≤ later) (call : m.processEvent now replies later = some o) :
    o.manager.Stamped later := by
  have now_stamped := stamped.later begun
  unfold SocketManager.processEvent at call
  split at call
  · cases call
    intro e he
    rw [observers_notifyFront] at he
    exact now_stamped.later order e he
  split at call
  · cases call
    exact now_stamped.later order
  obtain ⟨⟨polls, ended⟩, -, rfl⟩ := Option.map_eq_some_iff.mp call
  have armed := now_stamped.arm.later order
  cases ended with
  | interrupted => exact armed
  | polled reply =>
    dsimp only
    split
    · exact armed.inspectPollResult reply _ _
    · exact armed

/-- An assignment that leaves the stamp and the timeout, or sets ones that are in order. -/
theorem Stamped.assign {last : Int} {m : SocketManager ω} (stamped : m.Stamped last) {o : ω}
    {f : SocketEntry ω → SocketEntry ω} (same : ∀ e, (f e).observer = e.observer)
    (keeps : ∀ e ∈ m.observers, (f e).timeout ≤ 2147483646 ∧
      ((f e).lastActivity ≠ 0 → (f e).lastActivity ≤ last)) : (m.assign o f same).Stamped last := by
  intro e he
  obtain ⟨e₀, he₀, rfl | rfl⟩ := mem_assign same he
  · exact keeps e₀ he₀
  · exact stamped e he₀

theorem Stamped.addObserver {last : Int} {m : SocketManager ω} (stamped : m.Stamped last)
    (fd : Int) (o : ω) : (m.addObserver fd o).manager.Stamped last := by
  have small : (-1 : Int) ≤ 2147483646 := by decide
  simp only [SocketManager.addObserver]
  split
  · exact stamped.assign _ fun _ _ => ⟨small, fun h => absurd rfl h⟩
  · exact List.forall_mem_cons.mpr ⟨⟨small, fun h => absurd rfl h⟩, stamped⟩

theorem Stamped.deleteObserver {last : Int} {m : SocketManager ω} (stamped : m.Stamped last)
    (o : ω) : (m.deleteObserver o).manager.Stamped last := by
  simp only [SocketManager.deleteObserver]
  split
  · exact fun e he => stamped e (List.mem_of_mem_eraseP he)
  · exact stamped

/-- **One operation** keeps the stamps. -/
theorem Stamped.step {last last' : Int} {m m' : SocketManager ω} {i : ManagerInput ω}
    {calls : List (ManagerCall ω)} (stamped : m.Stamped last)
    (small : ∀ timeout, i.timeout? = some timeout → timeout ≤ 2147483646)
    (order : (last :: (i.readings ++ [last'])).Pairwise (· ≤ ·))
    (step : (socketManager ω).step m i = some (m', calls)) : m'.Stamped last' := by
  obtain ⟨o, call, hout⟩ := Option.map_eq_some_iff.mp step
  obtain ⟨rfl, rfl⟩ := Prod.mk.inj hout
  have span : last ≤ last' := (List.pairwise_cons.mp order).1 last'
    (List.mem_append_right _ (List.mem_singleton_self _))
  cases i with
  | processEvent now replies later =>
    simp only [ManagerInput.readings, List.cons_append, List.nil_append, List.pairwise_cons,
      List.mem_cons, forall_eq_or_imp] at order
    exact (stamped.processEvent order.1.1 order.2.1.1 call).later order.2.2.1.1
  | addObserver fd observer =>
    cases call
    exact (stamped.addObserver fd observer).later span
  | deleteObserver observer =>
    cases call
    exact (stamped.deleteObserver observer).later span
  | deleteObservers =>
    cases call
    exact List.forall_mem_nil _
  | maskObserver observer mask fd =>
    cases call
    have masked : (m.maskObserver observer mask fd).manager.Stamped last := by
      apply stamped.assign
      · exact fun _ => rfl
      · exact fun e he => stamped e he
    exact masked.later span
  | timeoutObserver observer timeout =>
    cases call
    have set : (m.timeoutObserver observer timeout).manager.Stamped last := by
      apply stamped.assign
      · exact fun _ => rfl
      · exact fun e he => ⟨small timeout rfl, (stamped e he).2⟩
    exact set.later span

/-- **In every run** no stamp is later than the last reading of the clock. By induction on the
operations, from the first. -/
theorem Stamped.exec {last last' : Int} {m m' : SocketManager ω} {is : List (ManagerInput ω)}
    {h : List (ManagerCall ω)} (stamped : m.Stamped last)
    (small : ∀ i ∈ is, ∀ timeout, i.timeout? = some timeout → timeout ≤ 2147483646)
    (order : (last :: (is.flatMap ManagerInput.readings ++ [last'])).Pairwise (· ≤ ·))
    (run : (socketManager ω).exec m is = some (m', h)) : m'.Stamped last' := by
  induction is generalizing last m h with
  | nil =>
    cases run
    exact stamped.later ((List.pairwise_cons.mp order).1 last' (List.mem_singleton_self _))
  | cons i is ih =>
    obtain ⟨m₁, o₁, o₂, step, rest, rfl⟩ := Machine.exec_cons.mp run
    rw [List.flatMap_cons, List.append_assoc] at order
    obtain ⟨mid, before, after⟩ := readings_cut order
    exact ih (stamped.step (small i List.mem_cons_self) before step)
      (fun j hj => small j (List.mem_cons_of_mem _ hj)) after rest

/-! ## The events of a poll -/

/-- Nothing is asserted in vain while every entry that can be found by its remaining time has a
stamp. By induction on the poll set. -/
theorem inspectFds_asserted {res timeout later : Int} {fds : List PollFd} {output : List PollMask}
    {m : SocketManager ω} (set : later ≠ 0) (started : res = 0 → m.Started timeout) :
    .assertFailed ∉ (m.inspectFds res timeout later fds output).calls := by
  induction fds generalizing output m with
  | nil => exact List.not_mem_nil
  | cons fd fds ih =>
    have first : .assertFailed ∉ (m.inspectFd res timeout later fd.fd (output.headD {})).calls := by
      unfold inspectFd
      split
      · exact List.not_mem_nil
      · next p found =>
        dsimp only
        split
        · exact fun h => by cases List.mem_singleton.mp h
        · split
          · next expired =>
            have stamp := started expired.1 p (List.mem_of_find?_eq_some found) expired.2
            rw [if_neg stamp]
            exact fun h => by cases List.mem_singleton.mp h
          · exact List.not_mem_nil
    have started' : res = 0 →
        (m.inspectFd res timeout later fd.fd (output.headD {})).manager.Started timeout := by
      intro expired e he hthis
      obtain ⟨e₀, he₀, rfl | rfl⟩ := mem_inspectFd he
      · exact set
      · exact started expired _ he₀ hthis
    intro h
    exact (List.mem_append.mp h).elim first (ih started')

/-- What is put by the calls of a poll is what the poll puts. -/
theorem Polled.mem_put {res : Int} {puts : List (SocketEvent ω)} {o : Managed ω}
    (polled : Polled res puts o) {observer : ω} {event : Nat} :
    .putEvent observer event ∈ o.calls ↔ { observer := observer, event := event } ∈ puts := by
  rw [← List.count_pos_iff, polled.count, List.count_pos_iff]

omit [DecidableEq ω] in
/-- A timeout event of a poll is for an entry whose time is up, and whose descriptor was not
ready. -/
theorem due_of_own {now : Int} {m : SocketManager ω} {reply : PollReply} {observer : ω}
    (waits : reply.res = 0 → 0 ≤ m.pollTimeout now)
    (own : { observer := observer, event := observeTimeout } ∈
      ownEvents reply.res (m.pollTimeout now) (m.arm now).slots reply.output) :
    reply.res = 0 ∧ ∃ i e, m.observers[i]? = some e ∧ e.observer = observer ∧
      (reply.output.getD i {}).events = 0 ∧ m.Due now e := by
  obtain ⟨i, slot, hi, hev⟩ := mem_ownEvents own
  have hobserver := PollSlot.observer_of_event? hev
  simp only [slots, SocketManager.arm, List.getElem?_map, Option.map_map,
    Option.map_eq_some_iff, Function.comp_apply] at hi
  obtain ⟨e, he, rfl⟩ := hi
  unfold PollSlot.event? at hev
  split at hev
  · -- an I/O event is not a timeout
    have timeout := congrArg SocketEvent.event (Option.some.inj hev)
    exact absurd timeout (PollMask.events_ne_timeout _)
  next quiet =>
  split at hev
  · next expired =>
    have hmem := List.mem_of_getElem? he
    refine ⟨expired.1, i, e, he, ?_, Classical.not_not.mp quiet, ?_⟩
    · exact (e.arm_observer now).symm.trans hobserver.symm
    · exact (due_iff (waits expired.1) hmem).mpr expired.2
  · cases hev

/-- The assertion holds in a call whose poll answered. -/
theorem asserted_finish {now later : Int} {polls : Nat} {reply : PollReply} {m : SocketManager ω}
    (set : now ≠ 0 ∧ later ≠ 0) (waits : reply.res = 0 → 0 ≤ m.pollTimeout now) :
    .assertFailed ∉ (m.finish now later polls (.polled reply)).calls := by
  have made : .assertFailed ∉ List.replicate polls
      (ManagerCall.yazPoll (ω := ω) m.pollSet (m.pollTimeout now)) := fun h => by
    cases List.eq_of_mem_replicate h
  simp only [finish]
  split
  · simp only [inspectPollResult, List.mem_append, not_or]
    refine ⟨made, inspectFds_asserted set.2 fun expired => ?_, ?_⟩
    · exact started_arm set.1 (waits expired) m
    · rw [(notifyFront_eq _ _).2]
      cases (SocketManager.queue _).head? with
      | none => split <;> simp
      | some ev => simp
  · exact made

/-- **What a poll that answered does to time.** -/
theorem inTime_polled {now later : Int} {replies : List PollReply} {polls : Nat}
    {reply : PollReply} {m : SocketManager ω} {o : Managed ω} (stamped : m.Stamped now)
    (order : now ≤ later) (set : now ≠ 0 ∧ later ≠ 0)
    (distinct : (m.observers.map SocketEntry.fd).Nodup)
    (call : m.processEvent now replies later = some o) (polled : ∃ c ∈ o.calls, c.polls = true)
    (ended : pollLoop 0 replies = some (polls, .polled reply)) (answered : 0 ≤ reply.res)
    (sound : reply.Expired now later (m.pollTimeout now)) :
    m.InTime now later replies o.calls := by
  have puts := processEvent_polled call polled ended answered
  have own := pollEvents_own distinct now reply
  constructor
  · intro observer hput
    rw [puts.mem_put, own] at hput
    obtain ⟨expired, i, e, he, hobserver, quiet, due⟩ :=
      due_of_own (fun expired => (sound expired).1) hput
    exact ⟨polls, reply, i, e, ended, expired, he, hobserver, quiet,
      waited stamped due order (sound expired).2.1⟩
  · intro observer event htimeout hput
    rw [puts.mem_put] at htimeout hput
    exact congrArg SocketEvent.event
      (alone_of_nodup (pollEvents_distinct distinct now reply).2 htimeout _ hput rfl)
  · intro polls' reply' _ ended' expired e due
    obtain ⟨rfl, h⟩ := Prod.mk.inj (Option.some.inj (ended.symm.trans ended'))
    cases h
    obtain ⟨waits, -, empty⟩ := sound expired
    rw [puts.count]
    exact (count_expired_due expired empty waits due).mpr
      (alone_of_nodup distinct due.1)
  · obtain ⟨empty, observed⟩ := processEvent_polling call polled
    rw [processEvent_loop now later replies empty observed, ended] at call
    cases call
    exact asserted_finish set fun expired => (sound expired).1

/-- A call that puts nothing and asserts nothing, and whose loop has not ended with an answer. -/
theorem inTime_quiet {now later : Int} {replies : List PollReply} {m : SocketManager ω}
    {calls : List (ManagerCall ω)} (quiet : ∀ c ∈ calls, c.put? = none ∧ c ≠ .assertFailed)
    (unanswered : (∃ c ∈ calls, c.polls = true) → ∀ polls reply,
      pollLoop 0 replies ≠ some (polls, .polled reply)) : m.InTime now later replies calls where
  fired _ h := absurd (quiet _ h).1 (Option.some_ne_none _)
  alone _ _ h := absurd (quiet _ h).1 (Option.some_ne_none _)
  due polls reply polled ended := absurd ended (unanswered polled polls reply)
  asserted h := (quiet _ h).2 rfl

/-- A call whose loop has ended has polled. -/
theorem finish_polls (now later : Int) {polls : Nat} (pos : 0 < polls) (ended : PollEnd)
    (m : SocketManager ω) : ∃ c ∈ (m.finish now later polls ended).calls, c.polls = true := by
  have made : .yazPoll m.pollSet (m.pollTimeout now) ∈
      List.replicate polls (ManagerCall.yazPoll (ω := ω) m.pollSet (m.pollTimeout now)) :=
    List.mem_replicate.mpr ⟨Nat.ne_of_gt pos, rfl⟩
  refine ⟨.yazPoll m.pollSet (m.pollTimeout now), ?_, rfl⟩
  cases ended with
  | interrupted => exact made
  | polled reply =>
    simp only [finish]
    split
    · exact List.mem_append_left _ made
    · exact made

/-- Any call of `processEvent`. -/
theorem inTime_processEvent {now later : Int} {replies : List PollReply} {m : SocketManager ω}
    {o : Managed ω} (stamped : m.Stamped now) (order : now ≤ later) (set : now ≠ 0 ∧ later ≠ 0)
    (distinct : (m.observers.map SocketEntry.fd).Nodup)
    (sound : ∀ polls reply, pollLoop 0 replies = some (polls, .polled reply) →
      reply.Expired now later (m.pollTimeout now))
    (call : m.processEvent now replies later = some o) : m.InTime now later replies o.calls := by
  by_cases idle : m.queue ≠ [] ∨ m.observers = []
  · obtain ⟨o', call', told⟩ := processEvent_idle now later replies idle
    cases call.symm.trans call'
    refine inTime_quiet (fun c hc => ?_) fun ⟨c, hc, polls⟩ => ?_
    · obtain ⟨observer, event, rfl⟩ := told c hc
      exact ⟨rfl, fun h => by cases h⟩
    · obtain ⟨observer, event, rfl⟩ := told c hc
      cases polls
  obtain ⟨queued, observed⟩ := not_or.mp idle
  have empty := Classical.not_not.mp queued
  have loop := call
  rw [processEvent_loop now later replies empty observed] at loop
  obtain ⟨⟨polls, ended⟩, hloop, rfl⟩ := Option.map_eq_some_iff.mp loop
  cases ended with
  | polled reply =>
    have polled := finish_polls now later (pollLoop_pos hloop) (.polled reply) m
    exact inTime_polled stamped order set distinct call polled hloop (pollLoop_answered hloop)
      (sound polls reply hloop)
  | interrupted =>
    refine inTime_quiet (fun c hc => ?_) fun _ polls' reply hloop' => ?_
    · rw [List.eq_of_mem_replicate hc]
      exact ⟨rfl, fun h => by cases h⟩
    · cases hloop.symm.trans hloop'

/-- **No timeout is early.** In every run whose clock does not go back, a call of `processEvent`
with distinct descriptors puts a timeout event for an observer only when its timeout has passed
since its last activity and it had no I/O in the poll; every observer whose remaining time was the
least gets one; and `assert(last_activity)` holds. -/
theorem timeouts_in_time {is : List (ManagerInput ω)} {m m' : SocketManager ω}
    {h calls : List (ManagerCall ω)} {now later : Int} {replies : List PollReply}
    (run : (socketManager ω).exec SocketManager.new is = some (m, h))
    (small : ∀ i ∈ is, ∀ timeout, i.timeout? = some timeout → timeout ≤ 2147483646)
    (order : (is.flatMap ManagerInput.readings ++ [now, later]).Pairwise (· ≤ ·))
    (set : now ≠ 0 ∧ later ≠ 0) (distinct : (m.observers.map SocketEntry.fd).Nodup)
    (sound : ∀ polls reply, pollLoop 0 replies = some (polls, .polled reply) →
      reply.Expired now later (m.pollTimeout now))
    (step : (socketManager ω).step m (.processEvent now replies later) = some (m', calls)) :
    m.InTime now later replies calls := by
  obtain ⟨o, call, hout⟩ := Option.map_eq_some_iff.mp step
  obtain ⟨rfl, rfl⟩ := Prod.mk.inj hout
  have stamped : ∀ last, (last :: (is.flatMap ManagerInput.readings ++ [now])).Pairwise (· ≤ ·) →
      m.Stamped now := fun last order =>
    Stamped.exec (fun e he => absurd he List.not_mem_nil) small order run
  have order_now : (is.flatMap ManagerInput.readings ++ [now]).Pairwise (· ≤ ·) :=
    order.sublist ((List.Sublist.refl _).append (List.cons_sublist_cons.mpr (List.nil_sublist _)))
  have order_poll : now ≤ later := by
    have both := (List.pairwise_append.mp order).2.1
    exact (List.pairwise_cons.mp both).1 later (List.mem_singleton_self later)
  refine inTime_processEvent ?_ order_poll set distinct sound call
  cases readings : is.flatMap ManagerInput.readings ++ [now] with
  | nil => exact absurd readings (List.append_ne_nil_of_right_ne_nil _ (List.cons_ne_nil _ _))
  | cons first rest =>
    -- the first reading stands for what was before it
    rw [readings] at order_now stamped
    refine stamped first (List.pairwise_cons.mpr ⟨fun r hr => ?_, order_now⟩)
    rcases List.mem_cons.mp hr with rfl | hr
    · exact Int.le_refl r
    · exact (List.pairwise_cons.mp order_now).1 r hr

/-- One observer waits 5 seconds and one 10. The second is read from after 2, so that the first has
3 left when the poll that expires begins. -/
def waiting : List (ManagerInput Nat) :=
  [.addObserver 3 1, .timeoutObserver 1 5, .addObserver 4 2, .timeoutObserver 2 10,
    .processEvent 100 [{ res := 1, output := [{ read := true }] }] 102]

theorem timeouts_in_time_second : ∃ m h m' calls,
    (socketManager Nat).exec SocketManager.new waiting = some (m, h) ∧
      (socketManager Nat).step m (.processEvent 102 [{ res := 0 }] 105) = some (m', calls) ∧
      .putEvent 1 observeTimeout ∈ calls ∧ m.InTime 102 105 [{ res := 0 }] calls := by
  obtain ⟨m, h, m', calls, run, step, fired, distinct, timeout⟩ : ∃ m h m' calls,
      (socketManager Nat).exec SocketManager.new waiting = some (m, h) ∧
      (socketManager Nat).step m (.processEvent 102 [{ res := 0 }] 105) = some (m', calls) ∧
      .putEvent 1 observeTimeout ∈ calls ∧ (m.observers.map SocketEntry.fd).Nodup ∧
      m.pollTimeout 102 = 3 :=
    ⟨_, _, _, _, rfl, rfl, by decide, by decide, by decide⟩
  refine ⟨m, h, m', calls, run, step, fired,
    timeouts_in_time run (by decide) (by decide) (by decide) distinct ?_ step⟩
  intro polls reply ended _
  cases ended
  rw [timeout]
  exact ⟨by decide, by decide, fun _ => congrArg PollMask.events List.getD_nil⟩

end SocketManager

end Yazpp
