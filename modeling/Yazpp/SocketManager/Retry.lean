import Mathlib.Data.Nat.Find
import Yazpp.SocketManager.Poll

/-!
# How often a poll is tried again

`processEvent` tries `yaz_poll` again while it fails with an error other than `EINTR` and
`pass < 10`. Nothing in the loop counts `pass`, so the bound is not one: the loop ends with the
first answer that is not such an error (`pollLoop_answers`), and where none comes it never ends
(`pollLoop_again`). With the answers of `yaz_poll` as an infinite sequence, a call keeps to the
11 polls that the bound permits exactly when one of the first 11 answers ends the loop, or nothing
is polled at all (`retries_bounded_iff`).
-/

set_option autoImplicit false

namespace Yazpp

open Yazpp.Lib

variable {ω : Type}

/-- An answer of `yaz_poll` behind which the loop tries again. -/
def PollReply.again (r : PollReply) : Bool := r.res < 0 && !r.eintr

/-- How the loop ends with an answer. -/
def PollReply.ended (r : PollReply) : PollEnd := if r.res < 0 then .interrupted else .polled r

/-- The answer that ends the loop: the first that is not tried again. -/
structure FirstEnd (answers : Nat → PollReply) (k : Nat) : Prop where
  before : ∀ i < k, (answers i).again = true
  ends : (answers k).again = false

theorem FirstEnd.unique {answers : Nat → PollReply} {k k' : Nat} (first : FirstEnd answers k)
    (first' : FirstEnd answers k') : k' = k := by
  rcases Nat.lt_trichotomy k' k with h | h | h
  · exact absurd (first.before k' h) (Bool.eq_false_iff.mp first'.ends)
  · exact h
  · exact absurd (first'.before k h) (Bool.eq_false_iff.mp first.ends)

theorem firstEnd_of_exists {answers : Nat → PollReply} {n : Nat}
    (h : ∃ i < n, (answers i).again = false) : ∃ k < n, FirstEnd answers k := by
  obtain ⟨k, ⟨hk, ends⟩, first⟩ := Nat.findX h
  refine ⟨k, hk, fun i hi => ?_, ends⟩
  by_contra again
  exact first i hi ⟨Nat.lt_trans hi hk, Bool.eq_false_iff.mpr again⟩

theorem PollReply.ended_interrupted {r : PollReply} (failed : r.res < 0) :
    r.ended = .interrupted :=
  if_pos failed

theorem PollReply.ended_polled {r : PollReply} (answered : 0 ≤ r.res) : r.ended = .polled r :=
  if_neg (Int.not_lt.mpr answered)

/-! ## The loop -/

/-- An error other than `EINTR` is one more call, and nothing else. -/
theorem pollLoop_cons_again {r : PollReply} (rs : List PollReply) (again : r.again = true) :
    pollLoop 0 (r :: rs) = (pollLoop 0 rs).map fun next => (next.1 + 1, next.2) := by
  obtain ⟨failed, eintr⟩ := Bool.and_eq_true_iff.mp again
  have other : ¬ r.eintr = true := by
    simpa only [Bool.not_eq_true, Bool.not_eq_true'] using eintr
  rw [pollLoop, if_pos ⟨of_decide_eq_true failed, by decide⟩, if_neg other]

/-- Any other answer ends the loop. -/
theorem pollLoop_cons_ended {r : PollReply} (rs : List PollReply) (ends : r.again = false) :
    pollLoop 0 (r :: rs) = some (1, r.ended) := by
  unfold pollLoop PollReply.ended
  by_cases failed : r.res < 0
  · have eintr : r.eintr = true := by
      simpa [PollReply.again, failed] using ends
    rw [if_pos ⟨failed, by decide⟩, if_pos eintr, if_pos failed]
  · rw [if_neg fun h => failed h.1, if_neg failed]

/-- **Where the loop ends**, with the answers of a sequence: at the first that is not tried again,
and with one call for each up to it. By induction on the answers that are looked at. -/
theorem pollLoop_answers {answers : Nat → PollReply} {n polls : Nat} {ended : PollEnd} :
    pollLoop 0 ((List.range n).map answers) = some (polls, ended) ↔
      ∃ k < n, FirstEnd answers k ∧ polls = k + 1 ∧ ended = (answers k).ended := by
  induction n generalizing answers polls ended with
  | zero =>
    constructor
    · intro h
      cases h
    · rintro ⟨k, hk, -⟩
      exact absurd hk (Nat.not_lt_zero k)
  | succ n ih =>
    rw [List.range_succ_eq_map, List.map_cons, List.map_map]
    by_cases first : (answers 0).again = true
    · rw [pollLoop_cons_again _ first]
      simp only [Option.map_eq_some_iff, Prod.exists, Prod.mk.injEq, ih, Function.comp_apply]
      constructor
      · rintro ⟨_, _, ⟨k, hk, ⟨before, ends⟩, rfl, rfl⟩, rfl, rfl⟩
        refine ⟨k + 1, Nat.succ_lt_succ hk, ⟨fun i hi => ?_, ends⟩, rfl, rfl⟩
        cases i with
        | zero => exact first
        | succ i => exact before i (Nat.lt_of_succ_lt_succ hi)
      · rintro ⟨k, hk, ⟨before, ends⟩, rfl, rfl⟩
        cases k with
        | zero => exact absurd first (Bool.eq_false_iff.mp ends)
        | succ k =>
          have later : FirstEnd (fun i => answers (i + 1)) k :=
            ⟨fun i hi => before (i + 1) (Nat.succ_lt_succ hi), ends⟩
          exact ⟨_, _, ⟨k, Nat.lt_of_succ_lt_succ hk, later, rfl, rfl⟩, rfl, rfl⟩
    · have first := Bool.eq_false_iff.mpr first
      rw [pollLoop_cons_ended _ first]
      constructor
      · intro h
        cases h
        exact ⟨0, Nat.succ_pos n, ⟨fun i hi => absurd hi (Nat.not_lt_zero i), first⟩, rfl, rfl⟩
      · rintro ⟨k, -, ⟨before, -⟩, rfl, rfl⟩
        cases k with
        | zero => rfl
        | succ k => exact absurd (before 0 (Nat.succ_pos k)) (Bool.eq_false_iff.mp first)

/-- Where every answer is an error other than `EINTR`, the loop never ends. -/
theorem pollLoop_again {answers : Nat → PollReply} (always : ∀ i, (answers i).again = true)
    (n : Nat) : pollLoop 0 ((List.range n).map answers) = none := by
  refine Option.eq_none_iff_forall_ne_some.mpr ?_
  rintro ⟨polls, ended⟩ h
  obtain ⟨k, -, first, -⟩ := pollLoop_answers.mp h
  exact absurd (always k) (Bool.eq_false_iff.mp first.ends)

/-- An answer that ends the loop and is no interruption is not an error. -/
theorem pollLoop_answered {rs : List PollReply} {polls : Nat} {reply : PollReply}
    (ended : pollLoop 0 rs = some (polls, .polled reply)) : 0 ≤ reply.res := by
  induction rs generalizing polls with
  | nil => cases ended
  | cons r rs ih =>
    by_cases again : r.again = true
    · rw [pollLoop_cons_again rs again] at ended
      obtain ⟨⟨polls', ended'⟩, hloop, h⟩ := Option.map_eq_some_iff.mp ended
      obtain ⟨-, rfl⟩ := Prod.mk.inj h
      exact ih hloop
    · rw [pollLoop_cons_ended rs (Bool.eq_false_iff.mpr again)] at ended
      obtain ⟨-, h⟩ := Prod.mk.inj (Option.some.inj ended)
      unfold PollReply.ended at h
      split at h
      · cases h
      · next answered =>
        cases h
        exact Int.not_lt.mp answered

namespace SocketManager

variable [DecidableEq ω]

/-- How many calls of `yaz_poll` the bound `pass < 10` permits: one, and ten retries. -/
def permittedPolls : Nat := 11

/-- What handling an answer of the `k`-th retry comes to. -/
def handled (now later : Int) (k : Nat) (reply : PollReply)
    (m : SocketManager ω) : Managed ω :=
  let inspected := (m.arm now).inspectPollResult reply m.pollSet (m.pollTimeout now) later
  { inspected with
    calls := List.replicate (k + 1) (.yazPoll m.pollSet (m.pollTimeout now)) ++ inspected.calls
    ret := 1 }

/-- What a call returns whose loop has ended. -/
def finish (now later : Int) (polls : Nat) (ended : PollEnd)
    (m : SocketManager ω) : Managed ω :=
  let made := List.replicate polls (.yazPoll m.pollSet (m.pollTimeout now))
  match ended with
  | .interrupted => { manager := m.arm now, calls := made, ret := 1 }
  | .polled reply =>
    if 0 ≤ reply.res then
      let inspected := (m.arm now).inspectPollResult reply m.pollSet (m.pollTimeout now) later
      { inspected with calls := made ++ inspected.calls, ret := 1 }
    else { manager := m.arm now, calls := made, ret := -1 }

/-- A `processEvent` that gets these answers from `yaz_poll`, one after the other, returns. -/
def Returns (m : SocketManager ω) (now : Int) (answers : Nat → PollReply)
    (later : Int) (o : Managed ω) : Prop :=
  ∃ n, m.processEvent now ((List.range n).map answers) later = some o

/-- What a call that polls returns, when the permitted calls of `yaz_poll` get these answers. -/
structure Answered (m : SocketManager ω) (now : Int) (answers : Nat → PollReply)
    (later : Int) (o : Managed ω) : Prop where
  interrupted : ∀ k < permittedPolls, (∀ i < k, (answers i).again = true) →
    (answers k).res < 0 → (answers k).eintr = true → o.ret = 1 ∧ o.manager = m.arm now
  failed : (∀ i < permittedPolls, (answers i).again = true) → o.ret = -1
  polled : ∀ k < permittedPolls, (∀ i < k, (answers i).again = true) → 0 ≤ (answers k).res →
    o = m.handled now later k (answers k)

/-- **The bound on the retries**: the call returns, with no more polls than are permitted, and with
what their answers say. -/
def Retried (m : SocketManager ω) (now : Int) (answers : Nat → PollReply)
    (later : Int) : Prop :=
  ∃ o, m.Returns now answers later o ∧ o.calls.countP ManagerCall.polls ≤ permittedPolls ∧
    (m.queue = [] → m.observers ≠ [] → m.Answered now answers later o)

/-! ## The call -/

/-- A call that does not poll: it notifies the front of the queue, or nobody. -/
theorem processEvent_idle {m : SocketManager ω} (now later : Int) (replies : List PollReply)
    (idle : m.queue ≠ [] ∨ m.observers = []) :
    ∃ o, m.processEvent now replies later = some o ∧
      ∀ c ∈ o.calls, ∃ observer event, c = .socketNotify observer event := by
  unfold processEvent
  by_cases queued : m.queue ≠ []
  · refine ⟨m.notifyFront [], if_pos queued, ?_⟩
    obtain ⟨-, hcalls⟩ := notifyFront_eq m []
    rw [hcalls]
    cases m.queue.head? with
    | none => exact List.forall_mem_nil _
    | some ev => exact List.forall_mem_singleton.mpr ⟨_, _, rfl⟩
  · refine ⟨{ manager := m }, ?_, List.forall_mem_nil _⟩
    rw [if_neg queued, if_pos (idle.resolve_left queued)]

/-- A call that polls goes as its loop goes. -/
theorem processEvent_loop {m : SocketManager ω} (now later : Int) (replies : List PollReply)
    (empty : m.queue = []) (observed : m.observers ≠ []) :
    m.processEvent now replies later =
      (pollLoop 0 replies).map fun next => m.finish now later next.1 next.2 := by
  unfold processEvent
  rw [if_neg fun h => h empty, if_neg observed]
  rfl

/-- The inspection of a poll does not poll. -/
theorem inspectFds_polls (res timeout now : Int) (fds : List PollFd) (output : List PollMask)
    (m : SocketManager ω) : ∀ c ∈ (m.inspectFds res timeout now fds output).calls,
      c.polls = false := by
  induction fds generalizing output m with
  | nil => exact List.forall_mem_nil _
  | cons fd fds ih =>
    have first : ∀ c ∈ (m.inspectFd res timeout now fd.fd (output.headD {})).calls,
        c.polls = false := by
      unfold inspectFd
      split
      · exact List.forall_mem_nil _
      · dsimp only
        split
        · exact List.forall_mem_singleton.mpr rfl
        · split
          · split
            · exact List.forall_mem_cons.mpr ⟨rfl, List.forall_mem_singleton.mpr rfl⟩
            · exact List.forall_mem_singleton.mpr rfl
          · exact List.forall_mem_nil _
    exact List.forall_mem_append.mpr ⟨first, ih output.tail _⟩

/-- Handling an answer polls no more. -/
theorem countP_handled (now later : Int) (k : Nat) (reply : PollReply) (m : SocketManager ω) :
    (m.handled now later k reply).calls.countP ManagerCall.polls = k + 1 := by
  let put := (m.arm now).inspectFds reply.res (m.pollTimeout now) later m.pollSet reply.output
  have put_polls : put.calls.countP ManagerCall.polls = 0 :=
    List.countP_eq_zero.mpr fun c hc => by
      rw [inspectFds_polls _ _ _ _ _ _ c hc]
      exact Bool.false_ne_true
  obtain ⟨-, notified⟩ := notifyFront_eq put.manager [.unhandled reply.res]
  have notified_polls : (put.manager.notifyFront [.unhandled reply.res]).calls.countP
      ManagerCall.polls = 0 := by
    rw [notified]
    cases put.manager.queue.head? <;> rfl
  have same : (m.arm now).inspectPollResult reply m.pollSet (m.pollTimeout now) later =
      { put.manager.notifyFront [.unhandled reply.res] with
        calls := put.calls ++ (put.manager.notifyFront [.unhandled reply.res]).calls } := by
    simp only [inspectPollResult, none_lost, Bool.false_eq_true, if_false]
    rfl
  simp only [handled, same, List.countP_append, put_polls, notified_polls, Nat.add_zero,
    List.countP_replicate, ManagerCall.polls, if_true]

/-- An answer that ends the loop is an interruption, or is handled. -/
theorem finish_ended (now later : Int) (k : Nat) (reply : PollReply) (m : SocketManager ω) :
    m.finish now later (k + 1) reply.ended =
      if reply.res < 0 then
        { manager := m.arm now
          calls := List.replicate (k + 1) (.yazPoll m.pollSet (m.pollTimeout now)), ret := 1 }
      else m.handled now later k reply := by
  by_cases failed : reply.res < 0
  · rw [PollReply.ended_interrupted failed, if_pos failed]
    rfl
  · have answered : 0 ≤ reply.res := Int.not_lt.mp failed
    rw [PollReply.ended_polled answered, if_neg failed]
    exact if_pos answered

theorem countP_finish_ended (now later : Int) (k : Nat) (reply : PollReply)
    (m : SocketManager ω) :
    (m.finish now later (k + 1) reply.ended).calls.countP ManagerCall.polls = k + 1 := by
  rw [finish_ended]
  split
  · simp only [List.countP_replicate, ManagerCall.polls, if_true]
  · exact countP_handled now later k reply m

/-- **A call that polls returns** when an answer ends its loop, with what that answer makes of
it. -/
theorem returns_iff {m : SocketManager ω} {now later : Int} {answers : Nat → PollReply}
    {o : Managed ω} (empty : m.queue = []) (observed : m.observers ≠ []) :
    m.Returns now answers later o ↔
      ∃ k, FirstEnd answers k ∧ m.finish now later (k + 1) (answers k).ended = o := by
  simp only [Returns, processEvent_loop now later _ empty observed, Option.map_eq_some_iff,
    Prod.exists]
  constructor
  · rintro ⟨n, polls, ended, loop, rfl⟩
    obtain ⟨k, -, first, rfl, rfl⟩ := pollLoop_answers.mp loop
    exact ⟨k, first, rfl⟩
  · rintro ⟨k, first, rfl⟩
    exact ⟨k + 1, _, _, pollLoop_answers.mpr ⟨k, Nat.lt_succ_self k, first, rfl, rfl⟩, rfl⟩

/-- The first answer that ends the loop, when it is one of the permitted polls, says what the call
returns. -/
theorem answered_finish {m : SocketManager ω} {answers : Nat → PollReply} {k : Nat}
    (now later : Int) (few : k < permittedPolls) (first : FirstEnd answers k) :
    m.Answered now answers later (m.finish now later (k + 1) (answers k).ended) := by
  constructor
  · intro k' _ before failed eintr
    have ends : (answers k').again = false := by
      simp only [PollReply.again, eintr, Bool.not_true, Bool.and_false]
    obtain rfl := first.unique ⟨before, ends⟩
    rw [PollReply.ended_interrupted failed]
    exact ⟨rfl, rfl⟩
  · intro always
    exact absurd (always k few) (Bool.eq_false_iff.mp first.ends)
  · intro k' _ before answered
    have ends : (answers k').again = false := by
      simp only [PollReply.again, Int.not_lt.mpr answered, decide_false, Bool.false_and]
    obtain rfl := first.unique ⟨before, ends⟩
    rw [finish_ended, if_neg (Int.not_lt.mpr answered)]

/-- **The retries keep to their bound exactly when** nothing is polled, or one of the first 11
answers of `yaz_poll` is not an error that is tried again. -/
theorem retries_bounded_iff (m : SocketManager ω) (now : Int) (answers : Nat → PollReply)
    (later : Int) : m.Retried now answers later ↔
      (m.queue = [] → m.observers ≠ [] → ∃ i < 11, (answers i).again = false) := by
  constructor
  · rintro ⟨o, returns, few, -⟩ empty observed
    obtain ⟨k, first, rfl⟩ := (returns_iff empty observed).mp returns
    rw [countP_finish_ended] at few
    exact ⟨k, few, first.ends⟩
  intro bounded
  by_cases idle : m.queue ≠ [] ∨ m.observers = []
  · obtain ⟨o, call, told⟩ := processEvent_idle now later [] idle
    have polls : o.calls.countP ManagerCall.polls = 0 := List.countP_eq_zero.mpr fun c hc => by
      obtain ⟨observer, event, rfl⟩ := told c hc
      exact Bool.false_ne_true
    refine ⟨o, ⟨0, call⟩, polls ▸ Nat.zero_le _, fun empty observed => ?_⟩
    exact absurd idle (not_or.mpr ⟨fun queued => queued empty, observed⟩)
  · obtain ⟨queued, observed⟩ := not_or.mp idle
    have empty := Classical.not_not.mp queued
    obtain ⟨k, few, first⟩ := firstEnd_of_exists (bounded empty observed)
    refine ⟨m.finish now later (k + 1) (answers k).ended,
      (returns_iff empty observed).mpr ⟨k, first, rfl⟩, ?_, fun _ _ => ?_⟩
    · rw [countP_finish_ended]
      exact few
    · exact answered_finish now later few first

/-- A bad descriptor in the poll set, an error that never clears: the call polls for ever. -/
theorem retries_unbounded :
    ∃ m : SocketManager Nat, m.observers = [{ observer := 1, fd := 3 }] ∧
      (∀ n, m.processEvent 100 ((List.range n).map fun _ => { res := -1 }) 100 = none) ∧
      ¬ m.Retried 100 (fun _ => { res := -1 }) 100 := by
  have never : ∀ n, (SocketManager.new.addObserver 3 1 : Managed Nat).manager.processEvent 100
      ((List.range n).map fun _ => { res := -1 }) 100 = none := by
    intro n
    rw [processEvent_loop 100 100 _ rfl (by decide), pollLoop_again (fun _ => rfl) n]
    rfl
  refine ⟨(SocketManager.new.addObserver 3 1).manager, rfl, never, ?_⟩
  rintro ⟨o, ⟨n, call⟩, -⟩
  rw [never n] at call
  cases call

end SocketManager

end Yazpp
