import Yazpp.Lib.History
import Yazpp.SocketManager.Spec

/-!
# Who is notified

An event is queued for an observer that is registered, and `deleteObserver` takes the events of its
observer out of the queue with the entry. `deleteObservers` forgets the queue: what is queued when
it is called goes to observers that are registered no more. Where every `deleteObservers` finds the
queue empty, only registered observers are notified (`only_registered_notified`).

`SocketManager.Fresh` is the result for one observer: from a moment on at which it has neither an
entry nor an event, nothing is queued for it before it is added, and nothing is notified that was
not queued since.
-/

set_option autoImplicit false

namespace Yazpp

open Yazpp.Lib

variable {ω : Type}

namespace SocketManager

/-! ## One observer from a moment on -/

/-- What holds of an observer since a moment at which it had neither an entry nor an event, with
the history since: it was added before it is registered, and an event for it was put after it was
added and before it is notified. -/
structure Fresh (x : ω) (m : SocketManager ω) (h : List (ManagerCall ω)) : Prop where
  registered : x ∈ m.registered → .added x ∈ h
  queued : ∀ ev ∈ m.queue, ev.observer = x → .putEvent x ev.event ∈ h
  put : ∀ event, Preceded h (· = .putEvent x event) (· = .added x)
  notified : ∀ event, Preceded h (· = .socketNotify x event) (· = .putEvent x event)

/-- The calls put nothing and notify nobody. -/
def Quiet (calls : List (ManagerCall ω)) : Prop :=
  ∀ c ∈ calls, c.put? = none ∧ ∀ observer event, c ≠ .socketNotify observer event

theorem put?_putEvent (o : ω) (event : Nat) :
    (ManagerCall.putEvent o event).put? = some { observer := o, event := event } := rfl

/-- A history that put nothing and notified nobody has nothing out of turn. -/
theorem Quiet.inTurn {h : List (ManagerCall ω)} (quiet : Quiet h) (x : ω) (event : Nat) :
    Preceded h (· = .putEvent x event) (· = .added x) ∧
      Preceded h (· = .socketNotify x event) (· = .putEvent x event) := by
  refine ⟨.of_none ?_, .of_none ?_⟩
  · rintro c hc rfl
    exact Option.some_ne_none _ (quiet _ hc).1
  · rintro c hc rfl
    exact (quiet _ hc).2 x event rfl

/-- An observer that has neither an entry nor an event, behind such a history. -/
theorem fresh_of_quiet {x : ω} {m : SocketManager ω} {h : List (ManagerCall ω)}
    (unregistered : x ∉ m.registered) (unqueued : ∀ ev ∈ m.queue, ev.observer ≠ x)
    (quiet : Quiet h) : Fresh x m h where
  registered hx := absurd hx unregistered
  queued ev hev hx := absurd hx (unqueued ev hev)
  put event := (quiet.inTurn x event).1
  notified event := (quiet.inTurn x event).2

/-- An operation that puts nothing and notifies nobody, and registers only whom it adds. -/
theorem Fresh.quiet {x : ω} {m m' : SocketManager ω} {h calls : List (ManagerCall ω)}
    (fresh : Fresh x m h) (quiet : Quiet calls)
    (added : x ∈ m'.registered → x ∈ m.registered ∨ .added x ∈ calls)
    (queue : ∀ ev ∈ m'.queue, ev ∈ m.queue) : Fresh x m' (h ++ calls) where
  registered hx := by
    rcases added hx with hx | hx
    · exact List.mem_append_left _ (fresh.registered hx)
    · exact List.mem_append_right _ hx
  queued ev hev hx := List.mem_append_left _ (fresh.queued ev (queue ev hev) hx)
  put event := by
    apply (fresh.put event).append_none
    rintro c hc rfl
    exact Option.some_ne_none _ (quiet _ hc).1
  notified event := by
    apply (fresh.notified event).append_none
    rintro c hc rfl
    exact (quiet _ hc).2 x event rfl

/-- Every queued event belongs to a registered observer. -/
def Owned (m : SocketManager ω) : Prop := ∀ ev ∈ m.queue, ev.observer ∈ m.registered

/-- A step that does not meet the condition leaves events in the queue whose observers are not
registered. -/
theorem strands_deleteObservers {m : SocketManager ω} (queued : m.queue ≠ []) :
    ¬ m.deleteObservers.manager.Owned := by
  intro owned
  obtain ⟨ev, queue, hq⟩ := List.exists_cons_of_ne_nil queued
  have hev : ev ∈ m.queue := hq ▸ List.mem_cons_self
  exact List.not_mem_nil (owned ev hev)

end SocketManager

variable [DecidableEq ω]

namespace SocketManager

/-- The same for `processEvent`: what it puts is for registered observers, and what it notifies was
queued or has just been put. -/
theorem Fresh.processed {x : ω} {m : SocketManager ω} {o : Managed ω}
    {h : List (ManagerCall ω)} (fresh : Fresh x m h) (processed : Processed m o) :
    Fresh x o.manager (h ++ o.calls) := by
  cases processed with
  | nothing registered queue silent puts =>
    refine fresh.quiet ?_ (fun hx => .inl (registered ▸ hx)) fun ev hev => queue ▸ hev
    intro c hc
    refine ⟨List.filterMap_eq_nil_iff.mp puts c hc, ?_⟩
    rintro observer event rfl
    exact Bool.noConfusion (silent _ hc)
  | @notified made puts front registered owned queue hputs silent hcalls =>
    have put_mem : ∀ ev ∈ puts, .putEvent ev.observer ev.event ∈ made := by
      intro ev hev
      obtain ⟨c, hc, hput⟩ := List.mem_filterMap.mp (hputs ▸ hev)
      cases c <;> cases hput
      exact hc
    have known : ∀ ev ∈ m.queue ++ puts, ev.observer = x → .putEvent x ev.event ∈ h ++ made := by
      rintro ev hev rfl
      rcases List.mem_append.mp hev with hev | hev
      · exact List.mem_append_left _ (fresh.queued ev hev rfl)
      · exact List.mem_append_right _ (put_mem ev hev)
    have putBefore : ∀ event, Preceded (h ++ made) (· = .putEvent x event) (· = .added x) := by
      intro event
      by_cases hx : x ∈ m.registered
      · exact (fresh.put event).append_of_mem (fresh.registered hx) rfl
      · apply (fresh.put event).append_none
        rintro c hc rfl
        have hev : { observer := x, event := event } ∈ puts :=
          hputs ▸ List.mem_filterMap.mpr ⟨_, hc, put?_putEvent x event⟩
        exact hx (owned _ hev)
    rw [hcalls, ← List.append_assoc]
    refine ⟨?_, ?_, ?_, ?_⟩
    · intro hx
      exact List.mem_append_left _ (List.mem_append_left _ (fresh.registered (registered ▸ hx)))
    · intro ev hev hx
      exact List.mem_append_left _ (known ev (queue ▸ List.mem_cons_of_mem _ hev) hx)
    · intro event
      exact (putBefore event).snoc fun hput => absurd hput nofun
    · intro event
      apply Preceded.snoc
      · apply (fresh.notified event).append_none
        rintro c hc rfl
        exact Bool.noConfusion (silent _ hc)
      · intro hnotify
        obtain ⟨hobs, hevent⟩ := ManagerCall.socketNotify.inj hnotify
        exact ⟨_, known front (queue ▸ List.mem_cons_self) hobs, hevent ▸ rfl⟩

/-- **One operation** keeps an observer fresh. -/
theorem Fresh.step {x : ω} {m m' : SocketManager ω} {i : ManagerInput ω}
    {h calls : List (ManagerCall ω)} (fresh : Fresh x m h)
    (step : (socketManager ω).step m i = some (m', calls)) : Fresh x m' (h ++ calls) := by
  obtain ⟨o, perform, hnext⟩ := Option.map_eq_some_iff.mp step
  obtain ⟨rfl, rfl⟩ := Prod.mk.inj hnext
  cases i with
  | addObserver fd observer =>
    cases perform
    apply fresh.quiet
    · exact List.forall_mem_singleton.mpr ⟨rfl, fun _ _ => nofun⟩
    · intro hx
      rcases registered_addObserver.mp hx with rfl | hx
      · exact .inr (List.mem_singleton_self _)
      · exact .inl hx
    · intro ev hev
      exact queue_addObserver m fd observer ▸ hev
  | deleteObserver observer =>
    cases perform
    apply fresh.quiet
    · exact List.forall_mem_singleton.mpr ⟨rfl, fun _ _ => nofun⟩
    · exact fun hx => .inl (registered_deleteObserver.mp hx).2
    · exact fun ev hev => (mem_queue_deleteObserver.mp hev).1
  | deleteObservers =>
    cases perform
    exact fresh.quiet (List.forall_mem_nil _) (fun hx => absurd hx List.not_mem_nil) fun _ => id
  | maskObserver observer mask fd =>
    cases perform
    refine fresh.quiet (List.forall_mem_nil _) (fun hx => .inl ?_) fun _ => id
    simpa only [maskObserver, registered_assign] using hx
  | timeoutObserver observer timeout =>
    cases perform
    refine fresh.quiet (List.forall_mem_nil _) (fun hx => .inl ?_) fun _ => id
    simpa only [timeoutObserver, registered_assign] using hx
  | processEvent now replies later => exact fresh.processed (processEvent_processed perform)

/-! ## Every sequence of operations -/

end SocketManager

/-- Whether an observer is registered behind an operation, told from the operation alone. -/
def ManagerInput.registers (observer : ω) (before : Bool) : ManagerInput ω → Bool
  | .addObserver _ o => if o = observer then true else before
  | .deleteObserver o => if o = observer then false else before
  | .deleteObservers => false
  | .maskObserver _ _ _ => before
  | .timeoutObserver _ _ => before
  | .processEvent _ _ _ => before

/-- Whether a sequence of operations leaves an observer registered: it was added, and not deleted
since. -/
def registeredBy (observer : ω) (is : List (ManagerInput ω)) : Bool :=
  is.foldl (ManagerInput.registers observer) false

/-- A manager from its constructor on. -/
def Managing (m : SocketManager ω) (log : List (ManagerInput ω × List (ManagerCall ω))) : Prop :=
  m = SocketManager.new ∧ log = []

omit [DecidableEq ω] in
theorem managing_new : Managing (SocketManager.new : SocketManager ω) [] := ⟨rfl, rfl⟩

/-- The condition on a step: `deleteObservers` finds no event queued. -/
def drained (m : SocketManager ω) : ManagerInput ω → Bool
  | .deleteObservers => m.queue.isEmpty
  | _ => true

namespace SocketManager

/-- **One operation**: who is registered behind it. -/
theorem registered_step {m m' : SocketManager ω} {i : ManagerInput ω}
    {calls : List (ManagerCall ω)} {x : ω}
    (step : (socketManager ω).step m i = some (m', calls)) :
    x ∈ m'.registered ↔ i.registers x (decide (x ∈ m.registered)) = true := by
  obtain ⟨o, perform, hnext⟩ := Option.map_eq_some_iff.mp step
  obtain ⟨rfl, rfl⟩ := Prod.mk.inj hnext
  cases i with
  | addObserver fd observer =>
    cases perform
    rw [registered_addObserver, ManagerInput.registers]
    by_cases h : observer = x
    · simp only [h, true_or, if_true]
    · simp only [h, Ne.symm h, false_or, if_false, decide_eq_true_eq]
  | deleteObserver observer =>
    cases perform
    rw [registered_deleteObserver, ManagerInput.registers]
    by_cases h : observer = x
    · simp only [h, ne_eq, not_true_eq_false, false_and, if_true, Bool.false_eq_true]
    · simp only [h, Ne.symm h, ne_eq, not_false_eq_true, true_and, if_false, decide_eq_true_eq]
  | deleteObservers =>
    cases perform
    exact ⟨fun h => absurd h List.not_mem_nil, fun h => Bool.noConfusion h⟩
  | maskObserver observer mask fd =>
    cases perform
    simp only [maskObserver, registered_assign, ManagerInput.registers, decide_eq_true_eq]
  | timeoutObserver observer timeout =>
    cases perform
    simp only [timeoutObserver, registered_assign, ManagerInput.registers, decide_eq_true_eq]
  | processEvent now replies later =>
    have same : o.manager.registered = m.registered := by
      cases processEvent_processed perform <;> assumption
    rw [same, ManagerInput.registers, decide_eq_true_eq]

/-- **One operation** that meets the condition keeps the queue with registered observers, and
notifies one of them. -/
theorem Owned.step {m m' : SocketManager ω} {i : ManagerInput ω} {calls : List (ManagerCall ω)}
    (owned : m.Owned) (admitted : drained m i = true)
    (step : (socketManager ω).step m i = some (m', calls)) :
    m'.Owned ∧ ∀ x event, .socketNotify x event ∈ calls → x ∈ m.registered := by
  obtain ⟨o, perform, hnext⟩ := Option.map_eq_some_iff.mp step
  obtain ⟨rfl, rfl⟩ := Prod.mk.inj hnext
  cases i with
  | addObserver fd observer =>
    cases perform
    refine ⟨?_, fun x event h => by cases List.mem_singleton.mp h⟩
    intro ev hev
    rw [queue_addObserver] at hev
    exact registered_addObserver.mpr (.inr (owned ev hev))
  | deleteObserver observer =>
    cases perform
    refine ⟨?_, fun x event h => by cases List.mem_singleton.mp h⟩
    intro ev hev
    obtain ⟨hev, other⟩ := mem_queue_deleteObserver.mp hev
    refine registered_deleteObserver.mpr ⟨?_, owned ev hev⟩
    intro hx
    exact other (hx ▸ owned ev hev) hx
  | deleteObservers =>
    cases perform
    refine ⟨?_, fun x event h => absurd h List.not_mem_nil⟩
    intro ev hev
    have empty : m.queue = [] := List.isEmpty_iff.mp admitted
    exact absurd (empty ▸ hev : ev ∈ []) List.not_mem_nil
  | maskObserver observer mask fd =>
    cases perform
    refine ⟨?_, fun x event h => absurd h List.not_mem_nil⟩
    intro ev hev
    simpa only [maskObserver, registered_assign] using owned ev hev
  | timeoutObserver observer timeout =>
    cases perform
    refine ⟨?_, fun x event h => absurd h List.not_mem_nil⟩
    intro ev hev
    simpa only [timeoutObserver, registered_assign] using owned ev hev
  | processEvent now replies later =>
    cases processEvent_processed perform with
    | nothing registered queue silent =>
      refine ⟨fun ev hev => registered ▸ owned ev (queue ▸ hev), ?_⟩
      intro x event h
      exact Bool.noConfusion (silent _ h)
    | @notified made puts front registered hputs queue _ silent hcalls =>
      have all : ∀ ev ∈ front :: o.manager.queue, ev.observer ∈ m.registered := by
        intro ev hev
        rcases List.mem_append.mp (queue ▸ hev) with hev | hev
        · exact owned ev hev
        · exact hputs ev hev
      refine ⟨fun ev hev => registered ▸ all ev (List.mem_cons_of_mem _ hev), ?_⟩
      intro x event h
      rcases List.mem_append.mp (hcalls ▸ h) with h | h
      · exact Bool.noConfusion (silent _ h)
      · obtain ⟨rfl, -⟩ := ManagerCall.socketNotify.inj (List.mem_singleton.mp h)
        exact all front List.mem_cons_self

end SocketManager

/-- **Only registered observers are notified**, in every sequence of operations in which each
`deleteObservers` finds no event queued: every queued event belongs to a registered observer, and
whoever is notified had been added and not deleted since. -/
theorem only_registered_notified {is : List (ManagerInput ω)} {m : SocketManager ω}
    {log : List (ManagerInput ω × List (ManagerCall ω))}
    (run : ((socketManager ω).logged.restrict drained).Run Managing is m log) :
    m.Owned ∧ ∀ pre e post, log = pre ++ e :: post →
      ∀ x event, .socketNotify x event ∈ e.2 → registeredBy x (pre.map Prod.fst) = true := by
  have inv := run.invariant_restrict
    (fun m log => m.Owned ∧ (∀ x, x ∈ m.registered ↔ registeredBy x (log.map Prod.fst) = true) ∧
      ∀ pre e post, log = pre ++ e :: post →
        ∀ x event, .socketNotify x event ∈ e.2 → registeredBy x (pre.map Prod.fst) = true)
    (by
      rintro _ _ ⟨rfl, rfl⟩
      refine ⟨List.forall_mem_nil _, fun x => ?_, ?_⟩
      · exact ⟨fun h => absurd h List.not_mem_nil, fun h => Bool.noConfusion h⟩
      · intro pre e post h
        exact absurd h.symm (List.append_ne_nil_of_right_ne_nil _ (List.cons_ne_nil _ _)))
    (by
      intro m log i m' entry inv admitted hstep
      obtain ⟨calls, step, rfl⟩ := Machine.logged_step.mp hstep
      obtain ⟨owned, registered, notified⟩ := inv
      obtain ⟨owned', now⟩ := owned.step admitted step
      refine ⟨owned', fun x => ?_, ?_⟩
      · have before : registeredBy x (log.map Prod.fst) = decide (x ∈ m.registered) := by
          rw [Bool.eq_iff_iff, decide_eq_true_eq]
          exact (registered x).symm
        rw [SocketManager.registered_step step, List.map_append, registeredBy, List.foldl_append]
        show _ ↔ i.registers x (registeredBy x (log.map Prod.fst)) = true
        rw [before]
      · intro pre e post h x event hnotify
        rcases List.eq_nil_or_concat post with rfl | ⟨post, last, rfl⟩
        · obtain ⟨rfl, he⟩ := List.append_inj' h rfl
          cases he
          exact (registered x).mp (now x event hnotify)
        · rw [List.concat_eq_append, ← List.cons_append, ← List.append_assoc] at h
          exact notified pre e post (List.append_inj' h rfl).1 x event hnotify)
  exact ⟨inv.1, inv.2.2⟩

/-- Two observers that one poll finds ready. -/
def readyTwice : List (ManagerInput Nat) :=
  [.addObserver 5 1, .maskObserver 1 observeRead 5, .addObserver 6 2, .maskObserver 2 observeRead 6,
    .processEvent 100 [{ res := 2, output := [{ read := true }, { read := true }] }] 100]

/-- The first of them, inside its `socketNotify`, deletes all observers, and the next
`processEvent` notifies the second all the same. -/
theorem unregistered_notified :
    ¬ ∀ (is : List (ManagerInput Nat)) m log, (socketManager Nat).logged.Run Managing is m log →
      m.Owned ∧ ∀ pre e post, log = pre ++ e :: post →
        ∀ x event, .socketNotify x event ∈ e.2 → registeredBy x (pre.map Prod.fst) = true := by
  intro claim
  obtain ⟨m, log, ran, hlog⟩ := Machine.Run.of_exec (f := fun _ log => log)
    managing_new
    (rfl : ((socketManager Nat).logged.exec SocketManager.new
      (readyTwice ++ [.deleteObservers, .processEvent 101 [] 101])).map Prod.snd = some _)
  have notified := (claim _ m log ran).2 (log.take 6) (.processEvent 101 [] 101,
    [.socketNotify 1 observeRead]) [] (by rw [hlog]; rfl) 1 observeRead (List.mem_singleton_self _)
  rw [hlog] at notified
  exact Bool.noConfusion notified

/-- With `deleteObserver` instead, the second is not notified, and `deleteObservers` finds the
queue empty. -/
theorem only_registered_notified_deleted : ∃ m log,
    ((socketManager Nat).logged.restrict drained).Run Managing
      (readyTwice ++ [.deleteObserver 1, .processEvent 101 [{ res := 0 }] 101, .deleteObservers])
      m log ∧ log.length = 8 ∧
    m.Owned ∧ ∀ pre e post, log = pre ++ e :: post →
      ∀ x event, .socketNotify x event ∈ e.2 → registeredBy x (pre.map Prod.fst) = true := by
  obtain ⟨m, log, ran, hlength⟩ := Machine.Run.of_exec (f := fun _ log => log.length)
    managing_new
    (rfl : (((socketManager Nat).logged.restrict drained).exec SocketManager.new
      (readyTwice ++ [.deleteObserver 1, .processEvent 101 [{ res := 0 }] 101,
        .deleteObservers])).map (fun next => next.2.length) = some 8)
  exact ⟨m, log, ran, hlength, only_registered_notified ran⟩

end Yazpp
