import Yazpp.PduAssoc.Spec

/-!
# Closing a session

`close_session` on an association that has something to write only marks the session dead: the
connection is to go on until the queue is written, and then to be shut down with a `failNotify`,
like every other end of a connection. After it the application stays silent here: the events that
come are those of the socket manager while the association is registered, and the returns of
callbacks (`silent`).

The queue is drained as it should be: what is shut down before that is shut down for a reason
(`Excused`). The notification is missing in one place: `flush_PDU` shuts the dead session down
behind the last PDU it wrote, and tells nobody, where its own branch for an empty queue and
`close_session` itself do. So the close is graceful exactly while that last PDU is not written
whole (`graceful_close_iff`).
-/

set_option autoImplicit false

namespace Yazpp

open Yazpp.Lib

/-! ## What a run after `close_session` is held to -/

/-- The PDUs that `cs_put` took whole. -/
def completed (h : List Call) : List Buf :=
  h.filterMap fun
    | .csPut _ buf res => if 0 ≤ res ∧ res ≠ 1 then some buf else none
    | _ => none

theorem completed_append (h calls : List Call) :
    completed (h ++ calls) = completed h ++ completed calls :=
  List.filterMap_append

/-- The transport reports an error, or the peer has closed. -/
def Call.failure : Call → Bool
  | .csPut _ _ res => decide (res < 0)
  | .csGet _ res _ => decide (res ≤ 0)
  | .csAccept _ res => decide (res = 0)
  | _ => false

/-- An EXCEPT event. -/
def Input.except : Input → Bool
  | .socketNotify event _ => testMask event observeExcept
  | _ => false

/-- A reason to shut the connection down before everything is written. -/
def Excused (js : List Input) (h : List Call) : Prop :=
  (∃ c ∈ h, c.failure = true) ∨ ∃ i ∈ js, i.except = true

/-- A graceful close of an association that had `queue` to write: it is not shut down before that
is written or for a reason, and when it is shut down the observer hears of it once. -/
def Graceful (queue : List Buf) (js : List Input) (h : List Call) : Prop :=
  .deleteObserver ∈ h → (completed h = queue ∨ Excused js h) ∧ h.count .failNotify = 1

/-- An association with a connection, established or on the way to it, and an observer. -/
structure Sys.Live (s : Sys) : Prop where
  alive : s.alive = true
  observer : s.assoc.observer ≠ 0
  state : s.assoc.state ≠ .closed ∧ s.assoc.state ≠ .listen

/-- A socket event, or the return of a callback. -/
def Input.unasked : Input → Bool
  | .socketNotify .. | .ret _ => true
  | _ => false

/-- The application is silent: nothing comes but socket events, while the association is
registered for them, and the returns of callbacks. -/
def Input.isSilent (s : Sys) (i : Input) : Bool := i.unasked && i.delivered s

/-- The association while the application is silent. -/
def silent : Machine Sys Input Call := pdu.restrict Input.isSilent

/-! ## What one function does to a dead session -/

/-- The outcome has shut the association down. -/
structure Outcome.Shut (o : Outcome) : Prop where
  state : o.assoc.state = .closed
  cs : o.assoc.cs = 0
  deleted : .deleteObserver ∈ o.calls
  left : .addObserver ∉ o.calls

/-- What a function does to a dead session that has something to write: it goes on, or the last
PDU was written and it is shut down in silence, or it is shut down for a reason. -/
inductive Closes (a : PduAssoc) (except : Prop) (o : Outcome) : Prop
  | stays : o.assoc.state ≠ .closed → o.assoc.sessionIsDead = true → o.assoc.observer ≠ 0 →
      completed o.calls ++ o.assoc.queueOut = a.queueOut → o.assoc.queueOut ≠ [] →
      .deleteObserver ∉ o.calls → .failNotify ∉ o.calls → Closes a except o
  | drained : o.Shut → completed o.calls = a.queueOut → .failNotify ∉ o.calls →
      Closes a except o
  | failed : o.Shut → completed o.calls = [] → o.calls.count .failNotify = 1 →
      (except ∨ ∃ c ∈ o.calls, c.failure = true) → Closes a except o

/-- A dead session that has something to write. -/
structure Dying (a : PduAssoc) : Prop where
  state : a.state ≠ .closed
  dead : a.sessionIsDead = true
  observer : a.observer ≠ 0
  queue : a.queueOut ≠ []

/-- A call that says nothing about the close. -/
def Call.neutral : Call → Bool
  | .csPut .. | .deleteObserver | .addObserver | .failNotify => false
  | _ => true

theorem completed_neutral {calls : List Call} (neutral : calls.all Call.neutral = true) :
    completed calls = [] := by
  simp only [completed, List.filterMap_eq_nil_iff]
  intro c hc
  have hn := List.all_eq_true.mp neutral c hc
  cases c <;> first | rfl | cases hn

theorem not_mem_neutral {calls : List Call} (neutral : calls.all Call.neutral = true) {c : Call}
    (hc : c.neutral = false) : c ∉ calls := fun hmem =>
  absurd (hc.symm.trans (List.all_eq_true.mp neutral c hmem)) nofun

/-- A function that makes neutral calls, on a dying session that it leaves dying. -/
theorem Dying.stays {a : PduAssoc} {o : Outcome} {except : Prop} (dying : Dying a)
    (state : o.assoc.state ≠ .closed) (dead : o.assoc.sessionIsDead = a.sessionIsDead)
    (observer : o.assoc.observer = a.observer) (queue : o.assoc.queueOut = a.queueOut)
    (neutral : o.calls.all Call.neutral = true) : Closes a except o := by
  refine .stays state (dead.trans dying.dead) (observer ▸ dying.observer) ?_ (queue ▸ dying.queue)
    (not_mem_neutral neutral rfl) (not_mem_neutral neutral rfl)
  rw [completed_neutral neutral, queue, List.nil_append]

/-- Neutral calls made before. -/
theorem Closes.after {a b : PduAssoc} {except : Prop} {o : Outcome} {calls : List Call}
    (closes : Closes b except o) (same : b.queueOut = a.queueOut)
    (neutral : calls.all Call.neutral = true) : Closes a except (o.after calls) := by
  have hcompleted : completed (o.after calls).calls = completed o.calls := by
    rw [Outcome.after_calls, completed_append, completed_neutral neutral, List.nil_append]
  have shut : o.Shut → (o.after calls).Shut := fun hshut =>
    ⟨hshut.state, hshut.cs, List.mem_append_right _ hshut.deleted, fun hmem =>
      (List.mem_append.mp hmem).elim (not_mem_neutral neutral rfl) hshut.left⟩
  have quiet : ∀ {c : Call}, c.neutral = false → c ∉ o.calls → c ∉ (o.after calls).calls :=
    fun hc hmem h => (List.mem_append.mp h).elim (not_mem_neutral neutral hc) hmem
  cases closes with
  | stays state dead observer queue left unclosed unnotified =>
    exact .stays state dead observer (by rw [hcompleted]; exact queue.trans same) left
      (quiet rfl unclosed) (quiet rfl unnotified)
  | drained hshut queue unnotified =>
    exact .drained (shut hshut) (hcompleted.trans (queue.trans same)) (quiet rfl unnotified)
  | failed hshut none once why =>
    refine .failed (shut hshut) (hcompleted.trans none) ?_ ?_
    · rw [Outcome.after_calls, List.count_append, once,
        List.count_eq_zero.mpr (not_mem_neutral neutral rfl)]
    · exact why.imp id fun ⟨c, hc, hfailure⟩ => ⟨c, List.mem_append_right _ hc, hfailure⟩

theorem completed_shutdown (a : PduAssoc) : completed a.shutdown.calls = [] :=
  a.shutdown_calls_filterMap (fun _ => rfl) fun _ => rfl

theorem shut_shutdown (a : PduAssoc) : a.shutdown.Shut :=
  ⟨rfl, rfl, PduAssoc.mem_shutdown_calls.mpr (.inr (.inl rfl)), fun hmem => by
    simp [PduAssoc.mem_shutdown_calls] at hmem⟩

theorem not_failNotify_shutdown (a : PduAssoc) : .failNotify ∉ a.shutdown.calls := fun hmem => by
  simp [PduAssoc.mem_shutdown_calls] at hmem

/-- `shutdown` and `failNotify`, for a reason. -/
theorem closes_fail {a b : PduAssoc} {except : Prop} {calls : List Call} (ret : Int)
    (completes : completed calls = []) (neutral : .failNotify ∉ calls)
    (added : .addObserver ∉ calls)
    (why : except ∨ ∃ c ∈ calls, c.failure = true) :
    Closes a except { b.shutdown.fail.after calls with ret := ret } := by
  have shut := shut_shutdown b
  refine .failed ⟨rfl, rfl, ?_, ?_⟩ ?_ ?_ ?_
  · simp [shut.deleted]
  · simp [shut.left, added]
  · simp only [Outcome.after_calls, Outcome.fail_calls, completed_append, completes,
      completed_shutdown]
    rfl
  · simp only [Outcome.after_calls, Outcome.fail_calls, List.count_append,
      List.count_eq_zero.mpr neutral, List.count_eq_zero.mpr (not_failNotify_shutdown b)]
    rfl
  · exact why.imp id fun ⟨c, hc, hfailure⟩ => ⟨c, List.mem_append_left _ hc, hfailure⟩

/-! ## Each function -/

theorem closes_flushPdu {ans : Answers} {a : PduAssoc} {except : Prop} (dying : Dying a) :
    Closes a except (a.flushPdu ans) := by
  have fl := PduAssoc.flushPdu_flushed ans a
  generalize a.flushPdu ans = o at fl
  cases fl with
  | notReady => exact dying.stays dying.state rfl rfl rfl rfl
  | idle _ hq => exact absurd hq dying.queue
  | idleDead _ hq => exact absurd hq dying.queue
  | failed _ _ hneg =>
    have unfinished : ¬(0 ≤ ans.put.res ∧ ans.put.res ≠ 1) := by omega
    exact closes_fail _ (by simp [completed, unfinished]) (by simp) (by simp)
      (.inr ⟨_, List.mem_singleton_self _, by simp [Call.failure, hneg]⟩)
  | partly _ _ hone =>
    refine .stays nofun dying.dead dying.observer ?_ dying.queue (by simp) (by simp)
    simp [completed, hone]
  | drained _ _ _ _ hd => exact absurd (hd.symm.trans dying.dead) nofun
  | drainedDead _ hq hnn hone =>
    have shut := shut_shutdown a
    refine .drained ⟨rfl, rfl, ?_, ?_⟩ ?_ ?_
    · simp [shut.deleted]
    · simp [shut.left]
    · simp only [Outcome.after_calls, completed_append, completed_shutdown, hq]
      simp [completed, hnn, hone]
    · simp [not_failNotify_shutdown]
  | more _ hq hrest hnn hone =>
    refine .stays dying.state dying.dead dying.observer ?_ hrest (by simp) (by simp)
    simp [completed, hnn, hone, hq]

theorem closes_receive {ans : Answers} {depth : Nat} {a : PduAssoc} {except : Prop}
    (dying : Dying a) : Closes a except (a.receive ans depth) := by
  have rc := PduAssoc.receive_received ans depth a
  generalize a.receive ans depth = o at rc
  cases rc with
  | waits => exact dying.stays dying.state rfl rfl rfl rfl
  | closed hle =>
    exact closes_fail 0 rfl (by simp) (by simp)
      (.inr ⟨_, List.mem_singleton_self _, by simp [Call.failure, hle]⟩)
  | closedUnobserved _ hobs => exact absurd hobs dying.observer
  | pdu => exact dying.stays dying.state rfl rfl rfl rfl
  | pduUnobserved _ hobs => exact absurd hobs dying.observer

theorem closes_socketNotify {event : Nat} {ans : Answers} {depth : Nat} {a : PduAssoc}
    (dying : Dying a) :
    Closes a (testMask event observeExcept = true) (a.socketNotify event ans depth) := by
  have ready : Dying { a with state := .ready } := ⟨nofun, dying.dead, dying.observer, dying.queue⟩
  have nt := PduAssoc.socketNotify_notified event ans depth a
  generalize a.socketNotify event ans depth = o at nt
  cases nt with
  | except hx =>
    have shut : Closes a _ { a.shutdown.fail.after [] with ret := 0 } :=
      closes_fail 0 rfl (by simp) (by simp) (.inl hx)
    exact shut
  | timeout => exact dying.stays dying.state rfl rfl rfl rfl
  | acceptFailed _ hnull =>
    exact closes_fail 0 rfl (by simp) (by simp)
      (.inr ⟨_, List.mem_singleton_self _, by simp [Call.failure, hnull]⟩)
  | acceptMore => exact dying.stays dying.state rfl rfl rfl rfl
  | acceptDone => exact (closes_flushPdu ready).after rfl rfl
  | connectMore => exact dying.stays dying.state rfl rfl rfl rfl
  | connectDone => exact dying.stays nofun rfl rfl rfl rfl
  | connectUnobserved _ _ hobs => exact absurd hobs dying.observer
  | listened =>
    have ls := PduAssoc.notifyListen_listened event ans a
    generalize a.notifyListen event ans = o at ls
    cases ls <;> exact dying.stays dying.state rfl rfl rfl rfl
  | writing => exact closes_flushPdu dying
  | ready => exact closes_receive dying
  | nothing => exact dying.stays dying.state rfl rfl rfl rfl
  | closed hs => exact absurd hs dying.state

theorem closes_resume {f : Frame} {ans : Answers} {depth : Nat} {a : PduAssoc} {except : Prop}
    (dying : Dying a) : Closes a except (a.resume f ans depth) := by
  cases f with
  | recv destroyed =>
    cases destroyed with
    | true => exact dying.stays dying.state rfl rfl rfl rfl
    | false =>
      have cleared : Dying { a with destroyed := .null } :=
        ⟨dying.state, dying.dead, dying.observer, dying.queue⟩
      have rs := PduAssoc.resumeRecv_resumed ans depth a
      simp only [PduAssoc.resume]
      generalize a.resumeRecv ans depth = o at rs
      cases rs with
      | gone => exact dying.stays dying.state rfl rfl rfl rfl
      | more => exact (closes_receive cleared).after rfl rfl
      | ready => exact dying.stays dying.state rfl rfl rfl rfl
      | notReady => exact dying.stays dying.state rfl rfl rfl rfl
  | connect => exact closes_flushPdu dying
  | session child =>
    simp only [PduAssoc.resume, PduAssoc.resumeSession]
    split <;> exact dying.stays dying.state rfl rfl rfl rfl
  | tail => exact dying.stays dying.state rfl rfl rfl rfl

/-! ## Runs -/

/-- Once the association is unregistered, and not registered again, it stays so. -/
theorem onEntry_none {calls : List Call} (left : .addObserver ∉ calls) :
    calls.foldl Call.onEntry none = none := by
  induction calls with
  | nil => rfl
  | cons c calls ih =>
    simp only [List.mem_cons, not_or] at left
    have hc : Call.onEntry none c = none := by
      cases c with
      | addObserver => exact absurd rfl left.1
      | _ => rfl
    rw [List.foldl_cons, hc]
    exact ih left.2

/-- `deleteObserver` takes the entry, whatever it was. -/
theorem onEntry_deleted {calls : List Call} (deleted : .deleteObserver ∈ calls)
    (left : .addObserver ∉ calls) (entry : Option Nat) :
    calls.foldl Call.onEntry entry = none := by
  obtain ⟨pre, post, rfl⟩ := List.append_of_mem deleted
  rw [List.foldl_append, List.foldl_cons]
  exact onEntry_none fun hmem => left (List.mem_append_right _ (List.mem_cons_of_mem _ hmem))

/-- An association that was shut down and hears of no more events. -/
structure Sys.Down (s : Sys) : Prop where
  state : s.assoc.state = .closed
  cs : s.assoc.cs = 0
  entry : s.entry = none

theorem Outcome.Shut.down {o : Outcome} (shut : o.Shut) (s : Sys) : (s.perform o).1.Down :=
  ⟨shut.state, shut.cs, onEntry_deleted shut.deleted shut.left s.entry⟩

/-- Where a run stands: still writing, or down after the last PDU and untold, or down and told. -/
inductive Closing (queue : List Buf) (js : List Input) (s : Sys) (h : List Call) : Prop
  | writing : Dying s.assoc → completed h ++ s.assoc.queueOut = queue → .deleteObserver ∉ h →
      .failNotify ∉ h → Closing queue js s h
  | untold : s.Down → queue ≠ [] → completed h = queue → .deleteObserver ∈ h → .failNotify ∉ h →
      Closing queue js s h
  | told (rest : List Buf) : s.Down → completed h ++ rest = queue → .deleteObserver ∈ h →
      h.count .failNotify = 1 → (queue = [] ∨ rest ≠ [] ∧ Excused js h) → Closing queue js s h

theorem Excused.mono {js : List Input} {h : List Call} (excused : Excused js h) (i : Input)
    (o : List Call) : Excused (js ++ [i]) (h ++ o) := by
  rcases excused with ⟨c, hc, hfailure⟩ | ⟨j, hj, hexcept⟩
  · exact .inl ⟨c, List.mem_append_left _ hc, hfailure⟩
  · exact .inr ⟨j, List.mem_append_left _ hj, hexcept⟩

/-- Nothing happens to an association that is down, and what is left of a callback says nothing. -/
theorem Closing.down {queue : List Buf} {js : List Input} {s s' : Sys} {h o : List Call} {i : Input}
    (closing : Closing queue js s h) (down : s.Down) (down' : s'.Down)
    (neutral : o.all Call.neutral = true) : Closing queue (js ++ [i]) s' (h ++ o) := by
  have hcompleted : completed (h ++ o) = completed h := by
    rw [completed_append, completed_neutral neutral, List.append_nil]
  cases closing with
  | writing dying => exact absurd down.state dying.state
  | untold _ hne queue' deleted unnotified =>
    refine .untold down' hne (hcompleted.trans queue') (List.mem_append_left _ deleted) ?_
    simp only [List.mem_append, not_or]
    exact ⟨unnotified, not_mem_neutral neutral rfl⟩
  | told rest _ queue' deleted once why =>
    refine .told rest down' (hcompleted ▸ queue') (List.mem_append_left _ deleted) ?_
      (why.imp id fun ⟨hrest, excused⟩ => ⟨hrest, excused.mono i o⟩)
    rw [List.count_append, once, List.count_eq_zero.mpr (not_mem_neutral neutral rfl)]

/-- One function of a dying session takes effect. -/
theorem Closing.perform {queue : List Buf} {js : List Input} {s : Sys} {h : List Call} {i : Input}
    {o : Outcome} (drained : completed h ++ s.assoc.queueOut = queue) (dying : Dying s.assoc)
    (unclosed : .deleteObserver ∉ h) (unnotified : .failNotify ∉ h)
    (closes : Closes s.assoc (i.except = true) o) (s₀ : Sys) :
    Closing queue (js ++ [i]) (s₀.perform o).1 (h ++ o.calls) := by
  cases closes with
  | stays state dead observer queue' left unclosed' unnotified' =>
    refine .writing ⟨state, dead, observer, left⟩ ?_ (by simp [unclosed, unclosed'])
      (by simp [unnotified, unnotified'])
    rw [completed_append, List.append_assoc, ← drained, ← queue']
    rfl
  | drained shut queue' unnotified' =>
    refine .untold (shut.down s₀) ?_ ?_ (List.mem_append_right _ shut.deleted)
      (by simp [unnotified, unnotified'])
    · rw [← drained]
      exact List.append_ne_nil_of_right_ne_nil _ dying.queue
    · rw [completed_append, queue', drained]
  | failed shut none once why =>
    refine .told s.assoc.queueOut (shut.down s₀) ?_ (List.mem_append_right _ shut.deleted) ?_ ?_
    · rw [completed_append, none, List.append_nil, drained]
    · rw [List.count_append, once, List.count_eq_zero.mpr unnotified]
    · refine .inr ⟨dying.queue, ?_⟩
      rcases why with hexcept | ⟨c, hc, hfailure⟩
      · exact .inr ⟨i, List.mem_append_right _ (List.mem_singleton_self i), hexcept⟩
      · exact .inl ⟨c, List.mem_append_right _ hc, hfailure⟩

/-- The code behind a callback, in an association that is down. -/
theorem down_resume {s : Sys} (down : s.Down) (f : Frame) (ans : Answers) (fs : List Frame) :
    ({ s with frames := fs }.perform (s.assoc.resume f ans fs.length)).1.Down ∧
      (s.assoc.resume f ans fs.length).calls.all Call.neutral = true := by
  obtain ⟨hstate, hcs, hentry⟩ := down
  have quiet : (s.assoc.resume f ans fs.length).assoc.state = .closed ∧
      (s.assoc.resume f ans fs.length).assoc.cs = 0 ∧
      (s.assoc.resume f ans fs.length).calls.all Call.neutral = true := by
    cases f with
    | recv destroyed =>
      cases destroyed with
      | true => exact ⟨hstate, hcs, rfl⟩
      | false => simp [PduAssoc.resume, PduAssoc.resumeRecv, hcs, hstate]
    | connect => simp [PduAssoc.resume, PduAssoc.resumeConnect, PduAssoc.flushPdu, hcs, hstate]
    | session child =>
      simp only [PduAssoc.resume, PduAssoc.resumeSession]
      split <;> exact ⟨hstate, hcs, rfl⟩
    | tail => exact ⟨hstate, hcs, rfl⟩
  refine ⟨⟨quiet.1, quiet.2.1, ?_⟩, quiet.2.2⟩
  rw [Sys.perform, hentry]
  exact onEntry_none (not_mem_neutral quiet.2.2 rfl)

/-- **One step** of a run in which the application is silent. -/
theorem Closing.step {queue : List Buf} {js : List Input} {s s' : Sys} {h o : List Call} {i : Input}
    (closing : Closing queue js s h) (halive : s.alive = true)
    (step : silent.step s i = some (s', o)) : Closing queue (js ++ [i]) s' (h ++ o) := by
  obtain ⟨hsilent, step⟩ := Machine.restrict_step.mp step
  cases stepped_of_step step with
  | dead _ _ hdead => cases halive.symm.trans hdead
  | @back ans f fs =>
    have down : s.Down → Closing queue (js ++ [.ret ans])
        ({ s with frames := fs }.perform (s.assoc.resume f ans fs.length)).1
        (h ++ (s.assoc.resume f ans fs.length).calls) := fun down =>
      closing.down down (down_resume down f ans fs).1 (down_resume down f ans fs).2
    cases closing with
    | writing dying drained unclosed unnotified =>
      exact Closing.perform drained dying unclosed unnotified (closes_resume dying) _
    | untold hdown => exact down hdown
    | told rest hdown => exact down hdown
  | call _ hi =>
    cases i with
    | socketNotify event ans =>
      -- the event finds the association registered, so it is not down
      have registered : s.entry ≠ none := fun hnone => by
        simp [Input.isSilent, Input.delivered, hnone] at hsilent
      cases closing with
      | writing dying drained unclosed unnotified =>
        have closes : Closes s.assoc ((Input.socketNotify event ans).except = true)
            (s.assoc.socketNotify event ans s.frames.length) := closes_socketNotify dying
        exact Closing.perform drained dying unclosed unnotified closes s
      | untold hdown => exact absurd hdown.entry registered
      | told rest hdown => exact absurd hdown.entry registered
    | ret ans => exact absurd rfl (hi ans)
    | _ => cases hsilent

theorem silent_alive {s s' : Sys} {i : Input} {o : List Call} (halive : s.alive = true)
    (step : silent.step s i = some (s', o)) : s'.alive = true := by
  obtain ⟨hsilent, step⟩ := Machine.restrict_step.mp step
  cases stepped_of_step step with
  | dead _ _ hdead => cases halive.symm.trans hdead
  | back => exact halive
  | call _ hi =>
    cases i with
    | socketNotify event ans => exact halive
    | ret ans => exact absurd rfl (hi ans)
    | _ => cases hsilent

/-- `close_session` itself: a session with nothing to write is down and told at once. -/
theorem closing_closeSession {s s' : Sys} {h : List Call} (live : s.Live)
    (close : pdu.step s .closeSession = some (s', h)) :
    s'.alive = true ∧ Closing s.assoc.queueOut [] s' h := by
  cases (step_call (i := .closeSession) live.alive fun _ => nofun).symm.trans close
  refine ⟨live.alive, ?_⟩
  simp only [Input.outcome, PduAssoc.closeSession]
  split
  · next hq =>
    have shut := shut_shutdown { s.assoc with sessionIsDead := true }
    have shut' : ({ s.assoc with sessionIsDead := true } : PduAssoc).shutdown.fail.Shut :=
      ⟨rfl, rfl, by simp [shut.deleted], by simp [shut.left]⟩
    refine .told [] (shut'.down s) ?_ shut'.deleted ?_ (.inl hq)
    · rw [Outcome.fail_calls, completed_append, completed_shutdown, hq]
      rfl
    · rw [Outcome.fail_calls, List.count_append,
        List.count_eq_zero.mpr (not_failNotify_shutdown _)]
      rfl
  · next hq =>
    exact .writing ⟨live.state.1, rfl, live.observer, hq⟩ rfl List.not_mem_nil List.not_mem_nil

/-- **A close is graceful exactly** when there was nothing to write, or while the last PDU that was
queued has not been written whole. -/
theorem graceful_close_iff {s₀ : Sys} (live : s₀.Live) {js : List Input} {s : Sys} {h : List Call}
    (run : silent.Run (fun s h => pdu.step s₀ .closeSession = some (s, h)) js s h) :
    Graceful s₀.assoc.queueOut js h ↔
      s₀.assoc.queueOut = [] ∨ (completed h).length < s₀.assoc.queueOut.length := by
  have closing : s.alive = true ∧ Closing s₀.assoc.queueOut js s h := by
    induction run with
    | start close => exact closing_closeSession live close
    | step _ hstep ih => exact ⟨silent_alive ih.1 hstep, ih.2.step ih.1 hstep⟩
  cases closing.2 with
  | writing dying drained unclosed =>
    have longer := List.length_pos_iff.mpr dying.queue
    rw [← drained, List.length_append]
    exact ⟨fun _ => .inr (by omega), fun _ deleted => absurd deleted unclosed⟩
  | untold _ hne queue deleted unnotified =>
    constructor
    · intro graceful
      have once := (graceful deleted).2
      rw [List.count_eq_zero.mpr unnotified] at once
      cases once
    · rintro (hnil | hlt)
      · exact absurd hnil hne
      · rw [queue] at hlt
        exact absurd hlt (Nat.lt_irrefl _)
  | told rest _ queue _ once why =>
    rcases why with hnil | ⟨hrest, excused⟩
    · refine ⟨fun _ => .inl hnil, fun _ _ => ⟨.inl ?_, once⟩⟩
      rw [hnil] at queue ⊢
      exact (List.append_eq_nil_iff.mp queue).1
    · have longer := List.length_pos_iff.mpr hrest
      rw [← queue, List.length_append]
      exact ⟨fun _ => .inr (by omega), fun _ _ => ⟨.inr excused, once⟩⟩

/-- A connection that opens, and a PDU of which `cs_put` takes a part. -/
def writingRun : List Input :=
  [.connect 1 "tcp:host:210" 1 {}, .socketNotify observeWrite {}, .ret {},
    .sendPdu [1] { put := { res := 1 } }]

/-- What that run leaves. -/
def midWrite : Sys where
  assoc := { state := .writing, cs := 1, queueOut := [[1]], observer := 1 }
  entry := some (observeExcept ||| observeWrite)

/-- The same, with the session closed. -/
def midWriteDead : Sys :=
  { midWrite with assoc := { midWrite.assoc with sessionIsDead := true } }

/-- A session that is closed while it writes, and loses its connection to a failing `cs_put`. -/
theorem graceful_close_failed : (∃ h, pdu.Run Sys.Born writingRun midWrite h) ∧ ∃ s h,
    silent.Run (fun s h => pdu.step midWrite .closeSession = some (s, h))
      [.socketNotify observeWrite { put := { res := -1 } }] s h ∧
    .deleteObserver ∈ h ∧
    Graceful midWrite.assoc.queueOut [.socketNotify observeWrite { put := { res := -1 } }] h := by
  have exec : pdu.exec {} writingRun = some (midWrite, _) := rfl
  have close : pdu.step midWrite .closeSession = some (midWriteDead, []) := rfl
  have later : silent.exec midWriteDead
      [.socketNotify observeWrite { put := { res := -1 } }] = some _ := rfl
  have closed : silent.Run (fun s h => pdu.step midWrite .closeSession = some (s, h)) []
      midWriteDead [] := .start close
  have run := closed.exec later
  have live : midWrite.Live := ⟨rfl, by decide, by decide⟩
  exact ⟨⟨_, Machine.Run.exec (.start .new) exec⟩, _, _, run, by decide,
    (graceful_close_iff live run).mpr (.inr (by decide))⟩

/-- **A close that tells nobody**: the last PDU is written whole, the connection is shut down, and
`failNotify` is not called. -/
theorem close_untold : (∃ h, pdu.Run Sys.Born writingRun midWrite h) ∧ midWrite.Live ∧ ∃ s h,
    silent.Run (fun s h => pdu.step midWrite .closeSession = some (s, h))
      [.socketNotify observeWrite {}] s h ∧
    .deleteObserver ∈ h ∧ .failNotify ∉ h ∧
    ¬ Graceful midWrite.assoc.queueOut [.socketNotify observeWrite {}] h := by
  have exec : pdu.exec {} writingRun = some (midWrite, _) := rfl
  have close : pdu.step midWrite .closeSession = some (midWriteDead, []) := rfl
  have later : silent.exec midWriteDead [.socketNotify observeWrite {}] = some _ := rfl
  have closed : silent.Run (fun s h => pdu.step midWrite .closeSession = some (s, h)) []
      midWriteDead [] := .start close
  have run := closed.exec later
  exact ⟨⟨_, Machine.Run.exec (.start .new) exec⟩, ⟨rfl, by decide, by decide⟩, _, _, run,
    by decide, by decide, fun graceful => absurd (graceful (by decide)).2 (by decide)⟩

end Yazpp
