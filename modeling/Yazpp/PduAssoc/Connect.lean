import Yazpp.PduAssoc.Spec

/-!
# The outcome of a connect

`connect` leaves a connection in one of two ways. `cs_connect` failed at once: the state stays
Closed, and the next socket event shuts the association down and calls `failNotify`. Or the
connection is Connecting, and each socket event asks `cs_rcvconnect`: 1 is not yet, and every
other result makes the connection Ready and calls `connectNotify`.

So `connectNotify` is called at most once. It is called for a failed `cs_rcvconnect` too, which is
negative and is not told apart from 0: a run after a `connect` has the outcome it should have
exactly when `cs_rcvconnect` never fails in it (`connect_outcome_iff`).
-/

set_option autoImplicit false

namespace Yazpp

open Yazpp.Lib

/-! ## The outcome that a connect should have -/

/-- The association is shut down, and the observer is told that the connection failed. -/
def Reveals (calls : List Call) : Prop := .deleteObserver ∈ calls ∧ .failNotify ∈ calls

/-- A socket event. -/
def Input.isEvent : Input → Bool
  | .socketNotify .. => true
  | _ => false

/-- `cs_rcvconnect` reports that the connection failed. -/
def Call.refusal : Call → Bool
  | .csRcvconnect _ res => decide (res < 0)
  | _ => false

/-- The outcome of a `connect`, whose `cs_connect` gave `first`, in what happened since, step by
step: `connectNotify` comes at most once, and with a `cs_rcvconnect` that gave 0; when the
connection failed it never comes, and the event that reveals the failure tells the observer. -/
structure ConnectOutcome (first : Int) (h : List (Input × List Call)) : Prop where
  once : (h.flatMap Prod.snd).count .connectNotify ≤ 1
  established : ∀ e ∈ h, .connectNotify ∈ e.2 → ∃ cs, .csRcvconnect cs 0 ∈ e.2
  failed : (first < 0 ∨ ∃ e ∈ h, e.2.any Call.refusal = true) → ∀ e ∈ h, .connectNotify ∉ e.2
  refused : first < 0 → ∀ e ∈ h, e.1.isEvent = true → Reveals e.2
  revealed : ∀ e ∈ h, e.2.any Call.refusal = true → Reveals e.2

/-- What the application may do without closing or reconnecting, and events of READ, WRITE and
EXCEPT in any combination. `cs_rcvconnect` answers 0, 1 or less. -/
def Input.keepsConnection : Input → Bool
  | .socketNotify event ans => !testMask event observeTimeout && decide (ans.rcvconnect.res ≤ 1)
  | .connect .. | .listen .. | .closeSession | .shutdown | .destroy | .delete => false
  | .setObserver .. => false
  | _ => true

/-- The association while it is neither closed nor reconnected, step by step. -/
def attempt : Machine Sys Input (Input × List Call) :=
  (pdu.restrict fun _ i => i.keepsConnection).logged

/-! ## What each function does to an attempt -/

/-- A call that says nothing about the attempt. -/
def Call.aside : Call → Bool
  | .csRcvconnect .. | .connectNotify => false
  | _ => true

/-- A function that leaves the attempt alone: it begins no new one, and a connection that was
refused stays refused. -/
structure Plain (a : PduAssoc) (o : Outcome) : Prop where
  observer : o.assoc.observer = a.observer
  state : o.assoc.state = .connecting → a.state = .connecting
  closed : a.state = .closed → o.assoc.state = .closed
  calls : o.calls.all Call.aside = true

/-- What a function does to an attempt. -/
inductive Attempted (a : PduAssoc) (o : Outcome) : Prop
  | plain : Plain a o → Attempted a o
  | incomplete (mask : Nat) (fd : Int) : o.assoc = a →
      o.calls = [.csRcvconnect a.cs 1, .maskObserver mask fd] → Attempted a o
  | notified (res : Int) : a.state = .connecting → res ≤ 1 → res ≠ 1 →
      o.assoc = { a with state := .ready } →
      o.calls = [.csRcvconnect a.cs res, .connectNotify] → Attempted a o

theorem aside_shutdown (a : PduAssoc) : a.shutdown.calls.all Call.aside = true :=
  a.all_shutdown_calls (fun _ => rfl) rfl fun _ => rfl

/-- Calls made before, by an association in the same state. -/
theorem Plain.after {a b : PduAssoc} {o : Outcome} {calls : List Call} (plain : Plain b o)
    (observer : b.observer = a.observer) (state : b.state = a.state)
    (quiet : calls.all Call.aside = true) : Plain a (o.after calls) := by
  refine ⟨plain.observer.trans observer, fun hs => state ▸ plain.state hs,
    fun hs => plain.closed (state.trans hs), ?_⟩
  rw [Outcome.after_calls, List.all_append, quiet, plain.calls, Bool.and_self]

/-- `shutdown`, with `failNotify` or without it. -/
theorem plain_shutdown {a b : PduAssoc} {calls : List Call} (observer : b.observer = a.observer)
    (quiet : calls.all Call.aside = true) (ret : Int) :
    Plain a { b.shutdown.after calls with ret := ret } :=
  ⟨observer, nofun, fun _ => rfl, by
    rw [Outcome.after_calls, List.all_append, quiet, aside_shutdown, Bool.and_self]⟩

theorem plain_fail {a b : PduAssoc} {calls : List Call} (observer : b.observer = a.observer)
    (quiet : calls.all Call.aside = true) (ret : Int) :
    Plain a { b.shutdown.fail.after calls with ret := ret } := by
  refine ⟨observer, nofun, fun _ => rfl, ?_⟩
  rw [Outcome.after_calls, Outcome.fail_calls, List.all_append, List.all_append, quiet,
    aside_shutdown]
  rfl

theorem plain_failed {a b : PduAssoc} (observer : b.observer = a.observer) :
    Plain a b.shutdown.fail :=
  have fail : Plain a { b.shutdown.fail.after [] with ret := 0 } := plain_fail observer rfl 0
  fail

/-- The same state and the same observer. -/
theorem plain_of_same {a : PduAssoc} {o : Outcome} (observer : o.assoc.observer = a.observer)
    (state : o.assoc.state = a.state) (quiet : o.calls.all Call.aside = true) : Plain a o :=
  ⟨observer, fun hs => state ▸ hs, fun hs => state.trans hs, quiet⟩

/-- From an open connection to an open one. -/
theorem plain_of_open {a : PduAssoc} {o : Outcome} (observer : o.assoc.observer = a.observer)
    (opened : a.state = .ready ∨ a.state = .writing) (still : o.assoc.state ≠ .connecting)
    (quiet : o.calls.all Call.aside = true) : Plain a o :=
  ⟨observer, fun hs => absurd hs still, fun hs => by simp [hs] at opened, quiet⟩

theorem plain_flushPdu (ans : Answers) (a : PduAssoc) : Plain a (a.flushPdu ans) := by
  have fl := PduAssoc.flushPdu_flushed ans a
  generalize a.flushPdu ans = o at fl
  cases fl with
  | notReady => exact plain_of_same rfl rfl rfl
  | idle hs => exact plain_of_open rfl hs nofun rfl
  | idleDead => exact plain_fail rfl rfl 0
  | failed => exact plain_fail rfl rfl _
  | partly hs => exact plain_of_open rfl hs nofun rfl
  | drained hs => exact plain_of_open rfl hs nofun rfl
  | drainedDead => exact plain_shutdown rfl rfl _
  | more => exact plain_of_same rfl rfl rfl

theorem plain_receive (ans : Answers) (depth : Nat) (a : PduAssoc) :
    Plain a (a.receive ans depth) := by
  have rc := PduAssoc.receive_received ans depth a
  generalize a.receive ans depth = o at rc
  cases rc with
  | waits => exact plain_of_same rfl rfl rfl
  | closed => exact plain_fail rfl rfl 0
  | closedUnobserved => exact plain_shutdown rfl rfl 0
  | pdu => exact plain_of_same rfl rfl rfl
  | pduUnobserved => exact plain_of_same rfl rfl rfl

theorem plain_sendPdu (buf : Buf) (ans : Answers) (a : PduAssoc) : Plain a (a.sendPdu buf ans) := by
  have st := PduAssoc.sendPdu_sent buf ans a
  generalize a.sendPdu buf ans = o at st
  cases st with
  | rejected => exact plain_of_same rfl rfl rfl
  | queued => exact plain_of_same rfl rfl rfl
  | flushed => exact (plain_flushPdu ans { a with queueOut := [buf] }).after rfl rfl rfl

theorem plain_resume (f : Frame) (ans : Answers) (depth : Nat) (a : PduAssoc) :
    Plain a (a.resume f ans depth) := by
  cases f with
  | recv destroyed =>
    cases destroyed with
    | true => exact plain_of_same rfl rfl rfl
    | false =>
      have rs := PduAssoc.resumeRecv_resumed ans depth a
      simp only [PduAssoc.resume]
      generalize a.resumeRecv ans depth = o at rs
      cases rs with
      | gone => exact plain_of_same rfl rfl rfl
      | more => exact (plain_receive ans depth { a with destroyed := .null }).after rfl rfl rfl
      | ready => exact plain_of_same rfl rfl rfl
      | notReady => exact plain_of_same rfl rfl rfl
  | connect => exact plain_flushPdu ans a
  | session child =>
    simp only [PduAssoc.resume, PduAssoc.resumeSession]
    split <;> exact plain_of_same rfl rfl rfl
  | tail => exact plain_of_same rfl rfl rfl

/-- `socketNotify` attempts, while the connection is Connecting. -/
theorem attempted_socketNotify {event : Nat} {ans : Answers} {depth : Nat} {a : PduAssoc}
    (observer : a.observer ≠ 0) (answers : ans.rcvconnect.res ≤ 1) :
    Attempted a (a.socketNotify event ans depth) := by
  have nt := PduAssoc.socketNotify_notified event ans depth a
  generalize a.socketNotify event ans depth = o at nt
  cases nt with
  | except => exact .plain (plain_failed rfl)
  | timeout => exact .plain (plain_of_same rfl rfl rfl)
  | acceptFailed =>
    have failed : Plain a (({ a with cs := 0 } : PduAssoc).shutdown.fail.after
        [.csAccept a.cs ans.accept.res]) :=
      plain_fail (a := a) (b := { a with cs := 0 }) rfl rfl 0
    exact .plain failed
  | acceptMore => exact .plain (plain_of_same rfl rfl rfl)
  | acceptDone hs =>
    have flush := plain_flushPdu ans { a with state := .ready }
    refine .plain ⟨flush.observer, fun hc => absurd (flush.state hc) nofun,
      fun hc => absurd (hs.symm.trans hc) nofun, flush.calls⟩
  | connectMore _ hone => exact .incomplete _ _ rfl (by rw [hone])
  | connectDone hs hres => exact .notified _ hs answers hres rfl rfl
  | connectUnobserved _ _ hobs => exact absurd hobs observer
  | listened =>
    have ls := PduAssoc.notifyListen_listened event ans a
    generalize a.notifyListen event ans = o at ls
    cases ls <;> exact .plain (plain_of_same rfl rfl rfl)
  | writing => exact .plain (plain_flushPdu ans a)
  | ready => exact .plain (plain_receive ans depth a)
  | nothing => exact .plain (plain_of_same rfl rfl rfl)
  | closed => exact .plain (plain_failed rfl)

/-- Every call that keeps the connection is an attempt at most. -/
theorem attempted_outcome {i : Input} {depth : Nat} {a : PduAssoc} (observer : a.observer ≠ 0)
    (keeps : i.keepsConnection = true) : Attempted a (i.outcome a depth) := by
  cases i with
  | socketNotify event ans =>
    simp only [Input.keepsConnection, Bool.and_eq_true, decide_eq_true_eq] at keeps
    exact attempted_socketNotify observer keeps.2
  | sendPdu buf ans => exact .plain (plain_sendPdu buf ans a)
  | idleTime timeout => exact .plain (plain_of_same rfl rfl rfl)
  | setCertFname fname => exact .plain (plain_of_same rfl rfl rfl)
  | setParent parent => exact .plain (plain_of_same rfl rfl rfl)
  | ret ans => exact .plain (plain_of_same rfl rfl rfl)
  | unlink child =>
    simp only [Input.outcome, PduAssoc.unlink]
    split <;> exact .plain (plain_of_same rfl rfl rfl)
  | _ => cases keeps

/-! ## Runs -/

/-- What one step of an attempt puts out. -/
inductive Attempt (calls : List Call) : Prop
  | plain : calls.all Call.aside = true → Attempt calls
  | incomplete (cs : Comstack) (mask : Nat) (fd : Int) :
      calls = [.csRcvconnect cs 1, .maskObserver mask fd] → Attempt calls
  | notified (cs : Comstack) (res : Int) : res ≤ 1 → res ≠ 1 →
      calls = [.csRcvconnect cs res, .connectNotify] → Attempt calls

/-- `connectNotify` has not been called. -/
def Unnotified (h : List (Input × List Call)) : Prop := ∀ e ∈ h, .connectNotify ∉ e.2

/-- Where an attempt stands: refused at once, or Connecting, or past that. -/
def Stage (first : Int) (a : PduAssoc) (h : List (Input × List Call)) : Prop :=
  first < 0 ∧ a.state = .closed ∧ Unnotified h ∨
    0 ≤ first ∧ a.state = .connecting ∧ Unnotified h ∨ 0 ≤ first ∧ a.state ≠ .connecting

/-- The invariant of a run after a `connect`. -/
structure Attempting (first : Int) (s : Sys) (h : List (Input × List Call)) : Prop where
  observer : s.assoc.observer ≠ 0
  stage : Stage first s.assoc h
  once : (h.flatMap Prod.snd).count .connectNotify ≤ 1
  shape : ∀ e ∈ h, Attempt e.2
  refused : first < 0 → ∀ e ∈ h, e.1.isEvent = true → Reveals e.2

theorem not_mem_aside {calls : List Call} (quiet : calls.all Call.aside = true) {c : Call}
    (hc : c.aside = false) : c ∉ calls := fun hmem =>
  absurd (hc.symm.trans (List.all_eq_true.mp quiet c hmem)) nofun

theorem Unnotified.snoc {h : List (Input × List Call)} (unnotified : Unnotified h) {i : Input}
    {o : List Call} (none : .connectNotify ∉ o) : Unnotified (h ++ [(i, o)]) := by
  intro e he
  rcases List.mem_append.mp he with he | he
  · exact unnotified e he
  · rw [List.mem_singleton.mp he]
    exact none

theorem Unnotified.count {h : List (Input × List Call)} (unnotified : Unnotified h) :
    (h.flatMap Prod.snd).count .connectNotify = 0 := by
  rw [List.count_eq_zero, List.mem_flatMap]
  rintro ⟨e, he, hmem⟩
  exact unnotified e he hmem

theorem count_snoc (h : List (Input × List Call)) (i : Input) (o : List Call) :
    ((h ++ [(i, o)]).flatMap Prod.snd).count .connectNotify =
      (h.flatMap Prod.snd).count .connectNotify + o.count .connectNotify := by
  rw [List.flatMap_append, List.count_append, List.flatMap_singleton]

/-- What a function does to an attempt keeps the invariant, when a refused connection is revealed
by it. -/
theorem Attempting.outcome {first : Int} {s s' : Sys} {h : List (Input × List Call)} {i : Input}
    {o : Outcome} (attempting : Attempting first s h) (attempted : Attempted s.assoc o)
    (hs : s'.assoc = o.assoc)
    (reveals : s.assoc.state = .closed → i.isEvent = true → Reveals o.calls) :
    Attempting first s' (h ++ [(i, o.calls)]) := by
  have refused : first < 0 → ∀ e ∈ h ++ [(i, o.calls)], e.1.isEvent = true → Reveals e.2 := by
    intro hneg e he hevent
    rcases List.mem_append.mp he with he | he
    · exact attempting.refused hneg e he hevent
    · rw [List.mem_singleton.mp he] at hevent ⊢
      rcases attempting.stage with ⟨_, hclosed, _⟩ | ⟨hpos, _⟩ | ⟨hpos, _⟩
      · exact reveals hclosed hevent
      · omega
      · omega
  have shape : Attempt o.calls → ∀ e ∈ h ++ [(i, o.calls)], Attempt e.2 := by
    intro hcalls e he
    rcases List.mem_append.mp he with he | he
    · exact attempting.shape e he
    · rw [List.mem_singleton.mp he]
      exact hcalls
  cases attempted with
  | plain plain =>
    have none := not_mem_aside plain.calls (c := .connectNotify) rfl
    refine ⟨by rw [hs, plain.observer]; exact attempting.observer, ?_, ?_,
      shape (.plain plain.calls), refused⟩
    · rw [Stage, hs]
      rcases attempting.stage with ⟨hneg, hclosed, hun⟩ | ⟨hpos, _, hun⟩ | ⟨hpos, hne⟩
      · exact .inl ⟨hneg, plain.closed hclosed, hun.snoc none⟩
      · by_cases hc : o.assoc.state = .connecting
        · exact .inr (.inl ⟨hpos, hc, hun.snoc none⟩)
        · exact .inr (.inr ⟨hpos, hc⟩)
      · exact .inr (.inr ⟨hpos, fun hc => hne (plain.state hc)⟩)
    · rw [count_snoc, List.count_eq_zero.mpr none]
      exact attempting.once
  | incomplete mask fd hassoc hcalls =>
    have none : .connectNotify ∉ o.calls := by simp [hcalls]
    refine ⟨by rw [hs, hassoc]; exact attempting.observer, ?_, ?_,
      shape (.incomplete _ _ _ hcalls), refused⟩
    · rw [Stage, hs, hassoc]
      exact attempting.stage.imp (fun ⟨hneg, hclosed, hun⟩ => ⟨hneg, hclosed, hun.snoc none⟩)
        (Or.imp (fun ⟨hpos, hc, hun⟩ => ⟨hpos, hc, hun.snoc none⟩) id)
    · rw [count_snoc, List.count_eq_zero.mpr none]
      exact attempting.once
  | notified res hc hle hne hassoc hcalls =>
    refine ⟨by rw [hs, hassoc]; exact attempting.observer, ?_, ?_,
      shape (.notified _ _ hle hne hcalls), refused⟩
    · rw [Stage, hs, hassoc]
      rcases attempting.stage with ⟨_, hclosed, _⟩ | ⟨hpos, _⟩ | ⟨_, hnc⟩
      · cases hclosed.symm.trans hc
      · exact .inr (.inr ⟨hpos, nofun⟩)
      · exact absurd hc hnc
    · rcases attempting.stage with ⟨_, hclosed, _⟩ | ⟨_, _, hun⟩ | ⟨_, hnc⟩
      · cases hclosed.symm.trans hc
      · rw [count_snoc, hun.count, hcalls]
        exact Nat.le_refl 1
      · exact absurd hc hnc

/-- An event on a connection that was refused tells the observer. -/
theorem reveals_closed {i : Input} {depth : Nat} {a : PduAssoc} (keeps : i.keepsConnection = true)
    (hs : a.state = .closed) (isEvent : i.isEvent = true) : Reveals (i.outcome a depth).calls := by
  cases i with
  | socketNotify event ans =>
    simp only [Input.keepsConnection, Bool.and_eq_true, Bool.not_eq_true'] at keeps
    have closed : a.socketNotify event ans depth = a.shutdown.fail := by
      simp [PduAssoc.socketNotify, hs, keeps.1]
    rw [Input.outcome, closed, Outcome.fail_calls]
    exact ⟨List.mem_append_left _ (PduAssoc.mem_shutdown_calls.mpr (.inr (.inl rfl))),
      List.mem_append_right _ (List.mem_singleton_self _)⟩
  | _ => cases isEvent

/-- **One step** of an attempt. -/
theorem Attempting.step {first : Int} {s s' : Sys} {h log : List (Input × List Call)} {i : Input}
    (attempting : Attempting first s h) (step : attempt.step s i = some (s', log)) :
    Attempting first s' (h ++ log) := by
  obtain ⟨o, hstep, rfl⟩ := Machine.logged_step.mp step
  obtain ⟨keeps, hstep⟩ := Machine.restrict_step.mp hstep
  cases stepped_of_step hstep with
  | call =>
    exact attempting.outcome (attempted_outcome attempting.observer keeps) (Sys.bury_assoc _ _)
      (reveals_closed keeps)
  | @back ans f fs =>
    exact attempting.outcome (.plain (plain_resume f ans fs.length s.assoc)) rfl nofun
  | dead =>
    exact attempting.outcome (o := { assoc := s.assoc, calls := [.useAfterDelete _] })
      (.plain (plain_of_same rfl rfl rfl)) rfl nofun

/-- `connect` begins an attempt. -/
theorem attempting_connect {s₀ s₁ : Sys} {observer : Observer} {addr : String} {cs : Comstack}
    {ans : Answers} {o₁ : List Call} (hcs : cs ≠ 0) (hobs : observer ≠ 0)
    (connect : pdu.step s₀ (.connect observer addr cs ans) = some (s₁, o₁)) :
    Attempting ans.connect.res s₁ [] := by
  have ct := PduAssoc.connect_connected observer addr cs ans s₀.assoc
  have made : (s₀.assoc.connect observer addr cs ans).assoc.observer ≠ 0 ∧
      Stage ans.connect.res (s₀.assoc.connect observer addr cs ans).assoc [] := by
    generalize s₀.assoc.connect observer addr cs ans = o at ct
    cases ct with
    | refused h0 => exact absurd h0 hcs
    | pending _ _ hres => exact ⟨hobs, .inr (.inl ⟨hres, rfl, List.forall_mem_nil _⟩)⟩
    | failed _ hres => exact ⟨hobs, .inl ⟨hres, rfl, List.forall_mem_nil _⟩⟩
  have halive := alive_of_step (i := .connect observer addr cs ans) (fun _ => nofun) connect
  have called := step_call (i := .connect observer addr cs ans) halive fun _ => nofun
  obtain ⟨rfl, rfl⟩ := Prod.mk.inj (Option.some.inj (called.symm.trans connect))
  refine ⟨?_, ?_, Nat.zero_le 1, List.forall_mem_nil _, fun _ => List.forall_mem_nil _⟩
  · rw [Sys.bury_assoc]
    exact made.1
  · rw [Sys.bury_assoc]
    exact made.2

/-- Calls that say nothing about the attempt refuse nothing. -/
theorem refusal_aside {calls : List Call} (quiet : calls.all Call.aside = true) :
    calls.any Call.refusal = false := by
  rw [List.any_eq_false]
  intro c hc
  have haside := List.all_eq_true.mp quiet c hc
  cases c with
  | csRcvconnect cs res => cases haside
  | _ => nofun

/-- **The outcome of a connect is what it should be exactly** when no `cs_rcvconnect` of the run
fails. -/
theorem connect_outcome_iff {s₀ s₁ : Sys} {observer : Observer} {addr : String} {cs : Comstack}
    {ans : Answers} {o₁ : List Call} (hcs : cs ≠ 0) (hobs : observer ≠ 0)
    (connect : pdu.step s₀ (.connect observer addr cs ans) = some (s₁, o₁)) {js : List Input}
    {s : Sys} {h : List (Input × List Call)}
    (run : attempt.Run (fun s h => s = s₁ ∧ h = []) js s h) :
    ConnectOutcome ans.connect.res h ↔ ∀ e ∈ h, e.2.any Call.refusal = false := by
  have attempting : Attempting ans.connect.res s h := by
    refine run.invariant (Attempting ans.connect.res) ?_ fun _ _ _ _ _ inv step => inv.step step
    rintro _ _ ⟨rfl, rfl⟩
    exact attempting_connect hcs hobs connect
  constructor
  · intro outcome e he
    cases attempting.shape e he with
    | plain quiet => exact refusal_aside quiet
    | incomplete cs' mask fd hcalls =>
      rw [hcalls]
      rfl
    | notified cs' res hle hne hcalls =>
      -- it notified, so the result was 0
      obtain ⟨cs'', hzero⟩ := outcome.established e he (by simp [hcalls])
      simp only [hcalls, List.mem_cons, Call.csRcvconnect.injEq, reduceCtorEq, List.not_mem_nil,
        or_false] at hzero
      rw [hcalls, ← hzero.2]
      rfl
  · intro good
    have never : ∀ e ∈ h, e.2.any Call.refusal ≠ true := fun e he hfail =>
      absurd ((good e he).symm.trans hfail) nofun
    refine ⟨attempting.once, fun e he hmem => ?_, fun hfail => ?_, attempting.refused,
      fun e he hfail => absurd hfail (never e he)⟩
    · cases attempting.shape e he with
      | plain quiet => exact absurd hmem (not_mem_aside quiet rfl)
      | incomplete cs' mask fd hcalls => simp [hcalls] at hmem
      | notified cs' res hle hne hcalls =>
        have hnn : ¬res < 0 := fun hneg => never e he (by simp [hcalls, Call.refusal, hneg])
        have hzero : res = 0 := by omega
        exact ⟨cs', by simp [hcalls, hzero]⟩
    · rcases hfail with hneg | ⟨e, he, hfail⟩
      · rcases attempting.stage with ⟨_, _, hun⟩ | ⟨hpos, _⟩ | ⟨hpos, _⟩
        · exact hun
        · omega
        · omega
      · exact absurd hfail (never e he)

/-- A connection that takes two rounds, with an EXCEPT event between them, and opens. -/
theorem connect_outcome_opened : ∃ s₁ o₁ s h,
    pdu.step {} (.connect 1 "tcp:host:210" 1 { connect := { res := 1 } }) = some (s₁, o₁) ∧
    attempt.Run (fun s h => s = s₁ ∧ h = [])
      [.socketNotify observeExcept { rcvconnect := { res := 1 } },
        .socketNotify observeWrite {}] s h ∧
    ConnectOutcome 1 h := by
  have connect : pdu.step {} (.connect 1 "tcp:host:210" 1 { connect := { res := 1 } }) =
      some ({ assoc := { state := .connecting, cs := 1, observer := 1 }, entry := some 4 }, _) :=
    rfl
  have exec : attempt.exec
      { assoc := { state := .connecting, cs := 1, observer := 1 }, entry := some 4 }
      [.socketNotify observeExcept { rcvconnect := { res := 1 } }, .socketNotify observeWrite {}] =
      some _ := rfl
  have begun : attempt.Run (fun s h =>
      s = { assoc := { state := .connecting, cs := 1, observer := 1 }, entry := some 4 } ∧ h = [])
      [] _ _ := .start ⟨rfl, rfl⟩
  have run := begun.exec exec
  exact ⟨_, _, _, _, connect, run,
    (connect_outcome_iff (by decide) (by decide) connect run).mpr (by decide)⟩

/-- **A failed connect is announced as a connection**: `cs_rcvconnect` fails, and the observer gets
`connectNotify`, no `failNotify`, and an association in state Ready. -/
theorem connect_failed_notified : ∃ s₁ o₁ s h,
    pdu.step {} (.connect 1 "tcp:host:210" 1 { connect := { res := 1 } }) = some (s₁, o₁) ∧
    attempt.Run (fun s h => s = s₁ ∧ h = [])
      [.socketNotify observeWrite { rcvconnect := { res := -1 } }] s h ∧
    s.assoc.state = .ready ∧ h.flatMap Prod.snd = [.csRcvconnect 1 (-1), .connectNotify] ∧
    ¬ ConnectOutcome 1 h := by
  have connect : pdu.step {} (.connect 1 "tcp:host:210" 1 { connect := { res := 1 } }) =
      some ({ assoc := { state := .connecting, cs := 1, observer := 1 }, entry := some 4 }, _) :=
    rfl
  have exec : attempt.exec
      { assoc := { state := .connecting, cs := 1, observer := 1 }, entry := some 4 }
      [.socketNotify observeWrite { rcvconnect := { res := -1 } }] = some _ := rfl
  have begun : attempt.Run (fun s h =>
      s = { assoc := { state := .connecting, cs := 1, observer := 1 }, entry := some 4 } ∧ h = [])
      [] _ _ := .start ⟨rfl, rfl⟩
  exact ⟨_, _, _, _, connect, begun.exec exec, rfl, rfl, fun outcome =>
    outcome.failed (.inr ⟨_, List.mem_singleton_self _, by decide⟩) _ (List.mem_singleton_self _)
      (by decide)⟩

end Yazpp
