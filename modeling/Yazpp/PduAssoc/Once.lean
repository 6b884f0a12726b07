import Mathlib.Data.List.Chain
import Yazpp.Lib.History
import Yazpp.PduAssoc.Close

/-!
# How often a failure is told

Every function of the association that calls `failNotify` has called `shutdown` before it, so the
association is closed, unregistered, and without a COMSTACK or anything to write, and there it stays
until it is connected or listens again. In that state nothing is told any more, whatever callbacks
are still to return, except by `close_session`: it does not look whether there is a session to
close, and with nothing to write it calls `failNotify`. So failures are told once for each
connection exactly when nobody calls `close_session` between a `failNotify` and the next `connect`
or `listen` (`failure_told_once_iff`).
-/

set_option autoImplicit false

namespace Yazpp

open Yazpp.Lib

/-! ## What is told, and when -/

/-- What an association tells its observer of a connection. -/
def Call.notifies : Call → Bool
  | .recvPdu .. | .connectNotify | .failNotify | .timeoutNotify => true
  | _ => false

/-- What a list of calls tells the observer. -/
def toldBy (calls : List Call) : List Call := calls.filter Call.notifies

/-- A call of `connect` or `listen`. -/
def Input.opening : Input → Bool
  | .connect .. | .listen .. => true
  | _ => false

/-- What is of interest in a history: the association is to open a connection, or tells its
observer something. -/
inductive Mark
  | opened
  | told (call : Call)
deriving DecidableEq, Repr

/-- The marks of one step. -/
def stepMarks (e : Input × List Call) : List Mark :=
  (if e.1.opening then [.opened] else []) ++ (toldBy e.2).map .told

/-- The marks of a history, in order. -/
def marks (log : List (Input × List Call)) : List Mark := log.flatMap stepMarks

/-- **Failures are told once**: behind a `failNotify` the observer is told nothing, not even of
another failure, before the next `connect` or `listen`. -/
def FailureToldOnce (log : List (Input × List Call)) : Prop :=
  (marks log).IsChain fun m next => m = .told .failNotify → next = .opened

/-- The observer has been told of a failure, and nobody has called `connect` or `listen` since. -/
def FailureTold (log : List (Input × List Call)) : Prop :=
  (marks log).getLast? = some (.told .failNotify)

/-- `close_session` is not called between a `failNotify` and the next `connect` or `listen`. -/
def ClosedUntold (log : List (Input × List Call)) : Prop :=
  ∀ pre e post, log = pre ++ e :: post → e.1 = .closeSession → ¬ FailureTold pre

/-! ## What each function tells -/

theorem toldBy_append (calls more : List Call) :
    toldBy (calls ++ more) = toldBy calls ++ toldBy more := List.filter_append ..

theorem toldBy_shutdown (a : PduAssoc) : toldBy a.shutdown.calls = [] :=
  a.shutdown_calls_filter (fun _ => rfl) rfl fun _ => rfl

theorem toldBy_destroy (a : PduAssoc) : toldBy a.destroy.calls = [] := by
  have children : toldBy (a.children.map Call.deleteChild) = [] := by
    apply List.filter_eq_nil_iff.mpr
    intro c hc
    obtain ⟨child, -, rfl⟩ := List.mem_map.mp hc
    exact Bool.false_ne_true
  have strays : toldBy a.strays = [] := a.strays_filter rfl
  rw [PduAssoc.destroy, toldBy_append, toldBy_append, toldBy_append, toldBy_shutdown, strays,
    children]
  cases a.parent <;> rfl

/-- An outcome tells one thing at most, and a failure behind a `shutdown`. -/
inductive Tells (o : Outcome) : Prop
  | nothing (quiet : toldBy o.calls = [])
  | one (call : Call) (only : toldBy o.calls = [call]) (shut : call = .failNotify → o.Shut)

/-- Quiet calls made before, which register nobody. -/
theorem Tells.after {o : Outcome} (tells : Tells o) {calls : List Call} (quiet : toldBy calls = [])
    (left : .addObserver ∉ calls) : Tells (o.after calls) := by
  have same : toldBy (o.after calls).calls = toldBy o.calls := by
    rw [Outcome.after_calls, toldBy_append, quiet, List.nil_append]
  cases tells with
  | nothing quiet' => exact .nothing (same.trans quiet')
  | one call only shut =>
    refine .one call (same.trans only) ?_
    intro hcall
    have hshut := shut hcall
    refine ⟨hshut.state, hshut.cs, List.mem_append_right _ hshut.deleted, ?_⟩
    rw [Outcome.after_calls, List.mem_append, not_or]
    exact ⟨left, hshut.left⟩

/-- `shutdown`, and then `failNotify`. -/
theorem tells_fail (a : PduAssoc) : Tells a.shutdown.fail := by
  have shut := shut_shutdown a
  refine .one .failNotify ?_ fun _ => ⟨rfl, rfl, ?_, ?_⟩
  · rw [Outcome.fail_calls, toldBy_append, toldBy_shutdown]
    rfl
  · simp [shut.deleted]
  · simp [shut.left]

namespace PduAssoc

theorem tells_flushPdu (ans : Answers) (a : PduAssoc) : Tells (a.flushPdu ans) := by
  have fl := flushPdu_flushed ans a
  generalize a.flushPdu ans = o at fl
  cases fl with
  | notReady => exact .nothing rfl
  | idle => exact .nothing rfl
  | idleDead => exact (tells_fail a).after rfl (by simp)
  | @failed q =>
    have quiet : toldBy [.csPut a.cs q ans.put.res] = [] := rfl
    cases (tells_fail a).after quiet (by simp) with
    | nothing quiet => exact .nothing quiet
    | one call only shut =>
      exact .one call only fun h => ⟨rfl, rfl, (shut h).deleted, (shut h).left⟩
  | partly => exact .nothing rfl
  | drained => exact .nothing rfl
  | drainedDead =>
    refine .nothing ?_
    rw [Outcome.after_calls, toldBy_append, toldBy_shutdown]
    rfl
  | more => exact .nothing rfl

theorem tells_receive (ans : Answers) (depth : Nat) (a : PduAssoc) :
    Tells (a.receive ans depth) := by
  have rc := receive_received ans depth a
  generalize a.receive ans depth = o at rc
  cases rc with
  | waits => exact .nothing rfl
  | closed => exact (tells_fail a).after rfl (by simp)
  | closedUnobserved =>
    refine .nothing ?_
    rw [Outcome.after_calls, toldBy_append, toldBy_shutdown]
    rfl
  | pdu => exact .one _ rfl nofun
  | pduUnobserved => exact .nothing rfl

theorem tells_socketNotify (event : Nat) (ans : Answers) (depth : Nat) (a : PduAssoc) :
    Tells (a.socketNotify event ans depth) := by
  have nt := socketNotify_notified event ans depth a
  generalize a.socketNotify event ans depth = o at nt
  cases nt with
  | except => exact tells_fail a
  | timeout => exact .one _ rfl nofun
  | acceptFailed => exact (tells_fail _).after rfl (by simp)
  | acceptMore => exact .nothing rfl
  | acceptDone => exact (tells_flushPdu ans _).after rfl (by simp)
  | connectMore => exact .nothing rfl
  | connectDone => exact .one _ rfl nofun
  | connectUnobserved => exact (tells_flushPdu ans _).after rfl (by simp)
  | listened =>
    have ls := notifyListen_listened event ans a
    generalize a.notifyListen event ans = o at ls
    cases ls <;> exact .nothing rfl
  | writing => exact tells_flushPdu ans a
  | ready => exact tells_receive ans depth a
  | nothing => exact .nothing rfl
  | closed => exact tells_fail a

theorem tells_resume (f : Frame) (ans : Answers) (depth : Nat) (a : PduAssoc) :
    Tells (a.resume f ans depth) := by
  cases f with
  | recv destroyed =>
    cases destroyed with
    | true => exact .nothing rfl
    | false =>
      have rs := resumeRecv_resumed ans depth a
      simp only [resume]
      generalize a.resumeRecv ans depth = o at rs
      cases rs with
      | gone => exact .nothing rfl
      | more => exact (tells_receive ans depth _).after rfl (by simp)
      | ready => exact .nothing rfl
      | notReady => exact .nothing rfl
  | connect => exact tells_flushPdu ans a
  | session child =>
    simp only [resume, resumeSession]
    split <;> exact .nothing rfl
  | tail => exact .nothing rfl

theorem tells_sendPdu (buf : Buf) (ans : Answers) (a : PduAssoc) : Tells (a.sendPdu buf ans) := by
  have st := sendPdu_sent buf ans a
  generalize a.sendPdu buf ans = o at st
  cases st with
  | rejected => exact .nothing rfl
  | queued => exact .nothing rfl
  | flushed => exact (tells_flushPdu ans _).after rfl (by simp)

end PduAssoc

/-- `connect` and `listen` tell nobody anything. -/
theorem toldBy_opening {i : Input} (opening : i.opening = true) (depth : Nat) (a : PduAssoc) :
    toldBy (i.outcome a depth).calls = [] := by
  cases i with
  | connect observer addr cs ans =>
    have ct := PduAssoc.connect_connected observer addr cs ans a
    simp only [Input.outcome]
    generalize a.connect observer addr cs ans = o at ct
    cases ct <;> rw [toldBy_append, toldBy_shutdown] <;> rfl
  | listen observer addr cs ans =>
    have lm := PduAssoc.listen_made observer addr cs ans a
    simp only [Input.outcome]
    generalize a.listen observer addr cs ans = o at lm
    cases lm with
    | stopped =>
      simp only [PduAssoc.teardown]
      split <;> rfl
    | refused =>
      rw [toldBy_append, toldBy_shutdown]
      rfl
    | unbound cert => rw [toldBy_append, toldBy_shutdown]; cases cert <;> rfl
    | bound cert => rw [toldBy_append, toldBy_shutdown]; cases cert <;> rfl
  | _ => cases opening

/-- **Every call** tells one thing at most. -/
theorem tells_outcome (i : Input) (depth : Nat) (a : PduAssoc) : Tells (i.outcome a depth) := by
  cases i with
  | connect | listen => exact .nothing (toldBy_opening rfl depth a)
  | sendPdu buf ans => exact a.tells_sendPdu buf ans
  | closeSession =>
    simp only [Input.outcome, PduAssoc.closeSession]
    split
    · exact tells_fail _
    · exact .nothing rfl
  | shutdown => exact .nothing (toldBy_shutdown a)
  | destroy => exact .nothing (toldBy_destroy a)
  | socketNotify event ans => exact a.tells_socketNotify event ans depth
  | unlink child =>
    simp only [Input.outcome, PduAssoc.unlink]
    split <;> exact .nothing rfl
  | _ => exact .nothing rfl

/-! ## An association that is down -/

/-- What a call does to an association that is down: it stays down, and tells nobody anything,
unless it is `close_session`. -/
structure StaysDown (i : Input) (o : Outcome) : Prop where
  state : o.assoc.state = .closed
  cs : o.assoc.cs = 0
  left : .addObserver ∉ o.calls
  told : toldBy o.calls = if i = .closeSession then [.failNotify] else []

/-- `shutdown` of an association that is down. -/
theorem staysDown_shutdown {i : Input} (a : PduAssoc) (hi : i ≠ .closeSession) :
    StaysDown i a.shutdown := by
  refine ⟨rfl, rfl, (shut_shutdown a).left, ?_⟩
  rw [if_neg hi]
  exact toldBy_shutdown a

theorem staysDown_outcome {s : Sys} (down : s.Down) (wf : s.assoc.WF) {i : Input}
    (opening : i.opening = false) (delivered : i.delivered s = true) (depth : Nat) :
    StaysDown i (i.outcome s.assoc depth) := by
  obtain ⟨hstate, hcs, hentry⟩ := down
  cases i with
  | connect | listen => cases opening
  | sendPdu buf ans =>
    simp only [Input.outcome, PduAssoc.sendPdu, hcs, if_true]
    exact ⟨hstate, hcs, List.not_mem_nil, rfl⟩
  | closeSession =>
    simp only [Input.outcome, PduAssoc.closeSession, wf.queued hcs, if_true]
    refine ⟨rfl, rfl, ?_, ?_⟩
    · simp [(shut_shutdown _).left]
    · rw [if_pos rfl, Outcome.fail_calls, toldBy_append, toldBy_shutdown]
      rfl
  | shutdown => exact staysDown_shutdown s.assoc (fun h => by cases h)
  | destroy =>
    have shut := shut_shutdown s.assoc
    refine ⟨rfl, rfl, ?_, ?_⟩
    · have strays : .addObserver ∉ s.assoc.strays := fun h => by cases PduAssoc.mem_strays h
      simp only [Input.outcome, PduAssoc.destroy, List.mem_append, shut.left, strays, List.mem_map,
        Option.mem_toList, Option.map_eq_some_iff, reduceCtorEq, and_false, exists_false, or_self,
        not_false_eq_true]
    · exact toldBy_destroy s.assoc
  | socketNotify event ans =>
    simp only [Input.delivered, hentry] at delivered
    cases delivered
  | unlink child =>
    simp only [Input.outcome, PduAssoc.unlink]
    split
    · exact ⟨hstate, hcs, List.not_mem_nil, rfl⟩
    · exact ⟨hstate, hcs, by simp, rfl⟩
  | idleTime timeout => exact ⟨hstate, hcs, by simp [Input.outcome, PduAssoc.setIdleTime], rfl⟩
  | _ => exact ⟨hstate, hcs, List.not_mem_nil, rfl⟩

/-- What is left of a callback tells nobody anything in an association that is down. -/
theorem toldBy_resume_down {s : Sys} (down : s.Down) (f : Frame) (ans : Answers) (depth : Nat) :
    toldBy (s.assoc.resume f ans depth).calls = [] := by
  cases f with
  | recv destroyed =>
    cases destroyed with
    | true => rfl
    | false =>
      simp only [PduAssoc.resume, PduAssoc.resumeRecv, down.cs, if_true]
      rfl
  | connect =>
    simp only [PduAssoc.resume, PduAssoc.resumeConnect, PduAssoc.flushPdu, down.state]
    rfl
  | session child =>
    simp only [PduAssoc.resume, PduAssoc.resumeSession]
    split <;> rfl
  | tail => rfl

/-- **A step of an association that is down**: it stays down unless it is opened, and tells nobody
anything, unless it is `close_session`. -/
theorem down_step {s s' : Sys} {i : Input} {o : List Call} (down : s.Down) (wf : s.assoc.WF)
    (opening : i.opening = false) (delivered : i.delivered s = true)
    (step : pdu.step s i = some (s', o)) :
    s'.Down ∧ toldBy o = if i = .closeSession then [.failNotify] else [] := by
  cases stepped_of_step step with
  | call _ hi =>
    have stays := staysDown_outcome down wf opening delivered s.frames.length
    refine ⟨⟨?_, ?_, ?_⟩, stays.told⟩
    · rw [Sys.bury_assoc]
      exact stays.state
    · rw [Sys.bury_assoc]
      exact stays.cs
    · rw [Sys.bury_entry, Sys.perform, down.entry]
      exact onEntry_none stays.left
  | @back ans f fs =>
    exact ⟨(down_resume down f ans fs).1, toldBy_resume_down down f ans fs.length⟩
  | dead => exact ⟨⟨down.state, down.cs, down.entry⟩, rfl⟩

/-- **A step of any association** tells one thing at most, and when that is a failure the
association is down. -/
theorem told_step {s s' : Sys} {i : Input} {o : List Call} (step : pdu.step s i = some (s', o)) :
    toldBy o = [] ∨ ∃ c, toldBy o = [c] ∧ (c = .failNotify → s'.Down) := by
  cases stepped_of_step step with
  | call _ hi =>
    cases tells_outcome i s.frames.length s.assoc with
    | nothing quiet => exact .inl quiet
    | one c only shut =>
      refine .inr ⟨c, only, ?_⟩
      intro hc
      have down := (shut hc).down s
      refine ⟨?_, ?_, ?_⟩
      · rw [Sys.bury_assoc]
        exact down.state
      · rw [Sys.bury_assoc]
        exact down.cs
      · rw [Sys.bury_entry]
        exact down.entry
  | @back ans f fs =>
    cases PduAssoc.tells_resume f ans fs.length s.assoc with
    | nothing quiet => exact .inl quiet
    | one c only shut => exact .inr ⟨c, only, fun hc => (shut hc).down _⟩
  | dead => exact .inl rfl

/-! ## Over a run -/

theorem marks_snoc (log : List (Input × List Call)) (e : Input × List Call) :
    marks (log ++ [e]) = marks log ++ stepMarks e := by
  rw [marks, marks, List.flatMap_append, List.flatMap_singleton]

/-- The marks of a step that opens a connection. -/
theorem stepMarks_opening {s s' : Sys} {i : Input} {o : List Call} (opening : i.opening = true)
    (step : pdu.step s i = some (s', o)) : stepMarks (i, o) = [.opened] := by
  have quiet : toldBy o = [] := by
    cases stepped_of_step step with
    | call => exact toldBy_opening opening s.frames.length s.assoc
    | back | dead => cases opening
  simp only [stepMarks, opening, quiet, if_true, List.map_nil, List.append_nil]

/-- The marks of any other step. -/
theorem stepMarks_other {i : Input} (opening : i.opening = false) (o : List Call) :
    stepMarks (i, o) = (toldBy o).map .told := by
  simp only [stepMarks, opening, Bool.false_eq_true, if_false, List.nil_append]

/-- A step leaves one mark at most. -/
theorem stepMarks_step {s s' : Sys} {i : Input} {o : List Call}
    (step : pdu.step s i = some (s', o)) :
    stepMarks (i, o) = [] ∨ ∃ m, stepMarks (i, o) = [m] ∧ (m = .told .failNotify → s'.Down) := by
  cases opening : i.opening with
  | true => exact .inr ⟨.opened, stepMarks_opening opening step, nofun⟩
  | false =>
    rw [stepMarks_other opening]
    rcases told_step step with quiet | ⟨c, only, down⟩
    · exact .inl (by rw [quiet, List.map_nil])
    · refine .inr ⟨.told c, by rw [only, List.map_singleton], ?_⟩
      intro hm
      exact down (Mark.told.inj hm)

/-- **One step** of a history in which a failure that was told finds the association down: so it is
behind the step, and the step breaks the rule only as `close_session` behind a failure. -/
theorem told_once_step {s s' : Sys} {i : Input} {o : List Call} {log : List (Input × List Call)}
    (wf : s.assoc.WF) (down : FailureTold log → s.Down) (delivered : i.delivered s = true)
    (step : pdu.step s i = some (s', o)) :
    (FailureTold (log ++ [(i, o)]) → s'.Down) ∧ (FailureToldOnce (log ++ [(i, o)]) ↔
      FailureToldOnce log ∧ (i = .closeSession → ¬ FailureTold log)) := by
  simp only [FailureTold, FailureToldOnce, marks_snoc, List.isChain_append] at down ⊢
  by_cases told : (marks log).getLast? = some (.told .failNotify)
  · cases opening : i.opening with
    | true =>
      have other : i ≠ .closeSession := by rintro rfl; cases opening
      rw [stepMarks_opening opening step]
      simp [told, other]
    | false =>
      obtain ⟨down', only⟩ := down_step (down told) wf opening delivered step
      rw [stepMarks_other opening, only]
      refine ⟨fun _ => down', ?_⟩
      by_cases closes : i = .closeSession
      · simp [told, closes]
      · simp [told, closes]
  · rcases stepMarks_step step with none | ⟨m, one, down'⟩
    · rw [none]
      simp [told]
    · rw [one]
      refine ⟨?_, ?_⟩
      · intro last
        exact down' (by simpa using last)
      · have junction : ∀ x ∈ (marks log).getLast?, x = .told .failNotify → m = .opened := by
          rintro x hx rfl
          exact absurd hx told
        simpa [told] using fun _ => junction

/-- **At most one failure for each connection**: over every run, the observer hears nothing behind a
`failNotify` until the next `connect` or `listen`, if and only if nobody calls `close_session`
there. -/
theorem failure_told_once_iff {is : List Input} {s : Sys} {log : List (Input × List Call)}
    (run : (pdu.restrict Input.delivered).logged.Run
      (fun s log => (∃ h, s.Born h) ∧ log = []) is s log) :
    FailureToldOnce log ↔ ClosedUntold log := by
  have carried : s.assoc.WF ∧ (FailureTold log → s.Down) ∧
      (FailureToldOnce log ↔ ClosedUntold log) := by
    refine run.invariant (fun s log => s.assoc.WF ∧ (FailureTold log → s.Down) ∧
      (FailureToldOnce log ↔ ClosedUntold log)) ?_ ?_
    · rintro s log ⟨⟨h, born⟩, rfl⟩
      refine ⟨wf_born born, nofun, ?_⟩
      exact iff_of_true .nil fun pre e post h => by simp at h
    · rintro s log i s' entries ⟨wf, down, once⟩ logged
      obtain ⟨o, step, rfl⟩ := Machine.logged_step.mp logged
      obtain ⟨delivered, step⟩ := Machine.restrict_step.mp step
      obtain ⟨down', once'⟩ := told_once_step wf down delivered step
      refine ⟨wf_step wf step, down', once'.trans ?_⟩
      rw [once]
      exact (forall_split_snoc (P := fun pre e => e.1 = .closeSession → ¬ FailureTold pre)
        (h := log) (e := (i, o))).symm
  exact carried.2.2

/-- A connection that the other side closes, and one that the application closes as soon as it is
told of it. -/
def failedAndClosed : List Input :=
  [.connect 1 "tcp:host:210" 1 {}, .socketNotify observeWrite {}, .ret {},
    .socketNotify observeRead { get := { res := 0 } }, .ret {},
    .connect 1 "tcp:host:210" 2 {}, .socketNotify observeWrite {}, .closeSession]

/-- One failure for each of two connections. -/
theorem failure_told_once_two : ∃ s log, (pdu.restrict Input.delivered).logged.Run
      (fun s log => (∃ h, s.Born h) ∧ log = []) failedAndClosed s log ∧
    marks log = [.opened, .told .connectNotify, .told .failNotify,
      .opened, .told .connectNotify, .told .failNotify] ∧
    FailureToldOnce log ∧ ClosedUntold log := by
  have seen : ∃ s log, (pdu.restrict Input.delivered).logged.Run
      (fun s log => (∃ h, s.Born h) ∧ log = []) failedAndClosed s log ∧
      marks log = [.opened, .told .connectNotify, .told .failNotify,
        .opened, .told .connectNotify, .told .failNotify] :=
    Machine.Run.of_exec ⟨⟨[], .new⟩, rfl⟩ rfl
  obtain ⟨s, log, run, seen⟩ := seen
  have once : FailureToldOnce log := by
    rw [FailureToldOnce, seen]
    decide
  exact ⟨s, log, run, seen, once, (failure_told_once_iff run).mp once⟩

/-- A connection that the other side closes, and an application that closes the session when it is
told so. -/
def closedOnFailure : List Input :=
  [.connect 1 "tcp:host:210" 1 {}, .socketNotify observeWrite {}, .ret {},
    .socketNotify observeRead { get := { res := 0 } }, .closeSession]

/-- **Told twice**: `close_session` inside `failNotify` calls `failNotify` again. -/
theorem failure_told_twice : ¬ ∀ is s log, (pdu.restrict Input.delivered).logged.Run
    (fun s log => (∃ h, s.Born h) ∧ log = []) is s log → FailureToldOnce log := by
  intro all
  have seen : ∃ s log, (pdu.restrict Input.delivered).logged.Run
      (fun s log => (∃ h, s.Born h) ∧ log = []) closedOnFailure s log ∧
      marks log = [.opened, .told .connectNotify, .told .failNotify, .told .failNotify] :=
    Machine.Run.of_exec ⟨⟨[], .new⟩, rfl⟩ rfl
  obtain ⟨s, log, run, seen⟩ := seen
  have once := all _ s log run
  rw [FailureToldOnce, seen] at once
  exact absurd once (by decide)

end Yazpp
