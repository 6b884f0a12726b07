import Yazpp.Lib.Outbox
import Yazpp.PduAssoc.Spec

/-!
# Outbound PDUs keep their order

`queue_out` and `cs` together are an outbox (`PduAssoc.outbox`), and what the association says to
COMSTACK and to the socket manager is what happens to it (`Call.outEvent?`): a COMSTACK that is
installed opens it, a `deleteObserver` closes it, `send_PDU` that is not rejected puts a PDU at
its end, and `cs_put` is the offer of its head. Every function of the association is then a replay
of the events it makes (`follows_outcome`), so a run of the association is a run of the outbox,
and order, completeness and retry are the outbox's own laws.

A COMSTACK is one here when it is installed once: a handle that comes back after `cs_close` is
another connection.
-/

set_option autoImplicit false

namespace Yazpp

open Yazpp.Lib

/-! ## The history on one COMSTACK -/

/-- The COMSTACKs installed, by `connect`, by `listen` and by the constructor. -/
def installs (h : List Call) : List Comstack :=
  h.filterMap fun
    | .csCreateHost _ cs => if cs = 0 then none else some cs
    | .csAttach cs => some cs
    | _ => none

/-- The PDUs of the `send_PDU` calls accepted while `cs` was installed. -/
def acceptedOn (cs : Comstack) (h : List Call) : List Buf :=
  h.filterMap fun
    | .newPduQueue cs' buf => if cs' = cs then some buf else none
    | _ => none

/-- The `cs_put` calls on `cs`, with their results. -/
def putsOn (cs : Comstack) (h : List Call) : List (Buf × Int) :=
  h.filterMap fun
    | .csPut cs' buf res => if cs' = cs then some (buf, res) else none
    | _ => none

/-- The PDUs for which `cs_put` returned 0 on `cs`. -/
def sentOn (cs : Comstack) (h : List Call) : List Buf :=
  ((putsOn cs h).filter fun p => p.2 = 0).map Prod.fst

/-! ## The outbox of an association -/

/-- What a result of `cs_put` makes of the PDU. -/
def offerOf (res : Int) : Offer :=
  if res < 0 then .failed else if res = 1 then .partly else .whole

/-- What a call does to the outbox. -/
def Call.outEvent? : Call → Option (OutEvent Comstack Buf)
  | .csCreateHost _ cs => if cs = 0 then none else some (.opened cs)
  | .csAttach cs => some (.opened cs)
  | .deleteObserver => some .closed
  | .newPduQueue cs buf => some (.accepted cs buf)
  | .csPut cs buf res => some (.offered cs buf (offerOf res))
  | _ => none

/-- The events of a history. -/
def outEvents (h : List Call) : List (OutEvent Comstack Buf) := h.filterMap Call.outEvent?

theorem outEvents_append (h calls : List Call) :
    outEvents (h ++ calls) = outEvents h ++ outEvents calls :=
  List.filterMap_append

/-- The open COMSTACK and the PDUs in `queue_out`. -/
def PduAssoc.outbox (a : PduAssoc) : Outbox Comstack Buf where
  conn := if a.cs = 0 then none else some a.cs
  queue := a.queueOut

theorem PduAssoc.outbox_open {a : PduAssoc} (hcs : a.cs ≠ 0) :
    a.outbox = ⟨some a.cs, a.queueOut⟩ := by
  simp only [outbox, hcs, if_false]

/-- One event on the open COMSTACK. -/
theorem PduAssoc.outbox_replay {a b : PduAssoc} {calls : List Call} {e : OutEvent Comstack Buf}
    {queue rest : List Buf} (hcs : a.cs ≠ 0) (same : b.cs = a.cs) (hqueue : a.queueOut = queue)
    (hrest : b.queueOut = rest) (event : outEvents calls = [e])
    (step : Outbox.Step ⟨some a.cs, queue⟩ e ⟨some a.cs, rest⟩) :
    Outbox.Replay a.outbox (outEvents calls) b.outbox := by
  rw [event, outbox_open hcs, outbox_open (same ▸ hcs), same, hqueue, hrest]
  exact .single step

theorem offerOf_failed {res : Int} (hneg : res < 0) : offerOf res = .failed := by
  simp only [offerOf, hneg, if_true]

theorem offerOf_partly {res : Int} (hone : res = 1) : offerOf res = .partly := by
  subst hone
  rfl

theorem offerOf_whole {res : Int} (hnn : 0 ≤ res) (hone : res ≠ 1) : offerOf res = .whole := by
  simp only [offerOf, Int.not_lt.mpr hnn, hone, if_false]

/-! ## Each function is a replay of its events -/

/-- The outcome is what its calls do to the outbox. -/
def Follows (a : PduAssoc) (o : Outcome) : Prop :=
  Outbox.Replay a.outbox (outEvents o.calls) o.assoc.outbox

/-- No event, and the same COMSTACK and queue. -/
theorem follows_of_quiet {a : PduAssoc} {o : Outcome} (same : o.assoc.outbox = a.outbox)
    (quiet : outEvents o.calls = []) : Follows a o := by
  rw [Follows, quiet, same]
  exact .nil _

/-- What is done from `b` is done from `a`, when `a` gets to `b` by the calls made before. -/
theorem Follows.after {a b : PduAssoc} {o : Outcome} {calls : List Call}
    (first : Outbox.Replay a.outbox (outEvents calls) b.outbox) (follows : Follows b o) :
    Follows a (o.after calls) := by
  rw [Follows, Outcome.after_calls, outEvents_append]
  exact first.append follows

/-- Quiet calls before, on the same COMSTACK and queue. -/
theorem Follows.after_quiet {a b : PduAssoc} {o : Outcome} {calls : List Call}
    (same : a.outbox = b.outbox) (quiet : outEvents calls = []) (follows : Follows b o) :
    Follows a (o.after calls) := by
  refine Follows.after ?_ follows
  rw [quiet, same]
  exact .nil _

/-- `failNotify` is no event. -/
theorem Follows.fail {a : PduAssoc} {o : Outcome} (follows : Follows a o) : Follows a o.fail := by
  rw [Follows, Outcome.fail_calls, outEvents_append]
  exact follows.append (.nil _)

theorem outEvents_shutdown (a : PduAssoc) : outEvents a.shutdown.calls = [.closed] :=
  a.shutdown_calls_filterMap (fun _ => rfl) fun _ => rfl

theorem follows_shutdown (a : PduAssoc) : Follows a a.shutdown := by
  rw [Follows, outEvents_shutdown]
  exact .single .closed

theorem follows_teardown (a : PduAssoc) : Follows a a.teardown := by
  have hevents : outEvents a.teardown.calls = [.closed] := by
    simp only [PduAssoc.teardown]
    split <;> rfl
  rw [Follows, hevents]
  exact .single .closed

/-- `flush_PDU`: the head of the queue is offered, and leaves when it was taken whole. -/
theorem follows_flushPdu {ans : Answers} {a : PduAssoc} (wf : a.WF) :
    Follows a (a.flushPdu ans) := by
  have live : a.state = .ready ∨ a.state = .writing → a.cs ≠ 0 := fun hs =>
    wf.opened (by rcases hs with hs | hs <;> simp [hs])
  have put : ∀ {q : Buf} {offer : Offer}, offerOf ans.put.res = offer →
      outEvents [.csPut a.cs q ans.put.res] = [.offered a.cs q offer] := fun hoffer =>
    congrArg (fun offer => [OutEvent.offered a.cs _ offer]) hoffer
  have fl := PduAssoc.flushPdu_flushed ans a
  generalize a.flushPdu ans = o at fl
  cases fl with
  | notReady => exact follows_of_quiet rfl rfl
  | idle => exact follows_of_quiet rfl rfl
  | idleDead => exact (follows_shutdown a).fail.after_quiet rfl rfl
  | @failed q rest hs hq hneg =>
    have offered := PduAssoc.outbox_replay (b := a) (live hs) rfl hq hq
      (put (offerOf_failed hneg)) (.failed a.cs rest q)
    exact Follows.after offered (follows_shutdown a).fail
  | @partly q rest hs hq hone =>
    exact PduAssoc.outbox_replay (live hs) rfl hq hq (put (offerOf_partly hone))
      (.partly a.cs rest q)
  | @drained q hs hq hnn hone =>
    exact PduAssoc.outbox_replay (live hs) rfl hq rfl
      (put (offerOf_whole hnn hone)) (.whole a.cs [] q)
  | @drainedDead q hs hq hnn hone =>
    have offered := PduAssoc.outbox_replay (b := { a with queueOut := [] }) (live hs) rfl hq rfl
      (put (offerOf_whole hnn hone)) (.whole a.cs [] q)
    exact Follows.after offered (follows_shutdown { a with queueOut := [] })
  | @more q rest hs hq _ hnn hone =>
    exact PduAssoc.outbox_replay (live hs) rfl hq rfl
      (put (offerOf_whole hnn hone)) (.whole a.cs rest q)

theorem follows_receive {ans : Answers} {depth : Nat} {a : PduAssoc} :
    Follows a (a.receive ans depth) := by
  have rc := PduAssoc.receive_received ans depth a
  generalize a.receive ans depth = o at rc
  cases rc with
  | waits => exact follows_of_quiet rfl rfl
  | closed => exact (follows_shutdown a).fail.after_quiet rfl rfl
  | closedUnobserved => exact (follows_shutdown a).after_quiet rfl rfl
  | pdu => exact follows_of_quiet rfl rfl
  | pduUnobserved => exact follows_of_quiet rfl rfl

/-- A connection turns Ready and is flushed. -/
theorem follows_ready {ans : Answers} {a : PduAssoc} {calls : List Call} (wf : a.WF)
    (hs : a.state ≠ .closed) (quiet : outEvents calls = []) :
    Follows a ((({ a with state := .ready } : PduAssoc).flushPdu ans).after calls) :=
  (follows_flushPdu (wf.ready hs)).after_quiet rfl quiet

theorem follows_socketNotify {event : Nat} {ans : Answers} {depth : Nat} {a : PduAssoc}
    (wf : a.WF) : Follows a (a.socketNotify event ans depth) := by
  have nt := PduAssoc.socketNotify_notified event ans depth a
  generalize a.socketNotify event ans depth = o at nt
  cases nt with
  | except => exact (follows_shutdown a).fail
  | timeout => exact follows_of_quiet rfl rfl
  | acceptFailed hs =>
    -- the COMSTACK is given up before `shutdown`, which then closes nothing
    rw [Follows, Outcome.after_calls, Outcome.fail_calls, outEvents_append, outEvents_append,
      outEvents_shutdown]
    exact .single .closed
  | acceptMore => exact follows_of_quiet rfl rfl
  | acceptDone hs => exact follows_ready wf (by simp [hs]) rfl
  | connectMore => exact follows_of_quiet rfl rfl
  | connectDone => exact follows_of_quiet rfl rfl
  | connectUnobserved hs => exact follows_ready wf (by simp [hs]) rfl
  | listened =>
    have ls := PduAssoc.notifyListen_listened event ans a
    generalize a.notifyListen event ans = o at ls
    cases ls <;> exact follows_of_quiet rfl rfl
  | writing => exact follows_flushPdu wf
  | ready => exact follows_receive
  | nothing => exact follows_of_quiet rfl rfl
  | closed => exact (follows_shutdown a).fail

/-- `send_PDU`: accepted at the end of the queue, and an idle association offers it at once. -/
theorem follows_sendPdu {buf : Buf} {ans : Answers} {a : PduAssoc} (wf : a.WF) :
    Follows a (a.sendPdu buf ans) := by
  have st := PduAssoc.sendPdu_sent buf ans a
  generalize a.sendPdu buf ans = o at st
  cases st with
  | rejected => exact follows_of_quiet rfl rfl
  | queued hcs =>
    exact PduAssoc.outbox_replay hcs rfl rfl rfl rfl (.accepted a.cs a.queueOut buf)
  | flushed hcs hq =>
    have accepted : Outbox.Replay a.outbox (outEvents [.newPduQueue a.cs buf])
        ({ a with queueOut := [buf] } : PduAssoc).outbox :=
      PduAssoc.outbox_replay hcs rfl hq rfl rfl (.accepted a.cs [] buf)
    have queued : ({ a with queueOut := [buf] } : PduAssoc).WF :=
      ⟨wf.opened, fun h => absurd h hcs⟩
    exact Follows.after accepted (follows_flushPdu queued)

/-- `shutdown`, then the calls that install `cs`. -/
theorem follows_install {a b : PduAssoc} {cs : Comstack} {calls : List Call} {o : Outcome}
    (hcs : cs ≠ 0) (hb : b.outbox = ⟨some cs, []⟩) (quiet : outEvents calls = [])
    (hassoc : o.assoc = b) (addr : String)
    (hcalls : o.calls = a.shutdown.calls ++ .csCreateHost addr cs :: calls) : Follows a o := by
  have hevents : outEvents o.calls = [.closed, .opened cs] := by
    rw [hcalls, outEvents_append, outEvents_shutdown]
    simp only [outEvents, List.filterMap_cons, Call.outEvent?, hcs, if_false]
    exact congrArg (fun l => [OutEvent.closed, .opened cs] ++ l) quiet
  rw [Follows, hevents, hassoc, hb]
  exact .cons .closed (.single (.opened cs))

/-- `shutdown`, and no COMSTACK to install. -/
theorem follows_refused {a : PduAssoc} {o : Outcome} {addr : String} {cs : Comstack}
    (hcs : cs = 0) (hassoc : o.assoc.outbox = ⟨none, []⟩)
    (hcalls : o.calls = a.shutdown.calls ++ [.csCreateHost addr cs]) : Follows a o := by
  have hevents : outEvents o.calls = [.closed] := by
    rw [hcalls, outEvents_append, outEvents_shutdown, hcs]
    rfl
  rw [Follows, hevents, hassoc]
  exact .single .closed

theorem follows_connect {observer : Observer} {addr : String} {cs : Comstack} {ans : Answers}
    {a : PduAssoc} : Follows a (a.connect observer addr cs ans) := by
  have ct := PduAssoc.connect_connected observer addr cs ans a
  generalize a.connect observer addr cs ans = o at ct
  cases ct with
  | refused hcs => exact follows_refused hcs (by simp [PduAssoc.outbox, hcs]) rfl
  | pending mask hcs => exact follows_install hcs (PduAssoc.outbox_open hcs) rfl rfl addr rfl
  | failed hcs => exact follows_install hcs (PduAssoc.outbox_open hcs) rfl rfl addr rfl

theorem follows_listen {observer : Observer} {addr : String} {cs : Comstack} {ans : Answers}
    {a : PduAssoc} : Follows a (a.listen observer addr cs ans) := by
  have lm := PduAssoc.listen_made observer addr cs ans a
  generalize a.listen observer addr cs ans = o at lm
  cases lm with
  | stopped => exact follows_teardown a
  | refused hcs => exact follows_refused hcs (by simp [PduAssoc.outbox, hcs]) rfl
  | unbound cert hcs =>
    exact follows_install hcs (PduAssoc.outbox_open hcs) (by cases cert <;> rfl) rfl addr rfl
  | bound cert hcs =>
    exact follows_install hcs (PduAssoc.outbox_open hcs) (by cases cert <;> rfl) rfl addr rfl

theorem follows_destroy (a : PduAssoc) : Follows a a.destroy := by
  have hchildren : (a.children.map Call.deleteChild).filterMap Call.outEvent? = [] := by
    simp only [List.filterMap_eq_nil_iff, List.forall_mem_map]
    exact fun _ _ => rfl
  have hevents : outEvents a.destroy.calls = [.closed] := by
    have strays : outEvents a.strays = [] := a.strays_filterMap rfl
    simp only [PduAssoc.destroy, outEvents_append, outEvents_shutdown, strays]
    cases a.parent <;> simp [outEvents, hchildren, Call.outEvent?]
  rw [Follows, hevents]
  exact .single .closed

/-- **Every call on the association** is a replay of its events. -/
theorem follows_outcome (i : Input) {depth : Nat} {a : PduAssoc} (wf : a.WF) :
    Follows a (i.outcome a depth) := by
  cases i with
  | connect observer addr cs ans => exact follows_connect
  | listen observer addr cs ans => exact follows_listen
  | sendPdu buf ans => exact follows_sendPdu wf
  | closeSession =>
    simp only [Input.outcome, PduAssoc.closeSession]
    split
    · exact (follows_shutdown { a with sessionIsDead := true }).fail
    · exact follows_of_quiet rfl rfl
  | shutdown => exact follows_shutdown a
  | destroy => exact follows_destroy a
  | socketNotify event ans => exact follows_socketNotify wf
  | unlink child =>
    simp only [Input.outcome, PduAssoc.unlink]
    split <;> exact follows_of_quiet rfl rfl
  | _ => exact follows_of_quiet rfl rfl

/-- The code behind every callback is a replay of its events. -/
theorem follows_resume {f : Frame} {ans : Answers} {depth : Nat} {a : PduAssoc} (wf : a.WF) :
    Follows a (a.resume f ans depth) := by
  cases f with
  | recv destroyed =>
    cases destroyed with
    | true => exact follows_of_quiet rfl rfl
    | false =>
      have rs := PduAssoc.resumeRecv_resumed ans depth a
      simp only [PduAssoc.resume]
      generalize a.resumeRecv ans depth = o at rs
      cases rs with
      | gone => exact follows_of_quiet rfl rfl
      | more =>
        exact Follows.after_quiet (b := { a with destroyed := .null }) rfl rfl follows_receive
      | ready => exact follows_of_quiet rfl rfl
      | notReady => exact follows_of_quiet rfl rfl
  | connect => exact follows_flushPdu wf
  | session child =>
    simp only [PduAssoc.resume, PduAssoc.resumeSession]
    split <;> exact follows_of_quiet rfl rfl
  | tail => exact follows_of_quiet rfl rfl

/-! ## Runs -/

/-- The invariant: the association is well-formed, and the outbox has run to where it stands. -/
structure Posted (s : Sys) (h : List Call) : Prop where
  wf : s.assoc.WF
  ran : Outbox.Ran (outEvents h) s.assoc.outbox

/-- **One step** is a replay. -/
theorem Posted.step {s s' : Sys} {h o : List Call} {i : Input} (posted : Posted s h)
    (step : pdu.step s i = some (s', o)) : Posted s' (h ++ o) := by
  refine ⟨wf_step posted.wf step, ?_⟩
  rw [outEvents_append]
  cases stepped_of_step step with
  | call =>
    rw [Sys.bury_assoc]
    exact posted.ran.replay (follows_outcome i posted.wf)
  | back => exact posted.ran.replay (follows_resume posted.wf)
  | dead => exact posted.ran.replay (.nil _)

theorem posted_born {s : Sys} {h : List Call} (born : Sys.Born s h) : Posted s h := by
  refine ⟨wf_born born, ?_⟩
  cases born with
  | new => exact .nil
  | @accepted cs pending fileno hcs =>
    have made : Outbox.Ran (outEvents [.csAttach cs]) ⟨some cs, []⟩ := .snoc .nil (.opened cs)
    simp only [PduAssoc.accepted]
    split
    · have same : ({ PduAssoc.init with cs := cs, state := .ready } : PduAssoc).outbox =
          ⟨some cs, []⟩ := PduAssoc.outbox_open hcs
      have wf : ({ PduAssoc.init with cs := cs, state := .ready } : PduAssoc).WF :=
        ⟨fun _ => hcs, fun _ => rfl⟩
      exact made.replay (same ▸ follows_flushPdu wf)
    · have same : ({ PduAssoc.init with cs := cs, state := .accepting } : PduAssoc).outbox =
          ⟨some cs, []⟩ := PduAssoc.outbox_open hcs
      exact made.replay (same ▸ .nil _)

/-! ## The events are the history -/

theorem opens_outEvents (h : List Call) : Outbox.opens (outEvents h) = installs h := by
  simp only [Outbox.opens, outEvents, installs, List.filterMap_filterMap]
  congr 1
  funext c
  cases c with
  | csCreateHost addr cs => by_cases hcs : cs = 0 <;> simp [Call.outEvent?, hcs]
  | _ => rfl

theorem accepts_outEvents (cs : Comstack) (h : List Call) :
    Outbox.accepts cs (outEvents h) = acceptedOn cs h := by
  simp only [Outbox.accepts, outEvents, acceptedOn, List.filterMap_filterMap]
  congr 1
  funext c
  cases c with
  | csCreateHost addr cs' => by_cases hcs : cs' = 0 <;> simp [Call.outEvent?, hcs]
  | _ => rfl

theorem offers_outEvents (cs : Comstack) (h : List Call) :
    Outbox.offers cs (outEvents h) = (putsOn cs h).map fun p => (p.1, offerOf p.2) := by
  simp only [Outbox.offers, outEvents, putsOn, List.filterMap_filterMap, List.map_filterMap]
  congr 1
  funext c
  cases c with
  | csCreateHost addr cs' => by_cases hcs : cs' = 0 <;> simp [Call.outEvent?, hcs]
  | csPut cs' buf res => by_cases hcs : cs' = cs <;> simp [Call.outEvent?, hcs]
  | _ => rfl

/-- With results that are at most 1, taken whole means that `cs_put` returned 0. -/
theorem taken_outEvents {cs : Comstack} {h : List Call} (results : ∀ p ∈ putsOn cs h, p.2 ≤ 1) :
    Outbox.taken cs (outEvents h) = sentOn cs h := by
  simp only [Outbox.taken, sentOn, offers_outEvents, List.filter_map, List.map_map]
  refine congrArg (List.map Prod.fst) (List.filter_congr fun p hp => ?_)
  have hle := results p hp
  simp only [Function.comp_apply, offerOf, decide_eq_decide]
  split
  · next hneg => simp only [reduceCtorEq, false_iff]; omega
  · next hneg =>
    split
    · next hone => simp only [reduceCtorEq, false_iff]; omega
    · next hone => simp only [true_iff]; omega

/-- **Outbound PDUs keep their order**: in every run, whoever calls the association and from inside
whatever callback, the PDUs for which `cs_put` returned 0 on one COMSTACK are a prefix of the PDUs
accepted by `send_PDU` on it, and the `cs_put` after one that returned 1 gets the same PDU.
COMSTACK documents no result of `cs_put` above 1. -/
theorem pdus_in_order {is : List Input} {s : Sys} {h : List Call} (run : pdu.Run Sys.Born is s h)
    (once : (installs h).Nodup) (cs : Comstack) (results : ∀ p ∈ putsOn cs h, p.2 ≤ 1) :
    sentOn cs h <+: acceptedOn cs h ∧ (putsOn cs h).IsChain fun p q => p.2 = 1 → q.1 = p.1 := by
  have posted : Posted s h := run.invariant Posted (fun _ _ => posted_born)
    fun _ _ _ _ _ posted step => posted.step step
  have once' : (Outbox.opens (outEvents h)).Nodup := by rwa [opens_outEvents]
  constructor
  · have order := posted.ran.order once' cs
    rwa [taken_outEvents results, accepts_outEvents] at order
  · have retry := posted.ran.retry once' cs
    rw [offers_outEvents, List.isChain_map] at retry
    exact retry.imp fun p q hpq hone => hpq (by simp [offerOf, hone])

/-- Three PDUs, sent while Connecting and from inside `connectNotify`: the first is written
behind the callback, the second in two parts, and the third waits. -/
theorem pdus_in_order_partly : ∃ s h, pdu.Run Sys.Born
    [.connect 1 "tcp:host:210" 1 {}, .sendPdu [1] {}, .socketNotify observeWrite {},
      .sendPdu [2] {}, .sendPdu [3] {}, .ret { put := { res := 1 } },
      .socketNotify observeWrite {}, .socketNotify observeWrite { put := { res := 1 } },
      .socketNotify observeWrite {}] s h ∧
    sentOn 1 h = [[1], [2]] ∧ acceptedOn 1 h = [[1], [2], [3]] ∧
    sentOn 1 h <+: acceptedOn 1 h ∧ (putsOn 1 h).IsChain fun p q => p.2 = 1 → q.1 = p.1 := by
  have run : pdu.exec {} [.connect 1 "tcp:host:210" 1 {}, .sendPdu [1] {},
      .socketNotify observeWrite {}, .sendPdu [2] {}, .sendPdu [3] {}, .ret { put := { res := 1 } },
      .socketNotify observeWrite {}, .socketNotify observeWrite { put := { res := 1 } },
      .socketNotify observeWrite {}] = some _ := rfl
  have ran := Machine.Run.exec (.start Sys.Born.new) run
  exact ⟨_, _, ran, rfl, rfl, pdus_in_order ran (by decide) 1 (by decide)⟩

end Yazpp
