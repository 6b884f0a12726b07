import Yazpp.PduAssoc.Spec

/-!
# Output that waits for nobody

A PDU in `queue_out` of an open connection leaves it only when a later socket event calls
`flush_PDU`, and in state Ready a socket event reads instead. So output is not stuck exactly when
a non-empty queue means state Writing with a mask that asks for WRITE.

`flush_PDU` writes one PDU and stops. From Writing that is enough, since the state and the mask
stay until the queue is empty. From Ready it is not: a connection that opens on two or more queued
PDUs, and writes the first of them whole, is left in Ready with the rest in the queue
(`stalls_strands`). That is the one way to strand output: in a run without such a step nothing is
ever stuck (`output_not_stuck`).
-/

set_option autoImplicit false

namespace Yazpp

open Yazpp.Lib

/-! ## The mask last asked for -/

/-- The mask of a `maskObserver` call. -/
def Call.mask? : Call → Option Nat
  | .maskObserver mask _ => some mask
  | _ => none

/-- The mask last given to `maskObserver`. -/
def lastMask (h : List Call) : Option Nat := (h.filterMap Call.mask?).getLast?

/-- The mask last given to `maskObserver` has `SOCKET_OBSERVE_WRITE`. -/
def WriteAsked (h : List Call) : Prop :=
  ∃ mask, lastMask h = some mask ∧ testMask mask observeWrite = true

/-- Calls that mask nothing leave the last mask. -/
theorem lastMask_append_quiet {h calls : List Call} (quiet : calls.filterMap Call.mask? = []) :
    lastMask (h ++ calls) = lastMask h := by
  simp only [lastMask, List.filterMap_append, quiet, List.append_nil]

/-- The last call of a list that masks is the last mask. -/
theorem lastMask_snoc (h : List Call) (mask : Nat) (fd : Int) :
    lastMask (h ++ [.maskObserver mask fd]) = some mask := by
  simp only [lastMask, List.filterMap_append, List.filterMap_cons, Call.mask?, List.filterMap_nil,
    List.getLast?_append, List.getLast?_singleton, Option.some_or]

theorem WriteAsked.append_quiet {h calls : List Call} (asked : WriteAsked h)
    (quiet : calls.filterMap Call.mask? = []) : WriteAsked (h ++ calls) := by
  obtain ⟨mask, hlast, hwrite⟩ := asked
  exact ⟨mask, (lastMask_append_quiet quiet).trans hlast, hwrite⟩

/-! ## The step that strands output -/

/-- Assumed of COMSTACK: the `cs_get` right after a true `cs_more` returns a PDU. -/
def Input.moreIsThere : Input → Bool
  | .ret ans => !ans.more || decide (1 < ans.get.res)
  | _ => true

/-- `cs_put` took the whole PDU. -/
def Answers.putWhole (ans : Answers) : Bool := decide (0 ≤ ans.put.res) && ans.put.res != 1

/-- The input opens the connection and flushes it in state Ready: an accept that is complete, a
connect that is complete with nobody to tell, or the return from `connectNotify`. -/
def Input.opens (s : Sys) : Input → Bool
  | .socketNotify event ans =>
    !testMask event observeTimeout &&
      (s.assoc.state == .accepting && !testMask event observeExcept && ans.accept.res != 0 &&
          ans.accept.pending.mask == 0 ||
        s.assoc.state == .connecting && ans.rcvconnect.res != 1 && s.assoc.observer == 0)
  | .ret _ => s.alive && s.frames.head? == some .connect && s.assoc.state == .ready
  | _ => false

/-- The answers an input carries. -/
def Input.answers : Input → Answers
  | .connect _ _ _ ans => ans
  | .listen _ _ _ ans => ans
  | .sendPdu _ ans => ans
  | .socketNotify _ ans => ans
  | .ret ans => ans
  | _ => {}

/-- The stranding step: the connection opens on two or more queued PDUs, and `cs_put` takes the
first of them whole. -/
def Input.stalls (s : Sys) (i : Input) : Bool :=
  i.opens s && decide (2 ≤ s.assoc.queueOut.length) && i.answers.putWhole

/-! ## The invariant -/

/-- In Writing there is something to write and the mask asks for it. -/
def Asks (a : PduAssoc) (h : List Call) : Prop :=
  a.state = .writing → a.queueOut ≠ [] ∧ WriteAsked h

/-- In Ready there is nothing to write. -/
def Clear (a : PduAssoc) : Prop := a.state = .ready → a.queueOut = []

/-- The invariant of a run. While `connectNotify` runs, the state is Ready already and the queue
is flushed only behind it, so `Clear` waits for that callback to return. An association that was
deleted has nothing to wait for. -/
structure Outflow (s : Sys) (h : List Call) : Prop where
  asks : Asks s.assoc h
  clear : s.alive = true → .connect ∉ s.frames → Clear s.assoc

/-- What a function keeps of the invariant, from what it made before. -/
structure Keeps (a : PduAssoc) (h : List Call) (o : Outcome) : Prop where
  asks : Asks a h → Asks o.assoc (h ++ o.calls)
  clear : Asks a h → Clear a → o.frame ≠ some .connect → Clear o.assoc

theorem asks_of_state {a : PduAssoc} {h : List Call} (hs : a.state ≠ .writing) : Asks a h :=
  fun hw => absurd hw hs

theorem clear_of_state {a : PduAssoc} (hs : a.state ≠ .ready) : Clear a :=
  fun hr => absurd hr hs

/-- Outside Ready and Writing the invariant asks for nothing. -/
theorem keeps_of_state {a : PduAssoc} {h : List Call} {o : Outcome} {p : PduState}
    (hs : o.assoc.state = p) (hw : p ≠ .writing) (hr : p ≠ .ready) : Keeps a h o :=
  ⟨fun _ => asks_of_state (hs ▸ hw), fun _ _ _ => clear_of_state (hs ▸ hr)⟩

theorem keeps_of_closed {a : PduAssoc} {h : List Call} {o : Outcome}
    (hs : o.assoc.state = .closed) : Keeps a h o :=
  keeps_of_state hs (by decide) (by decide)

/-- Calls that mask nothing, on an association whose state and queue stay, keep the invariant. -/
theorem keeps_of_quiet {a : PduAssoc} {h : List Call} {o : Outcome}
    (hs : o.assoc.state = a.state) (hq : o.assoc.queueOut = a.queueOut)
    (quiet : o.calls.filterMap Call.mask? = []) : Keeps a h o := by
  refine ⟨fun asks hw => ?_, fun _ clear _ hr => ?_⟩
  · obtain ⟨hne, hasked⟩ := asks (hs ▸ hw)
    exact ⟨hq ▸ hne, hasked.append_quiet quiet⟩
  · rw [hq]
    exact clear (hs ▸ hr)

/-! ## What each function keeps -/

/-- **`flush_PDU` clears**: from any state that asks, unless it is the stranding flush, it leaves a
state that asks and is clear. -/
theorem flushed_outflow {ans : Answers} {a : PduAssoc} {o : Outcome}
    (fl : PduAssoc.Flushed ans a o) {h : List Call} (asks : Asks a h)
    (flows : a.state = .ready → 2 ≤ a.queueOut.length → ans.putWhole = false) :
    Asks o.assoc (h ++ o.calls) ∧ Clear o.assoc := by
  cases fl with
  | notReady hr hw => exact ⟨asks_of_state hw, clear_of_state hr⟩
  | idle _ hq _ => exact ⟨asks_of_state nofun, fun _ => hq⟩
  | idleDead => exact ⟨asks_of_state nofun, clear_of_state nofun⟩
  | failed => exact ⟨asks_of_state nofun, clear_of_state nofun⟩
  | partly _ hq _ =>
    refine ⟨fun _ => ⟨hq ▸ List.cons_ne_nil _ _, ?_⟩, clear_of_state nofun⟩
    rw [← List.singleton_append, ← List.append_assoc]
    exact ⟨_, lastMask_snoc _ _ _, by simp⟩
  | drained => exact ⟨asks_of_state nofun, fun _ => rfl⟩
  | drainedDead => exact ⟨asks_of_state nofun, clear_of_state nofun⟩
  | @more q rest hlive hq hrest hnn hone =>
    -- a whole PDU and more behind it: not from Ready, and Writing keeps its mask
    have hlen : 2 ≤ a.queueOut.length := by
      rw [hq, List.length_cons]
      have := List.length_pos_iff.mpr hrest
      omega
    have hwhole : ans.putWhole = true := by simp [Answers.putWhole, hnn, hone]
    have hw : a.state = .writing := hlive.resolve_left fun hr => by simp [flows hr hlen] at hwhole
    have hr : a.state ≠ .ready := by simp [hw]
    exact ⟨fun _ => ⟨hrest, (asks hw).2.append_quiet rfl⟩, clear_of_state hr⟩

/-- The receive loop keeps the invariant: it masks only in Ready, or when `cs_get` returns 1. -/
theorem received_keeps {ans : Answers} {depth : Nat} {a : PduAssoc} {o : Outcome}
    (rc : PduAssoc.Received ans depth a o) (h : List Call)
    (there : a.state = .writing → 1 < ans.get.res) : Keeps a h o := by
  cases rc with
  | waits hone =>
    have hw : a.state ≠ .writing := fun hw => by
      have := there hw
      omega
    exact ⟨fun _ => asks_of_state hw, fun _ clear _ => clear⟩
  | closed => exact keeps_of_closed rfl
  | closedUnobserved => exact keeps_of_closed rfl
  | pdu => exact keeps_of_quiet rfl rfl rfl
  | pduUnobserved => exact keeps_of_quiet rfl rfl rfl

/-- The code behind `recv_PDU` keeps the invariant. -/
theorem resumeRecv_keeps (ans : Answers) (depth : Nat) (a : PduAssoc) (h : List Call)
    (there : ans.more = true → 1 < ans.get.res) : Keeps a h (a.resumeRecv ans depth) := by
  have rs := PduAssoc.resumeRecv_resumed ans depth a
  generalize a.resumeRecv ans depth = o at rs
  cases rs with
  | gone => exact keeps_of_quiet rfl rfl rfl
  | more _ hmore =>
    have kept := received_keeps
      (PduAssoc.receive_received ans depth { a with destroyed := .null })
      (h ++ [.csMore a.cs ans.more]) fun _ => there hmore
    have asked : Asks a h → Asks ({ a with destroyed := .null } : PduAssoc)
        (h ++ [.csMore a.cs ans.more]) :=
      fun asks hw => ⟨(asks hw).1, (asks hw).2.append_quiet rfl⟩
    refine ⟨fun asks => ?_, fun asks => kept.clear (asked asks)⟩
    rw [Outcome.after_calls, ← List.append_assoc]
    exact kept.asks (asked asks)
  | ready _ _ hr => exact ⟨fun _ => asks_of_state (by simp [hr]), fun _ clear _ => clear⟩
  | notReady => exact keeps_of_quiet rfl rfl rfl

/-- A flush of `b` after the calls `pre`, made while `a` asked. -/
theorem flush_keeps (ans : Answers) {a b : PduAssoc} {h : List Call} (pre : List Call)
    (asks : Asks a h → Asks b (h ++ pre))
    (flows : Asks a h → b.state = .ready → 2 ≤ b.queueOut.length → ans.putWhole = false) :
    Asks a h → Asks ((b.flushPdu ans).after pre).assoc (h ++ ((b.flushPdu ans).after pre).calls) ∧
      Clear ((b.flushPdu ans).after pre).assoc := by
  intro hasks
  rw [Outcome.after_calls, ← List.append_assoc]
  exact flushed_outflow (PduAssoc.flushPdu_flushed ans b) (asks hasks) (flows hasks)

/-- `send_PDU` keeps the invariant: behind a queue it only queues, and an idle association flushes
the one PDU it has. -/
theorem sendPdu_keeps (buf : Buf) (ans : Answers) (a : PduAssoc) (h : List Call) :
    Keeps a h (a.sendPdu buf ans) := by
  have st := PduAssoc.sendPdu_sent buf ans a
  generalize a.sendPdu buf ans = o at st
  cases st with
  | rejected => exact keeps_of_quiet rfl rfl rfl
  | queued _ hq =>
    refine ⟨fun asks hw => ⟨?_, (asks hw).2.append_quiet rfl⟩, fun _ clear _ hr => ?_⟩
    · exact List.append_ne_nil_of_right_ne_nil _ (List.cons_ne_nil buf [])
    · exact absurd (clear hr) hq
  | flushed _ hq =>
    have out := flush_keeps ans (a := a) (b := { a with queueOut := [buf] }) (h := h)
      [.newPduQueue a.cs buf] (fun asks hw => absurd hq (asks hw).1)
      (fun _ _ hlen => absurd hlen (by simp))
    exact ⟨fun asks => (out asks).1, fun asks _ _ => (out asks).2⟩

/-- `socketNotify` keeps the invariant, unless it is the stranding step. -/
theorem socketNotify_keeps (event : Nat) (ans : Answers) (s : Sys) (h : List Call)
    (flows : (Input.socketNotify event ans).stalls s = false) :
    Keeps s.assoc h (s.assoc.socketNotify event ans s.frames.length) := by
  have nt := PduAssoc.socketNotify_notified event ans s.frames.length s.assoc
  generalize s.assoc.socketNotify event ans s.frames.length = o at nt
  cases nt with
  | except => exact keeps_of_closed rfl
  | timeout => exact keeps_of_quiet rfl rfl rfl
  | acceptFailed => exact keeps_of_closed rfl
  | acceptMore hs => exact keeps_of_state hs (by decide) (by decide)
  | acceptDone hs hres hmask hx ht =>
    have out := flush_keeps ans (a := s.assoc) (b := { s.assoc with state := .ready })
      (h := h) [.csAccept s.assoc.cs ans.accept.res] (fun _ => asks_of_state nofun)
      (fun _ _ hlen => by simpa [Input.stalls, Input.opens, Input.answers, hs, hres, hmask, hx, ht,
        hlen] using flows)
    exact ⟨fun asks => (out asks).1, fun asks _ _ => (out asks).2⟩
  | connectMore hs => exact keeps_of_state hs (by decide) (by decide)
  | connectDone => exact ⟨fun _ => asks_of_state nofun, fun _ _ hf => absurd rfl hf⟩
  | connectUnobserved hs hres hobs ht =>
    have out := flush_keeps ans (a := s.assoc) (b := { s.assoc with state := .ready })
      (h := h) [.csRcvconnect s.assoc.cs ans.rcvconnect.res]
      (fun _ => asks_of_state nofun)
      (fun _ _ hlen => by simpa [Input.stalls, Input.opens, Input.answers, hs, hres, hobs, ht,
        hlen] using flows)
    exact ⟨fun asks => (out asks).1, fun asks _ _ => (out asks).2⟩
  | listened hs =>
    have ls := PduAssoc.notifyListen_listened event ans s.assoc
    generalize s.assoc.notifyListen event ans = o at ls
    cases ls with
    | nothing => exact keeps_of_quiet rfl rfl rfl
    | noLine => exact keeps_of_quiet rfl rfl rfl
    | refused => exact keeps_of_quiet rfl rfl rfl
    | session => exact keeps_of_quiet rfl rfl rfl
  | writing hs =>
    have out : Asks s.assoc h → _ := fun asks =>
      flushed_outflow (PduAssoc.flushPdu_flushed ans s.assoc) asks
        fun hr => absurd (hs.symm.trans hr) nofun
    exact ⟨fun asks => (out asks).1, fun asks _ _ => (out asks).2⟩
  | ready hs =>
    exact received_keeps (PduAssoc.receive_received ans s.frames.length s.assoc) h
      fun hw => absurd (hs.symm.trans hw) nofun
  | nothing => exact keeps_of_quiet rfl rfl rfl
  | closed => exact keeps_of_closed rfl

/-- Every call on the association keeps the invariant, unless it is the stranding step. -/
theorem outcome_keeps (i : Input) (s : Sys) (h : List Call) (flows : i.stalls s = false) :
    Keeps s.assoc h (i.outcome s.assoc s.frames.length) := by
  cases i with
  | connect observer addr cs ans =>
    have ct := PduAssoc.connect_connected observer addr cs ans s.assoc
    simp only [Input.outcome]
    generalize s.assoc.connect observer addr cs ans = o at ct
    cases ct with
    | pending => exact keeps_of_state (p := .connecting) rfl (by decide) (by decide)
    | _ => exact keeps_of_closed rfl
  | listen observer addr cs ans =>
    have lm := PduAssoc.listen_made observer addr cs ans s.assoc
    simp only [Input.outcome]
    generalize s.assoc.listen observer addr cs ans = o at lm
    cases lm with
    | bound => exact keeps_of_state (p := .listen) rfl (by decide) (by decide)
    | _ => exact keeps_of_closed rfl
  | sendPdu buf ans => exact sendPdu_keeps buf ans s.assoc h
  | closeSession =>
    simp only [Input.outcome, PduAssoc.closeSession]
    split
    · exact keeps_of_closed rfl
    · exact keeps_of_quiet rfl rfl rfl
  | shutdown => exact keeps_of_closed rfl
  | destroy => exact keeps_of_closed rfl
  | socketNotify event ans => exact socketNotify_keeps event ans s h flows
  | unlink child =>
    simp only [Input.outcome, PduAssoc.unlink]
    split <;> exact keeps_of_quiet rfl rfl rfl
  | _ => exact keeps_of_quiet rfl rfl rfl

/-! ## Runs -/

/-- Burying the object changes neither the association nor what callbacks run. -/
theorem bury_outflow {i : Input} {s : Sys} {h : List Call} (out : Outflow s h) :
    Outflow (s.bury i) h := by
  unfold Sys.bury
  split
  · exact ⟨out.asks, nofun⟩
  · exact ⟨out.asks, nofun⟩
  · exact ⟨out.asks, nofun⟩
  · exact out

/-- One outcome taking effect. -/
theorem perform_outflow {s : Sys} {h : List Call} {o : Outcome} (out : Outflow s h)
    (kept : Keeps s.assoc h o) : Outflow (s.perform o).1 (h ++ o.calls) := by
  refine ⟨kept.asks out.asks, fun halive hf => ?_⟩
  have hf' : .connect ∉ o.frame.toList ∧ .connect ∉ s.frames := by
    simpa only [Sys.perform, List.mem_append, not_or] using hf
  refine kept.clear out.asks (out.clear halive hf'.2) fun hc => hf'.1 ?_
  simp only [hc, Option.toList_some, List.mem_singleton]

/-- The code behind every callback but `connectNotify` keeps the invariant. -/
theorem resume_keeps {f : Frame} (hf : f ≠ .connect) (ans : Answers) (depth : Nat) (a : PduAssoc)
    (h : List Call) (there : ans.more = true → 1 < ans.get.res) :
    Keeps a h (a.resume f ans depth) := by
  cases f with
  | recv destroyed =>
    cases destroyed with
    | true => exact keeps_of_quiet rfl rfl rfl
    | false => exact resumeRecv_keeps ans depth a h there
  | connect => exact absurd rfl hf
  | session child =>
    simp only [PduAssoc.resume, PduAssoc.resumeSession]
    split <;> exact keeps_of_quiet rfl rfl rfl
  | tail => exact keeps_of_quiet rfl rfl rfl

/-- The steps of a run that strands nothing: `cs_more` is honest, and no step stalls. -/
def flowing (s : Sys) (i : Input) : Bool := i.moreIsThere && !i.stalls s

/-- **One step** of a run that strands nothing keeps the invariant. -/
theorem step_outflow {s s' : Sys} {h o : List Call} {i : Input} (out : Outflow s h)
    (flows : flowing s i = true) (step : pdu.step s i = some (s', o)) : Outflow s' (h ++ o) := by
  simp only [flowing, Bool.and_eq_true, Bool.not_eq_true'] at flows
  obtain ⟨there, flows⟩ := flows
  cases stepped_of_step step with
  | call _ _ => exact bury_outflow (perform_outflow out (outcome_keeps i s h flows))
  | dead _ _ hdead =>
    exact ⟨fun hw => ⟨(out.asks hw).1, (out.asks hw).2.append_quiet rfl⟩,
      fun halive => absurd (hdead.symm.trans halive) nofun⟩
  | @back ans f fs hf halive =>
    by_cases hc : f = .connect
    · -- behind `connectNotify` the flush clears, whatever the callback left
      subst hc
      have done := flushed_outflow (PduAssoc.flushPdu_flushed ans s.assoc) out.asks
        fun hr hlen => by
          simpa [Input.stalls, Input.opens, Input.answers, halive rfl, hf, hr, hlen] using flows
      exact ⟨done.1, fun _ _ => done.2⟩
    · have popped : Outflow { s with frames := fs } h := ⟨out.asks, fun ha hnc =>
        out.clear ha (hf ▸ List.not_mem_cons_of_ne_of_not_mem (Ne.symm hc) hnc)⟩
      have there' : ans.more = true → 1 < ans.get.res := fun hm => by
        simpa [Input.moreIsThere, hm] using there
      exact perform_outflow popped (resume_keeps hc ans fs.length s.assoc h there')

/-- Both constructors start with the invariant. -/
theorem born_outflow {s : Sys} {h : List Call} (born : Sys.Born s h) : Outflow s h := by
  cases born with
  | new => exact ⟨asks_of_state (by decide), fun _ _ => clear_of_state (by decide)⟩
  | accepted pending fileno hcs =>
    simp only [PduAssoc.accepted]
    split
    · have hw : PduState.ready ≠ .writing := by decide
      exact ⟨asks_of_state hw, fun _ _ _ => rfl⟩
    · have hw : PduState.accepting ≠ .writing := by decide
      have hr : PduState.accepting ≠ .ready := by decide
      exact ⟨asks_of_state hw, fun _ _ => clear_of_state hr⟩

/-- **No stuck output**: in a run whose steps are all `flowing`, whenever no callback is running,
an association that has PDUs to write and is open is in Writing, and the mask last given to
`maskObserver` asks for WRITE. So a later event flushes them, the ones queued while the connection
was still Connecting or Accepting included. -/
theorem output_not_stuck {is : List Input} {s : Sys} {h : List Call}
    (run : (pdu.restrict flowing).Run Sys.Born is s h) (idle : s.frames = [])
    (halive : s.alive = true) (queued : s.assoc.queueOut ≠ [])
    (isOpen : s.assoc.state = .ready ∨ s.assoc.state = .writing) :
    s.assoc.state = .writing ∧ WriteAsked h := by
  have out : Outflow s h := run.invariant_restrict Outflow
    (fun _ _ => born_outflow) fun _ _ _ _ _ inv flows step => step_outflow inv flows step
  rcases isOpen with hr | hw
  · exact absurd (out.clear halive (idle ▸ List.not_mem_nil) hr) queued
  · exact ⟨hw, (out.asks hw).2⟩

/-- A connection that opens, writes a PDU and waits for the rest of it. -/
theorem output_not_stuck_partly : ∃ s h, (pdu.restrict flowing).Run Sys.Born
    [.connect 1 "tcp:host:210" 1 {}, .sendPdu [1] {}, .socketNotify observeWrite {},
      .ret { put := { res := 1 } }] s h ∧
    s.assoc.queueOut ≠ [] ∧ s.assoc.state = .writing ∧ WriteAsked h := by
  have exec : (pdu.restrict flowing).exec {} [.connect 1 "tcp:host:210" 1 {}, .sendPdu [1] {},
    .socketNotify observeWrite {}, .ret { put := { res := 1 } }] = some _ := rfl
  have run := Machine.Run.exec (.start Sys.Born.new) exec
  exact ⟨_, _, run, nofun, output_not_stuck run rfl rfl nofun (.inr rfl)⟩

/-! ## The run that strands output -/

/-- A flush from Ready that takes a whole PDU leaves the rest of the queue where it was. -/
theorem flushPdu_whole {ans : Answers} {a : PduAssoc} (hr : a.state = .ready)
    (hlen : 2 ≤ a.queueOut.length) (whole : ans.putWhole = true) :
    (a.flushPdu ans).assoc.state = .ready ∧ (a.flushPdu ans).assoc.queueOut ≠ [] := by
  have fl := PduAssoc.flushPdu_flushed ans a
  generalize a.flushPdu ans = o at fl
  cases fl with
  | notReady hnr _ => exact absurd hr hnr
  | idle _ hq _ => simp [hq] at hlen
  | idleDead _ hq _ => simp [hq] at hlen
  | failed _ _ hneg => simp [Answers.putWhole, Int.not_le.mpr hneg] at whole
  | partly _ _ hone => simp [Answers.putWhole, hone] at whole
  | drained _ hq => simp [hq] at hlen
  | drainedDead _ hq => simp [hq] at hlen
  | more _ _ hrest => exact ⟨hr, hrest⟩

/-- **The stranding step strands**: it leaves the association in Ready with PDUs to write. -/
theorem stalls_strands {s s' : Sys} {i : Input} {o : List Call} (stalls : i.stalls s = true)
    (step : pdu.step s i = some (s', o)) : s'.assoc.state = .ready ∧ s'.assoc.queueOut ≠ [] := by
  simp only [Input.stalls, Bool.and_eq_true, decide_eq_true_eq] at stalls
  obtain ⟨⟨opens, hlen⟩, whole⟩ := stalls
  cases stepped_of_step step with
  | dead _ _ hdead => simp [Input.opens, hdead] at opens
  | @back ans f fs hf =>
    simp only [Input.opens, hf, List.head?_cons, Bool.and_eq_true, beq_iff_eq,
      Option.some.injEq] at opens
    obtain ⟨⟨_, rfl⟩, hr⟩ := opens
    exact flushPdu_whole hr hlen whole
  | call _ hi =>
    cases i with
    | socketNotify event ans =>
      have done := flushPdu_whole (a := { s.assoc with state := .ready }) rfl hlen
        (show ans.putWhole = true from whole)
      simp only [Input.opens, Bool.and_eq_true, Bool.or_eq_true, Bool.not_eq_true', beq_iff_eq,
        bne_iff_ne] at opens
      obtain ⟨ht, ⟨⟨⟨hs, hx⟩, hres⟩, hmask⟩ | ⟨⟨hs, hres⟩, hobs⟩⟩ := opens
      · simpa [Sys.bury, Sys.perform, Input.outcome, PduAssoc.socketNotify, hs, hx, ht,
          PduAssoc.notifyAccepting, hres, hmask] using done
      · simpa [Sys.bury, Sys.perform, Input.outcome, PduAssoc.socketNotify, hs, ht,
          PduAssoc.notifyConnecting, hres, hobs] using done
    | ret ans => exact absurd rfl (hi ans)
    | _ => cases opens

/-- Two PDUs sent while the connection is still Connecting, and a `cs_put` that takes the first of
them whole. -/
def strandingRun : List Input :=
  [.connect 1 "tcp:host:210" 1 { connect := { res := 1, pending := { wantWrite := true } } },
    .sendPdu [1] {}, .sendPdu [2] {},
    .socketNotify observeWrite {}, .ret { put := { res := 0 } }]

/-- **Output can be stuck**: the run opens the connection, writes the first PDU, and leaves the
second one in the queue in state Ready, with no callback running and `cs_more` never asked. -/
theorem output_stuck : ∃ s h, pdu.Run Sys.Born strandingRun s h ∧
    (∀ i ∈ strandingRun, i.moreIsThere = true) ∧ s.frames = [] ∧ s.alive = true ∧
    s.assoc.queueOut ≠ [] ∧ s.assoc.state = .ready := by
  have run : pdu.exec {} strandingRun = some _ := rfl
  exact ⟨_, _, Machine.Run.exec (.start .new) run, by decide, rfl, rfl, nofun, rfl⟩

end Yazpp
