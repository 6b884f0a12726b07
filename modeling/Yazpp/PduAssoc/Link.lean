import Yazpp.Lib.Duplex
import Yazpp.PduAssoc.Order
import Yazpp.PduAssoc.Receive

/-!
# Two programs and the connection between them

One `PDU_Assoc` at each end of a connection, the application behind each of them, and the network.
An end takes its steps one at a time and in any order with those of the other: the application does
something, `send_PDU` is called with the next PDU it has put out, or the association is called, from
outside or inside a callback. What `recv_PDU` is called with is read by the application at once.
What it does when it is told that its connection was made, failed or timed out is an input like any
other: one that deletes itself then destroys its association behind that call.

Between the ends is what is assumed of COMSTACK. A PDU for which `cs_put` returned 0 is on the
network, in order; `cs_get` reads from the network, as much as it likes (`Wire`). Everything else is
free: how often a write is incomplete, when the sockets are ready, what fails, and who closes first.
-/

set_option autoImplicit false

namespace Yazpp

open Yazpp.Lib

variable {σ τ ι κ ο π : Type}

/-! ## One end -/

/-- An association, the application behind it, and the PDUs that this has still to send. -/
structure End (σ : Type) where
  fed : Fed
  app : σ
  sends : List Buf := []

/-- What one end does next. -/
inductive EndInput (ι : Type)
  | app (i : ι)
  | send (ans : Answers)
  | assoc (i : Input) (new : List Buf)
deriving DecidableEq, Repr

/-- What is seen of one end: what the application reads and does, and the calls of the
association. -/
inductive EndEvent (ι ο : Type)
  | app (entry : (ι ⊕ Buf) × List ο)
  | call (c : Call)

/-- A call on the association that leaves it at its connection: neither `connect` nor `listen`, and
not `send_PDU`, which is the application's. -/
def Input.stays : Input → Bool
  | .connect .. | .listen .. | .sendPdu .. | .setObserver _ => false
  | _ => true

/-- The PDU that `recv_PDU` is called with. -/
def Call.heard? : Call → Option Buf
  | .recvPdu buf _ => some buf
  | _ => none

namespace EndEvent

/-- A call of the association. -/
def call? : EndEvent ι ο → Option Call
  | .call c => some c
  | .app _ => none

/-- A step of the application. -/
def app? : EndEvent ι ο → Option ((ι ⊕ Buf) × List ο)
  | .app entry => some entry
  | .call _ => none

end EndEvent

namespace End

/-- The application `m` reads; `send` are the PDUs among what it puts out. -/
def read (m : Machine σ (ι ⊕ Buf) ο) (send : ο → Option Buf) (is : List (ι ⊕ Buf)) (e : End σ) :
    Option (End σ × List (EndEvent ι ο)) :=
  (m.logged.exec e.app is).map fun next =>
    ({ e with
        app := next.1
        sends := e.sends ++ (next.2.flatMap Prod.snd).filterMap send }, next.2.map .app)

/-- A step of one end. -/
def step (m : Machine σ (ι ⊕ Buf) ο) (send : ο → Option Buf) (e : End σ) (i : EndInput ι) :
    Option (End σ × List (EndEvent ι ο)) :=
  match i with
  | .app i => e.read m send [.inl i]
  | .send ans =>
    match e.sends with
    | [] => none
    | buf :: sends => (Yazpp.fed.step e.fed (.sendPdu buf ans, [])).map fun next =>
        ({ e with fed := next.1, sends := sends }, next.2.map .call)
  | .assoc i new =>
    if i.stays then
      (Yazpp.fed.step e.fed (i, new)).bind fun next =>
        (({ e with fed := next.1 } : End σ).read m send
          ((next.2.filterMap Call.heard?).map .inr)).map fun last =>
            (last.1, next.2.map .call ++ last.2)
    else none

/-- A step, with the COMSTACK `cs` between the end and the network: it returns what is left of what
had come in, and what goes out. COMSTACK documents no result of `cs_put` above 1. -/
def online (m : Machine σ (ι ⊕ Buf) ο) (send : ο → Option Buf) (cs : Comstack) (e : End σ)
    (inbound : List Buf) (i : EndInput ι) :
    Option (End σ × List Buf × List Buf × List (EndEvent ι ο)) :=
  (e.step m send i).bind fun next =>
    let calls := next.2.filterMap EndEvent.call?
    let new := next.1.fed.wire.read.drop e.fed.wire.read.length
    if (∀ p ∈ putsOn cs calls, p.2 ≤ 1) ∧ new <+: inbound then
      some (next.1, inbound.drop new.length, sentOn cs calls, next.2)
    else none

end End

/-! ## Both -/

/-- The two ends, and the PDUs on the network, to the far end and to the near one. -/
structure Link (σ τ : Type) where
  near : End σ
  far : End τ
  up : List Buf := []
  down : List Buf := []

/-- Whose step it is. -/
inductive LinkInput (ι κ : Type)
  | near (i : EndInput ι)
  | far (i : EndInput κ)
deriving DecidableEq, Repr

/-- What is seen of it. -/
inductive LinkEvent (ι κ ο π : Type)
  | near (e : EndEvent ι ο)
  | far (e : EndEvent κ π)

/-- The applications `m` and `n`, joined by the COMSTACKs `cs` and `cs'`. -/
def link (m : Machine σ (ι ⊕ Buf) ο) (n : Machine τ (κ ⊕ Buf) π) (send : ο → Option Buf)
    (reply : π → Option Buf) (cs cs' : Comstack) :
    Machine (Link σ τ) (LinkInput ι κ) (LinkEvent ι κ ο π) where
  step x i :=
    match i with
    | .near i => (x.near.online m send cs x.down i).map fun (e, down, sent, events) =>
        ({ x with near := e, up := x.up ++ sent, down := down }, events.map .near)
    | .far i => (x.far.online n reply cs' x.up i).map fun (e, up, sent, events) =>
        ({ x with far := e, up := up, down := x.down ++ sent }, events.map .far)

/-- An association that has the COMSTACK `cs`, and has neither sent nor received on it. -/
structure Fed.Opened (cs : Comstack) (x : Fed) : Prop where
  reached : ∃ is h, fed.Run Fed.Born is x h
  notNull : cs ≠ 0
  cs : x.sys.assoc.cs = cs
  queueOut : x.sys.assoc.queueOut = []
  observer : x.sys.assoc.observer ≠ 0
  wire : x.wire = {}

/-- One end when the connection is there. -/
structure End.Opened (cs : Comstack) (app : σ → Prop) (e : End σ) : Prop where
  fed : e.fed.Opened cs
  app : app e.app
  sends : e.sends = []

/-- Both ends, and nothing on the network. -/
structure Link.Start (cs cs' : Comstack) (client : σ → Prop) (server : τ → Prop) (x : Link σ τ)
    (h : List (LinkEvent ι κ ο π)) : Prop where
  near : x.near.Opened cs client
  far : x.far.Opened cs' server
  up : x.up = []
  down : x.down = []
  history : h = []

/-- The steps of the applications: those of a client, and of a server that only answers. -/
def LinkEvent.app? : LinkEvent ι Empty ο π → Option (DuplexEvent ι Buf Buf ο π)
  | .near e => e.app?.map .ofClient
  | .far e => e.app?.map .ofServer

/-! ## What a call on the association does -/

/-- A call that neither installs a COMSTACK nor queues a PDU. -/
def Call.onward : Call → Bool
  | .csCreateHost .. | .csAttach _ | .newPduQueue .. => false
  | _ => true

theorem onward_shutdown (a : PduAssoc) : a.shutdown.calls.all Call.onward = true :=
  a.all_shutdown_calls (fun _ => rfl) rfl fun _ => rfl

theorem onward_flushPdu (ans : Answers) (a : PduAssoc) :
    (a.flushPdu ans).calls.all Call.onward = true := by
  have shut := onward_shutdown
  have fl := PduAssoc.flushPdu_flushed ans a
  generalize a.flushPdu ans = o at fl
  cases fl <;> simp [shut, Call.onward]

theorem onward_receive (ans : Answers) (depth : Nat) (a : PduAssoc) :
    (a.receive ans depth).calls.all Call.onward = true := by
  have shut := onward_shutdown
  have rc := PduAssoc.receive_received ans depth a
  generalize a.receive ans depth = o at rc
  cases rc <;> simp [shut, Call.onward]

theorem onward_resume (f : Frame) (ans : Answers) (depth : Nat) (a : PduAssoc) :
    (a.resume f ans depth).calls.all Call.onward = true := by
  cases f with
  | recv destroyed =>
    cases destroyed with
    | true => rfl
    | false =>
      have rs := PduAssoc.resumeRecv_resumed ans depth a
      simp only [PduAssoc.resume]
      generalize a.resumeRecv ans depth = o at rs
      cases rs <;> simp [onward_receive, Call.onward]
  | connect => exact onward_flushPdu ans a
  | session child =>
    simp only [PduAssoc.resume, PduAssoc.resumeSession]
    split <;> rfl
  | tail => rfl

theorem onward_socketNotify (event : Nat) (ans : Answers) (depth : Nat) (a : PduAssoc) :
    (a.socketNotify event ans depth).calls.all Call.onward = true := by
  have shut := onward_shutdown
  have nt := PduAssoc.socketNotify_notified event ans depth a
  generalize a.socketNotify event ans depth = o at nt
  cases nt with
  | listened =>
    have ls := PduAssoc.notifyListen_listened event ans a
    generalize a.notifyListen event ans = o at ls
    cases ls <;> rfl
  | writing => exact onward_flushPdu ans a
  | ready => exact onward_receive ans depth a
  | _ => simp [shut, onward_flushPdu, Call.onward]

theorem onward_outcome {i : Input} (stays : i.stays = true) (depth : Nat) (a : PduAssoc) :
    (i.outcome a depth).calls.all Call.onward = true := by
  have shut := onward_shutdown
  cases i with
  | connect | listen | sendPdu | setObserver => cases stays
  | closeSession =>
    simp only [Input.outcome, PduAssoc.closeSession]
    split <;> simp [shut, Call.onward]
  | shutdown => exact shut a
  | destroy =>
    have strays : a.strays.all Call.onward = true := a.all_strays rfl
    simp only [Input.outcome, PduAssoc.destroy]
    cases a.parent <;> simp [shut, strays, Call.onward]
  | socketNotify event ans => exact onward_socketNotify event ans depth a
  | unlink child =>
    simp only [Input.outcome, PduAssoc.unlink]
    split <;> rfl
  | _ => rfl

/-- A call that leaves the association at its connection makes no other calls. -/
theorem onward_step {s s' : Sys} {i : Input} {o : List Call} (stays : i.stays = true)
    (hstep : pdu.step s i = some (s', o)) : o.all Call.onward = true := by
  cases stepped_of_step hstep with
  | call => exact onward_outcome stays _ _
  | back => exact onward_resume _ _ _ _
  | dead => rfl

/-- `send_PDU` queues its PDU, if there is a COMSTACK, and does nothing of the kind beside it. -/
theorem sendPdu_calls {s s' : Sys} {buf : Buf} {ans : Answers} {o : List Call}
    (hstep : pdu.step s (.sendPdu buf ans) = some (s', o)) :
    ∃ rest, rest.all Call.onward = true ∧ rest.all Call.offWire = true ∧
      o = (if s.assoc.cs = 0 then [] else [.newPduQueue s.assoc.cs buf]) ++ rest := by
  cases stepped_of_step hstep with
  | call =>
    have st := PduAssoc.sendPdu_sent buf ans s.assoc
    simp only [Input.outcome]
    generalize s.assoc.sendPdu buf ans = o at st
    cases st with
    | rejected hcs =>
      rw [if_pos hcs]
      exact ⟨[], rfl, rfl, rfl⟩
    | queued hcs =>
      rw [if_neg hcs]
      exact ⟨[], rfl, rfl, rfl⟩
    | flushed hcs =>
      rw [if_neg hcs]
      exact ⟨_, onward_flushPdu ans _, (offWire_flushPdu ans _).1, rfl⟩

/-- A step of the association is a replay of its events. -/
theorem replay_step {s s' : Sys} {i : Input} {o : List Call} (wf : s.assoc.WF)
    (hstep : pdu.step s i = some (s', o)) :
    Outbox.Replay s.assoc.outbox (outEvents o) s'.assoc.outbox := by
  cases stepped_of_step hstep with
  | call =>
    rw [Sys.bury_assoc]
    exact follows_outcome i wf
  | back => exact follows_resume wf
  | dead => exact .nil _

/-- Onward calls install nothing. -/
theorem installs_onward {calls : List Call} (onward : calls.all Call.onward = true) :
    calls.any Call.installs = false := by
  rw [List.any_eq_false]
  intro c hc
  have hc := List.all_eq_true.mp onward c hc
  cases c with
  | csCreateHost addr cs => cases hc
  | csAttach cs => cases hc
  | _ => nofun

/-- Nothing is heard in calls that the wire does not see. -/
theorem heard_offWire {calls : List Call} (off : calls.all Call.offWire = true) :
    calls.filterMap Call.heard? = [] := by
  apply List.filterMap_eq_nil_iff.mpr
  intro c hc
  have hc := List.all_eq_true.mp off c hc
  cases c with
  | recvPdu buf len => cases hc
  | _ => rfl

/-- The events of onward calls open nothing and accept nothing. -/
theorem outEvents_onward {calls : List Call} (onward : calls.all Call.onward = true)
    (cs : Comstack) :
    Outbox.opens (outEvents calls) = [] ∧ Outbox.accepts cs (outEvents calls) = [] := by
  rw [opens_outEvents, accepts_outEvents]
  constructor
  · apply List.filterMap_eq_nil_iff.mpr
    intro c hc
    have := List.all_eq_true.mp onward c hc
    cases c <;> first | rfl | cases this
  · apply List.filterMap_eq_nil_iff.mpr
    intro c hc
    have := List.all_eq_true.mp onward c hc
    cases c <;> first | rfl | cases this

/-- A wire on which no COMSTACK is installed grows by what is read, and by what `recv_PDU` is called
with. -/
theorem Wire.calls_grow {new : List Buf} {w w' : Wire} {calls : List Call}
    (kept : calls.any Call.installs = false) (hcalls : w.calls new calls = some w') :
    w.read <+: w'.read ∧ w'.heard = w.heard ++ calls.filterMap Call.heard? := by
  induction calls generalizing w with
  | nil =>
    cases hcalls
    exact ⟨List.prefix_refl _, (List.append_nil _).symm⟩
  | cons c calls ih =>
    rw [List.any_cons, Bool.or_eq_false_iff] at kept
    simp only [Wire.calls, List.foldlM_cons, Option.bind_eq_bind, Option.bind_eq_some_iff] at hcalls
    obtain ⟨v, hv, hrest⟩ := hcalls
    obtain ⟨hread, hheard⟩ := ih kept.2 hrest
    have first : w.read <+: v.read ∧ v.heard = w.heard ++ [c].filterMap Call.heard? := by
      cases c with
      | csGet cs res buf =>
        simp only [Wire.call] at hv
        split at hv
        · split at hv <;> cases hv
          exact ⟨List.prefix_refl _, (List.append_nil _).symm⟩
        · split at hv <;> cases hv
          exact ⟨List.prefix_append _ _, (List.append_nil _).symm⟩
      | csMore cs more =>
        simp only [Wire.call] at hv
        split at hv <;> cases hv
        exact ⟨List.prefix_refl _, (List.append_nil _).symm⟩
      | recvPdu buf len =>
        cases hv
        exact ⟨List.prefix_refl _, rfl⟩
      | csCreateHost addr cs =>
        have hcs : cs = 0 := by simpa [Call.installs] using kept.1
        simp only [Wire.call, hcs, if_true] at hv
        cases hv
        exact ⟨List.prefix_refl _, (List.append_nil _).symm⟩
      | csAttach cs => cases kept.1
      | _ =>
        cases hv
        exact ⟨List.prefix_refl _, (List.append_nil _).symm⟩
    refine ⟨first.1.trans hread, ?_⟩
    rw [hheard, first.2, List.append_assoc, ← List.filterMap_append]
    rfl

end Yazpp
