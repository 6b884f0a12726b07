import Yazpp.ZAssoc.Encode
import Yazpp.ZServer.Defined
import Yazpp.ZServer.Session

/-!
# One answer for each request

While the connection stays up a session is in one of six phases (`Doing`): nothing is running, a
timeout is being handled, a PDU is being answered, or the server was deleted and the association is
still there, or is gone but for the receive loop, or is gone. In each of them the PDUs heard are the
GDUs that the server was given, and the responses queued or on the agenda are one for each request
taken, in the order of the requests (`Ledger`). The first GDU that nobody takes leads into the last
three phases, in which nothing is heard any more.
-/

set_option autoImplicit false

namespace Yazpp

open Yazpp.Lib

variable {σ τ : Type}

/-! ## An association that stays up -/

/-- An open connection of a session. -/
structure PduAssoc.Up (a : PduAssoc) : Prop where
  connected : a.cs ≠ 0
  undead : a.sessionIsDead = false
  observed : a.observer ≠ 0
  state : a.state = .accepting ∨ a.state = .ready ∨ a.state = .writing

/-- A call that tells the observer nothing, queues nothing and installs no COMSTACK. -/
def Call.plain : Call → Bool
  | .recvPdu .. | .connectNotify | .failNotify | .timeoutNotify | .sessionNotify _ => false
  | .newPduQueue .. | .csCreateHost .. | .csAttach .. => false
  | _ => true

/-- What a step of an open connection leaves that does not fail: it tells the observer nothing, or
of one PDU. `depth` is where the receive loop stands. -/
inductive Proceeds (depth : Nat) (a : PduAssoc) (o : Outcome) : Prop
  | quiet (frame : o.frame = none) (plain : o.calls.all Call.plain = true) (up : o.assoc.Up)
      (destroyed : o.assoc.destroyed = a.destroyed)
  | heard (calls : List Call) (buf : Buf) (len : Int) (frame : o.frame = some (.recv false))
      (told : o.calls = calls ++ [.recvPdu buf len]) (plain : calls.all Call.plain = true)
      (up : o.assoc.Up) (destroyed : o.assoc.destroyed = .loop depth)

/-- A step with plain calls before it. -/
theorem Proceeds.after {depth : Nat} {a b : PduAssoc} {o : Outcome} (proceeds : Proceeds depth b o)
    (same : b.destroyed = a.destroyed) {first : List Call} (plain : first.all Call.plain = true) :
    Proceeds depth a (o.after first) := by
  cases proceeds with
  | quiet hframe hplain hup hdestroyed =>
    refine .quiet hframe ?_ hup (hdestroyed.trans same)
    rw [Outcome.after_calls, List.all_append, plain, hplain]
    rfl
  | heard calls buf len hframe htold hplain hup hdestroyed =>
    refine .heard (first ++ calls) buf len hframe ?_ ?_ hup hdestroyed
    · rw [Outcome.after_calls, htold, List.append_assoc]
    · rw [List.all_append, plain, hplain]
      rfl

/-- It is not connecting, and it is no listener. -/
theorem PduAssoc.Up.state_ne {a : PduAssoc} (up : a.Up) :
    a.state ≠ .connecting ∧ a.state ≠ .listen := by
  rcases up.state with h | h | h
  · rw [h]
    exact ⟨nofun, nofun⟩
  · rw [h]
    exact ⟨nofun, nofun⟩
  · rw [h]
    exact ⟨nofun, nofun⟩

namespace PduAssoc

/-- A failure is told. -/
theorem fails_fail {calls : List Call} (o : Outcome)
    (stays : .failNotify ∉ (o.fail.after calls).calls) : False :=
  stays (List.mem_append_right _ (List.mem_append_right _ (List.mem_singleton_self _)))

/-- `flush_PDU` of an open connection that does not fail only writes. -/
theorem flushPdu_quiet {ans : Answers} {a : PduAssoc} (up : a.Up)
    (stays : .failNotify ∉ (a.flushPdu ans).calls) :
    (a.flushPdu ans).frame = none ∧ (a.flushPdu ans).calls.all Call.plain = true ∧
      (a.flushPdu ans).assoc.Up ∧ (a.flushPdu ans).assoc.destroyed = a.destroyed := by
  have fl := flushPdu_flushed ans a
  generalize a.flushPdu ans = o at fl stays
  cases fl with
  | notReady => exact ⟨rfl, rfl, up, rfl⟩
  | idle => exact ⟨rfl, rfl, ⟨up.connected, up.undead, up.observed, .inr (.inl rfl)⟩, rfl⟩
  | idleDead => exact (fails_fail _ stays).elim
  | failed => exact (fails_fail _ stays).elim
  | partly => exact ⟨rfl, rfl, ⟨up.connected, up.undead, up.observed, .inr (.inr rfl)⟩, rfl⟩
  | drained => exact ⟨rfl, rfl, ⟨up.connected, up.undead, up.observed, .inr (.inl rfl)⟩, rfl⟩
  | drainedDead _ _ _ _ hdead => exact absurd (up.undead.symm.trans hdead) nofun
  | more => exact ⟨rfl, rfl, ⟨up.connected, up.undead, up.observed, up.state⟩, rfl⟩

/-- The receive loop waits, or hears a PDU. -/
theorem receive_proceeds {ans : Answers} {depth : Nat} {a : PduAssoc} (up : a.Up)
    (stays : .failNotify ∉ (a.receive ans depth).calls) :
    Proceeds depth a (a.receive ans depth) := by
  have rc := receive_received ans depth a
  generalize a.receive ans depth = o at rc stays
  cases rc with
  | waits => exact .quiet rfl rfl up rfl
  | closed => exact (fails_fail _ stays).elim
  | closedUnobserved _ hobs => exact absurd hobs up.observed
  | pdu =>
    exact .heard [.csGet a.cs ans.get.res ans.getBuf] _ _ rfl rfl rfl
      ⟨up.connected, up.undead, up.observed, up.state⟩ rfl
  | pduUnobserved _ hobs => exact absurd hobs up.observed

/-- Behind `recv_PDU` the loop goes on, and no longer points to its local. -/
theorem resumeRecv_proceeds {ans : Answers} {depth : Nat} {a : PduAssoc} (up : a.Up)
    (stays : .failNotify ∉ (a.resumeRecv ans depth).calls) :
    Proceeds depth { a with destroyed := .null } (a.resumeRecv ans depth) := by
  have rs := resumeRecv_resumed ans depth a
  generalize a.resumeRecv ans depth = o at rs stays
  have cleared : ({ a with destroyed := .null } : PduAssoc).Up :=
    ⟨up.connected, up.undead, up.observed, up.state⟩
  cases rs with
  | gone hcs => exact absurd hcs up.connected
  | more =>
    have proceeds := receive_proceeds cleared fun hfail =>
      stays (List.mem_append_right _ hfail)
    exact proceeds.after rfl rfl
  | ready => exact .quiet rfl rfl cleared rfl
  | notReady => exact .quiet rfl rfl cleared rfl

/-- `flush_PDU`, as a step. -/
theorem flushPdu_proceeds {ans : Answers} {depth : Nat} {a : PduAssoc} (up : a.Up)
    (stays : .failNotify ∉ (a.flushPdu ans).calls) : Proceeds depth a (a.flushPdu ans) := by
  obtain ⟨hframe, hplain, hup, hdestroyed⟩ := flushPdu_quiet up stays
  exact .quiet hframe hplain hup hdestroyed

/-- **A socket event** on an open connection that does not fail reads, or is a timeout. -/
theorem socketNotify_proceeds {event : Nat} {ans : Answers} {depth : Nat} {a : PduAssoc} (up : a.Up)
    (stays : .failNotify ∉ (a.socketNotify event ans depth).calls) :
    Proceeds depth a (a.socketNotify event ans depth) ∨
      a.socketNotify event ans depth =
        { assoc := a, calls := [.timeoutNotify], frame := some .tail } := by
  have nt := socketNotify_notified event ans depth a
  generalize a.socketNotify event ans depth = o at nt stays
  have ready : ({ a with state := .ready } : PduAssoc).Up :=
    ⟨up.connected, up.undead, up.observed, .inr (.inl rfl)⟩
  cases nt with
  | except =>
    exact (stays (List.mem_append_right _ (List.mem_singleton_self _))).elim
  | timeout => exact .inr rfl
  | acceptFailed => exact (fails_fail _ stays).elim
  | acceptMore => exact .inl (.quiet rfl rfl up rfl)
  | acceptDone =>
    have flushed : Proceeds depth { a with state := .ready } _ :=
      flushPdu_proceeds ready fun hfail => stays (List.mem_append_right _ hfail)
    exact .inl (flushed.after (a := a) rfl (List.all_eq_true.mpr
      (List.forall_mem_singleton.mpr rfl)))
  | connectMore hs => exact absurd hs up.state_ne.1
  | connectDone hs => exact absurd hs up.state_ne.1
  | connectUnobserved hs => exact absurd hs up.state_ne.1
  | listened hs => exact absurd hs up.state_ne.2
  | writing => exact .inl (flushPdu_proceeds up stays)
  | ready => exact .inl (receive_proceeds up stays)
  | nothing => exact .inl (.quiet rfl rfl up rfl)
  | closed =>
    exact (stays (List.mem_append_right _ (List.mem_singleton_self _))).elim

/-- **A response** is put into the queue, and nobody is told. -/
theorem sendPdu_queues {buf : Buf} {ans : Answers} {a : PduAssoc} (up : a.Up)
    (stays : .failNotify ∉ (a.sendPdu buf ans).calls) :
    ∃ more, (a.sendPdu buf ans).calls = .newPduQueue a.cs buf :: more ∧
      more.all Call.plain = true ∧ (a.sendPdu buf ans).frame = none ∧
      (a.sendPdu buf ans).assoc.Up ∧ (a.sendPdu buf ans).assoc.destroyed = a.destroyed := by
  have st := sendPdu_sent buf ans a
  generalize a.sendPdu buf ans = o at st stays
  cases st with
  | rejected hcs => exact absurd hcs up.connected
  | queued =>
    exact ⟨[], rfl, rfl, rfl, ⟨up.connected, up.undead, up.observed, up.state⟩, rfl⟩
  | flushed =>
    have queued : ({ a with queueOut := [buf] } : PduAssoc).Up :=
      ⟨up.connected, up.undead, up.observed, up.state⟩
    obtain ⟨hframe, hplain, hup, hdestroyed⟩ :=
      flushPdu_quiet queued fun hfail => stays (List.mem_append_right _ hfail)
    exact ⟨_, rfl, hplain, hframe, hup, hdestroyed⟩

/-- `destroy` tells the observer nothing. -/
theorem destroy_plain (a : PduAssoc) : a.destroy.calls.all Call.plain = true := by
  have shut := a.all_shutdown_calls (p := Call.plain) (fun _ => rfl) rfl fun _ => rfl
  have strays : a.strays.all Call.plain = true := a.all_strays rfl
  simp only [destroy, List.all_append, shut, strays, Bool.true_and, Bool.and_eq_true, List.all_map]
  refine ⟨?_, List.all_eq_true.mpr fun _ _ => rfl⟩
  cases a.parent <;> rfl

end PduAssoc

/-! ## What the observer, the wire and the books see of plain calls -/

theorem notify_plain (p : ServerParams σ τ) (decode : Buf → Option Gdu) (deletes : Bool)
    (x : Session σ τ) {calls : List Call} (plain : calls.all Call.plain = true) :
    x.notify p decode deletes calls = (x, []) := by
  unfold Session.notify
  cases hlast : calls.getLast? with
  | none => rfl
  | some c =>
    have hc : c.plain = true := List.all_eq_true.mp plain c (List.mem_of_getLast? hlast)
    cases c <;> first | rfl | cases hc

theorem notify_queued (p : ServerParams σ τ) (decode : Buf → Option Gdu) (deletes : Bool)
    (x : Session σ τ) (cs : Comstack) (buf : Buf) {more : List Call}
    (plain : more.all Call.plain = true) :
    x.notify p decode deletes (.newPduQueue cs buf :: more) = (x, []) := by
  unfold Session.notify
  rw [List.getLast?_cons]
  cases hlast : more.getLast? with
  | none => rfl
  | some c =>
    have hc : c.plain = true := List.all_eq_true.mp plain c (List.mem_of_getLast? hlast)
    cases c <;> first | rfl | cases hc

theorem wire_plain {new : List Buf} {w w' : Wire} {calls : List Call}
    (plain : calls.all Call.plain = true) (step : w.calls new calls = some w') :
    w'.heard = w.heard := by
  induction calls generalizing w with
  | nil =>
    cases step
    rfl
  | cons c calls ih =>
    rw [List.all_cons, Bool.and_eq_true] at plain
    rw [← List.singleton_append, wire_append] at step
    obtain ⟨w₁, first, rest⟩ := Option.bind_eq_some_iff.mp step
    rw [ih plain.2 rest]
    simp only [Wire.calls, List.foldlM_cons, List.foldlM_nil, Option.bind_eq_bind] at first
    cases c with
    | csGet cs res buf =>
      simp only [Wire.call] at first
      split at first
      · split at first
        · cases first
          rfl
        · cases first
      · split at first
        · cases first
          rfl
        · cases first
    | csMore cs more =>
      simp only [Wire.call] at first
      split at first
      · cases first
        rfl
      · cases first
    | recvPdu | csCreateHost | csAttach => cases plain.1
    | _ =>
      cases first
      rfl

theorem wire_heard {new : List Buf} {w w' : Wire} {calls : List Call} {buf : Buf} {len : Int}
    (plain : calls.all Call.plain = true)
    (step : w.calls new (calls ++ [.recvPdu buf len]) = some w') :
    w'.heard = w.heard ++ [buf] := by
  rw [wire_append] at step
  obtain ⟨w₁, first, last⟩ := Option.bind_eq_some_iff.mp step
  rw [← wire_plain plain first]
  cases last
  rfl

theorem received_append (h k : List SessionCall) :
    received (h ++ k) = received h ++ received k := List.filterMap_append

theorem queued_append (h k : List SessionCall) : queued (h ++ k) = queued h ++ queued k :=
  List.filterMap_append

theorem received_assoc (calls : List Call) : received (calls.map .assoc) = [] := by
  apply List.filterMap_eq_nil_iff.mpr
  intro c hc
  obtain ⟨call, -, rfl⟩ := List.mem_map.mp hc
  rfl

theorem queued_plain {calls : List Call} (plain : calls.all Call.plain = true) :
    queued (calls.map .assoc) = [] := by
  apply List.filterMap_eq_nil_iff.mpr
  intro c hc
  obtain ⟨call, hcall, rfl⟩ := List.mem_map.mp hc
  have hplain := List.all_eq_true.mp plain call hcall
  cases call <;> first | rfl | cases hplain

/-! ## What a GDU leaves to do -/

/-- An encoding that succeeds leaves one PDU to send. -/
theorem sendZPdu_tasks {p : ServerParams σ τ} (law : p.odr.Lawful) {s : ZServer σ τ} {apdu : Apdu}
    (clean : p.odr.Clean s.assoc.odrOut) (encodes : p.odr.Encodable (.z3950 apdu)) :
    (s.sendZPdu p apdu).2.filterMap ServerCall.task? =
        [.sendPdu (p.odr.octets (.z3950 apdu))] ∧
      p.odr.Clean (s.sendZPdu p apdu).1.assoc.odrOut := by
  obtain ⟨hbuf, hret, hclean⟩ := s.assoc.encodeGdu_clean law clean encodes
  have long : 0 < (s.assoc.encodeGdu p.odr (.z3950 apdu)).ret := by
    rw [hret]
    exact Int.natCast_pos.mpr (List.length_pos_iff.mpr (law.nonempty _ encodes))
  have quiet : ((s.assoc.encodeGdu p.odr (.z3950 apdu)).calls.map ServerCall.assoc).filterMap
      ServerCall.task? = [] := by
    apply List.filterMap_eq_nil_iff.mpr
    intro c hc
    obtain ⟨call, hcall, rfl⟩ := List.mem_map.mp hc
    have hquiet := s.assoc.encodeGdu_quiet p.odr _ call hcall
    cases call <;> first | rfl | cases hquiet
  have calls : (s.assoc.sendGdu p.odr (.z3950 apdu) 0).calls =
      (s.assoc.encodeGdu p.odr (.z3950 apdu)).calls ++
        [.sendPdu (p.odr.octets (.z3950 apdu))] := by
    simp only [ZAssoc.sendGdu, hbuf, long, if_true]
  constructor
  · show ((s.assoc.sendGdu p.odr (.z3950 apdu) 0).calls.map ServerCall.assoc).filterMap
      ServerCall.task? = _
    rw [calls, List.map_append, List.filterMap_append, quiet]
    rfl
  · show p.odr.Clean (s.assoc.sendGdu p.odr (.z3950 apdu) 0).assoc.odrOut
    rw [ZAssoc.sendGdu_assoc]
    exact hclean

/-- The facilities leave nothing to do. -/
theorem tasks_facility {calls : List ServerCall}
    (facilities : ∀ c ∈ calls, ∃ k call, c = .facility k call) :
    calls.filterMap ServerCall.task? = [] ∧ sent calls = [] := by
  constructor
  · apply List.filterMap_eq_nil_iff.mpr
    intro c hc
    obtain ⟨k, call, rfl⟩ := facilities c hc
    rfl
  · apply List.filterMap_eq_nil_iff.mpr
    intro c hc
    obtain ⟨k, call, rfl⟩ := facilities c hc
    rfl

/-! ## Facilities of the same kinds -/

/-- The facilities take the same requests, place by place. -/
def SameKinds (fs gs : List Facility) : Prop :=
  ∀ request, fs.map (Facility.accepts request) = gs.map (Facility.accepts request)

theorem SameKinds.firstTaker {fs gs : List Facility} (same : SameKinds fs gs) {request : Apdu}
    {k : Nat} (taker : FirstTaker fs request k) : FirstTaker gs request k := by
  obtain ⟨⟨f, hf, haccepts⟩, first⟩ := taker
  constructor
  · have there := congrArg (fun kinds => kinds[k]?) (same request)
    simp only [List.getElem?_map, hf, Option.map_some, haccepts] at there
    obtain ⟨g, hg, hgaccepts⟩ := Option.map_eq_some_iff.mp there.symm
    exact ⟨g, hg, hgaccepts⟩
  · intro g hg
    have before : g.accepts request ∈ (fs.take k).map (Facility.accepts request) := by
      rw [List.map_take, same request, ← List.map_take]
      exact List.mem_map_of_mem hg
    obtain ⟨f', hf', heq⟩ := List.mem_map.mp before
    rw [← heq]
    exact first f' hf'

theorem SameKinds.taken {fs gs : List Facility} (same : SameKinds fs gs) {request : Apdu}
    {calls : List ServerCall} (taken : Taken fs request calls) : Taken gs request calls := by
  rcases taken with init | ⟨k, by_⟩
  · exact .inl init
  · exact .inr ⟨k, same.firstTaker by_.taker, by_.called, by_.only⟩

theorem SameKinds.untaken {fs gs : List Facility} (same : SameKinds fs gs) {gdu : Gdu}
    (untaken : Untaken fs gdu) : Untaken gs gdu := by
  cases gdu with
  | http octets => trivial
  | z3950 request =>
    refine ⟨untaken.1, ?_⟩
    intro g hg
    have there : g.accepts request ∈ fs.map (Facility.accepts request) := by
      rw [same request]
      exact List.mem_map_of_mem hg
    obtain ⟨f, hf, heq⟩ := List.mem_map.mp there
    rw [← heq]
    exact untaken.2 f hf

/-! ## The books of a session -/

/-- A GDU that was a request, taken, and answered by one response. -/
def AnsweredOnce (fs : List Facility) (e : Gdu × List ServerCall) : Prop :=
  ∃ request response, e.1 = .z3950 request ∧ sent e.2 = [response] ∧ request.Answers response ∧
    Taken fs request e.2

/-- A GDU that nobody took: the server was deleted, and sent nothing. -/
structure TurnedAway (fs : List Facility) (gdu : Gdu) (calls : List ServerCall) : Prop where
  untaken : Untaken fs gdu
  silent : sent calls = []
  deleted : .deleteThis ∈ calls

/-- What a session has been given, and what it has answered: `taken` and, once the server is
deleted, the GDU in `last` that nobody took. -/
structure Ledger (p : ServerParams σ τ) (decode : Buf → Option Gdu) (fs : List Facility)
    (x : Session σ τ) (h : List SessionCall) (taken last : List (Gdu × List ServerCall)) :
    Prop where
  received : received h = taken ++ last
  heard : x.fed.wire.heard.map decode = (taken ++ last).map fun e => some e.1
  each : ∀ e ∈ taken, AnsweredOnce fs e
  queued : queued h ++ x.pending =
    (taken.flatMap fun e => sent e.2).map fun response => p.odr.octets (.z3950 response)
  last : if x.server.alive then last = []
    else ∃ gdu calls, last = [(gdu, calls)] ∧ TurnedAway fs gdu calls
  clean : p.odr.Clean x.server.assoc.odrOut
  kinds : SameKinds x.server.facilities fs

/-- What a session that stays up is doing. -/
inductive Doing (x : Session σ τ) : Prop
  | idle (alive : x.fed.sys.alive = true) (serves : x.server.alive = true) (up : x.fed.sys.assoc.Up)
      (frames : x.fed.sys.frames = []) (agenda : x.agenda = [])
  | timedOut (alive : x.fed.sys.alive = true) (serves : x.server.alive = true)
      (up : x.fed.sys.assoc.Up) (frames : x.fed.sys.frames = [.tail]) (agenda : x.agenda = [.ret])
  | answering (bufs : List Buf) (alive : x.fed.sys.alive = true) (serves : x.server.alive = true)
      (up : x.fed.sys.assoc.Up) (destroyed : x.fed.sys.assoc.destroyed = .loop 0)
      (frames : x.fed.sys.frames = [.recv false]) (agenda : x.agenda = bufs.map .sendPdu ++ [.ret])
  | dying (alive : x.fed.sys.alive = true) (deleted : x.server.alive = false)
      (destroyed : x.fed.sys.assoc.destroyed = .loop 0)
      (frames : x.fed.sys.frames = [.recv false]) (agenda : x.agenda = [.destroy, .ret])
  | returning (gone : x.fed.sys.alive = false) (deleted : x.server.alive = false)
      (frames : x.fed.sys.frames = [.recv true]) (agenda : x.agenda = [.ret])
  | gone (gone : x.fed.sys.alive = false) (deleted : x.server.alive = false)
      (frames : x.fed.sys.frames = []) (agenda : x.agenda = [])

/-- Every response that was made encodes. -/
def Encodes (p : ServerParams σ τ) (h : List SessionCall) : Prop :=
  ∀ e ∈ received h, ∀ response ∈ sent e.2, p.odr.Encodable (.z3950 response)

/-- The invariant of a session that stays up. -/
structure Kept (p : ServerParams σ τ) (decode : Buf → Option Gdu) (fs : List Facility)
    (x : Session σ τ) (h : List SessionCall) : Prop where
  fed : x.fed.Inv
  doing : Doing x
  ledger : ∃ taken last, Ledger p decode fs x h taken last

/-- A step of a session is one of the association, and what the observer makes of it. -/
theorem session_step {p : ServerParams σ τ} {decode : Buf → Option Gdu} {x x' : Session σ τ}
    {i : SessionInput} {o : List SessionCall}
    (step : (session p decode).step x i = some (x', o)) :
    ∃ f calls, fed.step x.fed (x.next i, i.read) = some (f, calls) ∧
      (({ x with fed := f, agenda := x.agenda.tail } : Session σ τ).notify p decode i.deletes
        calls).1 = x' ∧
      o = calls.map .assoc ++ (({ x with fed := f, agenda := x.agenda.tail } : Session σ τ).notify p
        decode i.deletes calls).2 := by
  simp only [session] at step
  split at step
  · cases step
  · next f calls hfed =>
    cases step
    exact ⟨f, calls, hfed, rfl, rfl⟩

/-- The ledger behind calls that it does not see. -/
theorem Ledger.quiet {p : ServerParams σ τ} {decode : Buf → Option Gdu} {fs : List Facility}
    {x : Session σ τ} {h : List SessionCall} {taken last : List (Gdu × List ServerCall)}
    (ledger : Ledger p decode fs x h taken last) (x' : Session σ τ) (server : x'.server = x.server)
    {calls : List Call} (quiet : Yazpp.queued (calls.map .assoc) = [])
    (heard : x'.fed.wire.heard = x.fed.wire.heard) (pending : x'.pending = x.pending) :
    Ledger p decode fs x' (h ++ (calls.map .assoc ++ [])) taken last where
  received := by
    rw [List.append_nil, received_append, received_assoc, List.append_nil]
    exact ledger.received
  heard := by
    rw [heard]
    exact ledger.heard
  each := ledger.each
  queued := by
    rw [List.append_nil, queued_append, quiet, List.append_nil, pending]
    exact ledger.queued
  last := by
    rw [server]
    exact ledger.last
  clean := by
    rw [server]
    exact ledger.clean
  kinds := by
    rw [server]
    exact ledger.kinds

/-! ## The steps -/

/-- **A GDU is handled**: it is taken, and its response is to be sent, or the server is deleted. -/
theorem kept_recvGdu {p : ServerParams σ τ} (law : p.odr.Lawful) {decode : Buf → Option Gdu}
    {fs : List Facility} {x : Session σ τ} {h : List SessionCall}
    {taken last : List (Gdu × List ServerCall)} (ledger : Ledger p decode fs x h taken last)
    (serves : x.server.alive = true) (pending : x.pending = []) (after : Session σ τ)
    {calls : List Call} {buf : Buf} {gdu : Gdu} (quiet : queued (calls.map .assoc) = [])
    (decoded : decode buf = some gdu)
    (heard : after.fed.wire.heard = x.fed.wire.heard ++ [buf]) (inv : after.fed.Inv)
    (alive : after.fed.sys.alive = true) (up : after.fed.sys.assoc.Up)
    (destroyed : after.fed.sys.assoc.destroyed = .loop 0)
    (frames : after.fed.sys.frames = [.recv false])
    (encodes : Encodes p (calls.map .assoc ++
      [.recvGdu gdu (x.server.recvGdu p gdu).2])) :
    Kept p decode fs
      { after with
        server := (x.server.recvGdu p gdu).1
        agenda := (x.server.recvGdu p gdu).2.filterMap ServerCall.task? ++ [.ret] }
      (h ++ (calls.map .assoc ++
        [.recvGdu gdu (x.server.recvGdu p gdu).2])) := by
  have alone : last = [] := by
    have := ledger.last
    rwa [serves, if_pos rfl] at this
  subst alone
  have received' : received (h ++ (calls.map .assoc ++
      [.recvGdu gdu (x.server.recvGdu p gdu).2])) =
        taken ++ [(gdu, (x.server.recvGdu p gdu).2)] := by
    rw [received_append, received_append, received_assoc, ledger.received, List.append_nil]
    rfl
  have heard' : after.fed.wire.heard.map decode =
      (taken ++ [(gdu, (x.server.recvGdu p gdu).2)]).map fun e => some e.1 := by
    have before := ledger.heard
    rw [List.append_nil] at before
    rw [heard, List.map_append, List.map_append, before, List.map_singleton, decoded]
    rfl
  have queued' : queued (h ++ (calls.map .assoc ++
      [.recvGdu gdu (x.server.recvGdu p gdu).2])) =
        (taken.flatMap fun e => sent e.2).map fun response => p.odr.octets (.z3950 response) := by
    have before := ledger.queued
    rw [pending, List.append_nil] at before
    rw [queued_append, before, queued_append, quiet]
    exact List.append_nil _
  have kinds : SameKinds (x.server.recvGdu p gdu).1.facilities fs := fun request =>
    (accepts_recvGdu p x.server gdu request).trans (ledger.kinds request)
  rcases taken_or_untaken x.server.facilities gdu with ⟨request, rfl, htaken⟩ | untaken
  · obtain ⟨response, replied⟩ := recvGdu_taken p x.server htaken
    obtain ⟨mid, made, hmid, facilities, hassoc, hcalls⟩ := replied.sends
    obtain ⟨noTask, noSent⟩ := tasks_facility facilities
    have sends : sent (x.server.recvGdu p (.z3950 request)).2 = [response] := by
      rw [hcalls, sent_append, noSent, ZServer.sent_sendZPdu]
      rfl
    have encodable : p.odr.Encodable (.z3950 response) := by
      refine encodes (.z3950 request, (x.server.recvGdu p (.z3950 request)).2) ?_ response ?_
      · rw [received_append, received_assoc]
        exact List.mem_singleton_self _
      · rw [sends]
        exact List.mem_singleton_self _
    obtain ⟨tasks, clean⟩ := sendZPdu_tasks law (hmid ▸ ledger.clean) encodable
    have toSend : (x.server.recvGdu p (.z3950 request)).2.filterMap ServerCall.task? =
        [.sendPdu (p.odr.octets (.z3950 response))] := by
      rw [hcalls, List.filterMap_append, noTask, tasks]
      rfl
    refine ⟨inv, .answering [p.odr.octets (.z3950 response)] alive (replied.alive.trans serves) up
      destroyed frames (by rw [toSend]; rfl),
      taken ++ [(.z3950 request, (x.server.recvGdu p (.z3950 request)).2)], [], ?_⟩
    refine ⟨?_, ?_, ?_, ?_, ?_, ?_, kinds⟩
    · rw [received', List.append_nil]
    · rw [List.append_nil]
      exact heard'
    · rw [List.forall_mem_append, List.forall_mem_singleton]
      exact ⟨ledger.each, request, response, rfl, sends, replied.answers,
        ledger.kinds.taken replied.taken⟩
    · rw [queued', List.flatMap_append, List.map_append, List.flatMap_singleton, sends]
      simp only [Session.pending, toSend]
      rfl
    · rw [replied.alive.trans serves, if_pos rfl]
    · rw [hassoc]
      exact clean
  · obtain ⟨deleted, hassoc, hcalls⟩ := recvGdu_untaken p x.server untaken
    have noMore : (x.server.recvGdu p gdu).2.filterMap ServerCall.task? = [.destroy] ∧
        sent (x.server.recvGdu p gdu).2 = [] ∧ .deleteThis ∈ (x.server.recvGdu p gdu).2 := by
      rcases hcalls with hcalls | ⟨which, hcalls⟩
      · rw [hcalls]
        exact ⟨rfl, rfl, List.mem_singleton_self _⟩
      · rw [hcalls]
        exact ⟨rfl, rfl, List.mem_cons_of_mem _ (List.mem_singleton_self _)⟩
    refine ⟨inv, .dying alive deleted destroyed frames (by rw [noMore.1]; rfl), taken,
      [(gdu, (x.server.recvGdu p gdu).2)], received', heard', ledger.each, ?_, ?_, ?_, kinds⟩
    · rw [queued']
      simp only [Session.pending, noMore.1]
      exact List.append_nil _
    · rw [deleted, if_neg Bool.false_ne_true]
      exact ⟨gdu, _, rfl, ledger.kinds.untaken untaken, noMore.2.1, noMore.2.2⟩
    · rw [hassoc]
      exact ledger.clean

theorem StaysUp.left {h k : List SessionCall} (up : StaysUp (h ++ k)) : StaysUp h :=
  fun c hc => up c (List.mem_append_left _ hc)

theorem StaysUp.right {h k : List SessionCall} (up : StaysUp (h ++ k)) : StaysUp k :=
  fun c hc => up c (List.mem_append_right _ hc)

theorem Encodes.left {p : ServerParams σ τ} {h k : List SessionCall}
    (encodes : Encodes p (h ++ k)) : Encodes p h := fun e he =>
  encodes e (by rw [received_append]; exact List.mem_append_left _ he)

theorem Encodes.right {p : ServerParams σ τ} {h k : List SessionCall}
    (encodes : Encodes p (h ++ k)) : Encodes p k := fun e he =>
  encodes e (by rw [received_append]; exact List.mem_append_right _ he)

/-- The association told nobody of a failure. -/
theorem StaysUp.calls {calls : List Call} {more : List SessionCall}
    (up : StaysUp (calls.map .assoc ++ more)) : .failNotify ∉ calls := fun hfail =>
  Bool.noConfusion (up (.assoc .failNotify) (List.mem_append_left _ (List.mem_map_of_mem hfail)))

/-- **A step that reads**: an event, or the return into the receive loop, with nothing else to
do. -/
theorem kept_proceeds {p : ServerParams σ τ} (law : p.odr.Lawful) {decode : Buf → Option Gdu}
    {fs : List Facility} {x : Session σ τ} {f : Fed} {h : List SessionCall} {deletes : Bool}
    {new : List Buf} {taken last : List (Gdu × List ServerCall)}
    (ledger : Ledger p decode fs x h taken last) (serves : x.server.alive = true)
    (pending : x.pending = []) {b : PduAssoc} {o : Outcome} (proceeds : Proceeds 0 b o)
    (inv : f.Inv) (alive : f.sys.alive = true) (assoc : f.sys.assoc = o.assoc)
    (frames : f.sys.frames = o.frame.toList) (wire : x.fed.wire.calls new o.calls = some f.wire)
    (up : StaysUp (o.calls.map .assoc ++ (({ x with fed := f, agenda := [] } : Session σ τ).notify p
      decode deletes o.calls).2))
    (encodes : Encodes p (o.calls.map .assoc ++
      (({ x with fed := f, agenda := [] } : Session σ τ).notify p decode deletes o.calls).2)) :
    Kept p decode fs
      (({ x with fed := f, agenda := [] } : Session σ τ).notify p decode deletes o.calls).1
      (h ++ (o.calls.map .assoc ++
        (({ x with fed := f, agenda := [] } : Session σ τ).notify p decode deletes
          o.calls).2)) := by
  cases proceeds with
  | quiet hframe plain hup _ =>
    rw [notify_plain p decode deletes _ plain]
    refine ⟨inv, .idle alive serves (assoc ▸ hup) (by rw [frames, hframe]; rfl) rfl, taken, last,
      ?_⟩
    exact ledger.quiet { x with fed := f, agenda := [] } rfl (queued_plain plain)
      (wire_plain plain wire) pending.symm
  | heard calls buf len hframe told plain hup hdestroyed =>
    rw [told] at wire up encodes ⊢
    have notified : ({ x with fed := f, agenda := [] } : Session σ τ).notify p decode deletes
        (calls ++ [.recvPdu buf len]) =
          ({ x with fed := f, agenda := [] } : Session σ τ).recvPdu p decode deletes buf := by
      unfold Session.notify
      rw [List.getLast?_concat]
    rw [notified] at up encodes ⊢
    cases decoded : decode buf with
    | none =>
      have undecoded : .undecoded buf ∈ (({ x with fed := f, agenda := [] } : Session σ τ).recvPdu p
          decode deletes buf).2 := by
        simp only [Session.recvPdu, decoded]
        exact List.mem_cons_self
      exact Bool.noConfusion (up _ (List.mem_append_right _ undecoded))
    | some gdu =>
      simp only [Session.recvPdu, decoded] at encodes ⊢
      have quiet : queued ((calls ++ [Call.recvPdu buf len]).map .assoc) = [] := by
        rw [List.map_append, queued_append, queued_plain plain]
        rfl
      have handled := kept_recvGdu law ledger serves pending { x with fed := f, agenda := [] } quiet
        decoded (wire_heard plain wire) inv alive (assoc ▸ hup) (by rw [assoc]; exact hdestroyed)
        (by rw [frames, hframe]; rfl) encodes
      exact handled

/-- A call that does not end the object leaves its outcome. -/
theorem stepped_call {s s' : Sys} {i : Input} {calls : List Call} (hi : ∀ ans, i ≠ .ret ans)
    (ends : i.ends = false) (step : pdu.step s i = some (s', calls)) :
    s'.alive = true ∧ s'.assoc = (i.outcome s.assoc s.frames.length).assoc ∧
      s'.frames = (i.outcome s.assoc s.frames.length).frame.toList ++ s.frames ∧
      calls = (i.outcome s.assoc s.frames.length).calls := by
  have halive := alive_of_step hi step
  rw [step_call halive hi, Option.some.injEq, Prod.mk.injEq] at step
  obtain ⟨rfl, rfl⟩ := step
  have lives : ((s.perform (i.outcome s.assoc s.frames.length)).1.bury i).alive = true := by
    rw [Sys.bury_alive, ends]
    exact halive
  refine ⟨lives, ?_, ?_, rfl⟩
  · rw [Sys.bury_assoc]
    rfl
  · rw [Sys.bury_of_alive lives]
    rfl

/-- The return of a callback into an association that lives, or that it does not read. -/
theorem stepped_back {s s' : Sys} {ans : Answers} {calls : List Call} {f : Frame}
    {fs : List Frame} (frames : s.frames = f :: fs) (live : f.reads = true → s.alive = true)
    (step : pdu.step s (.ret ans) = some (s', calls)) :
    s'.alive = s.alive ∧ s'.assoc = (s.assoc.resume f ans fs.length).assoc ∧
      s'.frames = (s.assoc.resume f ans fs.length).frame.toList ++ fs ∧
      calls = (s.assoc.resume f ans fs.length).calls := by
  rw [step_back ans frames live, Option.some.injEq, Prod.mk.injEq] at step
  obtain ⟨rfl, rfl⟩ := step
  exact ⟨rfl, rfl, rfl, rfl⟩

/-- `destroy` tells the receive loop below that the object is gone. -/
theorem stepped_destroy {s s' : Sys} {calls : List Call} {depth : Nat} (halive : s.alive = true)
    (destroyed : s.assoc.destroyed = .loop depth)
    (step : pdu.step s .destroy = some (s', calls)) :
    s'.alive = false ∧ s'.frames = setDestroyed depth s.frames ∧
      calls = s.assoc.destroy.calls := by
  rw [step_call (i := .destroy) halive fun _ => nofun, Option.some.injEq, Prod.mk.injEq] at step
  obtain ⟨rfl, rfl⟩ := step
  have pointed : (s.perform s.assoc.destroy).1.assoc.destroyed = .loop depth := destroyed
  refine ⟨?_, ?_, rfl⟩
  · rw [Sys.bury_alive]
    rfl
  · simp only [Input.outcome, Sys.bury, pointed]
    rfl

theorem fed_moves {x f : Fed} {i : Input} {new : List Buf} {calls : List Call}
    (step : fed.step x (i, new) = some (f, calls)) :
    pdu.step x.sys i = some (f.sys, calls) ∧ x.wire.calls new calls = some f.wire := by
  obtain ⟨s, w, old⟩ := f
  obtain ⟨-, hstep, hwire, -⟩ := fed_step step
  exact ⟨hstep, hwire⟩

/-- **A step that tells nobody**: the ledger is as before, but for a PDU that is queued. -/
theorem kept_quiet {p : ServerParams σ τ} {decode : Buf → Option Gdu} {fs : List Facility}
    {x : Session σ τ} {f : Fed} {h : List SessionCall} {deletes : Bool} {new : List Buf}
    {taken last : List (Gdu × List ServerCall)} (ledger : Ledger p decode fs x h taken last)
    {calls : List Call} (plain : calls.all Call.plain = true) (inv : f.Inv)
    (wire : x.fed.wire.calls new calls = some f.wire)
    (doing : Doing { x with fed := f, agenda := x.agenda.tail })
    (pending : ({ x with fed := f, agenda := x.agenda.tail } : Session σ τ).pending = x.pending) :
    Kept p decode fs
      (({ x with fed := f, agenda := x.agenda.tail } : Session σ τ).notify p decode deletes calls).1
      (h ++ (calls.map .assoc ++
        (({ x with fed := f, agenda := x.agenda.tail } : Session σ τ).notify p decode
          deletes calls).2)) := by
  rw [notify_plain p decode deletes _ plain]
  exact ⟨inv, doing, taken, last, ledger.quiet { x with fed := f, agenda := x.agenda.tail } rfl
    (queued_plain plain) (wire_plain plain wire) pending⟩

/-- A response goes from the agenda into the queue. -/
theorem Ledger.sends {p : ServerParams σ τ} {decode : Buf → Option Gdu} {fs : List Facility}
    {x : Session σ τ} {h : List SessionCall} {taken last : List (Gdu × List ServerCall)}
    (ledger : Ledger p decode fs x h taken last) (x' : Session σ τ) (server : x'.server = x.server)
    {cs : Comstack} {buf : Buf} {more : List Call} (plain : more.all Call.plain = true)
    (heard : x'.fed.wire.heard = x.fed.wire.heard) (pending : x.pending = buf :: x'.pending) :
    Ledger p decode fs x' (h ++ ((.newPduQueue cs buf :: more).map .assoc ++ [])) taken last where
  received := by
    rw [List.append_nil, received_append, received_assoc, List.append_nil]
    exact ledger.received
  heard := by
    rw [heard]
    exact ledger.heard
  each := ledger.each
  queued := by
    have before := ledger.queued
    rw [pending, ← List.singleton_append, ← List.append_assoc] at before
    rw [List.append_nil, queued_append, List.map_cons, ← List.singleton_append, queued_append,
      queued_plain plain, List.append_nil]
    exact before
  last := by
    rw [server]
    exact ledger.last
  clean := by
    rw [server]
    exact ledger.clean
  kinds := by
    rw [server]
    exact ledger.kinds

/-- A timeout is heard by the application, which leaves the server as it is. -/
theorem kept_timeout {p : ServerParams σ τ} {decode : Buf → Option Gdu} {fs : List Facility}
    {x : Session σ τ} {f : Fed} {h : List SessionCall} {deletes : Bool} {new : List Buf}
    {taken last : List (Gdu × List ServerCall)} (ledger : Ledger p decode fs x h taken last)
    (serves : x.server.alive = true) (pending : x.pending = []) (inv : f.Inv)
    (alive : f.sys.alive = true) (up : f.sys.assoc.Up) (frames : f.sys.frames = [.tail])
    (wire : x.fed.wire.calls new [.timeoutNotify] = some f.wire)
    (stays : StaysUp ([Call.timeoutNotify].map .assoc ++
      (({ x with fed := f, agenda := [] } : Session σ τ).notify p decode deletes
        [.timeoutNotify]).2)) :
    Kept p decode fs
      (({ x with fed := f, agenda := [] } : Session σ τ).notify p decode deletes
        [.timeoutNotify]).1
      (h ++ ([Call.timeoutNotify].map .assoc ++
        (({ x with fed := f, agenda := [] } : Session σ τ).notify p decode deletes
          [.timeoutNotify]).2)) := by
  have heard : f.wire.heard = x.fed.wire.heard :=
    congrArg Wire.heard (Option.some.inj wire).symm
  cases deletes with
  | true => exact Bool.noConfusion (stays.right .deleted (List.mem_singleton_self _))
  | false =>
    exact ⟨inv, .timedOut alive serves up frames rfl, taken, last,
      ledger.quiet { x with fed := f, agenda := [.ret] } rfl rfl heard pending.symm⟩

/-- **One step** keeps the invariant, while the connection stays up. -/
theorem kept_step {p : ServerParams σ τ} (law : p.odr.Lawful) {decode : Buf → Option Gdu}
    {fs : List Facility} {x x' : Session σ τ} {h o : List SessionCall} {i : SessionInput}
    (kept : Kept p decode fs x h) (step : (session p decode).step x i = some (x', o))
    (stays : StaysUp o) (encodes : Encodes p o) : Kept p decode fs x' (h ++ o) := by
  obtain ⟨f, calls, hfed, rfl, rfl⟩ := session_step step
  have inv := kept.fed.step hfed
  obtain ⟨hstep, wire⟩ := fed_moves hfed
  obtain ⟨taken, last, ledger⟩ := kept.ledger
  have nofail := stays.calls
  cases kept.doing with
  | idle alive serves up frames agenda =>
    simp only [Session.next, agenda] at hstep
    have pending : x.pending = [] := by
      simp only [Session.pending, agenda, List.filterMap_nil]
    obtain ⟨alive', hassoc, hframes, rfl⟩ :=
      stepped_call (i := .socketNotify i.event i.ans) (fun _ h => by cases h) rfl hstep
    rw [frames, List.append_nil] at hframes
    simp only [Input.outcome, frames, List.length_nil] at hassoc hframes wire nofail stays encodes ⊢
    rw [agenda, List.tail_nil] at stays encodes ⊢
    rcases PduAssoc.socketNotify_proceeds up nofail with proceeds | timeout
    · exact kept_proceeds law ledger serves pending proceeds inv alive' hassoc hframes wire stays
        encodes
    · rw [timeout] at hassoc hframes wire stays ⊢
      exact kept_timeout ledger serves pending inv alive' (hassoc ▸ up) hframes wire stays
  | timedOut alive serves up frames agenda =>
    simp only [Session.next, agenda, Task.input] at hstep
    obtain ⟨alive', hassoc, hframes, rfl⟩ := stepped_back frames (fun h => by cases h) hstep
    have nothing : x.agenda.tail = [] := by rw [agenda]; rfl
    refine kept_quiet ledger rfl inv wire ?_ ?_
    · exact .idle (alive'.trans alive) serves (hassoc ▸ up) hframes nothing
    · simp only [Session.pending, agenda]
      rfl
  | answering bufs alive serves up destroyed frames agenda =>
    cases bufs with
    | nil =>
      simp only [Session.next, agenda, List.map_nil, List.nil_append, Task.input] at hstep
      have pending : x.pending = [] := by
        simp only [Session.pending, agenda, List.map_nil, List.nil_append]
        rfl
      obtain ⟨alive', hassoc, hframes, rfl⟩ := stepped_back frames (fun _ => alive) hstep
      rw [List.append_nil] at hframes
      rw [agenda, List.map_nil, List.nil_append, List.tail_cons] at stays encodes ⊢
      exact kept_proceeds law ledger serves pending (PduAssoc.resumeRecv_proceeds up nofail) inv
        (alive'.trans alive) hassoc hframes wire stays encodes
    | cons buf bufs =>
      simp only [Session.next, agenda, List.map_cons, List.cons_append, Task.input] at hstep
      obtain ⟨alive', hassoc, hframes, rfl⟩ :=
        stepped_call (i := .sendPdu buf i.ans) (fun _ h => by cases h) rfl hstep
      simp only [Input.outcome] at hassoc hframes wire nofail stays ⊢
      obtain ⟨more, hcalls, plain, hframe, up', destroyed'⟩ :=
        PduAssoc.sendPdu_queues up nofail
      rw [hcalls] at wire ⊢
      rw [hframe, Option.toList_none, List.nil_append, frames] at hframes
      rw [notify_queued p decode i.deletes _ _ _ plain]
      have heard : f.wire.heard = x.fed.wire.heard := wire_plain plain wire
      refine ⟨inv, .answering bufs alive' serves (hassoc ▸ up') ?_ hframes ?_, taken, last,
        ledger.sends { x with fed := f, agenda := x.agenda.tail } rfl plain heard ?_⟩
      · rw [hassoc, destroyed', destroyed]
      · rw [agenda]
        rfl
      · simp only [Session.pending, agenda]
        rfl
  | dying alive deleted destroyed frames agenda =>
    simp only [Session.next, agenda, Task.input] at hstep
    obtain ⟨gone, hframes, rfl⟩ := stepped_destroy alive destroyed hstep
    rw [frames] at hframes
    refine kept_quiet ledger x.fed.sys.assoc.destroy_plain inv wire ?_ ?_
    · exact .returning gone deleted hframes (by rw [agenda]; rfl)
    · simp only [Session.pending, agenda]
      rfl
  | returning gone deleted frames agenda =>
    simp only [Session.next, agenda, Task.input] at hstep
    obtain ⟨gone', -, hframes, rfl⟩ := stepped_back frames (fun h => by cases h) hstep
    refine kept_quiet ledger rfl inv wire ?_ ?_
    · exact .gone (gone'.trans gone) deleted hframes (by rw [agenda]; rfl)
    · simp only [Session.pending, agenda]
      rfl
  | gone gone deleted frames agenda =>
    simp only [Session.next, agenda] at hstep
    have refused := step_refused (i := .socketNotify i.event i.ans) gone fun _ h => by cases h
    rw [refused] at hstep
    cases hstep

/-- An association that takes over an accepted COMSTACK is open, and nobody was told. -/
theorem accepted_open (cs : Comstack) (pending : IoPending) (fileno : Int) :
    (PduAssoc.accepted cs pending fileno).frame = none ∧
      (PduAssoc.accepted cs pending fileno).assoc.cs = cs ∧
      (PduAssoc.accepted cs pending fileno).assoc.sessionIsDead = false ∧
      ((PduAssoc.accepted cs pending fileno).assoc.state = .accepting ∨
        (PduAssoc.accepted cs pending fileno).assoc.state = .ready) := by
  unfold PduAssoc.accepted
  dsimp only
  split
  · exact ⟨rfl, rfl, rfl, .inr rfl⟩
  · exact ⟨rfl, rfl, rfl, .inl rfl⟩

/-- A new session keeps the invariant. -/
theorem kept_born {p : ServerParams σ τ} {decode : Buf → Option Gdu} {fs : List Facility}
    {x : Session σ τ} {h : List SessionCall} (born : Session.Born p fs x h) :
    Kept p decode fs x h := by
  cases born with
  | @accepted cs _ _ pending fileno parent hcs hobserver serves hfs clean =>
    obtain ⟨hframe, same, undead, state⟩ := accepted_open cs pending fileno
    have connected : (PduAssoc.accepted cs pending fileno).assoc.cs ≠ 0 := by
      rw [same]
      exact hcs
    refine ⟨⟨⟨fun _ => connected, fun h => absurd h connected⟩, rfl, Nat.zero_le _,
      fun _ _ hunread => absurd rfl hunread⟩, ?_, [], [], ?_⟩
    · refine .idle rfl serves ⟨connected, undead, hobserver, ?_⟩ ?_ rfl
      · exact state.imp id .inl
      · simp only [Sys.perform, hframe]
        rfl
    · refine ⟨rfl, rfl, List.forall_mem_nil _, rfl, ?_, clean, fun request => by rw [hfs]⟩
      rw [serves, if_pos rfl]

/-- **The invariant** holds at every point of a session that stays up. -/
theorem kept_run {p : ServerParams σ τ} (law : p.odr.Lawful) {decode : Buf → Option Gdu}
    {fs : List Facility} {is : List SessionInput} {x : Session σ τ} {h : List SessionCall}
    (run : (session p decode).Run (Session.Born p fs) is x h) (up : StaysUp h)
    (encodes : Encodes p h) : Kept p decode fs x h :=
  run.invariant (fun x h => StaysUp h → Encodes p h → Kept p decode fs x h)
    (fun _ _ born _ _ => kept_born born)
    (fun _ _ _ _ _ kept step up encodes =>
      kept_step law (kept up.left encodes.left) step up.right encodes.right) up encodes

/-- Nothing is left in COMSTACK when nothing is running. -/
theorem Doing.drained {x : Session σ τ} (doing : Doing x) (inv : x.fed.Inv)
    (serves : x.server.alive = true) (idle : x.agenda = []) :
    x.fed.wire.heard = x.fed.wire.read := by
  cases doing with
  | idle alive _ up frames =>
    have none : x.fed.wire.unread = [] := by
      by_cases hunread : x.fed.wire.unread = []
      · exact hunread
      · obtain ⟨f, hf, -⟩ := inv.waited alive up.connected hunread
        rw [frames, List.take_nil] at hf
        exact absurd hf List.not_mem_nil
    have balanced := inv.balanced
    rwa [Wire.Balanced, none, List.append_nil] at balanced
  | timedOut _ _ _ _ agenda => cases agenda.symm.trans idle
  | answering bufs _ _ _ _ _ agenda =>
    have last := agenda.symm.trans idle
    exact absurd last (by simp)
  | dying _ _ _ _ agenda => cases agenda.symm.trans idle
  | returning _ deleted => cases deleted.symm.trans serves
  | gone _ deleted => cases deleted.symm.trans serves

/-- **One answer for each request.** While the connection of a session stays up, and every response
encodes: the PDUs that its server has heard are requests that were taken, each answered by one
response of the matching type with its reference id, and taken by the first facility that accepts it
unless it is an init; their responses are what is in the output queue, or about to be, once each and
in the order of the requests. When no handler is running, every PDU that came was heard. The one
exception is the first GDU that nobody takes: it is the last that is heard, nothing is sent for it,
and the server is deleted, and with it the association. -/
theorem one_answer_each {p : ServerParams σ τ} (law : p.odr.Lawful) {decode : Buf → Option Gdu}
    {fs : List Facility} {is : List SessionInput} {x : Session σ τ} {h : List SessionCall}
    (run : (session p decode).Run (Session.Born p fs) is x h) (up : StaysUp h)
    (encodes : Encodes p h) :
    ∃ taken last, received h = taken ++ last ∧
      x.fed.wire.heard.map decode = (taken ++ last).map (fun e => some e.1) ∧
      (∀ e ∈ taken, AnsweredOnce fs e) ∧
      queued h ++ x.pending = (taken.flatMap fun e => sent e.2).map
        (fun response => p.odr.octets (.z3950 response)) ∧
      ((x.server.alive = true ∧ last = [] ∧
          (x.agenda = [] → x.fed.wire.heard = x.fed.wire.read)) ∨
        (x.server.alive = false ∧ ∃ gdu calls, last = [(gdu, calls)] ∧ TurnedAway fs gdu calls ∧
          (x.agenda = [] → x.fed.sys.alive = false))) := by
  have kept := kept_run law run up encodes
  obtain ⟨taken, last, ledger⟩ := kept.ledger
  refine ⟨taken, last, ledger.received, ledger.heard, ledger.each, ledger.queued, ?_⟩
  have ends := ledger.last
  cases serves : x.server.alive with
  | true =>
    rw [serves, if_pos rfl] at ends
    exact .inl ⟨rfl, ends, kept.doing.drained kept.fed serves⟩
  | false =>
    rw [serves, if_neg Bool.false_ne_true] at ends
    obtain ⟨gdu, calls, hlast, away⟩ := ends
    refine .inr ⟨rfl, gdu, calls, hlast, away, ?_⟩
    intro idle
    cases kept.doing with
    | idle _ serves' => cases serves.symm.trans serves'
    | timedOut _ serves' => cases serves.symm.trans serves'
    | answering _ _ serves' => cases serves.symm.trans serves'
    | dying _ _ _ _ agenda => cases agenda.symm.trans idle
    | returning gone => exact gone
    | gone gone => exact gone

/-! ## Two requests at once -/

/-- Everything encodes, in the way of BER. -/
theorem berOdr_lawful : berOdr.Lawful where
  created := ⟨rfl, rfl⟩
  reset _ := ⟨rfl, rfl⟩
  same _ _ _ := rfl
  buffer s g clean _ := by
    have hs : s = [] := clean.empty
    rw [hs]
    rfl
  fails _ _ hr := by cases hr
  sticks _ _ herr := by cases herr
  nonempty g _ := by
    cases g with
    | http octets => exact List.cons_ne_nil _ _
    | z3950 apdu =>
      obtain ⟨id, body⟩ := apdu
      cases body <;> exact List.cons_ne_nil _ _

/-- An init request with a reference id of one octet. -/
def initOctets : Buf :=
  [0xb4, 0x13, 0x82, 0x01, 0x07, 0x83, 0x02, 0x05, 0xe0, 0x84, 0x02, 0x06, 0xc0, 0x85, 0x02, 0x07,
    0xd0, 0x86, 0x02, 0x07, 0xd0]

/-- A close. -/
def closeOctets : Buf := [0xbf, 0x30, 0x05, 0x9f, 0x81, 0x53, 0x01, 0x00]

/-- BER for these two. -/
def decodeTwo (buf : Buf) : Option Gdu :=
  if buf = initOctets then
    some (.z3950 { referenceId := some [0x07], body := .initRequest (.proposing 2000 2000) })
  else if buf = closeOctets then
    some (.z3950 { body := .other .close [0x9f, 0x81, 0x53, 0x01, 0x00] })
  else none

/-- The two come together, and the answer to the first is sent, before the second is heard. -/
def pipelined : List SessionInput :=
  [{ event := observeRead, ans := { get := { res := 2 }, getBuf := initOctets }
     read := [initOctets, closeOctets] }, {},
    { ans := { more := true, get := { res := 2 }, getBuf := closeOctets } }, {}, {}]

/-- The init is answered, with its reference id, and the close ends the session from within the
receive loop. -/
theorem one_answer_each_pipelined : ∃ x h,
    (session (.sized 200) decodeTwo).Run (Session.Born (.sized 200) [.retrieval .unset]) pipelined
      x h ∧
    x.fed.wire.read = [initOctets, closeOctets] ∧ (queued h).length = 1 ∧
    x.fed.sys.alive = false ∧
    ∃ taken last, received h = taken ++ last ∧ taken.length = 1 ∧
      (∀ e ∈ taken, AnsweredOnce [.retrieval .unset] e) ∧ last.length = 1 := by
  have born := @Session.Born.accepted _ _ (.sized 200) [.retrieval .unset] 1 1
    (.fresh [.retrieval .unset]) {} 3 0 (by decide) (by decide) rfl rfl ⟨rfl, rfl⟩
  have seen : ∃ x h, (session (.sized 200) decodeTwo).Run
      (Session.Born (.sized 200) [.retrieval .unset]) pipelined x h ∧
      (x.fed.wire.read, (queued h).length, x.fed.sys.alive, x.server.alive, decide (StaysUp h),
        (received h).length) = ([initOctets, closeOctets], 1, false, false, true, 2) :=
    Machine.Run.of_exec born rfl
  obtain ⟨x, h, run, seen⟩ := seen
  simp only [Prod.mk.injEq, decide_eq_true_eq] at seen
  obtain ⟨read, queue, gone, deleted, up, two⟩ := seen
  refine ⟨x, h, run, read, queue, gone, ?_⟩
  obtain ⟨taken, last, hreceived, -, each, -, ends⟩ :=
    one_answer_each berOdr_lawful run up fun _ _ _ _ => rfl
  rcases ends with ⟨serves, -⟩ | ⟨-, gdu, calls, rfl, -⟩
  · cases deleted.symm.trans serves
  · refine ⟨taken, [(gdu, calls)], hreceived, ?_, each, rfl⟩
    rw [hreceived, List.length_append, List.length_singleton] at two
    exact Nat.succ.inj two

end Yazpp
