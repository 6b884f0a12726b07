import Yazpp.IrAssoc.Pipeline
import Yazpp.PduAssoc.Channels

/-!
# An `IR_Assoc` and its server, end to end

The client and the server of `Pipeline`, each over its own `PDU_Assoc`, with the network between
them. The associations are two channels (`link_piped`), so the responses are the answers that they
are over channels, whatever the network does to the PDUs on the way and however far they came.

`alive` is what `recv_GDU` leaves of the server. `failNotify` and `timeoutNotify` are no functions
of `Z_Server`: a server that deletes itself in them, as `MyServer` does, has its association
destroyed, is not idle, and hears nothing any more.
-/

set_option autoImplicit false

namespace Yazpp

open Yazpp.Lib

variable {σ τ υ : Type}

/-- A client and a server, each over its association. -/
def irLink (env : IrEnv υ) (p : ServerParams σ τ) (decode : Buf → Option Gdu) (cs cs' : Comstack) :
    Machine (Link (IrClient υ) (ZServer σ τ)) (LinkInput IrInput Empty)
      (LinkEvent IrInput Empty IrCall ServerCall) :=
  link (irClient env) (serverPdu p decode).served IrCall.wire? ServerCall.wire? cs cs'

/-- A connection on which nothing was sent. -/
def LinkConnected (env : IrEnv υ) (p : ServerParams σ τ) (fs : List Facility) (cs cs' : Comstack) :
    Link (IrClient υ) (ZServer σ τ) → List (LinkEvent IrInput Empty IrCall ServerCall) → Prop :=
  Link.Start cs cs' (fun c => env.odr.Clean c.assoc.odrOut)
    (fun s => s.alive = true ∧ s.facilities = fs ∧ p.odr.Clean s.assoc.odrOut)

/-- **Each response is the answer to the next request, end to end.** The requests go through the
client's `queue_out`, through any number of writes and reads, and into the server's `recv_PDU`; the
responses the same way back; and either connection may fail at any point. The responses that the
client has received answer its first requests, one by one and in their order, and each was given
once to its `recv` function. When both ends are idle, nothing is on the network and the server was
not deleted, every request is answered; and `recv_GDU` deletes the server only for a request that it
does not take, at or behind which nothing is answered. -/
theorem answers_end_to_end {env : IrEnv υ} {p : ServerParams σ τ} (law : env.odr.Lawful)
    (serverLaw : p.odr.Lawful) {decode : Buf → Option Gdu} {fs : List Facility} {cs cs' : Comstack}
    {is : List (LinkInput IrInput Empty)} {x : Link (IrClient υ) (ZServer σ τ)}
    {h : List (LinkEvent IrInput Empty IrCall ServerCall)}
    (run : (irLink env p decode cs cs').Run (LinkConnected env p fs cs cs') is x h)
    (carried : Carried env p decode (h.filterMap LinkEvent.app?)) :
    ∃ responses : List Apdu,
      (arrivals (h.filterMap LinkEvent.app?)).map env.decode =
        responses.map (fun r => some (.z3950 r)) ∧
      List.Forall₂ Apdu.Answers
        (((askedPdus (h.filterMap LinkEvent.app?)).map IrPdu.apdu).take responses.length)
        responses ∧
      (recvCalls (h.filterMap LinkEvent.app?)).map some = responses.map Apdu.recv? ∧
      (x.far.app.alive = true → x.near.Idle → x.far.Idle → x.up = [] → x.down = [] →
        responses.length = (askedPdus (h.filterMap LinkEvent.app?)).length) ∧
      (x.far.app.alive = false → ∃ request, Untaken fs (.z3950 request) ∧
        ∃ k, responses.length ≤ k ∧
          ((askedPdus (h.filterMap LinkEvent.app?)).map IrPdu.apdu)[k]? = some request) := by
  obtain ⟨js, d, piped⟩ := link_piped run
  obtain ⟨c, s, clean, ⟨alive, facilities, serverClean⟩, views⟩ := duplex_views piped.run
  obtain ⟨responses, arrived, each, recvs, all, refused⟩ :=
    answers_of_views law serverLaw clean alive facilities serverClean views carried
  refine ⟨responses, arrived, each, recvs, ?_, fun dead => refused (piped.server ▸ dead)⟩
  intro lives near far hup hdown
  have up := piped.up.idle near far piped.far.1
  have down := piped.down.idle far near piped.near.1
  exact all (piped.server ▸ lives) (up.trans hup) (down.trans hdown)

/-- An init request that is written in two parts, served, and answered. -/
def initOverLink : List (LinkInput IrInput Empty) :=
  let request : Buf := IrPdu.ber { apdu := pipelineRequest }
  let response : Buf := Gdu.ber (.z3950 pipelineResponse)
  [.near (.app (.sendInitRequest (some ⟨[0x07], by decide⟩))), .near (.send {}),
    .near (.assoc (.socketNotify observeWrite {}) []),
    .near (.assoc (.ret { put := { res := 1 } }) []),
    .near (.assoc (.socketNotify observeWrite {}) []),
    .far (.assoc
      (.socketNotify observeRead { get := { res := request.length }, getBuf := request })
      [request]),
    .far (.send {}), .far (.assoc (.ret {}) []),
    .near (.assoc
      (.socketNotify observeRead { get := { res := response.length }, getBuf := response })
      [response]),
    .near (.assoc (.ret {}) [])]

/-- The request is answered, end to end. -/
theorem answers_end_to_end_init : ∃ x h,
    (irLink irEnv (.sized 200) decodeRequest 1 2).Run
      (LinkConnected irEnv (.sized 200) [.retrieval .unset] 1 2) initOverLink x h ∧
    ∃ responses : List Apdu,
      (arrivals (h.filterMap LinkEvent.app?)).map irEnv.decode =
        responses.map (fun r => some (.z3950 r)) ∧
      List.Forall₂ Apdu.Answers
        (((askedPdus (h.filterMap LinkEvent.app?)).map IrPdu.apdu).take responses.length)
        responses ∧
      responses.length = 1 := by
  have born : LinkConnected irEnv (.sized 200) [.retrieval .unset] 1 2
      { near := .dialled { assoc := .new irBerOdr }, far := .answered (.fresh [.retrieval .unset]) }
      [] := by
    have client := End.dialled_opened ({ assoc := .new irBerOdr } : IrClient Buf)
    have server := End.answered_opened (ZServer.fresh [.retrieval .unset])
    refine ⟨⟨client.fed, ?_, rfl⟩, ⟨server.fed, ?_, rfl⟩, rfl, rfl, rfl⟩
    · exact ⟨rfl, rfl⟩
    · exact ⟨rfl, rfl, rfl, rfl⟩
  have seen : ∃ x h, (irLink irEnv (.sized 200) decodeRequest 1 2).Run
      (LinkConnected irEnv (.sized 200) [.retrieval .unset] 1 2) initOverLink x h ∧
      ((askedPdus (h.filterMap LinkEvent.app?),
        sent ((h.filterMap LinkEvent.app?).flatMap DuplexEvent.serverOutput),
        x.far.app.alive, x.up, x.down),
      (x.near.fed.sys.alive, x.near.fed.sys.assoc.cs, x.near.fed.sys.assoc.queueOut, x.near.sends,
        x.near.fed.sys.frames),
      (x.far.fed.sys.alive, x.far.fed.sys.assoc.cs, x.far.fed.sys.assoc.queueOut, x.far.sends,
        x.far.fed.sys.frames)) =
        (([{ apdu := pipelineRequest }], [pipelineResponse], true, [], []),
          (true, 1, [], [], []), (true, 2, [], [], [])) :=
    Machine.Run.of_exec (f := fun x h => ((askedPdus (h.filterMap LinkEvent.app?),
        sent ((h.filterMap LinkEvent.app?).flatMap DuplexEvent.serverOutput),
        x.far.app.alive, x.up, x.down),
      (x.near.fed.sys.alive, x.near.fed.sys.assoc.cs, x.near.fed.sys.assoc.queueOut, x.near.sends,
        x.near.fed.sys.frames),
      (x.far.fed.sys.alive, x.far.fed.sys.assoc.cs, x.far.fed.sys.assoc.queueOut, x.far.sends,
        x.far.fed.sys.frames))) born rfl
  obtain ⟨x, h, run, seen⟩ := seen
  simp only [Prod.mk.injEq] at seen
  obtain ⟨⟨asked, answered, lives, up, down⟩, ⟨nearAlive, nearCs, nearQueue, nearSends, nearFrames⟩,
    farAlive, farCs, farQueue, farSends, farFrames⟩ := seen
  have carried : Carried irEnv (.sized 200) decodeRequest (h.filterMap LinkEvent.app?) := by
    constructor
    · rw [asked, List.forall_mem_singleton]
      exact ⟨rfl, if_pos rfl⟩
    · rw [answered, List.forall_mem_singleton]
      exact ⟨rfl, rfl⟩
  have near : x.near.Idle := ⟨nearAlive, nearCs ▸ Nat.one_ne_zero, nearQueue, nearSends, nearFrames⟩
  have far : x.far.Idle := ⟨farAlive, farCs ▸ Nat.succ_ne_zero 1, farQueue, farSends, farFrames⟩
  obtain ⟨responses, arrived, each, -, all, -⟩ :=
    answers_end_to_end irBerOdr_lawful berOdr_lawful run carried
  refine ⟨x, h, run, responses, arrived, each, ?_⟩
  rw [all lives near far up down, asked]
  rfl

end Yazpp
