import Mathlib.Data.List.Forall2
import Mathlib.Data.List.Induction
import Yazpp.IrAssoc.Client
import Yazpp.Lib.Duplex
import Yazpp.ZAssoc.Encode
import Yazpp.ZServer.OneAnswer

/-!
# An `IR_Assoc` and its server

The two ends of one connection, with the PDUs between them. The client may send any number of
requests before the first response comes. Its sides are executions of the two machines
(`duplex_views`), so what is to be proved is of each alone: every PDU that the client puts on the
wire is one it was told to send (`irClient_sends`), and the server answers what it reads one by one
(`server_books`).
-/

set_option autoImplicit false

namespace Yazpp

open Yazpp.Lib

variable {σ τ υ : Type}

/-- A PDU that a client was told to send. -/
def IrCall.asked? : IrCall → Option IrPdu
  | .sendZPdu pdu => some pdu
  | _ => none

/-- A PDU that a client puts on the wire. -/
def IrCall.wire? : IrCall → Option Buf
  | .assoc (.sendPdu buf) => some buf
  | _ => none

/-- A call of a virtual `recv` function. -/
def IrCall.recv? : IrCall → Option IrCall
  | .recvInitRequest req => some (.recvInitRequest req)
  | .recvInitResponse res => some (.recvInitResponse res)
  | .recvSearchRequest req => some (.recvSearchRequest req)
  | .recvSearchResponse res => some (.recvSearchResponse res)
  | .recvPresentRequest req => some (.recvPresentRequest req)
  | .recvPresentResponse res => some (.recvPresentResponse res)
  | .recvExtendedServicesResponse res => some (.recvExtendedServicesResponse res)
  | _ => none

/-- The `recv` function that belongs to a response. -/
def Apdu.recv? (response : Apdu) : Option IrCall :=
  match response.body with
  | .initResponse res => some (.recvInitResponse res)
  | .searchResponse res => some (.recvSearchResponse res)
  | .presentResponse res => some (.recvPresentResponse res)
  | .extendedServicesResponse res => some (.recvExtendedServicesResponse res)
  | _ => none

/-- A PDU that is to be sent. -/
def Task.wire? : Task → Option Buf
  | .sendPdu buf => some buf
  | _ => none

/-- A PDU that a server puts on the wire. -/
def ServerCall.wire? (call : ServerCall) : Option Buf := call.task?.bind Task.wire?

/-- A server that reads PDUs. -/
def serverPdu (p : ServerParams σ τ) (decode : Buf → Option Gdu) :
    Machine (ZServer σ τ) Buf ServerCall where
  step s buf := (decode buf).bind fun gdu => (zServer p).step s gdu

/-- A client and a server with a connection between them. -/
def irSystem (env : IrEnv υ) (p : ServerParams σ τ) (decode : Buf → Option Gdu) :
    Machine (Duplex (IrClient υ) (ZServer σ τ) Buf Buf) (DuplexInput IrInput)
      (DuplexEvent IrInput Buf Buf IrCall ServerCall) :=
  duplex (irClient env) (serverPdu p decode) IrCall.wire? ServerCall.wire?

/-- A connection on which nothing was sent. -/
def Connected (env : IrEnv υ) (p : ServerParams σ τ) (fs : List Facility) :
    Duplex (IrClient υ) (ZServer σ τ) Buf Buf →
      List (DuplexEvent IrInput Buf Buf IrCall ServerCall) → Prop :=
  Duplex.Start (fun c => env.odr.Clean c.assoc.odrOut)
    (fun s => s.alive = true ∧ s.facilities = fs ∧ p.odr.Clean s.assoc.odrOut)

/-- The PDUs that the client was told to send, in order. -/
def askedPdus (h : List (DuplexEvent IrInput Buf Buf IrCall ServerCall)) : List IrPdu :=
  (h.flatMap DuplexEvent.clientOutput).filterMap IrCall.asked?

/-- Everything that was sent encodes, and decodes to what the other side reads of it. -/
structure Carried (env : IrEnv υ) (p : ServerParams σ τ) (decode : Buf → Option Gdu)
    (h : List (DuplexEvent IrInput Buf Buf IrCall ServerCall)) : Prop where
  requests : ∀ pdu ∈ askedPdus h, env.odr.Encodable pdu ∧
    decode (env.odr.octets pdu) = some (.z3950 pdu.apdu)
  responses : ∀ response ∈ sent (h.flatMap DuplexEvent.serverOutput),
    p.odr.Encodable (.z3950 response) ∧
      env.decode (p.odr.octets (.z3950 response)) = some (.z3950 response)

/-! ## The client -/

/-- What is put on the wire is what was to be sent. -/
def Sends (env : IrEnv υ) (c : IrClient υ) (next : IrClient υ × List IrCall) : Prop :=
  (∀ pdu ∈ next.2.filterMap IrCall.asked?, env.odr.Encodable pdu) → env.odr.Clean c.assoc.odrOut →
    next.2.filterMap IrCall.wire? = (next.2.filterMap IrCall.asked?).map env.odr.octets ∧
      env.odr.Clean next.1.assoc.odrOut

/-- A call that sends nothing. -/
theorem Sends.quiet {env : IrEnv υ} {c c' : IrClient υ} {o : List IrCall}
    (same : c'.assoc = c.assoc) (ask : o.filterMap IrCall.asked? = [])
    (wire : o.filterMap IrCall.wire? = []) : Sends env c (c', o) := by
  intro _ clean
  rw [ask, wire]
  exact ⟨rfl, same ▸ clean⟩

/-- Calls that send nothing, around others. -/
theorem Sends.around {env : IrEnv υ} {c c₀ c' : IrClient υ} {o : List IrCall}
    (sends : Sends env c₀ (c', o)) (same : c₀.assoc = c.assoc) (before after : List IrCall)
    (beforeAsk : before.filterMap IrCall.asked? = [])
    (beforeWire : before.filterMap IrCall.wire? = [])
    (afterAsk : after.filterMap IrCall.asked? = [])
    (afterWire : after.filterMap IrCall.wire? = []) :
    Sends env c (c', before ++ o ++ after) := by
  intro encodes clean
  simp only [List.filterMap_append, beforeAsk, beforeWire, afterAsk, afterWire, List.nil_append,
    List.append_nil] at encodes ⊢
  exact sends encodes (same ▸ clean)

/-- `send_Z_PDU`. -/
theorem sends_sendZPdu {env : IrEnv υ} (law : env.odr.Lawful) (pdu : IrPdu) (c : IrClient υ) :
    Sends env c ((c.sendZPdu env pdu).1, (c.sendZPdu env pdu).2.1) := by
  intro encodes clean
  have encodable : env.odr.Encodable pdu := encodes pdu List.mem_cons_self
  obtain ⟨hbuf, hret, hclean⟩ := c.assoc.encodeGdu_clean law clean encodable
  have long : 0 < (c.assoc.encodeGdu env.odr pdu).ret := by
    rw [hret]
    exact Int.natCast_pos.mpr (List.length_pos_iff.mpr (law.nonempty _ encodable))
  have hcalls : (c.assoc.sendGdu env.odr pdu 0).calls =
      (c.assoc.encodeGdu env.odr pdu).calls ++ [.sendPdu (env.odr.octets pdu)] := by
    simp only [ZAssoc.sendGdu, hbuf, long, if_true]
  have quiet : ((c.assoc.encodeGdu env.odr pdu).calls.map IrCall.assoc).filterMap IrCall.wire? =
      [] := by
    apply List.filterMap_eq_nil_iff.mpr
    intro call hcall
    obtain ⟨call', hcall', rfl⟩ := List.mem_map.mp hcall
    have hquiet := c.assoc.encodeGdu_quiet env.odr pdu call' hcall'
    cases call' <;> first | rfl | cases hquiet
  have noneAsked : ∀ calls : List (ZCall IrPdu),
      (calls.map IrCall.assoc).filterMap IrCall.asked? = [] := by
    intro calls
    apply List.filterMap_eq_nil_iff.mpr
    intro call hcall
    obtain ⟨call', -, rfl⟩ := List.mem_map.mp hcall
    rfl
  constructor
  · show ((c.assoc.sendGdu env.odr pdu 0).calls.map IrCall.assoc).filterMap IrCall.wire? =
      (pdu :: ((c.assoc.sendGdu env.odr pdu 0).calls.map IrCall.assoc).filterMap IrCall.asked?).map
        env.odr.octets
    rw [noneAsked, hcalls, List.map_append, List.filterMap_append, quiet]
    rfl
  · show env.odr.Clean (c.assoc.sendGdu env.odr pdu 0).assoc.odrOut
    rw [ZAssoc.sendGdu_assoc]
    exact hclean

/-- `send_Z_PDU`, and the `int` it returns. -/
theorem sends_call {env : IrEnv υ} (law : env.odr.Lawful) (pdu : IrPdu) (c : IrClient υ) :
    Sends env c (IrClient.call (c.sendZPdu env pdu)) :=
  (sends_sendZPdu law pdu c).around rfl [] [.returned _] rfl rfl rfl rfl

/-- The default response. -/
theorem sends_answer {env : IrEnv υ} (law : env.odr.Lawful) {c c₀ : IrClient υ}
    (same : c₀.assoc = c.assoc) (body : ApduBody) {call : IrCall} (ask : call.asked? = none)
    (wire : call.wire? = none) :
    Sends env c ((c₀.answer env body).1, call :: (c₀.answer env body).2) := by
  have sends := (sends_sendZPdu law { apdu := { body := body } } c₀).around same [call] []
    (List.filterMap_cons_none ask) (List.filterMap_cons_none wire) rfl rfl
  rwa [List.append_nil] at sends

/-- What a client does with one input. -/
theorem sends_step {env : IrEnv υ} (law : env.odr.Lawful) {c c' : IrClient υ} {i : IrInput ⊕ Buf}
    {o : List IrCall} (hstep : (irClient env).step c i = some (c', o)) : Sends env c (c', o) := by
  cases i with
  | inl i =>
    cases i with
    | setDatabaseNames dblist sep =>
      simp only [irClient, IrClient.perform] at hstep
      split at hstep <;> cases hstep
      exact .quiet rfl rfl rfl
    | sendInitRequest refId => exact Option.some.inj hstep ▸ sends_call law _ c
    | sendSearchRequest query resultSetId refId =>
      cases query with
      | none =>
        cases hstep
        exact .quiet rfl rfl rfl
      | some query => exact Option.some.inj hstep ▸ sends_call law _ c
    | sendPresentRequest start number resultSetId refId =>
      exact Option.some.inj hstep ▸ sends_call law _ c
    | sendDeleteResultSetRequest resultSetId refId =>
      exact Option.some.inj hstep ▸ sends_call law _ c
    | _ =>
      cases hstep
      exact .quiet rfl rfl rfl
  | inr buf =>
    have hrecv : c.recvPdu env buf = (c', o) := Option.some.inj hstep
    unfold IrClient.recvPdu at hrecv
    split at hrecv
    · next apdu hdecode =>
      unfold IrClient.recvZPdu at hrecv
      dsimp only at hrecv
      split at hrecv <;> cases hrecv
      case h_2 => exact sends_answer law rfl _ rfl rfl
      case h_3 => exact sends_answer law rfl _ rfl rfl
      case h_5 => exact sends_answer law rfl _ rfl rfl
      all_goals exact .quiet rfl rfl rfl
    · cases hrecv
      exact .quiet rfl rfl rfl
    · cases hrecv
      exact .quiet rfl rfl rfl

/-- **A client puts on the wire what it was told to send**, in order, while everything encodes. -/
theorem irClient_sends {env : IrEnv υ} (law : env.odr.Lawful) {c c' : IrClient υ}
    {is : List (IrInput ⊕ Buf)} {h : List IrCall} (clean : env.odr.Clean c.assoc.odrOut)
    (run : (irClient env).exec c is = some (c', h))
    (encodes : ∀ pdu ∈ h.filterMap IrCall.asked?, env.odr.Encodable pdu) :
    h.filterMap IrCall.wire? = (h.filterMap IrCall.asked?).map env.odr.octets := by
  have keep : ∀ c h i c' o,
      ((∀ pdu ∈ h.filterMap IrCall.asked?, env.odr.Encodable pdu) →
        h.filterMap IrCall.wire? = (h.filterMap IrCall.asked?).map env.odr.octets ∧
          env.odr.Clean c.assoc.odrOut) →
      (irClient env).step c i = some (c', o) →
      (∀ pdu ∈ (h ++ o).filterMap IrCall.asked?, env.odr.Encodable pdu) →
        (h ++ o).filterMap IrCall.wire? = ((h ++ o).filterMap IrCall.asked?).map env.odr.octets ∧
          env.odr.Clean c'.assoc.odrOut := by
    intro c h i c' o inv hstep encodes
    rw [List.filterMap_append, List.forall_mem_append] at encodes
    obtain ⟨old, clean⟩ := inv encodes.1
    obtain ⟨new, clean'⟩ := sends_step law hstep encodes.2 clean
    rw [List.filterMap_append, List.filterMap_append, List.map_append, old, new]
    exact ⟨rfl, clean'⟩
  exact (Machine.exec_invariant _ keep (h := []) (fun _ => ⟨rfl, clean⟩) run encodes).1

/-- The application's calls lead to no call of a `recv` function. -/
theorem perform_recvs {env : IrEnv υ} {c c' : IrClient υ} {i : IrInput} {o : List IrCall}
    (hstep : c.perform env i = some (c', o)) : o.filterMap IrCall.recv? = [] := by
  have sendCall : ∀ pdu : IrPdu, IrClient.call (c.sendZPdu env pdu) = (c', o) →
      o.filterMap IrCall.recv? = [] := by
    rintro pdu ⟨⟩
    apply List.filterMap_eq_nil_iff.mpr
    intro call hcall
    rcases List.mem_append.mp hcall with hcall | hcall
    · rcases List.mem_cons.mp hcall with rfl | hcall
      · rfl
      · obtain ⟨call', -, rfl⟩ := List.mem_map.mp hcall
        rfl
    · rw [List.mem_singleton.mp hcall]
      rfl
  cases i with
  | setDatabaseNames dblist sep =>
    simp only [IrClient.perform] at hstep
    split at hstep <;> cases hstep
    rfl
  | sendInitRequest refId => exact sendCall _ (Option.some.inj hstep)
  | sendSearchRequest query resultSetId refId =>
    cases query with
    | none =>
      cases hstep
      rfl
    | some query => exact sendCall _ (Option.some.inj hstep)
  | sendPresentRequest start number resultSetId refId =>
    exact sendCall _ (Option.some.inj hstep)
  | sendDeleteResultSetRequest resultSetId refId =>
    exact sendCall _ (Option.some.inj hstep)
  | _ =>
    cases hstep
    rfl

/-- A response that a server makes is given to its `recv` function. -/
theorem recvZPdu_recvs {env : IrEnv υ} {c : IrClient υ} {response : Apdu} {call : IrCall}
    (made : response.recv? = some call) :
    (c.recvZPdu env response).2.filterMap IrCall.recv? = [call] := by
  obtain ⟨id, body⟩ := response
  cases body <;> cases made <;> rfl

/-- **A client calls the `recv` function of each response**, once and in order. -/
theorem irClient_recvs {env : IrEnv υ} {c c' : IrClient υ} {is : List (IrInput ⊕ Buf)}
    {h : List IrCall} (run : (irClient env).exec c is = some (c', h)) {responses : List Apdu}
    (decoded : (is.filterMap Sum.getRight?).map env.decode = responses.map fun r => some (.z3950 r))
    (made : ∀ response ∈ responses, response.recv?.isSome = true) :
    (h.filterMap IrCall.recv?).map some = responses.map Apdu.recv? := by
  induction is generalizing c h responses with
  | nil =>
    cases run
    cases responses with
    | nil => rfl
    | cons response responses => cases decoded
  | cons i is ih =>
    obtain ⟨c₁, o₁, o₂, hstep, hrest, rfl⟩ := Machine.exec_cons.mp run
    rw [List.filterMap_append, List.map_append]
    cases i with
    | inl i =>
      rw [perform_recvs hstep]
      exact ih hrest decoded made
    | inr buf =>
      cases responses with
      | nil => cases decoded
      | cons response responses =>
        obtain ⟨hbuf, hrest'⟩ := List.cons.inj decoded
        obtain ⟨made₁, made₂⟩ := List.forall_mem_cons.mp made
        obtain ⟨call, hcall⟩ := Option.isSome_iff_exists.mp made₁
        have hrecv : (c.recvPdu env buf).2 = o₁ := congrArg Prod.snd (Option.some.inj hstep)
        rw [ih hrest hrest' made₂, ← hrecv]
        unfold IrClient.recvPdu
        rw [hbuf]
        dsimp only
        rw [recvZPdu_recvs hcall, List.map_cons (f := Apdu.recv?), hcall]
        rfl

/-! ## The server -/

theorem transferReferenceId_body (request response : Apdu) :
    (request.transferReferenceId response).body = response.body := by
  unfold Apdu.transferReferenceId
  split <;> rfl

theorem recv?_body {response : Apdu} {body : ApduBody} (h : response.body = body) :
    response.recv? = ({ body := body } : Apdu).recv? := by
  simp only [Apdu.recv?, h]

/-- What a facility answers has its `recv` function. -/
theorem Facility.recv_made {p : ServerParams σ τ} {k : Nat} {encode decode : Odr}
    {request response : Apdu} {r : Running σ} {f : Facility}
    (hrecv : (f.recv p k encode decode request r).answer = some response) :
    response.recv?.isSome = true := by
  have extended : ∀ {g : Facility} {call : FacilityCall}
      {service : σ → ExtendedServicesResponse → Served σ ExtendedServicesResponse},
      (recvExtended p g call service request r).answer = some response →
      response.recv?.isSome = true := by
    intro g call service hrecv
    have hbody := congrArg Apdu.body (Option.some.inj hrecv)
    rw [transferReferenceId_body] at hbody
    rw [recv?_body hbody.symm]
    rfl
  cases f with
  | retrieval m =>
    unfold recv at hrecv
    dsimp only at hrecv
    split at hrecv
    · rw [recv?_body (congrArg Apdu.body (Option.some.inj hrecv)).symm]
      rfl
    · rw [recv?_body (congrArg Apdu.body (Option.some.inj hrecv)).symm]
      rfl
    · cases hrecv
  | ill =>
    unfold recv at hrecv
    dsimp only at hrecv
    split at hrecv
    · split at hrecv
      · exact extended hrecv
      · cases hrecv
    · cases hrecv
  | update =>
    unfold recv at hrecv
    dsimp only at hrecv
    split at hrecv
    · split at hrecv
      · exact extended hrecv
      · exact extended hrecv
      · cases hrecv
    · cases hrecv

theorem recvFacilities_made {p : ServerParams σ τ} {encode decode : Odr} {request response : Apdu}
    {k : Nat} {fs : List Facility} {app : σ} {total : Nat}
    (hwalk : (ZServer.recvFacilities p encode decode request k fs app total).answer =
      some response) : response.recv?.isSome = true := by
  induction fs generalizing k app total with
  | nil => cases hwalk
  | cons f fs ih =>
    unfold ZServer.recvFacilities at hwalk
    dsimp only at hwalk
    split at hwalk
    · next hrecv => exact Facility.recv_made (hrecv.trans hwalk)
    · exact ih hwalk

/-- **A response that a server sends** has its `recv` function. -/
theorem sent_made {p : ServerParams σ τ} {s : ZServer σ τ} {gdu : Gdu} {response : Apdu}
    (hsent : response ∈ sent (s.recvGdu p gdu).2) : response.recv?.isSome = true := by
  cases gdu with
  | http octets => cases hsent
  | z3950 request =>
    by_cases init : ∃ req, request.body = .initRequest req
    · obtain ⟨req, hbody⟩ := init
      simp only [ZServer.recvGdu, ZServer.recvZPdu, hbody, ZServer.recvInit, sent_append,
        ZServer.sent_initFacilities, ZServer.sent_sendZPdu, List.nil_append,
        List.mem_singleton] at hsent
      have hbody' : response.body = _ :=
        (congrArg Apdu.body hsent).trans (transferReferenceId_body ..)
      rw [recv?_body hbody']
      rfl
    · rw [ZServer.recvGdu, ZServer.recvZPdu_other p fun req h => init ⟨req, h⟩] at hsent
      dsimp only at hsent
      split at hsent
      · next response' hanswer =>
        rw [sent_append, ZServer.sent_recvFacilities, ZServer.sent_sendZPdu, List.nil_append,
          List.mem_singleton] at hsent
        exact hsent ▸ recvFacilities_made hanswer
      · rw [sent_append, ZServer.sent_recvFacilities] at hsent
        cases hsent

theorem filterMap_wire (calls : List ServerCall) :
    calls.filterMap ServerCall.wire? =
      (calls.filterMap ServerCall.task?).filterMap Task.wire? :=
  (List.filterMap_filterMap ..).symm

/-- What a server has been given, and what it has answered: requests with their responses, and, once
it is deleted, the GDU that nobody took. -/
structure Serving (p : ServerParams σ τ) (decode : Buf → Option Gdu) (fs : List Facility)
    (s : ZServer σ τ) (heard : List Buf) (h : List ServerCall) (taken : List (Apdu × Apdu))
    (last : List Gdu) : Prop where
  heard : heard.map decode = (taken.map fun e => some (.z3950 e.1)) ++ last.map some
  each : ∀ e ∈ taken, e.1.Answers e.2 ∧ e.2.recv?.isSome = true
  sent : sent h = taken.map Prod.snd
  wire : h.filterMap ServerCall.wire? = taken.map fun e => p.odr.octets (.z3950 e.2)
  last : if s.alive then last = [] else ∃ gdu, last = [gdu] ∧ Untaken fs gdu
  clean : p.odr.Clean s.assoc.odrOut
  kinds : SameKinds s.facilities fs

/-- One PDU, as long as what is answered encodes. -/
theorem serving_step {p : ServerParams σ τ} (law : p.odr.Lawful) {decode : Buf → Option Gdu}
    {fs : List Facility} {s s' : ZServer σ τ} {heard : List Buf} {h o : List ServerCall}
    {taken : List (Apdu × Apdu)} {last : List Gdu} {buf : Buf}
    (serving : Serving p decode fs s heard h taken last)
    (hstep : (serverPdu p decode).step s buf = some (s', o))
    (encodes : ∀ response ∈ sent o, p.odr.Encodable (.z3950 response)) :
    ∃ taken' last', Serving p decode fs s' (heard ++ [buf]) (h ++ o) taken' last' := by
  obtain ⟨gdu, hdecode, hgdu⟩ := Option.bind_eq_some_iff.mp hstep
  obtain ⟨alive, hrecv⟩ := zServer_step.mp hgdu
  have ends := serving.last
  rw [alive, if_pos rfl] at ends
  subst ends
  have kinds : SameKinds s'.facilities fs := fun request => by
    have := (accepts_recvGdu p s gdu request).trans (serving.kinds request)
    rwa [hrecv] at this
  have old := serving.heard
  rw [List.map_nil, List.append_nil] at old
  rcases taken_or_untaken s.facilities gdu with ⟨request, rfl, htaken⟩ | untaken
  · obtain ⟨response, replied⟩ := recvGdu_taken p s htaken
    obtain ⟨mid, made, hmid, facilities, hassoc, hcalls⟩ := replied.sends
    obtain ⟨noTask, noSent⟩ := tasks_facility facilities
    have alive' := replied.alive
    have hnext : (s.recvGdu p (.z3950 request)).2 = o := congrArg Prod.snd hrecv
    have hserver : (s.recvGdu p (.z3950 request)).1 = s' := congrArg Prod.fst hrecv
    rw [hserver] at hassoc alive'
    rw [hnext] at hcalls
    have sends : sent o = [response] := by
      rw [hcalls, sent_append, noSent, ZServer.sent_sendZPdu]
      rfl
    have made : response.recv?.isSome = true := by
      have sentHere : response ∈ sent (s.recvGdu p (.z3950 request)).2 := by
        rw [hnext, sends]
        exact List.mem_singleton_self _
      exact sent_made sentHere
    have encodable : p.odr.Encodable (.z3950 response) :=
      encodes response (sends ▸ List.mem_singleton_self _)
    obtain ⟨tasks, clean⟩ := sendZPdu_tasks law (hmid ▸ serving.clean) encodable
    have wire : o.filterMap ServerCall.wire? = [p.odr.octets (.z3950 response)] := by
      rw [filterMap_wire, hcalls, List.filterMap_append, noTask, tasks]
      rfl
    refine ⟨taken ++ [(request, response)], [], ?_, ?_, ?_, ?_, ?_, hassoc ▸ clean, kinds⟩
    · rw [List.map_append, old, List.map_append, List.map_singleton, hdecode, List.map_nil,
        List.append_nil]
      rfl
    · rw [List.forall_mem_append, List.forall_mem_singleton]
      exact ⟨serving.each, replied.answers, made⟩
    · rw [sent_append, serving.sent, sends, List.map_append]
      rfl
    · rw [List.filterMap_append, serving.wire, wire, List.map_append]
      rfl
    · rw [alive'.trans alive, if_pos rfl]
  · obtain ⟨deleted, hassoc, hcalls⟩ := recvGdu_untaken p s untaken
    have hnext : (s.recvGdu p gdu).2 = o := congrArg Prod.snd hrecv
    have hserver : (s.recvGdu p gdu).1 = s' := congrArg Prod.fst hrecv
    rw [hserver] at deleted hassoc
    rw [hnext] at hcalls
    have silent : sent o = [] ∧ o.filterMap ServerCall.wire? = [] := by
      rcases hcalls with rfl | ⟨which, rfl⟩ <;> exact ⟨rfl, rfl⟩
    refine ⟨taken, [gdu], ?_, serving.each, ?_, ?_, ?_, hassoc ▸ serving.clean, kinds⟩
    · rw [List.map_append, old, List.map_singleton, hdecode]
      rfl
    · rw [sent_append, serving.sent, silent.1, List.append_nil]
    · rw [List.filterMap_append, serving.wire, silent.2, List.append_nil]
    · rw [deleted, if_neg Bool.false_ne_true]
      exact ⟨gdu, rfl, serving.kinds.untaken untaken⟩

/-- **A server answers what it reads one by one**, up to the first PDU that nobody takes. -/
theorem server_books {p : ServerParams σ τ} (law : p.odr.Lawful) {decode : Buf → Option Gdu}
    {fs : List Facility} {s s' : ZServer σ τ} {bufs : List Buf} {h : List ServerCall}
    (alive : s.alive = true) (facilities : s.facilities = fs) (clean : p.odr.Clean s.assoc.odrOut)
    (run : (serverPdu p decode).exec s bufs = some (s', h))
    (encodes : ∀ response ∈ sent h, p.odr.Encodable (.z3950 response)) :
    ∃ taken last, Serving p decode fs s' bufs h taken last := by
  induction bufs using List.reverseRecOn generalizing s' h with
  | nil =>
    cases run
    refine ⟨[], [], rfl, List.forall_mem_nil _, rfl, rfl, ?_, clean, fun _ => facilities ▸ rfl⟩
    rw [alive, if_pos rfl]
  | append_singleton bufs buf ih =>
    obtain ⟨t, o₁, o₂, hfirst, hlast, rfl⟩ := Machine.exec_append.mp run
    obtain ⟨t', o, o', hstep, hnil, rfl⟩ := Machine.exec_cons.mp hlast
    cases hnil
    rw [sent_append, List.forall_mem_append, List.append_nil] at encodes
    obtain ⟨taken, last, serving⟩ := ih hfirst encodes.1
    rw [List.append_nil]
    exact serving_step law serving hstep encodes.2

/-! ## Both -/

/-- The calls of the `recv` functions, in order. -/
def recvCalls (h : List (DuplexEvent IrInput Buf Buf IrCall ServerCall)) : List IrCall :=
  (h.flatMap DuplexEvent.clientOutput).filterMap IrCall.recv?

/-- What the two sides have seen of a connection makes each response the answer to the next
request. -/
theorem answers_of_views {env : IrEnv υ} {p : ServerParams σ τ} (law : env.odr.Lawful)
    (serverLaw : p.odr.Lawful) {decode : Buf → Option Gdu} {fs : List Facility} {c : IrClient υ}
    {s : ZServer σ τ} {x : Duplex (IrClient υ) (ZServer σ τ) Buf Buf}
    {h : List (DuplexEvent IrInput Buf Buf IrCall ServerCall)}
    (clean : env.odr.Clean c.assoc.odrOut) (alive : s.alive = true)
    (facilities : s.facilities = fs) (serverClean : p.odr.Clean s.assoc.odrOut)
    (views : Views (irClient env) (serverPdu p decode) IrCall.wire? ServerCall.wire? c s x h)
    (carried : Carried env p decode h) :
    ∃ responses : List Apdu,
      (arrivals h).map env.decode = responses.map (fun r => some (.z3950 r)) ∧
      List.Forall₂ Apdu.Answers (((askedPdus h).map IrPdu.apdu).take responses.length) responses ∧
      (recvCalls h).map some = responses.map Apdu.recv? ∧
      (x.server.alive = true → x.up = [] → x.down = [] →
        responses.length = (askedPdus h).length) ∧
      (x.server.alive = false → ∃ request, Untaken fs (.z3950 request) ∧
        ∃ k, responses.length ≤ k ∧ ((askedPdus h).map IrPdu.apdu)[k]? = some request) := by
  have wire := irClient_sends law clean views.client fun pdu hpdu => (carried.requests pdu hpdu).1
  obtain ⟨taken, last, serving⟩ := server_books serverLaw alive facilities serverClean views.server
    fun response hresponse => (carried.responses response hresponse).1
  -- what the server has read is what the client sent first
  have up : (askedPdus h).map env.odr.octets = heardBy h ++ x.up := wire.symm.trans views.up
  have down : taken.map (fun e => p.odr.octets (.z3950 e.2)) = arrivals h ++ x.down :=
    serving.wire.symm.trans views.down
  obtain ⟨read, unread, hasked, hread, hunread⟩ := List.map_eq_append_iff.mp up
  obtain ⟨got, flying, htaken, hgot, hflying⟩ := List.map_eq_append_iff.mp down
  have hdecoded : read.map (fun pdu => some (Gdu.z3950 pdu.apdu)) =
      taken.map (fun e => some (Gdu.z3950 e.1)) ++ last.map some := by
    rw [← serving.heard, ← hread, List.map_map]
    refine List.map_congr_left fun pdu hpdu => ?_
    exact (carried.requests pdu (hasked ▸ List.mem_append_left _ hpdu)).2.symm
  obtain ⟨answered, refused, rfl, hanswered, hrefused⟩ := List.map_eq_append_iff.mp hdecoded
  have requests : answered.map IrPdu.apdu = taken.map Prod.fst := by
    have inj : Function.Injective fun apdu => some (Gdu.z3950 apdu) := fun a b hab => by
      cases hab
      rfl
    refine List.map_injective_iff.mpr inj ?_
    rw [List.map_map, List.map_map]
    exact hanswered
  have decoded : (arrivals h).map env.decode =
      (got.map Prod.snd).map fun r => some (.z3950 r) := by
    rw [← hgot, List.map_map, List.map_map]
    refine List.map_congr_left fun e he => ?_
    refine (carried.responses e.2 ?_).2
    rw [serving.sent, htaken]
    exact List.mem_map_of_mem (List.mem_append_left _ he)
  have each : ∀ e ∈ got, e.1.Answers e.2 ∧ e.2.recv?.isSome = true := fun e he =>
    serving.each e (htaken ▸ List.mem_append_left _ he)
  have lengths : answered.length = got.length + flying.length := by
    have := congrArg List.length requests
    rwa [List.length_map, List.length_map, htaken, List.length_append] at this
  refine ⟨got.map Prod.snd, decoded, ?_, ?_, ?_, ?_⟩
  · have first : ((askedPdus h).map IrPdu.apdu).take (got.map Prod.snd).length =
        got.map Prod.fst := by
      rw [hasked, List.map_append, List.map_append, requests, htaken, List.map_append]
      simp
    rw [first, List.forall₂_map_left_iff, List.forall₂_map_right_iff, List.forall₂_same]
    exact fun e he => (each e he).1
  · refine irClient_recvs views.client ?_ ?_
    · rw [← arrivals_eq]
      exact decoded
    · rw [List.forall_mem_map]
      exact fun e he => (each e he).2
  · intro lives hup hdown
    have ends := serving.last
    rw [lives, if_pos rfl] at ends
    rw [ends, List.map_nil, List.map_eq_nil_iff] at hrefused
    rw [hup, List.map_eq_nil_iff] at hunread
    rw [hdown, List.map_eq_nil_iff] at hflying
    rw [hasked, hrefused, hunread, List.append_nil, List.append_nil, lengths, hflying,
      List.length_map]
    rfl
  · intro dead
    have ends := serving.last
    rw [dead, if_neg Bool.false_ne_true] at ends
    obtain ⟨gdu, hlast, untaken⟩ := ends
    rw [hlast, List.map_singleton, List.map_eq_singleton_iff] at hrefused
    obtain ⟨pdu, rfl, hpdu⟩ := hrefused
    cases hpdu
    refine ⟨pdu.apdu, untaken, answered.length, ?_, ?_⟩
    · rw [lengths, List.length_map]
      exact Nat.le_add_right _ _
    · rw [hasked]
      simp

/-- **Each response is the answer to the next request.** Over one connection, whatever is sent
before what is received: the responses that a client has received have the types and the reference
ids of its first requests, in the order of these, and each was given to its `recv` function. Nothing
is left out: when nothing is on the way, and the server was not deleted, every request is answered;
and the server is deleted only by a request that it does not take, at or behind which nothing is
answered. -/
theorem answers_in_order {env : IrEnv υ} {p : ServerParams σ τ} (law : env.odr.Lawful)
    (serverLaw : p.odr.Lawful) {decode : Buf → Option Gdu} {fs : List Facility}
    {is : List (DuplexInput IrInput)} {x : Duplex (IrClient υ) (ZServer σ τ) Buf Buf}
    {h : List (DuplexEvent IrInput Buf Buf IrCall ServerCall)}
    (run : (irSystem env p decode).Run (Connected env p fs) is x h)
    (carried : Carried env p decode h) :
    ∃ responses : List Apdu,
      (arrivals h).map env.decode = responses.map (fun r => some (.z3950 r)) ∧
      List.Forall₂ Apdu.Answers (((askedPdus h).map IrPdu.apdu).take responses.length) responses ∧
      (recvCalls h).map some = responses.map Apdu.recv? ∧
      (x.server.alive = true → x.up = [] → x.down = [] →
        responses.length = (askedPdus h).length) ∧
      (x.server.alive = false → ∃ request, Untaken fs (.z3950 request) ∧
        ∃ k, responses.length ≤ k ∧ ((askedPdus h).map IrPdu.apdu)[k]? = some request) := by
  obtain ⟨c, s, clean, ⟨alive, facilities, serverClean⟩, views⟩ := duplex_views run
  exact answers_of_views law serverLaw clean alive facilities serverClean views carried

/-! ## An init -/

/-- BER for an init request without `otherInfo`. What is no init request has its reference id
only. -/
def IrPdu.ber (pdu : IrPdu) : Buf :=
  let id : Buf := (pdu.apdu.referenceIdP.map fun id => 0x82 :: .ofNat id.length :: id).getD []
  match pdu.apdu.body with
  | .initRequest req =>
    let members : Buf := id ++ [0x83, 0x02, 0x05, berBits req.protocolVersion 0] ++
      [0x84, 0x03, 0x01, berBits req.options 0, berBits req.options 8] ++
      0x85 :: berInt req.preferredMessageSize.toNat ++
      0x86 :: berInt req.maximumRecordSize.toNat
    0xb4 :: .ofNat members.length :: members
  | _ => 0x30 :: .ofNat id.length :: id

/-- The stream of the client, on which everything encodes. -/
def irBerOdr : OdrEncode IrPdu Buf where
  createmem := []
  zGdu s g := (s ++ g.ber, true)
  geterror _ := false
  getelement _ := none
  getbuf s := s
  reset _ := []

theorem irBerOdr_lawful : irBerOdr.Lawful where
  created := ⟨rfl, rfl⟩
  reset _ := ⟨rfl, rfl⟩
  same _ _ _ := rfl
  buffer s g clean _ := by
    have hs : s = [] := clean.empty
    rw [hs]
    rfl
  fails _ _ hr := by cases hr
  sticks _ _ herr := by cases herr
  nonempty g _ := by
    obtain ⟨⟨id, body⟩, names, info⟩ := g
    cases body <;> exact List.cons_ne_nil _ _

/-- What the client asks for, with the reference id 7. -/
def pipelineRequest : Apdu where
  referenceId := some [0x07]
  body := .initRequest
    { protocolVersion := 7, options := 0x4597, preferredMessageSize := 2000
      maximumRecordSize := 2000 }

/-- What the server answers. -/
def pipelineResponse : Apdu where
  referenceId := some [0x07]
  body := .initResponse
    { protocolVersion := 7, options := 3, preferredMessageSize := 2 ^ 20
      maximumRecordSize := 2 ^ 20, result := true }

/-- The program of the client. -/
def irEnv : IrEnv Buf where
  initRequest :=
    { protocolVersion := 0, options := 0, preferredMessageSize := 2000, maximumRecordSize := 2000 }
  searchRequest :=
    { resultSetName := [0x64], smallSetUpperBound := 0, largeSetLowerBound := 1
      mediumSetPresentNumber := 0, smallSetElementSetNames := none
      mediumSetElementSetNames := none, preferredRecordSyntax := none, query := [] }
  presentRequest :=
    { resultSetId := [0x64], resultSetStartPoint := 1, numberOfRecordsRequested := 1
      recordComposition := none, preferredRecordSyntax := none }
  deleteResultSetRequest _ := []
  initResponse := (Zget.sized 2000 2000).initResponse
  searchResponse := (Zget.sized 2000 2000).searchResponse
  presentResponse := (Zget.sized 2000 2000).presentResponse
  stringToOid _ := none
  odr := irBerOdr
  decode buf :=
    if buf = Gdu.ber (.z3950 pipelineResponse) then some (.z3950 pipelineResponse) else none

/-- BER for the request. -/
def decodeRequest (buf : Buf) : Option Gdu :=
  if buf = IrPdu.ber { apdu := pipelineRequest } then some (.z3950 pipelineRequest) else none

/-- An init is sent, served and delivered. -/
theorem answers_in_order_init : ∃ x h,
    (irSystem irEnv (.sized 200) decodeRequest).Run
      (Connected irEnv (.sized 200) [.retrieval .unset])
      [.user (.sendInitRequest (some ⟨[0x07], by decide⟩)), .serve, .deliver] x h ∧
    ∃ responses : List Apdu,
      (arrivals h).map irEnv.decode = responses.map (fun r => some (.z3950 r)) ∧
      List.Forall₂ Apdu.Answers (((askedPdus h).map IrPdu.apdu).take responses.length) responses ∧
      responses.length = 1 := by
  have born : Connected irEnv (.sized 200) [.retrieval .unset]
      { client := { assoc := .new irBerOdr }, server := .fresh [.retrieval .unset] } [] :=
    ⟨⟨rfl, rfl⟩, ⟨rfl, rfl, rfl, rfl⟩, rfl, rfl, rfl⟩
  have seen : ∃ x h, (irSystem irEnv (.sized 200) decodeRequest).Run
      (Connected irEnv (.sized 200) [.retrieval .unset])
      [.user (.sendInitRequest (some ⟨[0x07], by decide⟩)), .serve, .deliver] x h ∧
      (askedPdus h, sent (h.flatMap DuplexEvent.serverOutput), x.server.alive, x.up, x.down) =
        ([{ apdu := pipelineRequest }], [pipelineResponse], true, [], []) :=
    Machine.Run.of_exec (f := fun x h => (askedPdus h, sent (h.flatMap DuplexEvent.serverOutput),
      x.server.alive, x.up, x.down)) born rfl
  obtain ⟨x, h, run, seen⟩ := seen
  simp only [Prod.mk.injEq] at seen
  obtain ⟨asked, answered, alive, up, down⟩ := seen
  have carried : Carried irEnv (.sized 200) decodeRequest h := by
    constructor
    · rw [asked, List.forall_mem_singleton]
      exact ⟨rfl, if_pos rfl⟩
    · rw [answered, List.forall_mem_singleton]
      exact ⟨rfl, rfl⟩
  obtain ⟨responses, arrived, each, -, all, -⟩ :=
    answers_in_order irBerOdr_lawful berOdr_lawful run carried
  refine ⟨x, h, run, responses, arrived, each, ?_⟩
  rw [all alive up down, asked]
  rfl

end Yazpp
