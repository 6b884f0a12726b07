import Yazpp.Lib.Machine
import Yazpp.ZAssoc.Model
import Yazpp.ZServer.Retrieval

/-!
# `Z_Server` and its facilities

The embedding of `src/yaz-z-server.cpp`, `src/yaz-z-server-ill.cpp` and
`src/yaz-z-server-update.cpp`, with the part of `src/yaz-z-assoc.cpp` that makes and sends a
response: `create_Z_PDU`, `transfer_referenceId` and `send_Z_PDU`. The facilities are the three that
the repository has, in the order in which they were added.

`zget_APDU` is YAZ's: the response it makes for each request, with everything at its default, is a
parameter (`Zget`). The encoding is the one of `ZAssoc`. `delete this` is a call, behind which the
server takes nothing any more; what it does to the association is not in this module.

Left out: the name of a facility, which nothing reads, and the values that `init` returns, which
`recv_Z_PDU` ignores.
-/

set_option autoImplicit false

namespace Yazpp

open Yazpp.Lib

/-- What `zget_APDU` gives, and what it allocates for it. -/
structure Zget where
  initResponse : InitResponse
  searchResponse : SearchResponse
  presentResponse : PresentResponse
  extendedServicesResponse : ExtendedServicesResponse
  size : ApduType → Nat

/-- An `IServer_Facility`. -/
inductive Facility
  | retrieval (members : Retrieval)
  | ill
  | update
deriving DecidableEq, Repr

/-- What a server does. `facility` says which one in its list. -/
inductive ServerCall
  | facility (k : Nat) (call : FacilityCall)
  | sendZPdu (apdu : Apdu)
  | assoc (call : ZCall Gdu)
  -- "unhandled request"
  | unhandled (which : ApduType)
  | deleteThis
deriving DecidableEq, Repr

/-- What is the same for all servers of a program: the sizes, YAZ's functions and the services. -/
structure ServerParams (σ τ : Type) where
  sizeof : Sizeof
  zget : Zget
  odr : OdrEncode Gdu τ
  service : Service σ

/-- `Z_Server`, with the part of its `Z_Assoc` that encodes, the application, and `odr_total` of the
encoding stream. -/
structure ZServer (σ τ : Type) where
  assoc : ZAssoc τ
  odrEncode : Odr
  odrDecode : Odr
  facilities : List Facility
  app : σ
  total : Nat
  alive : Bool := true

/-- What a facility leaves of a request: itself, its answer, and what is running. -/
structure Answered (σ α : Type) where
  facility : Facility
  answer : α
  run : Running σ

namespace Facility

variable {σ τ : Type}

/-- The option that the facilities for extended services accept. -/
def acceptExtendedServices (req : InitRequest) (res : InitResponse) : InitResponse :=
  if odrMaskGet req.options optionExtendedServices then
    { res with options := odrMaskSet res.options optionExtendedServices }
  else res

/-- `IServer_Facility::init`. -/
def init (svc : Service σ) (k : Nat) (req : InitRequest) (res : InitResponse) (r : Running σ) :
    Facility → Answered σ InitResponse
  | .retrieval m =>
    let m := m.init req
    let served := svc.srInit k r.app req (Retrieval.acceptOptions req res)
    { facility := .retrieval m, answer := served.answer, run := (r.use .srInit m).serve served }
  | .ill => { facility := .ill, answer := acceptExtendedServices req res, run := r }
  | .update => { facility := .update, answer := acceptExtendedServices req res, run := r }

/-- `create_Z_PDU`, for a type of response. -/
def createZPdu (zget : Zget) (which : ApduType) (r : Running σ) : Running σ :=
  { r with total := r.total + zget.size which }

/-- `transfer_referenceId`, and what it allocates. -/
def transfer (sz : Sizeof) (request response : Apdu) (r : Running σ) : Apdu × Running σ :=
  let copied := (request.referenceIdP.map fun id => sz.odrOct + id.length).getD 0
  (request.transferReferenceId response, { r with total := r.total + copied })

/-- `Yaz_Facility_Retrieval::recv` of a search request. -/
def recvSearch (p : ServerParams σ τ) (k : Nat) (m : Retrieval) (request : Apdu)
    (sreq : SearchRequest) (r : Running σ) : Answered σ (Option Apdu) :=
  let r := createZPdu p.zget .searchResponse r
  let (response, r) := transfer p.sizeof request { body := .searchResponse p.zget.searchResponse } r
  let served := p.service.srSearch k r.app sreq p.zget.searchResponse
  let r := (r.use .srSearch m).serve served
  let (r, res) :=
    if served.answer.records = none then
      fetchViaPiggyback p.sizeof p.service k m sreq served.answer r
    else (r, served.answer)
  { facility := .retrieval m
    answer := some { response with body := .searchResponse res }
    run := r }

/-- `Yaz_Facility_Retrieval::recv` of a present request. -/
def recvPresent (p : ServerParams σ τ) (k : Nat) (m : Retrieval) (request : Apdu)
    (preq : PresentRequest) (r : Running σ) : Answered σ (Option Apdu) :=
  let r := createZPdu p.zget .presentResponse r
  let (response, r) :=
    transfer p.sizeof request { body := .presentResponse p.zget.presentResponse } r
  let served := p.service.srPresent k r.app preq p.zget.presentResponse
  let r := (r.use .srPresent m).serve served
  let (r, res) :=
    if served.answer.records = none then
      fetchViaPresent p.sizeof p.service k m preq served.answer r
    else (r, served.answer)
  { facility := .retrieval m
    answer := some { response with body := .presentResponse res }
    run := r }

/-- What `recv` of the facilities for extended services does with a request that it takes. The
reference id is copied behind the service here. -/
def recvExtended (p : ServerParams σ τ) (f : Facility) (call : FacilityCall)
    (service : σ → ExtendedServicesResponse → Served σ ExtendedServicesResponse) (request : Apdu)
    (r : Running σ) : Answered σ (Option Apdu) :=
  let r := createZPdu p.zget .extendedServicesResponse r
  let served := service r.app p.zget.extendedServicesResponse
  let r := ({ r with calls := r.calls ++ [call] } : Running σ).serve served
  let (response, r) :=
    transfer p.sizeof request { body := .extendedServicesResponse served.answer } r
  { facility := f, answer := some response, run := r }

/-- `IServer_Facility::recv`: the response it sends, or `none` when it does not take the request.
`encode` and `decode` are the streams of the server. -/
def recv (p : ServerParams σ τ) (k : Nat) (encode decode : Odr) (request : Apdu) (r : Running σ) :
    Facility → Answered σ (Option Apdu)
  | .retrieval m =>
    let m := m.setStreams encode decode
    match request.body with
    | .searchRequest sreq => recvSearch p k m request sreq r
    | .presentRequest preq => recvPresent p k m request preq r
    | _ => { facility := .retrieval m, answer := none, run := r }
  | .ill =>
    match request.body with
    | .extendedServicesRequest req =>
      match req.taskSpecificParameters with
      | some (.itemOrder, order) =>
        recvExtended p .ill .illService (fun app => p.service.illService k app req order) request r
      | _ => { facility := .ill, answer := none, run := r }
    | _ => { facility := .ill, answer := none, run := r }
  | .update =>
    match request.body with
    | .extendedServicesRequest req =>
      match req.taskSpecificParameters with
      | some (.update, package) =>
        recvExtended p .update .updateService (fun app => p.service.updateService k app req package)
          request r
      | some (.update0, package) =>
        recvExtended p .update .updateService0
          (fun app => p.service.updateService0 k app req package) request r
      | _ => { facility := .update, answer := none, run := r }
    | _ => { facility := .update, answer := none, run := r }

end Facility

/-- The calls of a facility, with its place. -/
def Running.tagged {σ : Type} (k : Nat) (r : Running σ) : List ServerCall :=
  r.calls.map (.facility k)

/-- What the walk through the facilities leaves. -/
structure Walked (σ α : Type) where
  facilities : List Facility
  answer : α
  app : σ
  total : Nat
  calls : List ServerCall := []

namespace ZServer

variable {σ τ : Type}

/-- The loop of `recv_Z_PDU` over the facilities for an init request; `k` is the place of the first
of them. -/
def initFacilities (svc : Service σ) (req : InitRequest) :
    Nat → List Facility → InitResponse → σ → Nat → Walked σ InitResponse
  | _, [], res, app, total => { facilities := [], answer := res, app := app, total := total }
  | k, f :: fs, res, app, total =>
    let first := f.init svc k req res { app := app, total := total }
    let rest := initFacilities svc req (k + 1) fs first.answer first.run.app first.run.total
    { rest with
      facilities := first.facility :: rest.facilities
      calls := first.run.tagged k ++ rest.calls }

/-- The loop of `recv_Z_PDU` over the facilities for any other request, up to the one that takes
it. -/
def recvFacilities (p : ServerParams σ τ) (encode decode : Odr) (request : Apdu) :
    Nat → List Facility → σ → Nat → Walked σ (Option Apdu)
  | _, [], app, total => { facilities := [], answer := none, app := app, total := total }
  | k, f :: fs, app, total =>
    let first := f.recv p k encode decode request { app := app, total := total }
    match first.answer with
    | some response =>
      { facilities := first.facility :: fs, answer := some response, app := first.run.app
        total := first.run.total, calls := first.run.tagged k }
    | none =>
      let rest :=
        recvFacilities p encode decode request (k + 1) fs first.run.app first.run.total
      { rest with
        facilities := first.facility :: rest.facilities
        calls := first.run.tagged k ++ rest.calls }

/-- `send_Z_PDU`. The stream is reset behind an APDU that was encoded. -/
def sendZPdu (p : ServerParams σ τ) (apdu : Apdu) (s : ZServer σ τ) :
    ZServer σ τ × List ServerCall :=
  let e := s.assoc.sendGdu p.odr (.z3950 apdu) 0
  ({ s with
      assoc := e.assoc
      total := if e.buf.isSome then 0 else s.total + p.sizeof.gdu },
    .sendZPdu apdu :: e.calls.map .assoc)

/-- The protocol versions that `recv_Z_PDU` accepts. -/
def acceptVersions (req : InitRequest) (res : InitResponse) : InitResponse :=
  { res with
    protocolVersion := protocolVersions.foldl (fun version bit =>
      if odrMaskGet req.protocolVersion bit then odrMaskSet version bit else version)
      res.protocolVersion }

/-- `recv_Z_PDU` of an init request. -/
def recvInit (p : ServerParams σ τ) (request : Apdu) (req : InitRequest) (s : ZServer σ τ) :
    ZServer σ τ × List ServerCall :=
  let created := s.total + p.zget.size .initResponse
  let walked := initFacilities p.service req 0 s.facilities
    (acceptVersions req p.zget.initResponse) s.app created
  let (response, r) := Facility.transfer p.sizeof request { body := .initResponse walked.answer }
    ({ app := walked.app, total := walked.total } : Running σ)
  let (s, sent) := ({ s with
    facilities := walked.facilities, app := r.app, total := r.total } : ZServer σ τ).sendZPdu p
      response
  (s, walked.calls ++ sent)

/-- `Z_Server::recv_Z_PDU`. -/
def recvZPdu (p : ServerParams σ τ) (request : Apdu) (s : ZServer σ τ) :
    ZServer σ τ × List ServerCall :=
  match request.body with
  | .initRequest req => s.recvInit p request req
  | _ =>
    let walked := recvFacilities p s.odrEncode s.odrDecode request 0 s.facilities s.app s.total
    let s := { s with facilities := walked.facilities, app := walked.app, total := walked.total }
    match walked.answer with
    | some response =>
      let (s, sent) := s.sendZPdu p response
      (s, walked.calls ++ sent)
    | none =>
      ({ s with alive := false },
        walked.calls ++ [.unhandled request.which, .deleteThis])

/-- `Z_Server::recv_GDU`. -/
def recvGdu (p : ServerParams σ τ) (gdu : Gdu) (s : ZServer σ τ) : ZServer σ τ × List ServerCall :=
  match gdu with
  | .z3950 request => s.recvZPdu p request
  | .http _ => ({ s with alive := false }, [.deleteThis])

/-- A server before its first request. Its facilities may hold anything that was not assigned. -/
structure Born (s : ZServer σ τ) (h : List ServerCall) : Prop where
  alive : s.alive = true
  unset : ∀ m, .retrieval m ∈ s.facilities → m.preferredMessageSize.isSet = false ∧
    m.maximumRecordSize.isSet = false ∧ m.odrEncode.isSet = false ∧ m.odrDecode.isSet = false
  silent : h = []

end ZServer

/-- One server under any sequence of GDUs, until it is deleted. -/
def zServer {σ τ : Type} (p : ServerParams σ τ) : Machine (ZServer σ τ) Gdu ServerCall where
  step s gdu := if s.alive then some (s.recvGdu p gdu) else none

end Yazpp
