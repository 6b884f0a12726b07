import Yazpp.IrAssoc.Model
import Yazpp.Lib.Machine
import Yazpp.ZAssoc.Model
import Yazpp.ZServer.Model

/-!
# `IR_Assoc`: requests and responses

The embedding of the rest of `src/yaz-ir-assoc.cpp`: what is set for the requests, the requests, and
what becomes of a PDU that is received. The `recv` functions of a response are virtual and do
nothing here; the ones of a request are those of `IR_Assoc`, which answer with what `zget_APDU`
makes.

What the server reads of a request is an `Apdu`; beside it a request has the names of the databases
and the strings in `otherInfo` (`IrPdu`). YAZ's functions are in `IrEnv`.

Left out: `client`, which opens another connection, and the destructor.
-/

set_option autoImplicit false

namespace Yazpp

open Yazpp.Lib

/-- The OIDs that `set_otherInformationString` is called with. -/
inductive Userinfo
  | proxy
  | cookie
deriving DecidableEq, Repr

/-- A Z39.50 PDU as `IR_Assoc` makes it. -/
structure IrPdu where
  apdu : Apdu
  databaseNames : List CString := []
  otherInfo : List (Userinfo × CString) := []
deriving DecidableEq, Repr

/-- What `IR_Assoc` uses of YAZ: the APDUs of `zget_APDU`, the octets of a
`Z_DeleteResultSetRequest` for one result set or for all, `yaz_string_to_oid_odr`, and the codec. -/
structure IrEnv (τ : Type) where
  initRequest : InitRequest
  searchRequest : SearchRequest
  presentRequest : PresentRequest
  deleteResultSetRequest : Option CString → Buf
  initResponse : InitResponse
  searchResponse : SearchResponse
  presentResponse : PresentResponse
  stringToOid : CString → Option Oid
  odr : OdrEncode IrPdu τ
  decode : Buf → Option Gdu

/-- `m_lastReceived`: what was set, or the `which` of an APDU. -/
inductive LastReceived
  | value (v : Int)
  | apdu (which : ApduType)
deriving DecidableEq, Repr

/-- `IR_Assoc`. -/
structure IrClient (τ : Type) extends IrAssoc where
  assoc : ZAssoc τ
  preferredRecordSyntax : Option CString := none
  elementSetNames : Option CString := none
  lastReceived : LastReceived := .value 0
  host : Option CString := none
  proxy : Option CString := none
  cookie : Option CString := none
deriving DecidableEq, Repr

/-- What an `IR_Assoc` does: its virtual functions, its `Z_Assoc`, what a call returns, and a PDU
that does not decode. -/
inductive IrCall
  | recvInitRequest (req : InitRequest)
  | recvInitResponse (res : InitResponse)
  | recvSearchRequest (req : SearchRequest)
  | recvSearchResponse (res : SearchResponse)
  | recvPresentRequest (req : PresentRequest)
  | recvPresentResponse (res : PresentResponse)
  | recvExtendedServicesResponse (res : ExtendedServicesResponse)
  | sendZPdu (pdu : IrPdu)
  | assoc (call : ZCall IrPdu)
  | returned (res : Int)
  | undecoded (buf : Buf)
deriving DecidableEq, Repr

/-- A call on an `IR_Assoc`. -/
inductive IrInput
  | setDatabaseNames (dblist sep : CString)
  | setPreferredRecordSyntax (syntaxName : Option CString)
  | setElementSetName (elementSetName : Option CString)
  | setProxy (str : Option CString)
  | setCookie (str : Option CString)
  | setLastReceived (lastReceived : Int)
  | sendInitRequest (refId : Option CString)
  | sendSearchRequest (query : Option Buf) (resultSetId refId : Option CString)
  | sendPresentRequest (start number : Int) (resultSetId refId : Option CString)
  | sendDeleteResultSetRequest (resultSetId refId : Option CString)
deriving DecidableEq, Repr

namespace IrClient

variable {τ : Type}

/-- A string, unless it is null or empty. -/
def nonempty (str : Option CString) : Option CString := str.filter fun s => s.chars ≠ []

/-- `send_Z_PDU`, on a connection that takes it. -/
def sendZPdu (env : IrEnv τ) (pdu : IrPdu) (c : IrClient τ) : IrClient τ × List IrCall × Int :=
  let e := c.assoc.sendGdu env.odr pdu 0
  ({ c with assoc := e.assoc }, .sendZPdu pdu :: e.calls.map .assoc, e.ret)

/-- What a request gets in `otherInfo`, with or without the host behind a proxy. -/
def otherInfo (withProxy : Bool) (c : IrClient τ) : List (Userinfo × CString) :=
  (match withProxy, c.proxy, c.host with
    | true, some _, some host => [(.proxy, host)]
    | _, _, _ => []) ++
  (match c.cookie with
    | some cookie => [(.cookie, cookie)]
    | none => [])

/-- `getRefID`. -/
def getRefID (str : Option CString) : Option Buf := str.map fun s => s.chars

/-- The options that `send_initRequest` asks for. -/
def initOptions : List Nat :=
  [optionSearch, optionPresent, optionNamedResultSets, optionTriggerResourceCtrl, optionScan,
    optionSort, optionExtendedServices, optionDelSet]

/-- `IR_Assoc::send_initRequest`. -/
def sendInitRequest (env : IrEnv τ) (refId : Option CString) (c : IrClient τ) :
    IrClient τ × List IrCall × Int :=
  let req :=
    { env.initRequest with
      options := initOptions.foldl odrMaskSet env.initRequest.options
      protocolVersion := protocolVersions.foldl odrMaskSet env.initRequest.protocolVersion }
  c.sendZPdu env
    { apdu := { referenceId := getRefID refId, body := .initRequest req }
      otherInfo := c.otherInfo true }

/-- What the preferred record syntax makes of the one of `zget_APDU`. -/
def recordSyntax (env : IrEnv τ) (default_ : Option Oid) (c : IrClient τ) : Option Oid :=
  match nonempty c.preferredRecordSyntax with
  | some name => env.stringToOid name
  | none => default_

/-- `IR_Assoc::send_searchRequest`; `query` is what `get_Z_Query` gives. -/
def sendSearchRequest (env : IrEnv τ) (query : Option Buf) (resultSetId refId : Option CString)
    (c : IrClient τ) : IrClient τ × List IrCall × Int :=
  match query with
  | none => (c, [], -1)
  | some query =>
    let req :=
      { env.searchRequest with
        query := query
        preferredRecordSyntax := c.recordSyntax env env.searchRequest.preferredRecordSyntax
        resultSetName :=
          (resultSetId.map fun s => s.chars).getD env.searchRequest.resultSetName }
    c.sendZPdu env
      { apdu := { referenceId := getRefID refId, body := .searchRequest req }
        databaseNames := c.databaseNames
        otherInfo := c.otherInfo false }

/-- `IR_Assoc::send_presentRequest`. -/
def sendPresentRequest (env : IrEnv τ) (start number : Int) (resultSetId refId : Option CString)
    (c : IrClient τ) : IrClient τ × List IrCall × Int :=
  let req :=
    { env.presentRequest with
      resultSetStartPoint := start
      numberOfRecordsRequested := number
      preferredRecordSyntax := c.recordSyntax env env.presentRequest.preferredRecordSyntax
      recordComposition :=
        match c.elementSetNames with
        | some name => some (.simple name.chars)
        | none => env.presentRequest.recordComposition
      resultSetId := (resultSetId.map fun s => s.chars).getD env.presentRequest.resultSetId }
  c.sendZPdu env
    { apdu := { referenceId := getRefID refId, body := .presentRequest req }
      otherInfo := c.otherInfo false }

/-- `IR_Assoc::send_deleteResultSetRequest`. -/
def sendDeleteResultSetRequest (env : IrEnv τ) (resultSetId refId : Option CString)
    (c : IrClient τ) : IrClient τ × List IrCall × Int :=
  c.sendZPdu env
    { apdu :=
        { referenceId := getRefID refId
          body := .other .deleteResultSetRequest (env.deleteResultSetRequest resultSetId) }
      otherInfo := c.otherInfo true }

/-- A call that returns an `int`. -/
def call (next : IrClient τ × List IrCall × Int) : IrClient τ × List IrCall :=
  (next.1, next.2.1 ++ [.returned next.2.2])

/-- A `recv` function of a request: the default response. -/
def answer (env : IrEnv τ) (body : ApduBody) (c : IrClient τ) : IrClient τ × List IrCall :=
  let (c, calls, _) := c.sendZPdu env { apdu := { body := body } }
  (c, calls)

/-- `IR_Assoc::recv_Z_PDU`. -/
def recvZPdu (env : IrEnv τ) (apdu : Apdu) (c : IrClient τ) : IrClient τ × List IrCall :=
  let c := { c with lastReceived := .apdu apdu.which }
  match apdu.body with
  | .initResponse res => (c, [.recvInitResponse res])
  | .initRequest req =>
    let (c, calls) := c.answer env (.initResponse env.initResponse)
    (c, .recvInitRequest req :: calls)
  | .searchRequest req =>
    let (c, calls) := c.answer env (.searchResponse env.searchResponse)
    (c, .recvSearchRequest req :: calls)
  | .searchResponse res => (c, [.recvSearchResponse res])
  | .presentRequest req =>
    let (c, calls) := c.answer env (.presentResponse env.presentResponse)
    (c, .recvPresentRequest req :: calls)
  | .presentResponse res => (c, [.recvPresentResponse res])
  | .extendedServicesResponse res => (c, [.recvExtendedServicesResponse res])
  | .extendedServicesRequest _ | .other _ _ => (c, [])

/-- `Z_Assoc::recv_PDU` and `IR_Assoc::recv_GDU`. -/
def recvPdu (env : IrEnv τ) (buf : Buf) (c : IrClient τ) : IrClient τ × List IrCall :=
  match env.decode buf with
  | some (.z3950 apdu) => c.recvZPdu env apdu
  | some (.http _) => (c, [])
  | none => (c, [.undecoded buf])

/-- One call; `none` is undefined. -/
def perform (env : IrEnv τ) (c : IrClient τ) : IrInput → Option (IrClient τ × List IrCall)
  | .setDatabaseNames dblist sep =>
    match c.splitDatabaseNames dblist sep with
    | .ok assoc => some ({ c with toIrAssoc := assoc }, [])
    | .error _ => none
  | .setPreferredRecordSyntax name => some ({ c with preferredRecordSyntax := nonempty name }, [])
  | .setElementSetName name => some ({ c with elementSetNames := nonempty name }, [])
  | .setProxy str => some ({ c with proxy := str }, [])
  | .setCookie str => some ({ c with cookie := str }, [])
  | .setLastReceived v => some ({ c with lastReceived := .value v }, [])
  | .sendInitRequest refId => some (call (c.sendInitRequest env refId))
  | .sendSearchRequest query resultSetId refId =>
    some (call (c.sendSearchRequest env query resultSetId refId))
  | .sendPresentRequest start number resultSetId refId =>
    some (call (c.sendPresentRequest env start number resultSetId refId))
  | .sendDeleteResultSetRequest resultSetId refId =>
    some (call (c.sendDeleteResultSetRequest env resultSetId refId))

end IrClient

/-- An `IR_Assoc` with one connection: the calls of its application, and the PDUs it receives. -/
def irClient {τ : Type} (env : IrEnv τ) : Machine (IrClient τ) (IrInput ⊕ Buf) IrCall where
  step c i :=
    match i with
    | .inl i => c.perform env i
    | .inr buf => some (c.recvPdu env buf)

end Yazpp
