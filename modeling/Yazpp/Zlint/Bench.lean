import Yazpp.ZServer.MyServer
import Yazpp.Zlint.Faults

/-!
# zlint and `yaz-my-server`

The two programs of the repository, with one connection at a time between them. What zlint sends is
on its way to a session of the server, what this sends is on its way back, and both are taken from
their queues at any time; the connection may be lost at any time, with what is on it, also while
zlint sends a request, and zlint may time out. The requests that zlint makes can be encoded. The
connection carries APDUs: that the layers under `Z_Assoc` give to each side what the other sent, in
order, is in `IrAssoc.EndToEnd`.

A session that ends has closed its side; zlint is told when the connection is lost.
-/

set_option autoImplicit false

namespace Yazpp

open Yazpp.Lib

/-- The two programs, and what they use of YAZ: what `zget_APDU` gives to zlint for a search and a
present request, and the OID of `yaz_oid_recsyn_usmarc`; and what is behind the members that a new
session does not assign. -/
structure BenchEnv (τ : Type) where
  lint : SuiteEnv
  my : MyEnv
  zget : Zget
  odr : OdrEncode Gdu τ
  unset : Retrieval
  odrEncode : Odr
  odrDecode : Odr
  searchRequest : SearchRequest
  presentRequest : PresentRequest
  usmarc : Oid

/-- `Z_NamePlusRecord`, as zlint reads it. The records of the server are in USMARC. -/
def NamePlusRecord.lint (usmarc : Oid) (r : NamePlusRecord) : LintRecord :=
  match r.content with
  | .databaseRecord record => .databaseRecord (record.map fun _ => usmarc)
  | .surrogateDiagnostic .. => .surrogateDiagnostic

/-- `Z_Records`, as zlint reads it. -/
def Records.lint (usmarc : Oid) : Records → LintRecords
  | .databaseOrSurDiagnostics records => .dbosd (records.map fun r => some (r.lint usmarc))
  | .nonSurrogateDiagnostic .. => .nsd
  | .multipleNonSurDiagnostics _ => .multipleNsd

/-- An init response, as zlint reads it. The server negotiates no character set. -/
def InitResponse.lint (referenceId : Option Buf) (res : InitResponse) : LintInitResponse where
  referenceId := referenceId
  protocolVersion := res.protocolVersion
  options := res.options
  preferredMessageSize := res.preferredMessageSize
  maximumRecordSize := res.maximumRecordSize
  result := some res.result

/-- What zlint gets. -/
def Apdu.lint (usmarc : Oid) (apdu : Apdu) : SuiteGdu :=
  match apdu.body with
  | .initResponse res => .initResponse (res.lint apdu.referenceId)
  | .searchResponse res =>
    .searchResponse (res.records.map (Records.lint usmarc)) (some res.resultCount)
  | .presentResponse res => .presentResponse (res.records.map (Records.lint usmarc))
  | _ => .other

namespace BenchEnv

variable {τ : Type}

def params (e : BenchEnv τ) : ServerParams Unit τ := MyServer.params e.my e.zget e.odr

/-- A new session. -/
def session (e : BenchEnv τ) : ZServer Unit τ :=
  MyServer.sessionNotify e.odr e.unset e.odrEncode e.odrDecode

/-- What the server gets. It does not look into a sort or a scan request. -/
def apdu (e : BenchEnv τ) : LintRequest → Apdu
  | .init request => { referenceId := request.referenceId, body := .initRequest request.init }
  | .search _ rpn => { body := .searchRequest { e.searchRequest with query := rpn } }
  | .present start number syntaxOid =>
    { body := .presentRequest { e.presentRequest with
        resultSetStartPoint := start
        numberOfRecordsRequested := number
        preferredRecordSyntax := syntaxOid } }
  | .sort .. => { body := .other .sortRequest [] }
  | .scan .. => { body := .other .scanRequest [] }

/-- One request: the session behind it, and what is on the way back. -/
def serve (e : BenchEnv τ) (request : LintRequest) (s : ZServer Unit τ) :
    ZServer Unit τ × List SuiteGdu :=
  let (s, calls) := s.recvGdu e.params (.z3950 (e.apdu request))
  (s, (sent calls).map (Apdu.lint e.usmarc))

end BenchEnv

/-- A connection: the session, and what is on the way to it and back. -/
structure LintLink (τ : Type) where
  server : ZServer Unit τ
  requests : List LintRequest := []
  responses : List SuiteGdu := []

/-- Both programs; there is no connection while zlint waits for one. -/
structure Bench (τ : Type) where
  zlint : Zlint SuiteTest
  link : Option (LintLink τ) := none

/-- What may happen. `fails` is the request of zlint in which the connection is lost, if any, of
those that it sends meanwhile. -/
inductive BenchInput
  | connect (fails : Option Nat)
  | serve
  | deliver (fails : Option Nat)
  | lose
  | timeout
deriving DecidableEq, Repr

/-- What becomes of the requests of zlint, of which there are two at most in one notification. -/
def outcomesOf : Option Nat → List SendOutcome
  | none => [.sent, .sent]
  | some n => List.replicate n .sent ++ [.lost]

/-- The connection is given up. -/
def ZlintCall.drops {ρ φ : Type} : ZlintCall ρ φ → Bool
  | .client | .close => true
  | _ => false

/-- What is sent. -/
def ZlintCall.request? {ρ φ : Type} : ZlintCall ρ φ → Option ρ
  | .prints _ (.sent request) => some request
  | _ => none

namespace Bench

variable {τ : Type}

/-- zlint has done something while there is a connection. -/
def follow (l : LintLink τ)
    (next : Zlint SuiteTest × List (ZlintCall LintRequest SuiteFault)) :
    Bench τ × List (ZlintCall LintRequest SuiteFault) :=
  ({ zlint := next.1
     link := if next.2.any ZlintCall.drops then none
       else some { l with requests := l.requests ++ next.2.filterMap ZlintCall.request? } },
    next.2)

/-- zlint is told something when there is no connection any more. -/
def abandon (next : Zlint SuiteTest × List (ZlintCall LintRequest SuiteFault)) :
    Bench τ × List (ZlintCall LintRequest SuiteFault) :=
  ({ zlint := next.1 }, next.2)

def perform (e : BenchEnv τ) (b : Bench τ) :
    BenchInput → Option (Bench τ × List (ZlintCall LintRequest SuiteFault))
  | .connect fails =>
    match b.link, b.zlint.rest with
    | none, _ :: _ =>
      some (follow { server := e.session }
        (b.zlint.connectNotify (SuiteTest.ops e.lint) (outcomesOf fails)))
    | _, _ => none
  | .serve =>
    match b.link with
    | some ⟨server, request :: requests, responses⟩ =>
      if server.alive then
        let (server, more) := e.serve request server
        some ({ b with link := some ⟨server, requests, responses ++ more⟩ }, [])
      else none
    | _ => none
  | .deliver fails =>
    match b.link with
    | some ⟨server, requests, gdu :: responses⟩ =>
      some (follow ⟨server, requests, responses⟩
        (b.zlint.recvGdu (SuiteTest.ops e.lint) gdu (outcomesOf fails)))
    | _ => none
  | .lose => some (abandon (b.zlint.failNotify (SuiteTest.ops e.lint)))
  -- no test sends anything when it times out
  | .timeout => some (abandon (b.zlint.timeoutNotify (SuiteTest.ops e.lint) []))

/-- zlint with a host, and no connection yet. -/
def Start (b : Bench τ) (h : List (ZlintCall LintRequest SuiteFault)) : Prop :=
  Zlint.Started SuiteTest.all b.zlint h ∧ b.link = none

end Bench

/-- The two programs under any order of events, until zlint comes to a fault. -/
def bench {τ : Type} (e : BenchEnv τ) :
    Machine (Bench τ) BenchInput (ZlintCall LintRequest SuiteFault) where
  step b i := if b.zlint.faulted then none else b.perform e i

end Yazpp
