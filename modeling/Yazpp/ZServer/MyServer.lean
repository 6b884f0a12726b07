import Yazpp.ZServer.Spec

/-!
# `yaz-my-server`

The embedding of the services in `src/yaz-my-server.cpp`, with `Yaz_USMARC::get_record` of
`src/yaz-marc-sample.cpp`: a search finds as many records as its term says, read as a number, and
the records are those of a table. The services read and write no member of their own, so the
application has no state. `z_ext_record_oid` and the tree of a query are YAZ's.

What is said here of `pack_records` holds of any services.
-/

set_option autoImplicit false

namespace Yazpp

open Yazpp.Lib

/-- What the server uses. `generalTerm` is the term of a query of type 1 that is one operand, with a
general term; `marcRecords` is the table; `external` is how much `z_ext_record_oid` and `odr_oiddup`
allocate for a record of a length. -/
structure MyEnv where
  sizeof : Sizeof
  generalTerm : Buf → Option Buf
  marcRecords : List Buf
  external : Nat → Nat

/-- `isspace`. -/
def isSpace (c : UInt8) : Bool := c = 32 ∨ 9 ≤ c ∧ c ≤ 13

/-- `isdigit`. -/
def isDigit (c : UInt8) : Bool := 48 ≤ c ∧ c ≤ 57

/-- The number that a run of digits is. -/
def digitsValue (digits : Buf) : Int := digits.foldl (fun n c => 10 * n + (c.toNat - 48)) 0

/-- `atoi`. -/
def atoi (str : Buf) : Int :=
  toInt32 (match str.dropWhile isSpace with
    | 45 :: rest => -digitsValue (rest.takeWhile isDigit)
    | 43 :: rest => digitsValue (rest.takeWhile isDigit)
    | rest => digitsValue (rest.takeWhile isDigit))

/-- What is in front of the end of a string. -/
def cString (str : Buf) : Buf := str.takeWhile (· ≠ 0)

namespace MyServer

variable (env : MyEnv)

/-- `Yaz_USMARC::get_record`, with its `size_t`. -/
def getRecord (position : Int) : Option Buf :=
  let position := toSize position
  if 1 ≤ position ∧ position ≤ env.marcRecords.length then env.marcRecords[position - 1]? else none

/-- `MyRetrieval::sr_search`. -/
def srSearch (req : SearchRequest) (res : SearchResponse) : Served Unit SearchResponse :=
  match env.generalTerm req.query with
  | some term =>
    { app := (), answer := { res with resultCount := atoi term }, grown := term.length + 1 }
  | none => { app := (), answer := res }

/-- `MyRetrieval::sr_record`. -/
def srRecord (position : Int) : Served Unit RecordAnswer :=
  match getRecord env position with
  | some record =>
    { app := ()
      answer := { record := { content := .databaseRecord (some (cString record)) } }
      grown := env.external (cString record).length }
  | none =>
    { app := ()
      answer := { record := createSurrogateDiagnostics 13 {} }
      grown := env.sizeof.surrogateDiagnostic none }

/-- The services of a `MyServer`. `sr_init`, `sr_present` and the extended services only log. -/
def service : Service Unit where
  srInit _ _ _ res := { app := (), answer := res }
  srSearch _ _ req res := srSearch env req res
  srPresent _ _ _ res := { app := (), answer := res }
  srRecord _ _ _ position _ _ := srRecord env position
  illService _ _ _ _ res := { app := (), answer := res }
  updateService _ _ _ _ res := { app := (), answer := res }
  updateService0 _ _ _ _ res := { app := (), answer := res }

/-- A `Z_Server` with these services. -/
def params {τ : Type} (zget : Zget) (odr : OdrEncode Gdu τ) : ServerParams Unit τ where
  sizeof := env.sizeof
  zget := zget
  odr := odr
  service := service env

/-- What `MyServer::sessionNotify` makes. The members of the facility are not assigned. -/
def sessionNotify {τ : Type} (odr : OdrEncode Gdu τ) (m : Retrieval) (encode decode : Odr) :
    ZServer Unit τ where
  assoc := ZAssoc.new odr
  odrEncode := encode
  odrDecode := decode
  facilities := [.retrieval m, .ill, .update]
  app := ()
  total := 0

/-- A session that goes on. -/
structure Serves {τ : Type} (s : ZServer Unit τ) : Prop where
  alive : s.alive = true
  facilities : ∃ m, s.facilities = [.retrieval m, .ill, .update]

end MyServer

/-! ## What `pack_records` packs -/

/-- A record, or a diagnostic in its place. -/
def NamePlusRecord.Present (r : NamePlusRecord) : Prop := r.content ≠ .databaseRecord none

/-- Records that are there. -/
def Records.Present : Records → Prop
  | .databaseOrSurDiagnostics records => ∀ r ∈ records, r.Present
  | _ => True

/-- What has been packed is there. -/
structure Packing.Present {σ : Type} (p : Packing σ) : Prop where
  list : ∀ r ∈ p.list, r.Present
  diagnostics : ∀ records, p.diagnostics = some records → records.Present

/-- The diagnostics of the service are there. -/
def Service.Presents {σ : Type} (svc : Service σ) : Prop :=
  ∀ k app set position format comp records,
    (svc.srRecord k app set position format comp).answer.diagnostics = some records →
    records.Present

section Pack

variable {σ : Type} {sz : Sizeof} {svc : Service σ} {k : Nat} {m : Retrieval} {req : PackRequest}

theorem present_surrogate (condition : Int) (r : NamePlusRecord) :
    (createSurrogateDiagnostics condition r).Present := nofun

/-- A record that the service did not give is not missed. -/
theorem fetchRecord_present {recno : Int} {r : Running σ}
    (listed : (fetchRecord sz svc k m req recno r).answer.diagnostics = none) :
    (fetchRecord sz svc k m req recno r).answer.record.Present := by
  unfold fetchRecord at listed ⊢
  dsimp only at listed ⊢
  split
  · exact present_surrogate 14 _
  · next there =>
    rw [if_neg there] at listed
    exact fun missing => there ⟨listed, missing⟩

/-- Diagnostics that take the place of the list are the service's. -/
theorem fetchRecord_failed (presents : svc.Presents) {recno : Int} {r : Running σ}
    {records : Records}
    (failed : (fetchRecord sz svc k m req recno r).answer.diagnostics = some records) :
    records.Present := by
  unfold fetchRecord at failed
  dsimp only at failed
  split at failed
  · cases failed
  · exact presents _ _ _ _ _ _ _ failed

/-- One turn of the loop packs what is there. -/
theorem packOne_present (presents : svc.Presents) {recno : Int} {p : Packing σ}
    (present : p.Present) : (packOne sz svc k m req recno p).1.Present := by
  have listed : (fetchRecord sz svc k m req recno p.run).answer.diagnostics = none → _ :=
    fetchRecord_present
  have failed : ∀ records,
      (fetchRecord sz svc k m req recno p.run).answer.diagnostics = some records → _ :=
    fun _ => fetchRecord_failed presents
  have snoc : ∀ record : NamePlusRecord, record.Present → ∀ r ∈ p.list ++ [record], r.Present := by
    intro record hrecord r hr
    rcases List.mem_append.mp hr with hr | hr
    · exact present.list r hr
    · exact List.mem_singleton.mp hr ▸ hrecord
  have turn := packOne_turn sz svc k m req recno p
  generalize packOne sz svc k m req recno p = next at turn
  cases turn with
  | failed hfailed hlist _ hdiagnostics =>
    exact ⟨hlist ▸ present.list, fun records hr =>
      failed _ ((hfailed.trans hdiagnostics.symm).trans hr)⟩
  | partly _ _ hlist _ hdiagnostics =>
    exact ⟨hlist ▸ present.list, hdiagnostics ▸ present.diagnostics⟩
  | kept hlisted _ hlist _ hdiagnostics =>
    exact ⟨hlist ▸ snoc _ (listed hlisted), hdiagnostics ▸ present.diagnostics⟩
  | replaced _ _ hlist _ hdiagnostics =>
    exact ⟨hlist ▸ snoc _ (present_surrogate _ _), hdiagnostics ▸ present.diagnostics⟩

/-- The loop of `pack_records` packs what is there. -/
theorem packLoop_present (presents : svc.Presents) {left : Nat} {recno : Int} {p : Packing σ}
    (present : p.Present) : (packLoop sz svc k m req left recno p).Present := by
  induction left generalizing recno p with
  | zero => exact present
  | succ left ih =>
    have one : (packOne sz svc k m req recno p).1.Present := packOne_present presents present
    unfold packLoop
    generalize packOne sz svc k m req recno p = next at one
    obtain ⟨q, more⟩ := next
    cases more with
    | true => exact ih one
    | false => exact one

/-- **`pack_records` lists no record that is not there.** -/
theorem packRecords_present (presents : svc.Presents) {start : Int} {r : Running σ} :
    (packRecords sz svc k m req start r).records.Present := by
  have present : (packRecords sz svc k m req start r).Present :=
    packLoop_present presents ⟨fun _ h => (nomatch h), fun _ h => (nomatch h)⟩
  unfold Packing.records
  cases hd : (packRecords sz svc k m req start r).diagnostics with
  | none => exact present.list
  | some records => exact present.diagnostics records hd

end Pack

/-! ## What a session answers -/

namespace MyServer

variable {env : MyEnv} {τ : Type} {zget : Zget} {odr : OdrEncode Gdu τ} {s : ZServer Unit τ}

theorem presents : (service env).Presents := by
  intro k app set position format comp records hrecords
  simp only [service, srRecord] at hrecords
  split at hrecords <;> cases hrecords

/-- The response to an init request. -/
def accepted (zget : Zget) (req : InitRequest) : InitResponse :=
  Facility.acceptExtendedServices req (Facility.acceptExtendedServices req
    (Retrieval.acceptOptions req (ZServer.acceptVersions req zget.initResponse)))

/-- An init is answered, with its reference id. -/
theorem serves_init (serves : Serves s) {request : Apdu} {req : InitRequest}
    (hbody : request.body = .initRequest req) :
    Serves (s.recvGdu (params env zget odr) (.z3950 request)).1 ∧
      sent (s.recvGdu (params env zget odr) (.z3950 request)).2 =
        [{ referenceId := request.referenceId, body := .initResponse (accepted zget req) }] := by
  obtain ⟨m, hfacilities⟩ := serves.facilities
  have hid : request.referenceIdP = request.referenceId := by
    rw [Apdu.referenceIdP, Apdu.which, hbody]
    rfl
  constructor
  · simp only [ZServer.recvGdu, ZServer.recvZPdu, hbody, ZServer.recvInit, hfacilities]
    exact ⟨serves.alive, _, rfl⟩
  · simp only [ZServer.recvGdu, ZServer.recvZPdu, hbody, ZServer.recvInit, sent_append,
      ZServer.sent_initFacilities, ZServer.sent_sendZPdu, List.nil_append, hfacilities,
      Facility.transfer, Apdu.transferReferenceId, hid]
    rfl

/-- A search is answered. -/
theorem serves_search (serves : Serves s) {request : Apdu} {sreq : SearchRequest}
    (hbody : request.body = .searchRequest sreq) :
    Serves (s.recvGdu (params env zget odr) (.z3950 request)).1 ∧
      ∃ response res, sent (s.recvGdu (params env zget odr) (.z3950 request)).2 = [response] ∧
        response.body = .searchResponse res := by
  obtain ⟨m, hfacilities⟩ := serves.facilities
  have other : ∀ req, request.body ≠ .initRequest req := by
    rw [hbody]
    exact nofun
  constructor
  · rw [ZServer.recvGdu, ZServer.recvZPdu_other _ other]
    simp only [hfacilities, ZServer.recvFacilities, Facility.recv, hbody, Facility.recvSearch]
    exact ⟨serves.alive, _, rfl⟩
  · rw [ZServer.recvGdu, ZServer.recvZPdu_other _ other]
    simp only [hfacilities, ZServer.recvFacilities, Facility.recv, hbody, Facility.recvSearch,
      sent_append, ZServer.sent_tagged, ZServer.sent_sendZPdu, List.nil_append]
    exact ⟨_, _, rfl, rfl⟩

/-- A present is answered, with records that are there. -/
theorem serves_present (unset : zget.presentResponse.records = none) (serves : Serves s)
    {request : Apdu} {preq : PresentRequest} (hbody : request.body = .presentRequest preq) :
    Serves (s.recvGdu (params env zget odr) (.z3950 request)).1 ∧
      ∃ response res, sent (s.recvGdu (params env zget odr) (.z3950 request)).2 = [response] ∧
        response.body = .presentResponse res ∧
        ∀ records, res.records = some records → records.Present := by
  obtain ⟨m, hfacilities⟩ := serves.facilities
  have other : ∀ req, request.body ≠ .initRequest req := by
    rw [hbody]
    exact nofun
  constructor
  · rw [ZServer.recvGdu, ZServer.recvZPdu_other _ other]
    simp only [hfacilities, ZServer.recvFacilities, Facility.recv, hbody, Facility.recvPresent]
    exact ⟨serves.alive, _, rfl⟩
  · rw [ZServer.recvGdu, ZServer.recvZPdu_other _ other]
    simp only [hfacilities, ZServer.recvFacilities, Facility.recv, hbody, Facility.recvPresent,
      sent_append, ZServer.sent_tagged, ZServer.sent_sendZPdu, List.nil_append]
    refine ⟨_, _, rfl, rfl, fun records hrecords => ?_⟩
    have fetched : (params env zget odr).service.srPresent = fun _ _ _ res =>
      { app := (), answer := res } := rfl
    rw [fetched] at hrecords
    simp only [params, unset, if_true, fetchViaPresent, Option.some.injEq] at hrecords
    exact hrecords ▸ packRecords_present presents

/-- A request that no facility takes ends the session, and nothing is answered. -/
theorem serves_other (serves : Serves s) {request : Apdu} {which : ApduType} {octets : Buf}
    (hbody : request.body = .other which octets) :
    (s.recvGdu (params env zget odr) (.z3950 request)).1.alive = false ∧
      sent (s.recvGdu (params env zget odr) (.z3950 request)).2 = [] := by
  obtain ⟨m, hfacilities⟩ := serves.facilities
  have other : ∀ req, request.body ≠ .initRequest req := by
    rw [hbody]
    exact nofun
  rw [ZServer.recvGdu, ZServer.recvZPdu_other _ other]
  simp only [hfacilities, ZServer.recvFacilities, Facility.recv, hbody]
  exact ⟨trivial, rfl⟩

end MyServer

end Yazpp
