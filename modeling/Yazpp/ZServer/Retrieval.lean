import Yazpp.CInt
import Yazpp.ZServer.Apdu

/-!
# `Yaz_Facility_Retrieval`, function by function

The embedding of `src/yaz-z-server-sr.cpp`. The service behind the facility (`sr_init`,
`sr_search`, `sr_present`, `sr_record`) is the application's: it is a parameter (`Service`), any
functions on an arbitrary state of the application. A service allocates what it answers on the
encoding stream, so each answer comes with the number of octets by which `odr_total` grew. It
answers with the members of a response; the reference id is not one of them.

The facility has no constructor. Its members hold anything before they are assigned, and `isSet`,
which the code does not read, says whether they were (`Member`). Every use that the facility makes
of its members is in the calls, with the members as they are then.

The stream itself is in the model as `odr_total`, the number of octets allocated on it since its
last reset. The sizes of the structures are the platform's (`Sizeof`), and all positions, counts and
totals are converted to `int` where the source has an `int`.
-/

set_option autoImplicit false

namespace Yazpp

/-- An `ODR` handle. -/
abbrev Odr := Nat

/-- A data member: what it holds, and whether it was ever assigned. -/
structure Member (α : Type) where
  value : α
  isSet : Bool := false
deriving DecidableEq, Repr

/-- An assignment. -/
def Member.assign {α : Type} (value : α) : Member α where
  value := value
  isSet := true

/-- `Yaz_Facility_Retrieval`. -/
structure Retrieval where
  preferredMessageSize : Member Int
  maximumRecordSize : Member Int
  odrEncode : Member Odr
  odrDecode : Member Odr
deriving DecidableEq, Repr

/-- What the facility uses its members for: the services, which may ask for the streams, and the
comparisons of `pack_records`. -/
inductive Use
  | srInit
  | srSearch
  | srPresent
  | srRecord (position : Int)
  | compareSizes
deriving DecidableEq, Repr

/-- What a facility does that is not in its answer. -/
inductive FacilityCall
  | odrMalloc (size : Nat)
  | uses (use : Use) (members : Retrieval)
  | illService
  | updateService
  | updateService0
deriving DecidableEq, Repr

/-- The sizes of what is allocated. `surrogate` is the part of a surrogate diagnostic that does not
depend on the name of the database. -/
structure Sizeof where
  records : Nat
  recordList : Nat
  pointer : Nat
  namePlusRecord : Nat
  bool : Nat
  odrInt : Nat
  odrOct : Nat
  gdu : Nat
  surrogate : Nat
deriving DecidableEq, Repr

/-- What a service leaves: the application, its answer, and the growth of `odr_total`. -/
structure Served (σ α : Type) where
  app : σ
  answer : α
  grown : Nat := 0

/-- What `sr_record` leaves in its two arguments: the record, and a non-surrogate diagnostic when it
made one. -/
structure RecordAnswer where
  record : NamePlusRecord
  diagnostics : Option Records := none
deriving DecidableEq, Repr

/-- The virtual functions of the facilities. The first argument is the place of the facility in the
server's list. -/
structure Service (σ : Type) where
  srInit : Nat → σ → InitRequest → InitResponse → Served σ InitResponse
  srSearch : Nat → σ → SearchRequest → SearchResponse → Served σ SearchResponse
  srPresent : Nat → σ → PresentRequest → PresentResponse → Served σ PresentResponse
  srRecord : Nat → σ → Buf → Int → Option Oid → Option RecordComposition → Served σ RecordAnswer
  illService : Nat → σ → ExtendedServicesRequest → Buf → ExtendedServicesResponse →
    Served σ ExtendedServicesResponse
  updateService : Nat → σ → ExtendedServicesRequest → Buf → ExtendedServicesResponse →
    Served σ ExtendedServicesResponse
  updateService0 : Nat → σ → ExtendedServicesRequest → Buf → ExtendedServicesResponse →
    Served σ ExtendedServicesResponse

/-- What a function of the facility leaves, besides its answer: the application, `odr_total`, and
the calls. -/
structure Running (σ : Type) where
  app : σ
  total : Nat
  calls : List FacilityCall := []

namespace Running

variable {σ : Type}

/-- `odr_malloc`. -/
def malloc (size : Nat) (r : Running σ) : Running σ :=
  { r with total := r.total + size, calls := r.calls ++ [.odrMalloc size] }

/-- A use of the members. -/
def use (use : Use) (members : Retrieval) (r : Running σ) : Running σ :=
  { r with calls := r.calls ++ [.uses use members] }

/-- A service has run. -/
def serve {α : Type} (served : Served σ α) (r : Running σ) : Running σ :=
  { r with app := served.app, total := r.total + served.grown }

end Running

/-- The octets that `create_surrogateDiagnostics` allocates. -/
def Sizeof.surrogateDiagnostic (sz : Sizeof) (databaseName : Option Buf) : Nat :=
  sz.surrogate + (databaseName.map fun name => name.length + 1).getD 0

/-- `Z_ServerUtility::create_surrogateDiagnostics`, on a record whose `databaseName` is given back
to it. -/
def createSurrogateDiagnostics (condition : Int) (r : NamePlusRecord) : NamePlusRecord :=
  { r with content := .surrogateDiagnostic condition [] }

/-! ## `pack_records` -/

/-- What `pack_records` works on: the list so far, `*next`, `*pres`, `dumped_records`, and the
diagnostics that take the place of the list. -/
structure Packing (σ : Type) where
  run : Running σ
  list : List NamePlusRecord := []
  next : Int := 0
  pres : Int := presentSuccess
  dumped : Int := 0
  diagnostics : Option Records := none

/-- The arguments of `pack_records` that its loop reads. -/
structure PackRequest where
  resultSetName : Buf
  toget : Int
  comp : Option RecordComposition
  format : Option Oid
deriving DecidableEq, Repr

/-- The arguments that `fetch_via_present` gives to `pack_records`, less the position. -/
def PresentRequest.packRequest (preq : PresentRequest) : PackRequest where
  resultSetName := preq.resultSetId
  toget := toInt32 preq.numberOfRecordsRequested
  comp := preq.recordComposition
  format := preq.preferredRecordSyntax

/-- A record as it is before its size is looked at. `before` is `odr_total` before `sr_record`. -/
structure Fetched (σ : Type) where
  run : Running σ
  before : Nat
  answer : RecordAnswer

/-- What the sizes say of a record. -/
inductive Verdict
  | keep
  | partialReply
  | replace (condition : Int)
deriving DecidableEq, Repr

section Pack

variable {σ : Type} (sz : Sizeof) (svc : Service σ) (k : Nat) (m : Retrieval) (req : PackRequest)

/-- The loop of `pack_records` up to the snapshot of `odr_total`: the record at `recno`, and the
diagnostic 14 where the service gave none. -/
def fetchRecord (recno : Int) (r : Running σ) : Fetched σ :=
  let r := r.malloc sz.namePlusRecord
  let served := svc.srRecord k r.app req.resultSetName recno req.format req.comp
  let r' := (r.use (.srRecord recno) m).serve served
  if served.answer.diagnostics = none ∧
      served.answer.record.content = .databaseRecord none then
    let missing := { served.answer.record with databaseName := none }
    { run := r'.malloc (sz.surrogateDiagnostic none)
      before := r.total
      answer := { record := createSurrogateDiagnostics 14 missing } }
  else { run := r', before := r.total, answer := served.answer }

/-- The comparisons of `pack_records`, on `odr_total` and `dumped_records`. -/
def packVerdict (total : Nat) (dumped : Int) : Verdict :=
  let totalLength := toInt32 (total - dumped)
  let thisLength := toInt32 (total - totalLength)
  if m.preferredMessageSize.value < toInt32 (thisLength + totalLength) then
    -- record is small enough, really
    if thisLength ≤ m.preferredMessageSize.value then .partialReply
    -- too big entirely
    else if m.maximumRecordSize.value ≤ thisLength then .replace 17
    -- record can only be fetched by itself
    else if 1 < req.toget then .replace 16
    else .keep
  else .keep

/-- One turn of the loop of `pack_records`, and whether there is another. -/
def packOne (recno : Int) (p : Packing σ) : Packing σ × Bool :=
  let fetched := fetchRecord sz svc k m req recno p.run
  match fetched.answer.diagnostics with
  | some diagnostics =>
    ({ p with run := fetched.run, pres := presentFailure, diagnostics := some diagnostics }, false)
  | none =>
    let r := fetched.run.use .compareSizes m
    let thisLength := toInt32 (r.total - toInt32 (r.total - p.dumped))
    match packVerdict m req r.total p.dumped with
    | .partialReply => ({ p with run := r, pres := presentPartial2 }, false)
    | .keep =>
      ({ p with
          run := r
          list := p.list ++ [fetched.answer.record]
          next := toInt32 (recno + 1) }, true)
    | .replace condition =>
      ({ p with
          run := r.malloc (sz.surrogateDiagnostic fetched.answer.record.databaseName)
          list := p.list ++ [createSurrogateDiagnostics condition fetched.answer.record]
          next := toInt32 (recno + 1)
          dumped := toInt32 (p.dumped + thisLength) }, true)

/-- The loop of `pack_records`; every turn that goes on adds a record, so there are as many turns
left as records to get. -/
def packLoop : Nat → Int → Packing σ → Packing σ
  | 0, _, p => p
  | left + 1, recno, p =>
    match packOne sz svc k m req recno p with
    | (p, true) => packLoop left (toInt32 (recno + 1)) p
    | (p, false) => p

/-- What `pack_records` starts from. The size of the array is a product of `size_t`s. -/
def packStart (r : Running σ) : Packing σ where
  run := ((r.malloc sz.records).malloc sz.recordList).malloc (toSize (sz.pointer * req.toget))

/-- `Yaz_Facility_Retrieval::pack_records`. -/
def packRecords (start : Int) (r : Running σ) : Packing σ :=
  packLoop sz svc k m req req.toget.toNat start (packStart sz req r)

/-- The `Z_Records` that `pack_records` returns. -/
def Packing.records (p : Packing σ) : Records :=
  p.diagnostics.getD (.databaseOrSurDiagnostics p.list)

/-- `*numberOfRecordsReturned`, which is assigned only for a list. -/
def Records.numberOfRecords (records : Records) (otherwise : Int) : Int :=
  match records with
  | .databaseOrSurDiagnostics records => records.length
  | _ => otherwise

/-! ## The requests -/

/-- How many records a search response brings with it, and under which element set names. -/
def piggyback (sreq : SearchRequest) (resultCount : Int) : Int × Option RecordComposition :=
  let hits := toInt32 resultCount
  if hits ≤ sreq.smallSetUpperBound then
    (hits, sreq.smallSetElementSetNames.map .simple)
  else if hits < sreq.largeSetLowerBound then
    let toget := toInt32 sreq.mediumSetPresentNumber
    (if hits < toget then hits else toget, sreq.mediumSetElementSetNames.map .simple)
  else (0, none)

/-- `Yaz_Facility_Retrieval::fetch_via_piggyback`. -/
def fetchViaPiggyback (sreq : SearchRequest) (res : SearchResponse) (r : Running σ) :
    Running σ × SearchResponse :=
  let r := (r.malloc sz.bool).malloc sz.odrInt
  let (toget, comp) := piggyback sreq res.resultCount
  if toget ≠ 0 ∧ res.records = none then
    let p := packRecords sz svc k m
      { resultSetName := sreq.resultSetName, toget := toget, comp := comp
        format := sreq.preferredRecordSyntax } 1 (r.malloc sz.odrInt)
    (p.run, { res with
      nextResultSetPosition := p.next
      presentStatus := some p.pres
      records := some p.records
      numberOfRecordsReturned := p.records.numberOfRecords res.numberOfRecordsReturned
      searchStatus := true
      resultSetStatus := none })
  else
    (r, { res with
      nextResultSetPosition :=
        if toInt32 res.resultCount ≠ 0 then 1 else res.nextResultSetPosition
      numberOfRecordsReturned := 0
      searchStatus := true
      resultSetStatus := none
      presentStatus := none })

/-- `Yaz_Facility_Retrieval::fetch_via_present`. -/
def fetchViaPresent (preq : PresentRequest) (res : PresentResponse) (r : Running σ) :
    Running σ × PresentResponse :=
  let p := packRecords sz svc k m preq.packRequest (toInt32 preq.resultSetStartPoint) r
  (p.run, { res with
    nextResultSetPosition := p.next
    presentStatus := p.pres
    records := some p.records
    numberOfRecordsReturned := p.records.numberOfRecords res.numberOfRecordsReturned })

end Pack

/-! ## The facility -/

/-- `Yaz_Facility_Retrieval::init`, less the call of `sr_init` it ends with. -/
def Retrieval.init (req : InitRequest) (m : Retrieval) : Retrieval :=
  { m with
    preferredMessageSize := .assign (toInt32 req.preferredMessageSize)
    maximumRecordSize := .assign (toInt32 req.maximumRecordSize) }

/-- The options that `Yaz_Facility_Retrieval::init` accepts. -/
def Retrieval.acceptOptions (req : InitRequest) (res : InitResponse) : InitResponse :=
  let search :=
    if odrMaskGet req.options optionSearch then odrMaskSet res.options optionSearch
    else res.options
  let present :=
    if odrMaskGet req.options optionPresent then odrMaskSet search optionPresent else search
  { res with options := present }

/-- The assignments at the start of `Yaz_Facility_Retrieval::recv`. -/
def Retrieval.setStreams (encode decode : Odr) (m : Retrieval) : Retrieval :=
  { m with odrEncode := .assign encode, odrDecode := .assign decode }

end Yazpp
