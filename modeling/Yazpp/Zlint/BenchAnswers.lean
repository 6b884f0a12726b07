import Mathlib.Data.List.Forall2
import Yazpp.Zlint.Bench

/-!
# What zlint makes of the answers of `yaz-my-server`

For every request that zlint sends it is known what a session answers (`BenchEnv.Answers`), and for
every test which requests it may wait for (`BenchEnv.Awaits`). So it is known what a test says of
the next answer (`BenchEnv.finds_awaited`), and that it waits for others behind it, or has finished.
-/

set_option autoImplicit false

namespace Yazpp

open Yazpp.Lib

variable {τ : Type}

/-- What YAZ gives by default: responses with nothing set in them that accept, and the OIDs of the
record syntaxes. -/
structure BenchEnv.Usual (e : BenchEnv τ) : Prop where
  versions : e.zget.initResponse.protocolVersion = 0
  options : e.zget.initResponse.options = 0
  accepts : e.zget.initResponse.result = true
  records : e.zget.presentResponse.records = none
  oiAPDU : e.lint.oiAPDU = true
  syntaxes : ∀ name ∈ LintTable.trySyntax.entries, (e.lint.stringToOid (some name)).isSome = true

/-! ## What the session answers -/

/-- The first record, if it is one, has an OID. -/
def LintRecords.Dated : Option LintRecords → Prop
  | some (.dbosd (some (.databaseRecord directReference) :: _)) => directReference.isSome = true
  | _ => True

theorem Records.Present.dated {usmarc : Oid} {records : Option Records}
    (present : ∀ r, records = some r → r.Present) :
    LintRecords.Dated (records.map (Records.lint usmarc)) := by
  cases records with
  | none => trivial
  | some records =>
    cases records with
    | databaseOrSurDiagnostics list =>
      cases list with
      | nil => trivial
      | cons r rest =>
        have hr : r.Present := present _ rfl r List.mem_cons_self
        obtain ⟨name, content⟩ := r
        cases content with
        | databaseRecord record =>
          cases record with
          | none => exact absurd rfl hr
          | some record => rfl
        | surrogateDiagnostic condition addinfo => trivial
    | nonSurrogateDiagnostic | multipleNonSurDiagnostics => trivial

namespace BenchEnv

variable {e : BenchEnv τ}

/-- The answer to an init request. -/
def answer (e : BenchEnv τ) (request : LintInitRequest) : LintInitResponse :=
  (MyServer.accepted e.zget request.init).lint request.referenceId

/-- What a request is answered with; a sort and a scan request are not. -/
inductive Answers (e : BenchEnv τ) : LintRequest → SuiteGdu → Prop
  | init {request : LintInitRequest} :
      Answers e (.init request) (.initResponse (e.answer request))
  | search {names : List String} {rpn : Buf} {records : Option LintRecords} {count : Int} :
      Answers e (.search names rpn) (.searchResponse records (some count))
  | present {start number : Int} {syntaxOid : Option Oid} {records : Option LintRecords} :
      LintRecords.Dated records →
      Answers e (.present start number syntaxOid) (.presentResponse records)

/-- A request is answered by one response, or the session ends. -/
theorem serve_answers (usual : e.Usual) {s : ZServer Unit τ} (serves : MyServer.Serves s)
    (request : LintRequest) :
    (MyServer.Serves (e.serve request s).1 ∧
        ∃ gdu, (e.serve request s).2 = [gdu] ∧ e.Answers request gdu) ∨
      (e.serve request s).1.alive = false ∧ (e.serve request s).2 = [] ∧
        ∀ gdu, ¬ e.Answers request gdu := by
  have same : ∀ response gdu, sent (s.recvGdu e.params (.z3950 (e.apdu request))).2 = [response] →
      response.lint e.usmarc = gdu → (e.serve request s).2 = [gdu] := by
    intro response gdu hsent hgdu
    simp only [serve, hsent, List.map_cons, List.map_nil, hgdu]
  have unanswered : ∀ which, (e.apdu request).body = .other which [] →
      (e.serve request s).1.alive = false ∧ (e.serve request s).2 = [] := by
    intro which hbody
    have answered : _ ∧ sent (s.recvGdu e.params (.z3950 (e.apdu request))).2 = [] :=
      MyServer.serves_other serves hbody
    refine ⟨answered.1, ?_⟩
    simp only [serve, answered.2, List.map_nil]
  cases request with
  | init request =>
    have answered : _ ∧ sent (s.recvGdu e.params (.z3950 (e.apdu (.init request)))).2 = _ :=
      MyServer.serves_init serves rfl
    exact .inl ⟨answered.1, _, same _ _ answered.2 rfl, .init⟩
  | search names rpn =>
    have answered : _ ∧ ∃ response res,
        sent (s.recvGdu e.params (.z3950 (e.apdu (.search names rpn)))).2 = [response] ∧ _ :=
      MyServer.serves_search serves rfl
    obtain ⟨serves', response, res, hsent, hbody⟩ := answered
    have hlint : response.lint e.usmarc =
        .searchResponse (res.records.map (Records.lint e.usmarc)) (some res.resultCount) := by
      simp only [Apdu.lint, hbody]
    exact .inl ⟨serves', _, same _ _ hsent hlint, .search⟩
  | present start number syntaxOid =>
    have answered : _ ∧ ∃ response res,
        sent (s.recvGdu e.params (.z3950 (e.apdu (.present start number syntaxOid)))).2 =
          [response] ∧ _ :=
      MyServer.serves_present usual.records serves rfl
    obtain ⟨serves', response, res, hsent, hbody, present⟩ := answered
    have hlint : response.lint e.usmarc =
        .presentResponse (res.records.map (Records.lint e.usmarc)) := by
      simp only [Apdu.lint, hbody]
    exact .inl ⟨serves', _, same _ _ hsent hlint, .present (Records.Present.dated present)⟩
  | sort | scan =>
    obtain ⟨dead, silent⟩ := unanswered _ rfl
    exact .inr ⟨dead, silent, fun gdu answers => nomatch answers⟩

/-- The init requests of a test. -/
def asks (z : SuiteEnv) : SuiteTest → List LintInitRequest
  | .init01 =>
    [{ init := { z.initRequest with protocolVersion := odrMaskSets 0 protocolVersions } }]
  | .init02 => [{ init := { z.initRequest with protocolVersion := odrMaskSets 0 [0, 1] } }]
  | .init03 =>
    [{ init := { z.initRequest with protocolVersion := odrMaskSets 0 (List.range 9) } }]
  | .init04 => [{ referenceId := some refidBuf1, init := z.version3 [] }]
  | .init05 _ =>
    [{ referenceId := some refidBuf1, init := z.version3 [optionConcurrentOperations] },
      { referenceId := some refidBuf2, init := z.version3 [optionConcurrentOperations] }]
  | .init06 => [{ init := { z.version3 [] with options := odrMaskSets 0 (List.range 25) } }]
  | .init07 =>
    if z.oiUpdate then
      [{ init := z.version3 [optionNegotiationModel]
         charsets := ["UTF-8", "UTF-16", "UCS-2", "UCS-4", "ISO-8859-1"] }]
    else [{ init := z.version3 [] }]
  | .init08 no => [{ init := { z.version3 [] with
      maximumRecordSize := InitTest08.size no, preferredMessageSize := InitTest08.size no } }]
  | .search01 _ => [{ init := z.version3 [optionNamedResultSets, optionSort] }]
  | .scan01 _ => [{ init := z.version3 [optionNamedResultSets, optionScan] }]

/-- What a test says first, if it does. -/
def announces : SuiteTest → List (TestCall LintRequest)
  | .init01 => [.checkFor "for V3 init"]
  | .init02 => [.checkFor "for V2 init"]
  | .init03 => [.checkFor "for V9 init"]
  | .init04 => [.checkFor "for referenceID for init"]
  | .init05 _ => [.checkFor "for double init"]
  | .init06 => [.checkFor "for init options"]
  | .init07 => [.checkFor "for character set negotiation"]
  | .init08 no => [.checkFor ("for init message sizes " ++ toString no)]
  | .search01 _ => [.checkFor "search and retrieve"]
  | .scan01 _ => []

/-- A test says what it checks, and sends its init requests. -/
theorem init_eq (usual : e.Usual) (sent : List SendOutcome) (t : SuiteTest) :
    SuiteTest.init e.lint sent t = .ok (t, announces t ++ (sendInits (asks e.lint t) sent).1,
      (sendInits (asks e.lint t) sent).2) := by
  cases t with
  | init07 =>
    simp only [SuiteTest.init, InitTest07.init, usual.oiAPDU, asks]
    cases e.lint.oiUpdate <;> rfl
  | _ => rfl

theorem quiet_announces (t : SuiteTest) : Quiet (announces t) := by
  cases t <;> simp [announces, Quiet]

/-- Every request is sent. -/
theorem sendInits_sent (requests : List LintInitRequest) (more : List SendOutcome) :
    sendInits requests (List.replicate requests.length .sent ++ more) =
      (requests.map fun r => .send (.init r), .testContinue) := by
  induction requests with
  | nil => rfl
  | cons request requests ih =>
    have same : sendInits (request :: requests)
        (List.replicate (request :: requests).length .sent ++ more) =
          (.send (.init request) ::
            (sendInits requests (List.replicate requests.length .sent ++ more)).1,
            (sendInits requests (List.replicate requests.length .sent ++ more)).2) := rfl
    rw [same, ih]
    rfl

/-- One of them is lost. -/
theorem sendInits_lost {n : Nat} : ∀ {requests : List LintInitRequest}, n < requests.length →
    (sendInits requests (List.replicate n .sent ++ [.lost])).2 = .testFinished ∧
      Zlint.back (sendInits requests (List.replicate n .sent ++ [.lost])).1
        (List.replicate n .sent ++ [.lost]) = some (SuiteTest.unsent, []) ∧
      Zlint.front (sendInits requests (List.replicate n .sent ++ [.lost])).1
        (List.replicate n .sent ++ [.lost]) =
          (requests.take n).map fun r => .send (.init r) := by
  induction n with
  | zero =>
    rintro (_ | ⟨request, requests⟩) hn
    · exact absurd hn (Nat.lt_irrefl 0)
    · exact ⟨rfl, rfl, rfl⟩
  | succ n ih =>
    rintro (_ | ⟨request, requests⟩) hn
    · exact absurd hn (Nat.not_lt_zero _)
    · obtain ⟨hcode, hback, hfront⟩ := ih (Nat.lt_of_succ_lt_succ hn)
      exact ⟨hcode, hback, congrArg _ hfront⟩

theorem asks_length (z : SuiteEnv) (t : SuiteTest) :
    0 < (asks z t).length ∧ (asks z t).length ≤ 2 := by
  cases t with
  | init07 =>
    simp only [asks]
    split <;> exact ⟨Nat.le_of_ble_eq_true rfl, Nat.le_of_ble_eq_true rfl⟩
  | _ => exact ⟨Nat.le_of_ble_eq_true rfl, Nat.le_of_ble_eq_true rfl⟩

end BenchEnv

/-- A test that has not begun, or begins again. -/
def SuiteTest.Fresh : SuiteTest → Prop
  | .init05 no | .scan01 no => no = 0
  | .search01 t => t = {}
  | _ => True

namespace BenchEnv

variable {e : BenchEnv τ}

/-- The requests that a test waits for the answers of. -/
inductive Awaits (e : BenchEnv τ) : SuiteTest → List LintRequest → Prop
  | first {t : SuiteTest} : t.Fresh → Awaits e t ((asks e.lint t).map .init)
  | second : Awaits e (.init05 1) [.init
      { referenceId := some refidBuf2, init := e.lint.version3 [optionConcurrentOperations] }]
  | searching {t : SearchTest} {names : List String} {rpn : Buf} :
      t.gotResultSet = false → t.queryNo < LintTable.tryQuery.entries.length →
      t.recordSyntaxNo = 0 → t.sortNo = 0 → Awaits e (.search01 t) [.search names rpn]
  | presenting {t : SearchTest} {start number : Int} {syntaxOid : Option Oid} :
      t.gotResultSet = true → t.recordSyntaxNo < LintTable.trySyntax.entries.length →
      t.sortNo = 0 → Awaits e (.search01 t) [.present start number syntaxOid]
  | sorting {t : SearchTest} {inputs : List String} {sorted : String} {sequence : Option Buf} :
      t.gotResultSet = true → t.recordSyntaxNo = LintTable.trySyntax.entries.length →
      t.sortNo = 0 → Awaits e (.search01 t) [.sort inputs sorted sequence]

end BenchEnv

/-- The verdict that a call asks for. -/
def TestCall.verdict? {ρ : Type} : TestCall ρ → Option (TestLine ρ)
  | .checkOk => some .ok
  | .checkFail _ => some .fail
  | .checkNotapp => some .unsupported
  | _ => none

/-- The verdict that is printed: the first one. -/
def verdictOf {ρ : Type} (calls : List (TestCall ρ)) : List (TestLine ρ) :=
  (calls.filterMap TestCall.verdict?).take 1

/-- Two complaints in front of an OK. -/
theorem verdict_fails (big big' : Prop) [Decidable big] [Decidable big']
    (text text' : String) :
    verdictOf ((if big then [TestCall.checkFail text] else []) ++
        (if big' then [TestCall.checkFail text'] else []) ++ [TestCall.checkOk]) =
      [if big ∨ big' then (.fail : TestLine LintRequest) else .ok] ∧
    ∀ what, (.checkFor what : TestCall LintRequest) ∉
      (if big then [TestCall.checkFail text] else []) ++
        (if big' then [TestCall.checkFail text'] else []) ++ [TestCall.checkOk] := by
  by_cases hbig : big <;> by_cases hbig' : big' <;>
    simp [hbig, hbig', verdictOf, TestCall.verdict?]

/-- A complaint in front of what is unsupported. -/
theorem verdict_unsupported (wrong : Prop) [Decidable wrong] (text what : String) :
    verdictOf ((if wrong then [TestCall.checkFail text] else []) ++
        [TestCall.checkNotapp, TestCall.checkInfo what]) =
      [if wrong then (.fail : TestLine LintRequest) else .unsupported] ∧
    ∀ name, (.checkFor name : TestCall LintRequest) ∉
      (if wrong then [TestCall.checkFail text] else []) ++
        [TestCall.checkNotapp, TestCall.checkInfo what] := by
  by_cases hwrong : wrong <;> simp [hwrong, verdictOf, TestCall.verdict?]

namespace BenchEnv

variable {e : BenchEnv τ}

/-- What zlint finds with the next answer, but for the search test. -/
def finds (e : BenchEnv τ) : SuiteTest → List (TestLine LintRequest)
  | .init05 no => if no = 0 then [] else [.ok]
  | .init07 => [.unsupported]
  | .init08 no =>
    [if InitTest08.size no < e.zget.initResponse.maximumRecordSize ∨
        InitTest08.size no < e.zget.initResponse.preferredMessageSize then .fail else .ok]
  | .scan01 _ =>
    let ver := initResponseGetVersion (e.answer
      { init := e.lint.version3 [optionNamedResultSets, optionScan] }).protocolVersion
    [if 3 < ver ∨ ver < 2 then .fail else .unsupported]
  | _ => [.ok]

/-- What becomes of a test behind an answer. -/
inductive Goes (e : BenchEnv τ) (asked : List LintRequest) (t : SuiteTest)
    (calls : List (TestCall LintRequest)) : LintCode → Prop
  | waits : Awaits e t (asked ++ calls.filterMap TestCall.request?) →
      ((∀ s, t ≠ .search01 s) → calls = []) → Goes e asked t calls .testContinue
  | reopens {no : Nat} : t = .init08 no → Goes e asked t calls .testReopen
  | finished : Goes e asked t calls .testFinished

/-- What a test other than the search test does with an init response. -/
structure Finds (e : BenchEnv τ) (t : SuiteTest) (asked : List LintRequest) (gdu : SuiteGdu)
    (t' : SuiteTest) (calls : List (TestCall LintRequest)) (code : LintCode) : Prop where
  answer : SuiteTest.recvGdu e.lint gdu t = .ok (t', calls, code)
  goes : e.Goes asked t' calls code
  verdict : (∀ s, t ≠ .search01 s) → verdictOf calls = e.finds t ∧
    ∀ text, .checkFor text ∉ calls

theorem accepted_eq (zget : Zget) (req : InitRequest) :
    (MyServer.accepted zget req).protocolVersion =
        (ZServer.acceptVersions req zget.initResponse).protocolVersion ∧
      (MyServer.accepted zget req).result = zget.initResponse.result ∧
      (MyServer.accepted zget req).maximumRecordSize = zget.initResponse.maximumRecordSize ∧
      (MyServer.accepted zget req).preferredMessageSize =
        zget.initResponse.preferredMessageSize := by
  have keeps : ∀ res : InitResponse,
      (Facility.acceptExtendedServices req res).protocolVersion = res.protocolVersion ∧
        (Facility.acceptExtendedServices req res).result = res.result ∧
        (Facility.acceptExtendedServices req res).maximumRecordSize = res.maximumRecordSize ∧
        (Facility.acceptExtendedServices req res).preferredMessageSize =
          res.preferredMessageSize := by
    intro res
    unfold Facility.acceptExtendedServices
    split <;> exact ⟨rfl, rfl, rfl, rfl⟩
  unfold MyServer.accepted
  simp only [keeps]
  exact ⟨rfl, rfl, rfl, rfl⟩

/-- The options of search, present and extended services, where they are asked for. -/
def acceptedMask (search present extended : Bool) : Nat :=
  (if search then 1 else 0) + (if present then 2 else 0) + if extended then 1024 else 0

theorem accepted_options {zget : Zget} (unset : zget.initResponse.options = 0) (req : InitRequest) :
    (MyServer.accepted zget req).options =
      acceptedMask (odrMaskGet req.options optionSearch) (odrMaskGet req.options optionPresent)
        (odrMaskGet req.options optionExtendedServices) := by
  have extended : ∀ res : InitResponse, (Facility.acceptExtendedServices req res).options =
      if odrMaskGet req.options optionExtendedServices then
        odrMaskSet res.options optionExtendedServices else res.options := by
    intro res
    unfold Facility.acceptExtendedServices
    split <;> rfl
  simp only [MyServer.accepted, extended, Retrieval.acceptOptions, ZServer.acceptVersions, unset]
  cases odrMaskGet req.options optionSearch <;> cases odrMaskGet req.options optionPresent <;>
    cases odrMaskGet req.options optionExtendedServices <;> rfl

/-- The facilities accept neither a negotiation nor scan. -/
theorem accepted_not {zget : Zget} (unset : zget.initResponse.options = 0) (req : InitRequest) :
    odrMaskGet (MyServer.accepted zget req).options optionNegotiationModel = false ∧
      odrMaskGet (MyServer.accepted zget req).options optionScan = false := by
  rw [accepted_options unset]
  cases odrMaskGet req.options optionSearch <;> cases odrMaskGet req.options optionPresent <;>
    cases odrMaskGet req.options optionExtendedServices <;> exact ⟨rfl, rfl⟩

/-- The versions of an answer. -/
theorem answer_version (usual : e.Usual) (request : LintInitRequest) :
    (e.answer request).protocolVersion =
      protocolVersions.foldl (fun version bit =>
        if odrMaskGet request.init.protocolVersion bit then odrMaskSet version bit else version)
        0 := by
  rw [← usual.versions]
  exact (accepted_eq e.zget request.init).1

/-- The version of an answer, by what was asked for. -/
theorem answer_getVersion (usual : e.Usual) (request : LintInitRequest) (mask : Nat)
    (hmask : request.init.protocolVersion = mask) {ver : Nat}
    (hver : initResponseGetVersion (protocolVersions.foldl (fun version bit =>
      if odrMaskGet mask bit then odrMaskSet version bit else version) 0) = ver) :
    initResponseGetVersion (e.answer request).protocolVersion = ver := by
  rw [answer_version usual, hmask]
  exact hver

theorem answer_result (usual : e.Usual) (request : LintInitRequest) :
    (e.answer request).result = some true := by
  rw [← usual.accepts]
  exact congrArg some (accepted_eq e.zget request.init).2.1

theorem answer_sizes (request : LintInitRequest) :
    (e.answer request).maximumRecordSize = e.zget.initResponse.maximumRecordSize ∧
      (e.answer request).preferredMessageSize = e.zget.initResponse.preferredMessageSize :=
  (accepted_eq e.zget request.init).2.2

/-- The tests of init find what is expected. -/
theorem finds_init (usual : e.Usual) {t : SuiteTest} {request : LintInitRequest}
    {asked : List LintRequest} (fresh : t.Fresh) (other : ∀ s, t ≠ .search01 s)
    (hasks : (asks e.lint t).map .init = .init request :: asked) :
    ∃ t' calls code, e.Finds t asked (.initResponse (e.answer request)) t' calls code := by
  have hresult := answer_result usual request
  cases t with
  | init01 =>
    obtain ⟨hmask, rfl⟩ : request.init.protocolVersion = odrMaskSets 0 protocolVersions ∧
        asked = [] := by
      cases hasks
      exact ⟨rfl, rfl⟩
    refine ⟨.init01, [.checkOk], .testFinished, ?_, .finished, fun _ => ⟨rfl, by simp⟩⟩
    have hver := answer_getVersion usual _ _ hmask rfl
    simp only [SuiteTest.recvGdu, InitTest01.recvGdu, wantInit, hver, hresult]
    rfl
  | init02 =>
    obtain ⟨hmask, rfl⟩ : request.init.protocolVersion = odrMaskSets 0 [0, 1] ∧ asked = [] := by
      cases hasks
      exact ⟨rfl, rfl⟩
    refine ⟨.init02, [.checkOk], .testFinished, ?_, .finished, fun _ => ⟨rfl, by simp⟩⟩
    have hver := answer_getVersion usual _ _ hmask rfl
    simp only [SuiteTest.recvGdu, InitTest02.recvGdu, wantInit, hver]
    rfl
  | init03 =>
    obtain ⟨hmask, rfl⟩ : request.init.protocolVersion = odrMaskSets 0 (List.range 9) ∧
        asked = [] := by
      cases hasks
      exact ⟨rfl, rfl⟩
    refine ⟨.init03, [.checkOk], .testFinished, ?_, .finished, fun _ => ⟨rfl, by simp⟩⟩
    have hver := answer_getVersion usual _ _ hmask rfl
    simp only [SuiteTest.recvGdu, InitTest03.recvGdu, wantInit, hver]
    rfl
  | init04 =>
    obtain ⟨hid, rfl⟩ : (e.answer request).referenceId = some refidBuf1 ∧ asked = [] := by
      cases hasks
      exact ⟨rfl, rfl⟩
    refine ⟨.init04, [.checkOk], .testFinished, ?_, .finished, fun _ => ⟨rfl, by simp⟩⟩
    simp only [SuiteTest.recvGdu, InitTest04.recvGdu, wantInit, hid]
    rfl
  | init05 no =>
    obtain rfl : no = 0 := fresh
    have hid : (e.answer request).referenceId = some refidBuf1 := by
      cases hasks
      rfl
    cases hasks
    refine ⟨.init05 1, [], .testContinue, ?_, (.waits .second fun _ => rfl),
      fun _ => ⟨rfl, by simp⟩⟩
    simp only [SuiteTest.recvGdu, InitTest05.recvGdu, wantInit, hid, hresult]
    rfl
  | init06 =>
    obtain ⟨hmask, rfl⟩ : request.init.options = odrMaskSets 0 (List.range 25) ∧ asked = [] := by
      cases hasks
      exact ⟨rfl, rfl⟩
    refine ⟨.init06, [.checkOk], .testFinished, ?_, .finished, fun _ => ⟨rfl, by simp⟩⟩
    have hoptions : (e.answer request).options = 1027 := by
      refine (accepted_options usual.options request.init).trans ?_
      rw [hmask]
      rfl
    simp only [SuiteTest.recvGdu, InitTest06.recvGdu, wantInit, hoptions]
    rfl
  | init07 =>
    obtain rfl : asked = [] := by
      simp only [asks] at hasks
      split at hasks <;> cases hasks <;> rfl
    refine ⟨.init07, [.checkNotapp], .testFinished, ?_, .finished, fun _ => ⟨rfl, by simp⟩⟩
    have hbit : odrMaskGet (e.answer request).options optionNegotiationModel = false :=
      (accepted_not usual.options request.init).1
    simp only [SuiteTest.recvGdu, InitTest07.recvGdu, wantInit, hbit]
    rfl
  | init08 no =>
    obtain rfl : asked = [] := by
      cases hasks
      rfl
    obtain ⟨hmaximum, hpreferred⟩ := answer_sizes (e := e) request
    have said := verdict_fails (InitTest08.size no < e.zget.initResponse.maximumRecordSize)
      (InitTest08.size no < e.zget.initResponse.preferredMessageSize)
      "maximumRecordSize bigger than proposed size" "preferredMessage bigger than proposed size"
    by_cases more : no < 2
    · refine ⟨.init08 (no + 1), _, .testReopen, ?_, .reopens rfl, fun _ => said⟩
      simp only [SuiteTest.recvGdu, InitTest08.recvGdu, wantInit, hmaximum, hpreferred, more]
      rfl
    · refine ⟨.init08 no, _, .testFinished, ?_, .finished, fun _ => said⟩
      simp only [SuiteTest.recvGdu, InitTest08.recvGdu, wantInit, hmaximum, hpreferred, more]
      rfl
  | search01 s => exact absurd rfl (other s)
  | scan01 no =>
    obtain rfl : no = 0 := fresh
    obtain ⟨rfl, rfl⟩ : asked = [] ∧
        { init := e.lint.version3 [optionNamedResultSets, optionScan] } = request := by
      cases hasks
      exact ⟨rfl, rfl⟩
    have hbit := (accepted_not usual.options
      (e.lint.version3 [optionNamedResultSets, optionScan])).2
    generalize hanswer : e.answer { init := e.lint.version3 [optionNamedResultSets, optionScan] } =
      init at hresult
    have hbit' : odrMaskGet init.options optionScan = false := hanswer ▸ hbit
    have said := verdict_unsupported
      (3 < initResponseGetVersion init.protocolVersion ∨
        initResponseGetVersion init.protocolVersion < 2)
      ("got version " ++ toString (initResponseGetVersion init.protocolVersion) ++
        ", expected 2 or 3") "scan unsupported"
    refine ⟨.scan01 0, _, .testFinished, ?_, .finished, fun _ => ⟨?_, said.2⟩⟩
    · simp only [SuiteTest.recvGdu, ScanTest.recvGdu, hresult, hbit']
      rfl
    · rw [finds, hanswer]
      exact said.1

/-! ## The search test -/

/-- `sendTest` asks for something that is in its tables, or the test is finished. -/
theorem goOn_goes (t : SearchTest) (said : List LintCall) (notSorted : t.sortNo = 0)
    (inside : if t.gotResultSet then t.recordSyntaxNo ≤ LintTable.trySyntax.entries.length
      else t.queryNo ≤ LintTable.tryQuery.entries.length ∧ t.recordSyntaxNo = 0)
    (quiet : (said.map SearchTest.toCall).filterMap TestCall.request? = []) :
    ∃ calls code, t.goOn e.lint.toLintEnv said = .ok (t, calls, code) ∧
      e.Goes [] (.search01 t) (calls.map SearchTest.toCall) code := by
  unfold SearchTest.goOn
  have requests : ∀ calls : List LintCall,
      ((said ++ calls).map SearchTest.toCall).filterMap TestCall.request? =
        (calls.map SearchTest.toCall).filterMap TestCall.request? := by
    intro calls
    rw [List.map_append, List.filterMap_append, quiet, List.nil_append]
  cases hgot : t.gotResultSet with
  | false =>
    simp only [hgot, Bool.false_eq_true, if_false] at inside
    simp only [SearchTest.sendTest, hgot, if_true, LintTable.read, inside.1]
    cases hquery : LintTable.tryQuery.entries[t.queryNo]? with
    | none => exact ⟨_, _, rfl, .finished⟩
    | some query =>
      simp only [bind, Except.bind]
      cases e.lint.pqfParse query with
      | none => exact ⟨_, _, rfl, .finished⟩
      | some rpn =>
        refine ⟨_, _, rfl, .waits ?_ fun other => absurd rfl (other t)⟩
        rw [requests]
        exact .searching hgot (List.getElem?_eq_some_iff.mp hquery).1 inside.2 notSorted
  | true =>
    simp only [hgot, if_true] at inside
    simp only [SearchTest.sendTest, hgot, Bool.true_eq_false, if_false, LintTable.read, inside,
      if_true]
    cases hrecord : LintTable.trySyntax.entries[t.recordSyntaxNo]? with
    | some recordSyntax =>
      refine ⟨_, _, rfl, .waits ?_ fun other => absurd rfl (other t)⟩
      rw [requests]
      exact .presenting hgot (List.getElem?_eq_some_iff.mp hrecord).1 notSorted
    | none =>
      have last : t.recordSyntaxNo = LintTable.trySyntax.entries.length :=
        Nat.le_antisymm inside (List.getElem?_eq_none_iff.mp hrecord)
      simp only [bind, Except.bind, notSorted, Nat.zero_le, if_true]
      refine ⟨_, _, rfl, .waits ?_ fun other => absurd rfl (other t)⟩
      rw [requests]
      exact .sorting hgot last notSorted

/-- What the search test does, as a test of the suite. -/
theorem finds_of_recvGdu {t t' : SearchTest} {gdu : SuiteGdu} {calls : List LintCall}
    {code : LintCode} (h : t.recvGdu e.lint.toLintEnv gdu.toLint = .ok (t', calls, code))
    (goes : e.Goes [] (.search01 t') (calls.map SearchTest.toCall) code) :
    ∃ t' calls code, e.Finds (.search01 t) [] gdu t' calls code := by
  refine ⟨.search01 t', calls.map SearchTest.toCall, code, ?_, goes, fun other => ?_⟩
  · simp only [SuiteTest.recvGdu, SearchTest.answer, h]
    rfl
  · exact absurd rfl (other t)

/-- What the test says of a present response that a session sends. -/
theorem presentReport_quiet (usual : e.Usual) {t : SearchTest}
    (inside : t.recordSyntaxNo < LintTable.trySyntax.entries.length)
    {records : Option LintRecords} (dated : LintRecords.Dated records) :
    ∃ said, t.presentReport e.lint.toLintEnv records = .ok said ∧
      (said.map SearchTest.toCall).filterMap TestCall.request? = [] := by
  have hread := SearchTest.read_of_le (Nat.le_of_lt inside)
  cases records with
  | none => exact ⟨_, rfl, rfl⟩
  | some records =>
    cases records with
    | nsd | multipleNsd =>
      simp only [SearchTest.presentReport, hread]
      exact ⟨_, rfl, rfl⟩
    | dbosd list =>
      cases list with
      | nil => exact ⟨_, rfl, rfl⟩
      | cons first rest =>
        cases first with
        | none => exact ⟨_, rfl, rfl⟩
        | some record =>
          cases record with
          | surrogateDiagnostic | fragment =>
            simp only [SearchTest.presentReport, hread]
            exact ⟨_, rfl, rfl⟩
          | databaseRecord directReference =>
            obtain ⟨oid, rfl⟩ := Option.isSome_iff_exists.mp dated
            have hentry := List.getElem?_eq_getElem inside
            obtain ⟨oid', hoid'⟩ := Option.isSome_iff_exists.mp
              (usual.syntaxes _ (List.getElem_mem inside))
            simp only [SearchTest.presentReport, hread, hentry, bind, Except.bind, hoid',
              SearchTest.oidcmp]
            split <;> exact ⟨_, rfl, rfl⟩

/-- The search test stays within its tables. -/
theorem finds_search (usual : e.Usual) {t : SearchTest} {request : LintRequest}
    {asked : List LintRequest} {gdu : SuiteGdu}
    (awaits : e.Awaits (.search01 t) (request :: asked)) (answers : e.Answers request gdu) :
    ∃ t' calls code, e.Finds (.search01 t) asked gdu t' calls code := by
  generalize hasked : request :: asked = all at awaits
  cases awaits with
  | first fresh =>
    obtain rfl : t = {} := fresh
    cases hasked
    cases answers with
    | init =>
      have hresult := answer_result usual
        { init := e.lint.version3 [optionNamedResultSets, optionSort] }
      obtain ⟨calls, code, hgoOn, goes⟩ :=
        goOn_goes (e := e) {} [] rfl ⟨Nat.zero_le _, rfl⟩ rfl
      refine finds_of_recvGdu ?_ goes
      simp only [SuiteGdu.toLint, SearchTest.recvGdu, hresult, Option.getD_some, if_true]
      exact hgoOn
  | searching hgot hquery hrecord hsort =>
    cases hasked
    cases answers with
    | @search _ _ records count =>
      have missed : ∀ h : ({ t with queryNo := t.queryNo + 1 } : SearchTest).goOn
          e.lint.toLintEnv [] = t.recvGdu e.lint.toLintEnv
            (SuiteGdu.searchResponse records (some count)).toLint,
          ∃ t' calls code, e.Finds (.search01 t) []
            (.searchResponse records (some count)) t' calls code := by
        intro h
        have inside : if t.gotResultSet then t.recordSyntaxNo ≤ LintTable.trySyntax.entries.length
            else t.queryNo + 1 ≤ LintTable.tryQuery.entries.length ∧ t.recordSyntaxNo = 0 := by
          rw [hgot]
          exact ⟨hquery, hrecord⟩
        obtain ⟨calls, code, hgoOn, goes⟩ :=
          goOn_goes (e := e) { t with queryNo := t.queryNo + 1 } [] hsort inside rfl
        exact finds_of_recvGdu (h.symm.trans hgoOn) goes
      by_cases failed : records = some .nsd ∨ records = some .multipleNsd
      · exact missed (by simp only [SuiteGdu.toLint, SearchTest.recvGdu, failed, if_true])
      · by_cases zero : count = 0
        · exact missed (by
            simp only [SuiteGdu.toLint, SearchTest.recvGdu, failed, zero, if_false, if_true])
        · have inside : t.recordSyntaxNo ≤ LintTable.trySyntax.entries.length := by
            rw [hrecord]
            exact Nat.zero_le _
          obtain ⟨calls, code, hgoOn, goes⟩ := goOn_goes (e := e) { t with gotResultSet := true }
            [.checkOk, .checkInfo ("got " ++ toString (toInt32 count) ++
              " result count with " ++ shown LintTable.tryQuery.entries[t.queryNo]?)]
            hsort inside rfl
          refine finds_of_recvGdu ?_ goes
          simp only [SuiteGdu.toLint, SearchTest.recvGdu, failed, zero, if_false,
            SearchTest.read_of_le (Nat.le_of_lt hquery)]
          exact hgoOn
  | presenting hgot hrecord hsort =>
    cases hasked
    cases answers with
    | @present _ _ _ records dated =>
      obtain ⟨said, hreport, quiet⟩ := presentReport_quiet usual hrecord dated
      have inside : if t.gotResultSet then
          t.recordSyntaxNo + 1 ≤ LintTable.trySyntax.entries.length
          else t.queryNo ≤ LintTable.tryQuery.entries.length ∧ t.recordSyntaxNo + 1 = 0 := by
        rw [hgot]
        exact hrecord
      obtain ⟨calls, code, hgoOn, goes⟩ := goOn_goes (e := e)
        { t with recordSyntaxNo := t.recordSyntaxNo + 1 } said hsort inside quiet
      refine finds_of_recvGdu ?_ goes
      simp only [SuiteGdu.toLint, SearchTest.recvGdu, hreport]
      exact hgoOn
  | sorting =>
    cases hasked
    cases answers

/-! ## Any test -/

/-- **The next answer** to a test that waits for it. -/
theorem finds_awaited (usual : e.Usual) {t : SuiteTest} {request : LintRequest}
    {asked : List LintRequest} {gdu : SuiteGdu} (awaits : e.Awaits t (request :: asked))
    (answers : e.Answers request gdu) :
    ∃ t' calls code, e.Finds t asked gdu t' calls code := by
  by_cases search : ∃ s, t = .search01 s
  · obtain ⟨s, rfl⟩ := search
    exact finds_search usual awaits answers
  · have other : ∀ s, t ≠ .search01 s := fun s h => search ⟨s, h⟩
    generalize hasked : request :: asked = all at awaits
    cases awaits with
    | first fresh =>
      have asksInit : ∃ r, request = .init r := by
        have hmem : request ∈ (asks e.lint t).map LintRequest.init :=
          hasked ▸ List.mem_cons_self
        obtain ⟨r, -, hr⟩ := List.mem_map.mp hmem
        exact ⟨r, hr.symm⟩
      obtain ⟨r, rfl⟩ := asksInit
      cases answers
      exact finds_init usual fresh other hasked.symm
    | second =>
      cases hasked
      cases answers
      refine ⟨.init05 1, [.checkOk], .testFinished, ?_, .finished, fun _ => ⟨rfl, by simp⟩⟩
      have hresult := answer_result usual
        { referenceId := some refidBuf2, init := e.lint.version3 [optionConcurrentOperations] }
      have hid : (e.answer ⟨some refidBuf2, e.lint.version3 [optionConcurrentOperations],
          []⟩).referenceId = some refidBuf2 := rfl
      simp only [SuiteTest.recvGdu, InitTest05.recvGdu, wantInit, hresult, hid]
      rfl
    | searching | presenting | sorting => exact absurd rfl (other _)

end BenchEnv

end Yazpp
