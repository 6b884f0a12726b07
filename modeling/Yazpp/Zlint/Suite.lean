import Yazpp.Zlint.Driver

/-!
# The tests of zlint

The embedding of `zlint/test-init-01.cpp` to `zlint/test-init-08.cpp`, of `zlint/test-scan-01.cpp`,
and of the list that `zlint/main.cpp` makes of them; the search test is `SearchTest`. What the tests
read of a response is all there is of one, and what is mandatory in an APDU is there in one that was
decoded. YAZ's functions are in `SuiteEnv`.

A fault is what the source leaves undefined: a pointer that is not there is read, or a table behind
its end, or an APDU in a GDU that has none, or `%s` is given a number for a string. What a test says
before a fault, in the same notification, is left out.

The message of `Zlint_test_init_03::recv_gdu` has a `%s` too many. It takes the version, which is a
null pointer if it is 0 and is printed as one; `%d` is then without an argument.
-/

set_option autoImplicit false

namespace Yazpp

open Yazpp.Lib

/-- `Z_ProtocolVersion_3`. -/
def protocolVersion3 : Nat := 2

/-- An init request as the tests send it. -/
structure LintInitRequest where
  referenceId : Option Buf := none
  init : InitRequest
  -- what `yaz_set_proposal_charneg` proposes
  charsets : List String := []
deriving DecidableEq, Repr

/-- What the tests send. -/
inductive LintRequest
  | init (request : LintInitRequest)
  | search (databaseNames : List String) (rpn : Buf)
  | present (start number : Int) (preferredRecordSyntax : Option Oid)
  | sort (inputResultSetNames : List String) (sortedResultSetName : String)
      (sortSequence : Option Buf)
  | scan (databaseNames : List String) (termListAndStartPoint : Option Buf)
deriving DecidableEq, Repr

/-- What `yaz_get_response_charneg` reads of a negotiation record. -/
structure LintCharNeg where
  charset : Option String
  lang : Option String
  selected : Int
deriving DecidableEq, Repr

/-- An init response as the tests read it. -/
structure LintInitResponse where
  referenceId : Option Buf := none
  protocolVersion : Nat
  options : Nat
  preferredMessageSize : Int
  maximumRecordSize : Int
  result : Option Bool
  charneg : Option LintCharNeg := none
deriving DecidableEq, Repr

/-- What the scan test reads of `Z_ListEntries`: whether there are diagnostics, and the number of
entries. -/
structure LintEntries where
  nonsurrogateDiagnostics : Bool
  entries : Option Nat
deriving DecidableEq, Repr

/-- What a server sends to the tests. -/
inductive SuiteGdu
  | initResponse (init : LintInitResponse)
  -- `entries` is optional
  | scanResponse (entries : Option LintEntries)
  | searchResponse (records : Option LintRecords) (resultCount : Option Int)
  | presentResponse (records : Option LintRecords)
  | sortResponse (diagnostics : Bool)
  -- another APDU
  | other
  | http
deriving DecidableEq, Repr

/-- What the search test reads of it. -/
def SuiteGdu.toLint : SuiteGdu → LintGdu
  | .initResponse init => .initResponse init.result
  | .searchResponse records resultCount => .searchResponse records resultCount
  | .presentResponse records => .presentResponse records
  | .sortResponse diagnostics => .sortResponse diagnostics
  | .scanResponse .. | .other | .http => .other

/-- What is undefined in a test. -/
inductive SuiteFault
  | search (fault : LintFault)
  -- `try_scan` is read behind its null entry
  | scan (index : Nat)
  -- `entries` of a scan response is read, which is null
  | noEntries
  -- `u.z3950` of a GDU of HTTP is read
  | noApdu
  -- `%s` with an `int` other than 0
  | badFormat
deriving DecidableEq, Repr

/-- What the tests use of YAZ: what `create_Z_PDU` gives, whether `yaz_oi_APDU` and `yaz_oi_update`
return something, and `yaz_pqf_scan`; and what `%d` prints without an argument. -/
structure SuiteEnv extends LintEnv where
  initRequest : InitRequest
  oiAPDU : Bool
  oiUpdate : Bool
  pqfScan : String → Option Buf
  noArgument : Int

/-- The answer of a test to a notification: itself, what it calls, and its code. -/
abbrev LintAnswer (τ : Type) := τ × List (TestCall LintRequest) × LintCode

/-- `send_Z_PDU` of one init request behind another, up to the first that cannot be sent. -/
def sendInits : List LintInitRequest → List SendOutcome → List (TestCall LintRequest) × LintCode
  | [], _ => ([], .testContinue)
  | request :: requests, sent =>
    match sent.headD .refused with
    | .sent =>
      let (calls, code) := sendInits requests sent.tail
      (.send (.init request) :: calls, code)
    | .refused | .lost =>
      ([.send (.init request), .checkFail "unable to send init request"], .testFinished)

/-- The `init` of a test that checks something and sends init requests. -/
def initWith (what : String) (requests : List LintInitRequest) (sent : List SendOutcome) :
    List (TestCall LintRequest) × LintCode :=
  let (calls, code) := sendInits requests sent
  (.checkFor what :: calls, code)

/-- The `recv_gdu` of a test that wants an init response. -/
def wantInit {τ : Type} (t : τ) (f : LintInitResponse → Except SuiteFault (LintAnswer τ)) :
    SuiteGdu → Except SuiteFault (LintAnswer τ)
  | .initResponse init => f init
  | _ => return (t, [.checkFail "did not receive init response as expected"], .testFinished)

/-- `Zlint::initResponseGetVersion`. -/
def initResponseGetVersion (protocolVersion : Nat) : Nat :=
  (List.range 12).foldl (fun no i => if odrMaskGet protocolVersion no then i + 1 else no) 0

/-- `ODR_MASK_SET` of several bits. -/
def odrMaskSets (mask : Nat) (bits : List Nat) : Nat := bits.foldl odrMaskSet mask

/-! ## The tests of init -/

namespace InitTest01

/-- `Zlint_test_init_01::init`. -/
def init (z : SuiteEnv) : List SendOutcome → List (TestCall LintRequest) × LintCode :=
  initWith "for V3 init"
    [{ init := { z.initRequest with protocolVersion := odrMaskSets 0 protocolVersions } }]

/-- `Zlint_test_init_01::recv_gdu`. -/
def recvGdu : SuiteGdu → Except SuiteFault (LintAnswer Unit) :=
  wantInit () fun init => do
    let ver := initResponseGetVersion init.protocolVersion
    let wrong : List (TestCall LintRequest) := if 3 < ver ∨ ver < 2 then
      [.checkFail ("got version " ++ toString ver ++ ", expected 2 or 3")] else []
    if init.result.getD false then return ((), wrong ++ [.checkOk], .testFinished)
    else return ((), wrong ++ [.checkFail "init rejected (result false)"], .testFinished)

end InitTest01

namespace InitTest02

/-- `Zlint_test_init_02::init`. -/
def init (z : SuiteEnv) : List SendOutcome → List (TestCall LintRequest) × LintCode :=
  initWith "for V2 init"
    [{ init := { z.initRequest with protocolVersion := odrMaskSets 0 [0, 1] } }]

/-- `Zlint_test_init_02::recv_gdu`. -/
def recvGdu : SuiteGdu → Except SuiteFault (LintAnswer Unit) :=
  wantInit () fun init => do
    let ver := initResponseGetVersion init.protocolVersion
    let wrong : List (TestCall LintRequest) := if ver ≠ 2 then
      [.checkFail ("got version " ++ toString ver ++ ", expected 2")] else []
    return ((), wrong ++ [.checkOk], .testFinished)

end InitTest02

namespace InitTest03

/-- `Zlint_test_init_03::init`. -/
def init (z : SuiteEnv) : List SendOutcome → List (TestCall LintRequest) × LintCode :=
  initWith "for V9 init"
    [{ init := { z.initRequest with protocolVersion := odrMaskSets 0 (List.range 9) } }]

/-- `Zlint_test_init_03::recv_gdu`. -/
def recvGdu (z : SuiteEnv) : SuiteGdu → Except SuiteFault (LintAnswer Unit) :=
  wantInit () fun init => do
    let ver := initResponseGetVersion init.protocolVersion
    if ver = 0 then
      return ((), [.checkFail ("(null)got version " ++ toString z.noArgument ++ ", expected 2-5"),
        .checkOk], .testFinished)
    else if ver < 2 ∨ 5 < ver then .error .badFormat
    else return ((), [.checkOk], .testFinished)

end InitTest03

/-- `REFID_BUF1`. -/
def refidBuf1 : Buf := [122, 108, 105, 110, 116, 0, 99, 104, 101, 99, 107, 49]

/-- `REFID_BUF2`. -/
def refidBuf2 : Buf := [122, 108, 105, 110, 116, 0, 99, 104, 101, 99, 107, 50]

/-- An init request of version 3 with more options. -/
def SuiteEnv.version3 (z : SuiteEnv) (options : List Nat) : InitRequest :=
  { z.initRequest with
    protocolVersion := odrMaskSet z.initRequest.protocolVersion protocolVersion3
    options := odrMaskSets z.initRequest.options options }

namespace InitTest04

/-- `Zlint_test_init_04::init`. -/
def init (z : SuiteEnv) : List SendOutcome → List (TestCall LintRequest) × LintCode :=
  initWith "for referenceID for init"
    [{ referenceId := some refidBuf1, init := z.version3 [] }]

/-- `Zlint_test_init_04::recv_gdu`. -/
def recvGdu : SuiteGdu → Except SuiteFault (LintAnswer Unit) :=
  wantInit () fun init => do
    let wrong : List (TestCall LintRequest) := match init.referenceId with
      | none => [.checkFail "missing referenceID from init response"]
      | some id => if id ≠ refidBuf1 then [.checkFail "reference ID does not match"] else []
    return ((), wrong ++ [.checkOk], .testFinished)

end InitTest04

namespace InitTest05

/-- `Zlint_test_init_05::init`. -/
def init (z : SuiteEnv) : List SendOutcome → List (TestCall LintRequest) × LintCode :=
  initWith "for double init"
    [{ referenceId := some refidBuf1, init := z.version3 [optionConcurrentOperations] },
      { referenceId := some refidBuf2, init := z.version3 [optionConcurrentOperations] }]

/-- What `recv_gdu` says of the reference id. -/
def wrongId (which : String) (buf : Buf) : Option Buf → List (TestCall LintRequest)
  | none => [.checkFail ("missing referenceID from " ++ which ++ " init response")]
  | some id =>
    if id ≠ buf then
      [.checkFail ("reference ID does not match from " ++ which ++ " init response")]
    else []

/-- `Zlint_test_init_05::recv_gdu`, with `m_init_response_no`. -/
def recvGdu (initResponseNo : Nat) : SuiteGdu → Except SuiteFault (LintAnswer Nat) :=
  wantInit initResponseNo fun init => do
    let first := wrongId "first" refidBuf1 init.referenceId
    if initResponseNo = 0 ∧ first ≠ [] then return (initResponseNo, first, .testFinished)
    else
      let wrong : List (TestCall LintRequest) :=
        if initResponseNo = 0 then [] else wrongId "second" refidBuf2 init.referenceId
      if init.result.getD false = false then
        return (initResponseNo, wrong ++ [.checkFail "init rejected (result false)"],
          .testFinished)
      else if initResponseNo = 0 then return (initResponseNo + 1, wrong, .testContinue)
      else return (initResponseNo, wrong ++ [.checkOk], .testFinished)

end InitTest05

namespace InitTest06

/-- `Zlint_test_init_06::init`. -/
def init (z : SuiteEnv) : List SendOutcome → List (TestCall LintRequest) × LintCode :=
  initWith "for init options"
    [{ init := { z.version3 [] with options := odrMaskSets 0 (List.range 25) } }]

/-- `Zlint_test_init_06::recv_gdu`. -/
def recvGdu : SuiteGdu → Except SuiteFault (LintAnswer Unit) :=
  wantInit () fun init => do
    let noSet := (List.range 25).countP fun i => odrMaskGet init.options i
    let noReset := (List.range 25).countP fun i => !odrMaskGet init.options i
    if noSet < 2 then
      return ((), [.checkFail "suspicuously few option bits set"], .testFinished)
    else if noReset = 0 then
      return ((), [.checkFail "suspicuously many option bits set"], .testFinished)
    else return ((), [.checkOk], .testFinished)

end InitTest06

namespace InitTest07

/-- `Zlint_test_init_07::init`. -/
def init (z : SuiteEnv) (sent : List SendOutcome) : List (TestCall LintRequest) × LintCode :=
  if z.oiAPDU = false then
    ([.checkFor "for character set negotiation", .checkFail "encoding failure"], .testFinished)
  else if z.oiUpdate then
    initWith "for character set negotiation"
      [{ init := z.version3 [optionNegotiationModel]
         charsets := ["UTF-8", "UTF-16", "UCS-2", "UCS-4", "ISO-8859-1"] }] sent
  else initWith "for character set negotiation" [{ init := z.version3 [] }] sent

/-- `Zlint_test_init_07::recv_gdu`. -/
def recvGdu : SuiteGdu → Except SuiteFault (LintAnswer Unit) :=
  wantInit () fun init => do
    match odrMaskGet init.options optionNegotiationModel, init.charneg with
    | true, some p =>
      return ((), [.checkOk, .checkInfo ("Accepted character set : " ++ shown p.charset),
        .checkInfo ("Accepted code language : " ++ p.lang.getD "none"),
        .checkInfo ("Accepted records in ...: " ++ toString p.selected)], .testFinished)
    | _, _ => return ((), [.checkNotapp], .testFinished)

end InitTest07

namespace InitTest08

/-- The size that is proposed. -/
def size (no : Nat) : Int := no * no * 100000 + 2000

/-- `Zlint_test_init_08::init`, with `m_no`. -/
def init (z : SuiteEnv) (no : Nat) : List SendOutcome → List (TestCall LintRequest) × LintCode :=
  initWith ("for init message sizes " ++ toString no)
    [{ init := { z.version3 [] with
        maximumRecordSize := size no, preferredMessageSize := size no } }]

/-- `Zlint_test_init_08::recv_gdu`. -/
def recvGdu (no : Nat) : SuiteGdu → Except SuiteFault (LintAnswer Nat) :=
  wantInit no fun init => do
    let record : List (TestCall LintRequest) := if size no < init.maximumRecordSize then
      [.checkFail "maximumRecordSize bigger than proposed size"] else []
    let message : List (TestCall LintRequest) := if size no < init.preferredMessageSize then
      [.checkFail "preferredMessage bigger than proposed size"] else []
    if no < 2 then return (no + 1, record ++ message ++ [.checkOk], .testReopen)
    else return (no, record ++ message ++ [.checkOk], .testFinished)

/-- `Zlint_test_init_08::recv_fail`. -/
def recvFail (no : Nat) : Nat × List (TestCall LintRequest) × LintCode :=
  if no < 2 then (no + 1, [.checkFail "target closed connection"], .testReopen)
  else (no, [.checkFail "target closed connection"], .testFinished)

end InitTest08

/-! ## The test of search -/

namespace SearchTest

/-- What the search test calls, as a test of the suite. -/
def toCall : LintCall → TestCall LintRequest
  | .checkFor text => .checkFor text
  | .checkOk => .checkOk
  | .checkInfo text => .checkInfo text
  | .checkFail text => .checkFail text
  | .checkNotapp => .checkNotapp
  | .sendSearch databaseNames rpn => .send (.search databaseNames rpn)
  | .sendPresent start number syntaxOid => .send (.present start number syntaxOid)
  | .sendSort inputs sorted sequence => .send (.sort inputs sorted sequence)

/-- `Zlint_test_search_01::init`. -/
def init (z : SuiteEnv) : List SendOutcome → List (TestCall LintRequest) × LintCode :=
  initWith "search and retrieve" [{ init := z.version3 [optionNamedResultSets, optionSort] }]

/-- `Zlint_test_search_01::recv_gdu`, as a test of the suite. -/
def answer (z : SuiteEnv) (gdu : SuiteGdu) (t : SearchTest) :
    Except SuiteFault (LintAnswer SearchTest) :=
  match t.recvGdu z.toLintEnv gdu.toLint with
  | .ok (t, calls, code) => .ok (t, calls.map toCall, code)
  | .error fault => .error (.search fault)

end SearchTest

/-! ## The test of scan -/

namespace ScanTest

/-- `try_scan`, without its null entry. -/
def tryScan : List String := ["@attr 1=4 ab", "@attr 1=1003 ab", "@attr 1=1016 ab"]

/-- An entry of `try_scan`. -/
def read (index : Nat) : Except SuiteFault (Option String) :=
  if index ≤ tryScan.length then .ok tryScan[index]? else .error (.scan index)

/-- `Zlint_test_scan_01::init`, which does not say what it checks. -/
def init (z : SuiteEnv) (sent : List SendOutcome) : List (TestCall LintRequest) × LintCode :=
  sendInits [{ init := z.version3 [optionNamedResultSets, optionScan] }] sent

/-- `Zlint_test_scan_01::sendTest`, with `m_scan_no`. -/
def sendTest (z : SuiteEnv) (scanNo : Nat) :
    Except SuiteFault (List (TestCall LintRequest) × LintCode) := do
  match ← read scanNo with
  | some scan =>
    return ([.checkFor ("scan support " ++ scan), .send (.scan [z.database] (z.pqfScan scan))],
      .testContinue)
  | none => return ([], .testFinished)

/-- `Zlint_test_scan_01::recv_gdu`. -/
def recvGdu (z : SuiteEnv) (scanNo : Nat) : SuiteGdu → Except SuiteFault (LintAnswer Nat)
  | .initResponse init => do
    let ver := initResponseGetVersion init.protocolVersion
    let wrong : List (TestCall LintRequest) := if 3 < ver ∨ ver < 2 then
      [.checkFail ("got version " ++ toString ver ++ ", expected 2 or 3")] else []
    if init.result.getD false = false then
      return (scanNo, wrong ++ [.checkFail "init rejected (result false)"], .testFinished)
    else if odrMaskGet init.options optionScan = false then
      return (scanNo, wrong ++ [.checkNotapp, .checkInfo "scan unsupported"], .testFinished)
    else
      -- the code of `sendTest` is dropped
      let (calls, _) ← sendTest z scanNo
      return (scanNo, wrong ++ calls, .testContinue)
  | .http => .error .noApdu
  | .scanResponse none => .error .noEntries
  | .scanResponse (some entries) => do
    let said : List (TestCall LintRequest) ←
      if entries.nonsurrogateDiagnostics then do
        let scan ← read scanNo
        pure [.checkOk, .checkInfo ("scan NSD for " ++ shown scan)]
      else if 0 < entries.entries.getD 0 then pure [.checkOk]
      else do
        let scan ← read scanNo
        pure [.checkFail ("scan no entries/diagnostics for " ++ shown scan)]
    let (calls, code) ← sendTest z (scanNo + 1)
    return (scanNo + 1, said ++ calls, code)
  | _ => return (scanNo, [.checkFail "did not receive init response as expected"], .testFinished)

/-- `Zlint_test_scan_01::recv_fail`. -/
def recvFail (scanNo : Nat) : Nat × List (TestCall LintRequest) × LintCode :=
  (scanNo + 1, [.checkFail "target closed connection"], .testFinished)

end ScanTest

/-! ## All of them -/

/-- The tests, with their members. -/
inductive SuiteTest
  | init01
  | init02
  | init03
  | init04
  | init05 (initResponseNo : Nat)
  | init06
  | init07
  | init08 (no : Nat)
  | search01 (test : SearchTest)
  | scan01 (scanNo : Nat)
deriving DecidableEq, Repr

namespace SuiteTest

/-- `Zlint_test_simple::recv_fail`, which `Zlint_test_search_01` has too. -/
def simpleRecvFail {τ : Type} (t : τ) : τ × List (TestCall LintRequest) × LintCode :=
  (t, [.checkFail "target closed connection"], .testFinished)

/-- `Zlint_test::init`. -/
def init (z : SuiteEnv) (sent : List SendOutcome) (t : SuiteTest) :
    Except SuiteFault (LintAnswer SuiteTest) :=
  return (t, match t with
    | .init01 => InitTest01.init z sent
    | .init02 => InitTest02.init z sent
    | .init03 => InitTest03.init z sent
    | .init04 => InitTest04.init z sent
    | .init05 _ => InitTest05.init z sent
    | .init06 => InitTest06.init z sent
    | .init07 => InitTest07.init z sent
    | .init08 no => InitTest08.init z no sent
    | .search01 _ => SearchTest.init z sent
    | .scan01 _ => ScanTest.init z sent)

/-- An answer of a test, as one of the suite. -/
def lift {τ : Type} (f : τ → SuiteTest) (answer : Except SuiteFault (LintAnswer τ)) :
    Except SuiteFault (LintAnswer SuiteTest) :=
  answer.map fun (t, calls, code) => (f t, calls, code)

/-- `Zlint_test::recv_gdu`. -/
def recvGdu (z : SuiteEnv) (gdu : SuiteGdu) : SuiteTest → Except SuiteFault (LintAnswer SuiteTest)
  | .init01 => lift (fun _ => .init01) (InitTest01.recvGdu gdu)
  | .init02 => lift (fun _ => .init02) (InitTest02.recvGdu gdu)
  | .init03 => lift (fun _ => .init03) (InitTest03.recvGdu z gdu)
  | .init04 => lift (fun _ => .init04) (InitTest04.recvGdu gdu)
  | .init05 no => lift .init05 (InitTest05.recvGdu no gdu)
  | .init06 => lift (fun _ => .init06) (InitTest06.recvGdu gdu)
  | .init07 => lift (fun _ => .init07) (InitTest07.recvGdu gdu)
  | .init08 no => lift .init08 (InitTest08.recvGdu no gdu)
  | .search01 t => lift .search01 (t.answer z gdu)
  | .scan01 no => lift .scan01 (ScanTest.recvGdu z no gdu)

/-- `Zlint_test::recv_fail`. No test reads the reason. -/
def recvFail (_reason : Int) (t : SuiteTest) : Except SuiteFault (LintAnswer SuiteTest) :=
  match t with
  | .init08 no => lift .init08 (.ok (InitTest08.recvFail no))
  | .scan01 no => lift .scan01 (.ok (ScanTest.recvFail no))
  | t => .ok (simpleRecvFail t)

/-- The tests as `Zlint` knows them. -/
def ops (z : SuiteEnv) : ZlintTest SuiteTest SuiteGdu LintRequest SuiteFault where
  init := init z
  recvGdu := recvGdu z
  recvFail := recvFail

/-- The tests that `main` adds, as they are made. -/
def all : List SuiteTest :=
  [.init01, .init02, .init03, .init04, .init05 0, .init06, .init07, .init08 0, .search01 {},
    .scan01 0]

end SuiteTest

/-- zlint, with any server. -/
def zlintMain (z : SuiteEnv) :
    Machine (Zlint SuiteTest) (ZlintInput SuiteGdu) (ZlintCall LintRequest SuiteFault) :=
  zlint (SuiteTest.ops z)

end Yazpp
