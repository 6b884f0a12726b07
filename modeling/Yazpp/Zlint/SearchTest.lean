import Yazpp.CInt
import Yazpp.Lib.Machine
import Yazpp.ZServer.Apdu

/-!
# `Zlint_test_search_01`

The embedding of `zlint/test-search-01.cpp`: a test that asks a server for a result set, for one
record in each syntax of a list, and to sort it in each way of another. How far it has come is three
places in three tables that end with a null entry. A read behind that entry is a fault, and so is
the comparison of an OID that is not there.

What the test reads of a response is all there is of one. The places are natural numbers: an `int`
that overflows has left its table long before.
-/

set_option autoImplicit false

namespace Yazpp

open Yazpp.Lib

/-- The tables of the test. -/
inductive LintTable
  | tryQuery
  | trySyntax
  | trySort
deriving DecidableEq, Repr

/-- `try_query`, `try_syntax` and `try_sort`, without their null entries. No comma separates
`"sword"` from `"seven"`. -/
def LintTable.entries : LintTable → List String
  | .tryQuery =>
    ["@attr 1=4 petersson", "@attr 1=1016 petersson", "@attr 1=4 kingdom", "@attr 1=1016 kingdom",
      "@attr 1=62 sword", "swordseven", "@attr 1=4 water", "@attr 1=1016 water", "computer",
      "@attr 1=4 computer", "@attr 1=1016 computer", "water", "join", "about", "map"]
  | .trySyntax => ["usmarc", "unimarc", "danmarc", "sutrs", "grs1", "xml", "normarc"]
  | .trySort => ["1=4 <", "1=4 >", "1=62 >", "1=62 <"]

/-- What goes wrong: a table is read behind its null entry, or `oid_oidcmp` reads a null pointer. -/
inductive LintFault
  | past (table : LintTable) (index : Nat)
  | nullOid
deriving DecidableEq, Repr

/-- An entry of a table; the last one is null. -/
def LintTable.read (table : LintTable) (index : Nat) : Except LintFault (Option String) :=
  if index ≤ table.entries.length then .ok table.entries[index]? else .error (.past table index)

/-- `Z_NamePlusRecord`, as the test tells its members apart. -/
inductive LintRecord
  | databaseRecord (directReference : Option Oid)
  | surrogateDiagnostic
  | fragment
deriving DecidableEq, Repr

/-- `Z_Records`; a record may be a null pointer. -/
inductive LintRecords
  | dbosd (records : List (Option LintRecord))
  | nsd
  | multipleNsd
deriving DecidableEq, Repr

/-- What a server sends. -/
inductive LintGdu
  | initResponse (result : Option Bool)
  | searchResponse (records : Option LintRecords) (resultCount : Option Int)
  | presentResponse (records : Option LintRecords)
  | sortResponse (diagnostics : Bool)
  | other
deriving DecidableEq, Repr

/-- What the test says (`msg_check_for` and the like) and sends. -/
inductive LintCall
  | checkFor (text : String)
  | checkOk
  | checkInfo (text : String)
  | checkFail (text : String)
  | checkNotapp
  | sendSearch (databaseNames : List String) (rpn : Buf)
  | sendPresent (start number : Int) (preferredRecordSyntax : Option Oid)
  | sendSort (inputResultSetNames : List String) (sortedResultSetName : String)
      (sortSequence : Option Buf)
deriving DecidableEq, Repr

/-- `Zlint_code`. -/
inductive LintCode
  | testFinished
  | testContinue
  | testReopen
deriving DecidableEq, Repr

/-- What the test uses of `Zlint` and of YAZ: the database, `yaz_pqf_parse`, `yaz_sort_spec`, and
`yaz_string_to_oid_odr`, which is called with a null pointer too. -/
structure LintEnv where
  database : String
  pqfParse : String → Option Buf
  sortSpec : String → Option Buf
  stringToOid : Option String → Option Oid

/-- `Zlint_test_search_01`. -/
structure SearchTest where
  queryNo : Nat := 0
  gotResultSet : Bool := false
  recordSyntaxNo : Nat := 0
  sortNo : Nat := 0
deriving DecidableEq, Repr

/-- An entry where a message has `%s`. -/
def shown (entry : Option String) : String := entry.getD "(null)"

namespace SearchTest

/-- `Zlint_test_search_01::sendTest`. -/
def sendTest (z : LintEnv) (t : SearchTest) : Except LintFault (List LintCall × LintCode) :=
  if t.gotResultSet = false then do
    match ← LintTable.tryQuery.read t.queryNo with
    | some query =>
      match z.pqfParse query with
      | none => return ([.checkFail ("Query " ++ query ++ " invalid")], .testFinished)
      | some rpn => return ([.sendSearch [z.database] rpn], .testContinue)
    | none => return ([.checkNotapp, .checkInfo "unable to get any hit count"], .testFinished)
  else do
    match ← LintTable.trySyntax.read t.recordSyntaxNo with
    | some recordSyntax =>
      return ([.checkFor ("record syntax " ++ recordSyntax),
        .sendPresent 1 1 (z.stringToOid (some recordSyntax))], .testContinue)
    | none =>
      match ← LintTable.trySort.read t.sortNo with
      | some sort =>
        return ([.checkFor ("sort " ++ sort),
          .sendSort ["default"] "default" (z.sortSpec sort)], .testContinue)
      | none => return ([], .testFinished)

/-- `oid_oidcmp`, as a test for equality. -/
def oidcmp : Option Oid → Option Oid → Except LintFault Bool
  | some oid, some oid' => .ok (oid = oid')
  | _, _ => .error .nullOid

/-- What `recv_gdu` says of a present response. -/
def presentReport (z : LintEnv) (records : Option LintRecords) (t : SearchTest) :
    Except LintFault (List LintCall) :=
  match records with
  | some (.dbosd (some record :: _)) => do
    let entry ← LintTable.trySyntax.read t.recordSyntaxNo
    match record with
    | .databaseRecord directReference =>
      if ← oidcmp (z.stringToOid entry) directReference then return [.checkOk]
      else
        return [.checkFail ("Got Record in different syntax from that requested " ++ shown entry)]
    | .surrogateDiagnostic => return [.checkOk, .checkInfo ("present returned SD " ++ shown entry)]
    | .fragment => return [.checkOk, .checkInfo ("present returned fragment " ++ shown entry)]
  | some (.dbosd _) => return [.checkFail "present returned no records or diagnostics"]
  | none => return [.checkFail "present returned no records or diagnostics"]
  | some _ => do
    let entry ← LintTable.trySyntax.read t.recordSyntaxNo
    return [.checkOk, .checkInfo ("present returned NSD for " ++ shown entry)]

/-- `sendTest`, behind what was said before it. -/
def goOn (z : LintEnv) (said : List LintCall) (t : SearchTest) :
    Except LintFault (SearchTest × List LintCall × LintCode) := do
  let (calls, code) ← t.sendTest z
  return (t, said ++ calls, code)

/-- `Zlint_test_search_01::recv_gdu`. -/
def recvGdu (z : LintEnv) (gdu : LintGdu) (t : SearchTest) :
    Except LintFault (SearchTest × List LintCall × LintCode) :=
  match gdu with
  | .initResponse result =>
    if result.getD false then t.goOn z []
    else return (t, [.checkNotapp, .checkInfo "init rejected (result false)"], .testFinished)
  | .searchResponse records resultCount =>
    if records = some .nsd ∨ records = some .multipleNsd then
      { t with queryNo := t.queryNo + 1 }.goOn z []
    else
      match resultCount with
      | none => { t with queryNo := t.queryNo + 1 }.goOn z []
      | some count =>
        if count = 0 then { t with queryNo := t.queryNo + 1 }.goOn z []
        else do
          let entry ← LintTable.tryQuery.read t.queryNo
          { t with gotResultSet := true }.goOn z [.checkOk, .checkInfo ("got " ++
            toString (toInt32 count) ++ " result count with " ++ shown entry)]
  | .presentResponse records => do
    let said ← t.presentReport z records
    { t with recordSyntaxNo := t.recordSyntaxNo + 1 }.goOn z said
  | .sortResponse diagnostics => do
    let said ← if diagnostics then do
        let entry ← LintTable.trySort.read t.sortNo
        pure [LintCall.checkOk, .checkInfo ("sort NSD for " ++ shown entry)]
      else pure [.checkOk]
    { t with sortNo := t.sortNo + 1 }.goOn z said
  | .other =>
    return (t, [.checkFail "did not receive init/search/present response as expected"],
      .testFinished)

end SearchTest

/-- The test while it gets what the server sends, and what ends that. -/
inductive LintState
  | running (test : SearchTest)
  | finished
  | fault (fault : LintFault)
deriving DecidableEq, Repr

/-- One GDU. Behind the end of the test the GDUs are for the next one. -/
def LintState.step (z : LintEnv) (gdu : LintGdu) : LintState → LintState × List LintCall
  | .running t =>
    match t.recvGdu z gdu with
    | .error e => (.fault e, [])
    | .ok (_, calls, .testFinished) => (.finished, calls)
    | .ok (t, calls, _) => (.running t, calls)
  | s => (s, [])

end Yazpp
