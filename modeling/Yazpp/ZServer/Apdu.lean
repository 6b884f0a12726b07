import Yazpp.Comstack

/-!
# The APDUs that a server takes and answers

YAZ's APDU types as the server reads and writes them. An `Odr_int` is an `Int` (64 bits wide in the
source; narrowed by `toInt32` where the source assigns one to an `int`), an `Odr_oct` is a list of
octets, and a pointer that may be null is an `Option`. What only a service handler reads of a
request (the query, the package of an extended service) is one run of octets.

`get_referenceIdP` is the source's own switch: it knows the APDUs that have a reference id, less
those that it forgets.
-/

set_option autoImplicit false

namespace Yazpp

/-! ## Masks of options -/

/-- `ODR_MASK_GET`. -/
def odrMaskGet (mask bit : Nat) : Bool := mask.testBit bit

/-- `ODR_MASK_SET`. -/
def odrMaskSet (mask bit : Nat) : Nat := mask ||| 1 <<< bit

/-- `Z_Options_search`. -/
def optionSearch : Nat := 0

/-- `Z_Options_present`. -/
def optionPresent : Nat := 1

/-- `Z_Options_extendedServices`. -/
def optionExtendedServices : Nat := 10

/-- `Z_Options_delSet`. -/
def optionDelSet : Nat := 2

/-- `Z_Options_triggerResourceCtrl`. -/
def optionTriggerResourceCtrl : Nat := 4

/-- `Z_Options_scan`. -/
def optionScan : Nat := 7

/-- `Z_Options_sort`. -/
def optionSort : Nat := 8

/-- `Z_Options_concurrentOperations`. -/
def optionConcurrentOperations : Nat := 13

/-- `Z_Options_namedResultSets`. -/
def optionNamedResultSets : Nat := 14

/-- `Z_Options_negotiationModel`. -/
def optionNegotiationModel : Nat := 17

/-- `Z_ProtocolVersion_1`, `_2` and `_3`. -/
def protocolVersions : List Nat := [0, 1, 2]

/-! ## Records -/

/-- An `Odr_oid`. -/
abbrev Oid := List Nat

/-- `Z_RecordComposition`. -/
inductive RecordComposition
  | simple (elementSetNames : Buf)
  | complex (spec : Buf)
deriving DecidableEq, Repr

/-- The union of `Z_NamePlusRecord`: a database record, null where there is none, or a surrogate
diagnostic of the set bib-1. -/
inductive RecordContent
  | databaseRecord (record : Option Buf)
  | surrogateDiagnostic (condition : Int) (addinfo : Buf)
deriving DecidableEq, Repr

/-- `Z_NamePlusRecord`. -/
structure NamePlusRecord where
  databaseName : Option Buf := none
  content : RecordContent := .databaseRecord none
deriving DecidableEq, Repr

/-- `Z_Records`. -/
inductive Records
  | databaseOrSurDiagnostics (records : List NamePlusRecord)
  | nonSurrogateDiagnostic (condition : Int) (addinfo : Buf)
  | multipleNonSurDiagnostics (conditions : List Int)
deriving DecidableEq, Repr

/-- `Z_PresentStatus_success`. -/
def presentSuccess : Int := 0

/-- `Z_PresentStatus_partial_2`. -/
def presentPartial2 : Int := 2

/-- `Z_PresentStatus_failure`. -/
def presentFailure : Int := 5

/-! ## Requests and responses -/

structure InitRequest where
  protocolVersion : Nat
  options : Nat
  preferredMessageSize : Int
  maximumRecordSize : Int
deriving DecidableEq, Repr

structure InitResponse where
  protocolVersion : Nat
  options : Nat
  preferredMessageSize : Int
  maximumRecordSize : Int
  result : Bool
deriving DecidableEq, Repr

structure SearchRequest where
  resultSetName : Buf
  smallSetUpperBound : Int
  largeSetLowerBound : Int
  mediumSetPresentNumber : Int
  smallSetElementSetNames : Option Buf
  mediumSetElementSetNames : Option Buf
  preferredRecordSyntax : Option Oid
  query : Buf
deriving DecidableEq, Repr

structure SearchResponse where
  resultCount : Int
  numberOfRecordsReturned : Int
  nextResultSetPosition : Int
  searchStatus : Bool
  resultSetStatus : Option Int
  presentStatus : Option Int
  records : Option Records
deriving DecidableEq, Repr

structure PresentRequest where
  resultSetId : Buf
  resultSetStartPoint : Int
  numberOfRecordsRequested : Int
  recordComposition : Option RecordComposition
  preferredRecordSyntax : Option Oid
deriving DecidableEq, Repr

structure PresentResponse where
  numberOfRecordsReturned : Int
  nextResultSetPosition : Int
  presentStatus : Int
  records : Option Records
deriving DecidableEq, Repr

/-- The `which` of the `Z_External` that an extended service carries, as the facilities tell them
apart. -/
inductive ExternalType
  | itemOrder | update | update0 | other
deriving DecidableEq, Repr

structure ExtendedServicesRequest where
  taskSpecificParameters : Option (ExternalType × Buf)
deriving DecidableEq, Repr

structure ExtendedServicesResponse where
  operationStatus : Int
  taskPackage : Option Buf
deriving DecidableEq, Repr

/-- `Z_APDU::which`. -/
inductive ApduType
  | initRequest | initResponse
  | searchRequest | searchResponse
  | presentRequest | presentResponse
  | deleteResultSetRequest | deleteResultSetResponse
  | accessControlRequest | accessControlResponse
  | resourceControlRequest | resourceControlResponse
  | triggerResourceControlRequest
  | resourceReportRequest | resourceReportResponse
  | scanRequest | scanResponse
  | sortRequest | sortResponse
  | segmentRequest
  | extendedServicesRequest | extendedServicesResponse
  | close
  | duplicateResultSetRequest | duplicateResultSetResponse
deriving DecidableEq, Repr

/-- The union of `Z_APDU`. The APDUs that no server here looks into carry their octets. -/
inductive ApduBody
  | initRequest (req : InitRequest)
  | initResponse (res : InitResponse)
  | searchRequest (req : SearchRequest)
  | searchResponse (res : SearchResponse)
  | presentRequest (req : PresentRequest)
  | presentResponse (res : PresentResponse)
  | extendedServicesRequest (req : ExtendedServicesRequest)
  | extendedServicesResponse (res : ExtendedServicesResponse)
  | other (which : ApduType) (octets : Buf)
deriving DecidableEq, Repr

/-- `Z_APDU`: one of its structures, each of which has a `referenceId`. -/
structure Apdu where
  referenceId : Option Buf := none
  body : ApduBody
deriving DecidableEq, Repr

/-- `Z_GDU`. -/
inductive Gdu
  | z3950 (apdu : Apdu)
  | http (octets : Buf)
deriving DecidableEq, Repr

namespace Apdu

/-- `Z_APDU::which`. -/
def which (apdu : Apdu) : ApduType :=
  match apdu.body with
  | .initRequest _ => .initRequest
  | .initResponse _ => .initResponse
  | .searchRequest _ => .searchRequest
  | .searchResponse _ => .searchResponse
  | .presentRequest _ => .presentRequest
  | .presentResponse _ => .presentResponse
  | .extendedServicesRequest _ => .extendedServicesRequest
  | .extendedServicesResponse _ => .extendedServicesResponse
  | .other which _ => which

end Apdu

/-- The cases of `Z_Assoc::get_referenceIdP`: for any other APDU it returns null. -/
def ApduType.hasReferenceIdP : ApduType → Bool
  | .duplicateResultSetRequest | .duplicateResultSetResponse => false
  | _ => true

namespace Apdu

/-- What `*Z_Assoc::get_referenceIdP(apdu)` holds; `none` where the pointer or what it points to is
null. -/
def referenceIdP (apdu : Apdu) : Option Buf :=
  if apdu.which.hasReferenceIdP then apdu.referenceId else none

/-- `Z_Assoc::transfer_referenceId`. -/
def transferReferenceId (source target : Apdu) : Apdu :=
  if target.which.hasReferenceIdP then { target with referenceId := source.referenceIdP }
  else target

end Apdu

end Yazpp
