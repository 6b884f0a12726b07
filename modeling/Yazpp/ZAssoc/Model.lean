import Yazpp.Lib.Machine
import Yazpp.Odr

/-!
# `Z_Assoc`: encoding and the APDU log

The part of `src/yaz-z-assoc.cpp` that encodes an APDU and hands it to the PDU layer, with the log
it writes on the way: `encode_GDU`, `send_GDU`, `set_APDU_log` and `set_APDU_yazlog`. The stream
`odr_out` is a parameter (`OdrEncode`); what is printed, where it goes, and what `send_PDU` is
called with are in the calls.

Left out: `odr_in`, which only `decode_GDU` reads, and `hostname`.
-/

set_option autoImplicit false

namespace Yazpp

open Yazpp.Lib

/-- A `FILE *`: the two that the process has, and what `fopen` gave. -/
inductive LogFile
  | stderr
  | yazLog
  | opened (file : Nat)
deriving DecidableEq, Repr

/-- What a `Z_Assoc` does to the log and to its `PDU_Observable`, and what `encode_GDU` returns. -/
inductive ZCall (γ : Type)
  | yazLog (text : String)
  | fopen (fname : String) (file : Option LogFile)
  | fclose (file : LogFile)
  | setPrint (file : Option LogFile)
  | print (file : Option LogFile) (gdu : γ)
  | fprintf (file : LogFile) (text : String)
  | fflush (file : LogFile)
  | sendPdu (buf : Buf)
  | encoded (ret : Int) (buf : Option Buf)
deriving DecidableEq, Repr

/-- `Z_Assoc_priv`. `printTo` is where `odr_print` prints to, as `odr_setprint` left it. -/
structure ZAssoc (σ : Type) where
  odrOut : σ
  printTo : Option LogFile := none
  apduFile : Option LogFile := none
  apduFname : Option String := none
  apduYazlog : Int := 0
deriving DecidableEq, Repr

/-- What `encode_GDU` leaves: the association, what it logged, its `int`, and `*buf`. -/
structure Encoding (γ σ : Type) where
  assoc : ZAssoc σ
  calls : List (ZCall γ)
  ret : Int
  buf : Option Buf

namespace ZAssoc

variable {γ σ : Type}

/-- The constructor. -/
def new (odr : OdrEncode γ σ) : ZAssoc σ := { odrOut := odr.createmem }

/-- `Z_Assoc::set_APDU_log`; `file` is what `fopen` gives. -/
def setApduLog (fname : Option String) (file : Option LogFile) (z : ZAssoc σ) :
    ZAssoc σ × List (ZCall γ) :=
  let (kept, closed) : Option LogFile × List (ZCall γ) :=
    match z.apduFile with
    | none => (none, [])
    | some .stderr => (some .stderr, [])
    | some f => (none, [.fclose f])
  match fname with
  | none => ({ z with apduFile := kept, apduFname := none }, closed)
  | some fname =>
    let (opened, calls) : Option LogFile × List (ZCall γ) :=
      if fname = "-" then (some .stderr, [])
      else if fname = "" then (none, [])
      else (file, [.fopen fname file])
    ({ z with apduFile := opened, apduFname := some fname, printTo := opened },
      closed ++ calls ++ [.setPrint opened])

/-- `Z_Assoc::set_APDU_yazlog`. -/
def setApduYazlog (v : Int) (z : ZAssoc σ) : ZAssoc σ × Int :=
  ({ z with apduYazlog := v }, z.apduYazlog)

/-- `Z_Assoc::encode_GDU`. The stream is reset behind a value that was encoded, and only there. -/
def encodeGdu (odr : OdrEncode γ σ) (g : γ) (z : ZAssoc σ) : Encoding γ σ :=
  let out := (odr.zGdu z.odrOut g).1
  let r := (odr.zGdu z.odrOut g).2
  let report := "PDU encode failed. Element " ++ (odr.getelement out).getD "unknown"
  let yazlogged : List (ZCall γ) :=
    if z.apduYazlog ≠ 0 ∨ r = false then
      (if r then [] else [.yazLog report]) ++
        [.setPrint (some .yazLog), .print (some .yazLog) g, .setPrint z.apduFile]
    else []
  let printTo := if z.apduYazlog ≠ 0 ∨ r = false then z.apduFile else z.printTo
  let filed : List (ZCall γ) :=
    match z.apduFile with
    | none => []
    | some f => (if r then [] else [.fprintf f report]) ++ [.print printTo g, .fflush f]
  let z := { z with printTo := printTo }
  if r then
    { assoc := { z with odrOut := odr.reset out }
      calls := yazlogged ++ filed
      ret := (odr.getbuf out).length
      buf := some (odr.getbuf out) }
  else
    { assoc := { z with odrOut := out }
      calls := yazlogged ++ filed
      ret := -1
      buf := none }

/-- `Z_Assoc::send_GDU`; `res` is what `send_PDU` gives. -/
def sendGdu (odr : OdrEncode γ σ) (g : γ) (res : Int) (z : ZAssoc σ) : Encoding γ σ :=
  let e := z.encodeGdu odr g
  match e.buf with
  | some buf =>
    if 0 < e.ret then { e with calls := e.calls ++ [.sendPdu buf], ret := res }
    else { e with ret := -1 }
  | none => { e with ret := -1 }

end ZAssoc

/-- A call on a `Z_Assoc`. -/
inductive ZInput (γ : Type)
  | sendGdu (gdu : γ) (res : Int)
  | encodeGdu (gdu : γ)
  | setApduLog (fname : Option String) (file : Option LogFile)
  | setApduYazlog (v : Int)
deriving DecidableEq, Repr

/-- One `Z_Assoc` under any sequence of calls. -/
def zAssoc {γ σ : Type} (odr : OdrEncode γ σ) : Machine (ZAssoc σ) (ZInput γ) (ZCall γ) where
  step z i :=
    match i with
    | .sendGdu g res =>
      let e := z.sendGdu odr g res
      some (e.assoc, e.calls)
    | .encodeGdu g =>
      let e := z.encodeGdu odr g
      some (e.assoc, e.calls ++ [.encoded e.ret e.buf])
    | .setApduLog fname file => some (z.setApduLog fname file)
    | .setApduYazlog v => some ((z.setApduYazlog v).1, [])

end Yazpp
