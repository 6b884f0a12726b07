import Yazpp.ZAssoc.Model

/-!
# `Z_Assoc`: decoding, and the end

What `src/yaz-z-assoc.cpp` does to the APDU log besides encoding: `decode_GDU` prints what it
decoded, and the destructor of `Z_Assoc_priv` leaves it to `odr_destroy` to close the stream that
`odr_print` prints to. `zLife` is one `Z_Assoc` from its constructor to its destructor; a stream
that `fopen` gives is one that it has not given before.
-/

set_option autoImplicit false

namespace Yazpp

open Yazpp.Lib

/-- What a decoding stream says of a failure: `odr_errmsg`, `odr_offset` and `odr_getelement`. -/
structure DecodeError where
  message : String
  offset : Int
  element : Option String
deriving DecidableEq, Repr

/-- What `decode_GDU` uses of YAZ: the decoding stream, which it resets first, and the two ways in
which the octets are shown. -/
structure OdrDecode (γ : Type) where
  zGdu : Buf → Except DecodeError γ
  escaped : Buf → String
  dumpBer : Buf → String

/-- What `decode_GDU` leaves: the association, what it logged, and what it returns. -/
structure Decoding (γ σ : Type) where
  assoc : ZAssoc σ
  calls : List (ZCall γ)
  gdu : Option γ

namespace ZAssoc

variable {γ σ : Type}

/-- What `decode_GDU` writes to the YAZ log where the octets do not decode. -/
def decodeReport (odr : OdrDecode γ) (buf : Buf) (e : DecodeError) : List (ZCall γ) :=
  let element :=
    match e.element with
    | none => "unknown"
    | some name => if name = "" then "unknown" else name
  [.yazLog ("PDU decode failed '" ++ e.message ++ "' near byte " ++ toString e.offset ++
      ". Element " ++ element),
    .yazLog ("Buffer length: " ++ toString buf.length)] ++
  (if buf = [] then [] else [.yazLog ("Buffer bytes: " ++ odr.escaped (buf.take 1024))]) ++
  [.yazLog "PDU dump:", .fprintf .yazLog (odr.dumpBer buf)]

/-- `Z_Assoc::decode_GDU`. -/
def decodeGdu (odr : OdrDecode γ) (buf : Buf) (z : ZAssoc σ) : Decoding γ σ :=
  match odr.zGdu buf with
  | .error e => { assoc := z, calls := decodeReport odr buf e, gdu := none }
  | .ok g =>
    let yazlogged : List (ZCall γ) :=
      if z.apduYazlog ≠ 0 then
        [.setPrint (some .yazLog), .print (some .yazLog) g, .setPrint z.apduFile]
      else []
    let printTo := if z.apduYazlog ≠ 0 then z.apduFile else z.printTo
    let filed : List (ZCall γ) :=
      match z.apduFile with
      | none => []
      | some f => [.print printTo g, .fflush f]
    { assoc := { z with printTo := printTo }
      calls := yazlogged ++ filed
      gdu := some g }

/-- `odr_destroy(odr_print)` in the destructor of `Z_Assoc_priv`. -/
def destroy (z : ZAssoc σ) : List (ZCall γ) :=
  match z.printTo with
  | none => []
  | some .stderr => []
  | some f => [.fclose f]

end ZAssoc

/-- A call on a `Z_Assoc`, or its destruction. -/
inductive ZLifeInput (γ : Type)
  | call (i : ZInput γ)
  | decodeGdu (buf : Buf)
  | destroy
deriving DecidableEq, Repr

/-- A `Z_Assoc` while it is there, and the streams that `fopen` has given. -/
structure ZLife (σ : Type) where
  assoc : Option (ZAssoc σ)
  files : List Nat := []
deriving DecidableEq, Repr

/-- What `fopen` gives to a call: nothing, or a stream. -/
def ZInput.file {γ : Type} : ZInput γ → Option LogFile
  | .setApduLog _ file => file
  | _ => none

namespace ZLife

variable {γ σ : Type}

/-- The constructor. -/
def new (odr : OdrEncode γ σ) : ZLife σ := { assoc := some (ZAssoc.new odr) }

/-- The streams that were given, with what `fopen` gives now; `none` where that is not a new one. -/
def give (files : List Nat) : Option LogFile → Option (List Nat)
  | none => some files
  | some (.opened file) => if file ∈ files then none else some (files ++ [file])
  | some _ => none

/-- One call. Nothing is called behind the destructor. -/
def step (out : OdrEncode γ σ) (dec : OdrDecode γ) (s : ZLife σ) (i : ZLifeInput γ) :
    Option (ZLife σ × List (ZCall γ)) :=
  match s.assoc with
  | none => none
  | some z =>
    match i with
    | .call i =>
      match give s.files i.file, (zAssoc out).step z i with
      | some files, some (z, calls) => some ({ assoc := some z, files := files }, calls)
      | _, _ => none
    | .decodeGdu buf =>
      let d := z.decodeGdu dec buf
      some ({ s with assoc := some d.assoc }, d.calls)
    | .destroy => some ({ s with assoc := none }, z.destroy)

end ZLife

/-- One `Z_Assoc` from its constructor to its destructor. -/
def zLife {γ σ : Type} (out : OdrEncode γ σ) (dec : OdrDecode γ) :
    Machine (ZLife σ) (ZLifeInput γ) (ZCall γ) := ⟨ZLife.step out dec⟩

end Yazpp
