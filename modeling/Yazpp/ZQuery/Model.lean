import Yazpp.Lib.Machine
import Yazpp.Odr

/-!
# `Yaz_Z_Query`, function by function

The embedding of `src/yaz-z-query.cpp`. A query is kept encoded: `buf` is the octets, null where
there are none, and `len` how many they are, which is assigned apart from `buf` and not always with
it. What is decoded again and compared is the `len` octets that `buf` points to.

The encoding stream is a parameter (`OdrEncode`), as are the decoder and the parser of RPN strings
(`QueryYaz`). To copy octets that are not there is undefined: `none`.
-/

set_option autoImplicit false

namespace Yazpp

open Yazpp.Lib

/-- What a query uses of YAZ besides the stream: `p_query_rpn`, with the `Z_Query` of type 1 that is
put around what it makes, and `z_Query` on a decoding stream. -/
structure QueryYaz (γ : Type) where
  pQueryRpn : String → Option γ
  decode : Buf → Option γ

/-- `memcpy` out of `buf` into memory of `len` octets that was just allocated. Of a null pointer
only nothing can be copied, and no more than there is of a buffer. -/
def memcpy (buf : Option Buf) (len : Nat) : Option Buf :=
  match buf with
  | none => if len = 0 then some [] else none
  | some octets => if len ≤ octets.length then some (octets.take len) else none

/-- `Yaz_Z_Query::Rep`. The streams that decode and print are reset before they are used. -/
structure ZQuery (σ : Type) where
  odrEncode : σ
  buf : Option Buf := none
  len : Nat := 0
deriving DecidableEq, Repr

namespace ZQuery

variable {γ σ : Type} (odr : OdrEncode γ σ) (yaz : QueryYaz γ)

/-- `Yaz_Z_Query::Yaz_Z_Query()`. -/
def new : ZQuery σ := { odrEncode := odr.createmem }

/-- `Yaz_Z_Query::Yaz_Z_Query(const Yaz_Z_Query &q)`. -/
def copy (q : ZQuery σ) : Option (ZQuery σ) :=
  (memcpy q.buf q.len).map fun octets =>
    { odrEncode := odr.createmem
      buf := some octets
      len := q.len }

/-- `Yaz_Z_Query::operator=`, from another query. -/
def assign (this q : ZQuery σ) : Option (ZQuery σ) :=
  match q.buf with
  | none =>
    some
      { odrEncode := odr.reset this.odrEncode
        buf := none
        len := 0 }
  | some _ =>
    (memcpy q.buf q.len).map fun octets =>
      { odrEncode := odr.reset this.odrEncode
        buf := some octets
        len := q.len }

/-- `Yaz_Z_Query::set_rpn`. Where it fails, `len` stays what it was. -/
def setRpn (rpn : String) (this : ZQuery σ) : ZQuery σ × Int :=
  let stream := odr.reset this.odrEncode
  match yaz.pQueryRpn rpn with
  | none => ({ this with odrEncode := stream, buf := none }, -1)
  | some query =>
    let (stream, r) := odr.zGdu stream query
    if r then
      ({ odrEncode := stream
         buf := some (odr.getbuf stream)
         len := (odr.getbuf stream).length }, (odr.getbuf stream).length)
    else ({ this with odrEncode := stream, buf := none }, -1)

/-- `Yaz_Z_Query::set_Z_Query`. -/
def setZQuery (query : γ) (this : ZQuery σ) : ZQuery σ :=
  let (stream, r) := odr.zGdu (odr.reset this.odrEncode) query
  if r then
    { odrEncode := stream
      buf := some (odr.getbuf stream)
      len := (odr.getbuf stream).length }
  else { this with odrEncode := stream, buf := none }

/-- `Yaz_Z_Query::get_Z_Query`. -/
def getZQuery (this : ZQuery σ) : Option γ :=
  this.buf.bind fun octets => yaz.decode (octets.take this.len)

/-- `Yaz_Z_Query::match`. -/
def matchQuery (this other : ZQuery σ) : Bool :=
  if this.len ≠ other.len then false
  else
    match this.buf, other.buf with
    | some octets, some octets' => octets.take this.len = octets'.take this.len
    | _, _ => false

end ZQuery

/-- An operation on the queries of a program, each named by its place among them. -/
inductive QueryInput (γ : Type)
  | construct
  | copy (q : Nat)
  | assign (this q : Nat)
  | setRpn (this : Nat) (rpn : String)
  | setZQuery (this : Nat) (query : γ)
  | getZQuery (this : Nat)
  | matchQuery (this other : Nat)
  | destroy (this : Nat)
deriving DecidableEq, Repr

/-- What an operation returns. -/
inductive QueryEvent (γ : Type)
  | set (len : Int)
  | got (query : Option γ)
  | matched (found : Bool)
deriving DecidableEq, Repr

namespace ZQuery

variable {γ σ : Type} (odr : OdrEncode γ σ) (yaz : QueryYaz γ)

/-- One operation. It is refused where it is undefined, or names a query that is not there; an
assignment of a query to itself does nothing. -/
def step (qs : List (ZQuery σ)) : QueryInput γ → Option (List (ZQuery σ) × List (QueryEvent γ))
  | .construct => some (qs ++ [new odr], [])
  | .copy q => do
    let made ← (← qs[q]?).copy odr
    return (qs ++ [made], [])
  | .assign this q => do
    let target ← qs[this]?
    let source ← qs[q]?
    if this = q then return (qs, [])
    let made ← target.assign odr source
    return (qs.set this made, [])
  | .setRpn this rpn => do
    let target ← qs[this]?
    return (qs.set this (target.setRpn odr yaz rpn).1, [.set (target.setRpn odr yaz rpn).2])
  | .setZQuery this query => do
    let target ← qs[this]?
    return (qs.set this (target.setZQuery odr query), [])
  | .getZQuery this => do
    let target ← qs[this]?
    return (qs, [.got (target.getZQuery yaz)])
  | .matchQuery this other => do
    let target ← qs[this]?
    let compared ← qs[other]?
    return (qs, [.matched (target.matchQuery compared)])
  | .destroy this => do
    let _ ← qs[this]?
    return (qs.eraseIdx this, [])

end ZQuery

/-- The queries of a program under any sequence of operations. -/
def zQueries {γ σ : Type} (odr : OdrEncode γ σ) (yaz : QueryYaz γ) :
    Machine (List (ZQuery σ)) (QueryInput γ) (QueryEvent γ) := ⟨ZQuery.step odr yaz⟩

end Yazpp
