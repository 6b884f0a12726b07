import Yazpp.PduAssoc.Receive
import Yazpp.ZServer.Answer

/-!
# A server on its association

One accepted `PDU_Assoc`, over a COMSTACK that keeps what is assumed of it, and the `Z_Server` that
observes it. `recv_PDU` decodes the PDU and gives the GDU to the server, whose handling sends
responses and may delete the server, and with it the association, while the receive loop is still
running below. What a handler has still to do with the association is on the `agenda`: a step takes
the next of it, and only with an empty agenda is there another socket event.

The decoder is YAZ's, and a parameter. `timeoutNotify` and `failNotify` are the application's: at
each the input says whether it deletes the server. A PDU that does not decode shuts the association
down and is reported as a failure.
-/

set_option autoImplicit false

namespace Yazpp

open Yazpp.Lib

variable {σ τ : Type}

/-- What a handler has still to do with the association. -/
inductive Task
  | sendPdu (buf : Buf)
  | shutdown
  | destroy
  | ret
deriving DecidableEq, Repr

/-- The association, its server, and what the running handlers have still to do. -/
structure Session (σ τ : Type) where
  fed : Fed
  server : ZServer σ τ
  agenda : List Task := []

/-- What is seen of a session: the calls of the association, what the server did for a GDU, a PDU
that did not decode, and the application deleting its server. -/
inductive SessionCall
  | assoc (call : Call)
  | recvGdu (gdu : Gdu) (calls : List ServerCall)
  | undecoded (buf : Buf)
  | deleted
deriving DecidableEq, Repr

/-- A step of a session: the event, which is read when no handler is running, the answers and the
PDUs of COMSTACK, and whether a handler of the application deletes the server. -/
structure SessionInput where
  event : Nat := 0
  ans : Answers := {}
  read : List Buf := []
  deletes : Bool := false
deriving DecidableEq, Repr

/-- The call on the association that a task makes. -/
def Task.input (ans : Answers) : Task → Input
  | .sendPdu buf => .sendPdu buf ans
  | .shutdown => .shutdown
  | .destroy => .destroy
  | .ret => .ret ans

/-- What a call of the server makes it do with its association. -/
def ServerCall.task? : ServerCall → Option Task
  | .assoc (.sendPdu buf) => some (.sendPdu buf)
  | .deleteThis => some .destroy
  | _ => none

namespace Session

/-- A handler of the application, which may delete the server. -/
def handle (deletes : Bool) (x : Session σ τ) : Session σ τ × List SessionCall :=
  if deletes then
    ({ x with server := { x.server with alive := false }, agenda := .destroy :: .ret :: x.agenda },
      [.deleted])
  else ({ x with agenda := .ret :: x.agenda }, [])

/-- `Z_Assoc::recv_PDU`. -/
def recvPdu (p : ServerParams σ τ) (decode : Buf → Option Gdu) (deletes : Bool) (buf : Buf)
    (x : Session σ τ) : Session σ τ × List SessionCall :=
  match decode buf with
  | some gdu =>
    let (server, calls) := x.server.recvGdu p gdu
    ({ x with server := server, agenda := calls.filterMap ServerCall.task? ++ .ret :: x.agenda },
      [.recvGdu gdu calls])
  | none =>
    let (x, calls) := x.handle deletes
    ({ x with agenda := .shutdown :: x.agenda }, .undecoded buf :: calls)

/-- The observer hears of the last of the calls, when that is a callback. -/
def notify (p : ServerParams σ τ) (decode : Buf → Option Gdu) (deletes : Bool) (calls : List Call)
    (x : Session σ τ) : Session σ τ × List SessionCall :=
  match calls.getLast? with
  | some (.recvPdu buf _) => x.recvPdu p decode deletes buf
  | some .failNotify | some .timeoutNotify => x.handle deletes
  | some .connectNotify | some (.sessionNotify _) => x.handle false
  | _ => (x, [])

/-- The call on the association that comes next. -/
def next (i : SessionInput) (x : Session σ τ) : Input :=
  match x.agenda with
  | [] => .socketNotify i.event i.ans
  | task :: _ => task.input i.ans

/-- An association that was accepted, with its observer and its parent, and a new server for it. -/
inductive Born (p : ServerParams σ τ) (facilities : List Facility) :
    Session σ τ → List SessionCall → Prop
  | accepted {cs : Comstack} {observer : Observer} {server : ZServer σ τ} (pending : IoPending)
      (fileno : Int) (parent : AssocId) : cs ≠ 0 → observer ≠ 0 → server.alive = true →
      server.facilities = facilities → p.odr.Clean server.assoc.odrOut →
      Born p facilities
        { fed := { sys := { (({} : Sys).perform (PduAssoc.accepted cs pending fileno)).1 with
            assoc := { (PduAssoc.accepted cs pending fileno).assoc with
              observer := observer, parent := some parent } } }
          server := server } []

end Session

/-- One session under any events. -/
def session (p : ServerParams σ τ) (decode : Buf → Option Gdu) :
    Machine (Session σ τ) SessionInput SessionCall where
  step x i :=
    match fed.step x.fed (x.next i, i.read) with
    | none => none
    | some (f, calls) =>
      let next := ({ x with fed := f, agenda := x.agenda.tail } : Session σ τ).notify p decode
        i.deletes calls
      some (next.1, calls.map .assoc ++ next.2)

/-- The GDUs that a server was given, each with what it did. -/
def received (h : List SessionCall) : List (Gdu × List ServerCall) :=
  h.filterMap fun
    | .recvGdu gdu calls => some (gdu, calls)
    | _ => none

/-- The PDUs that were put into the output queue. -/
def queued (h : List SessionCall) : List Buf :=
  h.filterMap fun
    | .assoc (.newPduQueue _ buf) => some buf
    | _ => none

/-- The PDUs that are still to be given to the association. -/
def Session.pending (x : Session σ τ) : List Buf :=
  x.agenda.filterMap fun
    | .sendPdu buf => some buf
    | _ => none

/-- The connection fails, a PDU does not decode, or the application deletes its server. -/
def SessionCall.breaks : SessionCall → Bool
  | .assoc .failNotify | .undecoded _ | .deleted => true
  | _ => false

/-- The connection has stayed up. -/
def StaysUp (h : List SessionCall) : Prop := ∀ c ∈ h, c.breaks = false

instance (h : List SessionCall) : Decidable (StaysUp h) :=
  inferInstanceAs (Decidable (∀ c ∈ h, c.breaks = false))

end Yazpp
