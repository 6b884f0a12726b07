import Yazpp.Lib.Machine
import Yazpp.PduAssoc.Model

/-!
# One association and everyone who calls it

`Sys` is one `PDU_Assoc` with what surrounds it: whether the object still exists, the mask the
socket manager holds for it, and the frames of the callbacks that are running, innermost first.
An `Input` is any call anyone makes on the association, the return of a callback included, and the
inputs may come in any order: from the application, from inside a callback, from the parent's
`shutdown`, from the socket manager. So a run of the machine `pdu` is a run of the association
under every behaviour of its observer and every answer of COMSTACK.

What a deleted association may still be asked is nothing but the return of a callback. A frame
that would read it then puts out `Call.useAfterDelete` and does nothing else: there the source has
undefined behaviour. So it has where `destroy()` puts out `Call.strayWrite`.
-/

set_option autoImplicit false

namespace Yazpp

open Yazpp.Lib

/-- One association with its surroundings. -/
structure Sys where
  assoc : PduAssoc := {}
  alive : Bool := true
  entry : Option Nat := none
  frames : List Frame := []
deriving DecidableEq, Repr

/-- A call on the association. `destroy` is `~Z_Assoc_priv` (`destroy()`, then `delete`), `delete`
is the bare one of the parent's `destroy()` and of `childNotify`, `ret` is the return of the
innermost callback. The last three are the assignments that the parent and the children make. -/
inductive Input
  | connect (observer : Observer) (addr : String) (cs : Comstack) (ans : Answers)
  | listen (observer : Observer) (addr : String) (cs : Comstack) (ans : Answers)
  | sendPdu (buf : Buf) (ans : Answers)
  | closeSession
  | shutdown
  | destroy
  | delete
  | idleTime (timeout : Int)
  | setCertFname (fname : Option String)
  | socketNotify (event : Nat) (ans : Answers)
  | ret (ans : Answers)
  | setObserver (observer : Observer)
  | setParent (parent : Option AssocId)
  | unlink (child : AssocId)
deriving DecidableEq, Repr

/-- What a call on the socket manager makes of the association's entry: the mask of the entry, or
`none` without one. -/
def Call.onEntry (entry : Option Nat) : Call → Option Nat
  | .addObserver => some 0
  | .deleteObserver => none
  | .maskObserver mask _ => entry.map fun _ => mask
  | _ => entry

/-- The code behind a callback. -/
def PduAssoc.resume (frame : Frame) (ans : Answers) (depth : Nat) (a : PduAssoc) : Outcome :=
  match frame with
  | .recv true => { assoc := a }
  | .recv false => a.resumeRecv ans depth
  | .connect => a.resumeConnect ans
  | .session child => a.resumeSession child ans
  | .tail => { assoc := a }

/-- Whether the code behind a callback reads the association at all. -/
def Frame.reads : Frame → Bool
  | .recv destroyed => !destroyed
  | .tail => false
  | _ => true

/-- `*m_p->destroyed = 1`, where the pointer points to the receive loop at `depth`. -/
def setDestroyed (depth : Nat) : List Frame → List Frame
  | [] => []
  | f :: fs =>
    if fs.length = depth then
      (match f with
        | .recv _ => .recv true
        | f => f) :: fs
    else f :: setDestroyed depth fs

/-- What one call does to the association itself. -/
def Input.outcome (a : PduAssoc) (depth : Nat) : Input → Outcome
  | .connect observer addr cs ans => a.connect observer addr cs ans
  | .listen observer addr cs ans => a.listen observer addr cs ans
  | .sendPdu buf ans => a.sendPdu buf ans
  | .closeSession => a.closeSession
  | .shutdown => a.shutdown
  | .destroy => a.destroy
  | .delete => { assoc := a }
  | .idleTime timeout => a.setIdleTime timeout
  | .setCertFname fname => a.setCertFname fname
  | .socketNotify event ans => a.socketNotify event ans depth
  | .ret _ => { assoc := a }
  | .setObserver observer => { assoc := { a with observer := observer } }
  | .setParent parent => { assoc := { a with parent := parent } }
  | .unlink child => a.unlink child

namespace Sys

/-- An outcome takes effect. -/
def perform (s : Sys) (o : Outcome) : Sys × List Call :=
  ({ s with
      assoc := o.assoc
      entry := o.calls.foldl Call.onEntry s.entry
      frames := o.frame.toList ++ s.frames }, o.calls)

/-- The object is gone: `destroy()` first writes through `m_p->destroyed`. -/
def bury (i : Input) (s : Sys) : Sys :=
  match i, s.assoc.destroyed with
  | .destroy, .loop depth => { s with alive := false, frames := setDestroyed depth s.frames }
  | .destroy, _ | .delete, _ => { s with alive := false }
  | _, _ => s

/-- The innermost callback returns. -/
def ret (s : Sys) (ans : Answers) : Option (Sys × List Call) :=
  match s.frames with
  | [] => none
  | f :: fs =>
    if f.reads && !s.alive then some ({ s with frames := fs }, [.useAfterDelete f])
    else some ({ s with frames := fs }.perform (s.assoc.resume f ans fs.length))

/-- One input. A deleted association refuses everything but the return of a callback. -/
def step (s : Sys) (i : Input) : Option (Sys × List Call) :=
  match i with
  | .ret ans => s.ret ans
  | i =>
    if s.alive then
      let next := s.perform (i.outcome s.assoc s.frames.length)
      some (next.1.bury i, next.2)
    else none

/-- The two constructors: a new association, and one that takes over an accepted COMSTACK. -/
inductive Born : Sys → List Call → Prop
  | new : Born {} []
  | accepted {cs : Comstack} (pending : IoPending) (fileno : Int) : cs ≠ 0 →
      Born (({} : Sys).perform (PduAssoc.accepted cs pending fileno)).1
        (PduAssoc.accepted cs pending fileno).calls

end Sys

/-- One association under all its callers. -/
def pdu : Machine Sys Input Call := ⟨Sys.step⟩

/-- The code of the association runs with an observer to call. -/
def Input.observed (s : Sys) : Input → Bool
  | .socketNotify .. | .ret _ => s.assoc.observer != 0
  | _ => true

/-- Socket events come from the socket manager, and while the association is registered: in every
program they do (`Net.net_run_assoc`). -/
def Input.delivered (s : Sys) : Input → Bool
  | .socketNotify .. => s.entry.isSome
  | _ => true

/-! ## What a step can do -/

/-- The step relation read off `Sys.step`: a call on a live association, the return of a callback
into it, or the return of a callback into an association that is gone. -/
inductive Stepped (s : Sys) : Input → Sys → List Call → Prop
  | call {i : Input} : s.alive = true → (∀ ans, i ≠ .ret ans) →
      Stepped s i ((s.perform (i.outcome s.assoc s.frames.length)).1.bury i)
        (i.outcome s.assoc s.frames.length).calls
  | back {ans : Answers} {f : Frame} {fs : List Frame} : s.frames = f :: fs →
      (f.reads = true → s.alive = true) →
      Stepped s (.ret ans) ({ s with frames := fs }.perform (s.assoc.resume f ans fs.length)).1
        (s.assoc.resume f ans fs.length).calls
  | dead {ans : Answers} {f : Frame} {fs : List Frame} : s.frames = f :: fs →
      f.reads = true → s.alive = false →
      Stepped s (.ret ans) { s with frames := fs } [.useAfterDelete f]

/-- A call on a live association. -/
theorem step_call {s : Sys} {i : Input} (halive : s.alive = true) (hi : ∀ ans, i ≠ .ret ans) :
    pdu.step s i = some ((s.perform (i.outcome s.assoc s.frames.length)).1.bury i,
      (i.outcome s.assoc s.frames.length).calls) := by
  have call : pdu.step s i = if s.alive then
      some ((s.perform (i.outcome s.assoc s.frames.length)).1.bury i,
        (i.outcome s.assoc s.frames.length).calls) else none := by
    cases i <;> first | rfl | exact absurd rfl (hi _)
  rw [call, if_pos halive]

/-- A deleted association refuses every call. -/
theorem step_refused {s : Sys} {i : Input} (hdead : s.alive = false) (hi : ∀ ans, i ≠ .ret ans) :
    pdu.step s i = none := by
  have call : pdu.step s i = if s.alive then
      some ((s.perform (i.outcome s.assoc s.frames.length)).1.bury i,
        (i.outcome s.assoc s.frames.length).calls) else none := by
    cases i <;> first | rfl | exact absurd rfl (hi _)
  rw [call, hdead, if_neg Bool.false_ne_true]

/-- Only a live association takes a call. -/
theorem alive_of_step {s s' : Sys} {i : Input} {o : List Call} (hi : ∀ ans, i ≠ .ret ans)
    (step : pdu.step s i = some (s', o)) : s.alive = true := by
  cases halive : s.alive with
  | true => rfl
  | false => cases (step_refused halive hi).symm.trans step

/-- No callback is running that could return. -/
theorem step_idle {s : Sys} {ans : Answers} (hf : s.frames = []) :
    pdu.step s (.ret ans) = none := by
  show s.ret ans = none
  simp only [Sys.ret, hf]

/-- A callback returns into code that may read the association. -/
theorem step_back {s : Sys} {f : Frame} {fs : List Frame} (ans : Answers)
    (hf : s.frames = f :: fs) (hlive : f.reads = true → s.alive = true) :
    pdu.step s (.ret ans) =
      some (({ s with frames := fs }.perform (s.assoc.resume f ans fs.length)).1,
        (s.assoc.resume f ans fs.length).calls) := by
  have guard : (f.reads && !s.alive) = false := by
    cases hr : f.reads with
    | false => rfl
    | true => simp only [hlive hr, Bool.not_true, Bool.and_false]
  show s.ret ans = _
  simp only [Sys.ret, hf, guard, Bool.false_eq_true, if_false]
  rfl

/-- A callback returns into code that would read a deleted association. -/
theorem step_dead {s : Sys} {ans : Answers} {f : Frame} {fs : List Frame} (hf : s.frames = f :: fs)
    (hr : f.reads = true) (hdead : s.alive = false) :
    pdu.step s (.ret ans) = some ({ s with frames := fs }, [.useAfterDelete f]) := by
  show s.ret ans = _
  simp only [Sys.ret, hf, hr, hdead, Bool.not_false, Bool.and_self, if_true]

/-- `Sys.step`, inverted. -/
theorem stepped_of_step {s s' : Sys} {i : Input} {o : List Call}
    (h : pdu.step s i = some (s', o)) : Stepped s i s' o := by
  by_cases hret : ∃ ans, i = .ret ans
  · obtain ⟨ans, rfl⟩ := hret
    cases hf : s.frames with
    | nil => cases (step_idle hf).symm.trans h
    | cons f fs =>
      by_cases hlive : f.reads = true → s.alive = true
      · cases (step_back ans hf hlive).symm.trans h
        exact .back hf hlive
      · obtain ⟨hr, hdead⟩ := Classical.not_imp.mp hlive
        have hdead' : s.alive = false := Bool.not_eq_true _ ▸ hdead
        cases (step_dead hf hr hdead').symm.trans h
        exact .dead hf hr hdead'
  · have hi : ∀ ans, i ≠ .ret ans := fun ans he => hret ⟨ans, he⟩
    cases halive : s.alive with
    | true =>
      cases (step_call halive hi).symm.trans h
      exact .call halive hi
    | false => cases (step_refused halive hi).symm.trans h

end Yazpp
