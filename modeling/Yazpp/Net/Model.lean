import Yazpp.PduAssoc.System
import Yazpp.SocketManager.Model

/-!
# Associations on one socket manager

All the `PDU_Assoc`s of a program, the one `SocketManager` they are registered with, and what one
function has still to call in the others.

A function of an association runs in one step (`Net.act`), and the calls it makes go on the
`agenda`, in program order, in front of the calls its own callers have still to make. While the
agenda is not empty the only step is `route`, which takes the next call: it goes to the manager, to
a child, to the parent, or nowhere. So a `shutdown` reaches the whole tree of children before anyone
else is heard. With the agenda empty, control is with the application: outside every callback, or
inside the innermost one (`stack`), which may do anything before it returns.

An object has its name for good. `new` and an accepted session take a name that no object has had.
The manager is called by its associations and in its event loop only: what an application does to it
directly, as with `deleteObservers`, is no step here.
-/

set_option autoImplicit false

namespace Yazpp

open Yazpp.Lib

/-- What is seen of a program: the calls an association makes, what the manager does, and an
operation on an association that is deleted, where it is not the code behind a callback. -/
inductive NetCall
  | assoc (id : AssocId) (call : Call)
  | manager (call : ManagerCall AssocId)
  | dangling (id : AssocId)
deriving DecidableEq, Repr

/-- The program: its associations, the manager, the calls still to be made, and the associations
whose callbacks are running, innermost first. -/
structure Net where
  assocs : AssocId → Option Sys := fun _ => none
  manager : SocketManager AssocId := .new
  agenda : List (AssocId × Call) := []
  stack : List AssocId := []

/-- What happens next: a constructor, a call of the application, the return of the innermost
callback, an event, or the next call of the agenda. -/
inductive NetInput
  | new (id : AssocId)
  | call (id : AssocId) (i : Input)
  | ret (ans : Answers)
  | processEvent (now : Int) (replies : List PollReply) (later : Int) (ans : Answers)
  | route
deriving DecidableEq, Repr

/-- The calls that are the application's to make: the interface of `PDU_Assoc`, and `~Z_Assoc` for
`destroy`. -/
def Input.public : Input → Bool
  | .connect .. | .listen .. | .sendPdu .. | .closeSession | .shutdown | .destroy | .idleTime _
  | .setCertFname _ => true
  | _ => false

/-- A call of the observer, inside which anything may be done. -/
def Call.isCallback : Call → Bool
  | .recvPdu .. | .connectNotify | .failNotify | .timeoutNotify | .sessionNotify _ => true
  | _ => false

/-- Who is notified at the end of an operation of the manager. -/
def Managed.notified? {ω : Type} (o : Managed ω) : Option (SocketEvent ω) :=
  match o.calls.getLast? with
  | some (.socketNotify observer event) => some { observer := observer, event := event }
  | _ => none

namespace Net

/-- The objects with one of them replaced. -/
def update (assocs : AssocId → Option Sys) (id : AssocId) (s : Sys) : AssocId → Option Sys :=
  fun id' => if id' = id then some s else assocs id'

/-- An association runs one of its functions. -/
def act (id : AssocId) (i : Input) (n : Net) : Option (Net × List NetCall) :=
  match n.assocs id with
  | none => none
  | some s =>
    match pdu.step s i with
    | none => none
    | some (s', calls) =>
      some ({ n with
          assocs := update n.assocs id s'
          agenda := calls.map (Prod.mk id) ++ n.agenda
          stack := if calls.any Call.isCallback then id :: n.stack else n.stack },
        calls.map (.assoc id))

/-- The same from code that cannot tell whether the association is still there. -/
def tell (id : AssocId) (i : Input) (n : Net) : Net × List NetCall :=
  (n.act id i).getD (n, [.dangling id])

/-- The manager has done something. -/
def manage (o : Managed AssocId) (n : Net) : Net × List NetCall :=
  ({ n with manager := o.manager }, o.calls.map .manager)

/-- A new object, and the calls its constructor makes. -/
def born (id : AssocId) (s : Sys) (calls : List Call) (n : Net) : Option (Net × List NetCall) :=
  match n.assocs id with
  | some _ => none
  | none =>
    some ({ n with
        assocs := update n.assocs id s
        agenda := calls.map (Prod.mk id) ++ n.agenda },
      calls.map (.assoc id))

/-- One call of an association, on its way to whom it is for. -/
def route (id : AssocId) (c : Call) (n : Net) : Option (Net × List NetCall) :=
  match c with
  | .addObserver => some (n.manage (n.manager.addObserver (-1) id))
  | .deleteObserver => some (n.manage (n.manager.deleteObserver id))
  | .maskObserver mask fd => some (n.manage (n.manager.maskObserver id mask fd))
  | .timeoutObserver timeout => some (n.manage (n.manager.timeoutObserver id timeout))
  | .newChild child cs pending fileno =>
    let o := PduAssoc.accepted cs pending fileno
    n.born child (({} : Sys).perform o).1 o.calls
  | .setChildObserver child observer => some (n.tell child (.setObserver observer))
  | .setChildParent child => some (n.tell child (.setParent (some id)))
  | .shutdownChild child => some (n.tell child .shutdown)
  | .deleteChild child => some (n.tell child .delete)
  | .unlinkFrom parent => some (n.tell parent (.unlink id))
  | _ => some (n, [])

/-- `processEvent`, with the `socketNotify` it ends with. -/
def processEvent (now : Int) (replies : List PollReply) (later : Int) (ans : Answers) (n : Net) :
    Option (Net × List NetCall) :=
  match n.manager.processEvent now replies later with
  | none => none
  | some o =>
    let (n, calls) := n.manage o
    match o.notified? with
    | none => some (n, calls)
    | some ev =>
      let (n, more) := n.tell ev.observer (.socketNotify ev.event ans)
      some (n, calls ++ more)

/-- One step. Nobody but the agenda is heard until the agenda is empty. -/
def step (n : Net) (i : NetInput) : Option (Net × List NetCall) :=
  match n.agenda, i with
  | (id, c) :: agenda, .route => { n with agenda := agenda }.route id c
  | [], .new id => n.born id {} []
  | [], .call id i => if i.public then n.act id i else none
  | [], .ret ans =>
    match n.stack with
    | [] => none
    | id :: stack => { n with stack := stack }.act id (.ret ans)
  | [], .processEvent now replies later ans => n.processEvent now replies later ans
  | _, _ => none

/-- A program before it has made anything. -/
def Born (n : Net) (h : List NetCall) : Prop := n = {} ∧ h = []

end Net

/-- The associations of one program under any application. -/
def net : Machine Net NetInput NetCall := ⟨Net.step⟩

end Yazpp
