import Yazpp.Comstack

/-!
# `PDU_Assoc`, function by function

The embedding of `src/yaz-pdu-assoc.cpp`: the private data of one association, and each of its
functions as a pure function on that data. What a function does to anything else is in its
`calls`, in program order: calls on the socket manager, on COMSTACK, on the children, and the
callbacks it makes to its observer.

A callback is always the last thing a step does. Control is then with the observer, which may call
the association again, and what is left of the caller is its `Frame`: `socketNotify` is cut at
each callback, and the code behind one is a function of its own (`resumeConnect`, `resumeRecv`,
`resumeSession`). After `failNotify` and `timeoutNotify` nothing is left to do, which is the frame
`.tail`.

Left out: `log`, `queue_in` and `input_len`, which nothing here reads; `pdu_next`, since the child
list is a `List`; `clone`, `getpeername` and `get_comstack`, which touch no state.
-/

set_option autoImplicit false

namespace Yazpp

/-- The states of `PDU_Assoc_priv`. -/
inductive PduState
  | connecting | listen | ready | closed | writing | accepting
deriving DecidableEq, Repr

/-- What is left of a `socketNotify` while a callback of it runs.

`recv` carries the local `destroyed` of the receive loop, the one `m_p->destroyed` may point to. -/
inductive Frame
  | recv (destroyed : Bool)
  | connect
  | session (child : AssocId)
  | tail
deriving DecidableEq, Repr

/-- What one association does to the rest of the program, callbacks included. -/
inductive Call
  -- the socket manager
  | addObserver
  | deleteObserver
  | maskObserver (mask : Nat) (fd : Int)
  | timeoutObserver (timeout : Int)
  -- COMSTACK, each with its answer
  | csCreateHost (addr : String) (cs : Comstack)
  | csAttach (cs : Comstack)
  | csSetCert (cs : Comstack) (fname : String)
  | csBind (cs : Comstack) (res : Int)
  | csConnect (cs : Comstack) (res : Int)
  | csRcvconnect (cs : Comstack) (res : Int)
  | csListen (cs : Comstack) (res : Int)
  | csAccept (cs : Comstack) (res : Int)
  | csAcceptNew (cs newLine : Comstack)
  | csGet (cs : Comstack) (res : Int) (buf : Buf)
  | csMore (cs : Comstack) (more : Bool)
  | csPut (cs : Comstack) (buf : Buf) (res : Int)
  | csClose (cs : Comstack)
  -- the output queue of the connection `cs`
  | newPduQueue (cs : Comstack) (buf : Buf)
  -- the parent and the children
  | newChild (child : AssocId) (cs : Comstack) (pending : IoPending) (fileno : Int)
  | setChildObserver (child : AssocId) (observer : Observer)
  | setChildParent (child : AssocId)
  | shutdownChild (child : AssocId)
  | deleteChild (child : AssocId)
  | unlinkFrom (parent : AssocId)
  -- the observer
  | recvPdu (buf : Buf) (len : Int)
  | connectNotify
  | failNotify
  | timeoutNotify
  | sessionNotify (child : AssocId)
  -- `assert (*c)` of `destroy`: the child is not in its parent's list
  | assertFailed
  -- the code behind a callback reads an association that the callback deleted
  | useAfterDelete (behind : Frame)
  -- `destroy` writes through `m_p->destroyed` to the local of a receive loop that has returned
  | strayWrite
deriving DecidableEq, Repr

/-- Where `m_p->destroyed` points: nowhere, to the local of the receive loop that runs with that
many frames of the association below it, or to that of one that has returned. -/
inductive DestroyedPtr
  | null
  | loop (depth : Nat)
  | dangling
deriving DecidableEq, Repr

/-- `PDU_Assoc_priv` and `m_PDU_Observer`. -/
structure PduAssoc where
  state : PduState := .closed
  cs : Comstack := 0
  queueOut : List Buf := []
  inputBuf : Buf := []
  destroyed : DestroyedPtr := .null
  idleTime : Int := 0
  sessionIsDead : Bool := false
  certFname : Option String := none
  observer : Observer := 0
  parent : Option AssocId := none
  children : List AssocId := []
deriving DecidableEq, Repr

/-- What a function leaves: the association, the calls it made, the frame a callback interrupted,
and the function's `int`. -/
structure Outcome where
  assoc : PduAssoc
  calls : List Call := []
  frame : Option Frame := none
  ret : Int := 0
deriving DecidableEq, Repr

/-- The outcome with calls made before it. -/
def Outcome.after (o : Outcome) (calls : List Call) : Outcome :=
  { o with calls := calls ++ o.calls }

/-- The outcome with `failNotify` called last. -/
def Outcome.fail (o : Outcome) : Outcome :=
  { o with calls := o.calls ++ [.failNotify], frame := some .tail }

namespace PduAssoc

/-- `PDU_Assoc_priv::init`. -/
def init : PduAssoc := {}

/-- The body `shutdown` shares with `listen` of the empty address: unregister, close the COMSTACK,
drop the output queue and the input buffer. -/
def teardown (a : PduAssoc) : Outcome where
  assoc := { a with state := .closed, cs := 0, queueOut := [], inputBuf := [] }
  calls := .deleteObserver :: (if a.cs = 0 then [] else [.csClose a.cs])

/-- `PDU_Assoc::shutdown`. The children's own `shutdown` runs first. -/
def shutdown (a : PduAssoc) : Outcome :=
  a.teardown.after (a.children.map .shutdownChild)

/-- `PDU_Assoc::flush_PDU`: at most one `cs_put`. -/
def flushPdu (ans : Answers) (a : PduAssoc) : Outcome :=
  if a.state ≠ .ready ∧ a.state ≠ .writing then
    { assoc := a, ret := 1 }
  else match a.queueOut with
    | [] =>
      let a := { a with state := .ready }
      let mask := Call.maskObserver (observeRead ||| observeWrite ||| observeExcept) ans.fileno
      if a.sessionIsDead then a.shutdown.fail.after [mask]
      else { assoc := a, calls := [mask] }
    | q :: rest =>
      let put := Call.csPut a.cs q ans.put.res
      if ans.put.res < 0 then
        { a.shutdown.fail.after [put] with ret := ans.put.res }
      else if ans.put.res = 1 then
        { assoc := { a with state := .writing }
          calls := [put, .maskObserver
            (observeExcept ||| ans.put.pending.mask ||| observeWrite) ans.fileno]
          ret := ans.put.res }
      else
        -- whole packet sent: the queue moves on, and only an empty one changes the mask
        let a := { a with queueOut := rest }
        if rest = [] then
          let a := { a with state := .ready }
          let mask := Call.maskObserver (observeRead ||| observeExcept) ans.fileno
          if a.sessionIsDead then { a.shutdown.after [put, mask] with ret := ans.put.res }
          else { assoc := a, calls := [put, mask], ret := ans.put.res }
        else { assoc := a, calls := [put], ret := ans.put.res }

/-- `PDU_Assoc::send_PDU`. -/
def sendPdu (buf : Buf) (ans : Answers) (a : PduAssoc) : Outcome :=
  if a.cs = 0 then { assoc := a, ret := -1 }
  else
    let queued := { a with queueOut := a.queueOut ++ [buf] }
    if a.queueOut = [] then (queued.flushPdu ans).after [.newPduQueue a.cs buf]
    else { assoc := queued, calls := [.newPduQueue a.cs buf] }

/-- The receive loop of `socketNotify` from `cs_get` to the call of `recv_PDU`. `depth` is where
the frame of this loop stands among the association's frames. -/
def receive (ans : Answers) (depth : Nat) (a : PduAssoc) : Outcome :=
  let get := Call.csGet a.cs ans.get.res ans.getBuf
  if ans.get.res = 1 then
    { assoc := a
      calls := [get, .maskObserver (observeExcept ||| ans.get.pending.mask) ans.fileno] }
  else if ans.get.res ≤ 0 then
    if a.observer = 0 then a.shutdown.after [get] else a.shutdown.fail.after [get]
  else
    -- without an observer the loop returns at once, and its local is gone
    if a.observer = 0 then
      { assoc := { a with inputBuf := ans.getBuf, destroyed := .dangling }, calls := [get] }
    else
      { assoc := { a with inputBuf := ans.getBuf, destroyed := .loop depth }
        calls := [get, .recvPdu ans.getBuf ans.get.res]
        frame := some (.recv false) }

/-- `socketNotify` behind `recv_PDU`, when the local `destroyed` is still 0. -/
def resumeRecv (ans : Answers) (depth : Nat) (a : PduAssoc) : Outcome :=
  let a := { a with destroyed := .null }
  if a.cs = 0 then { assoc := a }
  else
    let more := Call.csMore a.cs ans.more
    if ans.more then (a.receive ans depth).after [more]
    else if a.state = .ready then
      { assoc := a
        calls := [more, .maskObserver (observeExcept ||| observeRead) ans.fileno] }
    else { assoc := a, calls := [more] }

/-- `socketNotify` behind `connectNotify`. -/
def resumeConnect (ans : Answers) (a : PduAssoc) : Outcome := a.flushPdu ans

/-- `childNotify` behind `sessionNotify`: a null observer refuses the session. -/
def resumeSession (child : AssocId) (ans : Answers) (a : PduAssoc) : Outcome :=
  let set := Call.setChildObserver child ans.session
  if ans.session = 0 then
    { assoc := a, calls := [set, .shutdownChild child, .deleteChild child] }
  else
    { assoc := { a with children := child :: a.children }, calls := [set, .setChildParent child] }

/-- `socketNotify` in state `Accepting`. -/
def notifyAccepting (ans : Answers) (a : PduAssoc) : Outcome :=
  let accept := Call.csAccept a.cs ans.accept.res
  if ans.accept.res = 0 then ({ a with cs := 0 } : PduAssoc).shutdown.fail.after [accept]
  else if ans.accept.pending.mask = 0 then
    -- accept is complete: turn to ready state and write if needed
    (({ a with state := .ready } : PduAssoc).flushPdu ans).after [accept]
  else
    { assoc := a
      calls := [accept, .maskObserver (ans.accept.pending.mask ||| observeExcept) ans.fileno] }

/-- `socketNotify` in state `Connecting`: every result but 1 makes the connection ready. -/
def notifyConnecting (ans : Answers) (a : PduAssoc) : Outcome :=
  let rcvconnect := Call.csRcvconnect a.cs ans.rcvconnect.res
  if ans.rcvconnect.res = 1 then
    { assoc := a
      calls := [rcvconnect,
        .maskObserver (observeExcept ||| ans.rcvconnect.pending.mask) ans.fileno] }
  else
    let a := { a with state := .ready }
    if a.observer = 0 then (a.flushPdu ans).after [rcvconnect]
    else { assoc := a, calls := [rcvconnect, .connectNotify], frame := some .connect }

/-- `socketNotify` in state `Listen`, with `childNotify` up to the call of `sessionNotify`. -/
def notifyListen (event : Nat) (ans : Answers) (a : PduAssoc) : Outcome :=
  if testMask event observeRead then
    let listen := Call.csListen a.cs ans.listen
    if ans.listen = 1 ∨ ans.listen < 0 then { assoc := a, calls := [listen] }
    else
      let accept := Call.csAcceptNew a.cs ans.newLine
      if ans.newLine = 0 then { assoc := a, calls := [listen, accept] }
      else
        { assoc := a
          calls := [listen, accept,
            .newChild ans.child ans.newLine ans.accept.pending ans.fileno,
            .sessionNotify ans.child]
          frame := some (.session ans.child) }
  else { assoc := a }

/-- `PDU_Assoc::socketNotify`, up to its first callback. -/
def socketNotify (event : Nat) (ans : Answers) (depth : Nat) (a : PduAssoc) : Outcome :=
  if testMask event observeExcept ∧ a.state ≠ .connecting then a.shutdown.fail
  else if testMask event observeTimeout then
    { assoc := a, calls := [.timeoutNotify], frame := some .tail }
  else match a.state with
    | .accepting => a.notifyAccepting ans
    | .connecting => a.notifyConnecting ans
    | .listen => a.notifyListen event ans
    | .writing =>
      if testMask event (observeRead ||| observeWrite) then a.flushPdu ans else { assoc := a }
    | .ready =>
      if testMask event (observeRead ||| observeWrite) then a.receive ans depth
      else { assoc := a }
    | .closed => a.shutdown.fail

/-- `PDU_Assoc::close_session`. -/
def closeSession (a : PduAssoc) : Outcome :=
  let a := { a with sessionIsDead := true }
  if a.queueOut = [] then a.shutdown.fail else { assoc := a }

/-- `PDU_Assoc::connect`; `cs` is what `cs_create_host` gives. -/
def connect (observer : Observer) (addr : String) (cs : Comstack) (ans : Answers)
    (a : PduAssoc) : Outcome :=
  let a' := { a.shutdown.assoc with observer := observer, cs := cs }
  let made := a.shutdown.calls ++ [.csCreateHost addr cs]
  if cs = 0 then { assoc := a', calls := made, ret := -1 }
  else
    let made := made ++ [.csConnect cs ans.connect.res, .addObserver]
    if ans.connect.res = 0 then
      { assoc := { a' with state := .connecting }
        calls := made ++
          [.maskObserver (observeExcept ||| observeWrite ||| observeRead) ans.fileno] }
    else if 0 < ans.connect.res then
      { assoc := { a' with state := .connecting }
        calls := made ++
          [.maskObserver (observeExcept ||| ans.connect.pending.mask) ans.fileno] }
    else
      -- failed at once: the state stays Closed, and the next event tells the observer
      { assoc := a'
        calls := made ++ [.maskObserver (observeWrite ||| observeExcept) ans.fileno] }

/-- `PDU_Assoc::listen`. The empty address closes the listener and, unlike `shutdown`, leaves its
children alone. -/
def listen (observer : Observer) (addr : String) (cs : Comstack) (ans : Answers)
    (a : PduAssoc) : Outcome :=
  if addr = "" then a.teardown
  else
    let a' := { a.shutdown.assoc with observer := observer, cs := cs }
    let made := a.shutdown.calls ++ [.csCreateHost addr cs]
    if cs = 0 then { assoc := a', calls := made, ret := -1 }
    else
      let made := made ++ (a.certFname.map (Call.csSetCert cs)).toList ++ [.csBind cs ans.bind]
      if ans.bind < 0 then { assoc := a', calls := made, ret := -2 }
      else
        { assoc := { a' with state := .listen }
          calls := made ++ [.addObserver,
            .maskObserver (observeRead ||| observeExcept) ans.fileno] }

/-- `*m_p->destroyed = 1`, where the local is gone. -/
def strays (a : PduAssoc) : List Call := if a.destroyed = .dangling then [.strayWrite] else []

/-- `PDU_Assoc::destroy`, less the write to a local that is there: this is in the caller's frame. -/
def destroy (a : PduAssoc) : Outcome where
  assoc := { a.shutdown.assoc with children := [] }
  calls := a.shutdown.calls ++ a.strays ++ (a.parent.map Call.unlinkFrom).toList ++
    a.children.map .deleteChild

/-- The walk of `destroy` along the parent's child list, on the parent's side. -/
def unlink (child : AssocId) (a : PduAssoc) : Outcome :=
  if child ∈ a.children then { assoc := { a with children := a.children.erase child } }
  else { assoc := a, calls := [.assertFailed] }

/-- `PDU_Assoc::idleTime`. -/
def setIdleTime (timeout : Int) (a : PduAssoc) : Outcome where
  assoc := { a with idleTime := timeout }
  calls := [.timeoutObserver timeout]

/-- `PDU_Assoc::set_cert_fname`. -/
def setCertFname (fname : Option String) (a : PduAssoc) : Outcome where
  assoc := { a with certFname := fname }

/-- The constructor that takes over an accepted COMSTACK. -/
def accepted (cs : Comstack) (pending : IoPending) (fileno : Int) : Outcome :=
  let made := [.csAttach cs, .addObserver]
  if pending.mask = 0 then
    (({ init with cs := cs, state := .ready } : PduAssoc).flushPdu { fileno := fileno }).after made
  else
    { assoc := { init with cs := cs, state := .accepting }
      calls := made ++ [.maskObserver (pending.mask ||| observeExcept) fileno] }

end PduAssoc

end Yazpp
