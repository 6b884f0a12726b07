import Yazpp.Lib.Machine
import Yazpp.Zlint.SearchTest

/-!
# `Zlint`, which runs the tests

The embedding of `zlint/zlint.cpp`, over any type of tests. A `Zlint` is told what becomes of its
connection and what the server sends, and hands it to its current test; the test says what it checks
(`msg_check_for` and the like), sends requests, and answers whether it is finished. Behind a
finished test comes a new connection and the next test, and the connection is closed behind the last
one.

When `cs_put` fails in a `send_Z_PDU` of a test, the connection is shut down and `failNotify` is
called before `send_Z_PDU` returns. So `m_cur_test` may be another test, or null, when the test goes
on: what it says then is booked on that one, and all but `msg_check_info` read a null pointer if
there is none.

The tests are objects with three virtual functions (`ZlintTest`). They assign their members before
they send anything, so that the members are an answer's first component, and stand when `failNotify`
is called. The list of tests and the pointer into it are the tests behind the current one and the
others, so that the current test, if any, is in the list.
-/

set_option autoImplicit false

namespace Yazpp

open Yazpp.Lib

/-- What a test calls: the messages of `Zlint`, and `send_Z_PDU` with a request. -/
inductive TestCall (ρ : Type)
  | checkFor (text : String)
  | checkOk
  | checkFail (text : String)
  | checkInfo (text : String)
  | checkNotapp
  | send (request : ρ)
deriving DecidableEq, Repr

/-- What becomes of a request in `send_Z_PDU`. -/
inductive SendOutcome
  -- it is put, or queued
  | sent
  -- it cannot be encoded, or there is no connection: -1
  | refused
  -- `cs_put` fails: `failNotify`, and then -1
  | lost
deriving DecidableEq, Repr

/-- The outcomes that are left behind a call. -/
def TestCall.later {ρ : Type} : TestCall ρ → List SendOutcome → List SendOutcome
  | .send _, sent => sent.tail
  | _, sent => sent

/-- The virtual functions of `Zlint_test`. `init` is told what becomes of its requests: those of no
outcome are refused. -/
structure ZlintTest (τ γ ρ φ : Type) where
  init : List SendOutcome → τ → Except φ (τ × List (TestCall ρ) × LintCode)
  recvGdu : γ → τ → Except φ (τ × List (TestCall ρ) × LintCode)
  recvFail : Int → τ → Except φ (τ × List (TestCall ρ) × LintCode)

/-- `Zlint_t`. -/
structure ZlintT (τ : Type) where
  test : τ
  testNumberSequence : Nat := 0
  testOk : Nat := 0
  testReported : Bool := false
deriving DecidableEq, Repr

/-- What is printed for a test, and what is sent. -/
inductive TestLine (ρ : Type)
  | checking (text : String)
  | ok
  | fail
  | unsupported
  | info (text : String)
  | sent (request : ρ)
deriving DecidableEq, Repr

namespace ZlintT

variable {τ ρ : Type}

/-- `Zlint::msg_check_for`, `msg_check_info`, `msg_check_ok`, `msg_check_fail` and
`msg_check_notapp`, with the current test, and `send_Z_PDU`. -/
def tell (t : ZlintT τ) : TestCall ρ → ZlintT τ × List (TestLine ρ)
  | .checkFor text =>
    ({ t with
        testOk := 0, testNumberSequence := t.testNumberSequence + 1, testReported := false },
      [.checking text])
  | .checkInfo text => (t, [.info text])
  | .checkOk =>
    if t.testReported then (t, []) else ({ t with testOk := 1, testReported := true }, [.ok])
  | .checkFail text =>
    if t.testReported then (t, [.info text])
    else ({ t with testOk := 0, testReported := true }, [.fail, .info text])
  | .checkNotapp =>
    if t.testReported then (t, [])
    else ({ t with testOk := 2, testReported := true }, [.unsupported])
  | .send request => (t, [.sent request])

/-- One call after another. -/
def tells : List (TestCall ρ) → ZlintT τ → ZlintT τ × List (TestLine ρ)
  | [], t => (t, [])
  | call :: calls, t =>
    let (t, lines) := t.tell call
    let (t, more) := t.tells calls
    (t, lines ++ more)

end ZlintT

/-- What is undefined: in a test, or in a message when `m_cur_test` is null. -/
inductive ZlintFault (φ : Type)
  | test (fault : φ)
  | noCurTest
deriving DecidableEq, Repr

/-- What a `Zlint` does. `prints` names the place in the list of the test that is current. -/
inductive ZlintCall (ρ φ : Type)
  -- `client(m_host)`
  | client
  | timeout (sec : Int)
  | close
  | prints (test : Nat) (line : TestLine ρ)
  | fault (fault : ZlintFault φ)
deriving DecidableEq, Repr

/-- `Zlint`: the tests in front of `m_cur_test`, and the others. -/
structure Zlint (τ : Type) where
  passed : List (ZlintT τ) := []
  rest : List (ZlintT τ) := []
  faulted : Bool := false
deriving DecidableEq, Repr

/-- What a `Zlint` is told, and what becomes of the requests that are sent meanwhile. -/
inductive ZlintInput (γ : Type)
  | connectNotify (sent : List SendOutcome)
  | timeoutNotify (sent : List SendOutcome)
  -- the connection has been shut down
  | failNotify
  | recvGdu (gdu : γ) (sent : List SendOutcome)
deriving DecidableEq, Repr

/-- A `Zlint` behind some calls. -/
abbrev ZlintNext (τ ρ φ : Type) := Zlint τ × List (ZlintCall ρ φ)

namespace ZlintNext

variable {τ ρ φ : Type}

/-- What follows, unless it ended with a fault. -/
def andThen (next : ZlintNext τ ρ φ) (f : Zlint τ → ZlintNext τ ρ φ) : ZlintNext τ ρ φ :=
  if next.1.faulted then next else ((f next.1).1, next.2 ++ (f next.1).2)

end ZlintNext

namespace Zlint

variable {τ γ ρ φ : Type}

/-- `m_tests`. -/
def tests (z : Zlint τ) : List (ZlintT τ) := z.passed ++ z.rest

/-- `Zlint::add_test`. Without a current test, the first one is current again. -/
def addTest (t : τ) (z : Zlint τ) : Zlint τ :=
  if z.rest = [] then { z with passed := [], rest := z.tests ++ [{ test := t }] }
  else { z with rest := z.rest ++ [{ test := t }] }

/-- The end of `Zlint::set_host`, and of the notifications that open a new connection. -/
def reconnect : List (ZlintCall ρ φ) := [.client, .timeout 30]

/-- `Zlint::close_goto_next`. -/
def closeGotoNext (z : Zlint τ) : ZlintNext τ ρ φ :=
  match z.rest with
  | t :: u :: rest => ({ z with passed := z.passed ++ [t], rest := u :: rest }, reconnect)
  | [t] => ({ z with passed := z.passed ++ [t], rest := [] }, [.close])
  | [] => (z, [.close])

/-- A call with the current test, if any. -/
def tell (z : Zlint τ) (call : TestCall ρ) : ZlintNext τ ρ φ :=
  match z.rest, call with
  | t :: rest, call =>
    ({ z with rest := (t.tell call).1 :: rest }, (t.tell call).2.map (.prints z.passed.length))
  -- `msg_check_info` and `send_Z_PDU` do not read `m_cur_test`
  | [], .checkInfo text => (z, [.prints z.passed.length (.info text)])
  | [], .send request => (z, [.prints z.passed.length (.sent request)])
  | [], _ => ({ z with faulted := true }, [.fault .noCurTest])

/-- A call of a test; `outcome` is what becomes of it if it sends, and `fail` what follows when the
connection fails in it. -/
def make (fail : Zlint τ → ZlintNext τ ρ φ) (outcome : SendOutcome) (call : TestCall ρ)
    (z : Zlint τ) : ZlintNext τ ρ φ :=
  match call, outcome with
  | .send _, .refused => (z, [])
  | .send _, .lost => fail z
  | call, _ => z.tell call

/-- The calls of a test, one after another. -/
def makes (fail : Zlint τ → ZlintNext τ ρ φ) :
    List (TestCall ρ) → List SendOutcome → Zlint τ → ZlintNext τ ρ φ
  | [], _, z => (z, [])
  | call :: calls, sent, z =>
    (z.make fail (sent.headD .refused) call).andThen (makes fail calls (call.later sent))

/-- A notification, when there is a current test: what the test makes of it, and what follows from
its answer. -/
def turn (fail : Zlint τ → ZlintNext τ ρ φ) (sent : List SendOutcome)
    (f : τ → Except φ (τ × List (TestCall ρ) × LintCode))
    (next : LintCode → Zlint τ → ZlintNext τ ρ φ) (z : Zlint τ) : ZlintNext τ ρ φ :=
  match z.rest with
  | [] => (z, [])
  | t :: rest =>
    match f t.test with
    | .error fault => ({ z with faulted := true }, [.fault (.test fault)])
    | .ok (test, calls, code) =>
      (makes fail calls sent { z with rest := { t with test := test } :: rest }).andThen (next code)

/-- The end of `Zlint::connectNotify`. -/
def connected : LintCode → Zlint τ → ZlintNext τ ρ φ
  | .testFinished, z => z.closeGotoNext
  | .testContinue, z | .testReopen, z => (z, [])

/-- The end of `Zlint::recv_GDU`. -/
def received : LintCode → Zlint τ → ZlintNext τ ρ φ
  | .testContinue, z => (z, [])
  | .testReopen, z => (z, reconnect)
  | .testFinished, z => z.closeGotoNext

/-- The end of `Zlint::failNotify` and `Zlint::timeoutNotify`. -/
def failed : LintCode → Zlint τ → ZlintNext τ ρ φ
  | .testFinished, z => z.closeGotoNext
  | .testContinue, z | .testReopen, z => (z, reconnect)

/-- `Zlint::failNotify`. There is no connection any more. -/
def failNotify (ops : ZlintTest τ γ ρ φ) : Zlint τ → ZlintNext τ ρ φ :=
  turn (fun z => (z, [])) [] (ops.recvFail 1) failed

/-- `Zlint::timeoutNotify`. -/
def timeoutNotify (ops : ZlintTest τ γ ρ φ) (sent : List SendOutcome) : Zlint τ → ZlintNext τ ρ φ :=
  turn (failNotify ops) sent (ops.recvFail 2) failed

/-- `Zlint::connectNotify`. -/
def connectNotify (ops : ZlintTest τ γ ρ φ) (sent : List SendOutcome) : Zlint τ → ZlintNext τ ρ φ :=
  turn (failNotify ops) sent (ops.init sent) connected

/-- `Zlint::recv_GDU`. -/
def recvGdu (ops : ZlintTest τ γ ρ φ) (gdu : γ) (sent : List SendOutcome) :
    Zlint τ → ZlintNext τ ρ φ :=
  turn (failNotify ops) sent (ops.recvGdu gdu) received

/-- One notification, as one function. -/
def perform (ops : ZlintTest τ γ ρ φ) (z : Zlint τ) : ZlintInput γ → ZlintNext τ ρ φ
  | .connectNotify sent => z.connectNotify ops sent
  | .timeoutNotify sent => z.timeoutNotify ops sent
  | .failNotify => z.failNotify ops
  | .recvGdu gdu sent => z.recvGdu ops gdu sent

/-- A `Zlint` with a host, and with these tests, none of which has run. -/
structure Started (ts : List τ) (z : Zlint τ) (h : List (ZlintCall ρ φ)) : Prop where
  state : z = ts.foldl (fun z t => z.addTest t) {}
  history : h = reconnect

end Zlint

/-- A `Zlint` under any sequence of notifications, until a fault. -/
def zlint {τ γ ρ φ : Type} (ops : ZlintTest τ γ ρ φ) :
    Machine (Zlint τ) (ZlintInput γ) (ZlintCall ρ φ) where
  step z i := if z.faulted then none else some (z.perform ops i)

end Yazpp
