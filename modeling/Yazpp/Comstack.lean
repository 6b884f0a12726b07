/-!
# Socket masks and the COMSTACK interface

What the association and the socket manager say to each other is a bit mask
(`include/yazpp/socket-observer.h`), and what the association hears of the network is what YAZ's
COMSTACK answers: an `int`, and the direction the transport waits for (`cs->io_pending`).

COMSTACK itself is not part of the repository. Its answers are inputs of the model: a step is
given the `Answers` of the calls it makes, and a result that reads `Answers` without a hypothesis
holds whatever the transport does.
-/

set_option autoImplicit false

namespace Yazpp

/-! ## Masks -/

/-- `SOCKET_OBSERVE_READ`. -/
def observeRead : Nat := 1

/-- `SOCKET_OBSERVE_WRITE`. -/
def observeWrite : Nat := 2

/-- `SOCKET_OBSERVE_EXCEPT`. -/
def observeExcept : Nat := 4

/-- `SOCKET_OBSERVE_TIMEOUT`. -/
def observeTimeout : Nat := 8

/-- The test `mask & bits` of the source. -/
def testMask (mask bits : Nat) : Bool := (mask &&& bits) != 0

/-- A union of masks has a bit when one of the two has it. -/
@[simp] theorem testMask_or (a b bits : Nat) :
    testMask (a ||| b) bits = (testMask a bits || testMask b bits) := by
  simp only [testMask, Nat.and_or_distrib_right]
  by_cases ha : a &&& bits = 0
  · simp only [ha, Nat.zero_or, bne_self_eq_false, Bool.false_or]
  · have hor : a &&& bits ||| b &&& bits ≠ 0 := fun h => ha (Nat.or_eq_zero_iff.mp h).1
    simp only [bne_iff_ne.mpr ha, bne_iff_ne.mpr hor, Bool.true_or]

@[simp] theorem testMask_write_write : testMask observeWrite observeWrite = true := rfl

/-! ## What COMSTACK answers -/

/-- A run of octets: a PDU in a buffer. -/
abbrev Buf := List UInt8

/-- A `COMSTACK` handle; `0` is the null pointer. -/
abbrev Comstack := Nat

/-- An `IPDU_Observer *`; `0` is the null pointer. -/
abbrev Observer := Nat

/-- The name of a `PDU_Assoc` object. -/
abbrev AssocId := Nat

/-- `cs->io_pending`: the direction the transport waits for. -/
structure IoPending where
  wantRead : Bool := false
  wantWrite : Bool := false
deriving DecidableEq, Repr

/-- The mask the association builds from `io_pending`, `CS_WANT_WRITE` first as in the source. -/
def IoPending.mask (p : IoPending) : Nat :=
  (if p.wantWrite then observeWrite else 0) ||| (if p.wantRead then observeRead else 0)

/-- The answer of one COMSTACK call: its `int`, and `io_pending` as the call leaves it. -/
structure Reply where
  res : Int := 0
  pending : IoPending := {}
deriving DecidableEq, Repr

/-- What the code outside the association answers during one step. Each step reads the answers of
the calls it makes, at most one of each kind, and no others.

- `accept` answers `cs_accept` on a connection being accepted, `0` for a null result;
- `get` and `getBuf` answer `cs_get`: its result, and the octets it leaves in the input buffer;
- `listen` and `newLine` answer `cs_listen` and the `cs_accept` after it, `0` for null;
- `child` and `session` answer `new PDU_Assoc` and `sessionNotify`, `0` for a null observer;
- `bind` answers `cs_bind`, and `fileno` answers `cs_fileno`. -/
structure Answers where
  connect : Reply := {}
  rcvconnect : Reply := {}
  accept : Reply := { res := 1 }
  put : Reply := {}
  get : Reply := { res := 1 }
  getBuf : Buf := []
  more : Bool := false
  listen : Int := 0
  newLine : Comstack := 0
  child : AssocId := 0
  session : Observer := 0
  bind : Int := 0
  fileno : Int := 3
deriving DecidableEq, Repr

end Yazpp
