import Yazpp.Lib.Arena
import Yazpp.Lib.Machine
import Yazpp.Odr

/-!
# `GDU` in memory

The embedding of `src/gdu.cpp`. A `GDU` has a decoding stream, and its tree is in the memory of
this. It is made by encoding a tree that somebody else owns, and decoding the octets.
`move_away_gdu` gives the tree, with the memory that it is in, to a stream of the user.

YAZ's memory is not part of the repository, and a parameter (`Arenas`). Its owners are the `ODR`
streams and its arenas the `NMEM`s: `create` is `odr_createmem`, `destroy` is `odr_destroy`, `alloc`
is `odr_malloc` or the decoder, `arenaOf` and `assign` are reading and setting `odr->mem`, `extract`
is `odr_extract_mem`, `newArena` is `nmem_create`, `transfer` is `nmem_transfer` and `free` is
`nmem_destroy`.

`gduMemory` is any use of any `GDU`s and streams, and `gduStore` what these are for: values.
-/

set_option autoImplicit false

namespace Yazpp

open Yazpp.Lib

/-- What YAZ does with a `Z_GDU`. `z3950` is the one that holds an APDU, or a null pointer. -/
structure GduCodec (γ α σ : Type) where
  encoder : OdrEncode γ σ
  decoder : Buf → Option γ
  z3950 : Option α → γ

/-- What a pointer points at. -/
inductive GduTree (γ α : Type)
  | gdu (gdu : γ)
  | apdu (apdu : α)
deriving DecidableEq, Repr

/-- A variable of type `Z_GDU *` or `Z_APDU *`, which may be null. -/
inductive GduVar (π ρ : Type)
  | gdu (gdu : Option π)
  | apdu (apdu : Option ρ)
deriving DecidableEq, Repr

/-- A `GDU`: `m_gdu` and `m_decode`. -/
structure GduObject where
  gdu : Option Nat := none
  decode : Nat
deriving DecidableEq, Repr

variable {γ α σ μ : Type}

/-- The memory of streams. -/
abbrev GduNmem (μ γ α : Type) := Arenas μ (GduTree γ α)

namespace GduNmem

def readGdu (nmem : GduNmem μ γ α) (gdu : Nat) (m : μ) : Except ArenaFault γ := do
  match ← nmem.read gdu m with
  | .gdu g => return g
  | .apdu _ => .error (.block gdu)

def readApdu (nmem : GduNmem μ γ α) (apdu : Nat) (m : μ) : Except ArenaFault α := do
  match ← nmem.read apdu m with
  | .apdu p => return p
  | .gdu _ => .error (.block apdu)

end GduNmem

namespace GduObject

variable (yaz : GduCodec γ α σ) (nmem : GduNmem μ γ α)

/-- A tree is encoded, and decoded from the octets: `m_gdu`, null if one of this fails. -/
def recode (gdu : Option Nat) (decode : Nat) (m : μ) : Except ArenaFault (Option Nat × μ) :=
  match gdu with
  | none => .ok (none, m)
  | some gdu => do
    let (s, encoded) := yaz.encoder.zGdu yaz.encoder.createmem (← nmem.readGdu gdu m)
    if encoded then
      match yaz.decoder (yaz.encoder.getbuf s) with
      | some g => do
        let (gdu, m) ← nmem.alloc decode (.gdu g) m
        return (some gdu, m)
      | none => return (none, m)
    else return (none, m)

/-- `GDU::base`. -/
def base (gdu : Option Nat) (encode : Nat) (m : μ) : Except ArenaFault (GduObject × μ) := do
  let (decode, m) := nmem.create m
  let (m_gdu, m) ← recode yaz nmem gdu decode m
  let m ← nmem.destroy encode m
  return ({ gdu := m_gdu, decode := decode }, m)

/-- `GDU::GDU()`. -/
def empty (m : μ) : Except ArenaFault (GduObject × μ) :=
  let (encode, m) := nmem.create m
  base yaz nmem none encode m

/-- `GDU::GDU(Z_GDU *gdu)`. -/
def ofGdu (gdu : Option Nat) (m : μ) : Except ArenaFault (GduObject × μ) :=
  let (encode, m) := nmem.create m
  base yaz nmem gdu encode m

/-- `GDU::GDU(Z_APDU *apdu)`. The `Z_GDU` around it is in the memory of the encoding stream. -/
def ofApdu (apdu : Option Nat) (m : μ) : Except ArenaFault (GduObject × μ) := do
  let (encode, m) := nmem.create m
  let p ← (match apdu with
    | none => .ok none
    | some apdu => do return some (← nmem.readApdu apdu m) : Except ArenaFault (Option α))
  let (gdu, m) ← nmem.alloc encode (.gdu (yaz.z3950 p)) m
  base yaz nmem (some gdu) encode m

/-- `GDU::GDU(const GDU &g)`. -/
def copy (g : GduObject) (m : μ) : Except ArenaFault (GduObject × μ) :=
  let (encode, m) := nmem.create m
  base yaz nmem g.gdu encode m

/-- `GDU::operator=`, of another `GDU`. -/
def assign (this g : GduObject) (m : μ) : Except ArenaFault (GduObject × μ) := do
  let m ← nmem.destroy this.decode m
  let (encode, m) := nmem.create m
  base yaz nmem g.gdu encode m

/-- `GDU::get_size`. -/
def size (this : GduObject) (m : μ) : Except ArenaFault (Nat × μ) := do
  let (encode, m) := nmem.create m
  let len ← (match this.gdu with
    | none => .ok 0
    | some gdu => do
      let (s, encoded) := yaz.encoder.zGdu yaz.encoder.createmem (← nmem.readGdu gdu m)
      return if encoded then (yaz.encoder.getbuf s).length else 0 : Except ArenaFault Nat)
  let m ← nmem.destroy encode m
  return (len, m)

/-- `if (!dst->mem) dst->mem = nmem_create();`. -/
def provide (dst : Nat) (m : μ) : Except ArenaFault μ := do
  match ← nmem.arenaOf dst m with
  | some _ => return m
  | none =>
    let (mem, m) := nmem.newArena m
    nmem.assign dst (some mem) m

/-- `GDU::move_away_gdu`: the pointer that the caller gets, the `GDU`, and the memory. -/
def moveAway (this : GduObject) (dst : Nat) (m : μ) :
    Except ArenaFault (Option Nat × GduObject × μ) := do
  let gdu := this.gdu
  let this := { this with gdu := none }
  let (mem, m) ← nmem.extract this.decode m
  let m ← provide nmem dst m
  let m ← nmem.transfer (← nmem.arenaOf dst m) mem m
  let m ← nmem.free mem m
  return (gdu, this, m)

/-- `GDU::~GDU`. -/
def destroy (this : GduObject) (m : μ) : Except ArenaFault μ :=
  nmem.destroy this.decode m

end GduObject

/-- What the user has: a `GDU`, or a stream with the pointers that the user has into its memory. -/
inductive GduThing
  | gdu (gdu : GduObject)
  | odr (mem : Nat) (vars : List (GduVar Nat Nat))
deriving DecidableEq, Repr

/-- The things of the user by their names, and the memory. -/
structure GduMemory (μ : Type) where
  things : Nat → Option GduThing := fun _ => none
  heap : μ

/-- What the user does: things are named, and of a stream the variable at an index is taken. -/
inductive GduCall (γ α : Type)
  -- `odr_createmem`
  | odr (odr : Nat)
  -- a tree is made in the memory of a stream
  | build (odr : Nat) (tree : GduVar γ α)
  -- a tree is looked at
  | look (odr var : Nat)
  -- `nmem_destroy(odr_extract_mem(odr))`
  | release (odr : Nat)
  -- `odr_destroy`
  | destroyOdr (odr : Nat)
  | empty (gdu : Nat)
  | ofVar (gdu odr var : Nat)
  | copy (gdu g : Nat)
  | assign (gdu g : Nat)
  | get (gdu : Nat)
  | size (gdu : Nat)
  | moveAway (gdu dst : Nat)
  | destroy (gdu : Nat)
deriving DecidableEq, Repr

/-- What the user sees. -/
inductive GduSeen (γ α : Type)
  | tree (tree : GduVar γ α)
  | size (len : Nat)
  | fault (fault : ArenaFault)
deriving DecidableEq, Repr

namespace GduMemory

variable (yaz : GduCodec γ α σ) (nmem : GduNmem μ γ α)

/-- There is nothing yet. -/
def new : GduMemory μ := { heap := nmem.start }

/-- A thing gets a name, or another value. -/
def set (u : GduMemory μ) (x : Nat) (t : GduThing) (heap : μ) : GduMemory μ :=
  { things := Function.update u.things x (some t), heap := heap }

/-- A thing is gone. -/
def drop (u : GduMemory μ) (x : Nat) (heap : μ) : GduMemory μ :=
  { things := Function.update u.things x none, heap := heap }

/-- The tree of a variable. -/
def deref (u : GduMemory μ) : GduVar Nat Nat → Except ArenaFault (GduVar γ α)
  | .gdu none => return .gdu none
  | .gdu (some gdu) => do return .gdu (some (← nmem.readGdu gdu u.heap))
  | .apdu none => return .apdu none
  | .apdu (some apdu) => do return .apdu (some (← nmem.readApdu apdu u.heap))

/-- A tree is made: the pointer to it. -/
def build (odr : Nat) (m : μ) : GduVar γ α → Except ArenaFault (GduVar Nat Nat × μ)
  | .gdu none => return (.gdu none, m)
  | .gdu (some g) => do
    let (gdu, m) ← nmem.alloc odr (.gdu g) m
    return (.gdu (some gdu), m)
  | .apdu none => return (.apdu none, m)
  | .apdu (some p) => do
    let (apdu, m) ← nmem.alloc odr (.apdu p) m
    return (.apdu (some apdu), m)

/-- The constructor for a variable of its type. -/
def ofVar (m : μ) : GduVar Nat Nat → Except ArenaFault (GduObject × μ)
  | .gdu gdu => GduObject.ofGdu yaz nmem gdu m
  | .apdu apdu => GduObject.ofApdu yaz nmem apdu m

/-- What is done, where the things that are named are there. -/
def perform (u : GduMemory μ) :
    GduCall γ α → Option (Except ArenaFault (GduMemory μ × List (GduSeen γ α)))
  | .odr x =>
    match u.things x with
    | none =>
      let (mem, heap) := nmem.create u.heap
      some (return (u.set x (.odr mem []) heap, []))
    | some _ => none
  | .build x tree =>
    match u.things x with
    | some (.odr mem vars) => some do
      let (var, heap) ← build nmem mem u.heap tree
      return (u.set x (.odr mem (vars ++ [var])) heap, [])
    | _ => none
  | .look x i =>
    match u.things x with
    | some (.odr _ vars) => vars[i]?.map fun var => do return (u, [.tree (← u.deref nmem var)])
    | _ => none
  | .release x =>
    match u.things x with
    | some (.odr mem _) => some do return (u.set x (.odr mem []) (← nmem.release mem u.heap), [])
    | _ => none
  | .destroyOdr x =>
    match u.things x with
    | some (.odr mem _) => some do return (u.drop x (← nmem.destroy mem u.heap), [])
    | _ => none
  | .empty x =>
    match u.things x with
    | none => some do
      let (gdu, heap) ← GduObject.empty yaz nmem u.heap
      return (u.set x (.gdu gdu) heap, [])
    | some _ => none
  | .ofVar x y i =>
    match u.things x, u.things y with
    | none, some (.odr _ vars) => vars[i]?.map fun var => do
      let (gdu, heap) ← ofVar yaz nmem u.heap var
      return (u.set x (.gdu gdu) heap, [])
    | _, _ => none
  | .copy x y =>
    match u.things x, u.things y with
    | none, some (.gdu g) => some do
      let (gdu, heap) ← GduObject.copy yaz nmem g u.heap
      return (u.set x (.gdu gdu) heap, [])
    | _, _ => none
  | .assign x y =>
    match u.things x, u.things y with
    | some (.gdu this), some (.gdu g) => some do
      if x ≠ y then
        let (gdu, heap) ← GduObject.assign yaz nmem this g u.heap
        return (u.set x (.gdu gdu) heap, [])
      else return (u, [])
    | _, _ => none
  | .get x =>
    match u.things x with
    | some (.gdu this) => some do return (u, [.tree (← u.deref nmem (.gdu this.gdu))])
    | _ => none
  | .size x =>
    match u.things x with
    | some (.gdu this) => some do
      let (len, heap) ← this.size yaz nmem u.heap
      return ({ u with heap := heap }, [.size len])
    | _ => none
  | .moveAway x y =>
    match u.things x, u.things y with
    | some (.gdu this), some (.odr mem vars) => some do
      let (gdu, this, heap) ← this.moveAway nmem mem u.heap
      return ((u.set x (.gdu this) heap).set y (.odr mem (vars ++ [.gdu gdu])) heap, [])
    | _, _ => none
  | .destroy x =>
    match u.things x with
    | some (.gdu this) => some do return (u.drop x (← this.destroy nmem u.heap), [])
    | _ => none

end GduMemory

/-- `GDU`s and their user, under any sequence of calls. A fault is put out, and nothing else is
done. -/
def gduMemory (yaz : GduCodec γ α σ) (nmem : GduNmem μ γ α) :
    Machine (GduMemory μ) (GduCall γ α) (GduSeen γ α) where
  step u i := (u.perform yaz nmem i).map fun
    | .ok next => next
    | .error f => (u, [.fault f])

/-! ## What it is for -/

/-- What a `GDU` is: a value, or none; its memory may have been moved away. -/
structure GduValue (γ : Type) where
  value : Option γ := none
  moved : Bool := false
deriving DecidableEq, Repr

/-- What the user has, by value. -/
inductive GduItem (γ α : Type)
  | gdu (gdu : GduValue γ)
  | odr (vars : List (GduVar γ α))
deriving DecidableEq, Repr

namespace GduCodec

variable (yaz : GduCodec γ α σ)

/-- What is read back of what was written. -/
def reread (g : γ) : Option γ :=
  if (yaz.encoder.zGdu yaz.encoder.createmem g).2 then yaz.decoder (yaz.encoder.octets g) else none

/-- How much was written. -/
def written (g : γ) : Nat :=
  if (yaz.encoder.zGdu yaz.encoder.createmem g).2 then (yaz.encoder.octets g).length else 0

/-- What a constructor makes of its argument. -/
def ofVar : GduVar γ α → GduValue γ
  | .gdu g => { value := g.bind yaz.reread }
  | .apdu p => { value := yaz.reread (yaz.z3950 p) }

end GduCodec

/-- The things of the user, by value. -/
abbrev GduStore (γ α : Type) := Nat → Option (GduItem γ α)

namespace GduStore

variable (yaz : GduCodec γ α σ)

def perform (a : GduStore γ α) : GduCall γ α → Option (GduStore γ α × List (GduSeen γ α))
  | .odr x =>
    match a x with
    | none => some (Function.update a x (some (.odr [])), [])
    | some _ => none
  | .build x tree =>
    match a x with
    | some (.odr vars) => some (Function.update a x (some (.odr (vars ++ [tree]))), [])
    | _ => none
  | .look x i =>
    match a x with
    | some (.odr vars) => vars[i]?.map fun tree => (a, [.tree tree])
    | _ => none
  | .release x =>
    match a x with
    | some (.odr _) => some (Function.update a x (some (.odr [])), [])
    | _ => none
  | .destroyOdr x =>
    match a x with
    | some (.odr _) => some (Function.update a x none, [])
    | _ => none
  | .empty x =>
    match a x with
    | none => some (Function.update a x (some (.gdu {})), [])
    | some _ => none
  | .ofVar x y i =>
    match a x, a y with
    | none, some (.odr vars) =>
      vars[i]?.map fun tree => (Function.update a x (some (.gdu (yaz.ofVar tree))), [])
    | _, _ => none
  | .copy x y =>
    match a x, a y with
    | none, some (.gdu g) => some (Function.update a x (some (.gdu (yaz.ofVar (.gdu g.value)))), [])
    | _, _ => none
  | .assign x y =>
    match a x, a y with
    | some (.gdu _), some (.gdu g) =>
      if x ≠ y then some (Function.update a x (some (.gdu (yaz.ofVar (.gdu g.value)))), [])
      else some (a, [])
    | _, _ => none
  | .get x =>
    match a x with
    | some (.gdu g) => some (a, [.tree (.gdu g.value)])
    | _ => none
  | .size x =>
    match a x with
    | some (.gdu g) => some (a, [.size ((g.value.map yaz.written).getD 0)])
    | _ => none
  | .moveAway x y =>
    match a x, a y with
    | some (.gdu g), some (.odr vars) =>
      if g.moved then some (a, [.fault (.arena none)])
      else some (Function.update (Function.update a x (some (.gdu { moved := true }))) y
        (some (.odr (vars ++ [.gdu g.value]))), [])
    | _, _ => none
  | .destroy x =>
    match a x with
    | some (.gdu _) => some (Function.update a x none, [])
    | _ => none

end GduStore

/-- The `GDU`s that it is for: values. -/
def gduStore (yaz : GduCodec γ α σ) : Machine (GduStore γ α) (GduCall γ α) (GduSeen γ α) where
  step a i := a.perform yaz i

end Yazpp
