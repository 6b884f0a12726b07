/-!
# `IR_Assoc`: the names of the databases

The embedding of `set_databaseNames` and what is around it in `src/yaz-ir-assoc.cpp`. A string of C
is its characters in front of a NUL; what a pointer into a buffer stands for is read back from the
buffer, as it is by then (`CString.read`).

The loop that splits a list of names walks over a copy of it, `dbtmp`. The model holds the part of
the copy in front of `cp`, which the loop has written to, and the part from `cp` on, which it has
not. `num` and `len` are `int`s that only count up.
-/

set_option autoImplicit false

namespace Yazpp

/-- A C string, without the NUL behind it. -/
structure CString where
  chars : List UInt8
  noNul : 0 ∉ chars
deriving DecidableEq, Repr

namespace CString

/-- The string as it is in memory. -/
def octets (s : CString) : List UInt8 := s.chars ++ [0]

def strlen (s : CString) : Nat := s.chars.length

/-- `strchr`, as a truth value. It finds the NUL too. -/
def strchr (s : CString) (c : UInt8) : Bool := s.octets.contains c

/-- The string that starts at a place of a buffer; there is none where no NUL follows. -/
def read (memory : List UInt8) (start : Nat) : Option CString :=
  if 0 ∈ memory.drop start then
    some
      { chars := (memory.drop start).takeWhile fun c => c ≠ 0
        noNul := fun h => by simpa using List.all_eq_true.mp List.all_takeWhile 0 h }
  else none

end CString

/-- What goes wrong: an `int` has no next value, a place of an array or a buffer is not there, or a
pointer is read that was not assigned. -/
inductive NamesFault
  | overflow
  | outOfBounds
  | unset
deriving DecidableEq, Repr

/-- `++` on an `int` that is not negative, and that counts places. -/
def increment (n : Nat) : Except NamesFault Nat :=
  if n < 0x7fffffff then .ok (n + 1) else .error .overflow

/-- The loop of `set_databaseNames`: the part of `dbtmp` in front of `cp`, `list`, `num` and
`len`. -/
structure Splitting where
  dbtmp : List UInt8 := []
  list : List (Option Nat)
  num : Nat := 0
  len : Nat := 0
deriving DecidableEq, Repr

/-- `if (len)`: the run that ends at `cp` is put in the list. -/
def Splitting.store (s : Splitting) : Except NamesFault Splitting :=
  if s.len = 0 then .ok s
  else if s.num < s.list.length ∧ s.len ≤ s.dbtmp.length then do
    let num ← increment s.num
    return { s with
      list := s.list.set s.num (some (s.dbtmp.length - s.len))
      num := num }
  else .error .outOfBounds

/-- The loop over what is behind `cp`, `cp` included. -/
def splitLoop (sep : CString) : List UInt8 → Splitting → Except NamesFault Splitting
  | [], _ => .error .outOfBounds
  | c :: rest, s =>
    if c ≠ 0 ∧ !sep.strchr c then do
      let len ← increment s.len
      splitLoop sep rest { s with dbtmp := s.dbtmp ++ [c], len := len }
    else do
      let s ← s.store
      if c = 0 then
        return { s with dbtmp := s.dbtmp ++ c :: rest }
      splitLoop sep rest { s with dbtmp := s.dbtmp ++ [0], len := 0 }

/-- `IR_Assoc`: `m_databaseNames`, which are `m_num_databaseNames` many. -/
structure IrAssoc where
  databaseNames : List CString := []
deriving DecidableEq, Repr

namespace IrAssoc

/-- A copy of the string that an entry of `list` points to. -/
def copyName (memory : List UInt8) : Option Nat → Except NamesFault CString
  | none => .error .unset
  | some start =>
    match CString.read memory start with
    | none => .error .outOfBounds
    | some name => .ok name

/-- `IR_Assoc::set_databaseNames(int num, const char **list)`, for pointers into one buffer. -/
def setDatabaseNames (num : Nat) (list : List (Option Nat)) (memory : List UInt8)
    (this : IrAssoc) : Except NamesFault IrAssoc :=
  if num ≤ list.length then do
    let names ← (list.take num).mapM (copyName memory)
    return { this with databaseNames := names }
  else .error .outOfBounds

/-- `IR_Assoc::set_databaseNames(const char *dblist, const char *sep)`. -/
def splitDatabaseNames (dblist sep : CString) (this : IrAssoc) : Except NamesFault IrAssoc := do
  let s ← splitLoop sep dblist.octets { list := List.replicate dblist.strlen none }
  this.setDatabaseNames s.num s.list s.dbtmp

/-- `IR_Assoc::get_databaseNames`. -/
def getDatabaseNames (this : IrAssoc) : Nat × List CString :=
  (this.databaseNames.length, this.databaseNames)

/-- `"Default"`. -/
def defaultName : CString := ⟨[68, 101, 102, 97, 117, 108, 116], by decide⟩

/-- The names that the constructor sets. -/
def new : Except NamesFault IrAssoc :=
  setDatabaseNames 1 [some 0] defaultName.octets {}

example : new = .ok { databaseNames := [defaultName] } := rfl

end IrAssoc

end Yazpp
