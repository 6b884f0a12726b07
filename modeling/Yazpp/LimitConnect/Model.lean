import Yazpp.CInt
import Yazpp.Lib.Machine
import Yazpp.Lib.Ring

/-!
# `TimeStat` and `LimitConnect`, function by function

The embedding of `src/timestat.cpp` and `src/limit-connect.cpp`. A `TimeStat` is a ring of one
bucket for each of the last seconds, `Rep::size` being the length of the ring; a `LimitConnect`
has one of them for each peer that connected. `time(0)` is read by `add_bytes`, and its answer is
an argument; `new int[sz]` does not set the buckets, and what it finds in them is an argument too.

The seconds between two readings are an `int`, and the loop of `add_bytes` counts them down with
`--d`. That overflows for the smallest `int`: the fault is `none`. The buckets themselves and their
sum come to their conversion.

A peer name stands for the characters that `strcmp` compares, and may be of any type with decidable
equality. A period that is not positive asks `new` for no bucket at all: such a `set_period` is
left out, and the period carries that it is positive.
-/

set_option autoImplicit false

namespace Yazpp

open Yazpp.Lib

/-- `TimeStat::Rep`. -/
structure TimeStat where
  sec : Int := 0
  bucket : RingBuffer Int

namespace TimeStat

/-- The constructor: `sz` buckets with whatever is in `memory`. -/
def new (sz : Nat) (pos : 0 < sz) (memory : Nat → Int) : TimeStat where
  bucket :=
    { slots := (List.range sz).map memory
      ptr := 0
      inRange := by rwa [List.length_map, List.length_range] }

/-- `--d` overflows. -/
def Overflows (now : Int) (ts : TimeStat) : Prop :=
  ts.sec ≤ now ∧ toInt32 (now - ts.sec) = -0x80000000

instance (now : Int) (ts : TimeStat) : Decidable (ts.Overflows now) :=
  inferInstanceAs (Decidable (_ ∧ _))

/-- What `add_bytes` leaves when `--d` does not overflow. The seconds since the last call, but no
more than there are buckets, are cleared one after the other. -/
def added (b : Int) (now : Int) (ts : TimeStat) : TimeStat :=
  if ts.sec ≤ now then
    let d := toInt32 (now - ts.sec)
    let d := if (ts.bucket.size : Int) < d then (ts.bucket.size : Int) else d
    { sec := now
      bucket := (ts.bucket.pushes 0 d.toNat).modify fun x => toInt32 (x + b) }
  else { ts with sec := now }

/-- `TimeStat::add_bytes`. -/
def addBytes (b : Int) (now : Int) (ts : TimeStat) : Option TimeStat :=
  if ts.Overflows now then none else some (ts.added b now)

/-- The sum of the buckets. -/
def total (ts : TimeStat) : Int := ts.bucket.slots.foldl (fun bw x => toInt32 (bw + x)) 0

/-- `TimeStat::get_total`, which adds nothing first. -/
def getTotal (now : Int) (ts : TimeStat) : Option (Int × TimeStat) :=
  (ts.addBytes 0 now).map fun ts => (ts.total, ts)

end TimeStat

/-- `LimitConnect::Peer`. -/
structure Peer (κ : Type) where
  peername : κ
  bw : TimeStat

/-- `LimitConnect::Rep`: the peers, oldest first, each with a name of its own. -/
structure LimitConnect (κ : Type) where
  period : Nat := 60
  peers : List (Peer κ) := []
  pos : 0 < period := by decide
  nodup : (peers.map Peer.peername).Nodup := by exact List.nodup_nil

namespace LimitConnect

variable {κ : Type}

/-- The constructor. -/
def new : LimitConnect κ := {}

/-- `LimitConnect::set_period`. -/
def setPeriod (sec : Nat) (pos : 0 < sec) (c : LimitConnect κ) : LimitConnect κ :=
  { c with period := sec, pos := pos }

/-- How a loop over the peers ends: with as many readings of the clock as it makes, with others, or
in an overflow. -/
inductive Swept (α : Type)
  | done (a : α)
  | misread
  | overflow

/-- The loop of `LimitConnect::cleanup(false)`: every peer is asked for its total, with a reading
of the clock of its own, and one without connections is dropped. -/
def sweep : List Int → List (Peer κ) → Swept (List (Peer κ))
  | now :: nows, p :: ps =>
    match p.bw.getTotal now with
    | none => .overflow
    | some (total, bw) =>
      match sweep nows ps with
      | .done kept => .done (if total = 0 then kept else { p with bw := bw } :: kept)
      | failed => failed
  | [], [] => .done []
  | _, _ => .misread

theorem sweep_names {nows : List Int} {ps kept : List (Peer κ)} (h : sweep nows ps = .done kept) :
    (kept.map Peer.peername).Sublist (ps.map Peer.peername) := by
  induction nows, ps using sweep.induct generalizing kept with
  | case1 now nows p ps overflow =>
    simp only [sweep, overflow] at h
    cases h
  | case2 now nows p ps total bw answer kept' later ih =>
    simp only [sweep, answer, later] at h
    cases h
    split
    · exact (ih later).cons p.peername
    · exact (ih later).cons_cons p.peername
  | case3 now nows p ps total bw answer failed ih =>
    simp only [sweep, answer] at h
    exact absurd h (failed kept)
  | case4 =>
    cases h
    exact .slnil
  | case5 nows ps more fewer =>
    rw [sweep] at h
    · cases h
    · exact more
    · exact fewer

/-- An operation on the `TimeStat` of one peer. -/
def touch [DecidableEq κ] (name : κ) (f : TimeStat → TimeStat) (c : LimitConnect κ) :
    LimitConnect κ :=
  { c with
    peers := c.peers.map fun p => if p.peername = name then { p with bw := f p.bw } else p
    nodup := by
      have names :
          (c.peers.map fun p => if p.peername = name then { p with bw := f p.bw } else p).map
            Peer.peername = c.peers.map Peer.peername := by
        rw [List.map_map]
        apply List.map_congr_left
        intro p _
        show (if p.peername = name then { p with bw := f p.bw } else p).peername = p.peername
        split <;> rfl
      rw [names]
      exact c.nodup }

variable [DecidableEq κ]

/-- `Rep::lookup`. -/
def lookup (name : κ) (c : LimitConnect κ) : Option (Peer κ) :=
  c.peers.find? fun p => p.peername = name

/-- `LimitConnect::add_connect`, with `Peer::add_connect`. -/
def addConnect (name : κ) (now : Int) (memory : Nat → Int) (c : LimitConnect κ) :
    Option (LimitConnect κ) :=
  match found : c.lookup name with
  | some p => (p.bw.addBytes 1 now).map fun bw => c.touch name fun _ => bw
  | none =>
    ((TimeStat.new c.period c.pos memory).addBytes 1 now).map fun bw =>
      { c with
        peers := c.peers ++ [{ peername := name, bw := bw }]
        nodup := by
          rw [List.map_append, List.map_singleton]
          refine List.nodup_append.mpr ⟨c.nodup, by simp, ?_⟩
          rintro _ hold _ hnew rfl
          obtain ⟨p, hp, hname⟩ := List.mem_map.mp hold
          have hother := List.find?_eq_none.mp found p hp
          rw [List.mem_singleton] at hnew
          exact hother (decide_eq_true (hname.trans hnew)) }

/-- `LimitConnect::get_total`. -/
def getTotal (name : κ) (now : Int) (c : LimitConnect κ) : Option (Int × LimitConnect κ) :=
  match c.lookup name with
  | none => some (0, c)
  | some p => (p.bw.getTotal now).map fun (total, bw) => (total, c.touch name fun _ => bw)

/-- `LimitConnect::cleanup`. -/
def cleanup (all : Bool) (nows : List Int) (c : LimitConnect κ) : Swept (LimitConnect κ) :=
  if all then .done { c with peers := [], nodup := List.nodup_nil }
  else
    match swept : sweep nows c.peers with
    | .done peers => .done { c with peers := peers, nodup := c.nodup.sublist (sweep_names swept) }
    | .misread => .misread
    | .overflow => .overflow

/-- A peer that is there is touched. -/
theorem addConnect_some {c : LimitConnect κ} {name : κ} {p : Peer κ}
    (found : c.lookup name = some p) (now : Int) (memory : Nat → Int) :
    c.addConnect name now memory =
      (p.bw.addBytes 1 now).map fun bw => c.touch name fun _ => bw := by
  unfold addConnect
  split
  · next p' found' =>
    cases found.symm.trans found'
    rfl
  · next none => cases none.symm.trans found

/-- One that is not is made behind the others. -/
theorem addConnect_none {c : LimitConnect κ} {name : κ} (none : c.lookup name = none) {now : Int}
    {memory : Nat → Int} {bw : TimeStat}
    (added : (TimeStat.new c.period c.pos memory).addBytes 1 now = some bw) :
    ∃ c', c.addConnect name now memory = some c' ∧
      c'.peers = c.peers ++ [{ peername := name, bw := bw }] ∧ c'.period = c.period := by
  unfold addConnect
  split
  · next found => cases none.symm.trans found
  · rw [added]
    exact ⟨_, rfl, rfl, rfl⟩

theorem addConnect_overflow {c : LimitConnect κ} {name : κ} (none : c.lookup name = none)
    {now : Int} {memory : Nat → Int}
    (overflow : (TimeStat.new c.period c.pos memory).addBytes 1 now = .none) :
    c.addConnect name now memory = .none := by
  unfold addConnect
  split
  · next found => cases none.symm.trans found
  · rw [overflow]
    rfl

omit [DecidableEq κ] in
/-- What `cleanup(false)` leaves. -/
theorem cleanup_cases (nows : List Int) (c : LimitConnect κ) :
    (∃ c', c.cleanup false nows = .done c' ∧ c'.period = c.period ∧
      sweep nows c.peers = .done c'.peers) ∨
    (c.cleanup false nows = .misread ∧ sweep nows c.peers = .misread) ∨
      (c.cleanup false nows = .overflow ∧ sweep nows c.peers = .overflow) := by
  unfold cleanup
  rw [if_neg Bool.false_ne_true]
  split
  · next swept => exact .inl ⟨_, rfl, rfl, swept⟩
  · next swept => exact .inr (.inl ⟨rfl, swept⟩)
  · next swept => exact .inr (.inr ⟨rfl, swept⟩)

end LimitConnect

/-- An operation, with the readings of the clock in it. -/
inductive LimitInput (κ : Type)
  | setPeriod (sec : Nat)
  | addConnect (name : κ) (now : Int) (memory : Nat → Int)
  | getTotal (name : κ) (now : Int)
  | cleanup (all : Bool) (nows : List Int)

/-- What is seen of it. -/
inductive LimitEvent (κ : Type)
  | added (name : κ) (now : Int)
  | total (name : κ) (now : Int) (total : Int)
  | overflow
deriving DecidableEq, Repr

/-- The readings of the clock in an operation, in order. -/
def LimitInput.readings {κ : Type} : LimitInput κ → List Int
  | .addConnect _ now _ => [now]
  | .getTotal _ now => [now]
  | .cleanup false nows => nows
  | _ => []

namespace LimitConnect

variable {κ : Type} [DecidableEq κ]

/-- One operation. A `cleanup` that asks comes with one reading for each peer. An overflow is put
out, and nothing else is done. -/
def step (c : LimitConnect κ) : LimitInput κ → Option (LimitConnect κ × List (LimitEvent κ))
  | .setPeriod sec => if pos : 0 < sec then some (c.setPeriod sec pos, []) else none
  | .addConnect name now memory =>
    match c.addConnect name now memory with
    | some c => some (c, [.added name now])
    | none => some (c, [.overflow])
  | .getTotal name now =>
    match c.getTotal name now with
    | some (total, c) => some (c, [.total name now total])
    | none => some (c, [.overflow])
  | .cleanup all nows =>
    match c.cleanup all nows with
    | .done c => some (c, [])
    | .misread => none
    | .overflow => some (c, [.overflow])

end LimitConnect

/-- One `LimitConnect` under any sequence of operations. -/
def limitConnect (κ : Type) [DecidableEq κ] :
    Machine (LimitConnect κ) (LimitInput κ) (LimitEvent κ) := ⟨LimitConnect.step⟩

end Yazpp
