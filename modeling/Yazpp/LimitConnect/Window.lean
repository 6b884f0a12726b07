import Mathlib.Algebra.BigOperators.Group.List.Basic
import Mathlib.Algebra.Ring.Int.Defs
import Yazpp.Lib.History
import Yazpp.LimitConnect.Model

/-!
# Counting connections in a sliding window

What a `TimeStat` knows is how much came in each of its last seconds (`Holds`): the buckets, newest
first, are those loads, and nothing came later than `sec`. `add_bytes` keeps that whatever the
gap (`holds_added`), its first call makes it out of any memory (`holds_first`), and the total is
the load of the window (`total_added`).

A `LimitConnect` drops a peer only when its window is empty, so a peer that is not there has had
no connection in it, and one that is made again starts with the truth (`Counts`). In every run,
`get_total` is the number of `add_connect` calls of that name in the last `period` seconds
(`window_count`).
-/

set_option autoImplicit false

namespace Yazpp

open Yazpp.Lib

/-! ## One `TimeStat` -/

namespace TimeStat

/-- The buckets are what `load` says of the last seconds, newest first, as an `int` holds it. -/
structure Holds (ts : TimeStat) (load : Int → Int) : Prop where
  window : ts.bucket.window =
    (List.range ts.bucket.size).map fun i : Nat => toInt32 (load (ts.sec - i))
  past : ∀ s, ts.sec < s → load s = 0

/-- `add_bytes`, with its narrowed difference worked out. -/
theorem added_eq {ts : TimeStat} {now : Int} (b : Int) (order : ts.sec ≤ now)
    (near : now - ts.sec < 0x80000000) : ts.added b now =
      { sec := now
        bucket := (ts.bucket.pushes 0 (min (now - ts.sec).toNat ts.bucket.size)).modify fun x =>
          toInt32 (x + b) } := by
  have narrow : toInt32 (now - ts.sec) = now - ts.sec := toInt32_eq (by omega) near
  have clear : (if (ts.bucket.size : Int) < now - ts.sec then (ts.bucket.size : Int)
      else now - ts.sec).toNat = min (now - ts.sec).toNat ts.bucket.size := by
    split <;> omega
  simp only [added, if_pos order, narrow, clear]

/-- A gap that fits in an `int` is counted down without an overflow. -/
theorem addBytes_some {ts : TimeStat} {now : Int} (b : Int) (near : now - ts.sec < 0x80000000) :
    ts.addBytes b now = some (ts.added b now) := by
  apply if_neg
  rintro ⟨order, overflow⟩
  rw [toInt32_eq (by omega) near] at overflow
  omega

theorem getTotal_some {ts : TimeStat} {now : Int} (near : now - ts.sec < 0x80000000) :
    ts.getTotal now = some ((ts.added 0 now).total, ts.added 0 now) := by
  rw [getTotal, addBytes_some 0 near]
  rfl

@[simp] theorem size_added (ts : TimeStat) (b now : Int) :
    (ts.added b now).bucket.size = ts.bucket.size := by
  unfold added
  split
  · rw [RingBuffer.size_modify, RingBuffer.size_pushes]
  · rfl

@[simp] theorem size_new (sz : Nat) (pos : 0 < sz) (memory : Nat → Int) :
    (new sz pos memory).bucket.size = sz := by
  simp only [new, RingBuffer.size, List.length_map, List.length_range]

/-- What is in the ring behind a gap: nothing in the seconds passed over, then what was there. -/
theorem window_gap {r : RingBuffer Int} {sec now : Int} {load : Int → Int} (order : sec ≤ now)
    (window : r.window = (List.range r.size).map fun i : Nat => toInt32 (load (sec - i)))
    (past : ∀ s, sec < s → load s = 0) :
    (r.pushes 0 (min (now - sec).toNat r.size)).window =
      (List.range r.size).map fun i : Nat => toInt32 (load (now - i)) := by
  rw [RingBuffer.window_pushes 0 _ r (Nat.min_le_right _ _), window]
  apply List.ext_getElem
  · simp only [List.length_append, List.length_replicate, List.length_take, List.length_map,
      List.length_range]
    omega
  · intro i hi _
    simp only [List.length_append, List.length_replicate, List.length_take, List.length_map,
      List.length_range] at hi
    rw [List.getElem_append]
    split
    · next hnew =>
      rw [List.length_replicate] at hnew
      have later : load (now - i) = 0 := past _ (by omega)
      simp only [List.getElem_replicate, List.getElem_map, List.getElem_range, later,
        toInt32_zero]
    · next hold =>
      rw [List.length_replicate] at hold
      have same : sec - ((i - min (now - sec).toNat r.size : Nat) : Int) = now - i := by omega
      simp only [List.getElem_take, List.getElem_map, List.getElem_range, List.length_replicate,
        same]

/-- The load of the newest second grows by `b`. -/
theorem window_add {size : Nat} (pos : 0 < size) (load : Int → Int) (now b : Int) :
    ((List.range size).map fun i : Nat => toInt32 (load (now - i))).modifyHead
        (fun x => toInt32 (x + b)) =
      (List.range size).map fun i : Nat =>
        toInt32 (load (now - i) + if now - (i : Int) = now then b else 0) := by
  obtain ⟨n, rfl⟩ := Nat.exists_eq_succ_of_ne_zero (Nat.ne_of_gt pos)
  rw [List.range_succ_eq_map, List.map_cons, List.map_cons, List.modifyHead_cons, List.map_map,
    List.map_map]
  refine congrArg₂ List.cons ?_ (List.map_congr_left fun i _ => ?_)
  · simp only [Int.natCast_zero, Int.sub_zero, if_true, toInt32_add]
  · have older : now - (Nat.succ i : Nat) ≠ now := by omega
    simp only [Function.comp_apply, if_neg older, Int.add_zero]

/-- **`add_bytes`** adds `b` to the load of the second `now`. -/
theorem holds_added {ts : TimeStat} {load : Int → Int} (holds : ts.Holds load) {now : Int}
    (b : Int) (order : ts.sec ≤ now) (near : now - ts.sec < 0x80000000) :
    (ts.added b now).Holds fun s => load s + if s = now then b else 0 := by
  rw [added_eq b order near]
  constructor
  · simp only [RingBuffer.size_modify, RingBuffer.size_pushes]
    rw [RingBuffer.window_modify, window_gap order holds.window holds.past]
    exact window_add ts.bucket.size_pos load now b
  · intro s hs
    change now < s at hs
    rw [holds.past s (Int.lt_of_le_of_lt order hs), if_neg (Int.ne_of_gt hs)]
    rfl

/-- The window says nothing of loads that are older than it. -/
theorem Holds.congr {ts : TimeStat} {load load' : Int → Int} (holds : ts.Holds load)
    (recent : ∀ s, ts.sec - ts.bucket.size < s → load s = load' s) : ts.Holds load' := by
  have hpos := ts.bucket.size_pos
  refine ⟨holds.window.trans (List.map_congr_left fun i hi => ?_), fun s hs => ?_⟩
  · have hi := List.mem_range.mp hi
    rw [recent _ (by omega)]
  · rw [← recent s (by omega)]
    exact holds.past s hs

/-- **The first call** clears every bucket, whatever was in the memory. -/
theorem holds_first {sz : Nat} (pos : 0 < sz) (memory : Nat → Int) (b : Int) {now : Int}
    (lower : sz ≤ now) (upper : now < 0x80000000) :
    ((new sz pos memory).added b now).Holds fun s => if s = now then b else 0 := by
  have size := size_new sz pos memory
  have all : min (now - (new sz pos memory).sec).toNat (new sz pos memory).bucket.size = sz := by
    rw [size]
    simp only [new]
    omega
  rw [added_eq b (by simp only [new]; omega) (by simp only [new]; omega), all]
  constructor
  · simp only [RingBuffer.size_modify, RingBuffer.size_pushes, size]
    have cleared : ((new sz pos memory).bucket.pushes 0 sz).window =
        (List.range sz).map fun i : Nat => toInt32 ((fun _ => 0) (now - i)) := by
      rw [RingBuffer.window_pushes 0 sz _ (Nat.le_of_eq size.symm), size, Nat.sub_self,
        List.take_zero, List.append_nil]
      show _ = (List.range sz).map fun _ => (0 : Int)
      rw [List.map_const', List.length_range]
    rw [RingBuffer.window_modify, cleared]
    refine (window_add pos (fun _ => 0) now b).trans (List.map_congr_left fun i _ => ?_)
    rw [Int.zero_add]
  · intro s hs
    exact if_neg (Int.ne_of_gt hs)

/-! ## The total -/

/-- A sum in an `int`. -/
theorem foldl_toInt32 (l : List Int) (a : Int) :
    l.foldl (fun bw x => toInt32 (bw + x)) (toInt32 a) = toInt32 (a + l.sum) := by
  induction l generalizing a with
  | nil => rw [List.foldl_nil, List.sum_nil, Int.add_zero]
  | cons x l ih => rw [List.foldl_cons, toInt32_add, ih, List.sum_cons, Int.add_assoc]

theorem sum_toInt32 (l : List Nat) (f : Nat → Int) :
    toInt32 ((l.map fun i => toInt32 (f i)).sum) = toInt32 ((l.map f).sum) := by
  induction l with
  | nil => rfl
  | cons i l ih =>
    rw [List.map_cons, List.map_cons, List.sum_cons, List.sum_cons, toInt32_add, ← add_toInt32, ih,
      add_toInt32]

/-- **`get_total`** is the load of the window. -/
theorem total_added {ts : TimeStat} {load : Int → Int} {now : Int}
    (holds : (ts.added 0 now).Holds load) (order : ts.sec ≤ now) :
    (ts.added 0 now).total =
      toInt32 ((List.range ts.bucket.size).map fun i : Nat => load (now - i)).sum := by
  have sec : (ts.added 0 now).sec = now := by rw [added, if_pos order]
  have sum : (ts.added 0 now).bucket.slots.sum = (ts.added 0 now).bucket.window.sum :=
    (RingBuffer.window_perm _).sum_eq.symm
  have total := foldl_toInt32 (ts.added 0 now).bucket.slots 0
  rw [toInt32_zero, Int.zero_add, sum, holds.window, sum_toInt32, size_added, sec] at total
  exact total

end TimeStat

/-! ## All the peers -/

variable {κ : Type} [DecidableEq κ]

/-- When a peer connected. -/
def LimitEvent.added? (name : κ) : LimitEvent κ → Option Int
  | .added name' now => if name' = name then some now else none
  | .total .. | .overflow => none

/-- The times of the connections of one peer. -/
def times (name : κ) (h : List (LimitEvent κ)) : List Int := h.filterMap (LimitEvent.added? name)

/-- How many of them are in the window of `period` seconds up to `t`. -/
def connections (period : Nat) (name : κ) (t : Int) (h : List (LimitEvent κ)) : Nat :=
  (times name h).countP fun s => t - period < s ∧ s ≤ t

theorem times_added (name : κ) (now : Int) (h : List (LimitEvent κ)) :
    times name (h ++ [.added name now]) = times name h ++ [now] := by
  simp only [times, List.filterMap_append, List.filterMap_cons, LimitEvent.added?, if_true,
    List.filterMap_nil]

theorem times_other {name name' : κ} (other : name' ≠ name) (now : Int)
    (h : List (LimitEvent κ)) : times name (h ++ [.added name' now]) = times name h := by
  simp only [times, List.filterMap_append, List.filterMap_cons, LimitEvent.added?, if_neg other,
    List.filterMap_nil, List.append_nil]

theorem times_total (name name' : κ) (now total : Int) (h : List (LimitEvent κ)) :
    times name (h ++ [.total name' now total]) = times name h := by
  simp only [times, List.filterMap_append, List.filterMap_cons, LimitEvent.added?,
    List.filterMap_nil, List.append_nil]

theorem count_times_snoc (times : List Int) (now s : Int) :
    ((times ++ [now]).count s : Int) = times.count s + if s = now then 1 else 0 := by
  rw [List.count_append, List.count_singleton, Int.natCast_add]
  by_cases hs : s = now
  · rw [if_pos hs, if_pos (beq_iff_eq.mpr hs.symm)]
    rfl
  · rw [if_neg hs, if_neg fun h => hs (beq_iff_eq.mp h).symm]
    rfl

/-- An operation that neither sets the period nor drops every peer. -/
def LimitInput.steady {κ : Type} : LimitInput κ → Bool
  | .setPeriod _ => false
  | .cleanup all _ => !all
  | _ => true

namespace LimitConnect

/-- What a peer knows of its connections, no later than `last`. -/
structure Knows (period : Nat) (last : Int) (times : List Int) (bw : TimeStat) : Prop where
  size : bw.bucket.size = period
  started : 0 ≤ bw.sec
  order : bw.sec ≤ last
  holds : bw.Holds fun s => (times.count s : Int)

/-- **The invariant**: a peer that is there knows its connections, one that is not has had none in
the window. -/
structure Counts (period : Nat) (last : Int) (c : LimitConnect κ) (h : List (LimitEvent κ)) :
    Prop where
  period_eq : c.period = period
  past : ∀ name, ∀ s ∈ times name h, s ≤ last
  here : ∀ p ∈ c.peers, Knows period last (times p.peername h) p.bw
  gone : ∀ name, name ∉ c.peers.map Peer.peername → ∀ s ∈ times name h, s ≤ last - period

omit [DecidableEq κ] in
theorem Knows.later {period : Nat} {last last' : Int} {times : List Int} {bw : TimeStat}
    (knows : Knows period last times bw) (order : last ≤ last') : Knows period last' times bw :=
  ⟨knows.size, knows.started, Int.le_trans knows.order order, knows.holds⟩

theorem Counts.later {period : Nat} {last last' : Int} {c : LimitConnect κ}
    {h : List (LimitEvent κ)} (counts : Counts period last c h) (order : last ≤ last') :
    Counts period last' c h where
  period_eq := counts.period_eq
  past name s hs := Int.le_trans (counts.past name s hs) order
  here p hp := (counts.here p hp).later order
  gone name hgone s hs := Int.le_trans (counts.gone name hgone s hs) (Int.sub_le_sub_right order _)

/-- A peer that is asked at `now` knows as much, and answers with its window. -/
theorem Knows.asked {period : Nat} {now : Int} {times : List Int} {bw : TimeStat}
    (knows : Knows period now times bw) (upper : now < 0x80000000) :
    bw.getTotal now = some ((bw.added 0 now).total, bw.added 0 now) ∧
      Knows period now times (bw.added 0 now) ∧ (bw.added 0 now).total =
        toInt32 (times.countP fun s => now - period < s ∧ s ≤ now : Nat) := by
  have near : now - bw.sec < 0x80000000 := by
    have := knows.started
    omega
  have holds : (bw.added 0 now).Holds fun s => (times.count s : Int) := by
    have same := bw.holds_added knows.holds 0 knows.order near
    simpa only [ite_self, Int.add_zero] using same
  have sec : (bw.added 0 now).sec = now := by rw [TimeStat.added, if_pos knows.order]
  refine ⟨TimeStat.getTotal_some near, ⟨?_, ?_, ?_, holds⟩, ?_⟩
  · exact (bw.size_added 0 now).trans knows.size
  · show 0 ≤ (bw.added 0 now).sec
    rw [sec]
    exact Int.le_trans knows.started knows.order
  · exact Int.le_of_eq sec
  · have cast : ∀ l : List Nat, (l.map fun i : Nat => (times.count (now - i) : Int)).sum =
        ((l.map fun i : Nat => times.count (now - i)).sum : Nat) := by
      intro l
      induction l with
      | nil => rfl
      | cons i l ih => simp only [List.map_cons, List.sum_cons, ih, Int.natCast_add]
    rw [TimeStat.total_added holds knows.order, knows.size, cast, sum_count_window]

/-- A peer that connects at `now` knows one connection more. -/
theorem Knows.added {period : Nat} {now : Int} {times : List Int} {bw : TimeStat}
    (knows : Knows period now times bw) (upper : now < 0x80000000) :
    bw.addBytes 1 now = some (bw.added 1 now) ∧
      Knows period now (times ++ [now]) (bw.added 1 now) := by
  have near : now - bw.sec < 0x80000000 := by
    have := knows.started
    omega
  have sec : (bw.added 1 now).sec = now := by rw [TimeStat.added, if_pos knows.order]
  refine ⟨TimeStat.addBytes_some 1 near, (bw.size_added 1 now).trans knows.size, ?_,
    Int.le_of_eq sec, ?_⟩
  · rw [sec]
    exact Int.le_trans knows.started knows.order
  · refine (bw.holds_added knows.holds 1 knows.order near).congr fun s _ => ?_
    exact (count_times_snoc times now s).symm

/-- A peer that is made at `now` knows its first connection in the window. -/
theorem knows_first {period : Nat} (pos : 0 < period) (memory : Nat → Int) {now : Int}
    {times : List Int} (lower : period ≤ now) (upper : now < 0x80000000)
    (gone : ∀ s ∈ times, s ≤ now - period) :
    (TimeStat.new period pos memory).addBytes 1 now =
        some ((TimeStat.new period pos memory).added 1 now) ∧
      Knows period now (times ++ [now]) ((TimeStat.new period pos memory).added 1 now) := by
  have sec : ((TimeStat.new period pos memory).added 1 now).sec = now :=
    congrArg TimeStat.sec (if_pos (Int.le_trans (Int.natCast_nonneg period) lower))
  have size : ((TimeStat.new period pos memory).added 1 now).bucket.size = period := by
    rw [TimeStat.size_added, TimeStat.size_new]
  have near : now - (TimeStat.new period pos memory).sec < 0x80000000 := by
    simp only [TimeStat.new, Int.sub_zero]
    exact upper
  refine ⟨TimeStat.addBytes_some 1 near, size, ?_, Int.le_of_eq sec, ?_⟩
  · rw [sec]
    exact Int.le_trans (Int.natCast_nonneg period) lower
  · refine (TimeStat.holds_first pos memory 1 lower upper).congr fun s hs => ?_
    rw [sec, size] at hs
    have none : times.count s = 0 :=
      List.count_eq_zero.mpr fun hmem => Int.not_lt.mpr (gone s hmem) hs
    show _ = ((times ++ [now]).count s : Int)
    rw [count_times_snoc, none]
    exact (Int.zero_add _).symm

/-! ## The operations -/

omit [DecidableEq κ] in
theorem mem_touch {name : κ} [DecidableEq κ] {f : TimeStat → TimeStat} {c : LimitConnect κ}
    {p : Peer κ} (h : p ∈ (c.touch name f).peers) : ∃ q ∈ c.peers, p.peername = q.peername ∧
      (q.peername = name ∧ p.bw = f q.bw ∨ q.peername ≠ name ∧ p.bw = q.bw) := by
  obtain ⟨q, hq, rfl⟩ := List.mem_map.mp h
  refine ⟨q, hq, ?_⟩
  split
  · next hname => exact ⟨rfl, .inl ⟨hname, rfl⟩⟩
  · next hname => exact ⟨rfl, .inr ⟨hname, rfl⟩⟩

omit [DecidableEq κ] in
theorem names_touch [DecidableEq κ] (name : κ) (f : TimeStat → TimeStat) (c : LimitConnect κ) :
    (c.touch name f).peers.map Peer.peername = c.peers.map Peer.peername := by
  simp only [touch, List.map_map]
  apply List.map_congr_left
  intro p _
  show (if p.peername = name then { p with bw := f p.bw } else p).peername = p.peername
  split <;> rfl

theorem lookup_none {name : κ} {c : LimitConnect κ} (h : c.lookup name = none) :
    name ∉ c.peers.map Peer.peername := by
  intro hmem
  obtain ⟨p, hp, hname⟩ := List.mem_map.mp hmem
  exact List.find?_eq_none.mp h p hp (decide_eq_true hname)

theorem lookup_some {name : κ} {c : LimitConnect κ} {p : Peer κ} (h : c.lookup name = some p) :
    p ∈ c.peers ∧ p.peername = name :=
  ⟨List.mem_of_find?_eq_some h, 
    of_decide_eq_true (List.find?_some (p := fun q : Peer κ => decide (q.peername = name)) h)⟩

theorem counts_addConnect {period : Nat} {now : Int} {c : LimitConnect κ}
    {h : List (LimitEvent κ)} (counts : Counts period now c h) (name : κ) (memory : Nat → Int)
    (lower : period ≤ now) (upper : now < 0x80000000) :
    ∃ c', c.addConnect name now memory = some c' ∧
      Counts period now c' (h ++ [.added name now]) := by
  have past : ∀ name', ∀ s ∈ times name' (h ++ [.added name now]), s ≤ now := by
    intro name' s hs
    by_cases hname : name = name'
    · subst hname
      rw [times_added] at hs
      rcases List.mem_append.mp hs with hs | hs
      · exact counts.past name s hs
      · exact Int.le_of_eq (List.mem_singleton.mp hs)
    · rw [times_other hname] at hs
      exact counts.past name' s hs
  cases found : c.lookup name with
  | some q =>
    obtain ⟨hq, hname⟩ := lookup_some found
    obtain ⟨adds, knows⟩ := (counts.here q hq).added upper
    rw [addConnect_some found, adds]
    refine ⟨_, rfl, counts.period_eq, past, fun p hp => ?_, fun name' hgone => ?_⟩
    · obtain ⟨q', hq', hname', ⟨same, hbw⟩ | ⟨other, hbw⟩⟩ := mem_touch hp
      · rw [hname', same, times_added, hbw, ← hname]
        exact knows
      · rw [hname', times_other (Ne.symm other), hbw]
        exact counts.here q' hq'
    · rw [names_touch] at hgone
      have hother : name ≠ name' := by
        rintro rfl
        exact hgone (hname ▸ List.mem_map_of_mem hq)
      rw [times_other hother]
      exact counts.gone name' hgone
  | none =>
    have first := counts.gone name (lookup_none found)
    obtain ⟨adds, knows⟩ :=
      knows_first c.pos memory (counts.period_eq ▸ lower) upper (counts.period_eq ▸ first)
    obtain ⟨c', hadd, hpeers, hperiod⟩ := addConnect_none found adds
    refine ⟨c', hadd, hperiod.trans counts.period_eq, past, fun p hp => ?_, fun name' hgone => ?_⟩
    · rw [hpeers] at hp
      rcases List.mem_append.mp hp with hp | hp
      · have hother : name ≠ p.peername := fun hname =>
          lookup_none found (hname ▸ List.mem_map_of_mem hp)
        rw [times_other hother]
        exact counts.here p hp
      · obtain rfl := List.mem_singleton.mp hp
        simp only [times_added]
        exact counts.period_eq ▸ knows
    · simp only [hpeers, List.map_append, List.map_singleton, List.mem_append,
        List.mem_singleton, not_or] at hgone
      rw [times_other (Ne.symm hgone.2)]
      exact counts.gone name' hgone.1

/-- What is not a connection is not counted. -/
theorem Counts.total {period : Nat} {last : Int} {c : LimitConnect κ} {h : List (LimitEvent κ)}
    (counts : Counts period last c h) (name : κ) (now total : Int) :
    Counts period last c (h ++ [.total name now total]) := by
  refine ⟨counts.period_eq, fun name' => ?_, fun p hp => ?_, fun name' => ?_⟩
  · rw [times_total]
    exact counts.past name'
  · rw [times_total]
    exact counts.here p hp
  · rw [times_total]
    exact counts.gone name'

/-- **`get_total`**, as an `int` holds it. -/
theorem counts_getTotal {period : Nat} {now : Int} {c : LimitConnect κ}
    {h : List (LimitEvent κ)} (counts : Counts period now c h) (name : κ)
    (upper : now < 0x80000000) :
    ∃ c', c.getTotal name now = some (toInt32 (connections period name now h : Nat), c') ∧
      Counts period now c' h := by
  unfold getTotal
  split
  · next found =>
    have none : connections period name now h = 0 := by
      refine List.countP_eq_zero.mpr fun s hs => ?_
      have := counts.gone name (lookup_none found) s hs
      simp only [decide_eq_true_eq]
      omega
    rw [none]
    exact ⟨c, rfl, counts⟩
  · next q found =>
    obtain ⟨hq, rfl⟩ := lookup_some found
    obtain ⟨answer, knows, total⟩ := (counts.here q hq).asked upper
    rw [answer, connections, ← total]
    refine ⟨_, rfl, counts.period_eq, counts.past, fun p hp => ?_, fun name' hgone => ?_⟩
    · obtain ⟨q', hq', hname', ⟨same, hbw⟩ | ⟨-, hbw⟩⟩ := mem_touch hp
      · rw [hname', same, hbw]
        exact knows
      · rw [hname', hbw]
        exact counts.here q' hq'
    · rw [names_touch] at hgone
      exact counts.gone name' hgone

omit [DecidableEq κ] in
/-- What a sweep keeps. -/
theorem mem_sweep {nows : List Int} {ps kept : List (Peer κ)} {p : Peer κ}
    (h : sweep nows ps = .done kept) (hp : p ∈ kept) :
    ∃ now ∈ nows, ∃ q ∈ ps, ∃ total, p.peername = q.peername ∧
      q.bw.getTotal now = some (total, p.bw) ∧ total ≠ 0 := by
  induction nows, ps using sweep.induct generalizing kept with
  | case1 now nows q ps overflow =>
    simp only [sweep, overflow] at h
    cases h
  | case2 now nows q ps total bw answer kept' later ih =>
    simp only [sweep, answer, later] at h
    cases h
    have rest : p ∈ kept' → ∃ now' ∈ now :: nows, ∃ q' ∈ q :: ps, ∃ total,
        p.peername = q'.peername ∧ q'.bw.getTotal now' = some (total, p.bw) ∧ total ≠ 0 := by
      intro hp
      obtain ⟨now', hnow, q', hq, found⟩ := ih later hp
      exact ⟨now', List.mem_cons_of_mem _ hnow, q', List.mem_cons_of_mem _ hq, found⟩
    split at hp
    · exact rest hp
    · next some =>
      rcases List.mem_cons.mp hp with rfl | hp
      · exact ⟨now, List.mem_cons_self, q, List.mem_cons_self, total, rfl, answer, some⟩
      · exact rest hp
  | case3 now nows q ps total bw answer failed ih =>
    simp only [sweep, answer] at h
    exact absurd h (failed kept)
  | case4 =>
    cases h
    cases hp
  | case5 nows ps more fewer =>
    rw [sweep] at h
    · cases h
    · exact more
    · exact fewer

omit [DecidableEq κ] in
/-- What it drops. -/
theorem not_mem_sweep {nows : List Int} {ps kept : List (Peer κ)} {name : κ}
    (h : sweep nows ps = .done kept) (there : name ∈ ps.map Peer.peername)
    (gone : name ∉ kept.map Peer.peername) :
    ∃ now ∈ nows, ∃ q ∈ ps, q.peername = name ∧ ∃ bw, q.bw.getTotal now = some (0, bw) := by
  induction nows, ps using sweep.induct generalizing kept with
  | case1 now nows q ps overflow =>
    simp only [sweep, overflow] at h
    cases h
  | case2 now nows q ps total bw answer kept' later ih =>
    simp only [sweep, answer, later] at h
    cases h
    have rest : name ∈ ps.map Peer.peername → name ∉ kept'.map Peer.peername →
        ∃ now' ∈ now :: nows, ∃ q' ∈ q :: ps, q'.peername = name ∧
          ∃ bw, q'.bw.getTotal now' = some (0, bw) := by
      intro there gone
      obtain ⟨now', hnow, q', hq, found⟩ := ih later there gone
      exact ⟨now', List.mem_cons_of_mem _ hnow, q', List.mem_cons_of_mem _ hq, found⟩
    split at gone
    · next zero =>
      rcases List.mem_cons.mp there with same | there
      · subst zero
        exact ⟨now, List.mem_cons_self, q, List.mem_cons_self, same.symm, bw, answer⟩
      · exact rest there gone
    · rw [List.map_cons, List.mem_cons, not_or] at gone
      exact rest ((List.mem_cons.mp there).resolve_left gone.1) gone.2
  | case3 now nows q ps total bw answer failed ih =>
    simp only [sweep, answer] at h
    exact absurd h (failed kept)
  | case4 => cases there
  | case5 nows ps more fewer =>
    rw [sweep] at h
    · cases h
    · exact more
    · exact fewer

omit [DecidableEq κ] in
/-- A sweep of peers that all answer does not overflow. -/
theorem sweep_clean {nows : List Int} {ps : List (Peer κ)}
    (answers : ∀ now ∈ nows, ∀ q ∈ ps, q.bw.getTotal now ≠ none) : sweep nows ps ≠ .overflow := by
  induction nows, ps using sweep.induct with
  | case1 now nows q ps overflow =>
    exact absurd overflow (answers now List.mem_cons_self q List.mem_cons_self)
  | case2 now nows q ps total bw answer kept later ih =>
    simp only [sweep, answer, later]
    rintro ⟨⟩
  | case3 now nows q ps total bw answer failed ih =>
    simp only [sweep, answer]
    exact ih fun now hnow q hq =>
      answers now (List.mem_cons_of_mem _ hnow) q (List.mem_cons_of_mem _ hq)
  | case4 => rintro ⟨⟩
  | case5 nows ps more fewer =>
    rw [sweep]
    · rintro ⟨⟩
    · exact more
    · exact fewer

theorem counts_cleanup {period : Nat} {last last' : Int} {c : LimitConnect κ}
    {h : List (LimitEvent κ)} (counts : Counts period last c h) {nows : List Int}
    (after : ∀ now ∈ nows, last ≤ now) (before : ∀ now ∈ nows, now ≤ last')
    (upper : ∀ now ∈ nows, now < 0x80000000) (order : last ≤ last')
    (fits : ∀ name t, connections period name t h < 0x80000000) :
    c.cleanup false nows ≠ .overflow ∧
      ∀ c', c.cleanup false nows = .done c' → Counts period last' c' h := by
  have asked : ∀ now ∈ nows, ∀ q ∈ c.peers,
      q.bw.getTotal now = some ((q.bw.added 0 now).total, q.bw.added 0 now) ∧
        Knows period now (times q.peername h) (q.bw.added 0 now) ∧
        (q.bw.added 0 now).total = connections period q.peername now h := by
    intro now hnow q hq
    obtain ⟨answer, knows, total⟩ :=
      ((counts.here q hq).later (after now hnow)).asked (upper now hnow)
    have small := fits q.peername now
    unfold connections at small ⊢
    rw [toInt32_eq (by omega) (by omega)] at total
    exact ⟨answer, knows, total⟩
  rcases cleanup_cases nows c with ⟨c', hc', hperiod, swept⟩ | ⟨hmis, -⟩ | ⟨-, overflow⟩
  · rw [hc']
    refine ⟨fun h => (nomatch h), fun c'' hc'' => ?_⟩
    cases hc''
    refine ⟨hperiod.trans counts.period_eq, (counts.later order).past, fun p hp => ?_,
      fun name hgone => ?_⟩
    · obtain ⟨now, hnow, q, hq, total, hname, answer, -⟩ := mem_sweep swept hp
      obtain ⟨answer', knows, -⟩ := asked now hnow q hq
      obtain ⟨-, hbw⟩ := Prod.mk.inj (Option.some.inj (answer.symm.trans answer'))
      rw [hname, hbw]
      exact knows.later (before now hnow)
    · by_cases there : name ∈ c.peers.map Peer.peername
      · obtain ⟨now, hnow, q, hq, rfl, bw, answer⟩ := not_mem_sweep swept there hgone
        obtain ⟨answer', -, total⟩ := asked now hnow q hq
        obtain ⟨zero, -⟩ := Prod.mk.inj (Option.some.inj (answer.symm.trans answer'))
        have none : connections period q.peername now h = 0 := by
          rw [← zero] at total
          exact Int.ofNat_eq_zero.mp total.symm
        intro s hs
        have old := List.countP_eq_zero.mp none s hs
        have past := counts.past _ s hs
        have := after now hnow
        have := before now hnow
        simp only [decide_eq_true_eq] at old
        omega
      · exact (counts.later order).gone name there
  · rw [hmis]
    exact ⟨fun h => (nomatch h), fun c' h => (nomatch h)⟩
  · refine absurd overflow (sweep_clean fun now hnow q hq => ?_)
    rw [(asked now hnow q hq).1]
    exact Option.some_ne_none _

/-! ## Every run -/

/-- The object when its period is set, before anyone has connected. -/
def Set (period : Nat) (c : LimitConnect κ) (h : List (LimitEvent κ)) : Prop :=
  c.period = period ∧ c.peers = [] ∧ h = []

omit [DecidableEq κ] in
theorem set_new {period : Nat} (pos : 0 < period) :
    Set period (new.setPeriod period pos : LimitConnect κ) [] :=
  ⟨rfl, rfl, rfl⟩

theorem counts_set {period : Nat} {c : LimitConnect κ} {h : List (LimitEvent κ)}
    (set : Set period c h) (last : Int) : Counts period last c h := by
  obtain ⟨rfl, hpeers, rfl⟩ := set
  refine ⟨rfl, fun name s hs => absurd hs List.not_mem_nil, fun p hp => ?_, fun name _ s hs =>
    absurd hs List.not_mem_nil⟩
  rw [hpeers] at hp
  cases hp

/-- What every `get_total` has answered. -/
def Told (period : Nat) (h : List (LimitEvent κ)) : Prop :=
  ∀ before after name t (total : Int), h = before ++ .total name t total :: after →
    total = connections period name t before

theorem told_snoc {period : Nat} {h : List (LimitEvent κ)} (told : Told period h)
    {e : LimitEvent κ}
    (last : ∀ name t (total : Int), e = .total name t total → total = connections period name t h) :
    Told period (h ++ [e]) := by
  have all := forall_split_snoc (P := fun before e => ∀ name t (total : Int),
    e = .total name t total → total = connections period name t before) |>.mpr ⟨?_, last⟩
  · intro before after name t total hsplit
    exact all before _ after hsplit name t total rfl
  · rintro before _ after hsplit name t total rfl
    exact told before after name t total hsplit

theorem connections_append (period : Nat) (name : κ) (t : Int) (h k : List (LimitEvent κ)) :
    connections period name t h ≤ connections period name t (h ++ k) := by
  simp only [connections, times, List.filterMap_append, List.countP_append]
  exact Nat.le_add_right _ _

theorem connections_le (period : Nat) (name : κ) (t : Int) (h : List (LimitEvent κ)) :
    connections period name t h ≤ h.length :=
  Nat.le_trans List.countP_le_length (List.length_filterMap_le _ h)

/-- **One operation** keeps the invariant, a `get_total` answers with the window, and nothing
overflows. -/
theorem counts_step {period : Nat} {last last' : Int} {c c' : LimitConnect κ}
    {h o : List (LimitEvent κ)} {i : LimitInput κ} (counts : Counts period last c h)
    (told : Told period h) (step : (limitConnect κ).step c i = some (c', o))
    (steady : i.steady = true) (after : ∀ r ∈ i.readings, last ≤ r)
    (before : ∀ r ∈ i.readings, r ≤ last') (order : last ≤ last')
    (range : ∀ r ∈ i.readings, period ≤ r ∧ r < 0x80000000)
    (fits : ∀ name t, connections period name t h < 0x80000000) :
    Counts period last' c' (h ++ o) ∧ Told period (h ++ o) ∧ .overflow ∉ o := by
  change c.step i = some (c', o) at step
  cases i with
  | setPeriod sec => cases steady
  | addConnect name now memory =>
    have now_mem : now ∈ [now] := List.mem_singleton_self now
    have counts' := counts.later (after now now_mem)
    obtain ⟨lower, upper⟩ := range now now_mem
    obtain ⟨c₁, hadd, counts₁⟩ := counts_addConnect counts' name memory lower upper
    simp only [LimitConnect.step, hadd] at step
    cases step
    exact ⟨counts₁.later (before now now_mem), told_snoc told (fun _ _ _ he => by cases he),
      by simp⟩
  | getTotal name now =>
    have now_mem : now ∈ [now] := List.mem_singleton_self now
    have counts' := counts.later (after now now_mem)
    obtain ⟨-, upper⟩ := range now now_mem
    obtain ⟨c₁, htotal, counts₁⟩ := counts_getTotal counts' name upper
    simp only [LimitConnect.step, htotal] at step
    cases step
    refine ⟨(counts₁.later (before now now_mem)).total _ _ _, told_snoc told ?_, by simp⟩
    intro name' t total he
    cases he
    have small := fits name now
    exact toInt32_eq (by omega) (by omega)
  | cleanup all nows =>
    cases all with
    | true => cases steady
    | false =>
      have upper := fun now hnow => (range now hnow).2
      obtain ⟨clean, counts₁⟩ := counts_cleanup counts after before upper order fits
      simp only [LimitConnect.step] at step
      split at step
      · next c₁ hclean =>
        cases step
        rw [List.append_nil]
        exact ⟨counts₁ _ hclean, told, List.not_mem_nil⟩
      · cases step
      · next overflow => exact absurd overflow clean

theorem counts_run {period : Nat} {is : List (LimitInput κ)} {c : LimitConnect κ}
    {h : List (LimitEvent κ)} (run : (limitConnect κ).Run (Set period) is c h)
    (steady : ∀ i ∈ is, i.steady = true)
    (order : (is.flatMap LimitInput.readings).Pairwise (· ≤ ·))
    (range : ∀ r ∈ is.flatMap LimitInput.readings, period ≤ r ∧ r < 0x80000000)
    (fits : ∀ name t, connections period name t h < 0x80000000) (last : Int)
    (past : ∀ r ∈ is.flatMap LimitInput.readings, r ≤ last) :
    Counts period last c h ∧ Told period h ∧ .overflow ∉ h := by
  induction run generalizing last with
  | start set =>
    refine ⟨counts_set set last, fun before after name t total hsplit => ?_, ?_⟩
    · obtain ⟨-, -, rfl⟩ := set
      cases before <;> cases hsplit
    · obtain ⟨-, -, rfl⟩ := set
      exact List.not_mem_nil
  | @step is c c' h o i run hstep ih =>
    rw [List.flatMap_append, List.flatMap_singleton] at order range past
    obtain ⟨order_is, order_i, across⟩ := List.pairwise_append.mp order
    -- the state before the step is known up to the first reading of the step
    let first := i.readings.headD last
    have first_le : ∀ r ∈ i.readings, first ≤ r := by
      cases hr : i.readings with
      | nil => exact fun r hr => absurd hr List.not_mem_nil
      | cons r rs =>
        rw [hr] at order_i
        simp only [first, hr, List.headD_cons]
        exact List.forall_mem_cons.mpr ⟨Int.le_refl r, (List.pairwise_cons.mp order_i).1⟩
    have first_last : first ≤ last := by
      cases hr : i.readings with
      | nil => simp only [first, hr, List.headD_nil, Int.le_refl]
      | cons r rs =>
        simp only [first, hr, List.headD_cons]
        exact past r (List.mem_append_right _ (hr ▸ List.mem_cons_self))
    have is_first : ∀ r ∈ is.flatMap LimitInput.readings, r ≤ first := by
      intro r hmem
      cases hr : i.readings with
      | nil =>
        simp only [first, hr, List.headD_nil]
        exact past r (List.mem_append_left _ hmem)
      | cons r' rs =>
        simp only [first, hr, List.headD_cons]
        exact across r hmem r' (hr ▸ List.mem_cons_self)
    obtain ⟨counts, told, clean⟩ := ih (fun j hj => steady j (List.mem_append_left _ hj)) order_is
      (fun r hr => range r (List.mem_append_left _ hr))
      (fun name t => Nat.lt_of_le_of_lt (connections_append period name t h o) (fits name t))
      first is_first
    obtain ⟨counts', told', clean'⟩ := counts_step counts told hstep
      (steady i (List.mem_append_right _ (List.mem_singleton_self i))) first_le
      (fun r hr => past r (List.mem_append_right _ hr)) first_last
      (fun r hr => range r (List.mem_append_right _ hr))
      fun name t => Nat.lt_of_le_of_lt (connections_append period name t h o) (fits name t)
    refine ⟨counts', told', fun hmem => ?_⟩
    exact (List.mem_append.mp hmem).elim clean clean'

/-- **The window is counted exactly**: every `get_total` of a run is the number of `add_connect`
calls of that name in the last `period` seconds before it, and no call overflows. -/
theorem window_count {period : Nat} {is : List (LimitInput κ)} {c : LimitConnect κ}
    {h : List (LimitEvent κ)} (run : (limitConnect κ).Run (Set period) is c h)
    (steady : ∀ i ∈ is, i.steady = true)
    (order : (is.flatMap LimitInput.readings).Pairwise (· ≤ ·))
    (range : ∀ r ∈ is.flatMap LimitInput.readings, period ≤ r ∧ r < 0x80000000)
    (fits : ∀ name t, connections period name t h < 0x80000000) :
    Told period h ∧ .overflow ∉ h :=
  (counts_run run steady order range fits 0x80000000
    fun r hr => Int.le_of_lt (range r hr).2).2

/-- Three connections of one peer and one of another, a sweep that drops the first, and the answers
in between. -/
def connecting : List (LimitInput Nat) :=
  [.addConnect 1 5 fun _ => 77, .addConnect 1 5 fun _ => 77, .getTotal 1 6, .getTotal 1 7,
    .addConnect 2 7 fun _ => 77, .cleanup false [7, 8], .addConnect 1 9 fun i => i, .getTotal 1 9,
    .getTotal 2 9]

theorem window_count_sweep : ∃ c h,
    (limitConnect Nat).Run (Set 2) connecting c h ∧ Told 2 h ∧
      .total 1 6 2 ∈ h ∧ .total 1 7 0 ∈ h ∧ .total 1 9 1 ∈ h ∧ .total 2 9 0 ∈ h := by
  have run : ∃ c h, (limitConnect Nat).Run (Set 2) connecting c h ∧
      h = [.added 1 5, .added 1 5, .total 1 6 2, .total 1 7 0, .added 2 7, .added 1 9,
        .total 1 9 1, .total 2 9 0] :=
    Machine.Run.of_exec (f := fun _ h => h) (set_new (by decide : 0 < 2)) (by decide +kernel)
  obtain ⟨c, h, run, rfl⟩ := run
  refine ⟨c, _, run, (window_count run (by decide) (by decide) (by decide) ?_).1, by decide⟩
  intro name t
  exact Nat.lt_of_le_of_lt (connections_le 2 name t _) (by decide)

end LimitConnect

end Yazpp
