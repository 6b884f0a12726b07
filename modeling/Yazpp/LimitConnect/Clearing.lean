import Yazpp.LimitConnect.Window

/-!
# How many buckets `add_bytes` clears

`add_bytes` should clear one bucket for each second since the last call, all of them after a long
gap. The difference is narrowed to an `int` before it is compared with the size, so a gap of 2^31
seconds or more clears too little, or nothing (`length_clears_iff`); one of 2^31 seconds, modulo
2^32, makes the loop's own counter overflow. The first call is such a gap
from 2038 on: its difference is the clock itself, and on it rests that no bucket holds what was in
the memory when the array was made. `clearing_iff` says of every sequence of calls when each of them
clears what it should, and that the memory is then never seen.
-/

set_option autoImplicit false

namespace Yazpp

open Yazpp.Lib

/-- A call of a `TimeStat`, with its reading of the clock. -/
inductive TimeStatInput
  | addBytes (b now : Int)
  | getTotal (now : Int)
deriving DecidableEq, Repr

/-- What is seen of a call: the reading before it, its own, and the buckets that were set to 0; and
the answer of `get_total`; or that it is undefined. -/
inductive TimeStatEvent
  | cleared (sec now : Int) (slots : List Nat)
  | total (total : Int)
  | overflow
deriving DecidableEq, Repr

namespace TimeStatInput

def now : TimeStatInput → Int
  | .addBytes _ now => now
  | .getTotal now => now

/-- What a call adds; `get_total` adds 0. -/
def bytes : TimeStatInput → Int
  | .addBytes b _ => b
  | .getTotal _ => 0

end TimeStatInput

namespace TimeStat

/-- The turns of the loop in `add_bytes`: the narrowed difference, but no more than the size. -/
def turns (now : Int) (ts : TimeStat) : Nat :=
  let d := toInt32 (now - ts.sec)
  (if (ts.bucket.size : Int) < d then (ts.bucket.size : Int) else d).toNat

/-- The buckets that `add_bytes` sets to 0, in order. -/
def clears (now : Int) (ts : TimeStat) : List Nat :=
  if ts.sec ≤ now then RingBuffer.places ts.bucket.size ts.bucket.ptr (ts.turns now) else []

/-- One call. An overflow is put out, and nothing else is done. -/
def step (ts : TimeStat) (i : TimeStatInput) : Option (TimeStat × List TimeStatEvent) :=
  match i with
  | .addBytes b now =>
    match ts.addBytes b now with
    | some added => some (added, [.cleared ts.sec now (ts.clears now)])
    | none => some (ts, [.overflow])
  | .getTotal now =>
    match ts.getTotal now with
    | some (total, added) =>
      some (added, [.cleared ts.sec now (ts.clears now), .total total])
    | none => some (ts, [.overflow])

end TimeStat

/-- One `TimeStat` under any sequence of calls. -/
def timeStat : Machine TimeStat TimeStatInput TimeStatEvent := ⟨TimeStat.step⟩

/-- A gap that the narrowed difference measures well enough for `size` buckets. -/
def Measured (size : Nat) (sec now : Int) : Prop :=
  min (now - sec) (size : Int) ≤ (now - sec) % 0x100000000 ∧ (now - sec) % 0x100000000 < 0x80000000

instance (size : Nat) (sec now : Int) : Decidable (Measured size sec now) :=
  inferInstanceAs (Decidable (_ ∧ _))

/-- **Clearing as it should be**: no call is undefined, and each clears as many buckets as seconds
have passed, no bucket twice and all of them at most; behind the first call the buckets hold its
bytes and nothing else; and what is seen does not depend on the memory that the array was made
of. -/
structure Clearing (sz : Nat) (pos : 0 < sz) (memory : Nat → Int) (is : List TimeStatInput) :
    Prop where
  defined : ∀ ts h, timeStat.exec (.new sz pos memory) is = some (ts, h) → .overflow ∉ h
  exact : ∀ ts h, timeStat.exec (.new sz pos memory) is = some (ts, h) →
    ∀ sec now slots, .cleared sec now slots ∈ h →
      slots.Nodup ∧ (slots.length : Int) = min (now - sec) (sz : Int)
  first : ∀ i rest, is = i :: rest → ∀ ts h, timeStat.exec (.new sz pos memory) [i] = some (ts, h) →
    ts.bucket.window = toInt32 i.bytes :: List.replicate (sz - 1) 0
  unseen : ∀ memory' ts h ts' h', timeStat.exec (.new sz pos memory) is = some (ts, h) →
    timeStat.exec (.new sz pos memory') is = some (ts', h') → h = h'

namespace TimeStat

/-! ## One call -/

theorem added_turns {ts : TimeStat} {now : Int} (b : Int) (order : ts.sec ≤ now) :
    ts.added b now =
      { sec := now
        bucket := (ts.bucket.pushes 0 (ts.turns now)).modify fun x => toInt32 (x + b) } :=
  if_pos order

@[simp] theorem sec_added (ts : TimeStat) (b now : Int) : (ts.added b now).sec = now := by
  unfold added
  split <;> rfl

/-- **What is cleared**: a bucket behind `add_bytes` holds 0 when it is one of those, and what it
held otherwise; the newest one has the bytes added. -/
theorem getElem?_added {ts : TimeStat} {now : Int} (b : Int) (order : ts.sec ≤ now) {i : Nat}
    (hi : i < ts.bucket.size) :
    (ts.added b now).bucket.slots[i]? =
      (if i ∈ ts.clears now then some 0 else ts.bucket.slots[i]?).map fun x =>
        if i = (ts.added b now).bucket.ptr then toInt32 (x + b) else x := by
  rw [added_turns b order, clears, if_pos order, ← RingBuffer.getElem?_pushes 0 _ _ hi]
  exact RingBuffer.getElem?_modify _ _ i

/-- How many buckets a call clears, with the narrowed difference by its residue. -/
theorem length_clears_iff {ts : TimeStat} {now : Int} (order : ts.sec ≤ now) :
    ((ts.clears now).Nodup ∧
        ((ts.clears now).length : Int) = min (now - ts.sec) (ts.bucket.size : Int)) ↔
      Measured ts.bucket.size ts.sec now := by
  have hpos := ts.bucket.size_pos
  have few : ts.turns now ≤ ts.bucket.size := by
    unfold turns
    dsimp only
    split <;> omega
  rw [clears, if_pos order, RingBuffer.length_places]
  simp only [RingBuffer.nodup_places _ few, true_and]
  have hcases := toInt32_cases (now - ts.sec)
  unfold turns Measured
  dsimp only
  split <;> omega

/-- A gap that is measured well enough does not overflow. -/
theorem not_overflows {size : Nat} {ts : TimeStat} {now : Int}
    (measured : Measured size ts.sec now) : ¬ ts.Overflows now := by
  rintro ⟨-, smallest⟩
  have hcases := toInt32_cases (now - ts.sec)
  unfold Measured at measured
  omega

/-! ## The first call -/

/-- A first gap that is measured well enough clears every bucket. -/
theorem turns_new {sz : Nat} (pos : 0 < sz) (memory : Nat → Int) {now : Int} (lower : sz ≤ now)
    (measured : Measured sz 0 now) : (new sz pos memory).turns now = sz := by
  have hcases := toInt32_cases (now - 0)
  have hsize := size_new sz pos memory
  unfold turns
  unfold Measured at measured
  rw [hsize, show (new sz pos memory).sec = 0 from rfl]
  dsimp only
  split <;> omega

/-- **The first call** of a gap that is measured well enough: nothing but its bytes is in the
buckets. -/
theorem window_first {sz : Nat} (pos : 0 < sz) (memory : Nat → Int) (b : Int) {now : Int}
    (lower : sz ≤ now) (measured : Measured sz 0 now) :
    ((new sz pos memory).added b now).bucket.window =
      toInt32 b :: List.replicate (sz - 1) 0 := by
  have order : (new sz pos memory).sec ≤ now :=
    Int.le_trans (Int.natCast_nonneg sz) lower
  have size := size_new sz pos memory
  have around : ((new sz pos memory).bucket.pushes 0 sz).window = List.replicate sz 0 := by
    rw [RingBuffer.window_pushes 0 sz _ (Nat.le_of_eq size.symm), size, Nat.sub_self,
      List.take_zero, List.append_nil]
  rw [added_turns b order, turns_new pos memory lower measured, RingBuffer.window_modify,
    around]
  obtain ⟨n, rfl⟩ := Nat.exists_eq_succ_of_ne_zero (Nat.ne_of_gt pos)
  rw [List.replicate_succ, List.modifyHead_cons, Int.zero_add, Nat.succ_sub_one]

/-- It leaves the same whatever the memory was. -/
theorem added_first {sz : Nat} (pos : 0 < sz) (memory memory' : Nat → Int) (b : Int) {now : Int}
    (lower : sz ≤ now) (measured : Measured sz 0 now) :
    (new sz pos memory).added b now = (new sz pos memory').added b now := by
  have order : (0 : Int) ≤ now := Int.le_trans (Int.natCast_nonneg sz) lower
  have size := size_new sz pos memory
  have size' := size_new sz pos memory'
  have around := RingBuffer.pushes_size_congr 0 (size.trans size'.symm) (Eq.refl 0)
  rw [size, size'] at around
  have turns := added_turns b (show (new sz pos memory).sec ≤ now from order)
  have turns' := added_turns b (show (new sz pos memory').sec ≤ now from order)
  rw [turns, turns', turns_new pos memory lower measured, turns_new pos memory' lower measured,
    around]

/-- And is seen to clear the same. -/
theorem clears_first {sz : Nat} (pos : 0 < sz) (memory memory' : Nat → Int) (now : Int) :
    (new sz pos memory).clears now = (new sz pos memory').clears now := by
  unfold clears turns
  rw [size_new, size_new]
  rfl

/-! ## Every sequence of calls -/

/-- What a call is seen to do: it clears, and answers when it was asked. -/
theorem step_some {ts : TimeStat} {i : TimeStatInput} (fits : ¬ ts.Overflows i.now) :
    ∃ told, (∀ e ∈ told, ∃ total, e = .total total) ∧
      ts.step i =
        some (ts.added i.bytes i.now, .cleared ts.sec i.now (ts.clears i.now) :: told) := by
  cases i with
  | addBytes b now =>
    have added : ts.addBytes b now = some (ts.added b now) := if_neg fits
    refine ⟨[], fun _ he => absurd he List.not_mem_nil, ?_⟩
    simp only [step, added, TimeStatInput.bytes, TimeStatInput.now]
  | getTotal now =>
    have added : ts.addBytes 0 now = some (ts.added 0 now) := if_neg fits
    refine ⟨[.total (ts.added 0 now).total], fun e he => ⟨_, List.mem_singleton.mp he⟩, ?_⟩
    simp only [step, getTotal, added, Option.map_some, TimeStatInput.bytes, TimeStatInput.now]

/-- Or the counter of its loop overflows. -/
theorem step_overflow {ts : TimeStat} {i : TimeStatInput} (overflows : ts.Overflows i.now) :
    ts.step i = some (ts, [.overflow]) := by
  cases i with
  | addBytes b now =>
    have none : ts.addBytes b now = none := if_pos overflows
    simp only [step, none]
  | getTotal now =>
    have none : ts.addBytes 0 now = none := if_pos overflows
    simp only [step, getTotal, none, Option.map_none]

/-- **Exactly when every call clears what it should**: by induction on the calls, each of which
leaves its reading for the next. -/
theorem cleared_iff {is : List TimeStatInput} {ts ts' : TimeStat} {h : List TimeStatEvent}
    (run : timeStat.exec ts is = some (ts', h))
    (order : (ts.sec :: is.map TimeStatInput.now).Pairwise (· ≤ ·)) :
    (.overflow ∉ h ∧ ∀ sec now slots, .cleared sec now slots ∈ h →
        slots.Nodup ∧ (slots.length : Int) = min (now - sec) (ts.bucket.size : Int)) ↔
      (ts.sec :: is.map TimeStatInput.now).IsChain (Measured ts.bucket.size) := by
  induction is generalizing ts h with
  | nil =>
    cases run
    exact iff_of_true ⟨List.not_mem_nil, fun _ _ _ hmem => absurd hmem List.not_mem_nil⟩
      (.singleton _)
  | cons i is ih =>
    obtain ⟨ts₁, o₁, o₂, step, rest, rfl⟩ := Machine.exec_cons.mp run
    rw [List.map_cons] at order ⊢
    obtain ⟨above, order⟩ := List.pairwise_cons.mp order
    by_cases overflows : ts.Overflows i.now
    · -- What comes behind the overflow does not matter: neither side holds.
      obtain ⟨rfl, rfl⟩ := Prod.mk.inj (Option.some.inj ((step_overflow overflows).symm.trans step))
      refine iff_of_false (fun clean => clean.1 List.mem_cons_self) fun chain => ?_
      exact not_overflows (List.isChain_cons_cons.mp chain).1 overflows
    obtain ⟨told, answers, hstep⟩ := step_some overflows
    obtain ⟨rfl, rfl⟩ := Prod.mk.inj (Option.some.inj (hstep.symm.trans step))
    have later := ih rest (by rwa [sec_added])
    rw [sec_added, size_added] at later
    have now := length_clears_iff (above i.now List.mem_cons_self)
    rw [List.isChain_cons_cons, ← later, ← now]
    constructor
    · rintro ⟨defined, all⟩
      refine ⟨all _ _ _ List.mem_cons_self, fun hmem => ?_, fun sec now slots hmem => ?_⟩
      · exact defined (List.mem_append_right _ hmem)
      · exact all sec now slots (List.mem_append_right _ hmem)
    · rintro ⟨first, defined, all⟩
      refine ⟨fun hmem => ?_, fun sec now slots hmem => ?_⟩
      · rcases List.mem_append.mp hmem with hmem | hmem
        · rcases List.mem_cons.mp hmem with hmem | hmem
          · cases hmem
          · obtain ⟨total, htotal⟩ := answers _ hmem
            cases htotal
        · exact defined hmem
      · rcases List.mem_append.mp hmem with hmem | hmem
        · rcases List.mem_cons.mp hmem with hmem | hmem
          · cases hmem
            exact first
          · obtain ⟨total, htotal⟩ := answers _ hmem
            cases htotal
        · exact all sec now slots hmem

/-- No call is refused. -/
theorem exec_some (ts : TimeStat) (is : List TimeStatInput) :
    ∃ ts' h, timeStat.exec ts is = some (ts', h) := by
  induction is generalizing ts with
  | nil => exact ⟨ts, [], rfl⟩
  | cons i is ih =>
    by_cases overflows : ts.Overflows i.now
    · obtain ⟨ts', h, rest⟩ := ih ts
      exact ⟨ts', _, Machine.exec_cons.mpr ⟨_, _, h, step_overflow overflows, rest, rfl⟩⟩
    · obtain ⟨told, -, hstep⟩ := step_some overflows
      obtain ⟨ts', h, rest⟩ := ih (ts.added i.bytes i.now)
      exact ⟨ts', _, Machine.exec_cons.mpr ⟨_, _, h, hstep, rest, rfl⟩⟩

/-- The first call is seen to be the same whatever the memory was, and leaves the same. -/
theorem step_first {sz : Nat} (pos : 0 < sz) (memory memory' : Nat → Int) (i : TimeStatInput)
    (lower : sz ≤ i.now) (measured : Measured sz 0 i.now) :
    (new sz pos memory).step i = (new sz pos memory').step i := by
  have sec : ∀ memory, (new sz pos memory).sec = 0 := fun _ => rfl
  have added : ∀ memory b, (new sz pos memory).addBytes b i.now =
      some ((new sz pos memory).added b i.now) := fun _ _ => if_neg (not_overflows measured)
  have same := fun b => added_first pos memory memory' b lower measured
  have clears := clears_first pos memory memory' i.now
  cases i with
  | addBytes b now =>
    simp only [TimeStatInput.now] at added same clears
    simp only [step, added, same, clears, sec]
  | getTotal now =>
    simp only [TimeStatInput.now] at added same clears
    simp only [step, getTotal, added, same, clears, sec, Option.map_some]

end TimeStat

/-- **The clearing is as it should be exactly when** every gap between two readings, and the first
reading itself, is measured well enough by its residue modulo 2^32. -/
theorem clearing_iff {sz : Nat} (pos : 0 < sz) (memory : Nat → Int) {is : List TimeStatInput}
    (lower : ∀ i ∈ is.head?, (sz : Int) ≤ i.now)
    (order : (is.map TimeStatInput.now).Pairwise (· ≤ ·)) :
    Clearing sz pos memory is ↔ (0 :: is.map TimeStatInput.now).IsChain (Measured sz) := by
  have order_zero : ((TimeStat.new sz pos memory).sec :: is.map TimeStatInput.now).Pairwise
      (· ≤ ·) := by
    refine List.pairwise_cons.mpr ⟨fun r hr => ?_, order⟩
    cases is with
    | nil => cases hr
    | cons i is =>
      have first := lower i rfl
      have pos' : (0 : Int) ≤ i.now := Int.le_trans (Int.natCast_nonneg sz) first
      rcases List.mem_cons.mp hr with rfl | hr
      · exact pos'
      · exact Int.le_trans pos' ((List.pairwise_cons.mp order).1 r hr)
  obtain ⟨ts, h, run⟩ := (TimeStat.new sz pos memory).exec_some is
  have exact_iff := TimeStat.cleared_iff run order_zero
  rw [TimeStat.size_new] at exact_iff
  constructor
  · intro clearing
    exact exact_iff.mp ⟨clearing.defined ts h run, clearing.exact ts h run⟩
  intro chain
  have measured : ∀ i rest, is = i :: rest → (sz : Int) ≤ i.now ∧ Measured sz 0 i.now := by
    rintro i rest rfl
    rw [List.map_cons, List.isChain_cons_cons] at chain
    exact ⟨lower i rfl, chain.1⟩
  constructor
  · intro ts' h' run'
    obtain ⟨rfl, rfl⟩ := Prod.mk.inj (Option.some.inj (run.symm.trans run'))
    exact (exact_iff.mpr chain).1
  · intro ts' h' run'
    obtain ⟨rfl, rfl⟩ := Prod.mk.inj (Option.some.inj (run.symm.trans run'))
    exact (exact_iff.mpr chain).2
  · intro i rest his ts' h' run'
    obtain ⟨ts₁, o₁, o₂, step, none, rfl⟩ := Machine.exec_cons.mp run'
    cases none
    obtain ⟨first, near⟩ := measured i rest his
    have fits : ¬ (TimeStat.new sz pos memory).Overflows i.now := TimeStat.not_overflows near
    obtain ⟨told, -, hstep⟩ := TimeStat.step_some fits
    obtain ⟨rfl, -⟩ := Prod.mk.inj (Option.some.inj (hstep.symm.trans step))
    exact TimeStat.window_first pos memory i.bytes first near
  · intro memory' ts₁ h₁ ts₂ h₂ run₁ run₂
    cases is with
    | nil =>
      cases run₁
      cases run₂
      rfl
    | cons i rest =>
      obtain ⟨first, near⟩ := measured i rest rfl
      have same : timeStat.step (.new sz pos memory) i = timeStat.step (.new sz pos memory') i :=
        TimeStat.step_first pos memory memory' i first near
      obtain ⟨t₁, o₁, p₁, step₁, rest₁, rfl⟩ := Machine.exec_cons.mp run₁
      obtain ⟨t₂, o₂, p₂, step₂, rest₂, rfl⟩ := Machine.exec_cons.mp run₂
      obtain ⟨rfl, rfl⟩ :=
        Prod.mk.inj (Option.some.inj (step₁.symm.trans (same.trans step₂)))
      obtain ⟨-, rfl⟩ := Prod.mk.inj (Option.some.inj (rest₁.symm.trans rest₂))
      rfl

/-- A gap that is a little longer than the size, behind a first call in 2025. -/
theorem clearing_iff_gap : Clearing 2 (by decide) (fun _ => 77)
    [.addBytes 1 1735689600, .getTotal 1735689605] :=
  (clearing_iff (by decide) _ (by decide) (by decide)).mpr (by decide)

/-- A first call in the second behind the one in which an `int` of seconds ends: nothing is cleared,
and the total is what was in the memory. -/
theorem not_clearing : ¬ Clearing 2 (by decide) (fun _ => 77) [.getTotal 2147483649] := by
  intro clearing
  have run : timeStat.exec (.new 2 (by decide) fun _ => 77) [.getTotal 2147483649] =
      some (_, [.cleared 0 2147483649 [], .total 154]) := rfl
  obtain ⟨-, few⟩ := clearing.exact _ _ run 0 2147483649 [] List.mem_cons_self
  revert few
  decide

/-- In that second itself the loop counts down from the smallest `int`. -/
example : (timeStat.exec (.new 2 (by decide) fun _ => 77) [.getTotal 2147483648]).map Prod.snd =
    some [.overflow] := by
  decide +kernel

end Yazpp
