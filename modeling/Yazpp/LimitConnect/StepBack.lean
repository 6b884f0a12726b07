import Mathlib.Algebra.Order.BigOperators.Group.List
import Mathlib.Algebra.Order.Ring.Int
import Yazpp.LimitConnect.Clearing

/-!
# Counting connections under a clock that is set back

A reading behind the last one of a peer counts nothing: `add_bytes` takes it over as its own, and
leaves the buckets as they are. From then on the buckets stand for other seconds than those in which
their connections came, but they never hold more connections than there were (`Tally`), whatever the
clock does, as long as no gap is narrowed and no bucket overflows.

So in every run a total is between 0 and the number of `add_connect` calls of that name, and a call
is seen in the total right behind it exactly when its reading is not behind that of its peer, or the
buckets hold an older connection (`attempts_counted`).
-/

set_option autoImplicit false

namespace Yazpp

open Yazpp.Lib

/-- The buckets of a ring hold no more than `n`. -/
structure Tally (n : Nat) (r : RingBuffer Int) : Prop where
  nonneg : ∀ x ∈ r.window, 0 ≤ x
  sum_le : r.window.sum ≤ n

namespace Tally

theorem mono {n m : Nat} {r : RingBuffer Int} (tally : Tally n r) (le : n ≤ m) : Tally m r :=
  ⟨tally.nonneg, Int.le_trans tally.sum_le (Int.ofNat_le.mpr le)⟩

theorem sum_nonneg {n : Nat} {r : RingBuffer Int} (tally : Tally n r) : 0 ≤ r.window.sum :=
  List.sum_nonneg tally.nonneg

/-- A bucket that is cleared holds no more than before. -/
theorem push_zero {n : Nat} {r : RingBuffer Int} (tally : Tally n r) : Tally n (r.push 0) := by
  have some : r.window ≠ [] := by
    rw [← List.length_pos_iff, RingBuffer.length_window]
    exact r.size_pos
  have oldest : 0 ≤ r.window.getLast some := tally.nonneg _ (List.getLast_mem some)
  have sum : r.window.dropLast.sum + r.window.getLast some = r.window.sum := by
    have split := congrArg List.sum (List.dropLast_concat_getLast some)
    rwa [List.sum_append, List.sum_singleton] at split
  constructor
  · rw [RingBuffer.window_push]
    intro x hx
    rcases List.mem_cons.mp hx with rfl | hx
    · exact Int.le_refl 0
    · exact tally.nonneg x (List.dropLast_subset _ hx)
  · have le := tally.sum_le
    rw [RingBuffer.window_push, List.sum_cons]
    omega

theorem pushes_zero {n : Nat} {r : RingBuffer Int} (tally : Tally n r) (k : Nat) :
    Tally n (r.pushes 0 k) :=
  RingBuffer.pushes_invariant (P := Tally n) (fun _ => push_zero) k tally

/-- What is added to the newest bucket is added to the sum. -/
theorem sum_modify {n b : Nat} {r : RingBuffer Int} (tally : Tally n r)
    (fits : n + b < 0x80000000) :
    Tally (n + b) (r.modify fun x => toInt32 (x + b)) ∧
      (r.modify fun x => toInt32 (x + b)).window.sum = r.window.sum + b := by
  have nonneg := tally.nonneg
  have le := tally.sum_le
  have pos : 0 < r.window.length := by
    rw [RingBuffer.length_window]
    exact r.size_pos
  have window := RingBuffer.window_modify (fun x => toInt32 (x + b)) r
  cases hw : r.window with
  | nil =>
    rw [hw] at pos
    cases pos
  | cons x rest =>
    rw [hw, List.modifyHead_cons] at window
    rw [hw, List.sum_cons] at le
    rw [hw] at nonneg
    have newest : 0 ≤ x := nonneg x List.mem_cons_self
    have older : 0 ≤ rest.sum := List.sum_nonneg fun y hy => nonneg y (List.mem_cons_of_mem _ hy)
    rw [toInt32_eq (by omega) (by omega)] at window
    have sum : (r.modify fun x => toInt32 (x + b)).window.sum = x + rest.sum + b := by
      rw [window, List.sum_cons]
      omega
    refine ⟨⟨fun y hy => ?_, ?_⟩, sum⟩
    · rw [window] at hy
      rcases List.mem_cons.mp hy with rfl | hy
      · omega
      · exact nonneg y (List.mem_cons_of_mem _ hy)
    · rw [sum]
      omega

end Tally

/-! ## One `TimeStat` -/

namespace TimeStat

/-- A `TimeStat` that holds no more than `n`, with a reading that no difference to another one
leaves the range of an `int`. -/
structure Tallied (n : Nat) (ts : TimeStat) : Prop where
  started : 0 ≤ ts.sec
  tally : Tally n ts.bucket

theorem Tallied.mono {n m : Nat} {ts : TimeStat} (tallied : ts.Tallied n) (le : n ≤ m) :
    ts.Tallied m :=
  ⟨tallied.started, tallied.tally.mono le⟩

/-- The buckets when a gap has been cleared. -/
def behindGap (now : Int) (ts : TimeStat) : RingBuffer Int :=
  ts.bucket.pushes 0 (min (now - ts.sec).toNat ts.bucket.size)

theorem added_behind {ts : TimeStat} {now : Int} (b : Int) (back : ¬ ts.sec ≤ now) :
    ts.added b now = { ts with sec := now } :=
  if_neg back

theorem Tallied.near {n : Nat} {ts : TimeStat} (tallied : ts.Tallied n) {now : Int}
    (upper : now < 0x80000000) : now - ts.sec < 0x80000000 := by
  have := tallied.started
  omega

/-- **`add_bytes`**, whatever the clock did: what it adds is in the buckets when its reading is not
behind the last one, and otherwise they are as they were. -/
theorem Tallied.added {n b : Nat} {ts : TimeStat} (tallied : ts.Tallied n) {now : Int}
    (lower : 0 ≤ now) (upper : now < 0x80000000) (fits : n + b < 0x80000000) :
    (ts.added b now).Tallied (n + b) ∧ (ts.added b now).bucket.window.sum =
      if ts.sec ≤ now then (ts.behindGap now).window.sum + b else ts.bucket.window.sum := by
  by_cases order : ts.sec ≤ now
  · have gap : Tally n (ts.behindGap now) := tallied.tally.pushes_zero _
    obtain ⟨more, sum⟩ := gap.sum_modify fits
    rw [if_pos order, added_eq b order (tallied.near upper)]
    exact ⟨⟨lower, more⟩, sum⟩
  · rw [if_neg order, added_behind b order]
    exact ⟨⟨lower, tallied.tally.mono (Nat.le_add_right n b)⟩, rfl⟩

/-- The first call, of a reading that clears every bucket. -/
theorem tallied_first {sz : Nat} (pos : 0 < sz) (memory : Nat → Int) {now : Int} (lower : sz ≤ now)
    (upper : now < 0x80000000) :
    (new sz pos memory).addBytes 1 now = some ((new sz pos memory).added 1 now) ∧
      ((new sz pos memory).added 1 now).Tallied 1 ∧
      ((new sz pos memory).added 1 now).bucket.window.sum = 1 := by
  have start : (0 : Int) ≤ now := Int.le_trans (Int.natCast_nonneg sz) lower
  have measured : Measured sz 0 now := by
    unfold Measured
    omega
  have window := window_first pos memory 1 lower measured
  have sum : ((new sz pos memory).added 1 now).bucket.window.sum = 1 := by
    rw [window, List.sum_cons, List.sum_replicate]
    rfl
  refine ⟨if_neg (not_overflows measured), ⟨?_, ⟨fun x hx => ?_, Int.le_of_eq sum⟩⟩, sum⟩
  · rwa [sec_added]
  · rw [window] at hx
    rcases List.mem_cons.mp hx with rfl | hx
    · decide
    · exact Int.le_of_eq (List.eq_of_mem_replicate hx).symm

/-- **`get_total`** is what is in the buckets. -/
theorem Tallied.total {n : Nat} {ts : TimeStat} (tallied : ts.Tallied n) {now : Int}
    (lower : 0 ≤ now) (upper : now < 0x80000000) (fits : n < 0x80000000) :
    (ts.added 0 now).Tallied n ∧ (ts.added 0 now).total = (ts.added 0 now).bucket.window.sum ∧
      0 ≤ (ts.added 0 now).total ∧ (ts.added 0 now).total ≤ n := by
  have same : (ts.added 0 now).Tallied n := (tallied.added (b := 0) lower upper fits).1
  have total : (ts.added 0 now).total = toInt32 (ts.added 0 now).bucket.slots.sum := by
    have folded := foldl_toInt32 (ts.added 0 now).bucket.slots 0
    rwa [toInt32_zero, Int.zero_add] at folded
  have nonneg := same.tally.sum_nonneg
  have le := same.tally.sum_le
  rw [← (RingBuffer.window_perm _).sum_eq, toInt32_eq (by omega) (by omega)] at total
  rw [total]
  exact ⟨same, rfl, nonneg, le⟩

/-- Asked with the reading of the call before it, it clears nothing. -/
theorem Tallied.total_same {n : Nat} {ts : TimeStat} (tallied : ts.Tallied n)
    (upper : ts.sec < 0x80000000) (fits : n < 0x80000000) :
    (ts.added 0 ts.sec).total = ts.bucket.window.sum := by
  have gap : ts.behindGap ts.sec = ts.bucket := by
    rw [behindGap, Int.sub_self]
    rfl
  have sum := (tallied.added (b := 0) tallied.started upper fits).2
  rw [if_pos (Int.le_refl ts.sec), gap, Int.natCast_zero, Int.add_zero] at sum
  exact (tallied.total tallied.started upper fits).2.1.trans sum

theorem Tallied.getTotal_added {n : Nat} {ts : TimeStat} {b now : Int}
    (tallied : (ts.added b now).Tallied n) (upper : now < 0x80000000) (fits : n < 0x80000000) :
    ∃ bw, (ts.added b now).getTotal now = some ((ts.added b now).bucket.window.sum, bw) := by
  have same := tallied.total_same (by rwa [sec_added]) fits
  rw [sec_added] at same
  rw [getTotal_some (tallied.near upper), same]
  exact ⟨_, rfl⟩

end TimeStat

/-! ## All the peers -/

/-- The periods in an operation. -/
def LimitInput.periods {κ : Type} : LimitInput κ → List Nat
  | .setPeriod sec => [sec]
  | _ => []

variable {κ : Type} [DecidableEq κ]

namespace LimitConnect

/-- **The invariant**: no peer holds more connections than there were. -/
structure Within (longest : Nat) (c : LimitConnect κ) (h : List (LimitEvent κ)) : Prop where
  period_le : c.period ≤ longest
  here : ∀ p ∈ c.peers, p.bw.Tallied (times p.peername h).length

/-- Every total is a number of connections there have been. -/
def Bounded (h : List (LimitEvent κ)) : Prop :=
  ∀ before e after, h = before ++ e :: after → ∀ name t (total : Int), e = .total name t total →
    0 ≤ total ∧ total ≤ (times name before).length

omit [DecidableEq κ] in
theorem lookup_touch [DecidableEq κ] (c : LimitConnect κ) (name : κ) (f : TimeStat → TimeStat) :
    (c.touch name f).lookup name = (c.lookup name).map fun p => { p with bw := f p.bw } := by
  show (c.peers.map _).find? _ = (c.peers.find? _).map _
  induction c.peers with
  | nil => rfl
  | cons p ps ih =>
    rw [List.map_cons]
    by_cases key : p.peername = name
    · simp only [List.find?_cons, key, if_true, decide_true, Option.map_some]
    · simp only [List.find?_cons, key, if_false, decide_false]
      exact ih

/-- A peer that is there behind its `add_connect`. -/
theorem lookup_addConnect_some {c c' : LimitConnect κ} {name : κ} {p : Peer κ} {bw : TimeStat}
    {now : Int} {memory : Nat → Int} (found : c.lookup name = some p)
    (added : p.bw.addBytes 1 now = some bw) (done : c.addConnect name now memory = some c') :
    c'.lookup name = some { p with bw := bw } := by
  rw [addConnect_some found, added] at done
  obtain rfl := Option.some.inj done
  rw [lookup_touch, found]
  rfl

/-- A peer that is made by its `add_connect`. -/
theorem lookup_addConnect_none {c c' : LimitConnect κ} {name : κ} {bw : TimeStat} {now : Int}
    {memory : Nat → Int} (none : c.lookup name = none)
    (added : (TimeStat.new c.period c.pos memory).addBytes 1 now = some bw)
    (done : c.addConnect name now memory = some c') :
    c'.lookup name = some { peername := name, bw := bw } := by
  obtain ⟨c₁, hadd, hpeers, -⟩ := addConnect_none none added
  obtain rfl := Option.some.inj (hadd.symm.trans done)
  have old : c.peers.find? (fun p => p.peername = name) = Option.none := none
  unfold lookup
  simp only [hpeers, List.find?_append, old, Option.none_or, List.find?_cons, decide_true]

/-- The answer of `get_total` is that of its peer. -/
theorem getTotal_eq {c c' : LimitConnect κ} {name : κ} {p : Peer κ} {now total told : Int}
    {bw : TimeStat} (found : c.lookup name = some p) (answer : p.bw.getTotal now = some (total, bw))
    (asked : c.getTotal name now = some (told, c')) : told = total := by
  simp only [getTotal, found, answer, Option.map_some] at asked
  exact (Prod.mk.inj (Option.some.inj asked)).1.symm

/-! ## The operations -/

theorem within_addConnect {longest : Nat} {c : LimitConnect κ} {h : List (LimitEvent κ)}
    (within : Within longest c h) (name : κ) (memory : Nat → Int) {now : Int}
    (lower : longest ≤ now) (upper : now < 0x80000000) :
    ∃ c', c.addConnect name now memory = some c' ∧
      ((times name h).length + 1 < 0x80000000 → Within longest c' (h ++ [.added name now])) := by
  have start : 0 ≤ now := Int.le_trans (Int.natCast_nonneg longest) lower
  have more : (times name (h ++ [.added name now])).length = (times name h).length + 1 := by
    rw [times_added, List.length_append, List.length_singleton]
  cases found : c.lookup name with
  | some q =>
    obtain ⟨hq, rfl⟩ := lookup_some found
    have tallied := within.here q hq
    have adds := TimeStat.addBytes_some 1 (tallied.near upper)
    rw [addConnect_some found, adds]
    refine ⟨_, rfl, fun fits => ⟨within.period_le, fun p hp => ?_⟩⟩
    obtain ⟨q', hq', hname, ⟨same, hbw⟩ | ⟨other, hbw⟩⟩ := mem_touch hp
    · rw [hname, same, more, hbw]
      exact (tallied.added (b := 1) start upper fits).1
    · rw [hname, times_other (Ne.symm other), hbw]
      exact within.here q' hq'
  | none =>
    have first := Int.le_trans (Int.ofNat_le.mpr within.period_le) lower
    obtain ⟨adds, tallied, -⟩ := TimeStat.tallied_first c.pos memory first upper
    obtain ⟨c', hadd, hpeers, hperiod⟩ := addConnect_none found adds
    refine ⟨c', hadd, fun _ => ⟨hperiod.trans_le within.period_le, fun p hp => ?_⟩⟩
    rw [hpeers] at hp
    rcases List.mem_append.mp hp with hp | hp
    · have other : name ≠ p.peername := fun hname =>
        lookup_none found (hname ▸ List.mem_map_of_mem hp)
      rw [times_other other]
      exact within.here p hp
    · obtain rfl := List.mem_singleton.mp hp
      rw [more]
      exact tallied.mono (Nat.le_add_left 1 _)

theorem within_getTotal {longest : Nat} {c : LimitConnect κ} {h : List (LimitEvent κ)}
    (within : Within longest c h) (name : κ) {now : Int} (lower : 0 ≤ now)
    (upper : now < 0x80000000) (fits : ∀ name, (times name h).length < 0x80000000) :
    ∃ total c', c.getTotal name now = some (total, c') ∧ Within longest c' h ∧ 0 ≤ total ∧
      total ≤ (times name h).length := by
  unfold getTotal
  split
  · exact ⟨0, c, rfl, within, Int.le_refl 0, Int.natCast_nonneg _⟩
  · next p found =>
    obtain ⟨hp, rfl⟩ := lookup_some found
    obtain ⟨same, -, nonneg, le⟩ := (within.here p hp).total lower upper (fits p.peername)
    rw [TimeStat.getTotal_some ((within.here p hp).near upper)]
    refine ⟨_, _, rfl, ⟨within.period_le, fun q hq => ?_⟩, nonneg, le⟩
    obtain ⟨q', hq', hname, ⟨here, hbw⟩ | ⟨-, hbw⟩⟩ := mem_touch hq
    · rw [hname, here, hbw]
      exact same
    · rw [hname, hbw]
      exact within.here q' hq'

theorem within_cleanup {longest : Nat} {c : LimitConnect κ} {h : List (LimitEvent κ)}
    (within : Within longest c h) (all : Bool) {nows : List Int}
    (range : all = false → ∀ now ∈ nows, 0 ≤ now ∧ now < 0x80000000)
    (fits : ∀ name, (times name h).length < 0x80000000) :
    c.cleanup all nows ≠ .overflow ∧
      ∀ c', c.cleanup all nows = .done c' → Within longest c' h := by
  cases all with
  | true =>
    refine ⟨(fun overflow => nomatch overflow), fun c' cleaned => ?_⟩
    cases cleaned
    exact ⟨within.period_le, fun p hp => by cases hp⟩
  | false =>
    have answers : ∀ now ∈ nows, ∀ q ∈ c.peers,
        q.bw.getTotal now = some ((q.bw.added 0 now).total, q.bw.added 0 now) :=
      fun now hnow q hq => TimeStat.getTotal_some ((within.here q hq).near (range rfl now hnow).2)
    have clean : sweep nows c.peers ≠ .overflow := sweep_clean fun now hnow q hq none => by
      cases (answers now hnow q hq).symm.trans none
    rcases c.cleanup_cases nows with ⟨c₁, hc, hperiod, hsweep⟩ | ⟨hc, -⟩ | ⟨-, overflow⟩
    · refine ⟨(fun overflow => nomatch hc.symm.trans overflow), fun c' cleaned => ?_⟩
      cases hc.symm.trans cleaned
      refine ⟨hperiod.trans_le within.period_le, fun p hp => ?_⟩
      obtain ⟨now, hnow, q, hq, total, hname, answer, -⟩ := mem_sweep hsweep hp
      obtain ⟨lower, upper⟩ := range rfl now hnow
      obtain ⟨-, hbw⟩ := Prod.mk.inj (Option.some.inj ((answers now hnow q hq).symm.trans answer))
      rw [hname, ← hbw]
      exact ((within.here q hq).total lower upper (fits q.peername)).1
    · refine ⟨(fun overflow => nomatch hc.symm.trans overflow), fun c' cleaned => ?_⟩
      cases hc.symm.trans cleaned
    · exact absurd overflow clean

/-! ## Every run -/

theorem bounded_snoc {h : List (LimitEvent κ)} (bounded : Bounded h) {e : LimitEvent κ}
    (last : ∀ name t (total : Int), e = .total name t total →
      0 ≤ total ∧ total ≤ (times name h).length) : Bounded (h ++ [e]) :=
  forall_split_snoc.mpr ⟨bounded, last⟩

/-- There are no fewer connections later. -/
theorem times_length_le (name : κ) (h k : List (LimitEvent κ)) :
    (times name h).length ≤ (times name (h ++ k)).length := by
  rw [times, times, List.filterMap_append, List.length_append]
  exact Nat.le_add_right _ _

/-- **One operation** keeps the invariant, a `get_total` answers with a number of connections there
have been, and nothing overflows. -/
theorem within_step {longest : Nat} {c c' : LimitConnect κ} {h o : List (LimitEvent κ)}
    {i : LimitInput κ} (within : Within longest c h) (bounded : Bounded h)
    (step : (limitConnect κ).step c i = some (c', o)) (periods : ∀ sec ∈ i.periods, sec ≤ longest)
    (range : ∀ r ∈ i.readings, longest ≤ r ∧ r < 0x80000000)
    (fits : ∀ name, (times name (h ++ o)).length < 0x80000000) :
    Within longest c' (h ++ o) ∧ Bounded (h ++ o) ∧ .overflow ∉ o := by
  change c.step i = some (c', o) at step
  have fits_before : ∀ name, (times name h).length < 0x80000000 := fun name =>
    Nat.lt_of_le_of_lt (times_length_le name h o) (fits name)
  have start : (0 : Int) ≤ longest := Int.natCast_nonneg longest
  cases i with
  | setPeriod sec =>
    simp only [LimitConnect.step] at step
    split at step
    · cases step
      rw [List.append_nil]
      exact ⟨⟨periods sec (List.mem_singleton_self sec), within.here⟩, bounded, List.not_mem_nil⟩
    · cases step
  | addConnect name now memory =>
    obtain ⟨lower, upper⟩ := range now (List.mem_singleton_self now)
    obtain ⟨c₁, hadd, within'⟩ := within_addConnect within name memory lower upper
    simp only [LimitConnect.step, hadd] at step
    cases step
    have room := fits name
    rw [times_added, List.length_append, List.length_singleton] at room
    exact ⟨within' room, bounded_snoc bounded (fun _ _ _ he => by cases he), by simp⟩
  | getTotal name now =>
    obtain ⟨lower, upper⟩ := range now (List.mem_singleton_self now)
    obtain ⟨total, c₁, htotal, same, nonneg, le⟩ :=
      within_getTotal within name (Int.le_trans start lower) upper fits_before
    simp only [LimitConnect.step, htotal] at step
    cases step
    refine ⟨⟨same.period_le, fun p hp => ?_⟩, bounded_snoc bounded ?_, by simp⟩
    · rw [times_total]
      exact same.here p hp
    · intro name' t total he
      cases he
      exact ⟨nonneg, le⟩
  | cleanup all nows =>
    have readings : all = false → ∀ now ∈ nows, 0 ≤ now ∧ now < 0x80000000 := by
      rintro rfl now hnow
      obtain ⟨lower, upper⟩ := range now hnow
      exact ⟨Int.le_trans start lower, upper⟩
    obtain ⟨clean, keeps⟩ := within_cleanup within all readings fits_before
    simp only [LimitConnect.step] at step
    cases cleaned : c.cleanup all nows with
    | done c₁ =>
      simp only [cleaned] at step
      cases step
      rw [List.append_nil]
      exact ⟨keeps _ cleaned, bounded, List.not_mem_nil⟩
    | misread =>
      simp only [cleaned] at step
      cases step
    | overflow => exact absurd cleaned clean

theorem within_run {longest period : Nat} {is : List (LimitInput κ)} {c : LimitConnect κ}
    {h : List (LimitEvent κ)} (run : (limitConnect κ).Run (Set period) is c h)
    (periods : ∀ sec ∈ period :: is.flatMap LimitInput.periods, sec ≤ longest)
    (range : ∀ r ∈ is.flatMap LimitInput.readings, longest ≤ r ∧ r < 0x80000000)
    (fits : ∀ name, (times name h).length < 0x80000000) :
    Within longest c h ∧ Bounded h ∧ .overflow ∉ h := by
  induction run with
  | start set =>
    obtain ⟨rfl, hpeers, rfl⟩ := set
    refine ⟨⟨periods _ List.mem_cons_self, fun p hp => ?_⟩, fun before e after hsplit => ?_,
      List.not_mem_nil⟩
    · rw [hpeers] at hp
      cases hp
    · cases before <;> cases hsplit
  | @step is c c' h o i run hstep ih =>
    rw [List.flatMap_append, List.flatMap_singleton] at periods range
    have earlier : ∀ name, (times name h).length < 0x80000000 := fun name =>
      Nat.lt_of_le_of_lt (times_length_le name h o) (fits name)
    have periods_before : ∀ sec ∈ period :: is.flatMap LimitInput.periods, sec ≤ longest := by
      intro sec hsec
      rw [← List.cons_append] at periods
      exact periods sec (List.mem_append_left _ hsec)
    obtain ⟨within, bounded, defined⟩ := ih periods_before
      (fun r hr => range r (List.mem_append_left _ hr)) earlier
    obtain ⟨within', bounded', defined'⟩ := within_step within bounded hstep
      (fun sec hsec => periods sec (List.mem_cons_of_mem _ (List.mem_append_right _ hsec)))
      (fun r hr => range r (List.mem_append_right _ hr)) fits
    refine ⟨within', bounded', fun hmem => ?_⟩
    rcases List.mem_append.mp hmem with hmem | hmem
    · exact defined hmem
    · exact defined' hmem

/-- **A call and the total behind it**, of one reading: the call is seen when the reading is not
behind that of the peer, or an older connection is. -/
theorem total_behind {longest : Nat} {c c' : LimitConnect κ} {h : List (LimitEvent κ)}
    (within : Within longest c h) {name : κ} {memory : Nat → Int} {now total : Int}
    (lower : longest ≤ now) (upper : now < 0x80000000)
    (fits : (times name h).length + 1 < 0x80000000)
    (both : (limitConnect κ).exec c [.addConnect name now memory, .getTotal name now] =
      some (c', [.added name now, .total name now total])) :
    1 ≤ total ↔ ∀ p, c.lookup name = some p → p.bw.sec ≤ now ∨ 0 < p.bw.bucket.slots.sum := by
  have start : 0 ≤ now := Int.le_trans (Int.natCast_nonneg longest) lower
  obtain ⟨c₁, hadd, -⟩ := within_addConnect within name memory lower upper
  obtain ⟨c₂, asked⟩ : ∃ c₂, c₁.getTotal name now = some (total, c₂) := by
    obtain ⟨t, o₁, o₂, first, second, events⟩ := Machine.exec_cons.mp both
    obtain ⟨t', o₃, o₄, hstep, none, rfl⟩ := Machine.exec_cons.mp second
    cases none
    simp only [limitConnect, LimitConnect.step, hadd] at first
    cases first
    simp only [limitConnect, LimitConnect.step] at hstep
    split at hstep
    · next told c₂ answer =>
      cases hstep
      simp only [List.cons_append, List.nil_append, List.append_nil, List.cons.injEq, true_and,
        LimitEvent.total.injEq, and_true] at events
      exact ⟨_, events ▸ answer⟩
    · cases hstep
      simp at events
  cases found : c.lookup name with
  | none =>
    refine iff_of_true ?_ fun p hp => by cases hp
    have first := Int.le_trans (Int.ofNat_le.mpr within.period_le) lower
    obtain ⟨adds, tallied, sum⟩ := TimeStat.tallied_first c.pos memory first upper
    obtain ⟨bw, answer⟩ := tallied.getTotal_added upper (by decide)
    rw [getTotal_eq (lookup_addConnect_none found adds hadd) answer asked, sum]
  | some p =>
    obtain ⟨hp, rfl⟩ := lookup_some found
    have tallied := within.here p hp
    have adds := TimeStat.addBytes_some 1 (tallied.near upper)
    obtain ⟨more, sum⟩ := tallied.added (b := 1) start upper fits
    have gap := (tallied.tally.pushes_zero (min (now - p.bw.sec).toNat p.bw.bucket.size)).sum_nonneg
    obtain ⟨bw, answer⟩ := more.getTotal_added upper fits
    rw [getTotal_eq (lookup_addConnect_some found adds hadd) answer asked, sum]
    have held : p.bw.bucket.window.sum = p.bw.bucket.slots.sum :=
      (RingBuffer.window_perm _).sum_eq
    constructor
    · intro seen q hq
      cases hq
      by_cases order : p.bw.sec ≤ now
      · exact .inl order
      · rw [if_neg order, held] at seen
        exact .inr seen
    · intro kept
      change 0 ≤ (p.bw.behindGap now).window.sum at gap
      rcases kept p rfl with order | older
      · rw [if_pos order]
        omega
      · split
        · omega
        · rw [held]
          exact older

/-- **Every attempt is counted, and none twice**, under any clock: nothing overflows, a total is a
number of calls there have been, and a call is seen in the total behind it when its reading is not
behind the last one of its peer, or an older connection is still held. -/
theorem attempts_counted {longest period : Nat} {is : List (LimitInput κ)} {c : LimitConnect κ}
    {h : List (LimitEvent κ)} (run : (limitConnect κ).Run (Set period) is c h)
    (periods : ∀ sec ∈ period :: is.flatMap LimitInput.periods, sec ≤ longest)
    (range : ∀ r ∈ is.flatMap LimitInput.readings, longest ≤ r ∧ r < 0x80000000)
    (fits : ∀ name, (times name h).length < 0x80000000) :
    Bounded h ∧ .overflow ∉ h ∧ ∀ name memory (now : Int) c' total, longest ≤ now →
      now < 0x80000000 → (times name h).length + 1 < 0x80000000 →
      (limitConnect κ).exec c [.addConnect name now memory, .getTotal name now] =
        some (c', [.added name now, .total name now total]) →
      (1 ≤ total ↔
        ∀ p, c.lookup name = some p → p.bw.sec ≤ now ∨ 0 < p.bw.bucket.slots.sum) := by
  obtain ⟨within, bounded, defined⟩ := within_run run periods range fits
  exact ⟨bounded, defined, fun name memory now c' total lower upper room both =>
    total_behind within lower upper room both⟩

/-- A burst in one second is counted modulo 2^32: 2^31 calls are answered with a negative total. -/
theorem total_burst {period : Nat} (pos : 0 < period) (name : κ) (memory : Nat → Int) {now : Int}
    (lower : period ≤ now) (upper : now < 0x80000000) (n : Nat) : ∃ c,
      (limitConnect κ).Run (Set period) (List.replicate n (.addConnect name now memory)) c
        (List.replicate n (.added name now)) ∧
      (c.getTotal name now).map Prod.fst = some (toInt32 n) := by
  have burst : ∃ c, (limitConnect κ).Run (Set period)
      (List.replicate n (.addConnect name now memory)) c (List.replicate n (.added name now)) ∧
        Counts period now c (List.replicate n (.added name now)) := by
    induction n with
    | zero => exact ⟨_, .start (set_new pos), counts_set (set_new pos) now⟩
    | succ n ih =>
      obtain ⟨c, run, counts⟩ := ih
      obtain ⟨c', hadd, counts'⟩ := counts_addConnect counts name memory lower upper
      have next : (limitConnect κ).step c (.addConnect name now memory) =
          some (c', [.added name now]) := by
        simp only [limitConnect, LimitConnect.step, hadd]
      rw [List.replicate_succ', List.replicate_succ']
      exact ⟨c', run.step next, counts'⟩
  obtain ⟨c, run, counts⟩ := burst
  have all : connections period name now (List.replicate n (.added name now)) = n := by
    have added : LimitEvent.added? name (.added name now) = some now := if_pos rfl
    have recent : decide (now - period < now ∧ now ≤ now) = true := decide_eq_true (by omega)
    rw [connections, times, List.filterMap_replicate_of_some added, List.countP_replicate,
      if_pos recent]
  obtain ⟨c', answer, -⟩ := counts_getTotal counts name upper
  rw [all] at answer
  exact ⟨c, run, by rw [answer, Option.map_some]⟩

/-- A connection that has left the window, then one of a reading that went back. -/
def setBack : List (LimitInput Nat) :=
  [.addConnect 1 10 fun _ => 77, .getTotal 1 20, .addConnect 1 15 fun _ => 77, .getTotal 1 15]

theorem run_setBack : ∃ c h, (limitConnect Nat).Run (Set 2) setBack c h ∧
    (h, ((limitConnect Nat).exec c [.addConnect 1 15 fun _ => 77, .getTotal 1 15]).map Prod.snd) =
      ([.added 1 10, .total 1 20 0, .added 1 15, .total 1 15 0],
        some [.added 1 15, .total 1 15 1]) :=
  Machine.Run.of_exec
    (f := fun c h => (h, ((limitConnect Nat).exec c [.addConnect 1 15 fun _ => 77,
      .getTotal 1 15]).map Prod.snd))
    (set_new (by decide : 0 < 2)) (by decide +kernel)

/-- The call behind the lost one is counted: its reading is that of the peer again. -/
theorem attempts_counted_setBack : ∃ c h, (limitConnect Nat).Run (Set 2) setBack c h ∧ Bounded h ∧
    ∀ p, c.lookup 1 = some p → p.bw.sec ≤ 15 ∨ 0 < p.bw.bucket.slots.sum := by
  obtain ⟨c, h, run, seen⟩ := run_setBack
  obtain ⟨rfl, next⟩ := Prod.mk.inj seen
  obtain ⟨⟨c', told⟩, both, rfl⟩ := Option.map_eq_some_iff.mp next
  have fits : ∀ name : Nat,
      (times name [.added 1 10, .total 1 20 0, .added 1 15, .total 1 15 0]).length + 1 <
        0x80000000 := fun name =>
    Nat.lt_of_le_of_lt (Nat.succ_le_succ (List.length_filterMap_le _ _)) (by decide)
  have range : ∀ r ∈ setBack.flatMap LimitInput.readings, ((2 : Nat) : Int) ≤ r ∧ r < 0x80000000 :=
    by decide
  obtain ⟨bounded, -, counted⟩ := attempts_counted run (by decide) range fun name =>
    Nat.lt_of_succ_lt (fits name)
  exact ⟨c, _, run, bounded,
    (counted 1 _ 15 c' 1 (by decide) (by decide) (fits 1) both).mp (Int.le_refl 1)⟩

/-- Not every call is seen in the total behind it. -/
theorem not_every_attempt : ¬ ∀ (is : List (LimitInput Nat)) c h,
    (limitConnect Nat).Run (Set 2) is c h →
    (∀ r ∈ is.flatMap LimitInput.readings, 2 ≤ r ∧ r < 0x80000000) →
    ∀ before after name now total,
      h = before ++ .added name now :: .total name now total :: after → 1 ≤ total := by
  intro all
  obtain ⟨c, h, run, seen⟩ := run_setBack
  obtain ⟨rfl, -⟩ := Prod.mk.inj seen
  have lost := all setBack c _ run (by decide) [.added 1 10, .total 1 20 0] [] 1 15 0 rfl
  exact absurd lost (by decide)

end LimitConnect

end Yazpp
