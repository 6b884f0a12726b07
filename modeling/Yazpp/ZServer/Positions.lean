import Mathlib.Data.List.Forall2
import Yazpp.ZServer.Progress
import Yazpp.ZServer.Spec

/-!
# Which positions `pack_records` asks for

The loop calls `sr_record` once for each position it reaches, beginning with the first; it leaves an
entry for each of them but the last, which may have ended it (`packLoop_went`). While the positions
are in the range of an `int` they are the start and those behind it, so the entries are those of
consecutive positions (`positions_contiguous`).

The start and the number come from a present request, and both are narrowed to an `int` on the way.
`presented_iff` says of every request when that leaves the range that was asked for.
-/

set_option autoImplicit false

namespace Yazpp

/-- The position in a call of `sr_record`. -/
def FacilityCall.position? : FacilityCall → Option Int
  | .uses (.srRecord position) _ => some position
  | _ => none

namespace Running

variable {σ : Type}

/-- The positions that `sr_record` was called for, in order. -/
def positions (r : Running σ) : List Int := r.calls.filterMap FacilityCall.position?

@[simp] theorem positions_malloc (size : Nat) (r : Running σ) :
    (r.malloc size).positions = r.positions := by
  simp only [positions, malloc, List.filterMap_append, List.filterMap_cons, List.filterMap_nil,
    FacilityCall.position?, List.append_nil]

@[simp] theorem positions_serve {α : Type} (served : Served σ α) (r : Running σ) :
    (r.serve served).positions = r.positions := rfl

@[simp] theorem positions_compare (members : Retrieval) (r : Running σ) :
    (r.use .compareSizes members).positions = r.positions := by
  simp only [positions, use, List.filterMap_append, List.filterMap_cons, List.filterMap_nil,
    FacilityCall.position?, List.append_nil]

@[simp] theorem positions_record (position : Int) (members : Retrieval) (r : Running σ) :
    (r.use (.srRecord position) members).positions = r.positions ++ [position] := by
  simp only [positions, use, List.filterMap_append, List.filterMap_cons, List.filterMap_nil,
    FacilityCall.position?]

end Running

/-- What may stand in the list for a record: the record, or a surrogate diagnostic in its place,
under the name of its database or under none. -/
def Packed (record entry : NamePlusRecord) : Prop :=
  entry = record ∨ ∃ condition, entry = createSurrogateDiagnostics condition record ∨
    entry = createSurrogateDiagnostics condition { record with databaseName := none }

theorem Packed.replaced {record entry : NamePlusRecord} (packed : Packed record entry)
    (condition : Int) : Packed record (createSurrogateDiagnostics condition entry) := by
  rcases packed with rfl | ⟨first, rfl | rfl⟩
  · exact .inr ⟨condition, .inl rfl⟩
  · exact .inr ⟨condition, .inl rfl⟩
  · exact .inr ⟨condition, .inr rfl⟩

section Pack

variable {σ : Type} (sz : Sizeof) (svc : Service σ) (k : Nat) (m : Retrieval) (req : PackRequest)

/-- What `sr_record` answers at a position, with what has been packed before it. -/
def answered (step : Int × Packing σ) : RecordAnswer :=
  (svc.srRecord k step.2.run.app req.resultSetName step.1 req.format req.comp).answer

theorem fetchRecord_positions (recno : Int) (r : Running σ) :
    (fetchRecord sz svc k m req recno r).run.positions = r.positions ++ [recno] := by
  unfold fetchRecord
  dsimp only
  split
  · simp only [Running.positions_malloc, Running.positions_serve, Running.positions_record]
  · simp only [Running.positions_malloc, Running.positions_serve, Running.positions_record]

theorem fetchRecord_packed (recno : Int) (p : Packing σ) :
    Packed (answered svc k req (recno, p)).record
      (fetchRecord sz svc k m req recno p.run).answer.record := by
  unfold fetchRecord
  dsimp only
  split
  · exact .inr ⟨14, .inr rfl⟩
  · exact .inl rfl

/-- One turn calls `sr_record` once. -/
theorem packOne_positions (recno : Int) (p : Packing σ) :
    (packOne sz svc k m req recno p).1.run.positions = p.run.positions ++ [recno] := by
  have fetched := fetchRecord_positions sz svc k m req recno p.run
  unfold packOne
  dsimp only
  cases (fetchRecord sz svc k m req recno p.run).answer.diagnostics with
  | some diagnostics => exact fetched
  | none =>
    dsimp only
    cases packVerdict m req _ p.dumped with
    | keep | partialReply => rw [Running.positions_compare, fetched]
    | replace condition => rw [Running.positions_malloc, Running.positions_compare, fetched]

theorem packLoop_positions (left : Nat) (recno : Int) (p : Packing σ) :
    (packLoop sz svc k m req left recno p).run.positions =
      p.run.positions ++ (packSteps sz svc k m req left recno p).map Prod.fst := by
  induction left generalizing recno p with
  | zero => exact (List.append_nil _).symm
  | succ left ih =>
    have one := packOne_positions sz svc k m req recno p
    unfold packLoop packSteps
    cases hout : packOne sz svc k m req recno p with
    | mk q goes =>
      rw [hout] at one
      cases goes with
      | true =>
        dsimp only at one ⊢
        rw [ih, one, List.map_cons, List.append_assoc, List.singleton_append]
      | false => exact one

/-- The steps are one behind the other while the positions are in range. -/
theorem packSteps_positions {left : Nat} {recno : Int} (p : Packing σ)
    (lower : -0x80000000 ≤ recno) (upper : recno + left < 0x80000000) :
    (packSteps sz svc k m req left recno p).map Prod.fst =
      (List.range (packSteps sz svc k m req left recno p).length).map fun i : Nat => recno + i := by
  induction left generalizing recno p with
  | zero => rfl
  | succ left ih =>
    have next : toInt32 (recno + 1) = recno + 1 := toInt32_eq (by omega) (by omega)
    unfold packSteps
    cases packOne sz svc k m req recno p with
    | mk q goes =>
      cases goes with
      | false => simp only [List.map_cons, List.map_nil, List.length_singleton, List.range_one,
          Int.natCast_zero, Int.add_zero]
      | true =>
        dsimp only
        rw [next, List.map_cons, List.length_cons, List.range_succ_eq_map, List.map_cons,
          List.map_map, ih q (by omega) (by omega)]
        refine congrArg₂ List.cons (Int.add_zero recno).symm (List.map_congr_left fun i _ => ?_)
        show recno + 1 + i = recno + (i + 1 : Nat)
        omega

/-- What the loop has made of the positions: an entry for each that it kept, and one more at most,
that ended it. -/
structure Went (left : Nat) (p q : Packing σ) (kept rest : List (Int × Packing σ))
    (entries : List NamePlusRecord) : Prop where
  ended : rest.length ≤ 1
  packed : List.Forall₂ (fun step entry => Packed (answered svc k req step).record entry) kept
    entries
  list : q.list = p.list ++ entries
  few : entries.length ≤ left
  pres : q.diagnostics = none → p.pres = presentSuccess →
    (q.pres = presentSuccess ↔ entries.length = left)

variable {svc k req}

/-- A turn that keeps its position, before what the rest of the loop made. -/
theorem Went.cons {left : Nat} {recno : Int} {p p' q : Packing σ}
    {kept rest : List (Int × Packing σ)} {entries : List NamePlusRecord} {entry : NamePlusRecord}
    (went : Went svc k req left p' q kept rest entries) (list : p'.list = p.list ++ [entry])
    (packed : Packed (answered svc k req (recno, p)).record entry) (pres : p'.pres = p.pres) :
    Went svc k req (left + 1) p q ((recno, p) :: kept) rest (entry :: entries) where
  ended := went.ended
  packed := .cons packed went.packed
  list := by rw [went.list, list, List.append_assoc, List.singleton_append]
  few := Nat.succ_le_succ went.few
  pres listed started := by
    rw [went.pres listed (pres.trans started), List.length_cons, Nat.succ_inj]

variable (svc k req)

/-- **The loop**: by induction on the turns that are left, each of which keeps its position or ends
the loop. -/
theorem packLoop_went (left : Nat) (recno : Int) (p : Packing σ) : ∃ kept rest entries,
    packSteps sz svc k m req left recno p = kept ++ rest ∧
      Went svc k req left p (packLoop sz svc k m req left recno p) kept rest entries := by
  induction left generalizing recno p with
  | zero =>
    exact ⟨[], [], [], rfl, Nat.zero_le 1, .nil, (List.append_nil _).symm, Nat.le_refl 0,
      fun _ started => iff_of_true started rfl⟩
  | succ left ih =>
    have turn := packOne_turn sz svc k m req recno p
    have packed := fetchRecord_packed sz svc k m req recno p
    unfold packLoop packSteps
    cases hout : packOne sz svc k m req recno p with
    | mk q goes =>
      rw [hout] at turn
      cases turn with
      | failed _ hlist _ hdiagnostics =>
        refine ⟨[], [(recno, p)], [], rfl, Nat.le_refl 1, .nil, ?_, Nat.zero_le _, ?_⟩
        · rw [List.append_nil]
          exact hlist
        · intro listed
          rw [hdiagnostics] at listed
          cases listed
      | partly _ _ hlist _ _ hpres =>
        refine ⟨[], [(recno, p)], [], rfl, Nat.le_refl 1, .nil, ?_, Nat.zero_le _, ?_⟩
        · rw [List.append_nil]
          exact hlist
        · intro _ _
          refine iff_of_false (fun success => ?_) (fun full => ?_)
          · exact absurd (hpres.symm.trans success) (by decide)
          · cases full
      | kept _ _ hlist _ _ hpres =>
        obtain ⟨kept, rest, entries, hsteps, went⟩ := ih (toInt32 (recno + 1)) q
        exact ⟨_, rest, _, congrArg ((recno, p) :: ·) hsteps, went.cons hlist packed hpres⟩
      | replaced _ _ hlist _ _ hpres =>
        obtain ⟨kept, rest, entries, hsteps, went⟩ := ih (toInt32 (recno + 1)) q
        exact ⟨_, rest, _, congrArg ((recno, p) :: ·) hsteps,
          went.cons hlist (packed.replaced _) hpres⟩

/-- **Contiguous positions**: the entries are what came of the calls for the start and the positions
behind it, in order, one call for each, and a last one that may have ended the list. -/
structure Contiguous (start : Int) (r : Running σ) : Prop where
  records : (packRecords sz svc k m req start r).records =
    .databaseOrSurDiagnostics (packRecords sz svc k m req start r).list
  few : ((packRecords sz svc k m req start r).list.length : Int) ≤ req.toget
  called : ∃ n : Nat, (packRecords sz svc k m req start r).list.length ≤ n ∧
    n ≤ (packRecords sz svc k m req start r).list.length + 1 ∧
    (packRecords sz svc k m req start r).run.positions =
      r.positions ++ (List.range n).map fun i : Nat => start + i
  entries : ∀ (i : Nat) entry, (packRecords sz svc k m req start r).list[i]? = some entry →
    ∃ p, (packSteps sz svc k m req req.toget.toNat start (packStart sz req r))[i]? =
      some (start + i, p) ∧ Packed (answered svc k req (start + i, p)).record entry
  next : (packRecords sz svc k m req start r).next =
    if (packRecords sz svc k m req start r).list = [] then 0
    else start + (packRecords sz svc k m req start r).list.length
  pres : (packRecords sz svc k m req start r).pres = presentSuccess ↔
    ((packRecords sz svc k m req start r).list.length : Int) = req.toget

/-- What `pack_records` has made of positions that are in range: the calls, an entry for each of
those that it kept, and `*next`. -/
theorem packRecords_went {start : Int} (r : Running σ) (lower : -0x80000000 ≤ start)
    (upper : start + req.toget.toNat < 0x80000000) : ∃ kept rest,
    packSteps sz svc k m req req.toget.toNat start (packStart sz req r) = kept ++ rest ∧
      Went svc k req req.toget.toNat (packStart sz req r) (packRecords sz svc k m req start r) kept
        rest (packRecords sz svc k m req start r).list ∧
      (kept ++ rest).map Prod.fst =
        (List.range (kept.length + rest.length)).map (fun i : Nat => start + i) ∧
      (packRecords sz svc k m req start r).run.positions =
        r.positions ++ (List.range (kept.length + rest.length)).map (fun i : Nat => start + i) ∧
      kept.length = (packRecords sz svc k m req start r).list.length ∧
      (packRecords sz svc k m req start r).next =
        if (packRecords sz svc k m req start r).list = [] then 0
        else start + (packRecords sz svc k m req start r).list.length := by
  obtain ⟨kept, rest, entries, hsteps, went⟩ :=
    packLoop_went sz svc k m req req.toget.toNat start (packStart sz req r)
  have list : (packRecords sz svc k m req start r).list = entries := went.list
  have positions := packSteps_positions sz svc k m req (packStart sz req r) lower upper
  have called := packLoop_positions sz svc k m req req.toget.toNat start (packStart sz req r)
  have begun : (packStart sz req r).run.positions = r.positions := by
    simp only [packStart, Running.positions_malloc]
  rw [hsteps, List.length_append] at positions
  rw [hsteps, begun, positions] at called
  obtain ⟨j, few, count, next⟩ :=
    packLoop_count sz svc k m req req.toget.toNat start (packStart sz req r)
  have count : (packRecords sz svc k m req start r).list.length = j :=
    count.trans (Nat.zero_add j)
  refine ⟨kept, rest, hsteps, list.symm ▸ went, positions, called, list ▸ went.packed.length_eq,
    ?_⟩
  simp only [← List.length_eq_zero_iff, count]
  refine next.trans ?_
  split
  · rfl
  · exact toInt32_eq (by omega) (by omega)

/-- **The positions of a list are contiguous.** -/
theorem positions_contiguous {start : Int} (r : Running σ) (count : 0 ≤ req.toget)
    (lower : -0x80000000 ≤ start) (upper : start + req.toget < 0x80000000)
    (listed : (packRecords sz svc k m req start r).diagnostics = none) :
    Contiguous sz svc k m req start r := by
  obtain ⟨kept, rest, hsteps, went, positions, called, length, next⟩ :=
    packRecords_went sz svc k m req r lower (by omega)
  have few := went.few
  have ended := went.ended
  constructor
  · rw [Packing.records, listed]
    rfl
  · omega
  · exact ⟨kept.length + rest.length, by omega, by omega, called⟩
  · intro i entry hentry
    obtain ⟨hi, rfl⟩ := List.getElem?_eq_some_iff.mp hentry
    have hkept : i < kept.length := length ▸ hi
    have packed := went.packed.get hkept hi
    have position : (kept.get ⟨i, hkept⟩).1 = start + i := by
      have at_i := congrArg (·[i]?) positions
      simp only [List.map_append, List.getElem?_append_left, List.length_map, hkept,
        List.getElem?_map, List.getElem?_eq_getElem hkept, Option.map_some,
        List.getElem?_range (Nat.lt_add_right rest.length hkept), Option.some.injEq] at at_i
      exact at_i
    refine ⟨(kept.get ⟨i, hkept⟩).2, ?_, ?_⟩
    · rw [hsteps, List.getElem?_append_left hkept, List.getElem?_eq_getElem hkept, ← position]
      rfl
    · rw [← position]
      exact packed
  · exact next
  · rw [went.pres listed rfl]
    omega

theorem packSteps_length (left : Nat) (recno : Int) (p : Packing σ) :
    (packSteps sz svc k m req left recno p).length ≤ left := by
  induction left generalizing recno p with
  | zero => exact Nat.le_refl 0
  | succ left ih =>
    unfold packSteps
    cases packOne sz svc k m req recno p with
    | mk q goes =>
      cases goes with
      | true => exact Nat.succ_le_succ (ih (toInt32 (recno + 1)) q)
      | false => exact Nat.succ_le_succ (Nat.zero_le left)

end Pack

/-- Two records that go into one reply, and a third that ends it. -/
theorem positions_contiguous_two : ∃ m : Retrieval, m.preferredMessageSize.value = 1000 ∧
    (packRecords .lp64 (.sized fun position => if position = 9 then 2000 else 200) 0 m
      { resultSetName := [], toget := 3, comp := none, format := none } 7
      { app := (), total := 0 }).list.length = 2 ∧
    Contiguous .lp64 (.sized fun position => if position = 9 then 2000 else 200) 0 m
      { resultSetName := [], toget := 3, comp := none, format := none } 7
      { app := (), total := 0 } := by
  refine ⟨Retrieval.sized 1000 5000, rfl, by decide, ?_⟩
  exact positions_contiguous _ _ _ _ _ _ (by decide) (by decide) (by decide) (by decide)

/-! ## A present request -/

section Present

variable {σ : Type} (sz : Sizeof) (svc : Service σ) (k : Nat) (m : Retrieval)
  (preq : PresentRequest)

/-- The reply to a present request is **for the range that was asked for**: the array has room for
it, exactly; the positions are its start and those behind it, and no more than it has; and so are
the entries; and the next position is the one behind them. -/
structure Presented (res : PresentResponse) (r : Running σ) : Prop where
  array : ∃ (size : Nat) (rest : List FacilityCall),
    (fetchViaPresent sz svc k m preq res r).1.calls =
      r.calls ++ .odrMalloc sz.records :: .odrMalloc sz.recordList :: .odrMalloc size :: rest ∧
    (size : Int) = sz.pointer * preq.packRequest.toget ∧
    (size : Int) = sz.pointer * max preq.numberOfRecordsRequested 0
  called : ∃ n : Nat, (n : Int) ≤ max preq.numberOfRecordsRequested 0 ∧
    (fetchViaPresent sz svc k m preq res r).1.positions =
      r.positions ++ (List.range n).map fun i : Nat => preq.resultSetStartPoint + i
  few : ((packRecords sz svc k m preq.packRequest (toInt32 preq.resultSetStartPoint) r).list.length
    : Int) ≤ max preq.numberOfRecordsRequested 0
  next : (fetchViaPresent sz svc k m preq res r).2.nextResultSetPosition =
    if (packRecords sz svc k m preq.packRequest (toInt32 preq.resultSetStartPoint) r).list = [] then
      0
    else preq.resultSetStartPoint +
      (packRecords sz svc k m preq.packRequest (toInt32 preq.resultSetStartPoint) r).list.length

/-- The request is one whose number is narrowed to what it asks for, and whose positions, with the
one behind them, are in the range of an `int`. -/
def PresentRequest.InRange (preq : PresentRequest) : Prop :=
  (0 ≤ preq.numberOfRecordsRequested ∧ preq.numberOfRecordsRequested < 0x80000000 ∨
    preq.numberOfRecordsRequested < 0 ∧ preq.numberOfRecordsRequested % 0x100000000 = 0) ∧
  (0 < preq.numberOfRecordsRequested → -0x80000000 ≤ preq.resultSetStartPoint ∧
    preq.resultSetStartPoint + preq.numberOfRecordsRequested < 0x80000000)

theorem toget_iff : preq.packRequest.toget = max preq.numberOfRecordsRequested 0 ↔
    (0 ≤ preq.numberOfRecordsRequested ∧ preq.numberOfRecordsRequested < 0x80000000 ∨
      preq.numberOfRecordsRequested < 0 ∧ preq.numberOfRecordsRequested % 0x100000000 = 0) := by
  have hcases := toInt32_cases preq.numberOfRecordsRequested
  show toInt32 preq.numberOfRecordsRequested = _ ↔ _
  omega

/-- The array is of the exact size exactly when the number is narrowed to what it asks for. -/
theorem array_iff (pos : 0 < sz.pointer) (narrow : sz.pointer < 0x100000000)
    (res : PresentResponse) (r : Running σ) :
    (∃ (size : Nat) (rest : List FacilityCall),
      (fetchViaPresent sz svc k m preq res r).1.calls =
        r.calls ++ .odrMalloc sz.records :: .odrMalloc sz.recordList :: .odrMalloc size :: rest ∧
      (size : Int) = sz.pointer * preq.packRequest.toget ∧
      (size : Int) = sz.pointer * max preq.numberOfRecordsRequested 0) ↔
    preq.packRequest.toget = max preq.numberOfRecordsRequested 0 := by
  constructor
  · rintro ⟨size, -, -, narrowed, exact⟩
    exact Int.eq_of_mul_eq_mul_left (by omega) (narrowed.symm.trans exact)
  · intro toget
    have upper : preq.packRequest.toget < 0x80000000 := toInt32_lt _
    have product : 0 ≤ (sz.pointer : Int) * preq.packRequest.toget ∧
        (sz.pointer : Int) * preq.packRequest.toget < 0x10000000000000000 := by
      constructor
      · exact Int.mul_nonneg (Int.natCast_nonneg _) (toget ▸ Int.le_max_right _ _)
      · have bound := Int.mul_le_mul (Int.le_of_lt (Int.ofNat_lt.mpr narrow))
          (Int.le_of_lt upper) (toget ▸ Int.le_max_right _ _) (by decide)
        exact Int.lt_of_le_of_lt bound (by decide)
    have leads : (packStart sz preq.packRequest r).run.LeadsTo m
        (packRecords sz svc k m preq.packRequest (toInt32 preq.resultSetStartPoint) r).run :=
      Running.LeadsTo.packLoop .rfl
    obtain ⟨rest, calls, -⟩ := leads
    refine ⟨toSize (sz.pointer * preq.packRequest.toget), rest, ?_, ?_, ?_⟩
    · refine calls.trans ?_
      simp only [packStart, Running.malloc, List.append_assoc, List.cons_append, List.nil_append]
    · rw [toSize, Int.emod_eq_of_lt product.1 product.2, Int.toNat_of_nonneg product.1]
    · rw [toSize, Int.emod_eq_of_lt product.1 product.2, Int.toNat_of_nonneg product.1, toget]

/-- **A request in range** is answered for the range that it asks for, whatever the service does. -/
theorem presented_inRange (pos : 0 < sz.pointer) (narrow : sz.pointer < 0x100000000)
    (range : preq.InRange) (res : PresentResponse) (r : Running σ) :
    Presented sz svc k m preq res r := by
  obtain ⟨number, positions⟩ := range
  have toget := (toget_iff preq).mpr number
  have lower := le_toInt32 preq.resultSetStartPoint
  have upper := toInt32_lt preq.resultSetStartPoint
  have start : 0 < preq.numberOfRecordsRequested →
      toInt32 preq.resultSetStartPoint = preq.resultSetStartPoint := by
    intro some
    obtain ⟨above, below⟩ := positions some
    exact toInt32_eq above (by omega)
  obtain ⟨kept, rest, hsteps, went, -, called, length, next⟩ :=
    packRecords_went sz svc k m preq.packRequest r lower (by omega)
  have reached := packSteps_length sz svc k m preq.packRequest preq.packRequest.toget.toNat
    (toInt32 preq.resultSetStartPoint) (packStart sz preq.packRequest r)
  rw [hsteps, List.length_append] at reached
  have few := went.few
  refine ⟨(array_iff sz svc k m preq pos narrow res r).mpr toget, ?_, by omega, ?_⟩
  · refine ⟨kept.length + rest.length, by omega, called.trans ?_⟩
    by_cases some : 0 < preq.numberOfRecordsRequested
    · rw [start some]
    · rw [show kept.length + rest.length = 0 by omega, List.range_zero, List.map_nil, List.map_nil]
  · refine next.trans ?_
    by_cases some : 0 < preq.numberOfRecordsRequested
    · rw [start some]
    · have none : (packRecords sz svc k m preq.packRequest (toInt32 preq.resultSetStartPoint)
          r).list = [] := List.length_eq_zero_iff.mp (by omega)
      rw [if_pos none, if_pos none]

/-- A service that has a record for every position, and a reply that holds any number of them. -/
theorem packLoop_keep (sound : NoDiagnostics svc k) (req : PackRequest) (left : Nat) (recno : Int)
    {p : Packing σ} (undumped : p.dumped = 0) :
    (packLoop sz svc k (.sized 0x7fffffff 0x7fffffff) req left recno p).list.length =
      p.list.length + left := by
  induction left generalizing recno p with
  | zero => rfl
  | succ left ih =>
    have turn := packOne_turn sz svc k (.sized 0x7fffffff 0x7fffffff) req recno p
    rw [undumped, packVerdict_eq (by decide), if_pos (Int.le_of_lt_add_one (toInt32_lt _))] at turn
    unfold packLoop
    cases hout : packOne sz svc k (.sized 0x7fffffff 0x7fffffff) req recno p with
    | mk q goes =>
      rw [hout] at turn
      cases turn with
      | failed hdiag =>
        have none := (fetchRecord_diagnostics sound ..).symm.trans hdiag
        cases none
      | partly _ hverdict => cases hverdict
      | kept _ _ hlist _ _ _ hdumped =>
        refine (ih (toInt32 (recno + 1)) (hdumped.trans undumped)).trans ?_
        rw [hlist, List.length_append, List.length_singleton]
        omega
      | replaced _ hverdict => cases hverdict

theorem packRecords_keep (sound : NoDiagnostics svc k) (req : PackRequest) (start : Int)
    (r : Running σ) :
    (packRecords sz svc k (.sized 0x7fffffff 0x7fffffff) req start r).list.length =
      req.toget.toNat :=
  (packLoop_keep sz svc k sound req req.toget.toNat start rfl).trans (Nat.zero_add _)

/-- **Only a request in range** is, by the service that has a record for every position. -/
theorem inRange_of_presented (pos : 0 < sz.pointer) (narrow : sz.pointer < 0x100000000)
    (sound : NoDiagnostics svc k) (res : PresentResponse) (r : Running σ)
    (presented : Presented sz svc k (.sized 0x7fffffff 0x7fffffff) preq res r) : preq.InRange := by
  have toget := (array_iff sz svc k _ preq pos narrow res r).mp presented.array
  refine ⟨(toget_iff preq).mp toget, fun some => ?_⟩
  obtain ⟨left, hleft⟩ : ∃ left, preq.packRequest.toget.toNat = left + 1 :=
    Nat.exists_eq_succ_of_ne_zero (by omega)
  constructor
  · -- the first position is the narrowed start
    obtain ⟨n, -, called⟩ := presented.called
    have steps := packLoop_positions sz svc k (.sized 0x7fffffff 0x7fffffff) preq.packRequest
      preq.packRequest.toget.toNat (toInt32 preq.resultSetStartPoint)
      (packStart sz preq.packRequest r)
    have begun : (packStart sz preq.packRequest r).run.positions = r.positions := by
      simp only [packStart, Running.positions_malloc]
    have same := List.append_cancel_left ((begun ▸ steps).symm.trans called)
    rw [hleft, packSteps, List.map_cons] at same
    cases n with
    | zero => cases same
    | succ n =>
      rw [List.range_succ_eq_map, List.map_cons] at same
      have first := (List.cons.inj same).1
      have lower := le_toInt32 preq.resultSetStartPoint
      dsimp only at first
      omega
  · -- and the last `*next` is in range
    have full := packRecords_keep sz svc k sound preq.packRequest
      (toInt32 preq.resultSetStartPoint) r
    obtain ⟨j, -, count, last⟩ := packLoop_count sz svc k (.sized 0x7fffffff 0x7fffffff)
      preq.packRequest preq.packRequest.toget.toNat (toInt32 preq.resultSetStartPoint)
      (packStart sz preq.packRequest r)
    have hj : j = preq.packRequest.toget.toNat :=
      (Nat.zero_add j).symm.trans (count.symm.trans full)
    rw [if_neg (by omega)] at last
    have some_list : ¬ (packRecords sz svc k (.sized 0x7fffffff 0x7fffffff) preq.packRequest
        (toInt32 preq.resultSetStartPoint) r).list = [] := by
      intro none
      rw [none, hleft] at full
      cases full
    have next := presented.next
    rw [if_neg some_list, full] at next
    have same := last.symm.trans next
    have upper := toInt32_lt (toInt32 preq.resultSetStartPoint + j)
    omega

end Present

/-- **A present request is served in its range exactly when** it is one. -/
theorem presented_iff {sz : Sizeof} (pos : 0 < sz.pointer) (narrow : sz.pointer < 0x100000000)
    (preq : PresentRequest) :
    (∀ (σ : Type) (svc : Service σ) (k : Nat) (m : Retrieval) (res : PresentResponse)
        (r : Running σ), Presented sz svc k m preq res r) ↔ preq.InRange := by
  constructor
  · intro all
    exact inRange_of_presented sz (.sized fun _ => 0) 0 preq pos narrow (fun _ _ _ _ _ => rfl)
      { numberOfRecordsReturned := 0, nextResultSetPosition := 0, presentStatus := 0
        records := none } { app := (), total := 0 } (all Unit _ 0 _ _ _)
  · intro range σ svc k m res r
    exact presented_inRange sz svc k m preq pos narrow range res r

/-- The last three positions that an `int` has room for, with the one behind them. -/
theorem presented_iff_last : ∃ preq : PresentRequest, preq.resultSetStartPoint = 2147483644 ∧
    preq.numberOfRecordsRequested = 3 ∧
    ∀ (svc : Service Unit) k m res r, Presented .lp64 svc k m preq res r := by
  have range : PresentRequest.InRange
      { resultSetId := [], resultSetStartPoint := 2147483644, numberOfRecordsRequested := 3
        recordComposition := none, preferredRecordSyntax := none } :=
    ⟨.inl (by decide), fun _ => by decide⟩
  have served := (presented_iff (show 0 < Sizeof.lp64.pointer by decide) (by decide) _).mpr range
  exact ⟨_, rfl, rfl, fun svc k m res r => served Unit svc k m res r⟩

/-- A number of -1: the array is asked for with 2^64 - 8 octets. -/
theorem not_presented : ∃ (preq : PresentRequest) (res : PresentResponse) (r : Running Unit),
    preq.resultSetStartPoint = 1 ∧ preq.numberOfRecordsRequested = -1 ∧
    .odrMalloc 18446744073709551608 ∈
      (fetchViaPresent .lp64 (.sized fun _ => 200) 0 (.sized 1000 5000) preq res r).1.calls ∧
    ¬ Presented .lp64 (.sized fun _ => 200) 0 (.sized 1000 5000) preq res r := by
  refine ⟨{ resultSetId := [], resultSetStartPoint := 1, numberOfRecordsRequested := -1
            recordComposition := none, preferredRecordSyntax := none },
    { numberOfRecordsReturned := 0, nextResultSetPosition := 0, presentStatus := 0
      records := none }, { app := (), total := 0 }, rfl, rfl, by decide, ?_⟩
  intro presented
  obtain ⟨size, -, -, narrowed, -⟩ := presented.array
  have negative : (size : Int) = -8 := narrowed
  omega

end Yazpp
