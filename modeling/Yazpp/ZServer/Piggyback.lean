import Yazpp.ZServer.Positions

/-!
# How many records a search brings with it

The three bounds of a search request and the result count say how many records the response should
bring (`SearchRequest.wanted`). `fetch_via_piggyback` compares the bounds with the result count as
an `int` has it, and takes the medium number as an `int` has it. `piggybacked_iff` says for which
bounds and counts it still asks `pack_records` for as many as it should: the sign is never looked
at, and a negative count below the small bound is asked for as it is.
-/

set_option autoImplicit false

namespace Yazpp

/-- How many records a search response should bring. -/
def SearchRequest.wanted (sreq : SearchRequest) (resultCount : Int) : Int :=
  if resultCount ≤ sreq.smallSetUpperBound then max resultCount 0
  else if resultCount < sreq.largeSetLowerBound then
    max (min sreq.mediumSetPresentNumber resultCount) 0
  else 0

/-- What it asks `pack_records` for, when it is not nothing. -/
def SearchRequest.asking (sreq : SearchRequest) (toget : Int) (comp : Option RecordComposition) :
    Option PackRequest :=
  if toget ≠ 0 then
    some { resultSetName := sreq.resultSetName, toget := toget, comp := comp
           format := sreq.preferredRecordSyntax }
  else none

/-- The bounds and the result count are such that their `int`s pick as many records as they do.
Where nothing is wanted, the count as an `int` has it must not be one that is small or medium, or be
nothing itself; where all are wanted, there must be no more than an `int` has room for; and where
the medium number decides, it must be the smaller one on both sides. -/
def SearchRequest.CountKept (sreq : SearchRequest) (resultCount : Int) : Prop :=
  if resultCount ≤ 0 ∨ sreq.smallSetUpperBound < resultCount ∧
      (sreq.largeSetLowerBound ≤ resultCount ∨ sreq.mediumSetPresentNumber ≤ 0) then
    (toInt32 resultCount ≤ sreq.smallSetUpperBound → toInt32 resultCount = 0) ∧
      (sreq.smallSetUpperBound < toInt32 resultCount →
        toInt32 resultCount < sreq.largeSetLowerBound →
        min (toInt32 sreq.mediumSetPresentNumber) (toInt32 resultCount) = 0)
  else if resultCount ≤ sreq.smallSetUpperBound then resultCount < 0x80000000
  else if resultCount < 0x80000000 then
    sreq.mediumSetPresentNumber < 0x80000000 ∨ resultCount ≤ toInt32 sreq.mediumSetPresentNumber
  else
    sreq.mediumSetPresentNumber < 0x80000000 ∧
      sreq.mediumSetPresentNumber ≤ toInt32 resultCount ∧
      (toInt32 resultCount ≤ sreq.smallSetUpperBound →
        toInt32 resultCount = sreq.mediumSetPresentNumber)

instance (sreq : SearchRequest) (resultCount : Int) : Decidable (sreq.CountKept resultCount) := by
  unfold SearchRequest.CountKept
  infer_instance

/-- The count that the code picks. -/
theorem piggyback_fst (sreq : SearchRequest) (resultCount : Int) :
    (piggyback sreq resultCount).1 =
      if toInt32 resultCount ≤ sreq.smallSetUpperBound then toInt32 resultCount
      else if toInt32 resultCount < sreq.largeSetLowerBound then
        min (toInt32 sreq.mediumSetPresentNumber) (toInt32 resultCount)
      else 0 := by
  unfold piggyback
  dsimp only
  split
  · rfl
  · split
    · dsimp only
      split <;> omega
    · rfl

/-- Nothing is wanted of an empty result set, nor of one that is too large, nor of a medium one when
the medium number is not positive. -/
theorem wanted_eq (sreq : SearchRequest) (resultCount : Int) : sreq.wanted resultCount =
    if resultCount ≤ 0 ∨ sreq.smallSetUpperBound < resultCount ∧
      (sreq.largeSetLowerBound ≤ resultCount ∨ sreq.mediumSetPresentNumber ≤ 0) then 0
    else if resultCount ≤ sreq.smallSetUpperBound then resultCount
    else min sreq.mediumSetPresentNumber resultCount := by
  unfold SearchRequest.wanted
  by_cases small : resultCount ≤ sreq.smallSetUpperBound
  · rw [if_pos small, if_pos small]
    split <;> omega
  · rw [if_neg small, if_neg small]
    split <;> split <;> omega

/-- The code picks the count that is wanted exactly when the conversions keep it. -/
theorem piggyback_eq_wanted_iff (sreq : SearchRequest) (resultCount : Int) :
    (piggyback sreq resultCount).1 = sreq.wanted resultCount ↔ sreq.CountKept resultCount := by
  have hits := toInt32_cases resultCount
  have medium := toInt32_cases sreq.mediumSetPresentNumber
  rw [piggyback_fst, wanted_eq]
  unfold SearchRequest.CountKept
  generalize toInt32 resultCount = narrowHits at *
  generalize toInt32 sreq.mediumSetPresentNumber = narrowMedium at *
  by_cases nothing : resultCount ≤ 0 ∨ sreq.smallSetUpperBound < resultCount ∧
      (sreq.largeSetLowerBound ≤ resultCount ∨ sreq.mediumSetPresentNumber ≤ 0)
  · rw [if_pos nothing, if_pos nothing]
    clear hits medium nothing
    split
    · omega
    · split <;> omega
  rw [if_neg nothing, if_neg nothing]
  by_cases small : resultCount ≤ sreq.smallSetUpperBound
  · rw [if_pos small, if_pos small]
    split
    · omega
    · split <;> omega
  rw [if_neg small, if_neg small]
  by_cases inRange : resultCount < 0x80000000
  · -- the count is its own conversion, and only the medium number is converted to another
    rw [if_pos inRange, if_neg (by omega), if_pos (by omega)]
    omega
  · rw [if_neg inRange]
    split
    · omega
    · split <;> omega

/-! ## What is asked of `pack_records` -/

section Fetch

variable {σ : Type} (sz : Sizeof) (svc : Service σ) (k : Nat) (m : Retrieval)

/-- `fetch_via_piggyback` with what it asks `pack_records` for; without anything, `pack_records` is
not called. -/
def fetchAsked (asked : Option PackRequest) (res : SearchResponse) (r : Running σ) :
    Running σ × SearchResponse :=
  let r := (r.malloc sz.bool).malloc sz.odrInt
  match asked with
  | some req =>
    let p := packRecords sz svc k m req 1 (r.malloc sz.odrInt)
    (p.run, { res with
      nextResultSetPosition := p.next
      presentStatus := some p.pres
      records := some p.records
      numberOfRecordsReturned := p.records.numberOfRecords res.numberOfRecordsReturned
      searchStatus := true
      resultSetStatus := none })
  | none =>
    (r, { res with
      nextResultSetPosition :=
        if toInt32 res.resultCount ≠ 0 then 1 else res.nextResultSetPosition
      numberOfRecordsReturned := 0
      searchStatus := true
      resultSetStatus := none
      presentStatus := none })

theorem fetchViaPiggyback_eq (sreq : SearchRequest) {res : SearchResponse} (r : Running σ)
    (unanswered : res.records = none) :
    fetchViaPiggyback sz svc k m sreq res r =
      fetchAsked sz svc k m (sreq.asking (piggyback sreq res.resultCount).1
        (piggyback sreq res.resultCount).2) res r := by
  unfold fetchViaPiggyback SearchRequest.asking
  generalize piggyback sreq res.resultCount = picked
  obtain ⟨toget, comp⟩ := picked
  by_cases some : toget ≠ 0
  · simp only [some, unanswered, ne_eq, not_false_eq_true, and_self, if_true]
    rfl
  · simp only [some, if_false, false_and]
    rfl

/-- The search brings as many records as it should, under some element set names. -/
def Piggybacked (sreq : SearchRequest) (res : SearchResponse) (r : Running σ) : Prop :=
  ∃ comp, fetchViaPiggyback sz svc k m sreq res r =
    fetchAsked sz svc k m (sreq.asking (sreq.wanted res.resultCount) comp) res r

variable {svc k m}

/-- What is in the response when every record is kept: as many as were asked for. -/
theorem records_fetchAsked (sound : NoDiagnostics svc k) (sreq : SearchRequest) (toget : Int)
    (comp : Option RecordComposition) {res : SearchResponse} (r : Running σ)
    (unanswered : res.records = none) :
    ((fetchAsked sz svc k (.sized 0x7fffffff 0x7fffffff) (sreq.asking toget comp) res
        r).2.records.map fun records => records.numberOfRecords 0) =
      if toget = 0 then none else some (toget.toNat : Int) := by
  unfold SearchRequest.asking
  by_cases none : toget = 0
  · rw [if_neg (not_not_intro none), if_pos none]
    simp only [fetchAsked, unanswered, Option.map_none]
  · rw [if_pos none, if_neg none]
    simp only [fetchAsked, packRecords_records sound, Option.map_some, Records.numberOfRecords,
      packRecords_keep sz svc k sound]

end Fetch

/-- **A search brings what it should exactly when** the conversions keep the count. -/
theorem piggybacked_iff (sz : Sizeof) (sreq : SearchRequest) {res : SearchResponse}
    (unanswered : res.records = none) :
    (∀ (σ : Type) (svc : Service σ) (k : Nat) (m : Retrieval) (r : Running σ),
      Piggybacked sz svc k m sreq res r) ↔ sreq.CountKept res.resultCount := by
  rw [← piggyback_eq_wanted_iff]
  constructor
  · intro all
    -- a service that has every record, and a reply that holds them all
    have sound : NoDiagnostics (.sized fun _ => 0) 0 := fun _ _ _ _ _ => rfl
    obtain ⟨comp, same⟩ :=
      all Unit (.sized fun _ => 0) 0 (.sized 0x7fffffff 0x7fffffff) { app := (), total := 0 }
    rw [fetchViaPiggyback_eq _ _ _ _ sreq _ unanswered] at same
    have picked := records_fetchAsked sz sound sreq
      (piggyback sreq res.resultCount).1 (piggyback sreq res.resultCount).2
      { app := (), total := 0 } unanswered
    have wanted := records_fetchAsked sz sound sreq (sreq.wanted res.resultCount) comp
      { app := (), total := 0 } unanswered
    rw [← same, picked] at wanted
    have nonneg : 0 ≤ sreq.wanted res.resultCount := by
      unfold SearchRequest.wanted
      split
      · omega
      · split <;> omega
    split at wanted
    · split at wanted
      · omega
      · cases wanted
    · split at wanted
      · cases wanted
      · have same_count := Option.some.inj wanted
        omega
  · intro picked σ svc k m r
    exact ⟨_, (fetchViaPiggyback_eq sz svc k m sreq r unanswered).trans (by rw [picked])⟩

/-- A search request with these bounds. -/
def SearchRequest.bounded (small large medium : Int) : SearchRequest where
  resultSetName := []
  smallSetUpperBound := small
  largeSetLowerBound := large
  mediumSetPresentNumber := medium
  smallSetElementSetNames := none
  mediumSetElementSetNames := none
  preferredRecordSyntax := none
  query := []

/-- A search response with this result count. -/
def SearchResponse.counted (resultCount : Int) : SearchResponse where
  resultCount := resultCount
  numberOfRecordsReturned := 0
  nextResultSetPosition := 0
  searchStatus := true
  resultSetStatus := none
  presentStatus := none
  records := none

/-- A medium set, of which five records come with the search. -/
theorem piggybacked_iff_medium : Piggybacked .lp64 (.sized fun _ => 200) 0 (.sized 1000 5000)
    (.bounded 10 100 5) (.counted 50) { app := (), total := 0 } := by
  have unanswered : (SearchResponse.counted 50).records = none := rfl
  have all := (piggybacked_iff .lp64 (.bounded 10 100 5) unanswered).mpr (by decide)
  exact all Unit _ _ _ _

/-- A result count of -1: `pack_records` is called, for -1 records. -/
theorem not_piggybacked :
    (fetchViaPiggyback .lp64 (.sized fun _ => 200) 0 (.sized 1000 5000) (.bounded 0 1 0)
      (.counted (-1)) { app := (), total := 0 }).2.records =
      some (.databaseOrSurDiagnostics []) ∧
    .odrMalloc 18446744073709551608 ∈
      (fetchViaPiggyback .lp64 (.sized fun _ => 200) 0 (.sized 1000 5000) (.bounded 0 1 0)
        (.counted (-1)) { app := (), total := 0 }).1.calls ∧
    ¬ Piggybacked .lp64 (.sized fun _ => 200) 0 (.sized 1000 5000) (.bounded 0 1 0)
      (.counted (-1)) { app := (), total := 0 } := by
  have called : (fetchViaPiggyback .lp64 (.sized fun _ => 200) 0 (.sized 1000 5000)
      (.bounded 0 1 0) (.counted (-1)) { app := (), total := 0 }).2.records =
      some (.databaseOrSurDiagnostics []) := by decide
  refine ⟨called, by decide, ?_⟩
  rintro ⟨comp, same⟩
  rw [same] at called
  cases called

end Yazpp
