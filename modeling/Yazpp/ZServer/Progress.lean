import Yazpp.ZServer.Pack

/-!
# When a client that keeps presenting gets somewhere

A reply has a record exactly when the total behind the first fetch, narrowed to an `int`, is within
the preferred size: `pack_records` counts everything that the response has allocated against the
first record, and ends the reply before it. A client that goes on from `nextResultSetPosition` gets
something for each of its positions, and in no more requests than it has positions, exactly when
that holds of each request that it makes.
-/

set_option autoImplicit false

namespace Yazpp

section Progress

variable {σ : Type} (sz : Sizeof) (svc : Service σ) (k : Nat) (m : Retrieval)

/-- A service that never gives a non-surrogate diagnostic for a record. -/
def NoDiagnostics (svc : Service σ) (k : Nat) : Prop :=
  ∀ app name position format comp,
    (svc.srRecord k app name position format comp).answer.diagnostics = none

/-- `odr_total` behind the first fetch of `pack_records`. -/
def firstTotal (req : PackRequest) (start : Int) (r : Running σ) : Nat :=
  (fetchRecord sz svc k m req start (packStart sz req r).run).run.total

/-- A client of a result set: what it wants is `remaining` records from `position` on. -/
structure Client where
  position : Int
  remaining : Nat
deriving DecidableEq, Repr

/-- The present request of a client: all that it still wants. -/
def Client.request (ask : PresentRequest) (c : Client) : PresentRequest :=
  { ask with resultSetStartPoint := c.position, numberOfRecordsRequested := c.remaining }

/-- The client behind a reply. Without a record it stays where it is. -/
def Client.read (c : Client) (res : PresentResponse) : Client :=
  match res.records with
  | some (.databaseOrSurDiagnostics (_ :: _)) =>
    { position := res.nextResultSetPosition
      remaining := c.remaining - res.numberOfRecordsReturned.toNat }
  | _ => c

/-- The reply that a client gets. -/
def Client.reply (ask : PresentRequest) (res : PresentResponse) (r : Running σ) (c : Client) :
    PresentResponse :=
  (fetchViaPresent sz svc k m (c.request ask) res r).2

/-- The client behind so many requests. The application, the total and the response each of them
starts from are given: other requests may come between. -/
def Client.after (ask : PresentRequest) (res : Nat → PresentResponse) (runs : Nat → Running σ) :
    Nat → Client → Client
  | 0, c => c
  | i + 1, c =>
    let c := c.after ask res runs i
    c.read (c.reply sz svc k m ask (res i) (runs i))

/-- The reply has a record or a surrogate diagnostic. -/
def Records.Some (records : Option Records) : Prop :=
  ∃ first rest, records = some (.databaseOrSurDiagnostics (first :: rest))

/-- The request fits: its count is positive as an `int`, and the total behind its first fetch is
within the preferred size. -/
def Client.Fits (ask : PresentRequest) (r : Running σ) (c : Client) : Prop :=
  0 < (c.request ask).packRequest.toget ∧
    toInt32 (firstTotal sz svc k m (c.request ask).packRequest (toInt32 c.position) r) ≤
      m.preferredMessageSize.value

variable {sz svc k m} {req : PackRequest}

theorem fetchRecord_diagnostics (sound : NoDiagnostics svc k) (recno : Int) (r : Running σ) :
    (fetchRecord sz svc k m req recno r).answer.diagnostics = none := by
  simp only [fetchRecord]
  split
  · rfl
  · exact sound ..

/-! ## One reply -/

/-- How far the loop gets: the records that were added, and `*next` behind the last of them. By
induction on the turns that are left. -/
theorem packLoop_count (sz : Sizeof) (svc : Service σ) (k : Nat) (m : Retrieval)
    (req : PackRequest) (left : Nat) (recno : Int) (p : Packing σ) :
    ∃ j ≤ left, (packLoop sz svc k m req left recno p).list.length = p.list.length + j ∧
      (packLoop sz svc k m req left recno p).next =
        if j = 0 then p.next else toInt32 (recno + j) := by
  induction left generalizing recno p with
  | zero => exact ⟨0, Nat.le_refl _, rfl, rfl⟩
  | succ left ih =>
    have turn := packOne_turn sz svc k m req recno p
    unfold packLoop
    cases hout : packOne sz svc k m req recno p with
    | mk q goes =>
      rw [hout] at turn
      have one_more : q.list.length = p.list.length + 1 → q.next = toInt32 (recno + 1) →
          ∃ j ≤ left + 1, (packLoop sz svc k m req left (toInt32 (recno + 1)) q).list.length =
              p.list.length + j ∧
            (packLoop sz svc k m req left (toInt32 (recno + 1)) q).next =
              if j = 0 then p.next else toInt32 (recno + j) := by
        intro hlist hnext
        obtain ⟨j, hj, hcount, hlast⟩ := ih (toInt32 (recno + 1)) q
        refine ⟨j + 1, by omega, by omega, ?_⟩
        rw [hlast, if_neg (Nat.succ_ne_zero j)]
        split
        · next hzero =>
          rw [hnext, hzero]
          rfl
        · rw [toInt32_add]
          congr 1
          omega
      cases turn with
      | failed _ hlist hnext => exact ⟨0, Nat.zero_le _, by rw [hlist]; rfl, hnext⟩
      | partly _ _ hlist hnext => exact ⟨0, Nat.zero_le _, by rw [hlist]; rfl, hnext⟩
      | kept _ _ hlist hnext => exact one_more (by rw [hlist, List.length_append]; rfl) hnext
      | replaced _ _ hlist hnext => exact one_more (by rw [hlist, List.length_append]; rfl) hnext

/-- A sound service leaves a list. -/
theorem packLoop_diagnostics (sound : NoDiagnostics svc k) {left : Nat} {recno : Int}
    {p : Packing σ} (list : p.diagnostics = none) :
    (packLoop sz svc k m req left recno p).diagnostics = none := by
  induction left generalizing recno p with
  | zero => exact list
  | succ left ih =>
    have turn := packOne_turn sz svc k m req recno p
    unfold packLoop
    cases hout : packOne sz svc k m req recno p with
    | mk q goes =>
      rw [hout] at turn
      cases turn with
      | failed hdiag =>
        have none := (fetchRecord_diagnostics sound ..).symm.trans hdiag
        cases none
      | partly _ _ _ _ hdiag => exact hdiag.trans list
      | kept _ _ _ _ hdiag => exact ih (hdiag.trans list)
      | replaced _ _ _ _ hdiag => exact ih (hdiag.trans list)

/-- **One list**: it has a record exactly when the total behind the first fetch is small enough. -/
theorem packRecords_some_iff (sized : 0 < m.preferredMessageSize.value)
    (sound : NoDiagnostics svc k) (asked : 0 < req.toget) (start : Int) (r : Running σ) :
    (packRecords sz svc k m req start r).list ≠ [] ↔
      toInt32 (firstTotal sz svc k m req start r) ≤ m.preferredMessageSize.value := by
  obtain ⟨left, hleft⟩ : ∃ left, req.toget.toNat = left + 1 :=
    Nat.exists_eq_add_one.mpr (by omega)
  have turn := packOne_turn sz svc k m req start (packStart sz req r)
  rw [show (packStart sz req r).dumped = 0 from rfl,
    packVerdict_eq (Int.le_of_lt sized)] at turn
  unfold packRecords
  rw [hleft]
  unfold packLoop firstTotal
  cases hout : packOne sz svc k m req start (packStart sz req r) with
  | mk q goes =>
    rw [hout] at turn
    cases turn with
    | failed hdiag =>
      have none := (fetchRecord_diagnostics sound ..).symm.trans hdiag
      cases none
    | partly _ hverdict hlist =>
      split at hverdict
      · cases hverdict
      · next h => exact iff_of_false (fun hne => hne hlist) h
    | kept _ hverdict hlist =>
      split at hverdict
      · next h =>
        have first := packLoop_prefix sz svc k m req left (toInt32 (start + 1)) q
        refine iff_of_true ?_ h
        intro hnil
        dsimp only at hnil
        rw [hnil, hlist] at first
        exact absurd (List.prefix_nil.mp first) (by simp)
      · cases hverdict
    | replaced _ hverdict =>
      split at hverdict <;> cases hverdict

/-- A sound service leaves a list. -/
theorem packRecords_records (sound : NoDiagnostics svc k) (start : Int) (r : Running σ) :
    (packRecords sz svc k m req start r).records =
      .databaseOrSurDiagnostics (packRecords sz svc k m req start r).list := by
  have list : (packRecords sz svc k m req start r).diagnostics = none :=
    packLoop_diagnostics sound rfl
  unfold Packing.records
  rw [list]
  rfl

/-- The list is no longer than asked for, and `*next` is the position behind it. -/
theorem packRecords_count (sz : Sizeof) (svc : Service σ) (k : Nat) (m : Retrieval)
    (req : PackRequest) (start : Int) (r : Running σ) :
    (packRecords sz svc k m req start r).list.length ≤ req.toget.toNat ∧
      ((packRecords sz svc k m req start r).list ≠ [] →
        (packRecords sz svc k m req start r).next =
          toInt32 (start + (packRecords sz svc k m req start r).list.length)) := by
  obtain ⟨j, hj, hcount, hnext⟩ :=
    packLoop_count sz svc k m req req.toget.toNat start (packStart sz req r)
  have hlength : (packRecords sz svc k m req start r).list.length = j :=
    hcount.trans (Nat.zero_add j)
  rw [hlength]
  refine ⟨hj, ?_⟩
  intro hne
  have hpos : j ≠ 0 := by
    rintro rfl
    exact hne (List.length_eq_zero_iff.mp hlength)
  rw [if_neg hpos] at hnext
  exact hnext

/-! ## A client's requests -/

variable {ask : PresentRequest} {res : PresentResponse} {r : Running σ} {c : Client}

/-- A client is not given more than it wants. -/
theorem request_toget_le (ask : PresentRequest) (c : Client) :
    (c.request ask).packRequest.toget ≤ c.remaining := by
  simp only [PresentRequest.packRequest, Client.request]
  exact toInt32_le (Int.natCast_nonneg c.remaining)

/-- What a client gets is what `pack_records` makes of its position. -/
theorem reply_eq (sz : Sizeof) (svc : Service σ) (k : Nat) (m : Retrieval) (ask : PresentRequest)
    (res : PresentResponse) (r : Running σ) (c : Client) :
    ∃ p, p = packRecords sz svc k m (c.request ask).packRequest (toInt32 c.position) r ∧
      c.reply sz svc k m ask res r = { res with
        nextResultSetPosition := p.next
        presentStatus := p.pres
        records := some p.records
        numberOfRecordsReturned := p.records.numberOfRecords res.numberOfRecordsReturned } := by
  refine ⟨_, rfl, ?_⟩
  have hpos : (c.request ask).resultSetStartPoint = c.position := rfl
  simp only [Client.reply, fetchViaPresent, hpos]

/-- What a reply to a client holds, when the service is sound: as many records as are counted in
it, no more than asked for, and the position behind the last of them. -/
theorem reply_list (sz : Sizeof) (m : Retrieval) (sound : NoDiagnostics svc k)
    (ask : PresentRequest) (res : PresentResponse) (r : Running σ) (c : Client) :
    ∃ list : List NamePlusRecord,
      (c.reply sz svc k m ask res r).records = some (.databaseOrSurDiagnostics list) ∧
      (c.reply sz svc k m ask res r).numberOfRecordsReturned = list.length ∧
      list.length ≤ c.remaining ∧
      (list ≠ [] → (c.reply sz svc k m ask res r).nextResultSetPosition =
        toInt32 (c.position + list.length)) ∧
      (0 < m.preferredMessageSize.value → (list ≠ [] ↔ c.Fits sz svc k m ask r)) := by
  obtain ⟨p, hp, hreply⟩ := reply_eq sz svc k m ask res r c
  have htoget := request_toget_le ask c
  have hrecords : p.records = .databaseOrSurDiagnostics p.list :=
    hp ▸ packRecords_records sound _ _
  have hcount : p.list.length ≤ (c.request ask).packRequest.toget.toNat ∧
      (p.list ≠ [] → p.next = toInt32 (toInt32 c.position + p.list.length)) :=
    hp ▸ packRecords_count ..
  have hfits : 0 < m.preferredMessageSize.value → 0 < (c.request ask).packRequest.toget →
      (p.list ≠ [] ↔ toInt32 (firstTotal sz svc k m (c.request ask).packRequest
        (toInt32 c.position) r) ≤ m.preferredMessageSize.value) := fun sized asked =>
    hp ▸ packRecords_some_iff sized sound asked _ _
  rw [hreply]
  unfold Client.Fits
  refine ⟨p.list, congrArg some hrecords, ?_, ?_, ?_, ?_⟩
  · dsimp only
    rw [hrecords]
    rfl
  · omega
  · intro hne
    have next := hcount.2 hne
    rw [toInt32_add] at next
    exact next
  · intro sized
    by_cases asked : 0 < (c.request ask).packRequest.toget
    · exact (hfits sized asked).trans ⟨fun h => ⟨asked, h⟩, fun h => h.2⟩
    · refine iff_of_false ?_ fun h => asked h.1
      intro hne
      have hpos := List.length_pos_iff.mpr hne
      omega

/-- A reply without a record. -/
theorem read_empty {c : Client} {res : PresentResponse}
    (empty : res.records = some (.databaseOrSurDiagnostics [])) : c.read res = c := by
  unfold Client.read
  rw [empty]

/-- A reply with a record. -/
theorem read_some {c : Client} {res : PresentResponse} {first : NamePlusRecord}
    {rest : List NamePlusRecord}
    (some : res.records = some (.databaseOrSurDiagnostics (first :: rest))) :
    (c.read res).position = res.nextResultSetPosition ∧
      (c.read res).remaining = c.remaining - res.numberOfRecordsReturned.toNat := by
  unfold Client.read
  rw [some]
  exact ⟨rfl, rfl⟩

/-- One request: with a record in its reply a client wants less and goes on behind it, and without
one it stays. Either way what it has had and where it stands belong together. -/
theorem read_reply (sz : Sizeof) (m : Retrieval) (sound : NoDiagnostics svc k)
    (ask : PresentRequest) (res : PresentResponse) (r : Running σ) (c : Client) :
    (Records.Some (c.reply sz svc k m ask res r).records →
      (c.read (c.reply sz svc k m ask res r)).remaining < c.remaining) ∧
    (c.read (c.reply sz svc k m ask res r)).remaining ≤ c.remaining ∧
    toInt32 (c.read (c.reply sz svc k m ask res r)).position =
      toInt32 (c.position + (c.remaining - (c.read (c.reply sz svc k m ask res r)).remaining)) := by
  obtain ⟨list, hrecords, hnumber, hlength, hnext, -⟩ :=
    reply_list sz m sound ask res r c
  generalize c.reply sz svc k m ask res r = reply at *
  cases list with
  | nil =>
    rw [read_empty hrecords]
    refine ⟨?_, Nat.le_refl _, ?_⟩
    · rintro ⟨first, rest, hsome⟩
      cases hrecords.symm.trans hsome
    · rw [Int.sub_self, Int.add_zero]
  | cons first rest =>
    obtain ⟨hposition, hremaining⟩ := read_some (c := c) hrecords
    have hpos : 0 < (first :: rest).length := Nat.succ_pos _
    rw [hnumber, Int.toNat_natCast] at hremaining
    refine ⟨fun _ => by omega, by omega, ?_⟩
    have hback : (c.remaining : Int) - (c.read reply).remaining = (first :: rest).length := by
      omega
    rw [hposition, hnext (List.cons_ne_nil _ _), toInt32_idem, hback]

/-- A record is in the reply exactly when the request fits. -/
theorem reply_some_iff (sized : 0 < m.preferredMessageSize.value) (sound : NoDiagnostics svc k)
    (ask : PresentRequest) (res : PresentResponse) (r : Running σ) (c : Client) :
    Records.Some (c.reply sz svc k m ask res r).records ↔ c.Fits sz svc k m ask r := by
  obtain ⟨list, hrecords, -, -, -, hfits⟩ := reply_list sz m sound ask res r c
  rw [← hfits sized, hrecords]
  constructor
  · rintro ⟨first, rest, hsome⟩
    cases hsome
    exact List.cons_ne_nil _ _
  · intro hne
    obtain ⟨first, rest, rfl⟩ := List.exists_cons_of_ne_nil hne
    exact ⟨first, rest, rfl⟩

/-! ## A series of requests -/

/-- A client that keeps presenting gets everything: each of its requests brings something, after as
many requests as it wanted records it wants no more, and at every point it has had everything up to
the position it goes on from. -/
structure GetsAll (sz : Sizeof) (svc : Service σ) (k : Nat) (m : Retrieval) (ask : PresentRequest)
    (res : Nat → PresentResponse) (runs : Nat → Running σ) (c : Client) : Prop where
  something : ∀ i, 0 < (c.after sz svc k m ask res runs i).remaining →
    Records.Some ((c.after sz svc k m ask res runs i).reply sz svc k m ask (res i) (runs i)).records
  finished : (c.after sz svc k m ask res runs c.remaining).remaining = 0
  contiguous : ∀ i, toInt32 (c.after sz svc k m ask res runs i).position =
    toInt32 (c.position + (c.remaining - (c.after sz svc k m ask res runs i).remaining))

/-- A client never loses its place. By induction on the requests. -/
theorem after_position (sound : NoDiagnostics svc k) (ask : PresentRequest)
    (res : Nat → PresentResponse) (runs : Nat → Running σ) (c : Client) (i : Nat) :
    toInt32 (c.after sz svc k m ask res runs i).position =
      toInt32 (c.position + (c.remaining - (c.after sz svc k m ask res runs i).remaining)) := by
  induction i with
  | zero =>
    have start : c.after sz svc k m ask res runs 0 = c := rfl
    rw [start, Int.sub_self, Int.add_zero]
  | succ i ih =>
    obtain ⟨-, fewer, moved⟩ := read_reply sz m sound ask (res i) (runs i)
      (c.after sz svc k m ask res runs i)
    have next : c.after sz svc k m ask res runs (i + 1) = (c.after sz svc k m ask res runs i).read
        ((c.after sz svc k m ask res runs i).reply sz svc k m ask (res i) (runs i)) := rfl
    rw [next]
    generalize (c.after sz svc k m ask res runs i).reply sz svc k m ask (res i) (runs i) = reply
      at *
    generalize c.after sz svc k m ask res runs i = d at *
    have sum : c.position + ((c.remaining : Int) - d.remaining) +
        (d.remaining - (d.read reply).remaining) =
        c.position + (c.remaining - (d.read reply).remaining) := by omega
    rw [moved, ← toInt32_add, ih, toInt32_add, sum]

/-- While every request brings something, a client wants one record less behind each. -/
theorem after_remaining (sound : NoDiagnostics svc k) {ask : PresentRequest}
    {res : Nat → PresentResponse} {runs : Nat → Running σ} {c : Client}
    (something : ∀ i, 0 < (c.after sz svc k m ask res runs i).remaining → Records.Some
      ((c.after sz svc k m ask res runs i).reply sz svc k m ask (res i) (runs i)).records)
    (i : Nat) : (c.after sz svc k m ask res runs i).remaining ≤ c.remaining - i := by
  induction i with
  | zero => exact Nat.le_refl _
  | succ i ih =>
    obtain ⟨less, fewer, -⟩ := read_reply sz m sound ask (res i) (runs i)
      (c.after sz svc k m ask res runs i)
    have next : c.after sz svc k m ask res runs (i + 1) = (c.after sz svc k m ask res runs i).read
        ((c.after sz svc k m ask res runs i).reply sz svc k m ask (res i) (runs i)) := rfl
    rw [next]
    by_cases wants : 0 < (c.after sz svc k m ask res runs i).remaining
    · have := less (something i wants)
      omega
    · omega

/-- **Progress, exactly when**: a list of `pack_records` has a record when, and only when, the total
behind the first fetch is within the preferred size; and a client that keeps presenting gets
everything when, and only when, each of its requests fits. -/
theorem progress_iff (sz : Sizeof) (svc : Service σ) (k : Nat) (m : Retrieval)
    (sized : 0 < m.preferredMessageSize.value) (sound : NoDiagnostics svc k) :
    (∀ (req : PackRequest) (start : Int) (r : Running σ), 0 < req.toget →
      (Records.Some (some (packRecords sz svc k m req start r).records) ↔
        toInt32 (firstTotal sz svc k m req start r) ≤ m.preferredMessageSize.value)) ∧
    ∀ (ask : PresentRequest) (res : Nat → PresentResponse) (runs : Nat → Running σ) (c : Client),
      GetsAll sz svc k m ask res runs c ↔
        ∀ i, 0 < (c.after sz svc k m ask res runs i).remaining →
          (c.after sz svc k m ask res runs i).Fits sz svc k m ask (runs i) := by
  constructor
  · intro req start r asked
    rw [packRecords_records sound, ← packRecords_some_iff sized sound asked]
    constructor
    · rintro ⟨first, rest, hsome⟩ hnil
      rw [hnil] at hsome
      cases hsome
    · intro hne
      obtain ⟨first, rest, hlist⟩ := List.exists_cons_of_ne_nil hne
      exact ⟨first, rest, by rw [hlist]⟩
  intro ask res runs c
  constructor
  · intro all i wants
    exact (reply_some_iff sized sound ..).mp (all.something i wants)
  · intro fits
    have something := fun i wants =>
      (reply_some_iff sized sound ask (res i) (runs i) _).mpr (fits i wants)
    have wanted := after_remaining sound something c.remaining
    exact ⟨something, by omega, after_position sound ask res runs c⟩

end Progress

/-- Three records that go into one reply. -/
theorem progress_iff_three : ∃ m : Retrieval, m.preferredMessageSize.value = 1000 ∧
    m.maximumRecordSize.value = 5000 ∧
    Records.Some (some (packRecords .lp64 (.sized fun _ => 200) 0 m
      { resultSetName := [], toget := 3, comp := none, format := none } 1
      { app := (), total := 0 }).records) := by
  refine ⟨Retrieval.sized 1000 5000, rfl, rfl, ?_⟩
  obtain ⟨one, -⟩ := progress_iff .lp64 (.sized fun _ => 200) 0 (.sized 1000 5000) (by decide)
    fun _ _ _ _ _ => rfl
  exact (one _ 1 { app := (), total := 0 } (by decide)).mpr (by decide)

/-- One record larger than the preferred size and smaller than the maximum: the client that asks for
it gets an empty partial reply, and again for each request that it makes. -/
theorem progress_none : ∃ (m : Retrieval) (c : Client) (ask : PresentRequest)
    (res : PresentResponse), m.preferredMessageSize.value = 1000 ∧
    m.maximumRecordSize.value = 5000 ∧ c.remaining = 1 ∧
    (packRecords .lp64 (.sized fun _ => 2000) 0 m (c.request ask).packRequest 1
      { app := (), total := 0 }).records = .databaseOrSurDiagnostics [] ∧
    ∀ i, c.after .lp64 (.sized fun _ => 2000) 0 m ask (fun _ => res)
      (fun _ => { app := (), total := 0 }) i = c := by
  refine ⟨.sized 1000 5000, { position := 1, remaining := 1 },
    { resultSetId := [], resultSetStartPoint := 0, numberOfRecordsRequested := 0
      recordComposition := none, preferredRecordSyntax := none },
    { numberOfRecordsReturned := 0, nextResultSetPosition := 0, presentStatus := 0
      records := none }, rfl, rfl, rfl, by decide, ?_⟩
  intro i
  induction i with
  | zero => rfl
  | succ i ih =>
    unfold Client.after
    rw [ih]
    decide

end Yazpp
