import Yazpp.RecordCache.Model

/-!
# What is in the cache, and what a lookup does with it

The entries are the copies of what was added since the last `clear` (`filed`) and not refused, the
newest first (`stored_run`). A lookup is told by its searches: the first loop passes a position when
its search finds an entry, and comes to an end unless a search that it reaches faults
(`testLoop_returns_iff`); when it has passed them all, the second loop finds the same entries again,
and cannot fail (`buildLoop_eq`).
-/

set_option autoImplicit false

namespace Yazpp

open Yazpp.Lib

/-! ## What is in the cache -/

/-- A record that `add` was given, with its offset and its composition. -/
structure Filing where
  offset : Int
  record : CacheRecord
  comp : Option Composition
deriving DecidableEq, Repr

/-- The records of one `add`, from `i` on. -/
def filings (start : Int) (comp : Option Composition) : Nat → List CacheRecord → List Filing
  | _, [] => []
  | i, record :: records =>
    { offset := toInt32 (i + start), record := record, comp := comp } ::
      filings start comp (i + 1) records

/-- What an operation makes of the records that have been filed. -/
def fileEvent (filed : List Filing) : CacheEvent → List Filing
  | .filed npr start comp => filed ++ filings start comp 0 npr
  | .refused => filed
  | .cleared => []

/-- The records filed since the last `clear`, oldest first. -/
def filed (h : List CacheEvent) : List Filing := h.foldl fileEvent []

/-- The entry of a record that was filed. -/
def Filing.entry (yaz : Yaz) (f : Filing) : CacheEntry :=
  RecordCache.fileOne yaz f.offset f.record f.comp

namespace RecordCache

variable {yaz : Yaz}

/-- The cache holds what was filed, the newest first. -/
def Stored (yaz : Yaz) (c : RecordCache) (h : List CacheEvent) : Prop :=
  c.entries = ((filed h).map (Filing.entry yaz)).reverse

theorem addLoop_eq (start : Int) (comp : Option Composition) (i : Nat) (npr : List CacheRecord)
    (entries : List CacheEntry) : addLoop yaz start comp i npr entries =
      ((filings start comp i npr).map (Filing.entry yaz)).reverse ++ entries := by
  induction npr generalizing i entries with
  | nil => rfl
  | cons record records ih =>
    rw [addLoop, ih, filings, List.map_cons, List.reverse_cons, List.append_assoc,
      List.singleton_append]
    rfl

/-- `add` files the records or refuses them. -/
theorem stored_add {c : RecordCache} {h : List CacheEvent} (stored : Stored yaz c h)
    (npr : List CacheRecord) (start : Int) (comp : Option Composition) (grown : Nat) :
    Stored yaz (c.add yaz npr start comp grown) (h ++ [c.addEvent npr start comp]) := by
  unfold Stored at stored ⊢
  unfold add addEvent filed
  rw [List.foldl_append]
  split
  · exact stored
  · show addLoop yaz start comp 0 npr c.entries =
      ((filed h ++ filings start comp 0 npr).map (Filing.entry yaz)).reverse
    rw [addLoop_eq, stored, List.map_append, List.reverse_append]

/-- **One operation** keeps what is stored in step with the history. -/
theorem stored_step {c c' : RecordCache} {h o : List CacheEvent} {i : CacheInput}
    (stored : Stored yaz c h) (step : (recordCache yaz).step c i = some (c', o)) :
    Stored yaz c' (h ++ o) := by
  change c.step yaz i = some (c', o) at step
  cases i with
  | add npr start comp grown =>
    obtain ⟨rfl, rfl⟩ := Prod.mk.inj (Option.some.inj step)
    exact stored_add stored npr start comp grown
  | addHits npr start hits compGrown grown =>
    obtain ⟨rfl, rfl⟩ := Prod.mk.inj (Option.some.inj step)
    have roomier : Stored yaz { c with nmemTotal := c.nmemTotal + compGrown } h := stored
    exact stored_add roomier npr start (c.compFor hits) grown
  | clear =>
    obtain ⟨rfl, rfl⟩ := Prod.mk.inj (Option.some.inj step)
    unfold Stored filed
    rw [List.foldl_append]
    rfl
  | copySearchRequest | copyPresentRequest | setMaxSize =>
    obtain ⟨rfl, rfl⟩ := Prod.mk.inj (Option.some.inj step)
    rw [List.append_nil]
    exact stored

/-- A cache when it is made. -/
def Born (c : RecordCache) (h : List CacheEvent) : Prop := c = new ∧ h = []

theorem stored_run {is : List CacheInput} {c : RecordCache} {h : List CacheEvent}
    (run : (recordCache yaz).Run Born is c h) : Stored yaz c h := by
  refine run.invariant (Stored yaz) ?_ fun _ _ _ _ _ stored step => stored_step stored step
  rintro _ _ ⟨rfl, rfl⟩
  rfl

end RecordCache

/-! ## One comparison -/

/-- The record of the entry is asked for. -/
def Asked (yaz : Yaz) (recordSyntax : Option Oid) (comp : Option Composition) (offset : Int)
    (e : CacheEntry) : Prop :=
  recordSyntax ≠ none ∧ e.offset = offset ∧
    RecordCache.sameOctets (yaz.encode comp) (yaz.encode e.comp) = true

/-- There is no record in it, or a database record without a reference. -/
def Incomplete (e : CacheEntry) : Prop :=
  e.record = none ∨ ∃ record r, e.record = some record ∧ record.content = .databaseRecord r ∧
    r.directReference = none

/-- The entry matches. -/
def Matches (yaz : Yaz) (recordSyntax : Option Oid) (comp : Option Composition) (offset : Int)
    (e : CacheEntry) : Prop :=
  Asked yaz recordSyntax comp offset e ∧ ∃ record r oid, e.record = some record ∧
    record.content = .databaseRecord r ∧ r.directReference = some oid ∧ recordSyntax = some oid

namespace RecordCache

variable {yaz : Yaz} {recordSyntax : Option Oid} {comp : Option Composition} {offset : Int}

theorem compareOid_error_iff {e : CacheEntry} {oid : Oid} :
    (∃ fault, compareOid e oid = .error fault) ↔ Incomplete e := by
  unfold compareOid Incomplete
  cases e.record with
  | none => exact iff_of_true ⟨_, rfl⟩ (.inl rfl)
  | some record =>
    obtain ⟨databaseName, content⟩ := record
    cases content with
    | other octets =>
      refine iff_of_false (fun ⟨_, h⟩ => by cases h) ?_
      rintro (h | ⟨_, _, h, hr, -⟩)
      · cases h
      · cases h
        cases hr
    | databaseRecord r =>
      obtain ⟨reference, encoding⟩ := r
      cases reference with
      | none => exact iff_of_true ⟨_, rfl⟩ (.inr ⟨_, _, rfl, rfl, rfl⟩)
      | some oid' =>
        refine iff_of_false (fun ⟨_, h⟩ => by cases h) ?_
        rintro (h | ⟨_, _, h, hr, hoid⟩)
        · cases h
        · cases h
          cases hr
          cases hoid

theorem compareOid_true_iff {e : CacheEntry} {oid : Oid} : compareOid e oid = .ok true ↔
    ∃ record r, e.record = some record ∧ record.content = .databaseRecord r ∧
      r.directReference = some oid := by
  unfold compareOid
  cases e.record with
  | none => exact iff_of_false (fun h => by cases h) fun ⟨_, _, h, _⟩ => by cases h
  | some record =>
    obtain ⟨databaseName, content⟩ := record
    cases content with
    | other octets =>
      refine iff_of_false (fun h => by cases h) fun ⟨_, _, h, hr, _⟩ => ?_
      cases h
      cases hr
    | databaseRecord r =>
      obtain ⟨reference, encoding⟩ := r
      cases reference with
      | none =>
        refine iff_of_false (fun h => by cases h) fun ⟨_, _, h, hr, hoid⟩ => ?_
        cases h
        cases hr
        cases hoid
      | some oid' =>
        dsimp only
        rw [Except.ok.injEq, decide_eq_true_iff]
        constructor
        · rintro rfl
          exact ⟨_, _, rfl, rfl, rfl⟩
        · rintro ⟨_, _, h, hr, hoid⟩
          cases h
          cases hr
          exact Option.some.inj hoid

/-- An entry that is not asked for is not looked at. -/
theorem matchEntry_eq (e : CacheEntry) : matchEntry yaz recordSyntax offset comp e =
    match recordSyntax with
    | some oid =>
      if e.offset = offset ∧ sameOctets (yaz.encode comp) (yaz.encode e.comp) = true then
        compareOid e oid
      else .ok false
    | none => .ok false := by
  unfold matchEntry
  cases recordSyntax with
  | none => exact ite_self _
  | some oid =>
    by_cases octets : sameOctets (yaz.encode comp) (yaz.encode e.comp) = true
    · simp only [octets, if_true, and_true]
    · dsimp only
      rw [if_neg octets, if_neg fun h => octets h.2]

/-- A search faults on an entry that is asked for without there being what it is asked for. -/
theorem matchEntry_error_iff {e : CacheEntry} :
    (∃ fault, matchEntry yaz recordSyntax offset comp e = .error fault) ↔
      Asked yaz recordSyntax comp offset e ∧ Incomplete e := by
  rw [matchEntry_eq]
  unfold Asked
  cases recordSyntax with
  | none => exact iff_of_false (fun ⟨_, h⟩ => by cases h) fun h => h.1.1 rfl
  | some oid =>
    dsimp only
    split
    · next asked => rw [compareOid_error_iff, and_iff_right ⟨fun h => (by cases h), asked⟩]
    · next other => exact iff_of_false (fun ⟨_, h⟩ => by cases h) fun h => other h.1.2

theorem matchEntry_true_iff {e : CacheEntry} :
    matchEntry yaz recordSyntax offset comp e = .ok true ↔
      Matches yaz recordSyntax comp offset e := by
  rw [matchEntry_eq]
  unfold Matches Asked
  cases recordSyntax with
  | none => exact iff_of_false (fun h => by cases h) fun h => h.1.1 rfl
  | some oid =>
    dsimp only
    split
    · next asked =>
      rw [compareOid_true_iff, and_iff_right ⟨fun h => (by cases h), asked⟩]
      constructor
      · rintro ⟨record, r, hrecord, hcontent, hoid⟩
        exact ⟨record, r, oid, hrecord, hcontent, hoid, rfl⟩
      · rintro ⟨record, r, oid', hrecord, hcontent, hoid, hsyntax⟩
        cases hsyntax
        exact ⟨record, r, hrecord, hcontent, hoid⟩
    · next other => exact iff_of_false (fun h => by cases h) fun h => other h.1.2

theorem findEntry_record {c : RecordCache} {entry : CacheEntry}
    (found : c.findEntry yaz recordSyntax offset comp = .ok (some entry)) :
    ∃ record, entry.record = some record := by
  obtain ⟨-, -, -, matched, -⟩ := search_eq_some.mp found
  obtain ⟨-, record, -, -, hrecord, -⟩ := matchEntry_true_iff.mp matched
  exact ⟨record, hrecord⟩

end RecordCache

/-! ## What a lookup does -/

namespace RecordCache

variable {yaz : Yaz} {start : Int} {recordSyntax : Option Oid} {comp : Option Composition}
  {c : RecordCache}

/-- The search of a position. -/
def searched (yaz : Yaz) (start : Int) (recordSyntax : Option Oid) (comp : Option Composition)
    (c : RecordCache) (i : Nat) : Except CacheFault (Option CacheEntry) :=
  c.findEntry yaz recordSyntax (toInt32 (start + i)) comp

/-- The search of a position finds an entry. -/
def Passes (yaz : Yaz) (start : Int) (recordSyntax : Option Oid) (comp : Option Composition)
    (c : RecordCache) (i : Nat) : Prop :=
  ∃ entry, c.searched yaz start recordSyntax comp i = .ok (some entry)

/-- What holds of a position, and of those behind it. -/
theorem forall_from {P : Nat → Prop} {i left : Nat} :
    (∀ j, i ≤ j → j < i + (left + 1) → P j) ↔ P i ∧ ∀ j, i + 1 ≤ j → j < i + 1 + left → P j := by
  constructor
  · intro all
    exact ⟨all i (Nat.le_refl i) (by omega), fun j lower upper => all j (by omega) (by omega)⟩
  · rintro ⟨first, rest⟩ j lower upper
    rcases Nat.eq_or_lt_of_le lower with rfl | lower
    · exact first
    · exact rest j lower (by omega)

theorem testLoop_succ (left i : Nat) :
    testLoop yaz start recordSyntax comp c (left + 1) i =
      match c.searched yaz start recordSyntax comp i with
      | .error fault => .error fault
      | .ok none => .ok false
      | .ok (some _) => testLoop yaz start recordSyntax comp c left (i + 1) := rfl

/-- The first loop passes when every search finds an entry. -/
theorem testLoop_eq_true {left i : Nat} : testLoop yaz start recordSyntax comp c left i = .ok true ↔
    ∀ j, i ≤ j → j < i + left → Passes yaz start recordSyntax comp c j := by
  induction left generalizing i with
  | zero => exact iff_of_true rfl fun j lower upper => absurd upper (Nat.not_lt.mpr lower)
  | succ left ih =>
    rw [forall_from, ← ih, testLoop_succ, Passes]
    cases c.searched yaz start recordSyntax comp i with
    | error fault => exact iff_of_false (fun h => by cases h) fun h => by cases h.1.choose_spec
    | ok entry =>
      cases entry with
      | none => exact iff_of_false (fun h => by cases h) fun h => by cases h.1.choose_spec
      | some entry => exact (and_iff_right ⟨entry, rfl⟩).symm

/-- **The first loop returns** when every search that it reaches does: those behind positions that
have all passed. -/
theorem testLoop_returns_iff {left i : Nat} :
    (∃ passed, testLoop yaz start recordSyntax comp c left i = .ok passed) ↔
      ∀ j, i ≤ j → j < i + left →
        (∀ k, i ≤ k → k < j → Passes yaz start recordSyntax comp c k) →
        ∃ found, c.searched yaz start recordSyntax comp j = .ok found := by
  induction left generalizing i with
  | zero => exact iff_of_true ⟨true, rfl⟩ fun j lower upper => absurd upper (Nat.not_lt.mpr lower)
  | succ left ih =>
    rw [forall_from, testLoop_succ]
    have first_reached : ∀ k, i ≤ k → k < i → Passes yaz start recordSyntax comp c k :=
      fun k lower upper => absurd upper (Nat.not_lt.mpr lower)
    cases hfirst : c.searched yaz start recordSyntax comp i with
    | error fault =>
      refine iff_of_false (fun h => by cases h.choose_spec) fun h => ?_
      cases (h.1 first_reached).choose_spec
    | ok entry =>
      cases entry with
      | none =>
        refine iff_of_true ⟨false, rfl⟩ ⟨fun _ => ⟨none, rfl⟩, fun j lower _ reached => ?_⟩
        have passed := (reached i (Nat.le_refl i) lower).choose_spec
        cases hfirst.symm.trans passed
      | some entry =>
        have passed : Passes yaz start recordSyntax comp c i := ⟨entry, hfirst⟩
        refine Iff.trans ih ⟨fun rest => ⟨fun _ => ⟨some entry, rfl⟩, ?_⟩, fun all => ?_⟩
        · intro j lower upper reached
          exact rest j lower upper fun k low up => reached k (by omega) up
        · intro j lower upper reached
          refine all.2 j lower upper fun k low up => ?_
          rcases Nat.eq_or_lt_of_le low with rfl | low
          · exact passed
          · exact reached k low up

/-- **The second loop** finds the entries again, and puts their records one behind the other. -/
theorem buildLoop_eq {left i : Nat} (records : List CacheRecord)
    (passed : ∀ j, i ≤ j → j < i + left → Passes yaz start recordSyntax comp c j) :
    ∃ list : List CacheRecord,
      buildLoop yaz start recordSyntax comp c left i records = .ok (true, records ++ list) ∧
      list.length = left ∧
      ∀ (j : Nat) record, list[j]? = some record → ∃ entry,
        c.searched yaz start recordSyntax comp (i + j) = .ok (some entry) ∧
          entry.record = some record := by
  induction left generalizing i records with
  | zero =>
    refine ⟨[], ?_, rfl, fun j record h => by cases h⟩
    rw [List.append_nil]
    rfl
  | succ left ih =>
    obtain ⟨⟨entry, found⟩, rest⟩ := forall_from.mp passed
    obtain ⟨record, hrecord⟩ := findEntry_record found
    obtain ⟨list, built, length, each⟩ := ih (records ++ [record]) rest
    refine ⟨record :: list, ?_, congrArg (· + 1) length, fun j r hr => ?_⟩
    · have once : buildLoop yaz start recordSyntax comp c (left + 1) i records =
          buildLoop yaz start recordSyntax comp c left (i + 1) (records ++ [record]) := by
        unfold searched at found
        rw [buildLoop, found]
        dsimp only
        rw [hrecord]
      rw [once, built, List.append_assoc, List.singleton_append]
    · cases j with
      | zero =>
        cases hr
        exact ⟨entry, found, hrecord⟩
      | succ j =>
        obtain ⟨later, hlater, hr⟩ := each j r hr
        rw [Nat.add_right_comm, Nat.add_assoc] at hlater
        exact ⟨later, hlater, hr⟩

/-- A lookup that has every position. -/
theorem lookup_passed {num : Int}
    (passed : ∀ j < num.toNat, Passes yaz start recordSyntax comp c j) :
    ∃ list : List CacheRecord,
      c.lookup yaz start num recordSyntax comp = .ok { found := true, npr := some (num, list) } ∧
      list.length = num.toNat ∧
      ∀ (j : Nat) record, list[j]? = some record → ∃ entry,
        c.searched yaz start recordSyntax comp j = .ok (some entry) ∧
          entry.record = some record := by
  have all : ∀ j, 0 ≤ j → j < 0 + num.toNat → Passes yaz start recordSyntax comp c j :=
    fun j _ upper => passed j (by omega)
  obtain ⟨list, built, length, each⟩ := buildLoop_eq [] all
  refine ⟨list, ?_, length, fun j record h => ?_⟩
  · rw [lookup, testLoop_eq_true.mpr all]
    dsimp only
    rw [built, List.nil_append]
  · have entry := each j record h
    rwa [Nat.zero_add] at entry

/-- A lookup that has not, and comes to an end. -/
theorem lookup_not_passed {num : Int} (returns : ∃ passed,
      testLoop yaz start recordSyntax comp c num.toNat 0 = .ok passed)
    (missing : ¬ ∀ j < num.toNat, Passes yaz start recordSyntax comp c j) :
    c.lookup yaz start num recordSyntax comp = .ok { found := false } := by
  obtain ⟨passed, htest⟩ := returns
  cases passed with
  | true =>
    refine absurd (fun j hj => ?_) missing
    exact testLoop_eq_true.mp htest j (Nat.zero_le j) (by omega)
  | false => rw [lookup, htest]

/-- **A lookup returns** exactly when its first loop does. -/
theorem lookup_returns_iff {num : Int} :
    (∃ looked, c.lookup yaz start num recordSyntax comp = .ok looked) ↔
      ∃ passed, testLoop yaz start recordSyntax comp c num.toNat 0 = .ok passed := by
  constructor
  · rintro ⟨looked, h⟩
    cases htest : testLoop yaz start recordSyntax comp c num.toNat 0 with
    | error fault =>
      rw [lookup, htest] at h
      cases h
    | ok passed => exact ⟨passed, rfl⟩
  · intro returns
    by_cases passed : ∀ j < num.toNat, Passes yaz start recordSyntax comp c j
    · obtain ⟨list, h, -⟩ := lookup_passed passed
      exact ⟨_, h⟩
    · exact ⟨_, lookup_not_passed returns passed⟩

end RecordCache

/-! ## A YAZ -/

/-- A YAZ that encodes the pointers that are set, and copies what it can encode: a choice whose
pointer is null is encoded as nothing, and its copy is none. -/
def Yaz.plain : Yaz where
  encode
    | some (.simple (some elementSetNames)) => some (1 :: elementSetNames)
    | some (.complex spec) => some (2 :: spec)
    | some (.simple none) => none
    | none => none
  cloneRecord := some
  cloneComp
    | some (.simple none) => none
    | comp => comp
  copySearch := some
  copyPresent := some

/-- A MARC record. -/
def CacheRecord.marc (octet : UInt8) : CacheRecord where
  databaseName := none
  content := .databaseRecord
    { directReference := some [1, 2, 840, 10003, 5, 10], encoding := [octet] }

end Yazpp
