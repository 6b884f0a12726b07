import Yazpp.RecordCache.Spec

/-!
# A lookup is sound and complete

When the records in the cache were copied faithfully and have a reference each, no search faults,
and what it finds is the newest record that serves the position (`searched_newest`). So a lookup
answers with the newest records for its positions when each position has one, and leaves everything
as it is when one has none (`lookup_complete`).
-/

set_option autoImplicit false

namespace Yazpp

open Yazpp.Lib

/-- A record that was filed serves a position: it has the offset, it is a database record of the
syntax, and its composition has the same octets. -/
def Serves (yaz : Yaz) (recordSyntax : Option Oid) (comp : Option Composition) (offset : Int)
    (f : Filing) : Prop :=
  f.offset = offset ∧
  (∃ r oid, f.record.content = .databaseRecord r ∧ r.directReference = some oid ∧
    recordSyntax = some oid) ∧
  yaz.encode f.comp = yaz.encode comp

/-- It is the newest of the records that serve the position. -/
def Newest (yaz : Yaz) (recordSyntax : Option Oid) (comp : Option Composition) (offset : Int)
    (fs : List Filing) (f : Filing) : Prop :=
  ∃ before after, fs = before ++ f :: after ∧ Serves yaz recordSyntax comp offset f ∧
    ∀ g ∈ after, ¬ Serves yaz recordSyntax comp offset g

/-- What was filed was copied faithfully, its compositions are not encoded as no octets, and its
database records have a reference. -/
structure Faithful (yaz : Yaz) (fs : List Filing) : Prop where
  record : ∀ f ∈ fs, yaz.cloneRecord f.record = some f.record
  comp : ∀ f ∈ fs, yaz.encode (yaz.cloneComp f.comp) = yaz.encode f.comp
  octets : ∀ f ∈ fs, yaz.encode f.comp ≠ some []
  reference : ∀ f ∈ fs, ∀ r, f.record.content = .databaseRecord r → ∃ oid,
    r.directReference = some oid

namespace RecordCache

variable {yaz : Yaz} {recordSyntax : Option Oid} {comp : Option Composition} {offset : Int}

theorem sameOctets_iff {buf1 buf2 : Option Buf} (some_octets : buf2 ≠ some []) :
    sameOctets buf1 buf2 = true ↔ buf2 = buf1 := by
  cases buf1 with
  | none =>
    cases buf2 with
    | none => exact iff_of_true rfl rfl
    | some buf2 => exact iff_of_false (fun h => by cases h) fun h => by cases h
  | some buf1 =>
    cases buf2 with
    | none => exact iff_of_false (fun h => by cases h) fun h => by cases h
    | some buf2 =>
      have some_buf2 : buf2 ≠ [] := fun h => some_octets (congrArg some h)
      simp only [sameOctets, decide_eq_true_eq, Option.some.injEq]
      constructor
      · rintro ⟨-, same⟩
        exact same.symm
      · rintro rfl
        exact ⟨some_buf2, rfl⟩

/-- A record that was filed is there, with its reference. -/
theorem not_incomplete {fs : List Filing} (faithful : Faithful yaz fs) {f : Filing} (hf : f ∈ fs) :
    ¬ Incomplete (f.entry yaz) := by
  have record : (f.entry yaz).record = some f.record := faithful.record f hf
  rintro (hnone | ⟨record', r, hrecord, hcontent, hreference⟩)
  · cases record.symm.trans hnone
  · cases record.symm.trans hrecord
    obtain ⟨oid, hoid⟩ := faithful.reference f hf r hcontent
    cases hoid.symm.trans hreference

/-- Its entry matches when it serves. -/
theorem matches_iff_serves {fs : List Filing} (faithful : Faithful yaz fs) {f : Filing}
    (hf : f ∈ fs) : Matches yaz recordSyntax comp offset (f.entry yaz) ↔
      Serves yaz recordSyntax comp offset f := by
  have record : (f.entry yaz).record = some f.record := faithful.record f hf
  have octets : sameOctets (yaz.encode comp) (yaz.encode (f.entry yaz).comp) = true ↔
      yaz.encode f.comp = yaz.encode comp := by
    rw [show yaz.encode (f.entry yaz).comp = yaz.encode f.comp from faithful.comp f hf]
    exact sameOctets_iff (faithful.octets f hf)
  constructor
  · rintro ⟨⟨-, place, same⟩, record', r, oid, hrecord, hcontent, hoid, hsyntax⟩
    cases record.symm.trans hrecord
    exact ⟨place, ⟨r, oid, hcontent, hoid, hsyntax⟩, octets.mp same⟩
  · rintro ⟨place, ⟨r, oid, hcontent, hoid, hsyntax⟩, same⟩
    have asked : recordSyntax ≠ none := fun h => by cases hsyntax.symm.trans h
    exact ⟨⟨asked, place, octets.mpr same⟩, f.record, r, oid, record, hcontent, hoid, hsyntax⟩

/-- **A search** finds the newest record that serves the position, or says that there is none. -/
theorem searched_newest {c : RecordCache} {fs : List Filing}
    (stored : c.entries = (fs.map (Filing.entry yaz)).reverse) (faithful : Faithful yaz fs)
    (recordSyntax : Option Oid) (comp : Option Composition) (offset : Int) :
    (c.findEntry yaz recordSyntax offset comp = .ok none ∧
      ∀ f ∈ fs, ¬ Serves yaz recordSyntax comp offset f) ∨
    ∃ f, c.findEntry yaz recordSyntax offset comp = .ok (some (f.entry yaz)) ∧
      Newest yaz recordSyntax comp offset fs f := by
  have unserved : ∀ f ∈ fs, matchEntry yaz recordSyntax offset comp (f.entry yaz) = .ok false →
      ¬ Serves yaz recordSyntax comp offset f := by
    intro f hf hfalse serves
    have hmatch := matchEntry_true_iff.mpr ((matches_iff_serves faithful hf).mpr serves)
    cases hmatch.symm.trans hfalse
  unfold findEntry
  rw [stored]
  have returns : ∃ found, search (matchEntry yaz recordSyntax offset comp)
      (fs.map (Filing.entry yaz)).reverse = .ok found := by
    refine search_newest_returns_iff.mpr fun before f after hsplit faults => ?_
    have hf : f ∈ fs := hsplit ▸ List.mem_append_right _ List.mem_cons_self
    exact absurd (matchEntry_error_iff.mp faults).2 (not_incomplete faithful hf)
  obtain ⟨found, hsearch⟩ := returns
  rw [hsearch]
  cases found with
  | none =>
    refine .inl ⟨rfl, fun f hf => unserved f hf ?_⟩
    exact search_eq_none.mp hsearch (f.entry yaz) (mem_map_reverse.mpr ⟨f, hf, rfl⟩)
  | some e =>
    obtain ⟨before, f, after, hsplit, rfl, hmatch, none⟩ := search_newest_eq_some.mp hsearch
    have hf : f ∈ fs := hsplit ▸ List.mem_append_right _ List.mem_cons_self
    refine .inr ⟨f, rfl, before, after, hsplit, ?_, fun g hg => unserved g ?_ (none g hg)⟩
    · exact (matches_iff_serves faithful hf).mp (matchEntry_true_iff.mp hmatch)
    · exact hsplit ▸ List.mem_append_right _ (List.mem_cons_of_mem _ hg)

/-- **A lookup is sound and complete**: it answers when each of its positions is served, with the
newest record for each, and leaves `*npr` as it is when one is not. -/
theorem lookup_complete {is : List CacheInput} {c : RecordCache} {h : List CacheEvent}
    (run : (recordCache yaz).Run Born is c h) (faithful : Faithful yaz (filed h)) (start num : Int)
    (recordSyntax : Option Oid) (comp : Option Composition) :
    ∃ looked, c.lookup yaz start num recordSyntax comp = .ok looked ∧
      (looked.found = true ↔ ∀ i < num.toNat, ∃ f ∈ filed h,
        Serves yaz recordSyntax comp (toInt32 (start + (i : Nat))) f) ∧
      (looked.found = true → ∃ records, looked.npr = some (num, records) ∧
        records.length = num.toNat ∧
        ∀ (i : Nat) record, records[i]? = some record → ∃ f, f.record = record ∧
          Newest yaz recordSyntax comp (toInt32 (start + i)) (filed h) f) ∧
      (looked.found = false → looked.npr = none) := by
  have stored := stored_run run
  have newest := fun i : Nat =>
    searched_newest stored faithful recordSyntax comp (toInt32 (start + i))
  have passes_iff : ∀ i, Passes yaz start recordSyntax comp c i ↔ ∃ f ∈ filed h,
      Serves yaz recordSyntax comp (toInt32 (start + i)) f := by
    intro i
    rcases newest i with ⟨hnone, unserved⟩ | ⟨f, hfound, before, after, hfiled, serves, -⟩
    · refine iff_of_false (fun passes => ?_) fun ⟨f, hf, serves⟩ => unserved f hf serves
      obtain ⟨entry, hentry⟩ := passes
      cases hnone.symm.trans hentry
    · refine iff_of_true ⟨_, hfound⟩ ⟨f, ?_, serves⟩
      rw [hfiled]
      exact List.mem_append_right _ List.mem_cons_self
  have returns : ∃ passed, testLoop yaz start recordSyntax comp c num.toNat 0 = .ok passed := by
    refine testLoop_returns_iff.mpr fun j _ _ _ => ?_
    rcases newest j with ⟨hnone, -⟩ | ⟨f, hfound, -⟩
    · exact ⟨none, hnone⟩
    · exact ⟨_, hfound⟩
  by_cases passed : ∀ j < num.toNat, Passes yaz start recordSyntax comp c j
  · obtain ⟨records, hlookup, length, each⟩ := lookup_passed passed
    refine ⟨_, hlookup, ?_, fun _ => ⟨records, rfl, length, fun i record hrecord => ?_⟩,
      (fun h => by cases h)⟩
    · exact iff_of_true rfl fun i hi => (passes_iff i).mp (passed i hi)
    · obtain ⟨entry, hentry, hrecord⟩ := each i record hrecord
      rcases newest i with ⟨hnone, -⟩ | ⟨f, hfound, hnewest⟩
      · cases hnone.symm.trans hentry
      · cases hfound.symm.trans hentry
        have member : f ∈ filed h := by
          obtain ⟨before, after, hfiled, -⟩ := hnewest
          rw [hfiled]
          exact List.mem_append_right _ List.mem_cons_self
        have copied := faithful.record f member
        exact ⟨f, Option.some.inj (copied.symm.trans hrecord), hnewest⟩
  · refine ⟨_, lookup_not_passed returns passed, ?_, (fun h => by cases h), fun _ => rfl⟩
    refine iff_of_false Bool.false_ne_true fun served => passed fun i hi => ?_
    exact (passes_iff i).mpr (served i hi)

/-- Records of two compositions, and a position of one of them that is filed twice. -/
def caching : List CacheInput :=
  [.add [.marc 1, .marc 2] 1 (some (.simple (some [70]))) 100,
    .add [.marc 3] 2 (some (.simple (some [66]))) 50,
    .add [.marc 4] 2 (some (.simple (some [70]))) 50]

/-- What becomes of them. -/
def cached : List CacheEvent :=
  [.filed [.marc 1, .marc 2] 1 (some (.simple (some [70]))),
    .filed [.marc 3] 2 (some (.simple (some [66]))),
    .filed [.marc 4] 2 (some (.simple (some [70])))]

/-- MARC records are faithful. -/
theorem faithful_marc {fs : List Filing} {octets : List UInt8}
    (marc : ∀ f ∈ fs, ∃ octet ∈ octets, f.record = .marc octet) : Faithful .plain fs where
  record _ _ := rfl
  comp f _ := by
    obtain ⟨offset, record, comp⟩ := f
    rcases comp with _ | ⟨_ | elementSetNames⟩ | spec <;> rfl
  octets f _ := by
    obtain ⟨offset, record, comp⟩ := f
    rcases comp with _ | ⟨_ | elementSetNames⟩ | spec <;> exact fun h => by cases h
  reference f hf r hr := by
    obtain ⟨octet, -, hrecord⟩ := marc f hf
    rw [hrecord] at hr
    cases hr
    exact ⟨_, rfl⟩

/-- Both positions are found, the second one in the record that was filed last. -/
theorem lookup_complete_twice : ∃ c h, (recordCache .plain).Run Born caching c h ∧
    ∃ looked, c.lookup .plain 1 2 (some [1, 2, 840, 10003, 5, 10]) (some (.simple (some [70]))) =
        .ok looked ∧ looked.npr = some (2, [.marc 1, .marc 4]) ∧
      ∀ (i : Nat) record, [CacheRecord.marc 1, .marc 4][i]? = some record → ∃ f,
        f.record = record ∧ Newest .plain (some [1, 2, 840, 10003, 5, 10])
          (some (.simple (some [70]))) (toInt32 (1 + i)) (filed h) f := by
  have computed : ∃ c h, (recordCache .plain).Run Born caching c h ∧
      (h, c.lookup .plain 1 2 (some [1, 2, 840, 10003, 5, 10]) (some (.simple (some [70])))) =
        (cached, .ok { found := true, npr := some (2, [.marc 1, .marc 4]) }) :=
    Machine.Run.of_exec (s := new) (f := fun c h => (h, lookup .plain 1 2
      (some [1, 2, 840, 10003, 5, 10]) (some (.simple (some [70]))) c)) ⟨rfl, rfl⟩ rfl
  obtain ⟨c, h, run, seen⟩ := computed
  obtain ⟨rfl, answer⟩ := Prod.mk.inj seen
  have marc : ∀ f ∈ filed cached, ∃ octet ∈ [1, 2, 3, 4], f.record = .marc octet := by decide
  obtain ⟨looked, hlookup, -, served, -⟩ := lookup_complete run (faithful_marc marc) 1 2
    (some [1, 2, 840, 10003, 5, 10]) (some (.simple (some [70])))
  cases answer.symm.trans hlookup
  obtain ⟨records, hnpr, -, newest⟩ := served rfl
  cases hnpr
  exact ⟨c, cached, run, _, hlookup, rfl, newest⟩

end RecordCache

end Yazpp
