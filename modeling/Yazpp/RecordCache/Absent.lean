import Yazpp.RecordCache.Lookup

/-!
# A lookup that meets a record without a reference

The reference of a record is optional, and a copy may fail; `add` files what it gets, and `match`
reads the record and its reference of each entry that has the composition and the offset. A lookup
survives such an entry only if it stops before it, at a newer one that matches: `lookup_returns`
says of every cache and every lookup exactly when.
-/

set_option autoImplicit false

namespace Yazpp

open Yazpp.Lib

/-- The position is safe: each record that is asked for, and is not there or has no reference, has a
newer one that matches. -/
def Guarded (yaz : Yaz) (recordSyntax : Option Oid) (comp : Option Composition) (offset : Int)
    (fs : List Filing) : Prop :=
  ∀ before f after, fs = before ++ f :: after →
    Asked yaz recordSyntax comp offset (f.entry yaz) → Incomplete (f.entry yaz) →
    ∃ g ∈ after, Matches yaz recordSyntax comp offset (g.entry yaz)

/-- One of the records matches the position. -/
def Covered (yaz : Yaz) (recordSyntax : Option Oid) (comp : Option Composition) (offset : Int)
    (fs : List Filing) : Prop :=
  ∃ f ∈ fs, Matches yaz recordSyntax comp offset (f.entry yaz)

namespace RecordCache

variable {yaz : Yaz} {recordSyntax : Option Oid} {comp : Option Composition} {offset : Int}

/-- **A search returns** exactly when its position is safe. -/
theorem findEntry_returns_iff {c : RecordCache} {fs : List Filing}
    (stored : c.entries = (fs.map (Filing.entry yaz)).reverse) :
    (∃ found, c.findEntry yaz recordSyntax offset comp = .ok found) ↔
      Guarded yaz recordSyntax comp offset fs := by
  unfold findEntry
  rw [stored, search_newest_returns_iff]
  simp only [matchEntry_error_iff, matchEntry_true_iff]
  constructor
  · intro all before f after hsplit asked incomplete
    exact all before f after hsplit ⟨asked, incomplete⟩
  · rintro all before f after hsplit ⟨asked, incomplete⟩
    exact all before f after hsplit asked incomplete

/-- And finds an entry when one matches too. -/
theorem findEntry_some_iff {c : RecordCache} {fs : List Filing}
    (stored : c.entries = (fs.map (Filing.entry yaz)).reverse) :
    (∃ e, c.findEntry yaz recordSyntax offset comp = .ok (some e)) ↔
      Guarded yaz recordSyntax comp offset fs ∧ Covered yaz recordSyntax comp offset fs := by
  rw [← findEntry_returns_iff stored]
  unfold findEntry
  rw [stored]
  constructor
  · rintro ⟨e, hfound⟩
    obtain ⟨before, f, after, rfl, rfl, hmatch, -⟩ := search_newest_eq_some.mp hfound
    exact ⟨⟨_, hfound⟩, f, List.mem_append_right _ List.mem_cons_self,
      matchEntry_true_iff.mp hmatch⟩
  · rintro ⟨⟨found, hfound⟩, f, hf, hmatch⟩
    cases found with
    | some e => exact ⟨e, hfound⟩
    | none =>
      have unmatched := search_eq_none.mp hfound (f.entry yaz) (mem_map_reverse.mpr ⟨f, hf, rfl⟩)
      cases (matchEntry_true_iff.mpr hmatch).symm.trans unmatched

/-- **A lookup returns exactly when** each position that it gets to is safe: those behind positions
that all have a record that matches. -/
theorem lookup_returns {is : List CacheInput} {c : RecordCache} {h : List CacheEvent}
    (run : (recordCache yaz).Run Born is c h) (start num : Int) (recordSyntax : Option Oid)
    (comp : Option Composition) :
    (∃ looked, c.lookup yaz start num recordSyntax comp = .ok looked) ↔
      ∀ i < num.toNat,
        (∀ k < i, Covered yaz recordSyntax comp (toInt32 (start + (k : Nat))) (filed h)) →
        Guarded yaz recordSyntax comp (toInt32 (start + (i : Nat))) (filed h) := by
  have stored := stored_run run
  have passes_iff : ∀ i, Passes yaz start recordSyntax comp c i ↔
      Guarded yaz recordSyntax comp (toInt32 (start + i)) (filed h) ∧
        Covered yaz recordSyntax comp (toInt32 (start + i)) (filed h) := fun i =>
    findEntry_some_iff stored
  have returns_iff : ∀ i, (∃ found, c.searched yaz start recordSyntax comp i = .ok found) ↔
      Guarded yaz recordSyntax comp (toInt32 (start + i)) (filed h) := fun i =>
    findEntry_returns_iff stored
  rw [lookup_returns_iff, testLoop_returns_iff]
  simp only [passes_iff, returns_iff, Nat.zero_le, true_implies, Nat.zero_add]
  constructor
  · -- the positions before one are safe themselves, by induction
    intro all i
    induction i using Nat.strongRecOn with
    | ind i ih =>
      intro hi covered
      refine all i hi fun k hk => ⟨ih k hk (Nat.lt_trans hk hi) fun j hj => ?_, covered k hk⟩
      exact covered j (Nat.lt_trans hj hk)
  · intro all i hi passed
    exact all i hi fun k hk => (passed k hk).2

/-- A record that has no reference, filed before one that has. -/
def guarding : List CacheInput :=
  [.add [{ databaseName := none
           content := .databaseRecord { directReference := none, encoding := [] } }] 1 none 50,
    .add [.marc 1] 1 none 50]

/-- The newer record is found before the search gets to the one without a reference. -/
theorem lookup_returns_guarding : ∃ c h, (recordCache .plain).Run Born guarding c h ∧
    Guarded .plain (some [1, 2, 840, 10003, 5, 10]) none 1 (filed h) := by
  have computed : ∃ c h, (recordCache .plain).Run Born guarding c h ∧
      lookup .plain 1 1 (some [1, 2, 840, 10003, 5, 10]) none c =
        .ok { found := true, npr := some (1, [.marc 1]) } :=
    Machine.Run.of_exec (s := new)
      (f := fun c _ => lookup .plain 1 1 (some [1, 2, 840, 10003, 5, 10]) none c) ⟨rfl, rfl⟩ rfl
  obtain ⟨c, h, run, looked⟩ := computed
  have guarded := (lookup_returns run 1 1 (some [1, 2, 840, 10003, 5, 10]) none).mp ⟨_, looked⟩
  exact ⟨c, h, run, guarded 0 (by decide) fun k hk => absurd hk (Nat.not_lt_zero k)⟩

/-- Without the newer one, `oid_oidcmp` is called on a null pointer. -/
theorem lookup_faults : ¬ ∀ is c h, (recordCache .plain).Run Born is c h →
    ∀ start num recordSyntax comp,
      ∃ looked, c.lookup .plain start num recordSyntax comp = .ok looked := by
  have computed : ∃ c h, (recordCache .plain).Run Born (guarding.take 1) c h ∧
      lookup .plain 1 1 (some [1, 2, 840, 10003, 5, 10]) none c = .error .nullOid :=
    Machine.Run.of_exec (s := new)
      (f := fun c _ => lookup .plain 1 1 (some [1, 2, 840, 10003, 5, 10]) none c) ⟨rfl, rfl⟩ rfl
  intro all
  obtain ⟨c, h, run, faults⟩ := computed
  obtain ⟨looked, returns⟩ := all _ c h run 1 1 (some [1, 2, 840, 10003, 5, 10]) none
  cases faults.symm.trans returns

end RecordCache

end Yazpp
