import Yazpp.Lib.History
import Yazpp.Zlint.SearchTest

/-!
# The places of the search test in its tables

Each place goes on with each response of its kind, asked for or not: a place is the number of such
responses so far (`SearchTest.behind`). `sendTest` looks for the null entry only in the table of the
phase that the test is in, and the messages of `recv_gdu` do not look at all.

`within_tables_iff` says of every sequence of GDUs when no table is read behind its null entry. The
test gets none of them behind its end (`Ends`), which is read off the GDUs too.
-/

set_option autoImplicit false

namespace Yazpp

open Yazpp.Lib

namespace LintGdu

/-- A search response with hits. -/
def isHit : LintGdu → Bool
  | .searchResponse records (some count) =>
    records ≠ some .nsd ∧ records ≠ some .multipleNsd ∧ count ≠ 0
  | _ => false

/-- A search response without. -/
def isMiss : LintGdu → Bool
  | .searchResponse records resultCount => !(LintGdu.searchResponse records resultCount).isHit
  | _ => false

def isPresent : LintGdu → Bool
  | .presentResponse _ => true
  | _ => false

def isSort : LintGdu → Bool
  | .sortResponse _ => true
  | _ => false

/-- A present response with a diagnostic or a record. -/
def hasRecord : LintGdu → Bool
  | .presentResponse (some (.dbosd (some _ :: _))) => true
  | .presentResponse (some (.dbosd _)) => false
  | .presentResponse (some _) => true
  | _ => false

/-- A sort response with diagnostics. -/
def hasDiagnostics : LintGdu → Bool
  | .sortResponse diagnostics => diagnostics
  | _ => false

/-- An init response that rejects, and what the test does not expect. -/
def stops : LintGdu → Bool
  | .initResponse result => !result.getD false
  | .other => true
  | _ => false

end LintGdu

namespace SearchTest

/-- The search responses without hits. -/
def misses (gs : List LintGdu) : Nat := gs.countP LintGdu.isMiss

def presents (gs : List LintGdu) : Nat := gs.countP LintGdu.isPresent

def sorts (gs : List LintGdu) : Nat := gs.countP LintGdu.isSort

/-- Some search response had hits. -/
def hasHit (gs : List LintGdu) : Bool := gs.any LintGdu.isHit

/-- A record is compared with a syntax, and one of the two has no OID. -/
def Crashes (z : LintEnv) (past : List LintGdu) : LintGdu → Prop
  | .presentResponse (some (.dbosd (some (.databaseRecord directReference) :: _))) =>
    directReference = none ∨ z.stringToOid LintTable.trySyntax.entries[presents past]? = none
  | _ => False

/-- Nothing is left to be asked. -/
def Exhausted (z : LintEnv) (gs : List LintGdu) : Prop :=
  if hasHit gs then
    presents gs = LintTable.trySyntax.entries.length ∧ sorts gs = LintTable.trySort.entries.length
  else LintTable.tryQuery.entries[misses gs]?.bind z.pqfParse = none

/-- The test ends with a GDU. -/
def Ends (z : LintEnv) (past : List LintGdu) (g : LintGdu) : Prop :=
  g.stops = true ∨ Crashes z past g ∨ Exhausted z (past ++ [g])

/-- The test goes on behind all of the GDUs. -/
def GoesOn (z : LintEnv) (gs : List LintGdu) : Prop :=
  ∀ past g rest, gs = past ++ g :: rest → ¬ Ends z past g

/-- **A GDU that does no harm** behind others: hits come behind no more misses than there are
queries, a record behind no more present responses than there are syntaxes, and diagnostics behind
no more sort responses than there are sorts. With hits, there are no more present responses than
syntaxes, and with as many, no more sort responses than sorts. -/
structure Fits (z : LintEnv) (past : List LintGdu) (g : LintGdu) : Prop where
  hits : g.isHit = true → misses past ≤ LintTable.tryQuery.entries.length
  record : g.hasRecord = true → presents past ≤ LintTable.trySyntax.entries.length
  diagnostics : g.hasDiagnostics = true → sorts past ≤ LintTable.trySort.entries.length
  next : hasHit (past ++ [g]) = true → g.stops = false → ¬ Crashes z past g →
    presents (past ++ [g]) ≤ LintTable.trySyntax.entries.length ∧
      (presents (past ++ [g]) = LintTable.trySyntax.entries.length →
        sorts (past ++ [g]) ≤ LintTable.trySort.entries.length)

/-- Every GDU that the test gets does no harm. -/
def AllFit (z : LintEnv) (gs : List LintGdu) : Prop :=
  ∀ past g rest, gs = past ++ g :: rest → GoesOn z past → Fits z past g

/-- A test before the first GDU. -/
def Born (s : LintState) (h : List LintCall) : Prop := s = .running {} ∧ h = []

/-! ## One GDU -/

/-- The test behind GDUs that it went on behind. -/
def behind (gs : List LintGdu) : SearchTest where
  queryNo := misses gs
  gotResultSet := hasHit gs
  recordSyntaxNo := presents gs
  sortNo := sorts gs

theorem behind_snoc (past : List LintGdu) (g : LintGdu) :
    behind (past ++ [g]) =
      { queryNo := misses past + if g.isMiss then 1 else 0
        gotResultSet := hasHit past || g.isHit
        recordSyntaxNo := presents past + if g.isPresent then 1 else 0
        sortNo := sorts past + if g.isSort then 1 else 0 } := by
  simp only [behind, misses, hasHit, presents, sorts, List.countP_append, List.countP_singleton,
    List.any_append, List.any_cons, List.any_nil, Bool.or_false]

/-- The reads of `sendTest` are in the tables. -/
def InTables (gs : List LintGdu) : Prop :=
  if hasHit gs then
    presents gs ≤ LintTable.trySyntax.entries.length ∧
      (presents gs = LintTable.trySyntax.entries.length →
        sorts gs ≤ LintTable.trySort.entries.length)
  else misses gs ≤ LintTable.tryQuery.entries.length

/-- The reads for the messages are. -/
structure ReadsFit (past : List LintGdu) (g : LintGdu) : Prop where
  hits : g.isHit = true → misses past ≤ LintTable.tryQuery.entries.length
  record : g.hasRecord = true → presents past ≤ LintTable.trySyntax.entries.length
  diagnostics : g.hasDiagnostics = true → sorts past ≤ LintTable.trySort.entries.length

theorem read_of_le {table : LintTable} {index : Nat} (fits : index ≤ table.entries.length) :
    table.read index = .ok table.entries[index]? := if_pos fits

theorem read_of_not_le {table : LintTable} {index : Nat} (fits : ¬ index ≤ table.entries.length) :
    table.read index = .error (.past table index) := if_neg fits

/-- **`sendTest`** reads behind a table, or ends the test when nothing is left, or goes on. -/
theorem sendTest_cases (z : LintEnv) (gs : List LintGdu) :
    (¬ InTables gs ∧ ∃ table index, (behind gs).sendTest z = .error (.past table index)) ∨
      (InTables gs ∧ ∃ calls,
        (Exhausted z gs ∧ (behind gs).sendTest z = .ok (calls, .testFinished) ∨
          ¬ Exhausted z gs ∧ (behind gs).sendTest z = .ok (calls, .testContinue))) := by
  unfold InTables Exhausted sendTest behind
  cases hasHit gs with
  | false =>
    simp only [Bool.false_eq_true, if_false, if_true]
    by_cases fits : misses gs ≤ LintTable.tryQuery.entries.length
    · right
      refine ⟨fits, ?_⟩
      rw [read_of_le fits]
      cases LintTable.tryQuery.entries[misses gs]? with
      | none => exact ⟨_, .inl ⟨rfl, rfl⟩⟩
      | some query =>
        simp only [bind, Except.bind, Option.bind_some]
        cases z.pqfParse query with
        | none => exact ⟨_, .inl ⟨rfl, rfl⟩⟩
        | some rpn => exact ⟨_, .inr ⟨Option.some_ne_none rpn, rfl⟩⟩
    · left
      refine ⟨fits, ?_⟩
      rw [read_of_not_le fits]
      exact ⟨_, _, rfl⟩
  | true =>
    simp only [if_true, Bool.true_eq_false, if_false]
    by_cases fits : presents gs ≤ LintTable.trySyntax.entries.length
    · rw [read_of_le fits]
      by_cases all : presents gs = LintTable.trySyntax.entries.length
      · have null := List.getElem?_eq_none (Nat.le_of_eq all.symm)
        simp only [bind, Except.bind, null]
        by_cases sorted : sorts gs ≤ LintTable.trySort.entries.length
        · right
          refine ⟨⟨fits, fun _ => sorted⟩, ?_⟩
          rw [read_of_le sorted]
          by_cases done : sorts gs = LintTable.trySort.entries.length
          · have null := List.getElem?_eq_none (Nat.le_of_eq done.symm)
            rw [null]
            exact ⟨_, .inl ⟨⟨all, done⟩, rfl⟩⟩
          · have more := List.getElem?_eq_getElem (Nat.lt_of_le_of_ne sorted done)
            rw [more]
            exact ⟨_, .inr ⟨fun ⟨_, same⟩ => done same, rfl⟩⟩
        · left
          refine ⟨fun ⟨_, within⟩ => sorted (within all), ?_⟩
          rw [read_of_not_le sorted]
          exact ⟨_, _, rfl⟩
      · right
        have more := List.getElem?_eq_getElem (Nat.lt_of_le_of_ne fits all)
        rw [more]
        refine ⟨⟨fits, fun same => absurd same all⟩, ?_⟩
        exact ⟨_, .inr ⟨fun ⟨same, _⟩ => all same, rfl⟩⟩
    · left
      refine ⟨fun ⟨within, _⟩ => fits within, ?_⟩
      rw [read_of_not_le fits]
      exact ⟨_, _, rfl⟩
/-- What becomes of one more GDU. -/
inductive Received (z : LintEnv) (past : List LintGdu) (g : LintGdu) :
    Except LintFault (SearchTest × List LintCall × LintCode) → Prop
  | unread {table : LintTable} {index : Nat} :
      ¬ ReadsFit past g → Received z past g (.error (.past table index))
  | crashed : ReadsFit past g → Crashes z past g → Received z past g (.error .nullOid)
  | stopped {t : SearchTest} {calls : List LintCall} :
      ReadsFit past g → g.stops = true → Received z past g (.ok (t, calls, .testFinished))
  | unsent {table : LintTable} {index : Nat} :
      ¬ Crashes z past g → g.stops = false → ¬ InTables (past ++ [g]) →
      Received z past g (.error (.past table index))
  | finished {t : SearchTest} {calls : List LintCall} :
      ReadsFit past g → InTables (past ++ [g]) → Exhausted z (past ++ [g]) →
      Received z past g (.ok (t, calls, .testFinished))
  | sent {calls : List LintCall} :
      ReadsFit past g → ¬ Crashes z past g → g.stops = false → InTables (past ++ [g]) →
      ¬ Exhausted z (past ++ [g]) →
      Received z past g (.ok (behind (past ++ [g]), calls, .testContinue))

/-- A GDU for which the messages were put together, and `sendTest` behind it. -/
theorem received_goOn {z : LintEnv} {past : List LintGdu} {g : LintGdu} (reads : ReadsFit past g)
    (lives : ¬ Crashes z past g) (goes : g.stops = false) (said : List LintCall) :
    Received z past g ((behind (past ++ [g])).goOn z said) := by
  unfold goOn
  rcases sendTest_cases z (past ++ [g]) with
    ⟨out, table, index, hsend⟩ | ⟨within, calls, ⟨done, hsend⟩ | ⟨more, hsend⟩⟩
  · rw [hsend]
    exact .unsent lives goes out
  · rw [hsend]
    exact .finished reads within done
  · rw [hsend]
    exact .sent reads lives goes within more

/-- A GDU that makes no message read a table. -/
theorem readsFit_quiet {past : List LintGdu} {g : LintGdu} (hit : g.isHit = false)
    (record : g.hasRecord = false) (diagnostics : g.hasDiagnostics = false) : ReadsFit past g := by
  constructor
  · intro has
    cases hit.symm.trans has
  · intro has
    cases record.symm.trans has
  · intro has
    cases diagnostics.symm.trans has

/-- A search response without hits. -/
theorem received_miss {z : LintEnv} {past : List LintGdu} {records : Option LintRecords}
    {resultCount : Option Int}
    (miss : (LintGdu.searchResponse records resultCount).isHit = false) :
    Received z past (.searchResponse records resultCount)
      ({ behind past with queryNo := (behind past).queryNo + 1 }.goOn z []) := by
  have counted : behind (past ++ [.searchResponse records resultCount]) =
      { behind past with queryNo := (behind past).queryNo + 1 } := by
    rw [behind_snoc, LintGdu.isMiss, miss, Bool.or_false]
    rfl
  rw [← counted]
  exact received_goOn (readsFit_quiet miss rfl rfl) id rfl []

/-- A search response with hits, whose message is put together. -/
theorem received_hit {z : LintEnv} {past : List LintGdu} {records : Option LintRecords}
    {count : Int} (hit : (LintGdu.searchResponse records (some count)).isHit = true)
    (fits : misses past ≤ LintTable.tryQuery.entries.length) (said : List LintCall) :
    Received z past (.searchResponse records (some count))
      ({ behind past with gotResultSet := true }.goOn z said) := by
  have counted : behind (past ++ [.searchResponse records (some count)]) =
      { behind past with gotResultSet := true } := by
    rw [behind_snoc, LintGdu.isMiss, hit, Bool.or_true]
    rfl
  have reads : ReadsFit past (.searchResponse records (some count)) :=
    { hits := fun _ => fits
      record := fun has => absurd has Bool.false_ne_true
      diagnostics := fun has => absurd has Bool.false_ne_true }
  rw [← counted]
  exact received_goOn reads id rfl said

/-- A present response whose message is put together. -/
theorem received_present {z : LintEnv} {past : List LintGdu} {records : Option LintRecords}
    (reads : ReadsFit past (.presentResponse records))
    (lives : ¬ Crashes z past (.presentResponse records)) (said : List LintCall) :
    Received z past (.presentResponse records)
      ({ behind past with recordSyntaxNo := (behind past).recordSyntaxNo + 1 }.goOn z said) := by
  have counted : behind (past ++ [.presentResponse records]) =
      { behind past with recordSyntaxNo := (behind past).recordSyntaxNo + 1 } := by
    rw [behind_snoc, show (LintGdu.presentResponse records).isHit = false from rfl, Bool.or_false]
    rfl
  rw [← counted]
  exact received_goOn reads lives rfl said

/-- The message about a present response names the syntax, if the response has anything. -/
theorem presentReport_cases (z : LintEnv) (past : List LintGdu) (records : Option LintRecords) :
    (¬ ReadsFit past (.presentResponse records) ∧
        ∃ table index, (behind past).presentReport z records = .error (.past table index)) ∨
      (ReadsFit past (.presentResponse records) ∧ Crashes z past (.presentResponse records) ∧
        (behind past).presentReport z records = .error .nullOid) ∨
      (ReadsFit past (.presentResponse records) ∧ ¬ Crashes z past (.presentResponse records) ∧
        ∃ said, (behind past).presentReport z records = .ok said) := by
  have place : (behind past).recordSyntaxNo = presents past := rfl
  cases hhas : (LintGdu.presentResponse records).hasRecord with
  | false =>
    have reads : ReadsFit past (.presentResponse records) := readsFit_quiet rfl hhas rfl
    rcases records with _ | ⟨_ | ⟨_ | record, records⟩⟩ | _ | _
    · exact .inr (.inr ⟨reads, id, _, rfl⟩)
    · exact .inr (.inr ⟨reads, id, _, rfl⟩)
    · exact .inr (.inr ⟨reads, id, _, rfl⟩)
    · cases hhas
    · cases hhas
    · cases hhas
  | true =>
    by_cases fits : presents past ≤ LintTable.trySyntax.entries.length
    · right
      have reads : ReadsFit past (.presentResponse records) :=
        { hits := fun has => absurd has Bool.false_ne_true
          record := fun _ => fits
          diagnostics := fun has => absurd has Bool.false_ne_true }
      unfold presentReport
      rw [place, read_of_le fits]
      rcases records with _ | ⟨_ | ⟨_ | record, records⟩⟩ | _ | _
      · cases hhas
      · cases hhas
      · cases hhas
      · cases record with
        | databaseRecord directReference =>
          cases hwanted : z.stringToOid LintTable.trySyntax.entries[presents past]? with
          | none =>
            refine .inl ⟨reads, .inr hwanted, ?_⟩
            simp only [bind, Except.bind, hwanted, oidcmp]
          | some wanted =>
            cases directReference with
            | none =>
              refine .inl ⟨reads, .inl rfl, ?_⟩
              simp only [bind, Except.bind, hwanted, oidcmp]
            | some oid =>
              refine .inr ⟨reads, ?_, ?_⟩
              · rintro (absent | unknown)
                · cases absent
                · cases hwanted.symm.trans unknown
              · simp only [bind, Except.bind, hwanted, oidcmp]
                split
                · exact ⟨_, rfl⟩
                · exact ⟨_, rfl⟩
        | surrogateDiagnostic => exact .inr ⟨reads, id, _, rfl⟩
        | fragment => exact .inr ⟨reads, id, _, rfl⟩
      · exact .inr ⟨reads, id, _, rfl⟩
      · exact .inr ⟨reads, id, _, rfl⟩
    · left
      refine ⟨fun reads => fits (reads.record hhas), ?_⟩
      unfold presentReport
      rw [place, read_of_not_le fits]
      rcases records with _ | ⟨_ | ⟨_ | record, records⟩⟩ | _ | _
      · cases hhas
      · cases hhas
      · cases hhas
      · exact ⟨_, _, rfl⟩
      · exact ⟨_, _, rfl⟩
      · exact ⟨_, _, rfl⟩

/-- A sort response whose message is put together. -/
theorem received_sort {z : LintEnv} {past : List LintGdu} {diagnostics : Bool}
    (reads : ReadsFit past (.sortResponse diagnostics)) (said : List LintCall) :
    Received z past (.sortResponse diagnostics)
      ({ behind past with sortNo := (behind past).sortNo + 1 }.goOn z said) := by
  have counted : behind (past ++ [.sortResponse diagnostics]) =
      { behind past with sortNo := (behind past).sortNo + 1 } := by
    rw [behind_snoc, show (LintGdu.sortResponse diagnostics).isHit = false from rfl, Bool.or_false]
    rfl
  rw [← counted]
  exact received_goOn reads id rfl said

/-- **What becomes of one more GDU**, by its kind. -/
theorem received (z : LintEnv) (past : List LintGdu) (g : LintGdu) :
    Received z past g ((behind past).recvGdu z g) := by
  cases g with
  | initResponse result =>
    cases haccept : result.getD false with
    | false =>
      have stops : (LintGdu.initResponse result).stops = true := by
        rw [LintGdu.stops, haccept]
        rfl
      simp only [recvGdu, haccept, Bool.false_eq_true, if_false]
      exact .stopped (readsFit_quiet rfl rfl rfl) stops
    | true =>
      have counted : behind (past ++ [.initResponse result]) = behind past := by
        rw [behind_snoc, show (LintGdu.initResponse result).isHit = false from rfl, Bool.or_false]
        rfl
      have goes : (LintGdu.initResponse result).stops = false := by
        rw [LintGdu.stops, haccept]
        rfl
      simp only [recvGdu, haccept, if_true]
      rw [← counted]
      exact received_goOn (readsFit_quiet rfl rfl rfl) id goes []
  | searchResponse records resultCount =>
    dsimp only [recvGdu]
    by_cases refused : records = some .nsd ∨ records = some .multipleNsd
    · rw [if_pos refused]
      apply received_miss
      cases resultCount with
      | none => rfl
      | some count =>
        refine decide_eq_false ?_
        rintro ⟨hnsd, hmultiple, -⟩
        exact refused.elim hnsd hmultiple
    · rw [if_neg refused]
      cases resultCount with
      | none => exact received_miss rfl
      | some count =>
        dsimp only
        by_cases zero : count = 0
        · rw [if_pos zero]
          exact received_miss (decide_eq_false fun ⟨_, _, hits⟩ => hits zero)
        · rw [if_neg zero]
          have hit : (LintGdu.searchResponse records (some count)).isHit = true :=
            decide_eq_true ⟨fun nsd => refused (.inl nsd), fun multiple => refused (.inr multiple),
              zero⟩
          by_cases fits : misses past ≤ LintTable.tryQuery.entries.length
          · rw [show (behind past).queryNo = misses past from rfl, read_of_le fits]
            exact received_hit hit fits _
          · rw [show (behind past).queryNo = misses past from rfl, read_of_not_le fits]
            exact .unread fun reads => fits (reads.hits hit)
  | presentResponse records =>
    dsimp only [recvGdu]
    rcases presentReport_cases z past records with
      ⟨out, table, index, hreport⟩ | ⟨reads, crashes, hreport⟩ | ⟨reads, lives, said, hreport⟩
    · rw [hreport]
      exact .unread out
    · rw [hreport]
      exact .crashed reads crashes
    · rw [hreport]
      exact received_present reads lives said
  | sortResponse diagnostics =>
    dsimp only [recvGdu]
    cases diagnostics with
    | false => exact received_sort (readsFit_quiet rfl rfl rfl) _
    | true =>
      by_cases fits : sorts past ≤ LintTable.trySort.entries.length
      · rw [show (behind past).sortNo = sorts past from rfl, read_of_le fits]
        have reads : ReadsFit past (.sortResponse true) :=
          { hits := fun has => absurd has Bool.false_ne_true
            record := fun has => absurd has Bool.false_ne_true
            diagnostics := fun _ => fits }
        exact received_sort reads _
      · rw [show (behind past).sortNo = sorts past from rfl, read_of_not_le fits]
        exact .unread fun reads => fits (reads.diagnostics rfl)
  | other => exact .stopped (readsFit_quiet rfl rfl rfl) rfl

/-! ## Every sequence of GDUs -/

theorem goesOn_snoc {z : LintEnv} {past : List LintGdu} {g : LintGdu} :
    GoesOn z (past ++ [g]) ↔ GoesOn z past ∧ ¬ Ends z past g := forall_split_snoc

theorem allFit_snoc {z : LintEnv} {past : List LintGdu} {g : LintGdu} :
    AllFit z (past ++ [g]) ↔ AllFit z past ∧ (GoesOn z past → Fits z past g) := forall_split_snoc

/-- A test that goes on without hits has a query left. -/
theorem misses_lt {z : LintEnv} {past : List LintGdu} (goes : GoesOn z past)
    (nothing : hasHit past = false) : misses past < LintTable.tryQuery.entries.length := by
  rcases List.eq_nil_or_concat past with rfl | ⟨past, g, rfl⟩
  · exact Nat.succ_pos _
  · rw [List.concat_eq_append] at goes nothing ⊢
    have more := (goesOn_snoc.mp goes).2
    apply Nat.lt_of_not_le
    intro all
    refine more (.inr (.inr ?_))
    rw [Exhausted, if_neg (Bool.eq_false_iff.mp nothing), List.getElem?_eq_none all]
    rfl

/-- The reads of one more GDU are in the tables exactly when it does no harm. -/
theorem fits_iff {z : LintEnv} {past : List LintGdu} {g : LintGdu} (goes : GoesOn z past) :
    Fits z past g ↔ ReadsFit past g ∧
      (g.stops = false → ¬ Crashes z past g → InTables (past ++ [g])) := by
  have query (nothing : hasHit (past ++ [g]) = false) :
      misses (past ++ [g]) ≤ LintTable.tryQuery.entries.length := by
    have before : hasHit past = false := by
      rw [hasHit, List.any_append, Bool.or_eq_false_iff] at nothing
      exact nothing.1
    have left := misses_lt goes before
    have more : misses (past ++ [g]) ≤ misses past + 1 := by
      unfold misses
      rw [List.countP_append, List.countP_singleton]
      split <;> omega
    exact Nat.le_trans more left
  constructor
  · intro fits
    refine ⟨⟨fits.hits, fits.record, fits.diagnostics⟩, fun goesOn lives => ?_⟩
    unfold InTables
    split
    · next hit => exact fits.next hit goesOn lives
    · next nothing => exact query (Bool.eq_false_iff.mpr nothing)
  · rintro ⟨reads, within⟩
    refine ⟨reads.hits, reads.record, reads.diagnostics, fun hit goesOn lives => ?_⟩
    have within := within goesOn lives
    rwa [InTables, if_pos hit] at within

/-- **Where the test is**, by the GDUs so far. -/
inductive Stands (z : LintEnv) (gs : List LintGdu) : LintState → Prop
  | running : AllFit z gs → GoesOn z gs → Stands z gs (.running (behind gs))
  | finished : AllFit z gs → ¬ GoesOn z gs → Stands z gs .finished
  | crashed : AllFit z gs → ¬ GoesOn z gs → Stands z gs (.fault .nullOid)
  | past {table : LintTable} {index : Nat} :
      ¬ AllFit z gs → Stands z gs (.fault (.past table index))

/-- One more GDU. -/
theorem Stands.step {z : LintEnv} {gs : List LintGdu} {s : LintState} (stands : Stands z gs s)
    (g : LintGdu) : Stands z (gs ++ [g]) (s.step z g).1 := by
  cases stands with
  | running fit goes =>
    have received := received z gs g
    have fits := fits_iff (g := g) goes
    simp only [LintState.step]
    generalize (behind gs).recvGdu z g = r at received
    cases received with
    | unread out =>
      exact .past fun fit => out (fits.mp ((allFit_snoc.mp fit).2 goes)).1
    | unsent lives goesOn out =>
      exact .past fun fit => out ((fits.mp ((allFit_snoc.mp fit).2 goes)).2 goesOn lives)
    | crashed reads crashes =>
      refine .crashed (allFit_snoc.mpr ⟨fit, fun _ => fits.mpr ⟨reads, ?_⟩⟩) ?_
      · exact fun _ lives => absurd crashes lives
      · exact fun goes => (goesOn_snoc.mp goes).2 (.inr (.inl crashes))
    | stopped reads stops =>
      refine .finished (allFit_snoc.mpr ⟨fit, fun _ => fits.mpr ⟨reads, ?_⟩⟩) ?_
      · intro goesOn
        cases goesOn.symm.trans stops
      · exact fun goes => (goesOn_snoc.mp goes).2 (.inl stops)
    | finished reads within done =>
      refine .finished (allFit_snoc.mpr ⟨fit, fun _ => fits.mpr ⟨reads, fun _ _ => within⟩⟩) ?_
      exact fun goes => (goesOn_snoc.mp goes).2 (.inr (.inr done))
    | sent reads lives goesOn within more =>
      refine .running (allFit_snoc.mpr ⟨fit, fun _ => fits.mpr ⟨reads, fun _ _ => within⟩⟩) ?_
      refine goesOn_snoc.mpr ⟨goes, ?_⟩
      rintro (stops | crashes | done)
      · cases goesOn.symm.trans stops
      · exact lives crashes
      · exact more done
  | finished fit ended =>
    exact .finished (allFit_snoc.mpr ⟨fit, fun goes => absurd goes ended⟩)
      fun goes => ended (goesOn_snoc.mp goes).1
  | crashed fit ended =>
    exact .crashed (allFit_snoc.mpr ⟨fit, fun goes => absurd goes ended⟩)
      fun goes => ended (goesOn_snoc.mp goes).1
  | past out => exact .past fun fit => out (allFit_snoc.mp fit).1

end SearchTest

/-- The record syntaxes of the test, and queries that stand for themselves. -/
def lintEnv : LintEnv where
  database := "Default"
  pqfParse query := some query.toUTF8.toList
  sortSpec sort := some sort.toUTF8.toList
  stringToOid name :=
    name.bind fun name =>
      [("usmarc", [1, 2, 840, 10003, 5, 10]), ("unimarc", [1, 2, 840, 10003, 5, 1]),
        ("danmarc", [1, 2, 840, 10003, 5, 14]), ("sutrs", [1, 2, 840, 10003, 5, 101]),
        ("grs1", [1, 2, 840, 10003, 5, 105]), ("xml", [1, 2, 840, 10003, 5, 109, 10]),
        ("normarc", [1, 2, 840, 10003, 5, 12])].lookup name

/-- A server that answers what it is asked: there are hits, and a record in the first syntax. -/
def SearchTest.answered : List LintGdu :=
  [.initResponse (some true), .searchResponse none (some 5),
    .presentResponse (some (.dbosd [some (.databaseRecord (some [1, 2, 840, 10003, 5, 10]))]))]

end Yazpp
