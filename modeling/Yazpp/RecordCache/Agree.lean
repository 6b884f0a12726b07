import Yazpp.RecordCache.Spec
import Yazpp.ZServer.Piggyback

/-!
# The cache and the server agree on the composition of a search

Which element set names go with the records of a search response is worked out twice: by
`fetch_via_piggyback`, which gives no composition at all where there are none, and by `add`, which
builds a composition around a null pointer then. What is filed is a copy. A copy is made by encoding
and decoding, and a composition around a null pointer is encoded as an absent one, so the copy is
none again (`filed_as_fetched`); on that copy the agreement rests (`agrees_iff`).
-/

set_option autoImplicit false

namespace Yazpp

open Yazpp.Lib

/-- The element set names that apply to the records of a search with so many hits. -/
def SearchRequest.applicable (sreq : SearchRequest) (hits : Int) : Option Buf :=
  if hits ≤ sreq.smallSetUpperBound then sreq.smallSetElementSetNames
  else sreq.mediumSetElementSetNames

/-- The copies of compositions are made by encoding and decoding: what was decoded is copied as it
is, nothing is copied as nothing, and a choice whose pointer is null is encoded as an absent one. -/
structure CopiedByCode (yaz : Yaz) (decode : Option Buf → Option Composition) : Prop where
  clone : ∀ comp, yaz.cloneComp comp = decode (yaz.encode comp)
  whole : ∀ comp : RecordComposition,
    decode (yaz.encode (some comp.inMemory)) = some comp.inMemory
  absent : decode (yaz.encode none) = none
  missing : yaz.encode (some (.simple none)) = yaz.encode none

/-- An operation that leaves the request that was copied. -/
def CacheInput.keepsRequest : CacheInput → Bool
  | .add .. | .addHits .. | .setMaxSize _ => true
  | _ => false

/-- The server gives the element set names that apply, or no composition. -/
theorem piggyback_snd {sreq : SearchRequest} {hits : Int} (lower : 0 < hits)
    (upper : hits < 0x80000000)
    (fetches : hits ≤ sreq.smallSetUpperBound ∨
      sreq.smallSetUpperBound < hits ∧ hits < sreq.largeSetLowerBound) :
    (piggyback sreq hits).2 = (sreq.applicable hits).map .simple := by
  unfold piggyback SearchRequest.applicable
  rw [toInt32_eq (by omega) upper]
  dsimp only
  split
  · rfl
  · rw [if_pos (by omega)]

namespace RecordCache

variable {yaz : Yaz}

/-- The cache builds a composition around the element set names that apply, null or not. -/
theorem compFor_search {c : RecordCache} {sr : SearchRequest} (copied : c.searchRequest = some sr)
    {hits : Int} (lower : 0 < hits) :
    c.compFor hits = some (.simple (sr.applicable hits)) := by
  unfold compFor SearchRequest.applicable
  rw [if_neg (by omega), if_pos lower, copied]

/-- **What the agreement rests on**: the element set names that apply are there, or the copy of a
composition around a null pointer is none. -/
theorem agrees_iff
    (whole : ∀ names, yaz.cloneComp (some (.simple (some names))) = some (.simple (some names)))
    (names : Option Buf) :
    yaz.cloneComp (some (.simple names)) =
      (names.map RecordComposition.simple).map RecordComposition.inMemory ↔
    names.isSome = true ∨ yaz.cloneComp (some (.simple none)) = none := by
  cases names with
  | some names => exact iff_of_true (whole names) (.inl rfl)
  | none => exact (or_iff_right Bool.false_ne_true).symm

/-- What an `add` puts in front of the entries. -/
theorem add_entries (yaz : Yaz) (c : RecordCache) (npr : List CacheRecord) (start : Int)
    (comp : Option Composition) (grown : Nat) : ∃ new : List CacheEntry,
      (c.add yaz npr start comp grown).entries = new ++ c.entries ∧
      new.length = (if c.maxSize < c.nmemTotal then 0 else npr.length) ∧
      ∀ e ∈ new, e.comp = yaz.cloneComp comp := by
  have length : ∀ i, (filings start comp i npr).length = npr.length := by
    induction npr with
    | nil => exact fun _ => rfl
    | cons record records ih => exact fun i => congrArg (· + 1) (ih (i + 1))
  have comps : ∀ i, ∀ f ∈ filings start comp i npr, f.comp = comp := by
    clear length
    induction npr with
    | nil => exact fun _ _ hf => absurd hf List.not_mem_nil
    | cons record records ih =>
      intro i f hf
      rcases List.mem_cons.mp hf with rfl | hf
      · rfl
      · exact ih (i + 1) f hf
  unfold add
  split
  · exact ⟨[], rfl, rfl, List.forall_mem_nil _⟩
  · refine ⟨_, addLoop_eq start comp 0 npr c.entries, ?_, fun e he => ?_⟩
    · rw [List.length_reverse, List.length_map, length]
    · obtain ⟨f, hf, rfl⟩ := mem_map_reverse.mp he
      exact congrArg yaz.cloneComp (comps 0 f hf)

/-- The copy of the request stays while nothing else is copied and nothing is cleared. -/
theorem searchRequest_exec {is : List CacheInput} {c c' : RecordCache} {k : List CacheEvent}
    (steady : ∀ i ∈ is, i.keepsRequest = true)
    (next : (recordCache yaz).exec c is = some (c', k)) : c'.searchRequest = c.searchRequest := by
  induction is generalizing c k with
  | nil =>
    cases next
    rfl
  | cons i is ih =>
    obtain ⟨c₁, o₁, o₂, step, rest, -⟩ := Machine.exec_cons.mp next
    obtain ⟨keeps, steady⟩ := List.forall_mem_cons.mp steady
    rw [ih steady rest]
    change c.step yaz i = some (c₁, o₁) at step
    cases i with
    | add npr start comp grown =>
      obtain ⟨rfl, -⟩ := Prod.mk.inj (Option.some.inj step)
      unfold add
      split <;> rfl
    | addHits npr start hits compGrown grown =>
      obtain ⟨rfl, -⟩ := Prod.mk.inj (Option.some.inj step)
      unfold addHits add
      dsimp only
      split <;> rfl
    | setMaxSize sz =>
      obtain ⟨rfl, -⟩ := Prod.mk.inj (Option.some.inj step)
      rfl
    | clear | copySearchRequest | copyPresentRequest => cases keeps

/-- **The cache files the records of a search under the composition that the server fetched them
with**, none included. -/
theorem filed_as_fetched {decode : Option Buf → Option Composition}
    (codec : CopiedByCode yaz decode) {sr : SearchRequest} (copied : yaz.copySearch sr = some sr)
    {c c' : RecordCache} {grown : Nat} {later : List CacheInput} {k : List CacheEvent}
    (steady : ∀ i ∈ later, i.keepsRequest = true)
    (next : (recordCache yaz).exec c (.copySearchRequest sr grown :: later) = some (c', k))
    {hits : Int} (lower : 0 < hits) (upper : hits < 0x80000000)
    (fetches : hits ≤ sr.smallSetUpperBound ∨
      sr.smallSetUpperBound < hits ∧ hits < sr.largeSetLowerBound)
    (npr : List CacheRecord) (start : Int) (compGrown grown' : Nat) :
    ∃ new : List CacheEntry,
      (c'.addHits yaz npr start hits compGrown grown').entries = new ++ c'.entries ∧
      new.length = (if c'.maxSize < c'.nmemTotal + compGrown then 0 else npr.length) ∧
      ∀ e ∈ new, e.comp = (piggyback sr hits).2.map RecordComposition.inMemory := by
  obtain ⟨c₁, o₁, o₂, step, rest, -⟩ := Machine.exec_cons.mp next
  obtain ⟨rfl, -⟩ := Prod.mk.inj (Option.some.inj step)
  have request : c'.searchRequest = some sr := (searchRequest_exec steady rest).trans copied
  have whole : ∀ names, yaz.cloneComp (some (.simple (some names))) =
      some (.simple (some names)) := fun names =>
    (codec.clone _).trans (codec.whole (.simple names))
  have none_again : yaz.cloneComp (some (.simple none)) = none := by
    rw [codec.clone, codec.missing, codec.absent]
  obtain ⟨new, entries, length, comps⟩ := add_entries yaz
    { c' with nmemTotal := c'.nmemTotal + compGrown } npr start (c'.compFor hits) grown'
  refine ⟨new, entries, length, fun e he => (comps e he).trans ?_⟩
  rw [compFor_search request lower, piggyback_snd lower upper fetches]
  exact (agrees_iff whole _).mpr (.inr none_again)

/-- The decoding that goes with `Yaz.plain`. -/
def decodePlain : Option Buf → Option Composition
  | some (1 :: elementSetNames) => some (.simple (some elementSetNames))
  | some (2 :: spec) => some (.complex spec)
  | _ => none

theorem copiedByCode_plain : CopiedByCode .plain decodePlain where
  clone comp := by
    rcases comp with _ | ⟨_ | elementSetNames⟩ | spec <;> rfl
  whole comp := by
    cases comp <;> rfl
  absent := rfl
  missing := rfl

/-- A small set without element set names, and a record of it. -/
theorem filed_as_fetched_none :
    (new.copySearchRequest .plain (.bounded 10 100 5) 80).addHits .plain [.marc 1] 1 7 16 50
      = { entries := [⟨1, some (.marc 1), none⟩], searchRequest := some (.bounded 10 100 5)
          nmemTotal := 146 } ∧
    ∃ added : List CacheEntry,
      ((new.copySearchRequest .plain (.bounded 10 100 5) 80).addHits .plain [.marc 1] 1 7 16
        50).entries = added ++ (new.copySearchRequest .plain (.bounded 10 100 5) 80).entries ∧
      ∀ e ∈ added, e.comp = (piggyback (.bounded 10 100 5) 7).2.map RecordComposition.inMemory := by
  refine ⟨by decide, ?_⟩
  have copied : Yaz.plain.copySearch (.bounded 10 100 5) = some (.bounded 10 100 5) := rfl
  have next : (recordCache .plain).exec new [.copySearchRequest (.bounded 10 100 5) 80] =
      some (new.copySearchRequest .plain (.bounded 10 100 5) 80, []) := rfl
  obtain ⟨added, entries, -, comps⟩ := filed_as_fetched copiedByCode_plain copied
    (List.forall_mem_nil _) next (show (0 : Int) < 7 by decide) (by decide) (.inl (by decide))
    [.marc 1] 1 16 50
  exact ⟨added, entries, comps⟩

end RecordCache

end Yazpp
