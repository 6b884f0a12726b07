import Yazpp.CInt
import Yazpp.Lib.Machine
import Yazpp.Lib.Search
import Yazpp.ZServer.Apdu

/-!
# `RecordCache`, function by function

The embedding of `src/yaz-z-cache.cpp`. The cache is a list of entries, the newest first; a lookup
goes through it once for every position to see whether it has them all, and once more to put them
together. The compositions are compared as octets.

What the cache uses of YAZ is a parameter (`Yaz`): the encoding of a composition, and the copies,
which are made by encoding and decoding and may fail. `nmem_total`, which `add` compares with
`max_size`, grows by amounts that are YAZ's own, and each operation comes with its own. A read
through a null pointer is a fault.
-/

set_option autoImplicit false

namespace Yazpp

open Yazpp.Lib

/-- `Z_RecordComposition` in memory: the pointer to the element set names may be null. -/
inductive Composition
  | simple (elementSetNames : Option Buf)
  | complex (spec : Buf)
deriving DecidableEq, Repr

/-- A composition that was decoded. -/
def RecordComposition.inMemory : RecordComposition → Composition
  | .simple elementSetNames => .simple (some elementSetNames)
  | .complex spec => .complex spec

/-- `Z_External`: the reference, which is optional, and what else there is. -/
structure External where
  directReference : Option Oid
  encoding : Buf
deriving DecidableEq, Repr

/-- The union of `Z_NamePlusRecord`, as the cache tells its members apart. -/
inductive CacheContent
  | databaseRecord (record : External)
  | other (octets : Buf)
deriving DecidableEq, Repr

/-- `Z_NamePlusRecord`, with a record in it. -/
structure CacheRecord where
  databaseName : Option Buf
  content : CacheContent
deriving DecidableEq, Repr

/-- What the cache uses of YAZ: the octets of a composition, none where nothing is encoded, and the
copies of `yaz_clone_z_NamePlusRecord`, `yaz_clone_z_RecordComposition`, and of the requests. -/
structure Yaz where
  encode : Option Composition → Option Buf
  cloneRecord : CacheRecord → Option CacheRecord
  cloneComp : Option Composition → Option Composition
  copySearch : SearchRequest → Option SearchRequest
  copyPresent : PresentRequest → Option PresentRequest

/-- `RecordCache_Entry`. -/
structure CacheEntry where
  offset : Int
  record : Option CacheRecord
  comp : Option Composition
deriving DecidableEq, Repr

/-- `RecordCache::Rep`. -/
structure RecordCache where
  entries : List CacheEntry := []
  searchRequest : Option SearchRequest := none
  presentRequest : Option PresentRequest := none
  maxSize : Nat := 200000
  nmemTotal : Nat := 0
deriving DecidableEq, Repr

/-- A read through a null pointer: `m_record`, or the argument of `oid_oidcmp`. -/
inductive CacheFault
  | nullRecord
  | nullOid
deriving DecidableEq, Repr

/-- What `lookup` leaves: what it returns, and `*npr`, with the number of records in it, when that
was assigned. -/
structure Looked where
  found : Bool
  npr : Option (Int × List CacheRecord) := none
deriving DecidableEq, Repr

namespace RecordCache

/-- `RecordCache::RecordCache`. -/
def new : RecordCache := {}

/-- `RecordCache::set_max_size`. -/
def setMaxSize (sz : Nat) (c : RecordCache) : RecordCache := { c with maxSize := sz }

/-- `RecordCache::clear`. -/
def clear (c : RecordCache) : RecordCache := { maxSize := c.maxSize }

variable (yaz : Yaz)

/-- `RecordCache::copy_searchRequest`. -/
def copySearchRequest (sr : SearchRequest) (grown : Nat) (c : RecordCache) : RecordCache :=
  { c with
    searchRequest := yaz.copySearch sr
    presentRequest := none
    nmemTotal := c.nmemTotal + grown }

/-- `RecordCache::copy_presentRequest`. -/
def copyPresentRequest (pr : PresentRequest) (grown : Nat) (c : RecordCache) : RecordCache :=
  { c with
    searchRequest := none
    presentRequest := yaz.copyPresent pr
    nmemTotal := c.nmemTotal + grown }

/-- The entry that is made of a record. -/
def fileOne (offset : Int) (record : CacheRecord) (comp : Option Composition) : CacheEntry where
  offset := offset
  record := yaz.cloneRecord record
  comp := yaz.cloneComp comp

/-- The loop of `RecordCache::add`, from `i` on. -/
def addLoop (start : Int) (comp : Option Composition) :
    Nat → List CacheRecord → List CacheEntry → List CacheEntry
  | _, [], entries => entries
  | i, record :: records, entries =>
    addLoop start comp (i + 1) records
      (fileOne yaz (toInt32 (i + start)) record comp :: entries)

/-- `RecordCache::add`, with a composition. -/
def add (npr : List CacheRecord) (start : Int) (comp : Option Composition) (grown : Nat)
    (c : RecordCache) : RecordCache :=
  if c.maxSize < c.nmemTotal then c
  else { c with
    entries := addLoop yaz start comp 0 npr c.entries
    nmemTotal := c.nmemTotal + grown }

/-- The composition that `RecordCache::add` builds for a response with so many hits. -/
def compFor (hits : Int) (c : RecordCache) : Option Composition :=
  match if hits = -1 then c.presentRequest else none with
  | some presentRequest => presentRequest.recordComposition.map RecordComposition.inMemory
  | none =>
    match if 0 < hits then c.searchRequest else none with
    | some searchRequest =>
      some (.simple (if hits ≤ searchRequest.smallSetUpperBound then
        searchRequest.smallSetElementSetNames else searchRequest.mediumSetElementSetNames))
    | none => none

/-- `RecordCache::add`, with the number of hits. It allocates the composition that it builds before
the sizes are compared. -/
def addHits (npr : List CacheRecord) (start hits : Int) (compGrown grown : Nat)
    (c : RecordCache) : RecordCache :=
  let comp := c.compFor hits
  ({ c with nmemTotal := c.nmemTotal + compGrown }).add yaz npr start comp grown

/-- The comparison of two encodings. -/
def sameOctets : Option Buf → Option Buf → Bool
  | some buf1, some buf2 => buf1 ≠ [] ∧ buf1 = buf2
  | none, none => true
  | _, _ => false

/-- The comparison of an entry that has the composition and the offset with a record syntax. -/
def compareOid (entry : CacheEntry) (recordSyntax : Oid) : Except CacheFault Bool :=
  match entry.record with
  | none => .error .nullRecord
  | some record =>
    match record.content with
    | .other _ => .ok false
    | .databaseRecord r =>
      match r.directReference with
      | none => .error .nullOid
      | some oid => .ok (oid = recordSyntax)

/-- `Rep::match`. -/
def matchEntry (recordSyntax : Option Oid) (offset : Int) (comp : Option Composition)
    (entry : CacheEntry) : Except CacheFault Bool :=
  if sameOctets (yaz.encode comp) (yaz.encode entry.comp) then
    match recordSyntax with
    | none => .ok false
    | some oid => if entry.offset = offset then compareOid entry oid else .ok false
  else .ok false

/-- The entry of a position. -/
def findEntry (recordSyntax : Option Oid) (offset : Int) (comp : Option Composition)
    (c : RecordCache) : Except CacheFault (Option CacheEntry) :=
  search (matchEntry yaz recordSyntax offset comp) c.entries

/-- The first loop of `RecordCache::lookup`, from `i` on: is there an entry for every position? -/
def testLoop (start : Int) (recordSyntax : Option Oid) (comp : Option Composition)
    (c : RecordCache) : Nat → Nat → Except CacheFault Bool
  | 0, _ => .ok true
  | left + 1, i =>
    match c.findEntry yaz recordSyntax (toInt32 (start + i)) comp with
    | .error fault => .error fault
    | .ok none => .ok false
    | .ok (some _) => testLoop start recordSyntax comp c left (i + 1)

/-- Its second loop: the records, one behind the other. -/
def buildLoop (start : Int) (recordSyntax : Option Oid) (comp : Option Composition)
    (c : RecordCache) : Nat → Nat → List CacheRecord → Except CacheFault (Bool × List CacheRecord)
  | 0, _, records => .ok (true, records)
  | left + 1, i, records =>
    match c.findEntry yaz recordSyntax (toInt32 (start + i)) comp with
    | .error fault => .error fault
    | .ok none => .ok (false, records)
    | .ok (some entry) =>
      match entry.record with
      | none => .error .nullRecord
      | some record => buildLoop start recordSyntax comp c left (i + 1) (records ++ [record])

/-- `RecordCache::lookup`. -/
def lookup (start num : Int) (recordSyntax : Option Oid) (comp : Option Composition)
    (c : RecordCache) : Except CacheFault Looked :=
  match testLoop yaz start recordSyntax comp c num.toNat 0 with
  | .error fault => .error fault
  | .ok false => .ok { found := false }
  | .ok true =>
    match buildLoop yaz start recordSyntax comp c num.toNat 0 [] with
    | .error fault => .error fault
    | .ok (found, records) => .ok { found := found, npr := some (num, records) }

end RecordCache

/-- An operation, with what `nmem_total` grows by. -/
inductive CacheInput
  | add (npr : List CacheRecord) (start : Int) (comp : Option Composition) (grown : Nat)
  | addHits (npr : List CacheRecord) (start hits : Int) (compGrown grown : Nat)
  | clear
  | copySearchRequest (sr : SearchRequest) (grown : Nat)
  | copyPresentRequest (pr : PresentRequest) (grown : Nat)
  | setMaxSize (sz : Nat)
deriving DecidableEq, Repr

/-- What becomes of it: records are filed or refused, or everything is forgotten. -/
inductive CacheEvent
  | filed (npr : List CacheRecord) (start : Int) (comp : Option Composition)
  | refused
  | cleared
deriving DecidableEq, Repr

namespace RecordCache

variable (yaz : Yaz)

/-- What `add` does with the records that it is given. -/
def addEvent (npr : List CacheRecord) (start : Int) (comp : Option Composition)
    (c : RecordCache) : CacheEvent :=
  if c.maxSize < c.nmemTotal then .refused else .filed npr start comp

/-- One operation. -/
def step (c : RecordCache) : CacheInput → Option (RecordCache × List CacheEvent)
  | .add npr start comp grown => some (c.add yaz npr start comp grown, [c.addEvent npr start comp])
  | .addHits npr start hits compGrown grown =>
    some (c.addHits yaz npr start hits compGrown grown,
      [({ c with nmemTotal := c.nmemTotal + compGrown }).addEvent npr start (c.compFor hits)])
  | .clear => some (c.clear, [.cleared])
  | .copySearchRequest sr grown => some (c.copySearchRequest yaz sr grown, [])
  | .copyPresentRequest pr grown => some (c.copyPresentRequest yaz pr grown, [])
  | .setMaxSize sz => some (c.setMaxSize sz, [])

end RecordCache

/-- One `RecordCache` under any sequence of operations. -/
def recordCache (yaz : Yaz) : Machine RecordCache CacheInput CacheEvent := ⟨RecordCache.step yaz⟩

end Yazpp
