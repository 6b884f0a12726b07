import Mathlib.Data.List.Forall2
import Yazpp.IrAssoc.Model
import Yazpp.Lib.Runs

/-!
# A list of databases is split into its names

What the loop has found is read through the pointers of `list`, at the end, out of a buffer that the
loop has changed since. A name stays what it was: a NUL is behind it (`PointsTo`), and the loop only
writes further on (`PointsTo.append`). The invariant is `Splitting.Holds`; the run that `cp` is in
is what the last `len` characters in front of it are.

`num` and `len` count in an `int`. A run of 2^31 characters, or so many runs, is more than they can
count to, and nothing checks it. Below that the names are the maximal runs
(`names_split_iff`).
-/

set_option autoImplicit false

namespace Yazpp

open Yazpp.Lib

/-- The characters that belong to names: those that are no separators. -/
def CString.inName (sep : CString) (c : UInt8) : Bool := !sep.chars.contains c

/-- The database names are set to the maximal runs of a list between separators, in order; there
are no more than the array has places. -/
def NamesSplit (dblist sep : CString) (this : IrAssoc) : Prop :=
  ∃ after, this.splitDatabaseNames dblist sep = .ok after ∧
    Runs sep.inName dblist.chars (after.databaseNames.map CString.chars) ∧
    after.databaseNames.length ≤ dblist.strlen

/-- Names that an `int` can count: the characters of each, and themselves. -/
def IntCounts (names : List (List UInt8)) : Prop :=
  (∀ w ∈ names, w.length < 0x80000000) ∧ names.length < 0x80000000

theorem IntCounts.left {ws vs : List (List UInt8)} (h : IntCounts (ws ++ vs)) : IntCounts ws :=
  ⟨fun w hw => h.1 w (List.mem_append_left _ hw), by
    have := h.2
    rw [List.length_append] at this
    omega⟩

/-- Where it has none, it is the largest `int`. -/
theorem increment_error {n : Nat} {f : NamesFault} (h : increment n = .error f) :
    f = .overflow ∧ 0x7fffffff ≤ n := by
  unfold increment at h
  split at h
  case isTrue => cases h
  case isFalse hle =>
    cases h
    exact ⟨rfl, by omega⟩

namespace CString

/-- Of a character that is not the NUL, the condition of the loop. -/
theorem strchr_eq {sep : CString} {c : UInt8} (hc : c ≠ 0) :
    (!sep.strchr c) = sep.inName c := by
  simp [strchr, octets, inName, hc]

/-- A string is read up to the NUL behind it. -/
theorem read_eq {memory w rest : List UInt8} {start : Nat} (hw : 0 ∉ w)
    (h : memory.drop start = w ++ 0 :: rest) : read memory start = some ⟨w, hw⟩ := by
  have htake : (w ++ 0 :: rest).takeWhile (fun c => decide (c ≠ 0)) = w := by
    have hall : ∀ c ∈ w, decide (c ≠ 0) = true := fun c hc =>
      decide_eq_true fun e => hw (e ▸ hc)
    rw [List.takeWhile_append_of_pos hall]
    simp
  unfold read
  rw [if_pos (by simp [h])]
  simp only [h, htake]

end CString

/-! ## Pointers into the buffer -/

/-- A pointer to a name: its characters stand there, and a NUL behind them. -/
def PointsTo (memory : List UInt8) (ptr : Option Nat) (w : List UInt8) : Prop :=
  0 ∉ w ∧ ∃ start rest, ptr = some start ∧ memory.drop start = w ++ 0 :: rest

/-- It stays one when the buffer is written further on. -/
theorem PointsTo.append {memory more w : List UInt8} {ptr : Option Nat}
    (h : PointsTo memory ptr w) : PointsTo (memory ++ more) ptr w := by
  obtain ⟨hw, start, rest, rfl, hdrop⟩ := h
  have hlen : start ≤ memory.length := by
    by_contra hlt
    rw [List.drop_eq_nil_of_le (by omega)] at hdrop
    simp at hdrop
  refine ⟨hw, start, rest ++ more, rfl, ?_⟩
  rw [List.drop_append_of_le_length hlen, hdrop]
  simp

/-- What is copied through it. -/
theorem PointsTo.copyName {memory w : List UInt8} {ptr : Option Nat}
    (h : PointsTo memory ptr w) : ∃ name, IrAssoc.copyName memory ptr = .ok name ∧
      name.chars = w := by
  obtain ⟨hw, start, rest, rfl, hdrop⟩ := h
  exact ⟨⟨w, hw⟩, by simp only [IrAssoc.copyName, CString.read_eq hw hdrop], rfl⟩

/-- A list of pointers is copied in order. -/
theorem mapM_copyName {memory : List UInt8} {ptrs : List (Option Nat)}
    {ws : List (List UInt8)} (h : List.Forall₂ (PointsTo memory) ptrs ws) :
    ∃ names, ptrs.mapM (IrAssoc.copyName memory) = .ok names ∧ names.map CString.chars = ws := by
  induction h with
  | nil => exact ⟨[], rfl, rfl⟩
  | @cons ptr w ptrs ws hptr hrest ih =>
    obtain ⟨name, hname, hchars⟩ := hptr.copyName
    obtain ⟨names, hnames, hmap⟩ := ih
    refine ⟨name :: names, ?_, by simp [hchars, hmap]⟩
    rw [List.mapM_cons, hname]
    show (ptrs.mapM (IrAssoc.copyName memory) >>= fun bs => pure (name :: bs)) = _
    rw [hnames]
    rfl

/-! ## The loop -/

namespace Splitting

/-- The names found so far, which the entries of `list` point to. -/
structure Found (s : Splitting) (names : List (List UInt8)) : Prop where
  points : List.Forall₂ (PointsTo s.dbtmp) (s.list.take s.num) names
  room : s.num ≤ s.list.length
  counts : IntCounts names

/-- What is true where the loop looks at a character: what was found, and the last `len` characters
are the run that has begun. -/
structure Holds (s : Splitting) (names : List (List UInt8)) (cur : List UInt8) : Prop
    extends s.Found names where
  len : s.len = cur.length
  small : cur.length < 0x80000000
  tail : cur <:+ s.dbtmp

variable {s : Splitting} {names : List (List UInt8)} {cur : List UInt8}

/-- `num` is how many were found. -/
theorem Found.num (h : s.Found names) : s.num = names.length := by
  have := h.points.length_eq
  rw [List.length_take] at this
  have := h.room
  omega

/-- Further on in the buffer. -/
theorem Found.append (h : s.Found names) (more : List UInt8) (len : Nat) :
    ({ s with dbtmp := s.dbtmp ++ more, len := len } : Splitting).Found names :=
  ⟨h.points.imp fun _ _ => PointsTo.append, h.room, h.counts⟩

/-- What was found, and no run that has begun. -/
theorem Found.holds (h : s.Found names) :
    ({ s with len := 0 } : Splitting).Holds names [] :=
  { points := h.points, room := h.room, counts := h.counts, len := rfl
    small := Nat.succ_pos _, tail := List.nil_suffix }

/-- One more character of the run. -/
theorem Holds.push (h : s.Holds names cur) {c : UInt8} {len : Nat}
    (hlen : increment s.len = .ok len) :
    ({ s with dbtmp := s.dbtmp ++ [c], len := len } : Splitting).Holds names (cur ++ [c]) := by
  have hcur := h.len
  obtain ⟨pre, hpre⟩ := h.tail
  unfold increment at hlen
  split at hlen
  case isFalse => cases hlen
  case isTrue hlt =>
    cases hlen
    have hfound := h.toFound.append [c] (s.len + 1)
    exact
      { points := hfound.points, room := hfound.room, counts := hfound.counts
        len := by simp [hcur]
        small := by simp only [List.length_append, List.length_singleton]; omega
        tail := ⟨pre, by rw [← hpre, List.append_assoc]⟩ }

/-- Where `len` has no next value, the run is too long, and it does not get shorter. -/
theorem Holds.too_long (h : s.Holds names cur) {p : UInt8 → Bool} {c : UInt8} {f : NamesFault}
    (hlen : increment s.len = .error f) (hin : ∀ a ∈ cur ++ [c], p a) {rest : List UInt8} :
    ¬ IntCounts (names ++ runs p (cur ++ c :: rest)) := by
  obtain ⟨-, hlong⟩ := increment_error hlen
  obtain ⟨r, hr, hle⟩ := exists_mem_runs_le (by simp) rest hin
  rw [List.append_assoc] at hr
  intro hcounts
  have hshort := hcounts.1 r (List.mem_append_right _ hr)
  have hcur := h.len
  simp only [List.length_append, List.length_singleton] at hle
  omega

/-- One more name: the run that ends at `cp`, with a NUL behind it. -/
theorem Holds.found (h : s.Holds names cur) (hword : 0 ∉ cur) (hroom : s.num < s.list.length)
    (hnum : s.num < 0x7fffffff) :
    ({ dbtmp := s.dbtmp ++ [0]
       list := s.list.set s.num (some (s.dbtmp.length - s.len))
       num := s.num + 1
       len := s.len } : Splitting).Found (names ++ [cur]) := by
  obtain ⟨pre, hpre⟩ := h.tail
  have hcount := h.toFound.num
  have hat : (s.dbtmp ++ [0]).drop (s.dbtmp.length - s.len) = cur ++ 0 :: [] := by
    rw [← hpre, h.len, List.length_append, Nat.add_sub_cancel, List.append_assoc]
    simp
  refine ⟨?_, ?_, ?_, ?_⟩
  · show List.Forall₂ _ ((s.list.set s.num _).take (s.num + 1)) _
    rw [List.take_add_one, List.take_set_of_le (Nat.le_refl _), List.getElem?_set_self hroom]
    exact List.rel_append (h.points.imp fun _ _ => PointsTo.append)
      (.cons ⟨hword, _, _, rfl, hat⟩ .nil)
  · show s.num + 1 ≤ (s.list.set s.num _).length
    rw [List.length_set]
    omega
  · intro w hw
    rcases List.mem_append.mp hw with hw | hw
    · exact h.counts.1 w hw
    · rw [List.mem_singleton.mp hw]
      exact h.small
  · rw [List.length_append, List.length_singleton]
    omega

/-- At the end of a run it is put in the list; where none has begun, nothing is. Behind it comes a
NUL. -/
theorem Holds.store (h : s.Holds names cur) (hword : 0 ∉ cur)
    (hroom : s.num + (piece cur).length ≤ s.list.length) :
    match s.store with
    | .ok s' =>
      ({ s' with dbtmp := s'.dbtmp ++ [0] } : Splitting).Found (names ++ piece cur) ∧
        s'.list.length = s.list.length
    | .error f => f = .overflow ∧ ¬ IntCounts (names ++ piece cur) := by
  have hnum := h.toFound.num
  have hlen := h.len
  unfold Splitting.store
  rcases eq_or_ne cur [] with rfl | hne
  · rw [if_pos (by simpa using hlen), piece_nil, List.append_nil]
    exact ⟨h.toFound.append [0] s.len, rfl⟩
  · have hpos := List.length_pos_iff.mpr hne
    have hfits : s.len ≤ s.dbtmp.length := hlen ▸ h.tail.length_le
    rw [piece_of_ne_nil hne] at hroom ⊢
    rw [List.length_singleton] at hroom
    rw [if_neg (by omega), if_pos ⟨by omega, hfits⟩]
    unfold increment
    by_cases hlt : s.num < 0x7fffffff
    · rw [if_pos hlt]
      exact ⟨h.found hword hroom hlt, List.length_set ..⟩
    · rw [if_neg hlt]
      refine ⟨rfl, fun hcounts => ?_⟩
      have := hcounts.2
      rw [List.length_append, List.length_singleton] at this
      omega

end Splitting

/-- The loop finds the runs of what is left, the one that has begun first, unless an `int` cannot
count them. The induction is on what is left. -/
theorem splitLoop_spec (sep : CString) (rest : List UInt8) (hrest : 0 ∉ rest) :
    ∀ {s : Splitting} {names : List (List UInt8)} {cur : List UInt8},
      s.Holds names cur → 0 ∉ cur → (∀ c ∈ cur, sep.inName c) →
      s.num + (runs sep.inName (cur ++ rest)).length ≤ s.list.length →
      match splitLoop sep (rest ++ [0]) s with
      | .ok s' => s'.Found (names ++ runs sep.inName (cur ++ rest))
      | .error f => f = .overflow ∧ ¬ IntCounts (names ++ runs sep.inName (cur ++ rest)) := by
  induction rest with
  | nil =>
    intro s names cur h hword hin hroom
    rw [List.append_nil, runs_of_forall hin] at hroom ⊢
    have hstore := h.store hword hroom
    rw [List.nil_append, splitLoop, if_neg (by simp)]
    cases hs : s.store with
    | error f =>
      rw [hs] at hstore
      exact hstore
    | ok s' =>
      rw [hs] at hstore
      exact hstore.1
  | cons c rest ih =>
    intro s names cur h hword hin hroom
    have hc : c ≠ 0 := fun e => hrest (e ▸ List.mem_cons_self ..)
    have htail : 0 ∉ rest := fun hmem => hrest (List.mem_cons_of_mem _ hmem)
    rw [List.cons_append, splitLoop, CString.strchr_eq hc]
    cases hname : sep.inName c with
    | true =>
      have hin' : ∀ a ∈ cur ++ [c], sep.inName a := fun a ha =>
        (List.mem_append.mp ha).elim (hin a) fun h => List.mem_singleton.mp h ▸ hname
      have hword' : 0 ∉ cur ++ [c] := fun hmem =>
        (List.mem_append.mp hmem).elim hword fun h => hc (List.mem_singleton.mp h).symm
      rw [if_pos ⟨hc, rfl⟩]
      cases hlen : increment s.len with
      | error f => exact ⟨(increment_error hlen).1, h.too_long hlen hin'⟩
      | ok len =>
        have := ih htail (h.push hlen) hword' hin' (by simpa using hroom)
        rw [List.append_assoc] at this
        exact this
    | false =>
      rw [runs_append_cons hin hname, List.length_append] at hroom
      rw [runs_append_cons hin hname]
      have hstore := h.store hword (by omega)
      rw [if_neg (by simp)]
      cases hs : s.store with
      | error f =>
        rw [hs] at hstore
        refine ⟨hstore.1, fun hcounts => hstore.2 ?_⟩
        rw [← List.append_assoc] at hcounts
        exact hcounts.left
      | ok s' =>
        rw [hs] at hstore
        have hnext := hstore.1.holds
        have hnum : s'.num = names.length + (piece cur).length := by
          rw [← List.length_append]
          exact hnext.num
        have := ih htail hnext (List.not_mem_nil) (fun _ h => nomatch h) (by
          have := hstore.2
          have := h.toFound.num
          show s'.num + (runs sep.inName rest).length ≤ s'.list.length
          omega)
        rw [List.append_assoc, List.nil_append] at this
        simp only [bind, Except.bind, if_neg hc]
        exact this

/-! ## The names that are set -/

/-- The whole call: the runs are set, unless an `int` cannot count them. -/
theorem splitDatabaseNames_spec (dblist sep : CString) (this : IrAssoc) :
    match this.splitDatabaseNames dblist sep with
    | .ok after => IntCounts (runs sep.inName dblist.chars) ∧
        after.databaseNames.map CString.chars = runs sep.inName dblist.chars
    | .error f => f = .overflow ∧ ¬ IntCounts (runs sep.inName dblist.chars) := by
  have hstart : ({ list := List.replicate dblist.strlen none } : Splitting).Holds [] [] :=
    { points := .nil, room := Nat.zero_le _, counts := ⟨List.forall_mem_nil _, Nat.succ_pos _⟩
      len := rfl, small := Nat.succ_pos _, tail := List.nil_suffix }
  have hloop := splitLoop_spec sep dblist.chars dblist.noNul hstart List.not_mem_nil
    (fun _ h => nomatch h) (by simpa [CString.strlen] using length_runs_le dblist.chars)
  unfold IrAssoc.splitDatabaseNames
  rw [CString.octets]
  cases hs : splitLoop sep (dblist.chars ++ [0]) { list := List.replicate dblist.strlen none } with
  | error f =>
    rw [hs] at hloop
    exact hloop
  | ok s =>
    rw [hs] at hloop
    obtain ⟨names, hcopy, hmap⟩ := mapM_copyName hloop.points
    show match this.setDatabaseNames s.num s.list s.dbtmp with | .ok _ => _ | .error _ => _
    unfold IrAssoc.setDatabaseNames
    rw [if_pos hloop.room, hcopy]
    exact ⟨hloop.counts, hmap⟩

/-- No place of the array or the buffer is used that is not there, on any input. -/
theorem splitDatabaseNames_in_bounds (dblist sep : CString) (this : IrAssoc) :
    this.splitDatabaseNames dblist sep ≠ .error .outOfBounds := by
  intro outside
  have hspec := splitDatabaseNames_spec dblist sep this
  rw [outside] at hspec
  cases hspec.1

/-- The names of a list are set to its runs exactly where an `int` can count the characters of each
run, and the runs. -/
theorem names_split_iff (dblist sep : CString) (this : IrAssoc) :
    NamesSplit dblist sep this ↔ IntCounts (runs sep.inName dblist.chars) := by
  have hspec := splitDatabaseNames_spec dblist sep this
  constructor
  · rintro ⟨after, hafter, -, -⟩
    rw [hafter] at hspec
    exact hspec.1
  · intro hcounts
    unfold NamesSplit
    cases hsplit : this.splitDatabaseNames dblist sep with
    | error f =>
      rw [hsplit] at hspec
      exact absurd hcounts hspec.2
    | ok after =>
      rw [hsplit] at hspec
      have hruns := runs_iff.mpr hspec.2
      refine ⟨after, rfl, hruns, ?_⟩
      simpa [CString.strlen] using hruns.length_le

/-- So many letters `a`. -/
def CString.letters (n : Nat) : CString where
  chars := List.replicate n 97
  noNul := fun h => absurd (List.eq_of_mem_replicate h) (by decide)

/-- Nothing separates them: they are one name, which may be too long. -/
theorem CString.not_intCounts_letters {n : Nat} (hn : 0x80000000 ≤ n) :
    ¬ IntCounts (runs (CString.letters 0).inName (CString.letters n).chars) := by
  have hne : List.replicate n (97 : UInt8) ≠ [] := by
    rw [Ne, List.replicate_eq_nil_iff]
    omega
  have hone : runs (CString.letters 0).inName (CString.letters n).chars =
      [List.replicate n 97] := by
    rw [runs_of_forall fun a ha => by rw [List.eq_of_mem_replicate ha]; rfl]
    exact piece_of_ne_nil hne
  intro hcounts
  have hshort := hcounts.1 (List.replicate n 97) (by rw [hone]; exact List.mem_singleton_self _)
  rw [List.length_replicate] at hshort
  omega

/-- No name is set to so many letters. -/
theorem CString.not_split_letters {n : Nat} (hn : 0x80000000 ≤ n) (this : IrAssoc) :
    ¬ NamesSplit (.letters n) (.letters 0) this := by
  rintro ⟨after, hafter, -, -⟩
  have hspec := splitDatabaseNames_spec (.letters n) (.letters 0) this
  rw [hafter] at hspec
  exact CString.not_intCounts_letters hn hspec.1

/-- A name of 2^31 letters, and no separators: `len` has no value for it. -/
theorem not_names_split : ¬ NamesSplit (.letters 0x80000000) (.letters 0) {} :=
  CString.not_split_letters (n := 0x80000000) (Nat.le_refl _) {}

end Yazpp
