import Mathlib.Logic.Function.Basic

/-!
# Arenas

Memory that is allocated for an owner and freed all at once. An owner has an arena or has given it
away; a block is allocated from an arena, and lives as long as this. The contents of one arena can
be moved to another as a whole, where they live on at their addresses.

Whatever offers this is a parameter here (`Arenas`). `Arenas.Lawful` is what is known of it: what
each function does to what is in memory (`ArenaContents`), and that it is a fault to touch what is
not there.

`Arenas.Keeps` says what is in memory by what the owners have. Every operation has its rule: what it
needs of the owners for not going wrong, and what they have afterwards.
-/

set_option autoImplicit false

namespace Yazpp.Lib

/-- What goes wrong: an owner, an arena or a block that is not there. A null arena is `none`. -/
inductive ArenaFault
  | owner (o : Nat)
  | arena (r : Option Nat)
  | block (a : Nat)
deriving DecidableEq, Repr

/-- The functions of a memory with arenas. Its states are of type `μ`, its blocks of type `β`. -/
structure Arenas (μ β : Type) where
  start : μ
  -- a new owner, with a new arena
  create : μ → Nat × μ
  -- an owner goes, and its arena
  destroy : Nat → μ → Except ArenaFault μ
  -- a block is allocated for an owner, in an arena that it gets if it has none
  alloc : Nat → β → μ → Except ArenaFault (Nat × μ)
  read : Nat → μ → Except ArenaFault β
  arenaOf : Nat → μ → Except ArenaFault (Option Nat)
  assign : Nat → Option Nat → μ → Except ArenaFault μ
  -- an owner gives its arena away
  extract : Nat → μ → Except ArenaFault (Option Nat × μ)
  newArena : μ → Nat × μ
  -- the blocks of one arena are moved to another
  transfer (dst src : Option Nat) : μ → Except ArenaFault μ
  -- an arena is freed, with its blocks
  free : Option Nat → μ → Except ArenaFault μ

/-- What is in memory: the owners with their arenas, and the arenas with their blocks. -/
structure ArenaContents (β : Type) where
  owners : Nat → Option (Option Nat) := fun _ => none
  arenas : Nat → Option (List (Nat × β)) := fun _ => none

namespace ArenaContents

variable {β : Type}

/-- An owner has another arena, or is another one. -/
def setOwner (o : Nat) (x : Option (Option Nat)) (c : ArenaContents β) : ArenaContents β :=
  { c with owners := Function.update c.owners o x }

/-- An arena has other blocks, or is made or freed. -/
def setArena (r : Nat) (l : Option (List (Nat × β))) (c : ArenaContents β) : ArenaContents β :=
  { c with arenas := Function.update c.arenas r l }

/-- An arena is freed, if it is one. -/
def freed (x : Option Nat) (c : ArenaContents β) : ArenaContents β :=
  match x with
  | none => c
  | some r => c.setArena r none

/-- It may be freed. -/
def MayFree (x : Option Nat) (c : ArenaContents β) : Prop := ∀ r ∈ x, c.arenas r ≠ none

end ArenaContents

namespace Arenas

variable {μ β : Type}

/-- To touch what is not there is a fault. -/
structure Checked (mem : Arenas μ β) (Holds : μ → ArenaContents β → Prop) : Prop where
  destroy_gone : ∀ m c o, Holds m c → c.owners o = none → mem.destroy o m = .error (.owner o)
  alloc_gone : ∀ m c o b, Holds m c → c.owners o = none → mem.alloc o b m = .error (.owner o)
  arenaOf_gone : ∀ m c o, Holds m c → c.owners o = none → mem.arenaOf o m = .error (.owner o)
  assign_gone : ∀ m c o x, Holds m c → c.owners o = none → mem.assign o x m = .error (.owner o)
  extract_gone : ∀ m c o, Holds m c → c.owners o = none → mem.extract o m = .error (.owner o)
  read_gone : ∀ m c a, Holds m c → (∀ r l b, c.arenas r = some l → (a, b) ∉ l) →
    mem.read a m = .error (.block a)
  free_gone : ∀ m c r, Holds m c → c.arenas r = none →
    mem.free (some r) m = .error (.arena (some r))
  transfer_gone : ∀ m c dst src, Holds m c → c.arenas src = none →
    mem.transfer (some dst) (some src) m = .error (.arena (some src))
  transfer_null : ∀ m dst, mem.transfer dst none m = .error (.arena none)

/-- **What is known of such a memory**: each function by what is in memory before and behind it. -/
structure Lawful (mem : Arenas μ β) (Holds : μ → ArenaContents β → Prop) : Prop
    extends mem.Checked Holds where
  start : Holds mem.start {}
  create : ∀ m c, Holds m c → c.owners (mem.create m).1 = none ∧
    ∃ r, c.arenas r = none ∧
      Holds (mem.create m).2 ((c.setOwner (mem.create m).1 (some (some r))).setArena r (some []))
  destroy : ∀ m c o x, Holds m c → c.owners o = some x → c.MayFree x →
    ∃ m', mem.destroy o m = .ok m' ∧ Holds m' ((c.setOwner o none).freed x)
  alloc : ∀ m c o r l b, Holds m c → c.owners o = some (some r) → c.arenas r = some l →
    ∃ a m', mem.alloc o b m = .ok (a, m') ∧ Holds m' (c.setArena r (some (l ++ [(a, b)])))
  alloc_bare : ∀ m c o b, Holds m c → c.owners o = some none → ∃ r a m', c.arenas r = none ∧
    mem.alloc o b m = .ok (a, m') ∧
      Holds m' ((c.setOwner o (some (some r))).setArena r (some [(a, b)]))
  read : ∀ m c r l a b, Holds m c → c.arenas r = some l → (a, b) ∈ l → mem.read a m = .ok b
  arenaOf : ∀ m c o x, Holds m c → c.owners o = some x → mem.arenaOf o m = .ok x
  assign : ∀ m c o x y, Holds m c → c.owners o = some x →
    ∃ m', mem.assign o y m = .ok m' ∧ Holds m' (c.setOwner o (some y))
  extract : ∀ m c o x, Holds m c → c.owners o = some x →
    ∃ m', mem.extract o m = .ok (x, m') ∧ Holds m' (c.setOwner o (some none))
  newArena : ∀ m c, Holds m c → c.arenas (mem.newArena m).1 = none ∧
    Holds (mem.newArena m).2 (c.setArena (mem.newArena m).1 (some []))
  transfer : ∀ m c dst src k l, Holds m c → dst ≠ src → c.arenas dst = some k →
    c.arenas src = some l → ∃ m', mem.transfer (some dst) (some src) m = .ok m' ∧
      Holds m' ((c.setArena src (some [])).setArena dst (some (k ++ l)))
  free : ∀ m c x, Holds m c → c.MayFree x →
    ∃ m', mem.free x m = .ok m' ∧ Holds m' (c.freed x)

/-- An owner gives its arena away to be freed. -/
def release (mem : Arenas μ β) (o : Nat) (m : μ) : Except ArenaFault μ := do
  let (r, m) ← mem.extract o m
  mem.free r m

end Arenas

/-- What the owners have: nothing, no arena, or the blocks in theirs. Nothing else is allocated. -/
structure ArenaContents.Owned {β : Type} (c : ArenaContents β)
    (own : Nat → Option (Option (List (Nat × β)))) : Prop where
  gone : ∀ o, own o = none ↔ c.owners o = none
  bare : ∀ o, c.owners o = some none → own o = some none
  blocks : ∀ o r, c.owners o = some (some r) → own o = some (c.arenas r)
  live : ∀ o r, c.owners o = some (some r) → c.arenas r ≠ none
  apart : ∀ o o' r, c.owners o = some (some r) → c.owners o' = some (some r) → o = o'
  kept : ∀ r, c.arenas r ≠ none → ∃ o, c.owners o = some (some r)

namespace ArenaContents.Owned

variable {β : Type} {c : ArenaContents β} {own : Nat → Option (Option (List (Nat × β)))}

theorem empty : ({} : ArenaContents β).Owned fun _ => none := by
  constructor <;> simp

/-- Of an owner with an arena, or without one. -/
theorem cases (h : c.Owned own) {o : Nat} {x : Option (List (Nat × β))} (ho : own o = some x) :
    (x = none ∧ c.owners o = some none) ∨
      ∃ r l, x = some l ∧ c.owners o = some (some r) ∧ c.arenas r = some l := by
  cases howner : c.owners o with
  | none => cases ho.symm.trans ((h.gone o).mpr howner)
  | some arena =>
    cases arena with
    | none =>
      cases ho.symm.trans (h.bare o howner)
      exact .inl ⟨rfl, rfl⟩
    | some r =>
      obtain ⟨l, hl⟩ := Option.ne_none_iff_exists'.mp (h.live o r howner)
      cases ho.symm.trans (h.blocks o r howner)
      exact .inr ⟨r, l, hl, rfl, hl⟩

/-- What an owner has may be freed. -/
theorem mayFree (h : c.Owned own) {o : Nat} {x : Option Nat} (ho : c.owners o = some x) :
    c.MayFree x := by
  rintro r rfl
  exact h.live o r ho

/-- A new arena, of an owner that is new or has none. -/
theorem provide (h : c.Owned own) {o r : Nat} (ho : ∀ r', c.owners o ≠ some (some r'))
    (hr : c.arenas r = none) (l : List (Nat × β)) :
    ((c.setOwner o (some (some r))).setArena r (some l)).Owned
      (Function.update own o (some (some l))) := by
  obtain ⟨gone, bare, blocks, live, apart, kept⟩ := h
  constructor <;> simp only [setOwner, setArena, Function.update_apply]
  all_goals grind

/-- Other blocks in the arena of an owner. -/
theorem set (h : c.Owned own) {o r : Nat} (ho : c.owners o = some (some r))
    (l : List (Nat × β)) :
    (c.setArena r (some l)).Owned (Function.update own o (some (some l))) := by
  have hlive := h.live o r ho
  obtain ⟨gone, bare, blocks, live, apart, kept⟩ := h
  constructor <;> simp only [setArena, Function.update_apply]
  all_goals grind

/-- An owner goes, or is left without an arena: `y` says which. -/
theorem leave (h : c.Owned own) {o : Nat} {x : Option Nat} (ho : c.owners o = some x)
    {y : Option (Option Nat)} (hy : y = none ∨ y = some none) :
    ((c.setOwner o y).freed x).Owned (Function.update own o (y.map fun _ => none)) := by
  obtain ⟨gone, bare, blocks, live, apart, kept⟩ := h
  cases x with
  | none =>
    constructor <;> simp only [setOwner, freed, Function.update_apply]
    all_goals grind
  | some r =>
    constructor <;> simp only [setOwner, setArena, freed, Function.update_apply]
    all_goals grind

/-- The blocks of one owner are moved to another, whose arena may be new. -/
theorem surrender (h : c.Owned own) {src dst r r' : Nat} {k l : List (Nat × β)}
    (hsrc : c.owners src = some (some r)) (distinct : r' ≠ r)
    (hdst : c.owners dst = some (some r') ∨ c.owners dst = some none ∧ c.arenas r' = none) :
    ArenaContents.Owned
      { owners := Function.update (Function.update c.owners src (some none)) dst (some (some r'))
        arenas := Function.update (Function.update c.arenas r' (some (k ++ l))) r none }
      (Function.update (Function.update own src (some none)) dst (some (some (k ++ l)))) := by
  obtain ⟨gone, bare, blocks, live, apart, kept⟩ := h
  constructor <;> simp only [Function.update_apply]
  all_goals grind

end ArenaContents.Owned

namespace Arenas

variable {μ β : Type}

/-- What the owners have in a state of the memory. -/
def Keeps (Holds : μ → ArenaContents β → Prop) (m : μ)
    (own : Nat → Option (Option (List (Nat × β)))) : Prop := ∃ c, Holds m c ∧ c.Owned own

namespace Lawful

variable {mem : Arenas μ β} {Holds : μ → ArenaContents β → Prop} {m : μ}
  {own : Nat → Option (Option (List (Nat × β)))}

theorem keeps_start (laws : mem.Lawful Holds) : Keeps Holds mem.start fun _ => none :=
  ⟨_, laws.start, .empty⟩

theorem keeps_create (laws : mem.Lawful Holds) (h : Keeps Holds m own) :
    own (mem.create m).1 = none ∧
      Keeps Holds (mem.create m).2 (Function.update own (mem.create m).1 (some (some []))) := by
  obtain ⟨c, holds, owned⟩ := h
  obtain ⟨new, r, hr, holds'⟩ := laws.create m c holds
  refine ⟨(owned.gone _).mpr new, _, holds', owned.provide (fun r' hr' => ?_) hr []⟩
  cases new.symm.trans hr'

/-- An owner goes, and its arena is freed. -/
theorem keeps_destroy (laws : mem.Lawful Holds) (h : Keeps Holds m own) {o : Nat}
    {x : Option (List (Nat × β))} (ho : own o = some x) :
    ∃ m', mem.destroy o m = .ok m' ∧ Keeps Holds m' (Function.update own o none) := by
  obtain ⟨c, holds, owned⟩ := h
  cases howner : c.owners o with
  | none => cases ho.symm.trans ((owned.gone _).mpr howner)
  | some arena =>
    obtain ⟨m', hdestroy, holds'⟩ := laws.destroy m c o arena holds howner (owned.mayFree howner)
    exact ⟨m', hdestroy, _, holds', owned.leave howner (.inl rfl)⟩

/-- What an owner has is freed, and the owner stays. -/
theorem keeps_release (laws : mem.Lawful Holds) (h : Keeps Holds m own) {o : Nat}
    {x : Option (List (Nat × β))} (ho : own o = some x) :
    ∃ m', mem.release o m = .ok m' ∧ Keeps Holds m' (Function.update own o (some none)) := by
  obtain ⟨c, holds, owned⟩ := h
  cases howner : c.owners o with
  | none => cases ho.symm.trans ((owned.gone _).mpr howner)
  | some arena =>
    obtain ⟨m₁, hextract, holds₁⟩ := laws.extract m c o arena holds howner
    obtain ⟨m₂, hfree, holds₂⟩ := laws.free m₁ _ arena holds₁ (owned.mayFree howner)
    refine ⟨m₂, ?_, _, holds₂, owned.leave howner (.inr rfl)⟩
    simp only [release, hextract, bind, Except.bind]
    exact hfree

/-- A block is added to what its owner has. -/
theorem keeps_alloc (laws : mem.Lawful Holds) (h : Keeps Holds m own) {o : Nat}
    {x : Option (List (Nat × β))} (ho : own o = some x) (b : β) :
    ∃ a m', mem.alloc o b m = .ok (a, m') ∧
      Keeps Holds m' (Function.update own o (some (some (x.getD [] ++ [(a, b)])))) := by
  obtain ⟨c, holds, owned⟩ := h
  rcases owned.cases ho with ⟨rfl, howner⟩ | ⟨r, l, rfl, howner, harena⟩
  · obtain ⟨r, a, m', hr, halloc, holds'⟩ := laws.alloc_bare m c o b holds howner
    refine ⟨a, m', halloc, _, holds', owned.provide (fun r' hr' => ?_) hr _⟩
    cases howner.symm.trans hr'
  · obtain ⟨a, m', halloc, holds'⟩ := laws.alloc m c o r l b holds howner harena
    exact ⟨a, m', halloc, _, holds', owned.set howner _⟩

theorem keeps_read (laws : mem.Lawful Holds) (h : Keeps Holds m own) {o : Nat}
    {l : List (Nat × β)} (ho : own o = some (some l)) {a : Nat} {b : β} (hmem : (a, b) ∈ l) :
    mem.read a m = .ok b := by
  obtain ⟨c, holds, owned⟩ := h
  rcases owned.cases ho with ⟨none, -⟩ | ⟨r, l', same, -, harena⟩
  · cases none
  · cases same
    exact laws.read m c r l a b holds harena hmem

end Lawful

end Arenas

end Yazpp.Lib
