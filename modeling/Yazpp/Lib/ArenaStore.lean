import Yazpp.Lib.Arena

/-!
# A memory with arenas

An implementation of `Arenas`, which shows that its laws can be met: names are counted, and a block
knows the arena that it is in.
-/

set_option autoImplicit false

namespace Yazpp.Lib

/-- The owners with their arenas, the arenas that are allocated, and the blocks by their addresses,
each in its arena. Names are not used twice. -/
structure ArenaStore (β : Type) where
  owners : Nat → Option (Option Nat) := fun _ => none
  live : Nat → Bool := fun _ => false
  blocks : Nat → Option (Nat × β) := fun _ => none
  next : Nat := 0

namespace ArenaStore

variable {β : Type}

def newArena (m : ArenaStore β) : Nat × ArenaStore β :=
  (m.next, { m with live := Function.update m.live m.next true, next := m.next + 1 })

def create (m : ArenaStore β) : Nat × ArenaStore β :=
  (m.next, { m with
    owners := Function.update m.owners m.next (some (some (m.next + 1)))
    live := Function.update m.live (m.next + 1) true
    next := m.next + 2 })

def arenaOf (o : Nat) (m : ArenaStore β) : Except ArenaFault (Option Nat) :=
  match m.owners o with
  | none => .error (.owner o)
  | some r => .ok r

def assign (o : Nat) (r : Option Nat) (m : ArenaStore β) : Except ArenaFault (ArenaStore β) := do
  let _ ← m.arenaOf o
  return { m with owners := Function.update m.owners o (some r) }

def free (r : Option Nat) (m : ArenaStore β) : Except ArenaFault (ArenaStore β) :=
  match r with
  | none => .ok m
  | some r =>
    if m.live r then
      .ok { m with
        live := Function.update m.live r false
        blocks := fun a => (m.blocks a).filter fun block => block.1 ≠ r }
    else .error (.arena (some r))

def destroy (o : Nat) (m : ArenaStore β) : Except ArenaFault (ArenaStore β) := do
  let m' ← m.free (← m.arenaOf o)
  return { m' with owners := Function.update m'.owners o none }

def read (a : Nat) (m : ArenaStore β) : Except ArenaFault β :=
  match m.blocks a with
  | none => .error (.block a)
  | some block => .ok block.2

def extract (o : Nat) (m : ArenaStore β) : Except ArenaFault (Option Nat × ArenaStore β) := do
  let r ← m.arenaOf o
  return (r, { m with owners := Function.update m.owners o (some none) })

/-- A block is put in an arena. -/
def put (r : Nat) (b : β) (m : ArenaStore β) : Nat × ArenaStore β :=
  (m.next, { m with
    blocks := Function.update m.blocks m.next (some (r, b))
    next := m.next + 1 })

def alloc (o : Nat) (b : β) (m : ArenaStore β) : Except ArenaFault (Nat × ArenaStore β) := do
  match ← m.arenaOf o with
  | some r => return m.put r b
  | none =>
    let (r, m) := m.newArena
    return (← m.assign o (some r)).put r b

def transfer (dst src : Option Nat) (m : ArenaStore β) : Except ArenaFault (ArenaStore β) :=
  match dst, src with
  | some dst, some src =>
    if m.live dst = true ∧ m.live src = true then
      .ok { m with
        blocks := fun a => (m.blocks a).map fun block =>
          (if block.1 = src then dst else block.1, block.2) }
    else .error (.arena (some src))
  | _, _ => .error (.arena none)

/-- What is in it. -/
structure Holds (m : ArenaStore β) (c : ArenaContents β) : Prop where
  owners : m.owners = c.owners
  live : ∀ r, m.live r = true ↔ c.arenas r ≠ none
  blocks : ∀ r l, c.arenas r = some l → ∀ a b, m.blocks a = some (r, b) ↔ (a, b) ∈ l
  placed : ∀ a r b, m.blocks a = some (r, b) → m.live r = true
  fresh : ∀ k, m.next ≤ k → m.owners k = none ∧ m.live k = false ∧ m.blocks k = none

end ArenaStore

/-- The memory of an `ArenaStore`. -/
def arenaStore (β : Type) : Arenas (ArenaStore β) β where
  start := {}
  create := ArenaStore.create
  destroy := ArenaStore.destroy
  alloc := ArenaStore.alloc
  read := ArenaStore.read
  arenaOf := ArenaStore.arenaOf
  assign := ArenaStore.assign
  extract := ArenaStore.extract
  newArena := ArenaStore.newArena
  transfer := ArenaStore.transfer
  free := ArenaStore.free

namespace ArenaStore.Holds

variable {β : Type} {m : ArenaStore β} {c : ArenaContents β}

open ArenaContents

theorem arenaOf (h : m.Holds c) {o : Nat} {x : Option Nat} (ho : c.owners o = some x) :
    m.arenaOf o = .ok x := by
  simp only [ArenaStore.arenaOf, h.owners, ho]

theorem arenaOf_gone (h : m.Holds c) {o : Nat} (ho : c.owners o = none) :
    m.arenaOf o = .error (.owner o) := by
  simp only [ArenaStore.arenaOf, h.owners, ho]

theorem assign (h : m.Holds c) {o : Nat} {x : Option Nat} (ho : c.owners o = some x)
    (y : Option Nat) :
    m.assign o y = .ok { m with owners := Function.update m.owners o (some y) } := by
  simp only [ArenaStore.assign, h.arenaOf ho]
  rfl

/-- An owner that is not new has another arena, or is another one. -/
theorem setOwner (h : m.Holds c) {o : Nat} {x : Option Nat} (ho : c.owners o = some x)
    (y : Option (Option Nat)) :
    ArenaStore.Holds { m with owners := Function.update m.owners o y } (c.setOwner o y) := by
  obtain ⟨owners, live, blocks, placed, fresh⟩ := h
  constructor <;> simp only [ArenaContents.setOwner, Function.update_apply]
  case owners => rw [owners]
  all_goals grind

theorem newArena (h : m.Holds c) : c.arenas m.newArena.1 = none ∧
    m.newArena.2.Holds (c.setArena m.newArena.1 (some [])) := by
  obtain ⟨owners, live, blocks, placed, fresh⟩ := h
  have new := fresh m.next (Nat.le_refl _)
  refine ⟨by grind [ArenaStore.newArena], ?_⟩
  constructor <;> simp only [ArenaStore.newArena, setArena, Function.update_apply]
  all_goals grind

theorem create (h : m.Holds c) : c.owners m.create.1 = none ∧ ∃ r, c.arenas r = none ∧
    m.create.2.Holds ((c.setOwner m.create.1 (some (some r))).setArena r (some [])) := by
  obtain ⟨owners, live, blocks, placed, fresh⟩ := h
  have new := fresh m.next (Nat.le_refl _)
  have new' := fresh (m.next + 1) (Nat.le_succ _)
  refine ⟨by grind [ArenaStore.create], m.next + 1, by grind, ?_⟩
  constructor <;>
    simp only [ArenaStore.create, setArena, ArenaContents.setOwner, Function.update_apply]
  case owners => rw [owners]
  all_goals grind

/-- What is left when an arena is freed. -/
theorem kept_iff {x : Option (Nat × β)} {r r' : Nat} {b : β} :
    x.filter (fun block => block.1 ≠ r) = some (r', b) ↔ x = some (r', b) ∧ r' ≠ r := by
  simp [Option.filter_eq_some_iff]

theorem freed_iff {x : Option (Nat × β)} {r : Nat} :
    x.filter (fun block => block.1 ≠ r) = none ↔ ∀ r' b, x = some (r', b) → r' = r := by
  cases x with
  | none => simp
  | some block =>
    simp only [Option.filter_eq_none_iff, Option.some.injEq, decide_not, Bool.not_eq_eq_eq_not,
      Bool.not_true, decide_eq_false_iff_not, Decidable.not_not, forall_eq']
    exact ⟨fun h r' b hb => by rw [← h, hb], fun h => h _ _ rfl⟩

theorem free (h : m.Holds c) {x : Option Nat} (hx : c.MayFree x) :
    ∃ m', m.free x = .ok m' ∧ m'.owners = m.owners ∧ m'.Holds (c.freed x) := by
  cases x with
  | none => exact ⟨m, rfl, rfl, h⟩
  | some r =>
    have hlive := (h.live r).mpr (hx r rfl)
    have hfree : m.free (some r) = .ok _ := if_pos hlive
    refine ⟨_, hfree, rfl, ?_⟩
    obtain ⟨owners, live, blocks, placed, fresh⟩ := h
    constructor <;> simp only [freed, setArena, Function.update_apply, kept_iff, freed_iff]
    all_goals grind

theorem destroy (h : m.Holds c) {o : Nat} {x : Option Nat} (ho : c.owners o = some x)
    (hx : c.MayFree x) :
    ∃ m', m.destroy o = .ok m' ∧ m'.Holds ((c.setOwner o none).freed x) := by
  obtain ⟨m', hfree, same, h'⟩ := h.free hx
  have howner : (c.freed x).owners o = some x := by cases x <;> exact ho
  refine ⟨_, by simp only [ArenaStore.destroy, h.arenaOf ho, hfree, bind, Except.bind]; rfl, ?_⟩
  have swap : (c.setOwner o none).freed x = (c.freed x).setOwner o none := by cases x <;> rfl
  rw [swap]
  exact h'.setOwner howner none

/-- A block is put in an arena, at an address nothing is at. -/
theorem put (h : m.Holds c) {r : Nat} {l : List (Nat × β)} (hr : c.arenas r = some l) (b : β) :
    (m.put r b).2.Holds (c.setArena r (some (l ++ [((m.put r b).1, b)]))) := by
  have new := h.fresh m.next (Nat.le_refl _)
  have moving := h.blocks r l hr
  obtain ⟨owners, live, blocks, placed, fresh⟩ := h
  constructor <;> simp only [ArenaStore.put, setArena, Function.update_apply]
  all_goals grind

/-- What is moved. -/
theorem moved_iff {x : Option (Nat × β)} {src dst r : Nat} {b : β} :
    x.map (fun block => (if block.1 = src then dst else block.1, block.2)) = some (r, b) ↔
      ∃ r', x = some (r', b) ∧ r = if r' = src then dst else r' := by
  cases x with
  | none => simp
  | some block =>
    simp only [Option.map_some, Option.some.injEq, Prod.mk.injEq]
    constructor
    · rintro ⟨rfl, rfl⟩
      exact ⟨_, rfl, rfl⟩
    · rintro ⟨r', rfl, rfl⟩
      exact ⟨rfl, rfl⟩

theorem transfer (h : m.Holds c) {dst src : Nat} {k l : List (Nat × β)} (other : dst ≠ src)
    (hdst : c.arenas dst = some k) (hsrc : c.arenas src = some l) :
    ∃ m', m.transfer (some dst) (some src) = .ok m' ∧
      m'.Holds ((c.setArena src (some [])).setArena dst (some (k ++ l))) := by
  have hlive := (h.live dst).mpr (by rw [hdst]; exact Option.some_ne_none k)
  have hlive' := (h.live src).mpr (by rw [hsrc]; exact Option.some_ne_none l)
  refine ⟨_, by simp only [ArenaStore.transfer, hlive, hlive', and_self, if_true]; rfl, ?_⟩
  have staying := h.blocks dst k hdst
  have moving := h.blocks src l hsrc
  obtain ⟨owners, live, blocks, placed, fresh⟩ := h
  constructor <;> simp only [setArena, Function.update_apply, moved_iff]
  all_goals grind

end ArenaStore.Holds

open ArenaStore in
/-- **It is a memory as it should be.** -/
theorem arenaStore_lawful (β : Type) : (arenaStore β).Lawful Holds where
  start := by constructor <;> simp [arenaStore]
  create _ _ h := h.create
  destroy _ _ _ _ h ho hx := h.destroy ho hx
  alloc m c o r l b h ho hr :=
    ⟨_, _, by simp only [arenaStore, ArenaStore.alloc, h.arenaOf ho]; rfl, h.put hr b⟩
  alloc_bare m c o b h ho := by
    obtain ⟨hr, h₁⟩ := h.newArena
    have hassign := h₁.assign ho (some m.newArena.1)
    have h₂ := (h₁.setOwner ho (some (some m.newArena.1))).put (Function.update_self ..) b
    have halloc : m.alloc o b = .ok (ArenaStore.put m.newArena.1 b { m.newArena.2 with
        owners := Function.update m.newArena.2.owners o (some (some m.newArena.1)) }) := by
      simp only [ArenaStore.alloc, h.arenaOf ho, bind, Except.bind, hassign]
      rfl
    simp only [ArenaContents.setArena, ArenaContents.setOwner, Function.update_idem,
      List.nil_append] at h₂
    exact ⟨_, _, _, hr, halloc, h₂⟩
  read m c r l a b h hr hmem := by
    simp only [arenaStore, ArenaStore.read, (h.blocks r l hr a b).mpr hmem]
  arenaOf _ _ _ _ h ho := h.arenaOf ho
  assign _ _ _ _ y h ho := ⟨_, h.assign ho y, h.setOwner ho (some y)⟩
  extract m c o x h ho :=
    ⟨_, by simp only [arenaStore, ArenaStore.extract, h.arenaOf ho]; rfl, h.setOwner ho (some none)⟩
  newArena _ _ h := h.newArena
  transfer _ _ _ _ _ _ h other hdst hsrc := h.transfer other hdst hsrc
  free m c x h hx := by
    obtain ⟨m', hfree, -, h'⟩ := h.free hx
    exact ⟨m', hfree, h'⟩
  destroy_gone m c o h ho := by
    simp only [arenaStore, ArenaStore.destroy, h.arenaOf_gone ho]
    rfl
  alloc_gone m c o b h ho := by
    simp only [arenaStore, ArenaStore.alloc, h.arenaOf_gone ho]
    rfl
  arenaOf_gone _ _ _ h ho := h.arenaOf_gone ho
  assign_gone m c o x h ho := by
    simp only [arenaStore, ArenaStore.assign, h.arenaOf_gone ho]
    rfl
  extract_gone m c o h ho := by
    simp only [arenaStore, ArenaStore.extract, h.arenaOf_gone ho]
    rfl
  read_gone m c a h missing := by
    cases hblock : m.blocks a with
    | none => simp only [arenaStore, ArenaStore.read, hblock]
    | some block =>
      have hlive := (h.live block.1).mp (h.placed a block.1 block.2 hblock)
      obtain ⟨l, hl⟩ := Option.ne_none_iff_exists'.mp hlive
      exact absurd ((h.blocks block.1 l hl a block.2).mp hblock) (missing block.1 l block.2 hl)
  free_gone m c r h hr := if_neg fun hlive => (h.live r).mp hlive hr
  transfer_gone m c dst src h hr := if_neg fun hlive => (h.live src).mp hlive.2 hr
  transfer_null m dst := by cases dst <;> rfl

end Yazpp.Lib
