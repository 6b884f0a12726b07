import Mathlib.Data.List.Nodup
import Mathlib.Data.List.Perm.Basic

/-!
# Objects that own one another

An object has a name, knows its parent, lists its children, and lists apart from them the objects
that were made for it and that it has neither adopted nor refused yet. A dead object is still known
by its name.

`Linked` is what intrusive lists of children are to keep: the list of a live parent has exactly its
live children, each once, and each with the parent pointer that leads back. `Grown` is what holds of
every forest that grew from nothing: the lists are kept, and parents are older than their children.
The operations of the owners keep it: a new object, one that is made for somebody, its adoption or
its refusal, and the destruction of an object with its children.

`Orderly` is the order in which objects can be destroyed one by one so that nobody dies twice: no
object before one of its children (`orderly_last`).
-/

set_option autoImplicit false

namespace Yazpp.Lib

/-- The objects that there have been, by name. -/
structure Forest (α : Type) where
  known : α → Bool
  alive : α → Bool
  parent : α → Option α
  children : α → List α
  pending : α → List α

namespace Forest

variable {α : Type}

/-- A live parent lists its live children, each once. -/
structure Linked (f : Forest α) : Prop where
  once : ∀ p, f.alive p = true → (f.children p).Nodup
  exact : ∀ p, f.alive p = true → ∀ c,
    c ∈ f.children p ↔ f.alive c = true ∧ f.parent c = some p

/-- A forest grown from nothing, where `age` numbers the objects in the order they were made. -/
structure Grown (f : Forest α) (age : α → Nat) (n : Nat) : Prop where
  linked : f.Linked
  known : ∀ x, f.alive x = true → f.known x = true
  below : ∀ x, f.known x = true → age x < n
  older : ∀ x p, f.parent x = some p → f.known x = true ∧ f.known p = true ∧ age p < age x
  awaited : ∀ p c, c ∈ f.pending p →
    f.known p = true ∧ f.known c = true ∧ f.parent c = none ∧ age p < age c
  awaitedOnce : ∀ p, (f.pending p).Nodup
  unshared : ∀ p q c, c ∈ f.pending p → c ∈ f.pending q → p = q

/-- Nobody is his own parent. -/
theorem Grown.parent_ne {f : Forest α} {age : α → Nat} {n : Nat} (grown : f.Grown age n) {x q : α}
    (hq : f.parent x = some q) : q ≠ x := by
  rintro rfl
  exact absurd (grown.older _ _ hq).2.2 (Nat.lt_irrefl _)

/-- Who is on a list. -/
theorem Grown.listed {f : Forest α} {age : α → Nat} {n : Nat} (grown : f.Grown age n) {p c : α}
    (hp : f.alive p = true) (hc : c ∈ f.children p) :
    f.alive c = true ∧ f.parent c = some p ∧ age p < age c := by
  obtain ⟨hlive, hparent⟩ := (grown.linked.exact p hp c).mp hc
  exact ⟨hlive, hparent, (grown.older c p hparent).2.2⟩

variable [DecidableEq α]

/-! ## What is done to one object -/

/-- A new object, unless the name is taken. -/
def make (c : α) (f : Forest α) : Forest α :=
  if f.known c then f else
    { known := Function.update f.known c true
      alive := Function.update f.alive c true
      parent := Function.update f.parent c none
      children := Function.update f.children c []
      pending := Function.update f.pending c [] }

/-- Something is made for `p`. -/
def await (p c : α) (f : Forest α) : Forest α :=
  { f with pending := Function.update f.pending p (c :: f.pending p) }

/-- What was made for `p` is adopted or refused. -/
def settle (p c : α) (f : Forest α) : Forest α :=
  { f with pending := Function.update f.pending p ((f.pending p).erase c) }

/-- A child enters the list of its parent. -/
def enlist (p c : α) (f : Forest α) : Forest α :=
  { f with children := Function.update f.children p (c :: f.children p) }

/-- A live object is told of its parent. -/
def setParent (c p : α) (f : Forest α) : Forest α :=
  if f.alive c then { f with parent := Function.update f.parent c (some p) } else f

/-- A child leaves the list of a live parent. -/
def unlink (p c : α) (f : Forest α) : Forest α :=
  if f.alive p then { f with children := Function.update f.children p ((f.children p).erase c) }
  else f

/-- An object dies. -/
def kill (c : α) (f : Forest α) : Forest α := { f with alive := Function.update f.alive c false }

/-- An object dies, and drops its list. -/
def bury (x : α) (f : Forest α) : Forest α :=
  { f with alive := Function.update f.alive x false, children := Function.update f.children x [] }

/-- Several objects die. -/
def kills (cs : List α) (f : Forest α) : Forest α := cs.foldl (fun f c => f.kill c) f

/-- An object is destroyed: it dies, leaves its parent, and its children die. -/
def destroy (x : α) (f : Forest α) : Forest α :=
  ((f.parent x).toList.foldl (fun f q => f.unlink q x) (f.bury x)).kills (f.children x)

/-- A death that is none. -/
theorem kill_dead {c : α} {f : Forest α} (dead : f.alive c = false) : f.kill c = f := by
  rw [kill, ← dead, Function.update_eq_self]

theorem bury_alive {f : Forest α} {x y : α} :
    (f.bury x).alive y = true ↔ y ≠ x ∧ f.alive y = true := by
  simp only [bury, Function.update_apply]
  by_cases hy : y = x <;> simp [hy]

theorem bury_children {f : Forest α} {x y : α} (other : y ≠ x) :
    (f.bury x).children y = f.children y := Function.update_of_ne other ..

theorem kills_eq (cs : List α) (f : Forest α) :
    f.kills cs = { f with alive := fun x => if x ∈ cs then false else f.alive x } := by
  induction cs generalizing f with
  | nil => simp only [kills, List.foldl_nil, List.not_mem_nil, if_false]
  | cons c cs ih =>
    rw [kills, List.foldl_cons]
    refine (ih (f.kill c)).trans ?_
    simp only [kill, Function.update_apply, List.mem_cons, Forest.mk.injEq, true_and, and_true]
    funext x
    by_cases hc : x = c <;> simp [hc]

/-! ## What the owners do -/

/-- A new object. -/
theorem Grown.make {f : Forest α} {age : α → Nat} {n : Nat} (grown : f.Grown age n) {c : α}
    (fresh : f.known c = false) : (f.make c).Grown (Function.update age c n) (n + 1) := by
  obtain ⟨⟨once, exact⟩, known, below, older, awaited, awaitedOnce, unshared⟩ := grown
  rw [Forest.make, if_neg (by simp [fresh])]
  refine ⟨⟨?_, ?_⟩, ?_, ?_, ?_, ?_, ?_, ?_⟩ <;> simp only [Function.update_apply]
  all_goals grind

/-- A new object, made for `p`. -/
theorem Grown.await {f : Forest α} {age : α → Nat} {n : Nat} (grown : f.Grown age n) {p c : α}
    (hp : f.known p = true) (fresh : f.known c = false) :
    ((f.await p c).make c).Grown (Function.update age c n) (n + 1) := by
  obtain ⟨⟨once, exact⟩, known, below, older, awaited, awaitedOnce, unshared⟩ := grown
  have fresh' : ¬ (f.await p c).known c = true := by simp [Forest.await, fresh]
  rw [Forest.make, if_neg fresh', Forest.await]
  refine ⟨⟨?_, ?_⟩, ?_, ?_, ?_, ?_, ?_, ?_⟩ <;> simp only [Function.update_apply]
  all_goals grind

/-- What was made for `p` is left to itself. -/
theorem Grown.settle {f : Forest α} {age : α → Nat} {n : Nat} (grown : f.Grown age n) (p c : α) :
    (f.settle p c).Grown age n := by
  obtain ⟨⟨once, exact⟩, known, below, older, awaited, awaitedOnce, unshared⟩ := grown
  rw [Forest.settle]
  refine ⟨⟨once, exact⟩, known, below, older, ?_, ?_, ?_⟩ <;> simp only [Function.update_apply]
  all_goals grind [List.mem_of_mem_erase, List.Nodup.erase]

/-- What was made for `p` is adopted: the list first, and then the pointer. -/
theorem Grown.adopt {f : Forest α} {age : α → Nat} {n : Nat} (grown : f.Grown age n) {p c : α}
    (hc : f.alive c = true) (made : c ∈ f.pending p) :
    (((f.settle p c).enlist p c).setParent c p).Grown age n := by
  obtain ⟨⟨once, exact⟩, known, below, older, awaited, awaitedOnce, unshared⟩ := grown
  have hc' : ((f.settle p c).enlist p c).alive c = true := hc
  rw [Forest.setParent, if_pos hc', Forest.enlist, Forest.settle]
  refine ⟨⟨?_, ?_⟩, ?_, ?_, ?_, ?_, ?_, ?_⟩ <;> simp only [Function.update_apply]
  all_goals grind [List.mem_of_mem_erase, List.Nodup.erase, List.Nodup.mem_erase_iff]

/-- An object that nobody lists dies. -/
theorem Grown.kill {f : Forest α} {age : α → Nat} {n : Nat} (grown : f.Grown age n) {c : α}
    (unlisted : ∀ p, f.parent c = some p → f.alive p = false) : (f.kill c).Grown age n := by
  obtain ⟨⟨once, exact⟩, known, below, older, awaited, awaitedOnce, unshared⟩ := grown
  rw [Forest.kill]
  refine ⟨⟨?_, ?_⟩, ?_, below, older, awaited, awaitedOnce, unshared⟩ <;>
    simp only [Function.update_apply]
  all_goals grind

/-- What was made for `p` is refused. -/
theorem Grown.refuse {f : Forest α} {age : α → Nat} {n : Nat} (grown : f.Grown age n) {p c : α}
    (made : c ∈ f.pending p) : ((f.settle p c).kill c).Grown age n := by
  apply (grown.settle p c).kill
  intro q hq
  have orphan : f.parent c = none := (grown.awaited p c made).2.2.1
  cases orphan.symm.trans hq

/-! ## Destruction -/

/-- Who lives after the destruction of an object: those who did, less the object and those on its
list. -/
theorem destroy_alive (f : Forest α) (x y : α) :
    (f.destroy x).alive y = true ↔ y ≠ x ∧ y ∉ f.children x ∧ f.alive y = true := by
  have same : ∀ (qs : List α) (g : Forest α),
      (qs.foldl (fun g q => g.unlink q x) g).alive = g.alive := by
    intro qs
    induction qs with
    | nil => exact fun g => rfl
    | cons q qs ih =>
      intro g
      rw [List.foldl_cons, ih, unlink]
      split <;> rfl
  simp only [destroy, kills_eq, same, bury, Function.update_apply]
  by_cases hc : y ∈ f.children x <;> by_cases hx : y = x <;> simp [hc, hx]

/-- Nobody's parent pointer is written. -/
@[simp] theorem destroy_parent (f : Forest α) (x : α) : (f.destroy x).parent = f.parent := by
  rw [destroy, kills_eq]
  cases f.parent x with
  | none => rfl
  | some q =>
    simp only [Option.toList_some, List.foldl_cons, List.foldl_nil, unlink]
    split <;> rfl

/-- The list that an object leaves. -/
theorem destroy_children {f : Forest α} {x q : α} (hq : f.alive q = true)
    (hparent : f.parent x = some q) (other : q ≠ x) :
    (f.destroy x).children q = (f.children q).erase x := by
  have hq' : (f.bury x).alive q = true := bury_alive.mpr ⟨other, hq⟩
  rw [destroy, kills_eq, hparent]
  simp only [Option.toList_some, List.foldl_cons, List.foldl_nil, unlink, hq', if_true]
  rw [Function.update_self, bury_children other]

/-- **Destruction keeps the lists.** -/
theorem Grown.destroy {f : Forest α} {age : α → Nat} {n : Nat} (grown : f.Grown age n) {x : α}
    (hx : f.alive x = true) : (f.destroy x).Grown age n := by
  have other := fun q => grown.parent_ne (x := x) (q := q)
  obtain ⟨⟨once, exact⟩, known, below, older, awaited, awaitedOnce, unshared⟩ := grown
  rw [Forest.destroy, kills_eq]
  cases hq : f.parent x with
  | none =>
    simp only [Option.toList_none, List.foldl_nil, bury]
    refine ⟨⟨?_, ?_⟩, ?_, ?_, ?_, ?_, ?_, ?_⟩ <;> simp only [Function.update_apply]
    all_goals grind
  | some q =>
    simp only [Option.toList_some, List.foldl_cons, List.foldl_nil, unlink, bury,
      Function.update_apply, other q hq, if_false]
    cases hlive : f.alive q with
    | false =>
      simp only [Bool.false_eq_true, if_false]
      refine ⟨⟨?_, ?_⟩, ?_, ?_, ?_, ?_, ?_, ?_⟩ <;> simp only [Function.update_apply]
      all_goals grind
    | true =>
      simp only [if_true]
      refine ⟨⟨?_, ?_⟩, ?_, ?_, ?_, ?_, ?_, ?_⟩ <;> simp only [Function.update_apply]
      all_goals grind [List.Nodup.erase, List.Nodup.mem_erase_iff]

/-- Objects destroyed one by one, each alive when its turn comes, behind its children, and with a
parent that is still there. -/
def Orderly : List α → Forest α → Prop
  | [], _ => True
  | x :: rest, f => f.alive x = true ∧ (∀ q, f.parent x = some q → f.alive q = true) ∧
      (∀ c ∈ f.children x, c ∉ rest) ∧ Orderly rest (f.destroy x)

/-- **The children first, in any order, and then their parent.** -/
theorem orderly_last {f : Forest α} {age : α → Nat} {n : Nat} (grown : f.Grown age n) {l : α}
    (hl : f.alive l = true) (root : ∀ q, f.parent l = some q → f.alive q = true) {cs : List α}
    (each : cs.Perm (f.children l)) : Orderly (cs ++ [l]) f := by
  induction cs generalizing f with
  | nil =>
    refine ⟨hl, root, ?_, trivial⟩
    intro c _
    exact List.not_mem_nil
  | cons c cs ih =>
    have listed : ∀ x ∈ c :: cs, f.alive x = true ∧ f.parent x = some l ∧ age l < age x :=
      fun x hx => grown.listed hl (each.mem_iff.mp hx)
    obtain ⟨hc, hparent, age_c⟩ := listed c List.mem_cons_self
    refine ⟨hc, ?_, ?_, ih (grown.destroy hc) ?_ ?_ ?_⟩
    · intro q hq
      cases hparent.symm.trans hq
      exact hl
    · intro g hg hrest
      rcases List.mem_append.mp hrest with hrest | hrest
      · have hg' := (grown.listed hc hg).2.1
        cases hg'.symm.trans (listed g (List.mem_cons_of_mem _ hrest)).2.1
        exact absurd age_c (Nat.lt_irrefl _)
      · have := (grown.listed hc hg).2.2
        rw [List.mem_singleton.mp hrest] at this
        omega
    · rw [destroy_alive]
      refine ⟨grown.parent_ne hparent, ?_, hl⟩
      intro hmem
      have := (grown.listed hc hmem).2.2
      omega
    · intro q hq
      rw [destroy_parent] at hq
      have age_q := (grown.older l q hq).2.2
      rw [destroy_alive]
      refine ⟨?_, ?_, root q hq⟩
      · rintro rfl
        omega
      · intro hmem
        have := (grown.listed hc hmem).2.2
        omega
    · rw [destroy_children hl hparent (grown.parent_ne hparent)]
      exact (List.cons_perm_iff_perm_erase.mp each).2

end Forest

end Yazpp.Lib
