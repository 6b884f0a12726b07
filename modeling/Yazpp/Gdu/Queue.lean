import Mathlib.Data.List.ReduceOption
import Yazpp.Lib.Chain
import Yazpp.Lib.Machine

/-!
# `GDUQueue` in memory

The embedding of `src/gduqueue.cpp`, down to its pointers. The nodes are linked from the newest to
the oldest, `enqueue` puts a node in front, and `dequeue` walks to the last one. A `GDU` is owned by
the user who made it, or by the queue that it is in; a queue deletes what it owns when it is cleared
or destroyed. An item may be a null pointer, which `clear` takes for the end.

`gduQueue_refines` says that it is a queue, whatever addresses `new` returns, and what a destroyed
queue leaves: all of what is behind the first null pointer, and nothing else.
-/

set_option autoImplicit false

namespace Yazpp

open Yazpp.Lib

/-- What goes wrong: at a node, or a `GDU` that is not there is deleted. -/
inductive GduFault
  | node (fault : ChainFault)
  | gdu (gdu : Nat)
deriving DecidableEq, Repr

/-- A `GDUQueue`, and the `GDU`s in memory. `made` is how often `new` was called for a node. -/
structure GduQueue where
  list : Chain (Option Nat) := {}
  gdus : List Nat := []
  made : Nat := 0

/-- A step over the nodes. -/
def onNodes {α : Type} (x : Except ChainFault α) : Except GduFault α := x.mapError GduFault.node

namespace GduQueue

/-- `GDUQueue::size`. -/
def size (q : GduQueue) : Except GduFault Nat := do
  let (_, no) ← onNodes (q.list.each (fun item no => (item, no + 1)) 0)
  return no

/-- `GDUQueue::enqueue`. -/
def enqueue (alloc : Allocator) (gdu : Option Nat) (q : GduQueue) : GduQueue :=
  let node := alloc.malloc q.made q.list.heap.keys
  let list := q.list.write node { item := gdu, next := q.list.head }
  { q with list := { list with head := some node }, made := q.made + 1 }

/-- `while ((*l)->m_next) l = &(*l)->m_next;` -/
def lastFrom : Nat → Place → Chain (Option Nat) → Except ChainFault Place
  | 0, _, _ => .error .unending
  | fuel + 1, l, c => do
    match ← c.load l with
    | none => .error .null
    | some node => do
      let cell ← c.read node
      if cell.next.isSome then lastFrom fuel (.next node) c else return l

/-- `GDUQueue::dequeue`. -/
def dequeue (q : GduQueue) : Except GduFault (GduQueue × Option Nat) := do
  match ← onNodes (q.list.load .head) with
  | none => return (q, none)
  | some _ => do
    let l ← onNodes (lastFrom q.list.room .head q.list)
    match ← onNodes (q.list.load l) with
    | none => .error (.node .null)
    | some node => do
      let cell ← onNodes (q.list.read node)
      let list ← onNodes (q.list.free node)
      let list ← onNodes (list.store l none)
      return ({ q with list := list }, cell.item)

/-- `delete g`. -/
def delete (gdu : Nat) (q : GduQueue) : Except GduFault GduQueue :=
  if gdu ∈ q.gdus then .ok { q with gdus := q.gdus.erase gdu } else .error (.gdu gdu)

/-- The loop of `GDUQueue::clear`. -/
def clearFrom : Nat → GduQueue → Except GduFault GduQueue
  | 0, _ => .error (.node .unending)
  | fuel + 1, q => do
    let (q, g) ← q.dequeue
    match g with
    | none => return q
    | some gdu => do
      let q ← q.delete gdu
      clearFrom fuel q

/-- `GDUQueue::clear`, and so the destructor. The last call of `dequeue` finds nothing. -/
def clear (q : GduQueue) : Except GduFault GduQueue := clearFrom (q.list.room + 1) q

end GduQueue

/-- What the user of a queue does. -/
inductive GduInput
  -- `new GDU`
  | make (gdu : Nat)
  | enqueue (gdu : Option Nat)
  | dequeue
  | size
  | clear
  -- `delete gdu`
  | delete (gdu : Nat)
deriving DecidableEq, Repr

/-- What the user sees. -/
inductive GduOutput
  | got (gdu : Option Nat)
  | size (no : Nat)
  | fault (fault : GduFault)
deriving DecidableEq, Repr

/-- A queue and its user: `held` are the user's own `GDU`s. -/
structure GduUse where
  queue : GduQueue := {}
  held : List Nat := []

namespace GduUse

/-- The user enqueues and deletes only what is theirs, and `new` returns what is not in use. -/
def admits (u : GduUse) : GduInput → Bool
  | .make gdu => gdu ∉ u.queue.gdus
  | .enqueue (some gdu) => gdu ∈ u.held
  | .delete gdu => gdu ∈ u.held
  | _ => true

def perform (alloc : Allocator) (u : GduUse) :
    GduInput → Except GduFault (GduUse × List GduOutput)
  | .make gdu =>
    return ({ queue := { u.queue with gdus := gdu :: u.queue.gdus }, held := gdu :: u.held }, [])
  | .enqueue gdu =>
    return ({ queue := u.queue.enqueue alloc gdu
              held := match gdu with
                | some gdu => u.held.erase gdu
                | none => u.held }, [])
  | .dequeue => do
    let (queue, gdu) ← u.queue.dequeue
    return ({ queue := queue, held := gdu.toList ++ u.held }, [.got gdu])
  | .size => do return (u, [.size (← u.queue.size)])
  | .clear => do return ({ u with queue := ← u.queue.clear }, [])
  | .delete gdu => do
    return ({ queue := ← u.queue.delete gdu, held := u.held.erase gdu }, [])

end GduUse

/-- A queue under any sequence of uses. A fault is put out, and nothing else is done. -/
def gduQueue (alloc : Allocator) : Machine GduUse GduInput GduOutput where
  step u i :=
    if u.admits i then
      match u.perform alloc i with
      | .ok next => some next
      | .error f => some (u, [.fault f])
    else none

/-! ## What it is for -/

/-- The items, oldest first, and the user's own. -/
structure GduFifo where
  items : List (Option Nat) := []
  held : List Nat := []
deriving DecidableEq, Repr

namespace GduFifo

/-- The `GDU`s there are: those in the queue, and the user's. -/
def gdus (a : GduFifo) : List Nat := a.items.reduceOption ++ a.held

/-- The items behind the first null pointer. -/
def left (a : GduFifo) : List (Option Nat) := (a.items.dropWhile Option.isSome).tail

def admits (a : GduFifo) : GduInput → Bool
  | .make gdu => gdu ∉ a.gdus
  | .enqueue (some gdu) => gdu ∈ a.held
  | .delete gdu => gdu ∈ a.held
  | _ => true

def perform (a : GduFifo) : GduInput → GduFifo × List GduOutput
  | .make gdu => ({ a with held := gdu :: a.held }, [])
  | .enqueue (some gdu) => ({ items := a.items ++ [some gdu], held := a.held.erase gdu }, [])
  | .enqueue none => ({ a with items := a.items ++ [none] }, [])
  | .dequeue =>
    match a.items with
    | [] => (a, [.got none])
    | item :: items => ({ items := items, held := item.toList ++ a.held }, [.got item])
  | .size => (a, [.size a.items.length])
  | .clear => ({ a with items := a.left }, [])
  | .delete gdu => ({ a with held := a.held.erase gdu }, [])

end GduFifo

/-- The queue that it is for. -/
def gduFifo : Machine GduFifo GduInput GduOutput where
  step a i := if a.admits i then some (a.perform i) else none

/-! ## One use -/

theorem onNodes_ok {α : Type} (a : α) : onNodes (.ok a) = .ok a := rfl

namespace GduQueue

variable {q : GduQueue} {x : Nat × Option Nat}

/-- The loop of `dequeue` stops at the place of the last node. -/
theorem lastFrom_eq {c : Chain (Option Nat)} : ∀ (done rest : List (Nat × Option Nat)) (fuel : Nat),
    c.Owns (done ++ (rest ++ [x])) → rest.length < fuel →
    lastFrom fuel (behind done) c = .ok (behind (done ++ rest))
  | _, _, 0, _, hfuel => absurd hfuel (Nat.not_lt_zero _)
  | done, [], fuel + 1, owns, _ => by
    have hload : c.load (behind done) = .ok (some x.1) := owns.load
    have hx := Chain.read_eq owns.cell_next
    simp only [lastFrom, bind, Except.bind, hload, hx, List.append_nil]
    rfl
  | done, y :: rest, fuel + 1, owns, hfuel => by
    have hload : c.load (behind done) = .ok (some y.1) := owns.load
    have hy : c.read y.1 = .ok ⟨y.2, (rest ++ [x]).head?.map Prod.fst⟩ :=
      Chain.read_eq owns.cell_next
    have more : ((rest ++ [x]).head?.map Prod.fst).isSome = true := by
      cases rest <;> rfl
    have owns' : c.Owns ((done ++ [y]) ++ (rest ++ [x])) := by
      simpa using owns
    have hgo := lastFrom_eq (done ++ [y]) rest fuel owns' (Nat.lt_of_succ_lt_succ hfuel)
    rw [behind_snoc, List.append_assoc] at hgo
    simp only [lastFrom, bind, Except.bind, hload, hy, more, if_true, hgo]
    rfl

/-- The oldest item is in the last node. -/
theorem dequeue_snoc {l : List (Nat × Option Nat)} (owns : q.list.Owns (l ++ [x])) :
    ∃ list, q.dequeue = .ok ({ q with list := list }, x.2) ∧ list.Owns l := by
  have some : ∃ y, (l ++ [x]).head? = some y := by
    cases l with
    | nil => exact ⟨x, rfl⟩
    | cons y l => exact ⟨y, rfl⟩
  obtain ⟨y, hy⟩ := some
  have hhead : q.list.load .head = .ok (some y.1) := by
    have owns' : q.list.Owns ([] ++ (l ++ [x])) := owns
    rw [← behind_nil, owns'.load, hy]
    rfl
  have hlast : lastFrom q.list.room .head q.list = .ok (behind l) := by
    have hroom := owns.length_le
    rw [List.length_append, List.length_singleton] at hroom
    exact lastFrom_eq [] l q.list.room owns hroom
  have hload : q.list.load (behind l) = .ok (some x.1) := owns.load
  have hx := owns.cell_next
  obtain ⟨c, list, hfree, hstore, owns'⟩ := owns.dropLast
  refine ⟨list, ?_, owns'⟩
  unfold dequeue
  simp only [bind, Except.bind, hhead, onNodes_ok, hlast, hload, Chain.read_eq hx, hfree, hstore]
  rfl

/-- An empty queue has none. -/
theorem dequeue_nil (owns : q.list.Owns []) : q.dequeue = .ok (q, none) := by
  have owns' : q.list.Owns ([] ++ []) := owns
  have hload : q.list.load .head = .ok none := owns'.load
  unfold dequeue
  simp only [bind, Except.bind, hload, onNodes_ok]
  rfl

theorem size_eq {l : List (Nat × Option Nat)} (owns : q.list.Owns l) : q.size = .ok l.length := by
  obtain ⟨c, heach, -⟩ := owns.each (fun item no => (item, no + 1)) 0
  unfold size
  simp only [bind, Except.bind, heach, onNodes_ok]
  rw [Chain.mapAccum_count, Nat.zero_add]
  rfl

end GduQueue

/-- What an item owns is in front of what the others own. -/
theorem GduFifo.gdus_cons (item : Option Nat) (items : List (Option Nat)) (held : List Nat) :
    GduFifo.gdus { items := item :: items, held := held } =
      item.toList ++ GduFifo.gdus { items := items, held := held } := by
  cases item <;> rfl

/-- What leaves the queue is the user's. -/
theorem GduFifo.gdus_take (item : Option Nat) (items : List (Option Nat)) (held : List Nat) :
    (GduFifo.gdus { items := item :: items, held := held }).Perm
      (GduFifo.gdus { items := items, held := item.toList ++ held }) := by
  rw [GduFifo.gdus_cons]
  exact List.perm_append_comm_assoc ..

/-- The queue in memory holds the items, newest first, and the `GDU`s there are. -/
structure GduUse.Represents (u : GduUse) (a : GduFifo) : Prop where
  nodes : ∃ l, u.queue.list.Owns l ∧ (l.map Prod.snd).reverse = a.items
  gdus : u.queue.gdus.Perm a.gdus
  nodup : a.gdus.Nodup
  held : u.held = a.held

namespace GduUse.Represents

variable {u : GduUse} {a : GduFifo}

theorem admits_eq (h : u.Represents a) (i : GduInput) : u.admits i = a.admits i := by
  cases i with
  | make gdu => simp only [GduUse.admits, GduFifo.admits, h.gdus.mem_iff]
  | enqueue gdu => cases gdu <;> simp only [GduUse.admits, GduFifo.admits, h.held]
  | delete gdu => simp only [GduUse.admits, GduFifo.admits, h.held]
  | dequeue | size | clear => rfl

theorem dequeue (h : u.Represents a) :
    ∃ queue item, u.queue.dequeue = .ok (queue, item) ∧
      (a.perform .dequeue).2 = [.got item] ∧
      GduUse.Represents { queue := queue, held := item.toList ++ u.held }
        (a.perform .dequeue).1 := by
  obtain ⟨l, owns, same⟩ := h.nodes
  obtain ⟨items, held⟩ := a
  rcases List.eq_nil_or_concat l with rfl | ⟨front, x, rfl⟩
  · obtain rfl : [] = items := same
    exact ⟨u.queue, none, GduQueue.dequeue_nil owns, rfl, h⟩
  · rw [List.concat_eq_append] at owns same
    rw [List.map_append, List.reverse_append] at same
    obtain rfl : x.2 :: (front.map Prod.snd).reverse = items := same
    obtain ⟨list, hdequeue, owns'⟩ := GduQueue.dequeue_snoc owns
    have hperm := GduFifo.gdus_take x.2 (front.map Prod.snd).reverse held
    refine ⟨_, x.2, hdequeue, rfl, ⟨front, owns', rfl⟩, h.gdus.trans hperm,
      hperm.nodup_iff.mp h.nodup, ?_⟩
    rw [h.held]
    rfl

/-- What the user owns may be deleted. -/
theorem delete (h : u.Represents a) {gdu : Nat} (hgdu : gdu ∈ a.held) :
    ∃ queue, u.queue.delete gdu = .ok queue ∧
      GduUse.Represents { queue := queue, held := u.held.erase gdu }
        { a with held := a.held.erase gdu } := by
  have there : gdu ∈ u.queue.gdus := h.gdus.mem_iff.mpr (List.mem_append_right _ hgdu)
  obtain ⟨-, -, hdisj⟩ := List.nodup_append.mp h.nodup
  have hitems : gdu ∉ a.items.reduceOption := fun hmem => hdisj gdu hmem gdu hgdu rfl
  have herase : a.gdus.erase gdu = GduFifo.gdus { a with held := a.held.erase gdu } :=
    List.erase_append_right _ hitems
  refine ⟨{ u.queue with gdus := u.queue.gdus.erase gdu }, if_pos there, h.nodes, ?_, ?_, ?_⟩
  · rw [← herase]
    exact h.gdus.erase gdu
  · rw [← herase]
    exact h.nodup.erase gdu
  · rw [h.held]

/-- The loop of `clear` deletes up to the first null pointer. -/
theorem clearFrom (fuel : Nat) : ∀ {u : GduUse} {a : GduFifo}, u.Represents a →
    a.items.length < fuel →
    ∃ queue, GduQueue.clearFrom fuel u.queue = .ok queue ∧
      GduUse.Represents { queue := queue, held := u.held } { a with items := a.left } := by
  induction fuel with
  | zero => exact fun _ hfuel => absurd hfuel (Nat.not_lt_zero _)
  | succ fuel ih =>
    intro u a h hfuel
    obtain ⟨queue, item, hdequeue, hgot, h'⟩ := h.dequeue
    obtain ⟨items, held⟩ := a
    cases items with
    | nil =>
      obtain rfl : none = item := by simpa [GduFifo.perform] using hgot
      simp only [GduQueue.clearFrom, bind, Except.bind, hdequeue]
      exact ⟨queue, rfl, h'⟩
    | cons first items =>
      obtain rfl : first = item := by simpa [GduFifo.perform] using hgot
      cases first with
      | none =>
        simp only [GduQueue.clearFrom, bind, Except.bind, hdequeue]
        exact ⟨queue, rfl, h'⟩
      | some gdu =>
        obtain ⟨queue', hdelete, h''⟩ := h'.delete (List.mem_cons_self ..)
        have hheld : (gdu :: held).erase gdu = held := List.erase_cons_head ..
        have hheld' : (gdu :: u.held).erase gdu = u.held := List.erase_cons_head ..
        obtain ⟨queue'', hclear, hleft⟩ := ih h'' (Nat.lt_of_succ_lt_succ hfuel)
        simp only [GduQueue.clearFrom, bind, Except.bind, hdequeue, hdelete, hclear]
        refine ⟨queue'', rfl, ?_⟩
        have hqueue : GduUse.Represents { queue := queue'', held := (gdu :: u.held).erase gdu }
            { items := GduFifo.left { items := items, held := held }
              held := (gdu :: held).erase gdu } := hleft
        rw [hheld, hheld'] at hqueue
        exact hqueue

/-- `clear`, and so the destructor. -/
theorem clear (h : u.Represents a) :
    ∃ queue, u.queue.clear = .ok queue ∧
      GduUse.Represents { queue := queue, held := u.held } { a with items := a.left } := by
  obtain ⟨l, owns, same⟩ := h.nodes
  have hroom := owns.length_le
  rw [← List.length_map Prod.snd, ← List.length_reverse, same] at hroom
  exact h.clearFrom _ (Nat.lt_succ_of_le hroom)

/-- A new node is in front, and its item is the user's no more. -/
theorem enqueue (h : u.Represents a) (alloc : Allocator) (gdu : Option Nat) {held : List Nat}
    (taken : a.held.Perm (gdu.toList ++ held)) (heldEq : held = match gdu with
      | some gdu => u.held.erase gdu
      | none => u.held) :
    GduUse.Represents { queue := u.queue.enqueue alloc gdu, held := held }
      { items := a.items ++ [gdu], held := held } := by
  obtain ⟨l, owns, same⟩ := h.nodes
  have hitems : (a.items ++ [gdu]).reduceOption = a.items.reduceOption ++ gdu.toList := by
    rw [List.reduceOption_append]
    cases gdu <;> rfl
  have hperm : (GduFifo.gdus { items := a.items ++ [gdu], held := held }).Perm a.gdus := by
    rw [GduFifo.gdus, hitems, List.append_assoc]
    exact taken.symm.append_left _
  refine ⟨⟨_, owns.push gdu (Chain.Owns.fresh ..), ?_⟩, h.gdus.trans hperm.symm,
    hperm.nodup_iff.mpr h.nodup, rfl⟩
  rw [List.map_cons, List.reverse_cons, same]

/-- One use of both. -/
theorem perform (h : u.Represents a) (alloc : Allocator) (i : GduInput)
    (admits : a.admits i = true) :
    ∃ u', u.perform alloc i = .ok (u', (a.perform i).2) ∧ u'.Represents (a.perform i).1 := by
  cases i with
  | make gdu =>
    have fresh : gdu ∉ a.gdus := of_decide_eq_true admits
    have hperm : (gdu :: a.gdus).Perm (GduFifo.gdus { a with held := gdu :: a.held }) :=
      List.perm_middle.symm
    refine ⟨_, rfl, h.nodes, (h.gdus.cons gdu).trans hperm,
      hperm.nodup_iff.mp (List.nodup_cons.mpr ⟨fresh, h.nodup⟩), ?_⟩
    rw [h.held]
    rfl
  | enqueue gdu =>
    cases gdu with
    | none => exact ⟨_, rfl, h.held ▸ h.enqueue alloc none (.refl _) h.held.symm⟩
    | some gdu =>
      have own : gdu ∈ a.held := of_decide_eq_true admits
      have h' := h.enqueue alloc (some gdu) (List.perm_cons_erase own)
        (congrArg (List.erase · gdu) h.held.symm)
      refine ⟨_, rfl, ?_⟩
      dsimp only
      rw [h.held]
      exact h'
  | dequeue =>
    obtain ⟨queue, item, hdequeue, hgot, h'⟩ := h.dequeue
    refine ⟨_, ?_, h'⟩
    rw [GduUse.perform, hgot]
    simp only [bind, Except.bind, hdequeue]
    rfl
  | size =>
    obtain ⟨l, owns, same⟩ := h.nodes
    refine ⟨u, ?_, h⟩
    rw [GduUse.perform, GduQueue.size_eq owns]
    show _ = Except.ok (u, [GduOutput.size a.items.length])
    rw [← same, List.length_reverse, List.length_map]
    rfl
  | clear =>
    obtain ⟨queue, hclear, h'⟩ := h.clear
    refine ⟨_, ?_, h'⟩
    rw [GduUse.perform, hclear]
    rfl
  | delete gdu =>
    obtain ⟨queue, hdelete, h'⟩ := h.delete (of_decide_eq_true admits)
    refine ⟨_, ?_, h'⟩
    rw [GduUse.perform, hdelete]
    rfl

end GduUse.Represents

/-! ## Runs -/

theorem gduQueue_step (alloc : Allocator) :
    (gduQueue alloc).Refines gduFifo GduUse.Represents := by
  intro u a i h
  unfold gduQueue gduFifo
  dsimp only
  rw [h.admits_eq i]
  cases admits : a.admits i with
  | false => exact .none
  | true =>
    obtain ⟨u', hperform, h'⟩ := h.perform alloc i admits
    simp only [if_true, hperform]
    exact .some ⟨h', rfl⟩

/-- A queue that is a list does not fault. -/
theorem gduFifo_no_fault {is : List GduInput} {a a' : GduFifo} {os : List GduOutput}
    (run : gduFifo.exec a is = some (a', os)) (f : GduFault) : .fault f ∉ os := by
  intro hmem
  obtain ⟨-, i, -, b, -, next, outs, -, -, hstep, hmem⟩ := Machine.exec_mem run hmem
  unfold gduFifo at hstep
  dsimp only at hstep
  split at hstep
  case isFalse => cases hstep
  case isTrue =>
    obtain rfl : (b.perform i).2 = outs := congrArg Prod.snd (Option.some.inj hstep)
    cases i with
    | enqueue gdu => cases gdu <;> cases hmem
    | dequeue =>
      unfold GduFifo.perform at hmem
      dsimp only at hmem
      split at hmem <;> simp at hmem
    | size => simp [GduFifo.perform] at hmem
    | make | clear | delete => cases hmem

/-- **A `GDUQueue` is a queue**: wherever `new` puts its nodes, any uses see what they would see of
a list, with no fault; the nodes hold the items and every `GDU` is in one item or the user's own;
and when the queue is destroyed, what is left is what was behind the first null pointer. -/
theorem gduQueue_refines (alloc : Allocator) (is : List GduInput) :
    Option.Rel
      (fun linked list => linked.2 = list.2 ∧ (∀ f, .fault f ∉ linked.2) ∧
        linked.1.Represents list.1 ∧
        ∃ left, linked.1.queue.clear = .ok left ∧
          GduUse.Represents { queue := left, held := linked.1.held }
            { list.1 with items := list.1.left })
      ((gduQueue alloc).exec {} is) (gduFifo.exec {} is) := by
  have hstart : GduUse.Represents {} {} :=
    ⟨⟨[], Chain.Owns.empty, rfl⟩, .refl _, List.nodup_nil, rfl⟩
  have hexec := (gduQueue_step alloc).exec is hstart
  generalize (gduQueue alloc).exec {} is = linked at hexec ⊢
  generalize hlist : gduFifo.exec {} is = list at hexec ⊢
  cases hexec with
  | none => exact .none
  | some h => exact .some ⟨h.2, fun f => h.2 ▸ gduFifo_no_fault hlist f, h.1, h.1.clear⟩

end Yazpp
