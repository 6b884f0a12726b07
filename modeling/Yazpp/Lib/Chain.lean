import Mathlib.Data.List.AList
import Mathlib.Data.List.Perm.Subperm

/-!
# Lists in memory, linked one way

The nodes of a list are in memory, each with a pointer to the node behind it, and its holder has a
pointer to the first. A loop that wants to change the list keeps the address of a pointer and not of
a node: a `Place` is the holder's pointer or that of a node, so to put a node in or take one out is
one store, at the front and elsewhere alike. To read or write a node that is not there is a fault,
to follow a null pointer too. A loop may visit as many nodes as there are in memory, and it is a
fault to visit more.

`Chain.Owns` says which list is in memory, and that nothing else is. Each function here has one
lemma about it that says what it does to that list.
-/

set_option autoImplicit false

namespace Yazpp.Lib

/-- A node: what is in it, and the pointer to the next one. -/
structure Cell (β : Type) where
  item : β
  next : Option Nat
deriving DecidableEq, Repr

/-- Where a pointer is: at the holder, or in a node. -/
inductive Place
  | head
  | next (node : Nat)
deriving DecidableEq, Repr

inductive ChainFault
  | null
  | dangling (node : Nat)
  | unending
deriving DecidableEq, Repr

/-- The nodes in memory, and the holder's pointer. -/
structure Chain (β : Type) where
  heap : AList fun _ : Nat => Cell β := ∅
  head : Option Nat := none

/-- Where `new` puts the next thing that is made: anywhere that is not in use. -/
structure Allocator where
  malloc : Nat → List Nat → Nat
  fresh : ∀ made used, malloc made used ∉ used

namespace Chain

variable {β σ : Type}

/-- A node is read. -/
def read (node : Nat) (c : Chain β) : Except ChainFault (Cell β) :=
  match c.heap.lookup node with
  | some cell => .ok cell
  | none => .error (.dangling node)

/-- A node is written, or made. -/
def write (node : Nat) (cell : Cell β) (c : Chain β) : Chain β :=
  { c with heap := c.heap.insert node cell }

/-- `*p`. -/
def load (p : Place) (c : Chain β) : Except ChainFault (Option Nat) :=
  match p with
  | .head => .ok c.head
  | .next node => (c.read node).map Cell.next

/-- `*p = to`. -/
def store (p : Place) (pointer : Option Nat) (c : Chain β) : Except ChainFault (Chain β) :=
  match p with
  | .head => .ok { c with head := pointer }
  | .next node => (c.read node).map fun cell => c.write node { cell with next := pointer }

/-- What is in a node is replaced. -/
def setItem (node : Nat) (item : β) (c : Chain β) : Except ChainFault (Chain β) :=
  (c.read node).map fun cell => c.write node { cell with item := item }

/-- `delete node`. -/
def free (node : Nat) (c : Chain β) : Except ChainFault (Chain β) :=
  (c.read node).map fun _ => { c with heap := c.heap.erase node }

/-- The most nodes that a loop may visit. -/
def room (c : Chain β) : Nat := c.heap.keys.length

/-- `while (*p && !found(*p)) p = &(*p)->next;` -/
def seekFrom (found : β → Bool) : Nat → Place → Chain β → Except ChainFault Place
  | 0, p, c => do
    match ← c.load p with
    | none => return p
    | some _ => .error .unending
  | fuel + 1, p, c => do
    match ← c.load p with
    | none => return p
    | some node => do
      let cell ← c.read node
      if found cell.item then return p else seekFrom found fuel (.next node) c

/-- The place of the first node with something, or the place behind the last one. -/
def seek (found : β → Bool) (c : Chain β) : Except ChainFault Place :=
  seekFrom found c.room .head c

/-- `for (; node; node = node->next) if (found(node)) break;` -/
def findFrom (found : β → Bool) : Nat → Option Nat → Chain β → Except ChainFault (Option Nat)
  | _, none, _ => .ok none
  | 0, some _, _ => .error .unending
  | fuel + 1, some node, c => do
    let cell ← c.read node
    if found cell.item then return some node else findFrom found fuel cell.next c

/-- The first node with something. -/
def find (found : β → Bool) (c : Chain β) : Except ChainFault (Option Nat) :=
  findFrom found c.room c.head c

/-- `for (; node; node = node->next)`, over something that is changed with the nodes. -/
def eachFrom (f : β → σ → β × σ) :
    Nat → Option Nat → σ → Chain β → Except ChainFault (Chain β × σ)
  | _, none, s, c => .ok (c, s)
  | 0, some _, _, _ => .error .unending
  | fuel + 1, some node, s, c => do
    let cell ← c.read node
    let c ← c.setItem node (f cell.item s).1
    let cell' ← c.read node
    eachFrom f fuel cell'.next (f cell.item s).2 c

/-- Each node, from the first. -/
def each (f : β → σ → β × σ) (s : σ) (c : Chain β) : Except ChainFault (Chain β × σ) :=
  eachFrom f c.room c.head s c

/-- `while (node) { next = node->next; delete node; node = next; }` -/
def clearFrom : Nat → Option Nat → Chain β → Except ChainFault (Chain β)
  | _, none, c => .ok c
  | 0, some _, _ => .error .unending
  | fuel + 1, some node, c => do
    let cell ← c.read node
    let c ← c.free node
    clearFrom fuel cell.next c

/-- Every node is freed, and then the holder's pointer is null. -/
def clear (c : Chain β) : Except ChainFault (Chain β) :=
  (clearFrom c.room c.head c).map fun c => { c with head := none }

/-! ## What is in memory -/

/-- The node at an address. -/
def cell (c : Chain β) (node : Nat) : Option (Cell β) := c.heap.lookup node

end Chain

/-- From one pointer, through the nodes of a list, to another pointer. -/
def Seg {β : Type} (cell : Nat → Option (Cell β)) :
    Option Nat → List (Nat × β) → Option Nat → Prop
  | p, [], q => p = q
  | p, x :: l, q => p = some x.1 ∧ ∃ next, cell x.1 = some ⟨x.2, next⟩ ∧ Seg cell next l q

/-- The place behind the nodes of a list. -/
def behind {β : Type} (l : List (Nat × β)) : Place :=
  match l.getLast? with
  | none => .head
  | some x => .next x.1

section Seg

variable {β : Type} {cell cell' : Nat → Option (Cell β)} {p q r : Option Nat}
  {l k : List (Nat × β)} {x : Nat × β}

@[simp]
theorem behind_nil : behind ([] : List (Nat × β)) = .head := rfl

@[simp]
theorem behind_snoc : behind (l ++ [x]) = .next x.1 := by
  unfold behind
  rw [List.getLast?_concat]

theorem seg_append : Seg cell p (l ++ k) q ↔ ∃ r, Seg cell p l r ∧ Seg cell r k q := by
  induction l generalizing p with
  | nil => exact ⟨fun h => ⟨p, rfl, h⟩, fun ⟨_, rfl, h⟩ => h⟩
  | cons y l ih =>
    constructor
    · rintro ⟨rfl, next, hy, hrest⟩
      obtain ⟨r, hl, hk⟩ := ih.mp hrest
      exact ⟨r, ⟨rfl, next, hy, hl⟩, hk⟩
    · rintro ⟨r, ⟨rfl, next, hy, hl⟩, hk⟩
      exact ⟨rfl, next, hy, ih.mpr ⟨r, hl, hk⟩⟩

/-- Only the nodes of the list matter. -/
theorem Seg.frame (h : Seg cell p l q) (same : ∀ x ∈ l, cell' x.1 = cell x.1) :
    Seg cell' p l q := by
  induction l generalizing p with
  | nil => exact h
  | cons y l ih =>
    obtain ⟨rfl, next, hy, hrest⟩ := h
    refine ⟨rfl, next, ?_, ih hrest fun x hx => same x (List.mem_cons_of_mem _ hx)⟩
    rw [same y (List.mem_cons_self ..), hy]

/-- A node of the list is in memory. -/
theorem Seg.mem (h : Seg cell p l q) (hx : x ∈ l) : ∃ next, cell x.1 = some ⟨x.2, next⟩ := by
  induction l generalizing p with
  | nil => cases hx
  | cons y l ih =>
    obtain ⟨rfl, next, hy, hrest⟩ := h
    rcases List.mem_cons.mp hx with rfl | hx
    · exact ⟨next, hy⟩
    · exact ih hrest hx

/-- A pointer from which null is reached is to the first node. -/
theorem Seg.head_eq (h : Seg cell p l none) : p = l.head?.map Prod.fst := by
  cases l with
  | nil => exact h
  | cons y l => exact h.1

end Seg

namespace Chain

variable {β σ : Type} {c : Chain β} {l pre post : List (Nat × β)} {x : Nat × β} {node : Nat}

/-- **The list in memory**, from the holder's pointer to null; no node is twice in it, and nothing
else is in memory. -/
structure Owns (c : Chain β) (l : List (Nat × β)) : Prop where
  seg : Seg c.cell c.head l none
  nodup : (l.map Prod.fst).Nodup
  only : ∀ node, (c.cell node).isSome ↔ node ∈ l.map Prod.fst

theorem read_eq {cell : Cell β} (h : c.cell node = some cell) : c.read node = .ok cell := by
  unfold Chain.cell at h
  unfold read
  rw [h]

@[simp]
theorem cell_write (node : Nat) (cell : Cell β) (c : Chain β) :
    (c.write node cell).cell = Function.update c.cell node (some cell) := by
  funext a
  by_cases ha : a = node
  · subst ha
    rw [Function.update_self]
    exact AList.lookup_insert _
  · rw [Function.update_of_ne ha]
    exact AList.lookup_insert_ne ha

/-- To free a node that is there. -/
theorem free_eq {cell : Cell β} (h : c.cell node = some cell) :
    ∃ c', c.free node = .ok c' ∧ c'.head = c.head ∧
      c'.cell = Function.update c.cell node none := by
  refine ⟨{ c with heap := c.heap.erase node }, ?_, rfl, ?_⟩
  · unfold free
    rw [read_eq h]
    rfl
  · funext a
    by_cases ha : a = node
    · subst ha
      rw [Function.update_self]
      exact AList.lookup_erase _ _
    · rw [Function.update_of_ne ha]
      exact AList.lookup_erase_ne ha

namespace Owns

/-- Nothing in memory. -/
theorem empty : ({} : Chain β).Owns [] where
  seg := rfl
  nodup := List.nodup_nil
  only := fun node => by simp [cell]

theorem notMem {node : Nat} (h : c.Owns l) (fresh : c.cell node = none) :
    node ∉ l.map Prod.fst := by
  intro hmem
  have := (h.only node).mpr hmem
  rw [fresh] at this
  cases this

/-- A new node is not one of those in memory. -/
theorem fresh (alloc : Allocator) (made : Nat) (c : Chain β) :
    c.cell (alloc.malloc made c.heap.keys) = none :=
  AList.lookup_eq_none.mpr fun hmem => alloc.fresh _ _ (AList.mem_keys.mp hmem)

theorem cell_mem (h : c.Owns l) (hx : x ∈ l) : ∃ next, c.cell x.1 = some ⟨x.2, next⟩ :=
  h.seg.mem hx

/-- A node of the list has the pointer to the one behind it. -/
theorem cell_next (h : c.Owns (pre ++ x :: post)) :
    c.cell x.1 = some ⟨x.2, post.head?.map Prod.fst⟩ := by
  obtain ⟨r, -, rfl, next, hx, hpost⟩ := seg_append.mp h.seg
  rw [hx, hpost.head_eq]

/-- There is room for a loop over the list. -/
theorem length_le (h : c.Owns l) : l.length ≤ c.room := by
  have hsub : l.map Prod.fst ⊆ c.heap.keys := by
    intro a ha
    obtain ⟨cell, hcell⟩ := Option.isSome_iff_exists.mp ((h.only a).mpr ha)
    exact AList.mem_keys.mp (AList.lookup_isSome.mp (Option.isSome_iff_exists.mpr ⟨cell, hcell⟩))
  have := (h.nodup.subperm hsub).length_le
  rwa [List.length_map] at this

/-- The pointer at a place is to the node behind it. -/
theorem load (h : c.Owns (pre ++ post)) :
    c.load (Lib.behind pre) = .ok (post.head?.map Prod.fst) := by
  obtain ⟨r, hpre, hpost⟩ := seg_append.mp h.seg
  have hr : r = post.head?.map Prod.fst := hpost.head_eq
  rcases List.eq_nil_or_concat pre with rfl | ⟨front, y, rfl⟩
  · have : c.head = r := hpre
    rw [behind_nil, ← hr, ← this]
    rfl
  · rw [List.concat_eq_append] at hpre ⊢
    obtain ⟨s, -, rfl, next, hy, hnext⟩ := seg_append.mp hpre
    have : next = r := hnext
    rw [behind_snoc, Chain.load, read_eq hy, ← hr, ← this]
    rfl

end Owns

/-- A store at the place behind some nodes. -/
theorem store_behind {p q : Option Nat} (seg : Seg c.cell c.head l p)
    (nodup : (l.map Prod.fst).Nodup) :
    ∃ c', c.store (Lib.behind l) q = .ok c' ∧ Seg c'.cell c'.head l q ∧
      (∀ node, (c'.cell node).isSome = (c.cell node).isSome) ∧
      ∀ node ∉ l.map Prod.fst, c'.cell node = c.cell node := by
  rcases List.eq_nil_or_concat l with rfl | ⟨front, y, rfl⟩
  · exact ⟨{ c with head := q }, rfl, rfl, fun _ => rfl, fun _ _ => rfl⟩
  · rw [List.concat_eq_append] at seg nodup ⊢
    obtain ⟨s, hfront, rfl, next, hy, -⟩ := seg_append.mp seg
    rw [List.map_append] at nodup
    obtain ⟨-, -, hdisj⟩ := List.nodup_append.mp nodup
    have hother : ∀ z ∈ front, z.1 ≠ y.1 := fun z hz e =>
      hdisj z.1 (List.mem_map_of_mem hz) y.1 (List.mem_singleton_self _) e
    refine ⟨c.write y.1 ⟨y.2, q⟩, ?_, seg_append.mpr ⟨some y.1, ?_, rfl, q, ?_, rfl⟩, ?_, ?_⟩
    · rw [behind_snoc, store, read_eq hy]
      rfl
    · refine hfront.frame fun z hz => ?_
      rw [cell_write, Function.update_of_ne (hother z hz)]
    · rw [cell_write, Function.update_self]
    · intro node
      rw [cell_write]
      by_cases hn : node = y.1
      · subst hn
        rw [Function.update_self, hy]
        rfl
      · rw [Function.update_of_ne hn]
    · intro node hn
      rw [cell_write, Function.update_of_ne]
      rintro rfl
      exact hn (List.mem_map_of_mem (List.mem_append_right _ (List.mem_singleton_self _)))

namespace Owns

/-- A new node in front. -/
theorem push (h : c.Owns l) (item : β) (fresh : c.cell node = none) :
    Owns { c.write node ⟨item, c.head⟩ with head := some node } ((node, item) :: l) := by
  have hnew := h.notMem fresh
  have hcell : Chain.cell { c.write node ⟨item, c.head⟩ with head := some node } =
      Function.update c.cell node (some ⟨item, c.head⟩) := cell_write ..
  refine ⟨⟨rfl, c.head, ?_, ?_⟩, List.nodup_cons.mpr ⟨hnew, h.nodup⟩, fun a => ?_⟩
  · rw [hcell, Function.update_self]
  · refine h.seg.frame fun y hy => ?_
    rw [hcell, Function.update_of_ne]
    exact fun e => hnew (e ▸ List.mem_map_of_mem hy)
  · rw [hcell, List.map_cons, List.mem_cons]
    by_cases ha : a = node
    · subst ha
      simp
    · rw [Function.update_of_ne ha, h.only a]
      simp [ha]

/-- A new node behind the others. -/
theorem snoc (h : c.Owns l) (item : β) (fresh : c.cell node = none) :
    ∃ c', (c.write node ⟨item, none⟩).store (Lib.behind l) (some node) = .ok c' ∧
      c'.Owns (l ++ [(node, item)]) := by
  have hnew := h.notMem fresh
  have hseg : Seg (c.write node ⟨item, none⟩).cell (c.write node ⟨item, none⟩).head l none := by
    refine h.seg.frame fun y hy => ?_
    rw [cell_write, Function.update_of_ne]
    exact fun e => hnew (e ▸ List.mem_map_of_mem hy)
  obtain ⟨c', hstore, hlist, hthere, hsame⟩ := store_behind (q := some node) hseg h.nodup
  refine ⟨c', hstore, seg_append.mpr ⟨some node, hlist, rfl, none, ?_, rfl⟩, ?_, fun a => ?_⟩
  · rw [hsame node hnew, cell_write, Function.update_self]
  · rw [List.map_append]
    refine List.nodup_append.mpr ⟨h.nodup, List.nodup_singleton _, ?_⟩
    rintro a ha b hb rfl
    obtain rfl : a = node := List.mem_singleton.mp hb
    exact hnew ha
  · rw [hthere a, cell_write, List.map_append, List.mem_append]
    by_cases ha : a = node
    · subst ha
      simp
    · rw [Function.update_of_ne ha, h.only a]
      simp [ha]

/-- A node is taken out: the pointer at its place becomes its own. It is still in memory. -/
theorem unlink (h : c.Owns (pre ++ x :: post)) :
    ∃ next c' c'', c.cell x.1 = some ⟨x.2, next⟩ ∧ c.store (Lib.behind pre) next = .ok c' ∧
      c'.free x.1 = .ok c'' ∧ c''.Owns (pre ++ post) := by
  obtain ⟨r, hpre, rfl, next, hx, hpost⟩ := seg_append.mp h.seg
  have hnodup := h.nodup
  rw [List.map_append, List.map_cons, List.nodup_middle, ← List.map_append] at hnodup
  obtain ⟨hout, hnodup⟩ := List.nodup_cons.mp hnodup
  have hnodup' := hnodup
  rw [List.map_append] at hnodup'
  obtain ⟨hpreNodup, -, hdisj⟩ := List.nodup_append.mp hnodup'
  obtain ⟨c', hstore, hfront, hthere, hsame⟩ := store_behind (q := next) hpre hpreNodup
  have hxpre : x.1 ∉ pre.map Prod.fst := fun hmem =>
    hout (List.map_append ▸ List.mem_append_left _ hmem)
  have hx' : c'.cell x.1 = some ⟨x.2, next⟩ := by rw [hsame x.1 hxpre, hx]
  obtain ⟨c'', hfree, hhead, hcell⟩ := free_eq hx'
  have hne : ∀ y ∈ pre ++ post, y.1 ≠ x.1 := fun y hy e => hout (e ▸ List.mem_map_of_mem hy)
  refine ⟨next, c', c'', hx, hstore, hfree, seg_append.mpr ⟨next, ?_, ?_⟩, hnodup, fun a => ?_⟩
  · rw [hhead]
    refine hfront.frame fun y hy => ?_
    rw [hcell, Function.update_of_ne (hne y (List.mem_append_left _ hy))]
  · refine hpost.frame fun y hy => ?_
    have hypre : y.1 ∉ pre.map Prod.fst := fun hmem =>
      hdisj y.1 hmem y.1 (List.mem_map_of_mem hy) rfl
    rw [hcell, Function.update_of_ne (hne y (List.mem_append_right _ hy)), hsame y.1 hypre]
  · rw [hcell]
    by_cases ha : a = x.1
    · subst ha
      rw [Function.update_self]
      simpa using hout
    · rw [Function.update_of_ne ha, hthere a, h.only a]
      simp [ha]

/-- The last node is freed, and then the pointer at its place is null. -/
theorem dropLast (h : c.Owns (l ++ [x])) :
    ∃ c' c'', c.free x.1 = .ok c' ∧ c'.store (Lib.behind l) none = .ok c'' ∧ c''.Owns l := by
  obtain ⟨r, hl, rfl, next, hx, -⟩ := seg_append.mp h.seg
  have hnodup := h.nodup
  rw [List.map_append, List.map_singleton] at hnodup
  obtain ⟨hnodup, -, hdisj⟩ := List.nodup_append.mp hnodup
  have hout : x.1 ∉ l.map Prod.fst := fun hmem =>
    hdisj x.1 hmem x.1 (List.mem_singleton_self _) rfl
  obtain ⟨c', hfree, hhead, hcell⟩ := free_eq hx
  have hseg : Seg c'.cell c'.head l (some x.1) := by
    rw [hhead]
    refine hl.frame fun y hy => ?_
    rw [hcell, Function.update_of_ne]
    exact fun e => hout (e ▸ List.mem_map_of_mem hy)
  obtain ⟨c'', hstore, hlist, hthere, -⟩ := store_behind (q := none) hseg hnodup
  refine ⟨c', c'', hfree, hstore, hlist, hnodup, fun a => ?_⟩
  rw [hthere a, hcell]
  by_cases ha : a = x.1
  · subst ha
    rw [Function.update_self]
    simpa using hout
  · rw [Function.update_of_ne ha, h.only a]
    simp [ha]

/-- What is in a node is replaced. -/
theorem setItem (h : c.Owns (pre ++ x :: post)) (item : β) :
    ∃ c', c.setItem x.1 item = .ok c' ∧ c'.Owns (pre ++ (x.1, item) :: post) := by
  obtain ⟨r, hpre, rfl, next, hx, hpost⟩ := seg_append.mp h.seg
  have hnodup := h.nodup
  rw [List.map_append, List.map_cons, List.nodup_middle, ← List.map_append] at hnodup
  obtain ⟨hout, -⟩ := List.nodup_cons.mp hnodup
  have hne : ∀ y ∈ pre ++ post, y.1 ≠ x.1 := fun y hy e => hout (e ▸ List.mem_map_of_mem hy)
  have haddr : (pre ++ (x.1, item) :: post).map Prod.fst = (pre ++ x :: post).map Prod.fst := by
    rw [List.map_append, List.map_append]
    rfl
  refine ⟨c.write x.1 ⟨item, next⟩, ?_, seg_append.mpr ⟨some x.1, ?_, rfl, next, ?_, ?_⟩, ?_,
    fun a => ?_⟩
  · unfold Chain.setItem
    rw [read_eq hx]
    rfl
  · refine hpre.frame fun y hy => ?_
    rw [cell_write, Function.update_of_ne (hne y (List.mem_append_left _ hy))]
  · rw [cell_write, Function.update_self]
  · refine hpost.frame fun y hy => ?_
    rw [cell_write, Function.update_of_ne (hne y (List.mem_append_right _ hy))]
  · rw [haddr]
    exact h.nodup
  · rw [haddr, ← h.only a, cell_write]
    by_cases ha : a = x.1
    · subst ha
      rw [Function.update_self, hx]
      exact Iff.rfl
    · rw [Function.update_of_ne ha]

/-! ## Loops -/

/-- The loop stops in front of the first node with something. -/
theorem seekFrom (found : β → Bool) : ∀ (done rest : List (Nat × β)) (fuel : Nat),
    c.Owns (done ++ rest ++ post) → (∀ x ∈ rest, found x.2 = false) →
    (∀ x ∈ post.head?, found x.2 = true) → (rest ++ post).length ≤ fuel →
    Chain.seekFrom found fuel (Lib.behind done) c = .ok (Lib.behind (done ++ rest))
  | done, [], fuel, h, _, hpost, hfuel => by
    rw [List.append_nil] at h ⊢
    cases post with
    | nil => cases fuel <;> rw [Chain.seekFrom, h.load] <;> rfl
    | cons x post =>
      obtain ⟨next, hx⟩ := h.cell_mem (List.mem_append_right _ (List.mem_cons_self ..))
      cases fuel with
      | zero => exact absurd hfuel (Nat.not_succ_le_zero _)
      | succ fuel =>
        rw [Chain.seekFrom, h.load]
        simp only [bind, Except.bind, List.head?_cons, Option.map_some, read_eq hx,
          hpost x rfl, if_true]
        rfl
  | done, x :: rest, fuel, h, hrest, hpost, hfuel => by
    have hmem : x ∈ done ++ (x :: rest) ++ post :=
      List.mem_append_left _ (List.mem_append_right _ (List.mem_cons_self ..))
    obtain ⟨next, hx⟩ := h.cell_mem hmem
    have hnext : c.Owns ((done ++ [x]) ++ rest ++ post) := by
      simpa using h
    rw [List.append_assoc] at h
    cases fuel with
    | zero => exact absurd hfuel (Nat.not_succ_le_zero _)
    | succ fuel =>
      rw [Chain.seekFrom, h.load]
      have hgo := seekFrom found (done ++ [x]) rest fuel hnext
        (fun y hy => hrest y (List.mem_cons_of_mem _ hy)) hpost (Nat.le_of_succ_le_succ hfuel)
      rw [behind_snoc] at hgo
      simp only [bind, Except.bind, List.cons_append, List.head?_cons, Option.map_some, read_eq hx,
        hrest x (List.mem_cons_self ..), Bool.false_eq_true, if_false]
      rw [hgo, List.append_assoc]
      rfl

/-- The place of the first node with something. -/
theorem seek (h : c.Owns (pre ++ post)) (found : β → Bool) (hpre : ∀ x ∈ pre, found x.2 = false)
    (hpost : ∀ x ∈ post.head?, found x.2 = true) : c.seek found = .ok (Lib.behind pre) :=
  seekFrom found [] pre _ h hpre hpost h.length_le

end Owns

namespace Owns

theorem findFrom (found : β → Bool) : ∀ (done rest : List (Nat × β)) (fuel : Nat),
    c.Owns (done ++ rest ++ post) → (∀ x ∈ rest, found x.2 = false) →
    (∀ x ∈ post.head?, found x.2 = true) → (rest ++ post).length ≤ fuel →
    Chain.findFrom found fuel ((rest ++ post).head?.map Prod.fst) c =
      .ok (post.head?.map Prod.fst)
  | done, [], fuel, h, _, hpost, hfuel => by
    cases post with
    | nil => cases fuel <;> rfl
    | cons x post =>
      obtain ⟨next, hx⟩ := h.cell_mem (List.mem_append_right _ (List.mem_cons_self ..))
      cases fuel with
      | zero => exact absurd hfuel (Nat.not_succ_le_zero _)
      | succ fuel =>
        simp only [List.nil_append, List.head?_cons, Option.map_some, Chain.findFrom, bind,
          Except.bind, read_eq hx, hpost x rfl, if_true]
        rfl
  | done, x :: rest, fuel, h, hrest, hpost, hfuel => by
    have hnext : c.Owns ((done ++ [x]) ++ rest ++ post) := by
      simpa using h
    obtain ⟨r, hfront, htail⟩ := seg_append.mp (List.append_assoc .. ▸ hnext.seg)
    obtain ⟨-, -, rfl, next, hx, hr⟩ := seg_append.mp hfront
    have hptr : next = (rest ++ post).head?.map Prod.fst := by
      obtain rfl : next = r := hr
      exact htail.head_eq
    cases fuel with
    | zero => exact absurd hfuel (Nat.not_succ_le_zero _)
    | succ fuel =>
      have hgo := findFrom found (done ++ [x]) rest fuel hnext
        (fun y hy => hrest y (List.mem_cons_of_mem _ hy)) hpost (Nat.le_of_succ_le_succ hfuel)
      simp only [List.cons_append, List.head?_cons, Option.map_some, Chain.findFrom, bind,
        Except.bind, read_eq hx, hrest x (List.mem_cons_self ..), Bool.false_eq_true, if_false]
      rw [hptr, hgo]

/-- The first node with something. -/
theorem find (h : c.Owns (pre ++ post)) (found : β → Bool) (hpre : ∀ x ∈ pre, found x.2 = false)
    (hpost : ∀ x ∈ post.head?, found x.2 = true) :
    c.find found = .ok (post.head?.map Prod.fst) := by
  unfold Chain.find
  rw [h.seg.head_eq]
  exact findFrom found [] pre _ h hpre hpost h.length_le

end Owns

/-- A list up to the first node with something. -/
theorem exists_first (found : β → Bool) (l : List (Nat × β)) :
    (∀ x ∈ l, found x.2 = false) ∨
      ∃ pre x post, l = pre ++ x :: post ∧ (∀ y ∈ pre, found y.2 = false) ∧ found x.2 = true := by
  cases hfind : l.find? fun x => found x.2 with
  | none =>
    left
    intro x hx
    exact Bool.eq_false_iff.mpr (List.find?_eq_none.mp hfind x hx)
  | some x =>
    obtain ⟨hx, pre, post, rfl, hpre⟩ := List.find?_eq_some_iff_append.mp hfind
    refine .inr ⟨pre, x, post, rfl, fun y hy => ?_, hx⟩
    exact Bool.not_eq_true' _ ▸ hpre y hy

/-- What is first in a list is first in what its nodes hold. -/
theorem find?_first {found : β → Bool} {pre post : List (Nat × β)} {x : Nat × β}
    (first : ∀ y ∈ pre, found y.2 = false) (here : found x.2 = true) :
    ((pre ++ x :: post).map Prod.snd).find? found = some x.2 := by
  rw [List.map_append, List.map_cons]
  refine List.find?_eq_some_iff_append.mpr ⟨here, _, _, rfl, fun b hb => ?_⟩
  obtain ⟨y, hy, rfl⟩ := List.mem_map.mp hb
  rw [first y hy]
  rfl

theorem find?_none {found : β → Bool} (none : ∀ x ∈ l, found x.2 = false) :
    (l.map Prod.snd).find? found = .none := by
  refine List.find?_eq_none.mpr fun b hb => ?_
  obtain ⟨x, hx, rfl⟩ := List.mem_map.mp hb
  exact Bool.eq_false_iff.mp (none x hx)

namespace Owns

/-- A node is looked for: its place, and the pointer there. -/
theorem seek_cases (h : c.Owns l) (found : β → Bool) :
    ((l.map Prod.snd).find? found = none ∧ (∀ x ∈ l, found x.2 = false) ∧
        c.seek found = .ok (Lib.behind l) ∧ c.load (Lib.behind l) = .ok none) ∨
      ∃ pre x post, l = pre ++ x :: post ∧ (∀ y ∈ pre, found y.2 = false) ∧ found x.2 = true ∧
        (l.map Prod.snd).find? found = some x.2 ∧ c.seek found = .ok (Lib.behind pre) ∧
        c.load (Lib.behind pre) = .ok (some x.1) := by
  rcases exists_first found l with none | ⟨pre, x, post, rfl, first, here⟩
  · have h' : c.Owns (l ++ []) := by rwa [List.append_nil]
    exact .inl ⟨find?_none none, none, h'.seek found none (fun x hx => nomatch hx), h'.load⟩
  · refine .inr ⟨pre, x, post, rfl, first, here, find?_first first here, ?_, h.load⟩
    exact h.seek found first fun y hy => by
      cases hy
      exact here

/-- A node is looked for: the pointer to it. -/
theorem find_cases (h : c.Owns l) (found : β → Bool) :
    ((l.map Prod.snd).find? found = none ∧ c.find found = .ok none) ∨
      ∃ pre x post, l = pre ++ x :: post ∧ (l.map Prod.snd).find? found = some x.2 ∧
        c.find found = .ok (some x.1) := by
  rcases exists_first found l with none | ⟨pre, x, post, rfl, first, here⟩
  · have h' : c.Owns (l ++ []) := by rwa [List.append_nil]
    exact .inl ⟨find?_none none, h'.find found none fun x hx => nomatch hx⟩
  · refine .inr ⟨pre, x, post, rfl, find?_first first here, ?_⟩
    exact h.find found first fun y hy => by
      cases hy
      exact here

end Owns

/-- What a loop over all the nodes makes of them, and of what it changes with them. -/
def mapAccum (f : β → σ → β × σ) : List (Nat × β) → σ → List (Nat × β) × σ
  | [], s => ([], s)
  | x :: l, s =>
    let rest := mapAccum f l (f x.2 s).2
    ((x.1, (f x.2 s).1) :: rest.1, rest.2)

/-- A loop that makes one thing of each node, and another of all of them. -/
theorem mapAccum_eq {g : β → β} {h : σ → β → σ} (l : List (Nat × β)) (s : σ) :
    mapAccum (fun b s => (g b, h s b)) l s =
      (l.map fun x => (x.1, g x.2), l.foldl (fun s x => h s x.2) s) := by
  induction l generalizing s with
  | nil => rfl
  | cons x l ih => rw [mapAccum, ih, List.map_cons, List.foldl_cons]

/-- A loop that counts the nodes. -/
theorem mapAccum_count (l : List (Nat × β)) (n : Nat) :
    (mapAccum (fun b n => (b, n + 1)) l n).2 = n + l.length := by
  have hfold := congrArg Prod.snd (mapAccum_eq (g := id) (h := fun n (_ : β) => n + 1) l n)
  refine Eq.trans hfold ?_
  induction l generalizing n with
  | nil => rfl
  | cons x l ih =>
    have hrest := ih (n + 1) (congrArg Prod.snd (mapAccum_eq l (n + 1)))
    rw [List.foldl_cons, hrest, List.length_cons]
    omega

namespace Owns

theorem eachFrom (f : β → σ → β × σ) : ∀ (done rest : List (Nat × β)) (s : σ) (c : Chain β)
    (fuel : Nat), c.Owns (done ++ rest) → rest.length ≤ fuel →
    ∃ c', Chain.eachFrom f fuel (rest.head?.map Prod.fst) s c =
        .ok (c', (mapAccum f rest s).2) ∧ c'.Owns (done ++ (mapAccum f rest s).1)
  | done, [], s, c, fuel, h, _ => ⟨c, by cases fuel <;> rfl, h⟩
  | done, x :: rest, s, c, 0, _, hfuel => absurd hfuel (Nat.not_succ_le_zero _)
  | done, x :: rest, s, c, fuel + 1, h, hfuel => by
    obtain ⟨next, hx⟩ := h.cell_mem (List.mem_append_right _ (List.mem_cons_self ..))
    obtain ⟨c₁, hset, h₁⟩ := h.setItem (f x.2 s).1
    obtain ⟨r, -, -, next', hx', hnext⟩ := seg_append.mp h₁.seg
    have hptr : next' = rest.head?.map Prod.fst := hnext.head_eq
    have hrest : c₁.Owns ((done ++ [(x.1, (f x.2 s).1)]) ++ rest) := by
      simpa using h₁
    obtain ⟨c₂, hgo, h₂⟩ := eachFrom f (done ++ [(x.1, (f x.2 s).1)]) rest (f x.2 s).2 c₁ fuel
      hrest (Nat.le_of_succ_le_succ hfuel)
    refine ⟨c₂, ?_, ?_⟩
    · simp only [List.head?_cons, Option.map_some, Chain.eachFrom, bind, Except.bind, read_eq hx,
        hset, read_eq hx', hptr, hgo]
      rfl
    · rw [List.append_assoc] at h₂
      exact h₂

/-- Each node in order. -/
theorem each (h : c.Owns l) (f : β → σ → β × σ) (s : σ) :
    ∃ c', c.each f s = .ok (c', (mapAccum f l s).2) ∧ c'.Owns (mapAccum f l s).1 := by
  unfold Chain.each
  rw [h.seg.head_eq]
  exact eachFrom f [] l s c _ h h.length_le

theorem clearFrom : ∀ (l : List (Nat × β)) (c : Chain β) (p : Option Nat) (fuel : Nat),
    Seg c.cell p l none → (l.map Prod.fst).Nodup → l.length ≤ fuel →
    ∃ c', Chain.clearFrom fuel p c = .ok c' ∧
      ∀ node, (c'.cell node).isSome ↔ (c.cell node).isSome ∧ node ∉ l.map Prod.fst
  | [], c, p, fuel, seg, _, _ => by
    obtain rfl : p = none := seg
    exact ⟨c, by cases fuel <;> rfl, fun node => by simp⟩
  | x :: l, c, p, 0, _, _, hfuel => absurd hfuel (Nat.not_succ_le_zero _)
  | x :: l, c, p, fuel + 1, seg, nodup, hfuel => by
    obtain ⟨rfl, next, hx, hrest⟩ := seg
    obtain ⟨hout, hnodup⟩ := List.nodup_cons.mp nodup
    obtain ⟨c₁, hfree, -, hcell⟩ := free_eq hx
    have hseg : Seg c₁.cell next l none := hrest.frame fun y hy => by
      rw [hcell, Function.update_of_ne]
      exact fun e => hout (e ▸ List.mem_map_of_mem hy)
    obtain ⟨c₂, hgo, hleft⟩ :=
      clearFrom l c₁ next fuel hseg hnodup (Nat.le_of_succ_le_succ hfuel)
    refine ⟨c₂, ?_, fun node => ?_⟩
    · simp only [Chain.clearFrom, bind, Except.bind, read_eq hx, hfree, hgo]
    · rw [hleft node, hcell, List.map_cons, List.mem_cons]
      by_cases hn : node = x.1
      · subst hn
        simp
      · rw [Function.update_of_ne hn]
        simp [hn]

/-- Every node is freed. -/
theorem clear (h : c.Owns l) : ∃ c', c.clear = .ok c' ∧ c'.Owns [] := by
  obtain ⟨c', hgo, hleft⟩ := clearFrom l c c.head c.room h.seg h.nodup h.length_le
  refine ⟨{ c' with head := none }, ?_, rfl, List.nodup_nil, fun node => ?_⟩
  · unfold Chain.clear
    rw [hgo]
    rfl
  · show (c'.cell node).isSome ↔ _
    rw [hleft node, h.only node]
    simp

end Owns

end Chain

end Yazpp.Lib
