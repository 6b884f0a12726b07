import Yazpp.Lib.Links
import Yazpp.SocketManager.Queue

/-!
# The links of the event queue

The queue is a ring of links around null (`EventQueue.Linked`): `queue_front` is where null's link
towards the back goes, and `queue_back` where its link towards the front does. In these terms the
source's cases for null are none: to set `next` of an event, or `queue_back` where there is no
event, is one change of one link (`exists_setNextOrBack`).

Each operation has one lemma: from a linked queue it does not fault, and what is linked then is
known. The loop of `removeEvent` is an induction on what it has not visited, from the back.
-/

set_option autoImplicit false

namespace Yazpp

open Yazpp.Lib

variable {ω : Type}

namespace EventQueue

/-- The event at an address. -/
def event (q : EventQueue ω) (a : EventAddr) : Option (SocketEvent ω) :=
  (q.heap.lookup a).map EventNode.toSocketEvent

/-- The links towards the back, null's too. -/
def prevLink (q : EventQueue ω) : Option EventAddr → Option (Option EventAddr)
  | none => some q.queueFront
  | some a => (q.heap.lookup a).map EventNode.prev

/-- The links towards the front, null's too. -/
def nextLink (q : EventQueue ω) : Option EventAddr → Option (Option EventAddr)
  | none => some q.queueBack
  | some a => (q.heap.lookup a).map EventNode.next

@[simp] theorem prevLink_none (q : EventQueue ω) : q.prevLink none = some q.queueFront := rfl

@[simp] theorem nextLink_none (q : EventQueue ω) : q.nextLink none = some q.queueBack := rfl

/-- The queue has the links `prev` and `next`, and the events of another one. -/
structure Relinked (q q' : EventQueue ω)
    (prev next : Option EventAddr → Option (Option EventAddr)) : Prop where
  prev : q'.prevLink = prev
  next : q'.nextLink = next
  event : q'.event = q.event

variable {q : EventQueue ω} {a : EventAddr} {e : SocketEvent ω} {v p : Option EventAddr}

/-- An event that is there has a node, which is read. -/
theorem exists_node (he : q.event a = some e) :
    ∃ node : EventNode ω, q.heap.lookup a = some node ∧ q.read a = .ok node ∧
      node.toSocketEvent = e := by
  unfold event at he
  obtain ⟨node, hnode, rfl⟩ := Option.map_eq_some_iff.mp he
  exact ⟨node, hnode, by simp only [read, hnode], rfl⟩

/-- What is written to an address is there, and nothing else changes. -/
theorem prevLink_write (q : EventQueue ω) (a : EventAddr) (node : EventNode ω) :
    (q.write a node).prevLink = Function.update q.prevLink (some a) (some node.prev) := by
  funext p
  rcases p with - | b
  · rfl
  · by_cases hb : b = a
    · subst hb
      simp [prevLink, write]
    · simp [prevLink, write, AList.lookup_insert_ne hb, hb]

theorem nextLink_write (q : EventQueue ω) (a : EventAddr) (node : EventNode ω) :
    (q.write a node).nextLink = Function.update q.nextLink (some a) (some node.next) := by
  funext p
  rcases p with - | b
  · rfl
  · by_cases hb : b = a
    · subst hb
      simp [nextLink, write]
    · simp [nextLink, write, AList.lookup_insert_ne hb, hb]

theorem event_write (q : EventQueue ω) (a : EventAddr) (node : EventNode ω) :
    (q.write a node).event = Function.update q.event a (some node.toSocketEvent) := by
  funext b
  by_cases hb : b = a
  · subst hb
    simp [event, write]
  · simp [event, write, AList.lookup_insert_ne hb, hb]

/-- An event is written over with other links. -/
theorem relinked_write {old : EventNode ω} (hold : q.heap.lookup a = some old)
    (node : EventNode ω) (same : node.toSocketEvent = old.toSocketEvent) :
    Relinked q (q.write a node) (Function.update q.prevLink (some a) (some node.prev))
      (Function.update q.nextLink (some a) (some node.next)) := by
  have hevent : q.event a = some node.toSocketEvent := by simp [event, hold, same]
  refine ⟨prevLink_write .., nextLink_write .., ?_⟩
  rw [event_write, ← hevent, Function.update_eq_self]

/-- `event->next = next` is a change of one link. -/
theorem exists_setNext (he : q.event a = some e) :
    ∃ q', q.setNext a v = .ok q' ∧
      Relinked q q' q.prevLink (Function.update q.nextLink (some a) (some v)) := by
  obtain ⟨node, hnode, hread, -⟩ := exists_node he
  have h := relinked_write hnode { node with next := v } rfl
  have hprev : q.prevLink (some a) = some node.prev := by simp [prevLink, hnode]
  rw [← hprev, Function.update_eq_self] at h
  exact ⟨_, by rw [setNext, hread]; rfl, h⟩

/-- `event->prev = prev` is one, too. -/
theorem exists_setPrev (he : q.event a = some e) :
    ∃ q', q.setPrev a v = .ok q' ∧
      Relinked q q' (Function.update q.prevLink (some a) (some v)) q.nextLink := by
  obtain ⟨node, hnode, hread, -⟩ := exists_node he
  have h := relinked_write hnode { node with prev := v } rfl
  have hnext : q.nextLink (some a) = some node.next := by simp [nextLink, hnode]
  rw [← hnext, Function.update_eq_self] at h
  exact ⟨_, by rw [setPrev, hread]; rfl, h⟩

/-- So is an assignment to an end of the queue. -/
theorem relinked_queueBack (q : EventQueue ω) (v : Option EventAddr) :
    Relinked q { q with queueBack := v } q.prevLink
      (Function.update q.nextLink none (some v)) :=
  ⟨funext fun p => by cases p <;> rfl, funext fun p => by cases p <;> simp [nextLink], rfl⟩

theorem relinked_queueFront (q : EventQueue ω) (v : Option EventAddr) :
    Relinked q { q with queueFront := v } (Function.update q.prevLink none (some v))
      q.nextLink :=
  ⟨funext fun p => by cases p <;> simp [prevLink], funext fun p => by cases p <;> rfl, rfl⟩

/-- With null among the nodes there is one case. -/
theorem exists_setNextOrBack (hp : ∀ a ∈ p, ∃ e, q.event a = some e) :
    ∃ q', q.setNextOrBack p v = .ok q' ∧
      Relinked q q' q.prevLink (Function.update q.nextLink p (some v)) := by
  cases p with
  | none => exact ⟨_, rfl, relinked_queueBack q v⟩
  | some a =>
    obtain ⟨e, he⟩ := hp a rfl
    exact exists_setNext he

theorem exists_setPrevOrFront (hp : ∀ a ∈ p, ∃ e, q.event a = some e) :
    ∃ q', q.setPrevOrFront p v = .ok q' ∧
      Relinked q q' (Function.update q.prevLink p (some v)) q.nextLink := by
  cases p with
  | none => exact ⟨_, rfl, relinked_queueFront q v⟩
  | some a =>
    obtain ⟨e, he⟩ := hp a rfl
    exact exists_setPrev he

/-- `delete` takes the event away, and its links. -/
theorem exists_free (he : q.event a = some e) :
    ∃ q', q.free a = .ok q' ∧ q'.prevLink = Function.update q.prevLink (some a) none ∧
      q'.nextLink = Function.update q.nextLink (some a) none ∧
      q'.event = Function.update q.event a none := by
  obtain ⟨node, -, hread, -⟩ := exists_node he
  refine ⟨{ q with heap := q.heap.erase a }, by rw [free, hread]; rfl, ?_, ?_, ?_⟩
  · funext p
    rcases p with - | b
    · rfl
    · by_cases hb : b = a
      · subst hb
        simp [prevLink]
      · simp [prevLink, AList.lookup_erase_ne hb, hb]
  · funext p
    rcases p with - | b
    · rfl
    · by_cases hb : b = a
      · subst hb
        simp [nextLink]
      · simp [nextLink, AList.lookup_erase_ne hb, hb]
  · funext b
    by_cases hb : b = a
    · subst hb
      simp [event]
    · simp [event, AList.lookup_erase_ne hb, hb]

/-- Behind a step, the events of a list are gone, and all others are what they were. -/
structure Freed (q q' : EventQueue ω) (xs : List (EventAddr × SocketEvent ω)) : Prop where
  gone : ∀ b ∈ xs.map Prod.fst, q'.event b = none
  kept : ∀ b ∉ xs.map Prod.fst, q'.event b = q.event b

theorem Freed.refl : Freed q q [] := ⟨List.forall_mem_nil _, fun _ _ => rfl⟩

/-- One event is gone first. -/
theorem Freed.snoc {q₁ q' : EventQueue ω} {xs : List (EventAddr × SocketEvent ω)}
    {x : EventAddr × SocketEvent ω} (h : Freed q₁ q' xs)
    (hx : q₁.event = Function.update q.event x.1 none) : Freed q q' (xs ++ [x]) := by
  constructor
  · intro b hb
    by_cases hgone : b ∈ xs.map Prod.fst
    · exact h.gone b hgone
    · obtain rfl : b = x.1 := by simpa [hgone] using hb
      rw [h.kept _ hgone, hx, Function.update_self]
  · intro b hb
    rw [List.map_append, List.mem_append, not_or] at hb
    have hbx : b ≠ x.1 := fun e => hb.2 (List.mem_singleton.mpr e)
    rw [h.kept b hb.1, hx, Function.update_of_ne hbx]

/-! ## A linked queue -/

/-- The nodes of a list of events. -/
def nodes (l : List (EventAddr × SocketEvent ω)) : List (Option EventAddr) :=
  (l.map Prod.fst).map some

/-- The queue holds the events of a list, front first. -/
structure Linked (q : EventQueue ω) (l : List (EventAddr × SocketEvent ω)) : Prop where
  nodup : (l.map Prod.fst).Nodup
  ring : LinkRing q.prevLink q.nextLink none (nodes l)
  events : ∀ x ∈ l, q.event x.1 = some x.2

variable {l pre post : List (EventAddr × SocketEvent ω)} {x : EventAddr × SocketEvent ω}

@[simp] theorem nodes_append (l k : List (EventAddr × SocketEvent ω)) :
    nodes (l ++ k) = nodes l ++ nodes k := by simp [nodes]

@[simp] theorem nodes_cons (x : EventAddr × SocketEvent ω)
    (l : List (EventAddr × SocketEvent ω)) : nodes (x :: l) = some x.1 :: nodes l := rfl

@[simp] theorem nodes_nil : nodes ([] : List (EventAddr × SocketEvent ω)) = [] := rfl

theorem mem_nodes {p : Option EventAddr} : p ∈ nodes l ↔ ∃ x ∈ l, some x.1 = p := by
  simp [nodes]

theorem none_notMem_nodes : none ∉ nodes l := by simp [nodes]

theorem nodup_nodes (h : (l.map Prod.fst).Nodup) : (none :: nodes l).Nodup :=
  List.nodup_cons.mpr ⟨none_notMem_nodes, h.map fun _ _ => Option.some.inj⟩

/-- The first of the nodes, or null. -/
theorem head?_nodes (l : List (EventAddr × SocketEvent ω)) :
    (nodes l ++ [none]).head? = some (l.head?.map Prod.fst) := by
  cases l <;> rfl

/-- The last of the nodes, or null. -/
theorem getLast?_nodes (l : List (EventAddr × SocketEvent ω)) :
    (none :: nodes l).getLast? = some (l.getLast?.map Prod.fst) := by
  rcases List.eq_nil_or_concat l with rfl | ⟨pre, x, rfl⟩
  · rfl
  · simp [List.concat_eq_append, List.getLast?_cons]

namespace Linked

theorem queueFront (h : q.Linked l) : q.queueFront = l.head?.map Prod.fst :=
  Option.some.inj (h.ring.fwd_holder.trans (head?_nodes l))

theorem queueBack (h : q.Linked l) : q.queueBack = l.getLast?.map Prod.fst :=
  Option.some.inj (h.ring.bwd_holder.trans (getLast?_nodes l))

/-- One end is null when the other is: then nothing is queued. -/
theorem null_iff (h : q.Linked l) : q.queueFront = none ↔ q.queueBack = none := by
  rw [h.queueFront, h.queueBack]
  simp

/-- An event of the queue: it is there, and linked to the ones around it. -/
theorem exists_node (h : q.Linked (pre ++ x :: post)) :
    ∃ node : EventNode ω, q.read x.1 = .ok node ∧ node.toSocketEvent = x.2 ∧
      q.prevLink (some x.1) = some node.prev ∧ q.nextLink (some x.1) = some node.next ∧
      node.prev = post.head?.map Prod.fst ∧ node.next = pre.getLast?.map Prod.fst := by
  obtain ⟨node, hnode, hread, hevent⟩ := EventQueue.exists_node (h.events x (by simp))
  have hprev : q.prevLink (some x.1) = some node.prev := by simp [prevLink, hnode]
  have hnext : q.nextLink (some x.1) = some node.next := by simp [nextLink, hnode]
  have hring := h.ring
  rw [nodes_append, nodes_cons] at hring
  exact ⟨node, hread, hevent, hprev, hnext,
    Option.some.inj (hprev.symm.trans (hring.fwd_eq.trans (head?_nodes post))),
    Option.some.inj (hnext.symm.trans (hring.bwd_eq.trans (getLast?_nodes pre)))⟩

/-- What happens to another event does not matter. -/
theorem frame {q' : EventQueue ω} (h : q.Linked l) (ha : a ∉ l.map Prod.fst)
    (hprev : ∀ p ≠ some a, q'.prevLink p = q.prevLink p)
    (hnext : ∀ p ≠ some a, q'.nextLink p = q.nextLink p)
    (hevent : ∀ b ≠ a, q'.event b = q.event b) : q'.Linked l := by
  have hother : ∀ p ∈ none :: nodes l, p ≠ some a := fun p hmem e => by
    subst e
    simp only [List.mem_cons, reduceCtorEq, false_or] at hmem
    obtain ⟨y, hy, hya⟩ := mem_nodes.mp hmem
    exact ha (List.mem_map.mpr ⟨y, hy, Option.some.inj hya⟩)
  refine ⟨h.nodup, h.ring.frame (fun p hmem => hprev p (hother p hmem)) fun p hmem =>
    hnext p (hother p hmem), fun y hy => ?_⟩
  rw [hevent y.1 fun e => ha (e ▸ List.mem_map_of_mem hy)]
  exact h.events y hy

/-- A new event is made. -/
theorem write {node : EventNode ω} (h : q.Linked l) (ha : a ∉ l.map Prod.fst) :
    (q.write a node).Linked l :=
  h.frame ha (fun p hp => by rw [prevLink_write, Function.update_of_ne hp])
    (fun p hp => by rw [nextLink_write, Function.update_of_ne hp])
    fun b hb => by rw [event_write, Function.update_of_ne hb]

/-- An event that is not in the queue is freed. -/
theorem free (h : q.Linked l) (ha : a ∉ l.map Prod.fst) (he : q.event a = some e) :
    ∃ q', q.free a = .ok q' ∧ q'.Linked l ∧ q'.event = Function.update q.event a none := by
  obtain ⟨q', hfree, hprev, hnext, hevent⟩ := exists_free he
  exact ⟨q', hfree, h.frame ha (fun p hp => by rw [hprev, Function.update_of_ne hp])
    (fun p hp => by rw [hnext, Function.update_of_ne hp])
    fun b hb => by rw [hevent, Function.update_of_ne hb], hevent⟩

/-! ## The three operations -/

/-- The rest of `putEvent`, behind its assertions: the event is linked to, and gets its own
links. -/
theorem linkIn {q₁ : EventQueue ω} (h : q.Linked l) (ha : a ∉ l.map Prod.fst)
    (he : q.event a = some e)
    (hq₁ : Relinked q q₁ (Function.update q.prevLink q.queueBack (some (some a))) q.nextLink) :
    ∃ q', (do
        let q ← q₁.setNext a q₁.queueBack
        let q ← q.setPrev a none
        return { q with queueBack := some a } : Except QueueFault (EventQueue ω)) = .ok q' ∧
      q'.Linked (l ++ [(a, e)]) ∧ q'.event = q.event := by
  have hback : q₁.queueBack = q.queueBack := Option.some.inj (congrFun hq₁.next none)
  have he₁ : q₁.event a = some e := hq₁.event ▸ he
  obtain ⟨q₂, hset₂, hq₂⟩ := exists_setNext (v := q₁.queueBack) he₁
  have he₂ : q₂.event a = some e := hq₂.event ▸ he₁
  obtain ⟨q₃, hset₃, hq₃⟩ := exists_setPrev (v := none) he₂
  have hq₄ := relinked_queueBack q₃ (some a)
  have hevent := (hq₄.event.trans hq₃.event).trans (hq₂.event.trans hq₁.event)
  refine ⟨{ q₃ with queueBack := some a }, by rw [hset₂]; simp only [bind, Except.bind, hset₃]; rfl,
    ⟨?_, ?_, ?_⟩, hevent⟩
  · rw [List.map_append]
    refine List.nodup_append.mpr ⟨h.nodup, List.nodup_singleton _, fun b hb c hc hbc => ha ?_⟩
    obtain rfl : c = a := List.mem_singleton.mp hc
    exact hbc ▸ hb
  · have hnew : some a ∉ none :: nodes l := by
      simpa [nodes] using ha
    have := h.ring.push (nodup_nodes h.nodup) hnew (nextLink_none q)
    rw [hq₄.prev, hq₄.next, hq₃.prev, hq₃.next, hq₂.prev, hq₂.next, hq₁.prev, hq₁.next, hback,
      nodes_append]
    exact this
  · intro y hy
    rw [hevent]
    rcases List.mem_append.mp hy with hy | hy
    · exact h.events y hy
    · rw [List.mem_singleton.mp hy, he]

/-- `putEvent` links a new event in at the back. -/
theorem putEvent (h : q.Linked l) (ha : a ∉ l.map Prod.fst) (he : q.event a = some e) :
    ∃ q', q.putEvent a = .ok q' ∧ q'.Linked (l ++ [(a, e)]) ∧ q'.event = q.event := by
  unfold EventQueue.putEvent
  split
  case h_2 hback =>
    have hfront : q.queueFront = none := h.null_iff.mpr hback
    have hq₁ := relinked_queueFront q (some a)
    rw [← hback] at hq₁
    rw [hfront]
    exact h.linkIn ha he hq₁
  case h_1 back hback =>
    have hfront : q.queueFront.isSome := by
      rw [Option.isSome_iff_ne_none]
      exact fun hnone => nomatch (h.null_iff.mp hnone).symm.trans hback
    obtain ⟨y, hy, rfl⟩ : ∃ y ∈ l, y.1 = back := by
      rw [h.queueBack, Option.map_eq_some_iff] at hback
      obtain ⟨y, hy, hyb⟩ := hback
      exact ⟨y, List.mem_of_getLast? hy, hyb⟩
    obtain ⟨q₁, hset₁, hq₁⟩ := exists_setPrev (v := some a) (h.events y hy)
    have hfront₁ : q₁.queueFront = q.queueFront := by
      have := congrFun hq₁.prev none
      simpa using this
    rw [← hback] at hq₁
    simp only [hset₁, bind, Except.bind, hfront₁, hfront, assertThat, if_true]
    exact h.linkIn ha he hq₁

/-- `getEvent` links the front out. -/
theorem getEvent (h : q.Linked (x :: l)) :
    ∃ q', q.getEvent = .ok (q', some x.1) ∧ q'.Linked l ∧ q'.event = q.event := by
  have hcons : q.Linked ([] ++ x :: l) := h
  obtain ⟨node, hread, -, hprev, hnext, hp, hn⟩ := hcons.exists_node
  have hfront : q.queueFront = some x.1 := h.queueFront
  have hback : q.queueBack.isSome := by
    rw [h.queueBack]
    simp
  have hevents : ∀ y ∈ l, q.event y.1 = some y.2 := fun y hy =>
    h.events y (List.mem_cons_of_mem _ hy)
  have hring : LinkRing q.prevLink q.nextLink none ([] ++ some x.1 :: nodes l) := h.ring
  have hunlinked := hring.unlink (nodup_nodes h.nodup) hnext hprev
  have hq₁ := relinked_queueFront q node.prev
  obtain ⟨q₂, hset₂, hq₂⟩ := exists_setNextOrBack (q := { q with queueFront := node.prev })
    (v := none) (p := node.prev) fun b hb => by
      rw [hp] at hb
      obtain ⟨y, hy, rfl⟩ := Option.map_eq_some_iff.mp hb
      exact ⟨y.2, hq₁.event ▸ hevents y (List.mem_of_head? hy)⟩
  refine ⟨q₂, ?_, ⟨(List.nodup_cons.mp h.nodup).2, ?_, ?_⟩, hq₂.event.trans hq₁.event⟩
  · unfold EventQueue.getEvent
    simp only [hfront, assertThat, hback, hread, bind, Except.bind, if_true]
    cases hnode : node.prev with
    | none =>
      rw [hnode] at hset₂
      cases hset₂
      rfl
    | some front =>
      rw [hnode] at hset₂
      simp only [EventQueue.setNextOrBack] at hset₂
      simp only [hset₂]
      rfl
  · rw [hq₂.prev, hq₂.next, hq₁.prev, hq₁.next]
    rwa [show node.next = none from hn] at hunlinked
  · rw [hq₂.event, hq₁.event]
    exact hevents

/-- `getEvent` of an empty queue. -/
theorem getEvent_nil (h : q.Linked []) : q.getEvent = .ok (q, none) := by
  have hfront : q.queueFront = none := h.queueFront
  unfold EventQueue.getEvent
  simp only [hfront]
  rfl

/-- `removeEvent` links out an event of the observer, wherever it is, and frees it. -/
theorem removeNode (h : q.Linked (pre ++ x :: post)) :
    ∃ q', q.removeNode x.1 = .ok q' ∧ q'.Linked (pre ++ post) ∧
      q'.event = Function.update q.event x.1 none := by
  obtain ⟨node, hread, hevent, hprev, hnext, hp, hn⟩ := h.exists_node
  have hnodup := h.nodup
  rw [List.map_append, List.map_cons, List.nodup_middle] at hnodup
  obtain ⟨hx, hrest⟩ := List.nodup_cons.mp hnodup
  rw [← List.map_append] at hx hrest
  have hring := h.ring
  rw [nodes_append, nodes_cons] at hring
  have hunlinked := hring.unlink (by simpa using nodup_nodes h.nodup) hnext hprev
  rw [← nodes_append] at hunlinked
  have hevents : ∀ y ∈ pre ++ post, q.event y.1 = some y.2 := fun y hy =>
    h.events y (List.mem_append.mpr
      ((List.mem_append.mp hy).imp_right (List.mem_cons_of_mem _)))
  -- the two neighbours are other events, and they are there
  have hbehind : ∀ b ∈ node.prev, ∃ y ∈ pre ++ post, y.1 = b := fun b hb => by
    rw [hp] at hb
    obtain ⟨y, hy, rfl⟩ := Option.map_eq_some_iff.mp hb
    exact ⟨y, List.mem_append_right _ (List.mem_of_head? hy), rfl⟩
  have hfront : ∀ b ∈ node.next, ∃ y ∈ pre ++ post, y.1 = b := fun b hb => by
    rw [hn] at hb
    obtain ⟨y, hy, rfl⟩ := Option.map_eq_some_iff.mp hb
    exact ⟨y, List.mem_append_left _ (List.mem_of_getLast? hy), rfl⟩
  have hne : some x.1 ≠ node.prev := fun e => by
    obtain ⟨y, hy, hyx⟩ := hbehind x.1 e.symm
    exact hx (List.mem_map.mpr ⟨y, hy, hyx⟩)
  obtain ⟨q₁, hset₁, hq₁⟩ := exists_setNextOrBack (v := node.next) fun b hb => by
    obtain ⟨y, hy, rfl⟩ := hbehind b hb
    exact ⟨y.2, hevents y hy⟩
  -- its own links are read again
  obtain ⟨node₁, hnode₁, hread₁, hevent₁⟩ :=
    EventQueue.exists_node (q := q₁) (hq₁.event ▸ h.events x (by simp))
  have hprev₁ : node₁.prev = node.prev := by
    have := congrFun hq₁.prev (some x.1)
    rw [hprev] at this
    simpa [prevLink, hnode₁] using this
  have hnext₁ : node₁.next = node.next := by
    have := congrFun hq₁.next (some x.1)
    rw [Function.update_of_ne hne, hnext] at this
    simpa [nextLink, hnode₁] using this
  obtain ⟨q₂, hset₂, hq₂⟩ := exists_setPrevOrFront (q := q₁) (p := node.next) (v := node.prev)
    fun b hb => by
      obtain ⟨y, hy, rfl⟩ := hfront b hb
      exact ⟨y.2, hq₁.event ▸ hevents y hy⟩
  have hevent₂ : q₂.event = q.event := hq₂.event.trans hq₁.event
  have hlinked : q₂.Linked (pre ++ post) := by
    refine ⟨hrest, ?_, hevent₂ ▸ hevents⟩
    rw [hq₂.prev, hq₂.next, hq₁.prev, hq₁.next]
    exact hunlinked
  obtain ⟨q₃, hfree, hlinked₃, hevent₃⟩ := hlinked.free hx (hevent₂ ▸ h.events x (by simp))
  refine ⟨q₃, ?_, hlinked₃, hevent₂ ▸ hevent₃⟩
  unfold EventQueue.removeNode
  simp only [hread, hset₁, hread₁, hprev₁, hnext₁, hset₂, bind, Except.bind]
  exact hfree

variable [DecidableEq ω]

/-- The loop of `removeEvent`, at the last of the events that it has not visited: it frees those of
the observer among them. -/
theorem removeLoop (observer : ω) (pre : List (EventAddr × SocketEvent ω)) :
    ∀ {q : EventQueue ω} {post : List (EventAddr × SocketEvent ω)} {fuel : Nat},
      q.Linked (pre ++ post) → pre.length ≤ fuel →
      ∃ q', EventQueue.removeLoop observer fuel (pre.getLast?.map Prod.fst) q = .ok q' ∧
        q'.Linked ((pre.filter fun x => x.2.observer ≠ observer) ++ post) ∧
        Freed q q' (pre.filter fun x => x.2.observer = observer) := by
  induction pre using List.reverseRecOn with
  | nil =>
    intro q post fuel h _
    refine ⟨q, ?_, h, .refl⟩
    cases fuel <;> rfl
  | append_singleton pre x ih =>
    intro q post fuel h hfuel
    rw [List.append_assoc] at h
    rw [List.length_append, List.length_singleton] at hfuel
    obtain ⟨node, hread, hevent, -, -, -, hnext⟩ := h.exists_node
    obtain ⟨fuel, rfl⟩ : ∃ n, fuel = n + 1 := ⟨fuel - 1, by omega⟩
    have hrest : pre.length ≤ fuel := by omega
    have hobs : node.observer = x.2.observer := by rw [← hevent]
    rw [List.getLast?_concat, List.filter_append, List.filter_append]
    show ∃ q', EventQueue.removeLoop observer (fuel + 1) (some x.1) q = .ok q' ∧ _
    unfold EventQueue.removeLoop
    simp only [hread, hobs, hnext, bind, Except.bind]
    by_cases hx : observer = x.2.observer
    · obtain ⟨q₁, hremove, hlinked, hevent₁⟩ := h.removeNode
      obtain ⟨q', hloop, hlinked', hfreed⟩ := ih hlinked hrest
      rw [List.filter_cons_of_neg (by simp [hx]), List.filter_cons_of_pos (by simp [hx])]
      refine ⟨q', by simpa only [if_pos hx, hremove] using hloop, by simpa using hlinked', ?_⟩
      exact hfreed.snoc hevent₁
    · obtain ⟨q', hloop, hlinked', hfreed⟩ := ih h hrest
      rw [List.filter_cons_of_pos (by simp [Ne.symm hx]),
        List.filter_cons_of_neg (by simp [Ne.symm hx])]
      refine ⟨q', by simpa only [if_neg hx, pure, Except.pure] using hloop, ?_, ?_⟩
      · simpa using hlinked'
      · simpa using hfreed

/-- `removeEvent` takes out the events of an observer, and frees them. -/
theorem removeEvent (observer : ω) (h : q.Linked l) :
    ∃ q', q.removeEvent observer = .ok q' ∧
      q'.Linked (l.filter fun x => x.2.observer ≠ observer) ∧
      Freed q q' (l.filter fun x => x.2.observer = observer) := by
  have hkeys : l.map Prod.fst ⊆ q.heap.keys := fun a ha => by
    obtain ⟨x, hx, rfl⟩ := List.mem_map.mp ha
    obtain ⟨node, hnode, -⟩ := EventQueue.exists_node (h.events x hx)
    exact AList.lookup_isSome.mp (by simp [hnode])
  have hfuel : l.length ≤ q.heap.keys.length := by
    simpa using (List.subperm_of_subset h.nodup hkeys).length_le
  have hall : q.Linked (l ++ []) := by rwa [List.append_nil]
  obtain ⟨q', hloop, hlinked, hfreed⟩ := removeLoop observer l hall hfuel
  rw [← h.queueBack] at hloop
  exact ⟨q', hloop, by simpa using hlinked, hfreed⟩

end Linked

end EventQueue

end Yazpp
