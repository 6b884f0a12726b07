import Yazpp.SocketManager.QueueLinks

/-!
# The linked queue is a list

What the event queue is for: a list of events, the oldest first (`fifo`). The linked queue refines
it (`queue_refines_fifo`): under any uses, both put out the same, and what the pointers visit from
either end are the events of the list, in this order from the front and in the other from the back.
No use of it faults, so no assertion fails.

The list is the one that the rest of the manager is modelled with: what each use does to it is what
`SocketManager` does to its queue.
-/

set_option autoImplicit false

namespace Yazpp

open Yazpp.Lib

variable {ω : Type}

/-- A list of events, oldest first, and the events that were taken out and not freed yet. -/
structure Fifo (ω : Type) where
  waiting : List (EventAddr × SocketEvent ω) := []
  held : List EventAddr := []

namespace Fifo

/-- The events at the addresses in use are those of the list, and those held. -/
def used (a : Fifo ω) : List EventAddr := a.waiting.map Prod.fst ++ a.held

/-- A new event has an address that is not in use. -/
def admits (a : Fifo ω) : QueueInput ω → Bool
  | .putEvent event _ => event ∉ a.used
  | .getEvent | .removeEvent _ => true
  | .delete event => event ∈ a.held

/-- The oldest event is taken out. -/
def getEvent (a : Fifo ω) : Fifo ω × List (QueueOutput ω) :=
  match a.waiting with
  | [] => (a, [.got none])
  | x :: rest => ({ waiting := rest, held := x.1 :: a.held }, [.got (some x)])

/-- One use. -/
def perform [DecidableEq ω] (a : Fifo ω) : QueueInput ω → Fifo ω × List (QueueOutput ω)
  | .putEvent event node => ({ a with waiting := a.waiting ++ [(event, node.toSocketEvent)] }, [])
  | .getEvent => a.getEvent
  | .removeEvent observer =>
    ({ a with waiting := a.waiting.filter fun x => x.2.observer ≠ observer }, [])
  | .delete event => ({ a with held := a.held.erase event }, [])

end Fifo

/-- The list under any sequence of uses. -/
def fifo (ω : Type) [DecidableEq ω] : Machine (Fifo ω) (QueueInput ω) (QueueOutput ω) where
  step a i := if a.admits i then some (a.perform i) else none

/-- The events of the list, as the rest of the manager knows them. -/
def Fifo.events (a : Fifo ω) : List (SocketEvent ω) := a.waiting.map Prod.snd

/-- What a use does to the events is what the manager does to its queue. -/
theorem Fifo.events_perform [DecidableEq ω] {a : Fifo ω} {m : SocketManager ω}
    (same : m.queue = a.events) (i : QueueInput ω) :
    (a.perform i).1.events =
      match i with
      | .putEvent _ node => (m.putEvent node.toSocketEvent).manager.queue
      | .getEvent => (m.notifyFront []).manager.queue
      | .removeEvent observer => SocketManager.removeEvent observer m.queue
      | .delete _ => m.queue := by
  cases i with
  | putEvent event node =>
    show (a.waiting ++ [(event, node.toSocketEvent)]).map Prod.snd = m.queue ++ [_]
    rw [same, List.map_append]
    rfl
  | getEvent =>
    obtain ⟨waiting, held⟩ := a
    cases waiting with
    | nil =>
      have hqueue : m.queue = [] := same
      simp only [SocketManager.notifyFront, hqueue]
      rfl
    | cons x rest =>
      have hqueue : m.queue = x.2 :: rest.map Prod.snd := same
      simp only [SocketManager.notifyFront, hqueue]
      rfl
  | removeEvent observer =>
    show (a.waiting.filter fun x => x.2.observer ≠ observer).map Prod.snd =
      m.queue.filter fun ev => ev.observer ≠ observer
    rw [same, Fifo.events, List.filter_map]
    rfl
  | delete event => exact same.symm

/-- The linked queue holds the events of the list: following `prev` from the front visits them in
order, following `next` from the back in the opposite order, and the ends are null together. -/
structure QueueUse.Mirrors (u : QueueUse ω) (a : Fifo ω) : Prop where
  null_iff : u.queue.queueFront = none ↔ u.queue.queueBack = none
  prevs : Visits (fun ev => (u.queue.heap.lookup ev).map EventNode.prev) u.queue.queueFront
    (a.waiting.map Prod.fst)
  nexts : Visits (fun ev => (u.queue.heap.lookup ev).map EventNode.next) u.queue.queueBack
    (a.waiting.map Prod.fst).reverse
  nodup : (a.waiting.map Prod.fst).Nodup
  events : ∀ x ∈ a.waiting, u.queue.event x.1 = some x.2
  held : u.held = a.held

/-- The pointers hold one list of events only. -/
theorem QueueUse.Mirrors.waiting_eq {u : QueueUse ω} {a b : Fifo ω} (ha : u.Mirrors a)
    (hb : u.Mirrors b) : a.waiting = b.waiting := by
  have hread : ∀ {c : Fifo ω}, u.Mirrors c → c.waiting.map (fun x => (x.1, some x.2)) =
      (c.waiting.map Prod.fst).map fun ev => (ev, u.queue.event ev) := fun hc => by
    rw [List.map_map]
    exact List.map_congr_left fun x hx => by rw [Function.comp_apply, hc.events x hx]
  have hinj : Function.Injective fun x : EventAddr × SocketEvent ω => (x.1, some x.2) :=
    fun x y hxy => by
      obtain ⟨haddr, hevent⟩ := Prod.mk.inj hxy
      exact Prod.ext haddr (Option.some.inj hevent)
  apply List.map_injective_iff.mpr hinj
  rw [hread ha, hread hb, ha.prevs.unique hb.prevs]

/-! ## One use -/

/-- What every use keeps: the queue is linked as the list says, and the memory in use is what is
waiting and what is held, each at an address of its own. -/
structure QueueUse.Represents (u : QueueUse ω) (a : Fifo ω) : Prop where
  linked : u.queue.Linked a.waiting
  held : u.held = a.held
  nodup : a.used.Nodup
  there : ∀ b, (∃ e, u.queue.event b = some e) ↔ b ∈ a.used

namespace QueueUse.Represents

variable {u : QueueUse ω} {a : Fifo ω} {ev : EventAddr}

/-- The addresses that are left when the events of an observer are taken out. -/
theorem mem_map_filter_ne [DecidableEq ω] {l : List (EventAddr × SocketEvent ω)}
    (nodup : (l.map Prod.fst).Nodup) (observer : ω) {b : EventAddr} :
    b ∈ (l.filter fun x => x.2.observer ≠ observer).map Prod.fst ↔
      b ∈ l.map Prod.fst ∧ b ∉ (l.filter fun x => x.2.observer = observer).map Prod.fst := by
  constructor
  · intro hmem
    obtain ⟨x, hx, rfl⟩ := List.mem_map.mp hmem
    obtain ⟨hxl, hobs⟩ := List.mem_filter.mp hx
    refine ⟨List.mem_map_of_mem hxl, fun hgone => ?_⟩
    obtain ⟨y, hy, hyx⟩ := List.mem_map.mp hgone
    obtain ⟨hyl, hyobs⟩ := List.mem_filter.mp hy
    obtain rfl : y = x := List.inj_on_of_nodup_map nodup hyl hxl hyx
    exact of_decide_eq_true hobs (of_decide_eq_true hyobs)
  · rintro ⟨hmem, hkept⟩
    obtain ⟨x, hxl, rfl⟩ := List.mem_map.mp hmem
    refine List.mem_map_of_mem (List.mem_filter.mpr ⟨hxl, decide_eq_true fun hobs => hkept ?_⟩)
    exact List.mem_map_of_mem (List.mem_filter.mpr ⟨hxl, decide_eq_true hobs⟩)

/-- The ends of the ring are visited up to null. -/
theorem mirrors (h : u.Represents a) : u.Mirrors a where
  null_iff := h.linked.null_iff
  prevs := h.linked.ring.visits (EventQueue.prevLink_none _)
  nexts := by
    have hring := h.linked.ring.reverse
    unfold EventQueue.nodes at hring
    rw [← List.map_reverse] at hring
    exact hring.visits (EventQueue.nextLink_none _)
  nodup := h.linked.nodup
  events := h.linked.events
  held := h.held

/-- Both admit the same uses. -/
theorem admits_eq (h : u.Represents a) (i : QueueInput ω) : u.admits i = a.admits i := by
  cases i with
  | putEvent event node =>
    have hthere := h.there event
    unfold EventQueue.event at hthere
    cases hlookup : u.queue.heap.lookup event with
    | none =>
      have hnew : event ∉ a.used := fun hmem => by
        obtain ⟨e, he⟩ := hthere.mpr hmem
        simp [hlookup] at he
      simp [QueueUse.admits, Fifo.admits, hlookup, hnew]
    | some old =>
      have hmem : event ∈ a.used := hthere.mp ⟨old.toSocketEvent, by rw [hlookup]; rfl⟩
      simp [QueueUse.admits, Fifo.admits, hlookup, hmem]
  | getEvent => rfl
  | removeEvent observer => rfl
  | delete event => simp only [QueueUse.admits, Fifo.admits, h.held]

theorem putEvent (h : u.Represents a) (hnew : ev ∉ a.used) (node : EventNode ω) :
    ∃ u', u.putEvent ev node = .ok (u', []) ∧
      u'.Represents { a with waiting := a.waiting ++ [(ev, node.toSocketEvent)] } := by
  have hwaiting : ev ∉ a.waiting.map Prod.fst := fun hmem => hnew (List.mem_append_left _ hmem)
  have hused : ({ a with waiting := a.waiting ++ [(ev, node.toSocketEvent)] } : Fifo ω).used =
      a.waiting.map Prod.fst ++ ev :: a.held := by
    simp [Fifo.used]
  have hnode : (u.queue.write ev node).event ev = some node.toSocketEvent := by
    rw [EventQueue.event_write, Function.update_self]
  obtain ⟨q, hput, hlinked, hevent⟩ := (h.linked.write hwaiting).putEvent hwaiting hnode
  refine ⟨{ u with queue := q }, ?_, hlinked, h.held, ?_, fun b => ?_⟩
  · unfold QueueUse.putEvent
    rw [hput]
    rfl
  · rw [hused, List.nodup_middle]
    exact List.nodup_cons.mpr ⟨hnew, h.nodup⟩
  · show (∃ e, q.event b = some e) ↔ _
    rw [hevent, EventQueue.event_write, hused, List.mem_append, List.mem_cons]
    by_cases hb : b = ev
    · subst hb
      simp
    · have := h.there b
      rw [Fifo.used, List.mem_append] at this
      rw [Function.update_of_ne hb, this]
      simp [hb]

theorem getEvent (h : u.Represents a) :
    ∃ u', u.getEvent = .ok (u', a.getEvent.2) ∧ u'.Represents a.getEvent.1 := by
  obtain ⟨waiting, held⟩ := a
  unfold QueueUse.getEvent
  cases waiting with
  | nil =>
    rw [h.linked.getEvent_nil]
    exact ⟨u, rfl, h⟩
  | cons x rest =>
    obtain ⟨q, hget, hlinked, hevent⟩ := h.linked.getEvent
    obtain ⟨node, -, hread, hnode⟩ :=
      EventQueue.exists_node (q := q) (hevent ▸ h.linked.events x (List.mem_cons_self ..))
    have hused : (Fifo.mk rest (x.1 :: held)).used.Perm (Fifo.mk (x :: rest) held).used :=
      List.perm_middle
    simp only [hget, bind, Except.bind, hread]
    refine ⟨{ queue := q, held := x.1 :: u.held }, ?_, hlinked, ?_, hused.nodup_iff.mpr h.nodup,
      fun b => ?_⟩
    · rw [hnode]
      rfl
    · show x.1 :: u.held = _
      rw [h.held]
      rfl
    · show (∃ e, q.event b = some e) ↔ _
      rw [hevent, h.there b]
      exact hused.mem_iff.symm

theorem removeEvent [DecidableEq ω] (h : u.Represents a) (observer : ω) :
    ∃ u', u.removeEvent observer = .ok (u', []) ∧
      u'.Represents { a with waiting := a.waiting.filter fun x => x.2.observer ≠ observer } := by
  obtain ⟨q, hremove, hlinked, hfreed⟩ := h.linked.removeEvent observer
  refine ⟨{ u with queue := q }, ?_, hlinked, h.held, ?_, fun b => ?_⟩
  · unfold QueueUse.removeEvent
    rw [hremove]
    rfl
  · exact h.nodup.sublist (List.Sublist.append (List.filter_sublist.map _) (.refl _))
  · show (∃ e, q.event b = some e) ↔ _
    have hkept := mem_map_filter_ne h.linked.nodup observer (b := b)
    rw [Fifo.used, List.mem_append, hkept]
    by_cases hgone : b ∈ (a.waiting.filter fun x => x.2.observer = observer).map Prod.fst
    · have hwaiting : b ∈ a.waiting.map Prod.fst := (List.filter_sublist.map _).subset hgone
      have hheld : b ∉ a.held := fun hmem =>
        (List.nodup_append.mp h.nodup).2.2 b hwaiting b hmem rfl
      rw [hfreed.gone b hgone]
      simp [hgone, hheld]
    · rw [hfreed.kept b hgone, h.there b, Fifo.used, List.mem_append]
      simp only [hgone, not_false_eq_true, and_true]

theorem delete (h : u.Represents a) (hheld : ev ∈ a.held) :
    ∃ u', u.delete ev = .ok (u', []) ∧ u'.Represents { a with held := a.held.erase ev } := by
  obtain ⟨-, hnodup, hdisj⟩ := List.nodup_append.mp h.nodup
  have hwaiting : ev ∉ a.waiting.map Prod.fst := fun hmem => hdisj ev hmem ev hheld rfl
  obtain ⟨e, he⟩ := (h.there ev).mpr (List.mem_append_right _ hheld)
  obtain ⟨q, hfree, hlinked, hevent⟩ := h.linked.free hwaiting he
  refine ⟨{ queue := q, held := u.held.erase ev }, ?_, hlinked, ?_, ?_, fun b => ?_⟩
  · unfold QueueUse.delete
    rw [hfree]
    rfl
  · show u.held.erase ev = _
    rw [h.held]
  · exact h.nodup.sublist (List.Sublist.append (.refl _) List.erase_sublist)
  · show (∃ e, q.event b = some e) ↔ _
    have hold := h.there b
    rw [Fifo.used, List.mem_append] at hold ⊢
    rw [hevent, hnodup.mem_erase_iff]
    by_cases hb : b = ev
    · subst hb
      simp [hwaiting]
    · rw [Function.update_of_ne hb, hold]
      simp [hb]

end QueueUse.Represents

/-- One use of both. -/
theorem eventQueue_refines [DecidableEq ω] :
    (eventQueue ω).Refines (fifo ω) QueueUse.Represents := by
  intro u a i h
  have hperform : a.admits i = true →
      ∃ u', u.perform i = .ok (u', (a.perform i).2) ∧ u'.Represents (a.perform i).1 := by
    intro hadmits
    cases i with
    | putEvent event node => exact h.putEvent (of_decide_eq_true hadmits) node
    | getEvent => exact h.getEvent
    | removeEvent observer => exact h.removeEvent observer
    | delete event => exact h.delete (of_decide_eq_true hadmits)
  unfold eventQueue fifo
  dsimp only
  rw [h.admits_eq i]
  cases hadmits : a.admits i with
  | false => exact .none
  | true =>
    obtain ⟨u', hu', hnext⟩ := hperform hadmits
    simp only [if_true, hu']
    exact .some ⟨hnext, rfl⟩

/-- No use of the list faults. -/
theorem Fifo.perform_no_fault [DecidableEq ω] (a : Fifo ω) (i : QueueInput ω) (f : QueueFault) :
    .fault f ∉ (a.perform i).2 := by
  cases i with
  | getEvent =>
    unfold Fifo.perform Fifo.getEvent
    dsimp only
    split <;> simp
  | putEvent | removeEvent | delete => exact List.not_mem_nil

theorem fifo_exec_no_fault [DecidableEq ω] {is : List (QueueInput ω)} {a a' : Fifo ω}
    {os : List (QueueOutput ω)} (run : (fifo ω).exec a is = some (a', os)) (f : QueueFault) :
    .fault f ∉ os := by
  intro hmem
  obtain ⟨-, i, -, b, -, next, outs, -, -, hstep, hmem⟩ := Machine.exec_mem run hmem
  unfold fifo at hstep
  dsimp only at hstep
  split at hstep
  case isFalse => cases hstep
  case isTrue =>
    have houts : (b.perform i).2 = outs := congrArg Prod.snd (Option.some.inj hstep)
    exact b.perform_no_fault i f (houts ▸ hmem)

/-- **The linked queue refines a list**: under any uses from the empty queue both put out the same,
no fault among it, and the pointers of the one visit the events of the other. -/
theorem queue_refines_fifo [DecidableEq ω] (is : List (QueueInput ω)) :
    Option.Rel
      (fun linked list => linked.2 = list.2 ∧ (∀ f, .fault f ∉ linked.2) ∧ linked.1.Mirrors list.1)
      ((eventQueue ω).exec {} is) ((fifo ω).exec {} is) := by
  have hstart : QueueUse.Represents ({} : QueueUse ω) {} :=
    { linked := ⟨List.nodup_nil, LinkRing.nil rfl rfl, List.forall_mem_nil _⟩
      held := rfl
      nodup := List.nodup_nil
      there := fun b => by simp [EventQueue.event, Fifo.used] }
  have hexec := eventQueue_refines.exec is hstart
  generalize (eventQueue ω).exec {} is = linked at hexec ⊢
  generalize hlist : (fifo ω).exec {} is = list at hexec ⊢
  cases hexec with
  | none => exact .none
  | some h => exact .some ⟨h.2, fun f => h.2 ▸ fifo_exec_no_fault hlist f, h.1.mirrors⟩

end Yazpp
