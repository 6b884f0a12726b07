import Yazpp.SocketManager.Fifo
import Yazpp.SocketManager.Linked
import Yazpp.SocketManager.Spec

/-!
# The manager in memory is the manager

`linkedManager` refines the manager that everything else is said about: whatever `new` returns,
both do the same on the same operations (`manager_in_memory`). The entries in memory are those of
the list, in its order, and so are the events; nothing is freed twice, read behind its end or left
behind, as what is in memory is what is registered, what is queued and what is being notified.

The entries are the same up to `timeout_this` (`EntryView.unset`), which is garbage in an entry that
was not polled yet. Arming sets it in every entry, and only behind that is it read.
-/

set_option autoImplicit false

namespace Yazpp

open Yazpp.Lib

variable {ω : Type}

/-- What of an entry is compared. -/
structure EntryView (ω : Type) where
  see : SocketEntry ω → SocketEntry ω
  observer : ∀ e, (see e).observer = e.observer
  fd : ∀ e, (see e).fd = e.fd

/-- All of it. -/
def EntryView.whole : EntryView ω := ⟨id, fun _ => rfl, fun _ => rfl⟩

/-- All but `timeout_this`. -/
def EntryView.unset : EntryView ω :=
  ⟨fun e => { e with timeoutThis := 0 }, fun _ => rfl, fun _ => rfl⟩

/-- An assignment that does not look at what is not compared. -/
def EntryView.Respects (v : EntryView ω) (f : SocketEntry ω → SocketEntry ω) : Prop :=
  ∀ e e', v.see e = v.see e' → v.see (f e) = v.see (f e')

theorem EntryView.whole_respects (f : SocketEntry ω → SocketEntry ω) :
    EntryView.whole.Respects f := fun _ _ => congrArg f

theorem EntryView.respects_of {v : EntryView ω} {f : SocketEntry ω → SocketEntry ω}
    (through : ∀ e, v.see (f e) = v.see (f (v.see e))) : v.Respects f := by
  intro e e' same
  rw [through e, same, ← through e']

/-- Lists that are the same in one way are so in any that follows from it. -/
theorem map_eq_map {α β γ δ : Type} {f : α → γ} {g : β → γ} {f' : α → δ} {g' : β → δ}
    (follows : ∀ a b, f a = g b → f' a = g' b) :
    ∀ {l : List α} {k : List β}, l.map f = k.map g → l.map f' = k.map g'
  | [], [], _ => rfl
  | a :: l, b :: k, same => by
    obtain ⟨head, tail⟩ := List.cons.inj same
    rw [List.map_cons, List.map_cons, follows a b head, map_eq_map follows tail]

/-- The manager in memory holds what a manager has. -/
structure LinkedManager.Holds (v : EntryView ω) (u : LinkedManager ω) (m : SocketManager ω) :
    Prop where
  entries : ∃ l, u.observers.Owns l ∧ l.map (fun x => v.see x.2) = m.observers.map v.see
  events : ∃ waiting, u.events.Represents { waiting := waiting, held := u.events.held } ∧
    waiting.map Prod.snd = m.queue

/-- A `socketNotify`. -/
def ManagerCall.isNotify : ManagerCall ω → Bool
  | .socketNotify .. => true
  | _ => false

/-- The same was done, and the events that are notified are held. -/
structure LinkedManaged.Agrees (v : EntryView ω) (u : LinkedManager ω) (o : LinkedManaged ω)
    (p : Managed ω) : Prop where
  holds : o.manager.Holds v p.manager
  calls : o.calls = p.calls
  ret : o.ret = p.ret
  held : o.manager.events.held.length =
    u.events.held.length + p.calls.countP ManagerCall.isNotify

theorem onEntries_ok {α : Type} (a : α) : onEntries (.ok a) = .ok a := rfl

theorem onEvents_ok {α : Type} (a : α) : onEvents (.ok a) = .ok a := rfl

namespace LinkedManager.Holds

variable {v : EntryView ω} {u : LinkedManager ω} {m : SocketManager ω}

/-- The less is compared, the more is the same. -/
theorem weaken {w : EntryView ω} (follows : ∀ e e', v.see e = v.see e' → w.see e = w.see e')
    (h : u.Holds v m) : u.Holds w m := by
  obtain ⟨l, owns, same⟩ := h.entries
  exact ⟨⟨l, owns, map_eq_map (fun x e => follows x.2 e) same⟩, h.events⟩

theorem unset (h : u.Holds .whole m) : u.Holds .unset m :=
  h.weaken fun _ _ => congrArg EntryView.unset.see

/-! ## Entries -/

/-- The place of an observer's entry. -/
theorem lookup [DecidableEq ω] {l : List (Nat × SocketEntry ω)} (owns : u.observers.Owns l)
    (same : l.map (fun x => v.see x.2) = m.observers.map v.see) (observer : ω) :
    (m.lookupObserver observer = none ∧ u.lookupObserver observer = .ok (behind l) ∧
        u.observers.load (behind l) = .ok none) ∨
      ∃ pre x post, l = pre ++ x :: post ∧ (∀ y ∈ pre, y.2.observer ≠ observer) ∧
        x.2.observer = observer ∧ (m.lookupObserver observer).isSome = true ∧
        u.lookupObserver observer = .ok (behind pre) ∧
        u.observers.load (behind pre) = .ok (some x.1) := by
  have names : l.map (fun x => x.2.observer) = m.observers.map SocketEntry.observer :=
    map_eq_map (fun x e hxe => by rw [← v.observer x.2, hxe, v.observer]) same
  rcases owns.seek_cases (fun e => e.observer = observer) with
    ⟨-, absent, hseek, hload⟩ | ⟨pre, x, post, rfl, first, here, -, hseek, hload⟩
  · refine .inl ⟨?_, by rw [LinkedManager.lookupObserver, hseek]; rfl, hload⟩
    refine List.find?_eq_none.mpr fun e he hobs => ?_
    have hname : e.observer ∈ l.map fun x => x.2.observer := names ▸ List.mem_map_of_mem he
    obtain ⟨x, hx, hxe⟩ := List.mem_map.mp hname
    exact of_decide_eq_false (absent x hx) (hxe.trans (of_decide_eq_true hobs))
  · refine .inr ⟨pre, x, post, rfl, fun y hy => of_decide_eq_false (first y hy),
      of_decide_eq_true here, ?_, by rw [LinkedManager.lookupObserver, hseek]; rfl, hload⟩
    have hname : observer ∈ m.observers.map SocketEntry.observer := names ▸
      List.mem_map.mpr ⟨x, List.mem_append_right _ (List.mem_cons_self ..), of_decide_eq_true here⟩
    obtain ⟨e, he, hobs⟩ := List.mem_map.mp hname
    exact List.find?_isSome.mpr ⟨e, he, decide_eq_true hobs⟩

/-- An entry of the list with fields set. -/
theorem assigned [DecidableEq ω] {pre post : List (Nat × SocketEntry ω)}
    {x : Nat × SocketEntry ω} {observer : ω} {f : SocketEntry ω → SocketEntry ω}
    (same : (pre ++ x :: post).map (fun x => v.see x.2) = m.observers.map v.see)
    (here : x.2.observer = observer) (respects : v.Respects f)
    (keeps : ∀ e, (f e).observer = e.observer) :
    (pre ++ (x.1, f x.2) :: post).map (fun x => v.see x.2) =
      (m.assign observer f keeps).observers.map v.see := by
  have names : (pre ++ x :: post).map (fun x => x.2.observer) =
      m.observers.map SocketEntry.observer :=
    map_eq_map (fun x e hxe => by rw [← v.observer x.2, hxe, v.observer]) same
  have nodup := names ▸ m.nodup
  rw [List.map_append, List.map_cons, List.nodup_middle, ← List.map_append] at nodup
  obtain ⟨alone, -⟩ := List.nodup_cons.mp nodup
  have others : ∀ y ∈ pre ++ post, y.2.observer ≠ observer := fun y hy hobs =>
    alone (List.mem_map.mpr ⟨y, hy, hobs.trans here.symm⟩)
  have all : (pre ++ x :: post).map
      (fun y => v.see (if y.2.observer = observer then f y.2 else y.2)) =
      (m.assign observer f keeps).observers.map v.see := by
    show _ = (m.observers.map fun e => if e.observer = observer then f e else e).map v.see
    rw [List.map_map]
    refine map_eq_map (fun y e hye => ?_) same
    have hobs : y.2.observer = e.observer := by rw [← v.observer y.2, hye, v.observer]
    rw [Function.comp_apply, hobs]
    split
    · exact respects y.2 e hye
    · exact hye
  rw [← all, List.map_append, List.map_append, List.map_cons, List.map_cons, if_pos here]
  congr 1
  · refine List.map_congr_left fun y hy => ?_
    rw [if_neg (others y (List.mem_append_left _ hy))]
  · congr 1
    refine List.map_congr_left fun y hy => ?_
    rw [if_neg (others y (List.mem_append_right _ hy))]

/-- Fields of an entry are set. -/
theorem setEntry {pre post : List (Nat × SocketEntry ω)} {x : Nat × SocketEntry ω}
    (owns : u.observers.Owns (pre ++ x :: post)) (f : SocketEntry ω → SocketEntry ω) :
    ∃ c, u.setEntry x.1 f = .ok { u with observers := c } ∧
      c.Owns (pre ++ (x.1, f x.2) :: post) := by
  obtain ⟨next, hx⟩ := owns.cell_mem (List.mem_append_right _ (List.mem_cons_self ..))
  obtain ⟨c, hset, hc⟩ := owns.setItem (f x.2)
  refine ⟨c, ?_, hc⟩
  unfold LinkedManager.setEntry
  simp only [bind, Except.bind, Chain.read_eq hx, onEntries_ok, hset]
  rfl

theorem assign [DecidableEq ω] (h : u.Holds v m) (observer : ω)
    {f : SocketEntry ω → SocketEntry ω} (respects : v.Respects f)
    (keeps : ∀ e, (f e).observer = e.observer) :
    ∃ o, u.assign observer f = .ok o ∧
      o.Agrees v u { manager := m.assign observer f keeps } := by
  obtain ⟨l, owns, same⟩ := h.entries
  unfold LinkedManager.assign
  rcases lookup owns same observer with
    ⟨none, hplace, hload⟩ | ⟨pre, x, post, rfl, -, here, -, hplace, hload⟩
  · simp only [bind, Except.bind, hplace, hload, onEntries_ok]
    refine ⟨_, rfl, ⟨⟨l, owns, ?_⟩, h.events⟩, rfl, rfl, rfl⟩
    have absent := List.find?_eq_none.mp none
    have : (m.assign observer f keeps).observers = m.observers := by
      show (m.observers.map fun e => if e.observer = observer then f e else e) = m.observers
      refine (List.map_congr_left fun e he => ?_).trans (List.map_id _)
      rw [if_neg fun hobs => absent e he (decide_eq_true hobs)]
      rfl
    rw [this]
    exact same
  · obtain ⟨c, hset, hc⟩ := setEntry owns f
    simp only [bind, Except.bind, hplace, hload, onEntries_ok, hset]
    exact ⟨_, rfl, ⟨⟨_, hc, assigned same here respects keeps⟩, h.events⟩, rfl, rfl, rfl⟩

/-- An observer without an entry gets a new one. -/
theorem addObserver_none [DecidableEq ω] {observer : ω} (none : m.lookupObserver observer = none)
    (fd : Int) :
    (m.addObserver fd observer).manager.observers =
      { observer := observer, fd := fd } :: m.observers := by
  unfold SocketManager.addObserver
  dsimp only
  split
  · next found => cases none.symm.trans found
  · rfl

/-- One with an entry has it set. -/
theorem addObserver_some [DecidableEq ω] {observer : ω}
    (found : (m.lookupObserver observer).isSome = true) (fd : Int) :
    (m.addObserver fd observer).manager = m.assign observer
      (fun e => { e with fd := fd, mask := 0, lastActivity := 0, timeout := -1 }) fun _ => rfl := by
  unfold SocketManager.addObserver
  dsimp only
  split
  · rfl
  · next none => cases none ▸ found

theorem addObserver [DecidableEq ω] (h : u.Holds .unset m) (mem : Memory) (fd : Int)
    (observer : ω) :
    ∃ o, u.addObserver mem fd observer = .ok o ∧ o.Agrees .unset u (m.addObserver fd observer) := by
  obtain ⟨l, owns, same⟩ := h.entries
  have queue := m.queue_addObserver fd observer
  unfold LinkedManager.addObserver
  rcases lookup owns same observer with
    ⟨none, hplace, hload⟩ | ⟨pre, x, post, rfl, -, here, there, hplace, hload⟩
  · have pushed : (u.newEntry mem observer).2.observers.Owns ([] ++ (_, _) :: l) :=
      owns.push _ (Chain.Owns.fresh mem.toAllocator ..)
    obtain ⟨c, hset, hc⟩ := setEntry pushed
      fun e => { e with fd := fd, mask := 0, lastActivity := 0, timeout := -1 }
    have hnew : u.newEntry mem observer =
      (mem.malloc u.made u.observers.heap.keys, (u.newEntry mem observer).2) := rfl
    simp only [bind, Except.bind, hplace, hload, onEntries_ok, pure, Except.pure]
    rw [hnew]
    dsimp only
    rw [hset]
    refine ⟨_, rfl, ⟨⟨_, hc, ?_⟩, ?_⟩, rfl, rfl, rfl⟩
    · rw [addObserver_none none, List.map_cons, ← same]
      rfl
    · rw [queue]
      exact h.events
  · obtain ⟨c, hset, hc⟩ := setEntry owns
      fun e => { e with fd := fd, mask := 0, lastActivity := 0, timeout := -1 }
    simp only [bind, Except.bind, hplace, hload, onEntries_ok, hset, pure, Except.pure]
    refine ⟨_, rfl, ⟨⟨_, hc, ?_⟩, ?_⟩, rfl, rfl, rfl⟩
    · rw [addObserver_some there]
      exact assigned (f := fun e =>
        { e with fd := fd, mask := 0, lastActivity := 0, timeout := -1 }) same here
        (EntryView.respects_of fun _ => rfl) fun _ => rfl
    · rw [queue]
      exact h.events

theorem deleteObserver [DecidableEq ω] (h : u.Holds v m) (observer : ω) :
    ∃ o, u.deleteObserver observer = .ok o ∧ o.Agrees v u (m.deleteObserver observer) := by
  obtain ⟨l, owns, same⟩ := h.entries
  obtain ⟨waiting, represents, queue⟩ := h.events
  unfold LinkedManager.deleteObserver SocketManager.deleteObserver
  rcases lookup owns same observer with
    ⟨none, hplace, hload⟩ | ⟨pre, x, post, rfl, first, here, there, hplace, hload⟩
  · simp only [bind, Except.bind, hplace, hload, onEntries_ok, none, Option.isSome_none,
      Bool.false_eq_true, if_false]
    exact ⟨_, rfl, h, rfl, rfl, rfl⟩
  · obtain ⟨events, hremove, hevents⟩ := represents.removeEvent observer
    obtain ⟨next, c, c', hx, hstore, hfree, hc⟩ := owns.unlink
    have hheld : events.held = u.events.held := hevents.held
    simp only [bind, Except.bind, hplace, hload, onEntries_ok, onEvents_ok, hremove,
      Chain.read_eq hx, hstore, hfree, there, if_true]
    refine ⟨_, rfl, ⟨⟨_, hc, ?_⟩, _, hheld ▸ hevents, ?_⟩, rfl, rfl, ?_⟩
    · have hobs : ∀ e, decide ((v.see e).observer = observer) = decide (e.observer = observer) :=
        fun e => by rw [v.observer]
      have hpast : ∀ y ∈ pre, ¬ decide (y.2.observer = observer) = true := fun y hy hy' =>
        first y hy (of_decide_eq_true hy')
      calc (pre ++ post).map (fun y => v.see y.2)
        _ = ((pre ++ x :: post).eraseP fun y => y.2.observer = observer).map
              fun y => v.see y.2 := by
            rw [List.eraseP_append_right _ hpast]
            congr 2
            exact (List.eraseP_cons_of_pos
              (p := fun y : Nat × SocketEntry ω => y.2.observer = observer)
              (decide_eq_true here)).symm
        _ = ((pre ++ x :: post).map fun y => v.see y.2).eraseP
              fun e => e.observer = observer := by
            rw [List.eraseP_map]
            congr 2
            funext y
            exact (hobs y.2).symm
        _ = (m.observers.eraseP fun e => e.observer = observer).map v.see := by
            rw [same, List.eraseP_map]
            congr 2
            funext e
            exact hobs e
    · show (waiting.filter _).map Prod.snd = m.queue.filter fun ev => ev.observer ≠ observer
      rw [← queue, List.filter_map]
      rfl
    · rw [hheld]
      rfl

theorem deleteObservers (h : u.Holds v m) :
    ∃ o, u.deleteObservers = .ok o ∧ o.Agrees v u m.deleteObservers := by
  obtain ⟨l, owns, -⟩ := h.entries
  obtain ⟨c, hclear, hc⟩ := owns.clear
  unfold LinkedManager.deleteObservers
  simp only [bind, Except.bind, hclear, onEntries_ok]
  exact ⟨_, rfl, ⟨⟨[], hc, rfl⟩, h.events⟩, rfl, rfl, rfl⟩

/-! ## Events -/

theorem putEvent (h : u.Holds v m) (mem : Memory) (ev : SocketEvent ω) :
    ∃ o, u.putEvent mem ev = .ok o ∧ o.Agrees v u (m.putEvent ev) ∧
      o.manager.observers = u.observers := by
  obtain ⟨waiting, represents, queue⟩ := h.events
  have unused : mem.malloc u.made u.events.queue.heap.keys ∉
      Fifo.used { waiting := waiting, held := u.events.held } := by
    intro hmem
    obtain ⟨e, he⟩ := (represents.there _).mpr hmem
    obtain ⟨node, hnode, -⟩ := Option.map_eq_some_iff.mp he
    have there : (u.events.queue.heap.lookup
        (mem.malloc u.made u.events.queue.heap.keys)).isSome = true := by
      rw [hnode]
      rfl
    exact mem.fresh _ _ (AList.mem_keys.mp (AList.lookup_isSome.mp there))
  obtain ⟨events, hput, hevents⟩ := represents.putEvent unused
    { toSocketEvent := ev, next := mem.link u.made, prev := mem.link u.made }
  have hheld : events.held = u.events.held := hevents.held
  unfold LinkedManager.putEvent
  simp only [bind, Except.bind, hput, onEvents_ok]
  refine ⟨_, rfl, ⟨⟨h.entries, _, hheld ▸ hevents, ?_⟩, rfl, rfl, ?_⟩, rfl⟩
  · rw [List.map_append, queue]
    rfl
  · rw [hheld]
    rfl

theorem notifyFront (h : u.Holds v m) (otherwise : List (ManagerCall ω))
    (silent : otherwise.countP ManagerCall.isNotify = 0) :
    ∃ o, u.notifyFront otherwise = .ok o ∧ o.Agrees v u (m.notifyFront otherwise) := by
  obtain ⟨waiting, represents, queue⟩ := h.events
  obtain ⟨events, hget, hevents⟩ := represents.getEvent
  unfold LinkedManager.notifyFront SocketManager.notifyFront
  cases waiting with
  | nil =>
    have hgot : u.events.getEvent = .ok (events, [.got none]) := hget
    have hheld : events.held = u.events.held := hevents.held
    have hqueue : m.queue = [] := queue.symm
    simp only [bind, Except.bind, hgot, onEvents_ok, hqueue]
    refine ⟨_, rfl, ⟨h.entries, [], hheld ▸ hevents, hqueue.symm⟩, rfl, rfl, ?_⟩
    rw [hheld, silent]
    rfl
  | cons x rest =>
    have hgot : u.events.getEvent = .ok (events, [.got (some x)]) := hget
    have hheld : events.held = x.1 :: u.events.held := hevents.held
    have hqueue : m.queue = x.2 :: rest.map Prod.snd := queue.symm
    simp only [bind, Except.bind, hgot, onEvents_ok, hqueue]
    refine ⟨_, rfl, ⟨h.entries, rest, ?_, rfl⟩, rfl, rfl, ?_⟩
    · rw [hheld]
      exact hevents
    · rw [hheld]
      rfl

end LinkedManager.Holds

/-! ## A poll -/

namespace SocketManager

variable [DecidableEq ω]

/-- The descriptors of the entries. -/
theorem fds_inspectFd (res timeout now fd : Int) (output : PollMask) (m : SocketManager ω) :
    (m.inspectFd res timeout now fd output).manager.observers.map SocketEntry.fd =
      m.observers.map SocketEntry.fd := by
  have touched : ∀ observer, (m.assign observer (fun e => { e with lastActivity := now })
      fun _ => rfl).observers.map SocketEntry.fd = m.observers.map SocketEntry.fd := by
    intro observer
    show (m.observers.map fun e => if e.observer = observer then _ else e).map _ = _
    rw [List.map_map]
    refine List.map_congr_left fun e _ => ?_
    rw [Function.comp_apply]
    split <;> rfl
  unfold inspectFd
  split
  · rfl
  · next p _ =>
    dsimp only
    split
    · exact touched p.observer
    · split
      · split <;> exact touched p.observer
      · rfl

/-- Whether a descriptor is lost. -/
def lost (fd : Int) (m : SocketManager ω) : Bool := (m.observers.find? fun p => p.fd = fd).isNone

omit [DecidableEq ω] in
theorem lost_eq {m m' : SocketManager ω}
    (same : m'.observers.map SocketEntry.fd = m.observers.map SocketEntry.fd) (fd : Int) :
    m'.lost fd = m.lost fd := by
  have hfind : ∀ n : SocketManager ω,
      n.lost fd = ((n.observers.map SocketEntry.fd).find? fun a => a = fd).isNone := by
    intro n
    rw [List.find?_map, Option.isNone_map]
    rfl
  rw [hfind, hfind, same]

end SocketManager

namespace LinkedManager.Holds

variable {u : LinkedManager ω} {m : SocketManager ω} [DecidableEq ω]

/-- An entry of the poll has had activity, and gets an event. -/
theorem touchPut {pre post : List (Nat × SocketEntry ω)} {x : Nat × SocketEntry ω}
    (h : u.Holds .whole m) (owns : u.observers.Owns (pre ++ x :: post))
    (same : (pre ++ x :: post).map (fun x => EntryView.whole.see x.2) =
      m.observers.map EntryView.whole.see) (mem : Memory) (now : Int) (event : Nat) :
    ∃ u' o, u.setEntry x.1 (fun e => { e with lastActivity := now }) = .ok u' ∧
      u'.putEvent mem { observer := x.2.observer, event := event } = .ok o ∧
      o.Agrees .whole u ((m.assign x.2.observer (fun e => { e with lastActivity := now })
        fun _ => rfl).putEvent { observer := x.2.observer, event := event }) := by
  obtain ⟨c, hset, hc⟩ := setEntry owns fun e => { e with lastActivity := now }
  have touched : Holds .whole { u with observers := c }
      (m.assign x.2.observer (fun e => { e with lastActivity := now }) fun _ => rfl) :=
    ⟨⟨_, hc, assigned (f := fun e => { e with lastActivity := now }) same rfl
      (EntryView.whole_respects _) fun _ => rfl⟩, h.events⟩
  obtain ⟨o, hput, agrees, -⟩ := touched.putEvent mem { observer := x.2.observer, event := event }
  exact ⟨_, o, hset, hput, agrees.holds, agrees.calls, agrees.ret, agrees.held⟩

/-- A descriptor of the poll set. -/
theorem inspectFd (h : u.Holds .whole m) (mem : Memory) (res timeout now fd : Int)
    (output : PollMask) :
    ∃ o lost, u.inspectFd mem res timeout now fd output = .ok (o, lost) ∧
      o.Agrees .whole u (m.inspectFd res timeout now fd output) ∧
      (lost = 0 ↔ m.lost fd = false) := by
  obtain ⟨l, owns, same⟩ := h.entries
  have whole : l.map Prod.snd = m.observers := by
    rw [← List.map_id m.observers]
    exact same
  unfold LinkedManager.inspectFd SocketManager.inspectFd SocketManager.lost
  rw [← whole]
  rcases owns.find_cases (fun p => p.fd = fd) with
    ⟨hfind, hnode⟩ | ⟨pre, x, post, rfl, hfind, hnode⟩
  · simp only [bind, Except.bind, hnode, onEntries_ok, hfind]
    exact ⟨_, 1, rfl, ⟨h, rfl, rfl, rfl⟩, by simp⟩
  · obtain ⟨next, hx⟩ := owns.cell_mem (List.mem_append_right _ (List.mem_cons_self ..))
    simp only [bind, Except.bind, hnode, onEntries_ok, hfind, Chain.read_eq hx]
    split
    · obtain ⟨u', o, hset, hput, agrees⟩ := touchPut h owns same mem now output.events
      simp only [hset, hput]
      exact ⟨o, 0, rfl, agrees, by simp⟩
    · split
      · obtain ⟨u', o, hset, hput, agrees⟩ := touchPut h owns same mem now observeTimeout
        simp only [hset, hput]
        split
        · refine ⟨_, 0, rfl, ⟨agrees.holds, ?_, agrees.ret, agrees.held⟩, by simp⟩
          rw [agrees.calls]
        · exact ⟨o, 0, rfl, agrees, by simp⟩
      · exact ⟨_, 0, rfl, ⟨h, rfl, rfl, rfl⟩, by simp⟩

theorem inspectFds (mem : Memory) (res timeout now : Int) (fds : List PollFd) :
    ∀ (output : List PollMask) {u : LinkedManager ω} {m : SocketManager ω}, u.Holds .whole m →
      ∃ o lost, u.inspectFds mem res timeout now fds output = .ok (o, lost) ∧
        o.Agrees .whole u (m.inspectFds res timeout now fds output) ∧
        (lost = 0 ↔ fds.any (fun fd => m.lost fd.fd) = false) := by
  induction fds with
  | nil =>
    intro output u m h
    exact ⟨_, 0, rfl, ⟨h, rfl, rfl, rfl⟩, by simp⟩
  | cons fd fds ih =>
    intro output u m h
    obtain ⟨first, lost, hfirst, agrees, hlost⟩ :=
      h.inspectFd mem res timeout now fd.fd (output.headD {})
    obtain ⟨rest, more, hrest, agrees', hmore⟩ := ih output.tail agrees.holds
    have hsame : ∀ a, (m.inspectFd res timeout now fd.fd (output.headD {})).manager.lost a =
        m.lost a := SocketManager.lost_eq (SocketManager.fds_inspectFd ..)
    unfold LinkedManager.inspectFds SocketManager.inspectFds
    simp only [bind, Except.bind, hfirst, hrest]
    refine ⟨_, lost + more, rfl, ⟨agrees'.holds, ?_, agrees'.ret, ?_⟩, ?_⟩
    · rw [agrees.calls, agrees'.calls]
    · rw [agrees'.held, agrees.held, List.countP_append]
      omega
    · rw [Nat.add_eq_zero_iff, hlost, hmore, List.any_cons, Bool.or_eq_false_iff]
      simp only [hsame]

theorem inspectPollResult (h : u.Holds .whole m) (mem : Memory) (reply : PollReply)
    (fds : List PollFd) (timeout now : Int) :
    ∃ o, u.inspectPollResult mem reply fds timeout now = .ok o ∧
      o.Agrees .whole u (m.inspectPollResult reply fds timeout now) := by
  obtain ⟨put, lost, hput, agrees, hlost⟩ :=
    inspectFds mem reply.res timeout now fds reply.output h
  have hotherwise : (if lost = 0 then [ManagerCall.unhandled reply.res] else []) =
      if fds.any fun fd => m.lost fd.fd then [] else [.unhandled reply.res (ω := ω)] := by
    cases hany : fds.any fun fd => m.lost fd.fd with
    | false => rw [if_pos (hlost.mpr hany), if_neg Bool.false_ne_true]
    | true =>
      rw [if_neg fun h0 => Bool.false_ne_true ((hlost.mp h0).symm.trans hany), if_pos rfl]
  have silent : (if lost = 0 then [ManagerCall.unhandled reply.res (ω := ω)] else []).countP
      ManagerCall.isNotify = 0 := by
    split <;> rfl
  obtain ⟨notified, hnotify, agrees'⟩ := agrees.holds.notifyFront _ silent
  rw [hotherwise] at agrees'
  unfold LinkedManager.inspectPollResult
  simp only [bind, Except.bind, hput, hnotify]
  refine ⟨_, rfl, agrees'.holds, ?_, agrees'.ret, ?_⟩
  · rw [agrees.calls, agrees'.calls]
    rfl
  · rw [agrees'.held, agrees.held, Nat.add_assoc, ← List.countP_append]
    rfl

omit [DecidableEq ω] in
/-- There is an event to be got. -/
theorem queueFront_isSome (h : u.Holds .unset m) :
    u.events.queue.queueFront.isSome = true ↔ m.queue ≠ [] := by
  obtain ⟨waiting, represents, queue⟩ := h.events
  have visits := represents.mirrors.prevs
  rw [← queue]
  cases waiting with
  | nil =>
    cases hfront : u.events.queue.queueFront with
    | none => simp
    | some ev =>
      rw [hfront] at visits
      cases visits
  | cons x rest =>
    cases hfront : u.events.queue.queueFront with
    | none =>
      rw [hfront] at visits
      cases visits
    | some ev => simp

omit [DecidableEq ω] in
theorem getNumberOfObservers {v : EntryView ω} (h : u.Holds v m) :
    u.getNumberOfObservers = .ok m.observers.length := by
  obtain ⟨l, owns, same⟩ := h.entries
  obtain ⟨c, heach, -⟩ := owns.each (fun e i => (e, i + 1)) 0
  have hlength : l.length = m.observers.length := by
    rw [← List.length_map (fun x => v.see x.2), same, List.length_map]
  have hsum := Chain.mapAccum_count l 0
  rw [Nat.zero_add, hlength] at hsum
  unfold LinkedManager.getNumberOfObservers
  simp only [bind, Except.bind, heach, onEntries_ok, hsum]
  rfl

omit [DecidableEq ω] in
/-- The poll set, entry by entry. -/
theorem foldl_armEntry (now : Int) (l : List (SocketEntry ω)) :
    ∀ (timeout : Int) (fds : List PollFd),
      l.foldl (fun poll e => (LinkedManager.armEntry now e poll).2) (timeout, fds) =
        (l.foldl (SocketEntry.least now) timeout, fds ++ l.map SocketEntry.pollFd) := by
  induction l with
  | nil => exact fun timeout fds => by rw [List.map_nil, List.append_nil]; rfl
  | cons e l ih =>
    intro timeout fds
    show l.foldl _ (e.least now timeout, fds ++ [e.pollFd]) = _
    rw [ih, List.append_assoc]
    rfl

omit [DecidableEq ω] in
/-- The entries as the poll set is built, its timeout and its descriptors. -/
theorem arm (h : u.Holds .unset m) (now : Int) :
    ∃ c, u.observers.each (LinkedManager.armEntry now) (-1, []) =
        .ok (c, m.observers.foldl (SocketEntry.least now) (-1),
          m.observers.map SocketEntry.pollFd) ∧
      Holds .whole { u with observers := c } (m.arm now) := by
  obtain ⟨l, owns, same⟩ := h.entries
  obtain ⟨c, heach, hc⟩ := owns.each (LinkedManager.armEntry now) (-1, [])
  have hmap := Chain.mapAccum_eq (g := SocketEntry.arm now)
    (h := fun poll e => (LinkedManager.armEntry now e poll).2) l ((-1, []) : Int × List PollFd)
  have hfold : l.foldl (fun poll x => (LinkedManager.armEntry now x.2 poll).2) (-1, []) =
      (m.observers.foldl (SocketEntry.least now) (-1), m.observers.map SocketEntry.pollFd) := by
    have habs := foldl_armEntry now (m.observers.map EntryView.unset.see) (-1) []
    rw [← same, List.foldl_map, List.nil_append] at habs
    refine habs.trans (Prod.ext ?_ ?_)
    · rw [same, List.foldl_map]
      rfl
    · rw [same, List.map_map]
      rfl
  have hentries : (l.map fun x => (x.1, x.2.arm now)).map (fun x => EntryView.whole.see x.2) =
      (m.arm now).observers.map EntryView.whole.see := by
    show _ = (m.observers.map (SocketEntry.arm now)).map id
    rw [List.map_map, List.map_id]
    refine map_eq_map (fun x e hxe => ?_) same
    show x.2.arm now = e.arm now
    have : (EntryView.unset.see x.2).arm now = (EntryView.unset.see e).arm now := by rw [hxe]
    exact this
  refine ⟨c, ?_, ⟨_, hc, ?_⟩, h.events⟩
  · rw [heach, ← hfold]
    exact congrArg (fun r => Except.ok (c, r.2)) hmap
  · rw [← hentries]
    exact congrArg (fun r => r.1.map fun x => EntryView.whole.see x.2) hmap

theorem processEvent (h : u.Holds .unset m) (mem : Memory) (now : Int)
    (replies : List PollReply) (later : Int) :
    ∃ o, u.processEvent mem now replies later = .ok o ∧
      Option.Rel (LinkedManaged.Agrees .unset u) o (m.processEvent now replies later) := by
  unfold LinkedManager.processEvent SocketManager.processEvent
  by_cases queued : m.queue ≠ []
  · obtain ⟨o, hnotify, agrees⟩ := h.notifyFront [] rfl
    simp only [bind, Except.bind, if_pos (h.queueFront_isSome.mpr queued), if_pos queued, hnotify]
    exact ⟨_, rfl, .some agrees⟩
  rw [if_neg fun front => queued (h.queueFront_isSome.mp front), if_neg queued]
  simp only [bind, Except.bind, h.getNumberOfObservers]
  by_cases none : m.observers = []
  · rw [if_pos (List.length_eq_zero_iff.mpr none), if_pos none]
    exact ⟨_, rfl, .some ⟨h, rfl, rfl, rfl⟩⟩
  rw [if_neg fun zero => none (List.length_eq_zero_iff.mp zero), if_neg none]
  obtain ⟨c, heach, armed⟩ := h.arm now
  simp only [heach, onEntries_ok]
  cases pollLoop 0 replies with
  | none => exact ⟨_, rfl, .none⟩
  | some ended =>
    obtain ⟨polls, ended⟩ := ended
    have quiet : ∀ (made : List (ManagerCall ω)), made = List.replicate polls (.yazPoll
        (m.observers.map SocketEntry.pollFd) (m.observers.foldl (SocketEntry.least now) (-1))) →
        made.countP ManagerCall.isNotify = 0 := by
      rintro _ rfl
      refine List.countP_eq_zero.mpr fun call hcall => ?_
      rw [List.eq_of_mem_replicate hcall]
      exact Bool.false_ne_true
    cases ended with
    | interrupted =>
      refine ⟨_, rfl, .some ⟨armed.unset, rfl, rfl, ?_⟩⟩
      rw [quiet _ rfl]
      rfl
    | polled reply =>
      dsimp only
      by_cases polled : 0 ≤ reply.res
      · obtain ⟨o, hinspect, agrees⟩ := armed.inspectPollResult mem reply
          (m.observers.map SocketEntry.pollFd) (m.observers.foldl (SocketEntry.least now) (-1))
          later
        simp only [Option.map_some, if_pos polled, hinspect]
        refine ⟨_, rfl, .some ⟨agrees.holds.unset, ?_, rfl, ?_⟩⟩
        · rw [agrees.calls]
        · rw [agrees.held, List.countP_append, quiet _ rfl, Nat.zero_add]
      · simp only [Option.map_some, if_neg polled]
        refine ⟨_, rfl, .some ⟨armed.unset, rfl, rfl, ?_⟩⟩
        rw [quiet _ rfl]
        rfl

end LinkedManager.Holds

/-! ## Runs -/

/-- A manager, and how many calls of `socketNotify` have not returned yet. -/
structure Notifying (ω : Type) where
  manager : SocketManager ω := {}
  pending : Nat := 0

/-- The manager of `socketManager`, and calls of `socketNotify` that return in any order. -/
def notifying (ω : Type) [DecidableEq ω] :
    Machine (Notifying ω) (LinkedInput ω) (LinkedOutput ω) where
  step s
    | .call input =>
      ((socketManager ω).step s.manager input).map fun (manager, calls) =>
        ({ manager := manager, pending := s.pending + calls.countP ManagerCall.isNotify },
          calls.map .call)
    | .returned => if s.pending = 0 then none else some ({ s with pending := s.pending - 1 }, [])

/-- What is in memory is a manager: its entries in their order, newest first, and its events, from
the front of the queue; and nothing is there but these and the events that are being notified. -/
structure LinkedManager.Mirrors (u : LinkedManager ω) (s : Notifying ω) : Prop where
  entries : ∃ l, u.observers.Owns l ∧
    l.map (fun x => EntryView.unset.see x.2) = s.manager.observers.map EntryView.unset.see
  events : ∃ a : Fifo ω, u.events.Mirrors a ∧ a.events = s.manager.queue ∧
    ∀ addr, addr ∈ u.events.queue.heap ↔ addr ∈ a.used
  pending : u.events.held.length = s.pending

variable [DecidableEq ω]

/-- One operation of both. -/
theorem perform_agrees {u : LinkedManager ω} {m : SocketManager ω} (h : u.Holds .unset m)
    (mem : Memory) (input : ManagerInput ω) :
    ∃ o, u.perform mem input = .ok o ∧
      Option.Rel (LinkedManaged.Agrees .unset u) o (input.perform m) := by
  cases input with
  | addObserver fd observer =>
    obtain ⟨o, hadd, agrees⟩ := h.addObserver mem fd observer
    exact ⟨some o, by rw [LinkedManager.perform, hadd]; rfl, .some agrees⟩
  | deleteObserver observer =>
    obtain ⟨o, hdelete, agrees⟩ := h.deleteObserver observer
    exact ⟨some o, by rw [LinkedManager.perform, hdelete]; rfl, .some agrees⟩
  | deleteObservers =>
    obtain ⟨o, hdelete, agrees⟩ := h.deleteObservers
    exact ⟨some o, by rw [LinkedManager.perform, hdelete]; rfl, .some agrees⟩
  | maskObserver observer mask fd =>
    obtain ⟨o, hassign, agrees⟩ := h.assign observer
      (f := fun e => { e with mask := mask, fd := if fd ≠ -1 then fd else e.fd })
      (EntryView.respects_of fun _ => rfl) fun _ => rfl
    exact ⟨some o, by rw [LinkedManager.perform, LinkedManager.maskObserver, hassign]; rfl,
      .some agrees⟩
  | timeoutObserver observer timeout =>
    obtain ⟨o, hassign, agrees⟩ := h.assign observer
      (f := fun e => { e with timeout := timeout }) (EntryView.respects_of fun _ => rfl)
      fun _ => rfl
    exact ⟨some o, by rw [LinkedManager.perform, LinkedManager.timeoutObserver, hassign]; rfl,
      .some agrees⟩
  | processEvent now replies later => exact h.processEvent mem now replies later

/-- The state of both in a run. -/
def LinkedManager.Represents (u : LinkedManager ω) (s : Notifying ω) : Prop :=
  u.Holds .unset s.manager ∧ u.events.held.length = s.pending

omit [DecidableEq ω] in
/-- The events in memory are those in use. -/
theorem QueueUse.Represents.mem_heap {q : QueueUse ω} {a : Fifo ω} (h : q.Represents a)
    (addr : EventAddr) : addr ∈ q.queue.heap ↔ addr ∈ a.used := by
  rw [← h.there addr]
  unfold EventQueue.event
  rw [← AList.lookup_isSome, Option.isSome_iff_exists]
  constructor
  · rintro ⟨node, hnode⟩
    exact ⟨node.toSocketEvent, by rw [hnode]; rfl⟩
  · rintro ⟨e, he⟩
    obtain ⟨node, hnode, -⟩ := Option.map_eq_some_iff.mp he
    exact ⟨node, hnode⟩

omit [DecidableEq ω] in
theorem LinkedManager.Represents.mirrors {u : LinkedManager ω} {s : Notifying ω}
    (h : u.Represents s) : u.Mirrors s := by
  obtain ⟨waiting, represents, queue⟩ := h.1.events
  exact ⟨h.1.entries, ⟨_, represents.mirrors, queue, represents.mem_heap⟩, h.2⟩

omit [DecidableEq ω] in
/-- The `socketNotify` returns that was called last. -/
theorem returned_agrees {u : LinkedManager ω} {s : Notifying ω} (h : u.Represents s) :
    ∃ o, u.returned = .ok o ∧ Option.Rel
      (fun o t => o.manager.Represents t ∧ o.calls = [])
      o (if s.pending = 0 then none else some { s with pending := s.pending - 1 }) := by
  obtain ⟨waiting, represents, queue⟩ := h.1.events
  have hpending := h.2
  unfold LinkedManager.returned
  cases hheld : u.events.held with
  | nil =>
    rw [hheld] at hpending
    have zero : s.pending = 0 := hpending.symm
    rw [if_pos zero]
    exact ⟨none, rfl, .none⟩
  | cons event held =>
    rw [hheld] at hpending represents
    have some : ¬ s.pending = 0 := fun zero => Nat.succ_ne_zero _ (hpending.trans zero)
    rw [if_neg some]
    obtain ⟨events, hdelete, hevents⟩ := represents.delete (List.mem_cons_self ..)
    simp only [bind, Except.bind, hdelete, onEvents_ok]
    have hleft : events.held = held := hevents.held.trans (List.erase_cons_head ..)
    refine ⟨_, rfl, .some ⟨⟨⟨h.1.entries, waiting, ?_, queue⟩, ?_⟩, rfl⟩⟩
    · have := hevents
      rw [List.erase_cons_head] at this
      rw [hleft]
      exact this
    · show events.held.length = s.pending - 1
      rw [hleft, ← hpending]
      rfl

/-- One step of both. -/
theorem linkedManager_refines (mem : Memory) :
    (linkedManager ω mem).Refines (notifying ω) LinkedManager.Represents := by
  rintro u s input h
  unfold linkedManager notifying socketManager
  dsimp only
  cases input with
  | call input =>
    obtain ⟨o, hperform, agrees⟩ := perform_agrees h.1 mem input
    rw [LinkedManager.advance, hperform]
    dsimp only
    cases hinput : input.perform s.manager with
    | none =>
      rw [hinput] at agrees
      cases agrees
      exact .none
    | some p =>
      rw [hinput] at agrees
      cases agrees with
      | some agrees =>
        refine .some ⟨⟨agrees.holds, ?_⟩, congrArg _ agrees.calls⟩
        exact agrees.held.trans (congrArg (· + _) h.2)
  | returned =>
    obtain ⟨o, hreturned, agrees⟩ := returned_agrees h
    rw [LinkedManager.advance, hreturned]
    dsimp only
    by_cases zero : s.pending = 0
    · rw [if_pos zero] at agrees ⊢
      cases agrees
      exact .none
    · rw [if_neg zero] at agrees ⊢
      cases agrees with
      | some agrees =>
        exact .some ⟨agrees.1, congrArg (List.map LinkedOutput.call) agrees.2⟩

omit [DecidableEq ω] in
/-- Neither has anything before the first operation. -/
theorem LinkedManager.represents_new :
    LinkedManager.Represents ({} : LinkedManager ω) {} := by
  have events : QueueUse.Represents ({} : QueueUse ω) {} :=
    { linked := ⟨List.nodup_nil, LinkRing.nil rfl rfl, List.forall_mem_nil _⟩
      held := rfl
      nodup := List.nodup_nil
      there := fun b => by simp [EventQueue.event, Fifo.used] }
  exact ⟨⟨⟨[], Chain.Owns.empty, rfl⟩, [], events, rfl⟩, rfl⟩

/-- The manager that is a list does not fault. -/
theorem notifying_no_fault {is : List (LinkedInput ω)} {s s' : Notifying ω}
    {os : List (LinkedOutput ω)} (run : (notifying ω).exec s is = some (s', os))
    (f : ManagerFault) : .fault f ∉ os := by
  intro hmem
  obtain ⟨-, input, -, mid, -, next, outs, -, -, hstep, hmem⟩ := Machine.exec_mem run hmem
  unfold notifying at hstep
  dsimp only at hstep
  cases input with
  | call input =>
    obtain ⟨made, -, hnext⟩ := Option.map_eq_some_iff.mp hstep
    obtain rfl : made.2.map LinkedOutput.call = outs := congrArg Prod.snd hnext
    obtain ⟨call, -, hcall⟩ := List.mem_map.mp hmem
    cases hcall
  | returned =>
    dsimp only at hstep
    split at hstep
    case isTrue => cases hstep
    case isFalse =>
      cases hstep
      cases hmem

/-- **The manager in memory is the manager**: whatever addresses `new` returns, and whatever it
finds there, the same operations are done or refused, and the same is seen of them, no fault among
it; and what is in memory is the manager's entries, its queue, and the events being notified. -/
theorem manager_in_memory (mem : Memory) (is : List (LinkedInput ω)) :
    Option.Rel
      (fun linked list =>
        linked.2 = list.2 ∧ (∀ f, .fault f ∉ linked.2) ∧ linked.1.Mirrors list.1)
      ((linkedManager ω mem).exec {} is) ((notifying ω).exec {} is) := by
  have hexec := (linkedManager_refines mem).exec is LinkedManager.represents_new
  generalize (linkedManager ω mem).exec {} is = linked at hexec ⊢
  generalize hlist : (notifying ω).exec {} is = list at hexec ⊢
  cases hexec with
  | none => exact .none
  | some h => exact .some ⟨h.2, fun f => h.2 ▸ notifying_no_fault hlist f, h.1.mirrors⟩

/-- What is left of a manager: no entry, and of its events every one. They are those of the queue,
in order from its front, and those that are being notified, each at an address of its own. -/
structure LinkedManager.Leaks (left u : LinkedManager ω) (s : Notifying ω) : Prop where
  entries : ∀ addr, addr ∉ left.observers.heap
  unfreed : left.events = u.events
  events : ∃ a : Fifo ω, left.events.Mirrors a ∧ a.events = s.manager.queue ∧
    a.held.length = s.pending ∧ a.used.Nodup ∧
    ∀ addr, addr ∈ left.events.queue.heap ↔ addr ∈ a.used

/-- **What the destructor leaves in memory**, behind any run: no entry, and exactly the events that
are queued and those that are being notified. -/
theorem destroyed_leaks (mem : Memory) (is : List (LinkedInput ω)) :
    Option.Rel
      (fun linked list => ∃ left, linked.1.destroy = .ok left ∧ left.Leaks linked.1 list.1)
      ((linkedManager ω mem).exec {} is) ((notifying ω).exec {} is) := by
  have hexec := (linkedManager_refines mem).exec is LinkedManager.represents_new
  generalize (linkedManager ω mem).exec {} is = linked at hexec ⊢
  generalize (notifying ω).exec {} is = list at hexec ⊢
  cases hexec with
  | none => exact .none
  | @some x y h =>
    obtain ⟨u, os⟩ := x
    obtain ⟨s, os'⟩ := y
    obtain ⟨l, owns, -⟩ := h.1.1.entries
    obtain ⟨c, hclear, empty⟩ := owns.clear
    obtain ⟨waiting, represents, queue⟩ := h.1.1.events
    refine .some ⟨{ u with observers := c }, ?_, ?_, rfl, _, represents.mirrors, queue, h.1.2,
      represents.nodup, represents.mem_heap⟩
    · unfold LinkedManager.destroy LinkedManager.deleteObservers
      simp only [bind, Except.bind, hclear, onEntries_ok]
      rfl
    · intro addr hmem
      have there := (empty.only addr).mp (AList.lookup_isSome.mpr hmem)
      cases there

end Yazpp
