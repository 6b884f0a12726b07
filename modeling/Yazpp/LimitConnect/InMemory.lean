import Yazpp.Lib.Chain
import Yazpp.LimitConnect.Model

/-!
# The peers of `LimitConnect` in memory

The embedding of `src/limit-connect.cpp` once more, down to its pointers: the peers are nodes in
memory, linked one way and oldest first, each with its name and its `TimeStat`. `lookup` returns the
place of a pointer, where `add_connect` puts a new peer when it is null; `cleanup` goes from place
to place, and takes out the nodes that it frees on its way. Only peers are in this memory: whether a
peer frees its name and its buckets is not looked at.

`linkedLimit` refines `limitConnect` (`peers_in_memory`), and the destructor leaves no peer behind.
-/

set_option autoImplicit false

namespace Yazpp

open Yazpp.Lib

/-- `LimitConnect::Rep`. `made` is how often `new` was called for a peer. -/
structure LinkedLimit (κ : Type) where
  period : Nat := 60
  pos : 0 < period := by decide
  peers : Chain (Peer κ) := {}
  made : Nat := 0

namespace LinkedLimit

variable {κ : Type}

/-- `LimitConnect::set_period`. -/
def setPeriod (sec : Nat) (pos : 0 < sec) (c : LinkedLimit κ) : LinkedLimit κ :=
  { c with period := sec, pos := pos }

/-- The loop of `LimitConnect::cleanup` at a place, with the readings of the clock that are left. It
makes as many as it needs, and none when all are freed. -/
def cleanupFrom (all : Bool) :
    Nat → Place → List Int → Chain (Peer κ) →
      Except ChainFault (LimitConnect.Swept (Chain (Peer κ)))
  | 0, p, nows, c => do
    match ← c.load p with
    | none => return if all ∨ nows = [] then .done c else .misread
    | some _ => .error .unending
  | fuel + 1, p, nows, c => do
    match ← c.load p with
    | none => return if all ∨ nows = [] then .done c else .misread
    | some tp => do
      if all then
        let peer ← c.read tp
        let c ← c.store p peer.next
        let c ← c.free tp
        cleanupFrom all fuel p nows c
      else
        match nows with
        | [] => return .misread
        | now :: nows => do
          let peer ← c.read tp
          match peer.item.bw.getTotal now with
          | none => return .overflow
          | some (total, bw) => do
            let c ← c.setItem tp { peer.item with bw := bw }
            if total = 0 then
              let peer ← c.read tp
              let c ← c.store p peer.next
              let c ← c.free tp
              cleanupFrom all fuel p nows c
            else cleanupFrom all fuel (.next tp) nows c

/-- `LimitConnect::cleanup`. -/
def cleanup (all : Bool) (nows : List Int) (c : LinkedLimit κ) :
    Except ChainFault (LimitConnect.Swept (LinkedLimit κ)) := do
  match ← cleanupFrom all c.peers.room .head nows c.peers with
  | .done peers => return .done { c with peers := peers }
  | .misread => return .misread
  | .overflow => return .overflow

/-- `LimitConnect::~LimitConnect`, and the peers it leaves in memory. -/
def destroy (c : LinkedLimit κ) : Except ChainFault (LimitConnect.Swept (LinkedLimit κ)) :=
  c.cleanup true []

variable [DecidableEq κ]

/-- `Rep::lookup`: the place of the pointer to the peer with a name, or the last one. -/
def lookup (peername : κ) (c : LinkedLimit κ) : Except ChainFault Place :=
  c.peers.seek fun p => p.peername = peername

/-- `LimitConnect::add_connect`, with `Peer::add_connect`. -/
def addConnect (alloc : Allocator) (peername : κ) (now : Int) (memory : Nat → Int)
    (c : LinkedLimit κ) : Except ChainFault (Option (LinkedLimit κ)) := do
  let p ← c.lookup peername
  let c ← match ← c.peers.load p with
    | some _ => pure c
    | none =>
      let node := alloc.malloc c.made c.peers.heap.keys
      let peer : Peer κ :=
        { peername := peername, bw := TimeStat.new c.period c.pos memory }
      let peers ← (c.peers.write node { item := peer, next := none }).store p (some node)
      pure { c with peers := peers, made := c.made + 1 }
  match ← c.peers.load p with
  | some node => do
    let peer ← c.peers.read node
    match peer.item.bw.addBytes 1 now with
    | none => return none
    | some bw => do
      let peers ← c.peers.setItem node { peer.item with bw := bw }
      return some { c with peers := peers }
  | none => .error .null

/-- `LimitConnect::get_total`. -/
def getTotal (peername : κ) (now : Int) (c : LinkedLimit κ) :
    Except ChainFault (Option (Int × LinkedLimit κ)) := do
  match ← c.peers.load (← c.lookup peername) with
  | none => return some (0, c)
  | some node => do
    let peer ← c.peers.read node
    match peer.item.bw.getTotal now with
    | none => return none
    | some (total, bw) => do
      let peers ← c.peers.setItem node { peer.item with bw := bw }
      return some (total, { c with peers := peers })

/-- One operation. An overflow is put out, and nothing else is done. -/
def step (alloc : Allocator) (c : LinkedLimit κ) :
    LimitInput κ → Except ChainFault (Option (LinkedLimit κ × List (LimitEvent κ)))
  | .setPeriod sec => return if pos : 0 < sec then some (c.setPeriod sec pos, []) else none
  | .addConnect name now memory => do
    match ← c.addConnect alloc name now memory with
    | some c => return some (c, [.added name now])
    | none => return some (c, [.overflow])
  | .getTotal name now => do
    match ← c.getTotal name now with
    | some (total, c) => return some (c, [.total name now total])
    | none => return some (c, [.overflow])
  | .cleanup all nows => do
    match ← c.cleanup all nows with
    | .done c => return some (c, [])
    | .misread => return none
    | .overflow => return some (c, [.overflow])

end LinkedLimit

/-- One `LimitConnect` in memory. A fault is put out, and nothing else is done. -/
def linkedLimit (κ : Type) [DecidableEq κ] (alloc : Allocator) :
    Machine (LinkedLimit κ) (LimitInput κ) (LimitEvent κ ⊕ ChainFault) where
  step c i :=
    match c.step alloc i with
    | .ok next => next.map fun (c, events) => (c, events.map .inl)
    | .error f => some (c, [.inr f])

/-! ## One operation -/

namespace LinkedLimit

variable {κ : Type}

/-- The peers in memory are those of the list. -/
structure Represents (u : LinkedLimit κ) (c : LimitConnect κ) : Prop where
  peers : ∃ l, u.peers.Owns l ∧ l.map Prod.snd = c.peers
  period : u.period = c.period

/-- Two loops end the same way. -/
inductive Alike {α β : Type} (r : α → β → Prop) :
    LimitConnect.Swept α → LimitConnect.Swept β → Prop
  | done {a : α} {b : β} : r a b → Alike r (.done a) (.done b)
  | misread : Alike r .misread .misread
  | overflow : Alike r .overflow .overflow

/-- `cleanup(true)` frees every peer. -/
theorem cleanupFrom_all (nows : List Int) : ∀ (rest : List (Nat × Peer κ)) (c : Chain (Peer κ))
    (fuel : Nat), c.Owns rest → rest.length ≤ fuel →
    ∃ c', cleanupFrom true fuel .head nows c = .ok (.done c') ∧ c'.Owns []
  | [], c, fuel, owns, _ => by
    have owns' : c.Owns ([] ++ []) := owns
    have hload := owns'.load
    refine ⟨c, ?_, owns⟩
    rw [behind_nil] at hload
    cases fuel <;> simp only [cleanupFrom, bind, Except.bind, hload, List.head?_nil,
      Option.map_none] <;> rfl
  | x :: rest, c, 0, _, hfuel => absurd hfuel (Nat.not_succ_le_zero _)
  | x :: rest, c, fuel + 1, owns, hfuel => by
    have owns' : c.Owns ([] ++ x :: rest) := owns
    have hload := owns'.load
    obtain ⟨next, c₁, c₂, hx, hstore, hfree, hc⟩ := owns'.unlink
    obtain ⟨c', hgo, empty⟩ := cleanupFrom_all nows rest c₂ fuel hc (Nat.le_of_succ_le_succ hfuel)
    refine ⟨c', ?_, empty⟩
    rw [behind_nil] at hload hstore
    simp only [cleanupFrom, bind, Except.bind, hload, List.head?_cons, Option.map_some, if_true,
      Chain.read_eq hx, hstore, hfree, hgo]

/-- The peers that a loop has left are behind those it had done with. -/
def Left (done : List (Nat × Peer κ)) (c : Chain (Peer κ)) (kept : List (Peer κ)) : Prop :=
  ∃ l, c.Owns (done ++ l) ∧ l.map Prod.snd = kept

/-- `cleanup(false)` reads the clock for each peer, and frees those without connections. -/
theorem cleanupFrom_sweep : ∀ (nows : List Int) (done rest : List (Nat × Peer κ))
    (c : Chain (Peer κ)) (fuel : Nat), c.Owns (done ++ rest) → rest.length ≤ fuel →
    ∃ o, cleanupFrom false fuel (behind done) nows c = .ok o ∧
      Alike (Left done) o (LimitConnect.sweep nows (rest.map Prod.snd))
  | nows, done, [], c, fuel, owns, _ => by
    have hload : c.load (behind done) = .ok none := owns.load
    have stops : cleanupFrom false fuel (behind done) nows c =
        .ok (if nows = [] then .done c else .misread) := by
      cases fuel <;> simp only [cleanupFrom, bind, Except.bind, hload, Bool.false_eq_true,
        false_or] <;> rfl
    refine ⟨_, stops, ?_⟩
    cases nows with
    | nil => exact .done ⟨[], owns, rfl⟩
    | cons now nows => exact .misread
  | nows, done, x :: rest, c, 0, _, hfuel => absurd hfuel (Nat.not_succ_le_zero _)
  | [], done, x :: rest, c, fuel + 1, owns, hfuel => by
    have hload : c.load (behind done) = .ok (some x.1) := owns.load
    refine ⟨.misread, ?_, .misread⟩
    simp only [cleanupFrom, bind, Except.bind, hload, Bool.false_eq_true, if_false]
    rfl
  | now :: nows, done, x :: rest, c, fuel + 1, owns, hfuel => by
    have hload : c.load (behind done) = .ok (some x.1) := owns.load
    obtain ⟨next, hx⟩ := owns.cell_mem (List.mem_append_right _ (List.mem_cons_self ..))
    have hfuel' := Nat.le_of_succ_le_succ hfuel
    cases answer : x.2.bw.getTotal now with
    | none =>
      refine ⟨.overflow, ?_, ?_⟩
      · simp only [cleanupFrom, bind, Except.bind, hload, Bool.false_eq_true, if_false,
          Chain.read_eq hx, answer]
        rfl
      · rw [List.map_cons, LimitConnect.sweep, answer]
        exact .overflow
    | some told =>
      obtain ⟨total, bw⟩ := told
      obtain ⟨c₁, hset, owns₁⟩ := owns.setItem { x.2 with bw := bw }
      by_cases hzero : total = 0
      · obtain ⟨next', c₂, c₃, hx', hstore, hfree, owns₃⟩ := owns₁.unlink
        have hturn : cleanupFrom false (fuel + 1) (behind done) (now :: nows) c =
            cleanupFrom false fuel (behind done) nows c₃ := by
          simp only [cleanupFrom, bind, Except.bind, hload, Bool.false_eq_true, if_false,
            Chain.read_eq hx, answer, hset, hzero, if_true, Chain.read_eq hx', hstore, hfree]
        obtain ⟨o, hgo, alike⟩ := cleanupFrom_sweep nows done rest c₃ fuel owns₃ hfuel'
        refine ⟨o, hturn.trans hgo, ?_⟩
        rw [List.map_cons, LimitConnect.sweep, answer]
        generalize LimitConnect.sweep nows (rest.map Prod.snd) = later at alike ⊢
        cases alike with
        | done left =>
          simp only [if_pos hzero]
          exact .done left
        | misread => exact .misread
        | overflow => exact .overflow
      · have owns₂ : c₁.Owns ((done ++ [(x.1, { x.2 with bw := bw })]) ++ rest) := by
          simpa using owns₁
        have hturn : cleanupFrom false (fuel + 1) (behind done) (now :: nows) c =
            cleanupFrom false fuel (.next x.1) nows c₁ := by
          simp only [cleanupFrom, bind, Except.bind, hload, Bool.false_eq_true, if_false,
            Chain.read_eq hx, answer, hset, hzero]
        obtain ⟨o, hgo, alike⟩ := cleanupFrom_sweep nows _ rest c₁ fuel owns₂ hfuel'
        rw [behind_snoc] at hgo
        refine ⟨o, hturn.trans hgo, ?_⟩
        rw [List.map_cons, LimitConnect.sweep, answer]
        generalize LimitConnect.sweep nows (rest.map Prod.snd) = later at alike ⊢
        cases alike with
        | done left =>
          obtain ⟨l, owns', rfl⟩ := left
          simp only [if_neg hzero]
          exact .done ⟨_, List.append_assoc .. ▸ owns', rfl⟩
        | misread => exact .misread
        | overflow => exact .overflow

/-- `cleanup(true)`, and so the destructor. -/
theorem cleanup_all {u : LinkedLimit κ} {l : List (Nat × Peer κ)} (owns : u.peers.Owns l)
    (nows : List Int) :
    ∃ peers, u.cleanup true nows = .ok (.done { u with peers := peers }) ∧ peers.Owns [] := by
  obtain ⟨peers, hgo, empty⟩ := cleanupFrom_all nows l u.peers u.peers.room owns owns.length_le
  refine ⟨peers, ?_, empty⟩
  unfold cleanup
  simp only [bind, Except.bind, hgo]
  rfl

theorem cleanup_sweep {u : LinkedLimit κ} {c : LimitConnect κ} (h : u.Represents c)
    (nows : List Int) :
    ∃ o, u.cleanup false nows = .ok o ∧ Alike Represents o (c.cleanup false nows) := by
  obtain ⟨l, owns, same⟩ := h.peers
  obtain ⟨o, hgo, alike⟩ := cleanupFrom_sweep nows [] l u.peers u.peers.room owns owns.length_le
  rw [behind_nil] at hgo
  rw [same] at alike
  unfold cleanup
  simp only [bind, Except.bind, hgo]
  rcases c.cleanup_cases nows with
    ⟨c', hc, hperiod, hsweep⟩ | ⟨hc, hsweep⟩ | ⟨hc, hsweep⟩ <;> rw [hsweep] at alike <;> rw [hc] <;>
    cases alike
  case inl.done left => exact ⟨_, rfl, .done ⟨left, h.period.trans hperiod.symm⟩⟩
  case inr.inl.misread => exact ⟨_, rfl, .misread⟩
  case inr.inr.overflow => exact ⟨_, rfl, .overflow⟩

variable [DecidableEq κ]

namespace Represents

variable {u : LinkedLimit κ} {c : LimitConnect κ}

/-- The peer with a name is changed, and its name is not. -/
theorem touch {pre post : List (Nat × Peer κ)} {x : Nat × Peer κ} {name : κ}
    (same : (pre ++ x :: post).map Prod.snd = c.peers) (here : x.2.peername = name)
    (f : TimeStat → TimeStat) :
    (pre ++ (x.1, { x.2 with bw := f x.2.bw }) :: post).map Prod.snd =
      (c.touch name f).peers := by
  have nodup := c.nodup
  rw [← same, List.map_map, List.map_append, List.map_cons, List.nodup_middle,
    ← List.map_append] at nodup
  obtain ⟨alone, -⟩ := List.nodup_cons.mp nodup
  have others : ∀ y ∈ pre ++ post, y.2.peername ≠ name := fun y hy hname =>
    alone (List.mem_map.mpr ⟨y, hy, hname.trans here.symm⟩)
  have stays : ∀ k : List (Nat × Peer κ), (∀ y ∈ k, y.2.peername ≠ name) →
      (k.map Prod.snd).map (fun p => if p.peername = name then { p with bw := f p.bw } else p) =
        k.map Prod.snd := by
    intro k hk
    rw [List.map_map]
    exact List.map_congr_left fun y hy => if_neg (hk y hy)
  show _ = c.peers.map fun p => if p.peername = name then { p with bw := f p.bw } else p
  rw [← same, List.map_append, List.map_append, List.map_append, List.map_cons, List.map_cons,
    List.map_cons, if_pos here, stays pre fun y hy => others y (List.mem_append_left _ hy),
    stays post fun y hy => others y (List.mem_append_right _ hy)]

omit [DecidableEq κ] in
theorem period_pos (u : LinkedLimit κ) (c : LimitConnect κ) (same : u.period = c.period)
    (memory : Nat → Int) :
    TimeStat.new u.period u.pos memory = TimeStat.new c.period c.pos memory := by
  obtain ⟨period, pos, peers, made⟩ := u
  obtain rfl : period = c.period := same
  rfl

/-- One more connection of a peer, which may be new. -/
theorem addConnect (h : u.Represents c) (alloc : Allocator) (name : κ) (now : Int)
    (memory : Nat → Int) :
    ∃ o, u.addConnect alloc name now memory = .ok o ∧
      Option.Rel Represents o (c.addConnect name now memory) := by
  obtain ⟨l, owns, same⟩ := h.peers
  unfold LinkedLimit.addConnect LinkedLimit.lookup
  rcases owns.seek_cases (fun p => p.peername = name) with
    ⟨none, -, hseek, hload⟩ | ⟨pre, x, post, rfl, -, here, found, hseek, hload⟩
  · have absent : c.lookup name = .none := by rw [LimitConnect.lookup, ← same, none]
    obtain ⟨peers, hstore, owns'⟩ := owns.snoc
      { peername := name, bw := TimeStat.new u.period u.pos memory }
      (Chain.Owns.fresh alloc u.made u.peers)
    have hload' := owns'.load
    obtain ⟨next, hx⟩ := owns'.cell_mem (List.mem_append_right _ (List.mem_cons_self ..))
    have new := period_pos u c h.period memory
    simp only [bind, Except.bind, hseek, hload, hstore, pure, Except.pure, hload',
      List.head?_cons, Option.map_some, Chain.read_eq hx]
    cases added : (TimeStat.new u.period u.pos memory).addBytes 1 now with
    | none =>
      rw [new] at added
      rw [LimitConnect.addConnect_overflow absent added]
      exact ⟨.none, rfl, .none⟩
    | some bw =>
      obtain ⟨peers', hset, owns''⟩ := owns'.setItem { peername := name, bw := bw }
      rw [new] at added
      obtain ⟨c', hadd, hpeers, hperiod⟩ := LimitConnect.addConnect_none absent added
      simp only [hset]
      rw [hadd]
      refine ⟨_, rfl, .some ⟨⟨_, owns'', ?_⟩, h.period.trans hperiod.symm⟩⟩
      rw [hpeers, List.map_append, same]
      rfl
  · have there : c.lookup name = some x.2 := by rw [LimitConnect.lookup, ← same, found]
    obtain ⟨next, hx⟩ := owns.cell_mem (List.mem_append_right _ (List.mem_cons_self ..))
    simp only [bind, Except.bind, hseek, hload, pure, Except.pure, Chain.read_eq hx]
    rw [LimitConnect.addConnect_some there]
    cases x.2.bw.addBytes 1 now with
    | none => exact ⟨.none, rfl, .none⟩
    | some bw =>
      obtain ⟨peers, hset, owns'⟩ := owns.setItem { x.2 with bw := bw }
      simp only [hset]
      exact ⟨_, rfl, .some ⟨⟨_, owns', touch same (of_decide_eq_true here) fun _ => bw⟩, h.period⟩⟩

theorem getTotal (h : u.Represents c) (name : κ) (now : Int) :
    ∃ o, u.getTotal name now = .ok o ∧
      Option.Rel (fun x y => x.1 = y.1 ∧ x.2.Represents y.2) o (c.getTotal name now) := by
  obtain ⟨l, owns, same⟩ := h.peers
  unfold LinkedLimit.getTotal LinkedLimit.lookup LimitConnect.getTotal
  rcases owns.seek_cases (fun p => p.peername = name) with
    ⟨none, -, hseek, hload⟩ | ⟨pre, x, post, rfl, -, here, found, hseek, hload⟩
  · have absent : c.lookup name = .none := by rw [LimitConnect.lookup, ← same, none]
    simp only [bind, Except.bind, hseek, hload, absent]
    exact ⟨some (0, u), rfl, .some ⟨rfl, h⟩⟩
  · have there : c.lookup name = some x.2 := by rw [LimitConnect.lookup, ← same, found]
    obtain ⟨next, hx⟩ := owns.cell_mem (List.mem_append_right _ (List.mem_cons_self ..))
    simp only [bind, Except.bind, hseek, hload, Chain.read_eq hx, there]
    cases x.2.bw.getTotal now with
    | none => exact ⟨.none, rfl, .none⟩
    | some told =>
      obtain ⟨peers, hset, owns'⟩ := owns.setItem { x.2 with bw := told.2 }
      simp only [hset]
      exact ⟨_, rfl, .some ⟨rfl, ⟨_, owns', touch same (of_decide_eq_true here) fun _ => told.2⟩,
        h.period⟩⟩

/-- One operation of both. -/
theorem step (h : u.Represents c) (alloc : Allocator) (i : LimitInput κ) :
    ∃ o, u.step alloc i = .ok o ∧
      Option.Rel (fun x y => x.1.Represents y.1 ∧ x.2 = y.2) o (c.step i) := by
  cases i with
  | setPeriod sec =>
    refine ⟨_, rfl, ?_⟩
    simp only [LimitConnect.step]
    by_cases pos : 0 < sec
    · rw [dif_pos pos, dif_pos pos]
      exact .some ⟨⟨h.peers, rfl⟩, rfl⟩
    · rw [dif_neg pos, dif_neg pos]
      exact .none
  | addConnect name now memory =>
    obtain ⟨o, hadd, hrel⟩ := h.addConnect alloc name now memory
    simp only [LinkedLimit.step, LimitConnect.step, bind, Except.bind, hadd]
    generalize c.addConnect name now memory = added at hrel ⊢
    cases hrel with
    | some h' => exact ⟨_, rfl, .some ⟨h', rfl⟩⟩
    | none => exact ⟨_, rfl, .some ⟨h, rfl⟩⟩
  | getTotal name now =>
    obtain ⟨o, htotal, hrel⟩ := h.getTotal name now
    simp only [LinkedLimit.step, LimitConnect.step, bind, Except.bind, htotal]
    generalize c.getTotal name now = told at hrel ⊢
    cases hrel with
    | @some x y h' =>
      obtain ⟨total, u'⟩ := x
      obtain ⟨total', c'⟩ := y
      obtain ⟨rfl, h'⟩ := h'
      exact ⟨_, rfl, .some ⟨h', rfl⟩⟩
    | none => exact ⟨_, rfl, .some ⟨h, rfl⟩⟩
  | cleanup all nows =>
    simp only [LinkedLimit.step, LimitConnect.step, bind, Except.bind]
    cases all with
    | true =>
      obtain ⟨l, owns, -⟩ := h.peers
      obtain ⟨peers, hclean, empty⟩ := cleanup_all owns nows
      simp only [hclean, LimitConnect.cleanup, if_true]
      exact ⟨_, rfl, .some ⟨⟨⟨[], empty, rfl⟩, h.period⟩, rfl⟩⟩
    | false =>
      obtain ⟨o, hclean, alike⟩ := cleanup_sweep h nows
      simp only [hclean]
      generalize c.cleanup false nows = cleaned at alike ⊢
      cases alike with
      | done h' => exact ⟨_, rfl, .some ⟨h', rfl⟩⟩
      | misread => exact ⟨_, rfl, .none⟩
      | overflow => exact ⟨_, rfl, .some ⟨h, rfl⟩⟩

end Represents

end LinkedLimit

/-! ## Runs -/

variable {κ : Type} [DecidableEq κ]

theorem linkedLimit_refines (alloc : Allocator) :
    (linkedLimit κ alloc).Refines ((limitConnect κ).rename .inl) LinkedLimit.Represents := by
  intro u c i h
  obtain ⟨o, hstep, hrel⟩ := h.step alloc i
  unfold linkedLimit limitConnect Machine.rename
  dsimp only
  rw [hstep]
  dsimp only
  generalize c.step i = next at hrel ⊢
  cases hrel with
  | none => exact .none
  | some h' => exact .some ⟨h'.1, congrArg _ h'.2⟩

/-- **The peers in memory are the peers**: wherever `new` puts them, the same operations are done or
refused and the same is seen of them, with no fault; the peers are in memory in order, and no others
are; and the destructor then leaves no peer in memory. -/
theorem peers_in_memory (alloc : Allocator) (is : List (LimitInput κ)) :
    Option.Rel
      (fun linked list => linked.2 = list.2.map .inl ∧
        (∃ l, linked.1.peers.Owns l ∧ l.map Prod.snd = list.1.peers) ∧
        ∃ left, linked.1.destroy = .ok (.done left) ∧ ∀ addr, addr ∉ left.peers.heap)
      ((linkedLimit κ alloc).exec {} is) ((limitConnect κ).exec {} is) := by
  have hstart : LinkedLimit.Represents ({} : LinkedLimit κ) {} :=
    ⟨⟨[], Chain.Owns.empty, rfl⟩, rfl⟩
  have hexec := (linkedLimit_refines alloc).exec is hstart
  rw [Machine.exec_rename] at hexec
  generalize (linkedLimit κ alloc).exec {} is = linked at hexec ⊢
  generalize (limitConnect κ).exec {} is = list at hexec ⊢
  cases list with
  | none =>
    cases hexec
    exact .none
  | some list =>
    cases hexec with
    | some h =>
      obtain ⟨l, owns, same⟩ := h.1.peers
      obtain ⟨peers, hclean, empty⟩ := LinkedLimit.cleanup_all owns []
      refine .some ⟨h.2, ⟨l, owns, same⟩, _, hclean, fun addr hmem => ?_⟩
      have there := (empty.only addr).mp (AList.lookup_isSome.mpr hmem)
      cases there

end Yazpp
