import Yazpp.Net.Kin

/-!
# Events come while an association is registered

A function of an association changes its own entry at once, and the manager through the agenda. So
the two agree when what is still to be called for the association is counted in (`Enrolled`), and
with nothing on the agenda they are the same. That is when `processEvent` is called, which notifies
nobody but the registered. So every event finds its association registered, and a run of a program
is, for each of its associations, a run of `pdu` with the events delivered (`net_run_assoc`).

For that, nobody may act while a call is still to come that registers or unregisters it. The one
function that is called through the agenda and calls the manager is the `shutdown` of a child, and
what is to come behind it is called for older ones: a session is younger than its listener (`Aged`).
-/

set_option autoImplicit false

namespace Yazpp

open Yazpp.Lib

/-! ## What is still to be called -/

/-- A call that registers or unregisters its association. -/
def Call.enrols : Call → Bool
  | .addObserver | .deleteObserver => true
  | _ => false

/-- What a call makes of the registration of its association. -/
def Call.enters (registered : Bool) : Call → Bool
  | .addObserver => true
  | .deleteObserver => false
  | _ => registered

theorem enters_still {c : Call} (still : c.enrols = false) (registered : Bool) :
    c.enters registered = registered := by
  cases c <;> first | rfl | cases still

/-- Calls that register nobody. -/
theorem foldl_enters_still {calls : List Call} (still : ∀ c ∈ calls, c.enrols = false)
    (registered : Bool) : calls.foldl Call.enters registered = registered := by
  induction calls generalizing registered with
  | nil => rfl
  | cons c calls ih =>
    rw [List.foldl_cons, enters_still (still c List.mem_cons_self),
      ih fun d hd => still d (List.mem_cons_of_mem _ hd)]

/-- Whether an association has an entry is what its calls make of its registration. -/
theorem isSome_foldl_onEntry (calls : List Call) (entry : Option Nat) :
    (calls.foldl Call.onEntry entry).isSome = calls.foldl Call.enters entry.isSome := by
  induction calls generalizing entry with
  | nil => rfl
  | cons c calls ih =>
    rw [List.foldl_cons, List.foldl_cons, ih]
    have step : (Call.onEntry entry c).isSome = c.enters entry.isSome := by
      cases c <;> first | rfl | exact Option.isSome_map
    rw [step]

/-- The entry behind a step. -/
theorem entry_step {s s' : Sys} {i : Input} {calls : List Call}
    (step : pdu.step s i = some (s', calls)) : s'.entry = calls.foldl Call.onEntry s.entry := by
  cases stepped_of_step step with
  | call => rw [Sys.bury_entry]; rfl
  | back => rfl
  | dead => rfl

/-- What is still to be called for an association. -/
def callsOf (x : AssocId) (agenda : List (AssocId × Call)) : List Call :=
  agenda.filterMap fun p => if p.1 = x then some p.2 else none

theorem callsOf_cons (x y : AssocId) (c : Call) (agenda : List (AssocId × Call)) :
    callsOf x ((y, c) :: agenda) = if y = x then c :: callsOf x agenda else callsOf x agenda := by
  simp only [callsOf, List.filterMap_cons]
  split <;> simp_all

theorem callsOf_self (x : AssocId) (calls : List Call) (agenda : List (AssocId × Call)) :
    callsOf x (calls.map (Prod.mk x) ++ agenda) = calls ++ callsOf x agenda := by
  induction calls with
  | nil => rfl
  | cons c calls ih => rw [List.map_cons, List.cons_append, callsOf_cons, if_pos rfl, ih]; rfl

theorem callsOf_other {x y : AssocId} (other : y ≠ x) (calls : List Call)
    (agenda : List (AssocId × Call)) :
    callsOf x (calls.map (Prod.mk y) ++ agenda) = callsOf x agenda := by
  induction calls with
  | nil => rfl
  | cons c calls ih => rw [List.map_cons, List.cons_append, callsOf_cons, if_neg other, ih]

theorem mem_callsOf {x : AssocId} {c : Call} {agenda : List (AssocId × Call)} :
    c ∈ callsOf x agenda ↔ (x, c) ∈ agenda := by
  induction agenda with
  | nil => exact iff_of_false List.not_mem_nil List.not_mem_nil
  | cons p agenda ih =>
    obtain ⟨y, d⟩ := p
    rw [callsOf_cons]
    split
    · next here => simp [ih, here]
    · next other => simp [ih, Ne.symm other]

namespace Net

/-- An association has an entry exactly if the manager has it registered, when everything is called
that is to be called for it. What has no association yet is registered nowhere. -/
structure Enrolled (n : Net) : Prop where
  entry : ∀ x s, n.assocs x = some s → s.entry.isSome =
    (callsOf x n.agenda).foldl Call.enters (decide (x ∈ n.manager.registered))
  unknown : ∀ x, n.assocs x = none → x ∉ n.manager.registered
  owners : ∀ p ∈ n.agenda, n.assocs p.1 ≠ none

/-- If the first call shuts a child down and the second registers or unregisters its association,
that one is older than the child. -/
def Older (age : AssocId → Nat) (p q : AssocId × Call) : Prop :=
  ∀ c, p.2 = .shutdownChild c → q.2.enrols = true → age q.1 < age c

/-- A session is younger than its listener, from the time when it is made. What is to come behind
the shutdown of a child registers older ones. -/
structure Aged (age : AssocId → Nat) (b : Nat) (n : Net) : Prop where
  below : ∀ x s, n.assocs x = some s → age x < b
  children : ∀ x s, n.assocs x = some s → ∀ c ∈ s.assoc.children, age x < age c
  sessions : ∀ x s, n.assocs x = some s → ∀ c, .session c ∈ s.frames → age x < age c ∨
    ∃ cs pending fileno, (x, .newChild c cs pending fileno) ∈ n.agenda
  agenda : n.agenda.Pairwise (Older age)

/-! ## What each step keeps -/

/-- An association is as its calls and those to come make it. -/
theorem Enrolled.put {n n' : Net} (enrolled : n.Enrolled) {x : AssocId} {s : Sys}
    {calls : List Call} (entry : s.entry.isSome =
      (calls ++ callsOf x n.agenda).foldl Call.enters (decide (x ∈ n.manager.registered)))
    (assocs : n'.assocs = update n.assocs x s) (manager : n'.manager = n.manager)
    (agenda : n'.agenda = calls.map (Prod.mk x) ++ n.agenda) : n'.Enrolled where
  entry := by
    intro y t ht
    rw [assocs] at ht
    rw [agenda, manager]
    rcases update_eq ht with ⟨rfl, rfl⟩ | ⟨other, ht⟩
    · rw [callsOf_self, entry]
    · rw [callsOf_other (Ne.symm other)]
      exact enrolled.entry y t ht
  unknown := by
    intro y hy
    rw [assocs, Net.update] at hy
    split at hy
    · cases hy
    · rw [manager]
      exact enrolled.unknown y hy
  owners := by
    intro p hp
    rw [assocs, Net.update]
    split
    · exact Option.some_ne_none s
    · next other =>
      rcases List.mem_append.mp (agenda ▸ hp) with hp | hp
      · obtain ⟨c, -, rfl⟩ := List.mem_map.mp hp
        exact absurd rfl other
      · exact enrolled.owners p hp

/-- An association acts: nothing that is to come registers it, or nothing that it calls. -/
theorem Enrolled.acts {n n' : Net} (enrolled : n.Enrolled) {x : AssocId} {j : Input} {s s' : Sys}
    {calls : List Call} (hs : n.assocs x = some s) (step : pdu.step s j = some (s', calls))
    (apart : (∀ c ∈ calls, c.enrols = false) ∨ ∀ c ∈ callsOf x n.agenda, c.enrols = false)
    (assocs : n'.assocs = update n.assocs x s') (manager : n'.manager = n.manager)
    (agenda : n'.agenda = calls.map (Prod.mk x) ++ n.agenda) : n'.Enrolled := by
  refine enrolled.put ?_ assocs manager agenda
  rw [List.foldl_append, entry_step step, isSome_foldl_onEntry, enrolled.entry x s hs]
  rcases apart with still | still <;> rw [foldl_enters_still still, foldl_enters_still still]

/-- A new association: nothing is to come for it but what its constructor calls. -/
theorem Enrolled.made {n n' : Net} (enrolled : n.Enrolled) {x : AssocId} {s : Sys}
    {calls : List Call} (hnone : n.assocs x = none)
    (entry : s.entry = calls.foldl Call.onEntry none)
    (assocs : n'.assocs = update n.assocs x s) (manager : n'.manager = n.manager)
    (agenda : n'.agenda = calls.map (Prod.mk x) ++ n.agenda) : n'.Enrolled := by
  refine enrolled.put ?_ assocs manager agenda
  have nothing : callsOf x n.agenda = [] := List.eq_nil_iff_forall_not_mem.mpr fun c hc =>
    enrolled.owners (x, c) (mem_callsOf.mp hc) hnone
  rw [nothing, List.append_nil, entry, isSome_foldl_onEntry,
    decide_eq_false (enrolled.unknown x hnone)]
  rfl

/-- A call of the agenda has its effect on the manager. -/
theorem Enrolled.called {n n' : Net} (enrolled : n.Enrolled) {x : AssocId} {c : Call}
    {rest : List (AssocId × Call)} (hagenda : n.agenda = (x, c) :: rest)
    (registered : ∀ y, decide (y ∈ n'.manager.registered) =
      if x = y then c.enters (decide (y ∈ n.manager.registered))
      else decide (y ∈ n.manager.registered))
    (assocs : n'.assocs = n.assocs) (agenda : n'.agenda = rest) : n'.Enrolled where
  entry := by
    intro y t ht
    have before := enrolled.entry y t (assocs ▸ ht)
    rw [hagenda, callsOf_cons] at before
    rw [agenda, before, registered y]
    split <;> rfl
  unknown := by
    intro y hy
    have other : x ≠ y := by
      rintro rfl
      exact enrolled.owners (x, c) (hagenda ▸ List.mem_cons_self) (assocs ▸ hy)
    rw [← decide_eq_false_iff_not, registered y, if_neg other,
      decide_eq_false (enrolled.unknown y (assocs ▸ hy))]
  owners := by
    intro p hp
    rw [assocs]
    exact enrolled.owners p (hagenda ▸ List.mem_cons_of_mem _ (agenda ▸ hp))

/-- A call that registers nobody is taken off the agenda. -/
theorem Enrolled.tail {n : Net} (enrolled : n.Enrolled) {x : AssocId} {c : Call}
    {rest : List (AssocId × Call)} (hagenda : n.agenda = (x, c) :: rest)
    (still : c.enrols = false) : ({ n with agenda := rest } : Net).Enrolled := by
  refine enrolled.called hagenda (fun y => ?_) rfl rfl
  rw [enters_still still, ite_self]

/-- Calls in front of the agenda: what they shut down is younger than who makes them, and than all
that is to come. -/
theorem pairwise_older {age : AssocId → Nat} {x : AssocId} {calls : List Call}
    {rest : List (AssocId × Call)} (order : rest.Pairwise (Older age))
    (older : ∀ c, .shutdownChild c ∈ calls →
      age x < age c ∧ ∀ q ∈ rest, q.2.enrols = true → age q.1 < age c) :
    (calls.map (Prod.mk x) ++ rest).Pairwise (Older age) := by
  rw [List.pairwise_append, List.pairwise_map]
  refine ⟨List.pairwise_of_forall_mem_list ?_, order, ?_⟩
  · rintro d hd e - c rfl -
    exact (older c hd).1
  · rintro p hp q hq c hc enrols
    obtain ⟨d, hd, rfl⟩ := List.mem_map.mp hp
    exact (older c (hc ▸ hd)).2 q hq enrols

/-- An association acts: what it shuts down is younger than all that is to come. -/
theorem Aged.acts {n n' : Net} {age : AssocId → Nat} {b : Nat} (aged : n.Aged age b) {x : AssocId}
    {j : Input} {s s' : Sys} {calls : List Call} (hs : n.assocs x = some s)
    (step : pdu.step s j = some (s', calls)) (idle : n.agenda = [] ∨ ∀ ans, j ≠ .ret ans)
    (older : ∀ c, .shutdownChild c ∈ calls →
      age x < age c ∧ ∀ q ∈ n.agenda, q.2.enrols = true → age q.1 < age c)
    (assocs : n'.assocs = update n.assocs x s')
    (agenda : n'.agenda = calls.map (Prod.mk x) ++ n.agenda) : n'.Aged age b where
  below := by
    intro y t ht
    rcases update_eq (assocs ▸ ht) with ⟨rfl, rfl⟩ | ⟨-, ht⟩
    · exact aged.below y s hs
    · exact aged.below y t ht
  children := by
    intro y t ht c hc
    rcases update_eq (assocs ▸ ht) with ⟨rfl, rfl⟩ | ⟨-, ht⟩
    · rcases (adopts_step step).1 c hc with hc | ⟨hc, ans, rfl⟩
      · exact aged.children y s hs c hc
      · have empty : n.agenda = [] := idle.resolve_right fun h => h ans rfl
        rcases aged.sessions y s hs c hc with younger | ⟨cs, pending, fileno, hmem⟩
        · exact younger
        · rw [empty] at hmem
          cases hmem
    · exact aged.children y t ht c hc
  sessions := by
    have kept : ∀ {y c}, (∃ cs pending fileno, (y, Call.newChild c cs pending fileno) ∈ n.agenda) →
        ∃ cs pending fileno, (y, Call.newChild c cs pending fileno) ∈ n'.agenda := by
      rintro y c ⟨cs, pending, fileno, hmem⟩
      exact ⟨cs, pending, fileno, agenda ▸ List.mem_append_right _ hmem⟩
    intro y t ht c hc
    rcases update_eq (assocs ▸ ht) with ⟨rfl, rfl⟩ | ⟨-, ht⟩
    · rcases (adopts_step step).2 c hc with hc | ⟨cs, pending, fileno, hmem⟩
      · exact (aged.sessions y s hs c hc).imp_right kept
      · refine .inr ⟨cs, pending, fileno, ?_⟩
        rw [agenda]
        exact List.mem_append_left _ (List.mem_map_of_mem hmem)
    · exact (aged.sessions y t ht c hc).imp_right kept
  agenda := agenda ▸ pairwise_older aged.agenda older

/-- A new association is the youngest. It may be the one that was to be made next. -/
theorem Aged.made {n n' : Net} {age : AssocId → Nat} {b : Nat} (aged : n.Aged age b) {x : AssocId}
    {s : Sys} {calls : List Call} {rest : List (AssocId × Call)} (hnone : n.assocs x = none)
    (owners : ∀ p ∈ n.agenda, n.assocs p.1 ≠ none) (children : s.assoc.children = [])
    (frames : ∀ c, .session c ∉ s.frames) (quiet : ∀ c, .shutdownChild c ∉ calls)
    (order : rest.Sublist n.agenda)
    (next : ∀ p c cs pending fileno, (p, .newChild c cs pending fileno) ∈ n.agenda →
      c = x ∨ (p, .newChild c cs pending fileno) ∈ rest)
    (assocs : n'.assocs = update n.assocs x s)
    (agenda : n'.agenda = calls.map (Prod.mk x) ++ rest) :
    n'.Aged (Function.update age x b) (b + 1) := by
  have new : Function.update age x b x = b := Function.update_self ..
  have old : ∀ {y}, y ≠ x → Function.update age x b y = age y := fun other =>
    Function.update_of_ne other ..
  have other : ∀ {y}, n.assocs y ≠ none → y ≠ x := by
    rintro y known rfl
    exact known hnone
  have below : ∀ {y}, n.assocs y ≠ none → age y < b := by
    intro y known
    obtain ⟨t, ht⟩ := Option.ne_none_iff_exists'.mp known
    exact aged.below y t ht
  have younger : ∀ {y c}, n.assocs y ≠ none → age y < age c →
      Function.update age x b y < Function.update age x b c := by
    intro y c known hage
    rw [old (other known)]
    by_cases hc : c = x
    · rw [hc, new]
      exact below known
    · rwa [old hc]
  have there : ∀ {y t}, n.assocs y = some t → n.assocs y ≠ none := fun ht =>
    ht ▸ Option.some_ne_none _
  refine ⟨?_, ?_, ?_, ?_⟩
  · intro y t ht
    rcases update_eq (assocs ▸ ht) with ⟨rfl, rfl⟩ | ⟨hy, ht⟩
    · rw [new]
      exact Nat.lt_succ_self b
    · rw [old hy]
      exact Nat.lt_succ_of_lt (aged.below y t ht)
  · intro y t ht c hc
    rcases update_eq (assocs ▸ ht) with ⟨rfl, rfl⟩ | ⟨-, ht⟩
    · rw [children] at hc
      cases hc
    · exact younger (there ht) (aged.children y t ht c hc)
  · intro y t ht c hc
    rcases update_eq (assocs ▸ ht) with ⟨rfl, rfl⟩ | ⟨hy, ht⟩
    · exact absurd hc (frames c)
    · rcases aged.sessions y t ht c hc with hage | ⟨cs, pending, fileno, hmem⟩
      · exact .inl (younger (there ht) hage)
      · rcases next y c cs pending fileno hmem with rfl | hmem
        · left
          rw [old hy, new]
          exact aged.below y t ht
        · refine .inr ⟨cs, pending, fileno, ?_⟩
          rw [agenda]
          exact List.mem_append_right _ hmem
  · rw [agenda]
    apply pairwise_older _ fun c hc => absurd hc (quiet c)
    refine (aged.agenda.sublist order).imp_of_mem ?_
    intro p q hp hq hage c hc enrols
    exact younger (owners q (order.subset hq)) (hage c hc enrols)

/-- A call that makes no session is taken off the agenda. -/
theorem Aged.tail {n : Net} {age : AssocId → Nat} {b : Nat} (aged : n.Aged age b) {x : AssocId}
    {c : Call} {rest : List (AssocId × Call)} (hagenda : n.agenda = (x, c) :: rest)
    (made : ∀ d cs pending fileno, c ≠ .newChild d cs pending fileno) :
    ({ n with agenda := rest } : Net).Aged age b where
  below := aged.below
  children := aged.children
  sessions := by
    intro y t ht d hd
    refine (aged.sessions y t ht d hd).imp_right ?_
    rintro ⟨cs, pending, fileno, hmem⟩
    rw [hagenda] at hmem
    rcases List.mem_cons.mp hmem with heq | hmem
    · exact absurd (Prod.mk.inj heq).2.symm (made d cs pending fileno)
    · exact ⟨cs, pending, fileno, hmem⟩
  agenda := (List.pairwise_cons.mp (hagenda ▸ aged.agenda)).2

/-- Only the associations and the agenda count. -/
theorem Aged.congr {n m : Net} {age : AssocId → Nat} {b : Nat} (aged : n.Aged age b)
    (assocs : m.assocs = n.assocs) (agenda : m.agenda = n.agenda) : m.Aged age b where
  below := assocs ▸ aged.below
  children := assocs ▸ aged.children
  sessions := by
    rw [assocs, agenda]
    exact aged.sessions
  agenda := agenda ▸ aged.agenda

/-! ## Every run -/

/-- The associations and the manager agree on who is registered. -/
def Agrees (n : Net) : Prop := n.Enrolled ∧ ∃ age b, n.Aged age b

theorem Agrees.same {n m : Net} (agrees : n.Agrees) (assocs : m.assocs = n.assocs)
    (registered : m.manager.registered = n.manager.registered) (agenda : m.agenda = n.agenda) :
    m.Agrees := by
  obtain ⟨enrolled, age, b, aged⟩ := agrees
  refine ⟨⟨?_, ?_, ?_⟩, age, b, aged.congr assocs agenda⟩
  · rw [assocs, agenda, registered]
    exact enrolled.entry
  · rw [assocs, registered]
    exact enrolled.unknown
  · rw [assocs, agenda]
    exact enrolled.owners

/-- An association acts while the agenda is empty. -/
theorem Agrees.act {n n' : Net} (agrees : n.Agrees) (idle : n.agenda = []) {x : AssocId} {j : Input}
    {o : List NetCall} (h : n.act x j = some (n', o)) : n'.Agrees := by
  obtain ⟨enrolled, age, b, aged⟩ := agrees
  obtain ⟨s, s', calls, hs, step, assocs, manager, agenda, -⟩ := act_eq h
  refine ⟨enrolled.acts hs step (.inr ?_) assocs manager agenda, age, b,
    aged.acts hs step (.inl idle) (fun c hc => ⟨?_, ?_⟩) assocs agenda⟩
  · intro c hc
    rw [mem_callsOf, idle] at hc
    cases hc
  · rcases shuts_step step hc with hc | hc
    · exact aged.children x s hs c hc
    · rcases aged.sessions x s hs c hc with younger | ⟨cs, pending, fileno, hmem⟩
      · exact younger
      · rw [idle] at hmem
        cases hmem
  · intro q hq
    rw [idle] at hq
    cases hq

/-- An assignment in an association that may be gone. -/
theorem Agrees.assign {n : Net} (agrees : n.Agrees) (x : AssocId) {j : Input}
    (assigned : j.fromKin = true ∨ ∃ observer, j = .setObserver observer) :
    (n.tell x j).1.Agrees := by
  rcases tell_eq n x j with h | ⟨-, h⟩
  · obtain ⟨enrolled, age, b, aged⟩ := agrees
    obtain ⟨s, s', calls, hs, step, assocs, manager, agenda, -⟩ := act_eq h
    have nobody := assigned_step assigned step
    refine ⟨enrolled.acts hs step (.inl fun c hc => ?_) assocs manager agenda, age, b,
      aged.acts hs step (.inr fun ans hj => ?_) (fun c hc => ?_) assocs agenda⟩
    · rw [nobody c hc]
      rfl
    · subst hj
      rcases assigned with fromKin | ⟨observer, heq⟩ <;> contradiction
    · cases nobody _ hc
  · rw [h]
    exact agrees

/-- The shutdown of a child, with what is to come behind it. -/
theorem Agrees.shutdownChild {n : Net} {rest : List (AssocId × Call)} {p c : AssocId}
    (agrees : n.Agrees) (hagenda : n.agenda = (p, .shutdownChild c) :: rest) :
    (({ n with agenda := rest } : Net).tell c .shutdown).1.Agrees := by
  obtain ⟨enrolled, age, b, aged⟩ := agrees
  have enrolled' := enrolled.tail hagenda rfl
  have aged' := aged.tail hagenda fun _ _ _ _ => nofun
  have order := aged.agenda
  rw [hagenda] at order
  have ahead : ∀ q ∈ rest, q.2.enrols = true → age q.1 < age c := fun q hq =>
    (List.pairwise_cons.mp order).1 q hq c rfl
  rcases tell_eq { n with agenda := rest } c .shutdown with h | ⟨-, h⟩
  · obtain ⟨s, s', calls, hs, step, assocs, manager, agenda, -⟩ := act_eq h
    refine ⟨enrolled'.acts hs step (.inr fun d hd => ?_) assocs manager agenda, age, b,
      aged'.acts hs step (.inr fun _ => nofun) (fun d hd => ?_) assocs agenda⟩
    · rw [Bool.eq_false_iff]
      intro enrols
      exact Nat.lt_irrefl _ (ahead (c, d) (mem_callsOf.mp hd) enrols)
    · have younger : age c < age d := aged.children c s hs d (shut_only step hd)
      exact ⟨younger, fun q hq enrols => (ahead q hq enrols).trans younger⟩
  · rw [h]
    exact ⟨enrolled', age, b, aged'⟩

/-- A session is made. -/
theorem Agrees.newChild {n n' : Net} {rest : List (AssocId × Call)} {p c : AssocId} {cs : Comstack}
    {pending : IoPending} {fileno : Int} {o : List NetCall} (agrees : n.Agrees)
    (hagenda : n.agenda = (p, .newChild c cs pending fileno) :: rest)
    (h : ({ n with agenda := rest } : Net).born c
      (({} : Sys).perform (PduAssoc.accepted cs pending fileno)).1
      (PduAssoc.accepted cs pending fileno).calls = some (n', o)) : n'.Agrees := by
  obtain ⟨enrolled, age, b, aged⟩ := agrees
  have apart := PduAssoc.apart_accepted cs pending fileno
  unfold Net.born at h
  split at h
  · cases h
  next hnone =>
  obtain ⟨rfl, -⟩ := Prod.mk.inj (Option.some.inj h)
  refine ⟨(enrolled.tail hagenda rfl).made hnone rfl rfl rfl rfl, _, _,
    aged.made hnone enrolled.owners apart.children (fun d hd => ?_) (fun d hd => ?_)
      (hagenda ▸ List.sublist_cons_self _ _) (fun q d cs' pending' fileno' hmem => ?_) rfl rfl⟩
  · rw [← mem_sessions] at hd
    have none := filterMap_frames apart.frame []
    change d ∈ ((PduAssoc.accepted cs pending fileno).frame.toList ++ []).filterMap
      Frame.session? at hd
    rw [none] at hd
    cases hd
  · exact List.not_mem_nil (PduAssoc.shuts_accepted cs pending fileno d hd)
  · rw [hagenda] at hmem
    rcases List.mem_cons.mp hmem with heq | hmem
    · cases heq
      exact .inl rfl
    · exact .inr hmem

/-- A constructor of the application's own. -/
theorem Agrees.new {n n' : Net} (agrees : n.Agrees) {x : AssocId} {o : List NetCall}
    (h : n.born x {} [] = some (n', o)) : n'.Agrees := by
  obtain ⟨enrolled, age, b, aged⟩ := agrees
  unfold Net.born at h
  split at h
  · cases h
  next hnone =>
  obtain ⟨rfl, -⟩ := Prod.mk.inj (Option.some.inj h)
  exact ⟨enrolled.made hnone rfl rfl rfl rfl, _, _,
    aged.made hnone enrolled.owners rfl (fun d => List.not_mem_nil) (fun d => List.not_mem_nil)
      (List.Sublist.refl _) (fun _ _ _ _ _ => .inr) rfl rfl⟩

/-- The next call of the agenda. -/
theorem Agrees.route {n n' : Net} (agrees : n.Agrees) {x : AssocId} {c : Call}
    {rest : List (AssocId × Call)} (hagenda : n.agenda = (x, c) :: rest) {o : List NetCall}
    (h : ({ n with agenda := rest } : Net).route x c = some (n', o)) : n'.Agrees := by
  have tail : c.enrols = false → (∀ d cs pending fileno, c ≠ .newChild d cs pending fileno) →
      ({ n with agenda := rest } : Net).Agrees := by
    obtain ⟨enrolled, age, b, aged⟩ := agrees
    exact fun still made => ⟨enrolled.tail hagenda still, age, b, aged.tail hagenda made⟩
  have managed : ∀ {i : ManagerInput AssocId} {made : Managed AssocId},
      i.perform n.manager = some made →
      (∀ y before, i.registers y before = if x = y then c.enters before else before) →
      (∀ d cs pending fileno, c ≠ .newChild d cs pending fileno) →
      (({ n with agenda := rest } : Net).manage made).1.Agrees := by
    intro i made perform registers other
    obtain ⟨enrolled, age, b, aged⟩ := agrees
    refine ⟨enrolled.called hagenda (fun y => ?_) rfl rfl, age, b,
      (aged.tail hagenda other).congr rfl rfl⟩
    have step : (socketManager AssocId).step n.manager i = some (made.manager, made.calls) := by
      show (i.perform n.manager).map _ = _
      rw [perform]
      rfl
    rw [Bool.eq_iff_iff, decide_eq_true_iff, ← registers]
    exact SocketManager.registered_step step
  cases c with
  | newChild child cs pending fileno => exact agrees.newChild hagenda h
  | addObserver =>
    cases h
    exact managed (i := .addObserver (-1) x) rfl (fun _ _ => rfl) fun _ _ _ _ => nofun
  | deleteObserver =>
    cases h
    exact managed (i := .deleteObserver x) rfl (fun _ _ => rfl) fun _ _ _ _ => nofun
  | maskObserver mask fd =>
    cases h
    exact managed (i := .maskObserver x mask fd) rfl (fun _ _ => (ite_self _).symm)
      fun _ _ _ _ => nofun
  | timeoutObserver timeout =>
    cases h
    exact managed (i := .timeoutObserver x timeout) rfl (fun _ _ => (ite_self _).symm)
      fun _ _ _ _ => nofun
  | setChildObserver child observer =>
    obtain ⟨rfl, -⟩ := Prod.mk.inj (Option.some.inj h)
    exact (tail rfl fun _ _ _ _ => nofun).assign child (.inr ⟨observer, rfl⟩)
  | setChildParent child | deleteChild child =>
    obtain ⟨rfl, -⟩ := Prod.mk.inj (Option.some.inj h)
    exact (tail rfl fun _ _ _ _ => nofun).assign child (.inl rfl)
  | unlinkFrom parent =>
    obtain ⟨rfl, -⟩ := Prod.mk.inj (Option.some.inj h)
    exact (tail rfl fun _ _ _ _ => nofun).assign parent (.inl rfl)
  | shutdownChild child =>
    obtain ⟨rfl, -⟩ := Prod.mk.inj (Option.some.inj h)
    exact agrees.shutdownChild hagenda
  | _ =>
    cases h
    exact tail rfl fun _ _ _ _ => nofun

/-- **One step** keeps the associations and the manager in agreement. -/
theorem Agrees.step {n n' : Net} {i : NetInput} {o : List NetCall} (agrees : n.Agrees)
    (step : net.step n i = some (n', o)) : n'.Agrees := by
  change n.step i = some (n', o) at step
  unfold Net.step at step
  split at step
  · next x c rest hagenda => exact agrees.route hagenda step
  · next x hagenda => exact agrees.new step
  · next x j hagenda =>
    split at step
    · exact agrees.act hagenda step
    · cases step
  · next ans hagenda =>
    split at step
    · cases step
    · next x stack hstack =>
      have before : ({ n with stack := stack } : Net).Agrees := agrees.same rfl rfl rfl
      exact before.act hagenda step
  · next now replies later ans hagenda =>
    unfold processEvent at step
    split at step
    · cases step
    next made hmade =>
    have registered : made.manager.registered = n.manager.registered := by
      cases SocketManager.processEvent_processed hmade <;> assumption
    have before : (n.manage made).1.Agrees := agrees.same rfl registered rfl
    dsimp only at step
    split at step
    · cases step
      exact before
    · next ev hev =>
      obtain ⟨rfl, -⟩ := Prod.mk.inj (Option.some.inj step)
      rcases tell_eq (n.manage made).1 ev.observer (.socketNotify ev.event ans) with h | ⟨-, h⟩
      · exact before.act hagenda h
      · rw [h]
        exact before
  · cases step

theorem agrees_born {n : Net} {h : List NetCall} (born : Born n h) : n.Agrees := by
  obtain ⟨rfl, -⟩ := born
  refine ⟨⟨?_, ?_, ?_⟩, fun _ => 0, 0, ?_, ?_, ?_, List.Pairwise.nil⟩
  · exact fun x s hs => absurd hs (Option.some_ne_none s).symm
  · exact fun x _ => List.not_mem_nil
  · exact fun p hp => absurd hp List.not_mem_nil
  · exact fun x s hs => absurd hs (Option.some_ne_none s).symm
  · exact fun x s hs => absurd hs (Option.some_ne_none s).symm
  · exact fun x s hs => absurd hs (Option.some_ne_none s).symm

theorem agrees_run {is : List NetInput} {n : Net} {h : List NetCall} (run : net.Run Born is n h) :
    n.Agrees :=
  run.invariant (fun n _ => n.Agrees) (fun _ _ => agrees_born) fun _ _ _ _ _ agrees step =>
    agrees.step step

/-- **An event finds its association registered.** -/
theorem Agrees.delivered {n n' : Net} {i : NetInput} {o : List NetCall} (agrees : n.Agrees)
    (inv : n.Inv) (step : net.step n i = some (n', o)) {x : AssocId} {s : Sys} {j : Input}
    (hs : n.assocs x = some s) (event : ∀ ev ans, j = .socketNotify ev ans →
      n.agenda = [] ∧ .socketNotify x ev ∈ managerHistory o) : j.delivered s = true := by
  cases j with
  | socketNotify ev ans =>
    obtain ⟨idle, hmem⟩ := event ev ans rfl
    show s.entry.isSome = true
    rw [agrees.1.entry x s hs, idle]
    exact decide_eq_true (registered_moved inv.owned (moved_of_step inv step) hmem)
  | _ => rfl

/-- **Every association of a program runs the machine `pdu`**, with its part of the history, and
every event finds it registered. -/
theorem net_run_assoc {is : List NetInput} {n : Net} {h : List NetCall}
    (run : net.Run Born is n h) {x : AssocId} {s : Sys} (hs : n.assocs x = some s) :
    ∃ js, (pdu.restrict Input.delivered).Run Sys.Born js s (assocHistory x h) := by
  have part : (∀ s, n.assocs x = some s →
        ∃ js, (pdu.restrict Input.delivered).Run Sys.Born js s (assocHistory x h)) ∧
      (n.assocs x = none → assocHistory x h = []) := by
    clear hs
    induction run with
    | start born =>
      refine ⟨fun s hs => absurd hs (born_vacant born x s), fun _ => ?_⟩
      obtain ⟨-, rfl⟩ := born
      rfl
    | step run hstep ih =>
      rw [assocHistory_append]
      rcases assoc_step (inv_run run) hstep x with ⟨same, none⟩ |
        ⟨j, t, t', ht, hj, ht', -, event⟩ | ⟨hnone, t, ht, born⟩
      · rw [none, List.append_nil, same]
        exact ih
      · refine ⟨?_, fun hnone => ?_⟩
        · intro u hu
          obtain ⟨js, local_run⟩ := ih.1 t ht
          cases ht'.symm.trans hu
          have delivered := (agrees_run run).delivered (inv_run run) hstep ht event
          exact ⟨_, local_run.step (Machine.restrict_step.mpr ⟨delivered, hj⟩)⟩
        · cases ht'.symm.trans hnone
      · rw [ih.2 hnone, List.nil_append]
        refine ⟨?_, fun hnone => ?_⟩
        · intro u hu
          cases ht.symm.trans hu
          exact ⟨[], .start born⟩
        · cases ht.symm.trans hnone
  exact part.1 s hs

/-- The same with the steps told apart, behind what the constructor has called: what is assumed
where the failures of an association are counted holds in every program. -/
theorem net_run_logged {is : List NetInput} {n : Net} {h : List NetCall}
    (run : net.Run Born is n h) {x : AssocId} {s : Sys} (hs : n.assocs x = some s) :
    ∃ js before log, assocHistory x h = before ++ log.flatMap Prod.snd ∧
      (pdu.restrict Input.delivered).logged.Run
        (fun s log => (∃ h, s.Born h) ∧ log = []) js s log := by
  obtain ⟨js, local_run⟩ := net_run_assoc run hs
  exact ⟨js, local_run.logged⟩

end Net

end Yazpp
