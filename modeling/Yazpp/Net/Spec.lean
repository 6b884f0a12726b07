import Yazpp.Net.Model
import Yazpp.PduAssoc.Shut
import Yazpp.SocketManager.Registered

/-!
# What one step of a program can do

A step of the program is a step of the manager, if any, and a step of one association, if any
(`Happened`). For each association it is nothing, a step of the machine `pdu`, or its constructor
(`assoc_step`), with the history that the association itself makes: what holds of one association
under all its callers holds of every association of every program.
-/

set_option autoImplicit false

namespace Yazpp

open Yazpp.Lib

theorem net_born : Net.Born {} [] := ⟨rfl, rfl⟩

/-! ## One history, seen by one party -/

/-- What one association does. -/
def NetCall.ofAssoc (id : AssocId) : NetCall → Option Call
  | .assoc id' c => if id' = id then some c else none
  | _ => none

/-- What the manager does. -/
def NetCall.ofManager : NetCall → Option (ManagerCall AssocId)
  | .manager c => some c
  | _ => none

/-- The history of one association. -/
def assocHistory (id : AssocId) (h : List NetCall) : List Call := h.filterMap (NetCall.ofAssoc id)

/-- The history of the manager. -/
def managerHistory (h : List NetCall) : List (ManagerCall AssocId) :=
  h.filterMap NetCall.ofManager

@[simp] theorem assocHistory_append (id : AssocId) (h k : List NetCall) :
    assocHistory id (h ++ k) = assocHistory id h ++ assocHistory id k :=
  List.filterMap_append

@[simp] theorem managerHistory_append (h k : List NetCall) :
    managerHistory (h ++ k) = managerHistory h ++ managerHistory k :=
  List.filterMap_append

@[simp] theorem assocHistory_self (id : AssocId) (calls : List Call) :
    assocHistory id (calls.map (.assoc id)) = calls := by
  induction calls with
  | nil => rfl
  | cons c calls ih =>
    simp only [assocHistory, List.map_cons, List.filterMap_cons, NetCall.ofAssoc, if_true] at ih ⊢
    rw [ih]

theorem assocHistory_other {id id' : AssocId} (other : id' ≠ id) (calls : List Call) :
    assocHistory id (calls.map (.assoc id')) = [] := by
  simp only [assocHistory, List.filterMap_eq_nil_iff, List.forall_mem_map, NetCall.ofAssoc, other,
    if_false, implies_true]

@[simp] theorem assocHistory_manager (id : AssocId) (calls : List (ManagerCall AssocId)) :
    assocHistory id (calls.map .manager) = [] := by
  simp only [assocHistory, List.filterMap_eq_nil_iff, List.forall_mem_map, NetCall.ofAssoc,
    implies_true]

@[simp] theorem managerHistory_manager (calls : List (ManagerCall AssocId)) :
    managerHistory (calls.map .manager) = calls := by
  induction calls with
  | nil => rfl
  | cons c calls ih =>
    simp only [managerHistory, List.map_cons, List.filterMap_cons, NetCall.ofManager] at ih ⊢
    rw [ih]

@[simp] theorem managerHistory_assoc (id : AssocId) (calls : List Call) :
    managerHistory (calls.map (.assoc id)) = [] := by
  simp only [managerHistory, List.filterMap_eq_nil_iff, List.forall_mem_map, NetCall.ofManager,
    implies_true]

@[simp] theorem assocHistory_dangling (id id' : AssocId) :
    assocHistory id [.dangling id'] = [] := rfl

@[simp] theorem managerHistory_dangling (id : AssocId) : managerHistory [.dangling id] = [] := rfl

/-! ## One step -/

/-- The association that a step deletes, and how. -/
def Net.deletes (n : Net) : NetInput → Option (AssocId × Input)
  | .call id .destroy => some (id, .destroy)
  | .route =>
    match n.agenda with
    | (_, .deleteChild child) :: _ => some (child, .delete)
    | _ => none
  | _ => none

/-- What the manager may have done: one operation at most, and never `deleteObservers`. -/
inductive Moved (m : SocketManager AssocId) :
    SocketManager AssocId → List (ManagerCall AssocId) → Prop
  | still : Moved m m []
  | step {i : ManagerInput AssocId} {m' : SocketManager AssocId}
      {calls : List (ManagerCall AssocId)} : i ≠ .deleteObservers →
      (socketManager AssocId).step m i = some (m', calls) → Moved m m' calls

/-- One step: the manager, then nobody, an association, one that is deleted, or a new one. -/
inductive Happened (n : Net) (i : NetInput) : Net → List NetCall → Prop
  | managed {n' : Net} {moves : List (ManagerCall AssocId)} : Moved n.manager n'.manager moves →
      n'.assocs = n.assocs → n'.agenda ⊆ n.agenda → Happened n i n' (moves.map .manager)
  | dangled {n' : Net} {moves : List (ManagerCall AssocId)} (id : AssocId) :
      Moved n.manager n'.manager moves → n'.assocs = n.assocs → n'.agenda ⊆ n.agenda →
      Happened n i n' (moves.map .manager ++ [.dangling id])
  | acted {n' : Net} {moves : List (ManagerCall AssocId)} {id : AssocId} {j : Input} {s s' : Sys}
      {calls : List Call} : Moved n.manager n'.manager moves → n.assocs id = some s →
      pdu.step s j = some (s', calls) → n'.assocs = Net.update n.assocs id s' →
      (j.ends = true → n.deletes i = some (id, j)) →
      (∀ event ans, j = .socketNotify event ans →
        n.agenda = [] ∧ .socketNotify id event ∈ moves) →
      n'.agenda ⊆ calls.map (Prod.mk id) ++ n.agenda →
      Happened n i n' (moves.map .manager ++ calls.map (.assoc id))
  | made {n' : Net} {id : AssocId} {s : Sys} {calls : List Call} : n.assocs id = none →
      s.Born calls → n'.assocs = Net.update n.assocs id s → n'.manager = n.manager →
      n'.agenda ⊆ calls.map (Prod.mk id) ++ n.agenda → Happened n i n' (calls.map (.assoc id))

namespace Net

/-- Who is notified is notified by a call of the manager. -/
theorem mem_of_notified {ω : Type} {o : Managed ω} {ev : SocketEvent ω}
    (notified : o.notified? = some ev) : .socketNotify ev.observer ev.event ∈ o.calls := by
  unfold Managed.notified? at notified
  split at notified
  · next observer event last =>
    cases notified
    exact List.mem_of_getLast? last
  · cases notified

theorem agenda_append {calls rest more : List (AssocId × Call)} (h : rest ⊆ more) :
    calls ++ rest ⊆ calls ++ more :=
  List.append_subset.mpr ⟨List.subset_append_left _ _, List.subset_append_of_subset_right _ h⟩

/-- `act`, inverted. -/
theorem act_eq {n n' : Net} {id : AssocId} {j : Input} {o : List NetCall}
    (h : n.act id j = some (n', o)) : ∃ s s' calls, n.assocs id = some s ∧
      pdu.step s j = some (s', calls) ∧ n'.assocs = update n.assocs id s' ∧
      n'.manager = n.manager ∧ n'.agenda = calls.map (Prod.mk id) ++ n.agenda ∧
      o = calls.map (.assoc id) := by
  unfold act at h
  split at h
  · cases h
  next s hs =>
  split at h
  · cases h
  next s' calls hstep =>
  obtain ⟨rfl, rfl⟩ := Prod.mk.inj (Option.some.inj h)
  exact ⟨s, s', calls, hs, hstep, rfl, rfl, rfl, rfl⟩

/-- `tell` is `act`, or finds nobody there. -/
theorem tell_eq (n : Net) (id : AssocId) (j : Input) :
    n.act id j = some (n.tell id j) ∨ n.act id j = none ∧ n.tell id j = (n, [.dangling id]) := by
  unfold tell
  cases n.act id j with
  | none => exact .inr ⟨rfl, rfl⟩
  | some next => exact .inl rfl

/-- An association that acts behind the manager. -/
theorem happened_act {n m n' : Net} {i : NetInput} {id : AssocId} {j : Input}
    {moves : List (ManagerCall AssocId)} {o : List NetCall} (assocs : m.assocs = n.assocs)
    (moved : Moved n.manager m.manager moves) (ends : j.ends = true → n.deletes i = some (id, j))
    (event : ∀ event ans, j = .socketNotify event ans →
      n.agenda = [] ∧ .socketNotify id event ∈ moves)
    (agenda : m.agenda ⊆ n.agenda) (h : m.act id j = some (n', o)) :
    Happened n i n' (moves.map .manager ++ o) := by
  obtain ⟨s, s', calls, hs, hstep, hassocs, hmanager, hagenda, rfl⟩ := act_eq h
  refine .acted (hmanager ▸ moved) (assocs ▸ hs) hstep (assocs ▸ hassocs) ends event ?_
  rw [hagenda]
  exact agenda_append agenda

/-- The same of `tell`. -/
theorem happened_tell {n : Net} (m : Net) {i : NetInput} {id : AssocId} {j : Input}
    {moves : List (ManagerCall AssocId)} (assocs : m.assocs = n.assocs)
    (moved : Moved n.manager m.manager moves) (ends : j.ends = true → n.deletes i = some (id, j))
    (event : ∀ event ans, j = .socketNotify event ans →
      n.agenda = [] ∧ .socketNotify id event ∈ moves)
    (agenda : m.agenda ⊆ n.agenda) :
    Happened n i (m.tell id j).1 (moves.map .manager ++ (m.tell id j).2) := by
  rcases tell_eq m id j with h | ⟨-, h⟩
  · exact happened_act assocs moved ends event agenda h
  · rw [h]
    exact .dangled id moved assocs agenda

/-- A new object. -/
theorem happened_born {n n' : Net} (m : Net) {i : NetInput} {id : AssocId} {s : Sys}
    {calls : List Call} {o : List NetCall} (assocs : m.assocs = n.assocs)
    (manager : m.manager = n.manager) (born : s.Born calls) (agenda : m.agenda ⊆ n.agenda)
    (h : m.born id s calls = some (n', o)) : Happened n i n' o := by
  unfold Net.born at h
  split at h
  · cases h
  next hnone =>
  obtain ⟨rfl, rfl⟩ := Prod.mk.inj (Option.some.inj h)
  exact .made (assocs ▸ hnone) born (assocs ▸ rfl) manager
    (agenda_append agenda)

/-- A manager's operation, and nothing else. -/
theorem happened_manage {n : Net} (m : Net) (op : ManagerInput AssocId) {i : NetInput}
    {o : Managed AssocId} (assocs : m.assocs = n.assocs)
    (hop : op ≠ .deleteObservers) (perform : op.perform n.manager = some o)
    (agenda : m.agenda ⊆ n.agenda) : Happened n i (m.manage o).1 (m.manage o).2 := by
  refine .managed (.step hop ?_) assocs agenda
  show (op.perform n.manager).map _ = _
  rw [perform]
  rfl

theorem happened_route {n n' : Net} {id : AssocId} {c : Call} {agenda : List (AssocId × Call)}
    {o : List NetCall} (hagenda : n.agenda = (id, c) :: agenda)
    (line : ∀ child cs pending fileno, c = .newChild child cs pending fileno → cs ≠ 0)
    (h : ({ n with agenda := agenda } : Net).route id c = some (n', o)) :
    Happened n .route n' o := by
  have rest : agenda ⊆ n.agenda := hagenda ▸ List.subset_cons_self _ _
  have told : ∀ (id' : AssocId) (j : Input),
      (j.ends = true → n.deletes .route = some (id', j)) →
      (∀ event ans, j ≠ .socketNotify event ans) →
      Happened n .route (({ n with agenda := agenda } : Net).tell id' j).1
        (({ n with agenda := agenda } : Net).tell id' j).2 := by
    intro id' j ends other
    have step := happened_tell (n := n) { n with agenda := agenda } rfl .still ends
      (fun event ans h => absurd h (other event ans)) rest
    exact step
  cases c with
  | addObserver =>
    cases h
    exact happened_manage _ (.addObserver (-1) id) rfl nofun rfl rest
  | deleteObserver =>
    cases h
    exact happened_manage _ (.deleteObserver id) rfl nofun rfl rest
  | maskObserver mask fd =>
    cases h
    exact happened_manage _ (.maskObserver id mask fd) rfl nofun rfl rest
  | timeoutObserver timeout =>
    cases h
    exact happened_manage _ (.timeoutObserver id timeout) rfl nofun rfl rest
  | newChild child cs pending fileno =>
    exact happened_born { n with agenda := agenda } rfl rfl
      (.accepted pending fileno (line child cs pending fileno rfl)) rest h
  | setChildObserver child observer =>
    obtain ⟨rfl, rfl⟩ := Prod.mk.inj (Option.some.inj h)
    exact told child _ (fun ends => Bool.noConfusion ends) fun _ _ => nofun
  | setChildParent child =>
    obtain ⟨rfl, rfl⟩ := Prod.mk.inj (Option.some.inj h)
    exact told child _ (fun ends => Bool.noConfusion ends) fun _ _ => nofun
  | shutdownChild child =>
    obtain ⟨rfl, rfl⟩ := Prod.mk.inj (Option.some.inj h)
    exact told child _ (fun ends => Bool.noConfusion ends) fun _ _ => nofun
  | deleteChild child =>
    obtain ⟨rfl, rfl⟩ := Prod.mk.inj (Option.some.inj h)
    refine told child _ (fun _ => ?_) fun _ _ => nofun
    simp only [deletes, hagenda]
  | unlinkFrom parent =>
    obtain ⟨rfl, rfl⟩ := Prod.mk.inj (Option.some.inj h)
    exact told parent _ (fun ends => Bool.noConfusion ends) fun _ _ => nofun
  | _ =>
    cases h
    have nothing : Happened n .route { n with agenda := agenda }
        (([] : List (ManagerCall AssocId)).map .manager) := .managed .still rfl rest
    exact nothing

/-- **`Net.step`, inverted.** -/
theorem happened_of_step {n n' : Net} {i : NetInput} {o : List NetCall}
    (lines : ∀ id child cs pending fileno, (id, .newChild child cs pending fileno) ∈ n.agenda →
      cs ≠ 0) (h : net.step n i = some (n', o)) : Happened n i n' o := by
  change n.step i = some (n', o) at h
  unfold step at h
  split at h
  · next id c agenda hagenda =>
    refine happened_route hagenda ?_ h
    rintro child cs pending fileno rfl
    exact lines id child cs pending fileno (hagenda ▸ List.mem_cons_self)
  · exact happened_born n rfl rfl .new (List.Subset.refl _) h
  · next id j hagenda =>
    split at h
    · next hpublic =>
      have ends : j.ends = true → n.deletes (.call id j) = some (id, j) := by
        intro ends
        cases j with
        | destroy => rfl
        | delete => cases hpublic
        | _ => cases ends
      have other : ∀ event ans, j ≠ .socketNotify event ans := by
        rintro event ans rfl
        cases hpublic
      have step := happened_act rfl .still ends (fun event ans hj => absurd hj (other event ans))
        (List.Subset.refl _) h
      exact step
    · cases h
  · next ans _ =>
    split at h
    · cases h
    · next id stack _ =>
      have step := happened_act (n := n) (i := .ret ans) (m := { n with stack := stack }) rfl .still
        (fun ends => Bool.noConfusion ends) (fun _ _ hj => by cases hj) (List.Subset.refl _) h
      exact step
  · next now replies later ans idle =>
    unfold processEvent at h
    split at h
    · cases h
    next made hmade =>
    have moved : Moved n.manager (n.manage made).1.manager made.calls := by
      refine .step (i := .processEvent now replies later) nofun ?_
      show (n.manager.processEvent now replies later).map _ = _
      rw [hmade]
      rfl
    dsimp only at h
    split at h
    · cases h
      exact .managed moved rfl (List.Subset.refl _)
    · next ev hev =>
      cases h
      refine happened_tell (n.manage made).1 rfl moved (fun ends => Bool.noConfusion ends) ?_
        (List.Subset.refl _)
      rintro event ans' hj
      cases hj
      exact ⟨idle, mem_of_notified hev⟩
  · cases h

/-! ## Every run -/

/-- What holds of every program: its associations are well-formed, a session on its way to be made
has a COMSTACK, and the queued events belong to registered associations. -/
structure Inv (n : Net) : Prop where
  wf : ∀ id s, n.assocs id = some s → s.assoc.WF
  lines : ∀ id child cs pending fileno, (id, .newChild child cs pending fileno) ∈ n.agenda → cs ≠ 0
  owned : n.manager.Owned

/-- An operation of the manager other than `deleteObservers` keeps the queue with registered
observers. -/
theorem owned_moved {m m' : SocketManager AssocId} {calls : List (ManagerCall AssocId)}
    (owned : m.Owned) (moved : Moved m m' calls) : m'.Owned := by
  cases moved with
  | still => exact owned
  | @step i _ _ hi hstep =>
    have admitted : drained m i = true := by
      cases i <;> first | rfl | exact absurd rfl hi
    exact (owned.step admitted hstep).1

theorem update_eq {assocs : AssocId → Option Sys} {id id' : AssocId} {s s' : Sys}
    (h : update assocs id s id' = some s') :
    id' = id ∧ s' = s ∨ id' ≠ id ∧ assocs id' = some s' := by
  unfold update at h
  split at h
  · next hid => exact .inl ⟨hid, (Option.some.inj h).symm⟩
  · next hid => exact .inr ⟨hid, h⟩

/-- Whom an operation other than `deleteObservers` notifies is registered. -/
theorem registered_moved {m m' : SocketManager AssocId} {calls : List (ManagerCall AssocId)}
    (owned : m.Owned) (moved : Moved m m' calls) {x : AssocId} {event : Nat}
    (notified : .socketNotify x event ∈ calls) : x ∈ m.registered := by
  cases moved with
  | still => cases notified
  | @step i _ _ hi hstep =>
    have admitted : drained m i = true := by
      cases i <;> first | rfl | exact absurd rfl hi
    exact (owned.step admitted hstep).2 x event notified

/-- **One step** keeps it. -/
theorem Inv.step {n n' : Net} {i : NetInput} {o : List NetCall} (inv : n.Inv)
    (step : net.step n i = some (n', o)) : n'.Inv := by
  have lines : ∀ {id : AssocId} {calls : List Call} {a : PduAssoc}, Reads a calls →
      n'.agenda ⊆ calls.map (Prod.mk id) ++ n.agenda →
      ∀ id child cs pending fileno, (id, Call.newChild child cs pending fileno) ∈ n'.agenda →
        cs ≠ 0 := by
    intro id calls a reads agenda id' child cs pending fileno hmem
    rcases List.mem_append.mp (agenda hmem) with hnew | hold
    · obtain ⟨c, hc, heq⟩ := List.mem_map.mp hnew
      obtain ⟨-, rfl⟩ := Prod.mk.inj heq
      exact reads.line child cs pending fileno hc
    · exact inv.lines id' child cs pending fileno hold
  cases happened_of_step inv.lines step with
  | managed moved assocs agenda =>
    exact ⟨assocs ▸ inv.wf, fun id child cs pending fileno hmem =>
      inv.lines id child cs pending fileno (agenda hmem), owned_moved inv.owned moved⟩
  | dangled _ moved assocs agenda =>
    exact ⟨assocs ▸ inv.wf, fun id child cs pending fileno hmem =>
      inv.lines id child cs pending fileno (agenda hmem), owned_moved inv.owned moved⟩
  | acted moved hs hstep assocs _ _ agenda =>
    have wf := inv.wf _ _ hs
    refine ⟨?_, lines (reads_step wf hstep) agenda, owned_moved inv.owned moved⟩
    intro id s h
    rw [assocs] at h
    rcases update_eq h with ⟨-, rfl⟩ | ⟨-, h⟩
    · exact wf_step wf hstep
    · exact inv.wf id s h
  | made _ born assocs manager agenda =>
    refine ⟨?_, lines (reads_born born) agenda, manager ▸ inv.owned⟩
    intro id s h
    rw [assocs] at h
    rcases update_eq h with ⟨-, rfl⟩ | ⟨-, h⟩
    · exact wf_born born
    · exact inv.wf id s h

/-- A program starts without associations. -/
theorem born_vacant {n : Net} {h : List NetCall} (born : Born n h) (id : AssocId) (s : Sys) :
    n.assocs id ≠ some s := by
  obtain ⟨rfl, -⟩ := born
  exact (Option.some_ne_none s).symm

theorem inv_born {n : Net} {h : List NetCall} (born : Born n h) : n.Inv where
  wf id s hs := absurd hs (born_vacant born id s)
  lines id child cs pending fileno hmem := by
    obtain ⟨rfl, -⟩ := born
    exact absurd hmem List.not_mem_nil
  owned := by
    obtain ⟨rfl, -⟩ := born
    exact List.forall_mem_nil _

theorem inv_run {is : List NetInput} {n : Net} {h : List NetCall} (run : net.Run Born is n h) :
    n.Inv :=
  run.invariant (fun n _ => n.Inv) (fun _ _ => inv_born) fun _ _ _ _ _ inv step => inv.step step

/-- What a step is for the manager. -/
theorem moved_of_step {n n' : Net} {i : NetInput} {o : List NetCall} (inv : n.Inv)
    (step : net.step n i = some (n', o)) : Moved n.manager n'.manager (managerHistory o) := by
  cases happened_of_step inv.lines step with
  | managed moved => rwa [managerHistory_manager]
  | dangled _ moved =>
    rwa [managerHistory_append, managerHistory_manager, managerHistory_dangling, List.append_nil]
  | acted moved =>
    rwa [managerHistory_append, managerHistory_manager, managerHistory_assoc, List.append_nil]
  | made _ _ _ manager =>
    rw [managerHistory_assoc, manager]
    exact .still

/-! ## The part of one association -/

/-- What a step is for one association: nothing, a step of its own, or its constructor. -/
theorem assoc_step {n n' : Net} {i : NetInput} {o : List NetCall} (inv : n.Inv)
    (step : net.step n i = some (n', o)) (id : AssocId) :
    (n'.assocs id = n.assocs id ∧ assocHistory id o = []) ∨
      (∃ j s s', n.assocs id = some s ∧ pdu.step s j = some (s', assocHistory id o) ∧
        n'.assocs id = some s' ∧ (j.ends = true → n.deletes i = some (id, j)) ∧
        ∀ event ans, j = .socketNotify event ans →
          n.agenda = [] ∧ .socketNotify id event ∈ managerHistory o) ∨
      n.assocs id = none ∧ ∃ s, n'.assocs id = some s ∧ s.Born (assocHistory id o) := by
  cases happened_of_step inv.lines step with
  | managed _ assocs => exact .inl ⟨congrFun assocs id, assocHistory_manager id _⟩
  | dangled _ _ assocs =>
    exact .inl ⟨congrFun assocs id, by rw [assocHistory_append, assocHistory_manager]; rfl⟩
  | @acted _ id' j s s' calls _ hs hstep assocs ends event =>
    rw [assocHistory_append, assocHistory_manager, List.nil_append, assocs]
    by_cases hid : id = id'
    · subst hid
      refine .inr (.inl ⟨j, s, s', hs, ?_, if_pos rfl, ends, ?_⟩)
      · rw [assocHistory_self]
        exact hstep
      · intro ev ans hj
        rw [managerHistory_append, managerHistory_manager]
        exact ⟨(event ev ans hj).1, List.mem_append_left _ (event ev ans hj).2⟩
    · exact .inl ⟨if_neg hid, assocHistory_other (Ne.symm hid) calls⟩
  | @made id' s calls hnone born assocs =>
    rw [assocs]
    by_cases hid : id = id'
    · subst hid
      exact .inr (.inr ⟨hnone, s, if_pos rfl, by rw [assocHistory_self]; exact born⟩)
    · exact .inl ⟨if_neg hid, assocHistory_other (Ne.symm hid) calls⟩

end Net

/-- A listener that accepts one session, and whose observer takes it. -/
def sessionOpened : List NetInput :=
  [.new 1, .call 1 (.listen 1 "tcp:@:9999" 1 {})] ++ List.replicate 5 .route ++
  [.processEvent 100 [{ res := 1, output := [{ read := true }] }] 100
    { newLine := 2, child := 2, accept := { res := 1 }, fileno := 4 }] ++
  List.replicate 7 .route ++ [.ret { session := 2 }] ++ List.replicate 2 .route

example : ((net.exec {} sessionOpened).bind fun last => last.1.assocs 1).map
    (fun s => s.assoc.children) = some [2] := by rfl

end Yazpp
