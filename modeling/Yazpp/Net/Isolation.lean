import Yazpp.Net.Spec

/-!
# Connections are isolated

A connection leaves three things behind it: events in the queue of the socket manager, PDUs in the
buffer of its COMSTACK, and PDUs in the output queue. `connection_isolated` says that a `shutdown`
or a `connect`, wherever the application is when it calls it, is the end of all three, for the
association and for every descendant that it closes (`Isolated`).

What carries the proof is where the closing stands (`Phase`). While the agenda still leads to a
descendant it is `pending`: nobody is notified, and the descendant does nothing. From its own
`shutdown` on its COMSTACK and its output queue are gone (`Cut`), and it is `closing`: its
`deleteObserver` is on the agenda. From there on it is `closed`, and what the manager does about it
is new (`SocketManager.Fresh`). The agenda of a `shutdown` changes nothing in the tree of children,
so that the way to the descendant is still there when it is taken (`Calm`).
-/

set_option autoImplicit false

namespace Yazpp

open Yazpp.Lib

/-- What is seen of an association and of the manager, from a moment on, is of that time: what is
notified was put since, and put since the association was added; what is read is from a COMSTACK
installed since, and `recv_PDU` is called with it; what is written was queued since, on a COMSTACK
installed since. -/
structure Isolated (x : AssocId) (h : List NetCall) : Prop where
  put : ∀ event, Preceded (managerHistory h) (· = .putEvent x event) (· = .added x)
  notified : ∀ event, Preceded (managerHistory h) (· = .socketNotify x event)
    (· = .putEvent x event)
  got : ∀ cs res buf, Preceded (assocHistory x h) (· = .csGet cs res buf) (Call.Installs cs)
  heard : ∀ buf len, Preceded (assocHistory x h) (· = .recvPdu buf len)
    fun c => ∃ cs, c = .csGet cs len buf
  queued : ∀ cs buf, Preceded (assocHistory x h) (· = .newPduQueue cs buf) (Call.Installs cs)
  written : ∀ cs buf res, Preceded (assocHistory x h) (· = .csPut cs buf res)
    (· = .newPduQueue cs buf)

/-- `y` is `x`, or a child of it, or a child of a child; all of them are there. -/
inductive Net.Descends (n : Net) : AssocId → AssocId → Prop
  | self {x : AssocId} {s : Sys} : n.assocs x = some s → s.alive = true → Descends n x x
  | child {x c y : AssocId} {s : Sys} : n.assocs x = some s → s.alive = true →
      c ∈ s.assoc.children → Descends n c y → Descends n x y

/-! ## The agenda of a `shutdown` -/

/-- The calls of a `shutdown` and of a `connect`. -/
def Call.calm : Call → Bool
  | .shutdownChild _ | .deleteObserver | .csClose _ | .csCreateHost .. | .csConnect ..
  | .addObserver | .maskObserver .. => true
  | _ => false

/-- What is still to be made is of a `shutdown` or a `connect`. -/
def Calm (agenda : List (AssocId × Call)) : Prop := ∀ p ∈ agenda, p.2.calm = true

/-- The agenda leads to `x` by a `shutdown` of a child. -/
def Net.Shutting (n : Net) (x : AssocId) : Prop :=
  ∃ y c, (y, .shutdownChild c) ∈ n.agenda ∧ n.Descends c x

/-- The associations of `n'` are there as in `n`, with the same children. -/
def Net.SameTree (n n' : Net) : Prop := ∀ x s, n.assocs x = some s →
  ∃ s', n'.assocs x = some s' ∧ s'.alive = s.alive ∧ s'.assoc.children = s.assoc.children

theorem Net.SameTree.of_eq {n n' : Net} (same : n'.assocs = n.assocs) : n.SameTree n' :=
  fun _ s hs => ⟨s, same ▸ hs, rfl, rfl⟩

theorem Net.SameTree.of_update {n n' : Net} {x : AssocId} {s s' : Sys} (hs : n.assocs x = some s)
    (assocs : n'.assocs = update n.assocs x s') (alive : s'.alive = s.alive)
    (children : s'.assoc.children = s.assoc.children) : n.SameTree n' := by
  intro y t ht
  rw [assocs]
  by_cases hy : y = x
  · subst hy
    cases hs.symm.trans ht
    exact ⟨s', if_pos rfl, alive, children⟩
  · exact ⟨t, (if_neg hy).trans ht, rfl, rfl⟩

theorem Net.Descends.mono {n n' : Net} {x y : AssocId} (same : n.SameTree n')
    (descends : n.Descends x y) : n'.Descends x y := by
  induction descends with
  | self hs halive =>
    obtain ⟨s', hs', alive, -⟩ := same _ _ hs
    exact .self hs' (alive.trans halive)
  | child hs halive hc _ ih =>
    obtain ⟨s', hs', alive, children⟩ := same _ _ hs
    exact .child hs' (alive.trans halive) (children ▸ hc) ih

theorem calm_shutdown (a : PduAssoc) : a.shutdown.calls.all Call.calm = true :=
  a.all_shutdown_calls (fun _ => rfl) rfl fun _ => rfl

/-- The calls of `shutdown` and `connect` are calm, and both leave the tree as it is. -/
theorem Input.Shuts.calm {i : Input} (shuts : i.Shuts) (a : PduAssoc) (depth : Nat) :
    (i.outcome a depth).calls.all Call.calm = true ∧
      (i.outcome a depth).assoc.children = a.children := by
  have shut := calm_shutdown a
  cases shuts with
  | shutdown => exact ⟨shut, rfl⟩
  | connect observer addr cs ans =>
    have ct := PduAssoc.connect_connected observer addr cs ans a
    simp only [Input.outcome]
    generalize a.connect observer addr cs ans = o at ct
    cases ct <;> exact ⟨by simp [shut, Call.calm], rfl⟩

/-- What a `shutdown` or a `connect` of one association leaves. -/
structure ShutStep (s s' : Sys) (calls : List Call) : Prop where
  cut : Cut s' calls
  alive : s.alive = true
  kept : s'.alive = true
  children : s'.assoc.children = s.assoc.children
  calm : calls.all Call.calm = true
  deleted : .deleteObserver ∈ calls
  all : ∀ c ∈ s.assoc.children, .shutdownChild c ∈ calls

theorem shutStep {s s' : Sys} {i : Input} {calls : List Call} (wf : s.assoc.WF) (shuts : i.Shuts)
    (step : pdu.step s i = some (s', calls)) : ShutStep s s' calls := by
  have cut := cut_shuts wf shuts step
  obtain ⟨rest, hcalls, -⟩ := shuts.calls s.assoc s.frames.length
  obtain ⟨calm, children⟩ := shuts.calm s.assoc s.frames.length
  cases stepped_of_step step with
  | call halive hi =>
    have inside : ∀ c ∈ s.assoc.shutdown.calls,
        c ∈ (i.outcome s.assoc s.frames.length).calls := fun c hc =>
      hcalls ▸ List.mem_append_left _ hc
    refine ⟨cut, halive, ?_, ?_, calm, ?_, ?_⟩
    · rw [Sys.bury_alive]
      cases shuts <;> exact halive
    · rw [Sys.bury_assoc]
      exact children
    · exact inside _ (PduAssoc.mem_shutdown_calls.mpr (.inr (.inl rfl)))
    · exact fun c hc => inside _ (PduAssoc.mem_shutdown_calls.mpr (.inl ⟨c, hc, rfl⟩))
  | back => cases shuts
  | dead => cases shuts

/-- One call of a calm agenda: the `shutdown` of a child, of a child that is gone, or an operation
of the manager that puts nothing and notifies nobody. -/
inductive CalmStep (n : Net) (y : AssocId) (agenda : List (AssocId × Call)) :
    Call → Net → List NetCall → Prop
  | shut {c : AssocId} {s s' : Sys} {calls : List Call} {n' : Net} : n.assocs c = some s →
      ShutStep s s' calls → (∀ h, Cut s h → Cut s' (h ++ calls)) →
      n'.assocs = Net.update n.assocs c s' → n'.manager = n.manager →
      n'.agenda = calls.map (Prod.mk c) ++ agenda →
      CalmStep n y agenda (.shutdownChild c) n' (calls.map (.assoc c))
  | gone {c : AssocId} {n' : Net} : (∀ s, n.assocs c = some s → s.alive = false) →
      n'.assocs = n.assocs → n'.manager = n.manager → n'.agenda = agenda →
      CalmStep n y agenda (.shutdownChild c) n' [.dangling c]
  | managed {call : Call} {n' : Net} {moves : List (ManagerCall AssocId)} :
      (∀ c, call ≠ .shutdownChild c) → n'.assocs = n.assocs → n'.agenda = agenda →
      SocketManager.Quiet moves →
      (call = .deleteObserver → n'.manager = (n.manager.deleteObserver y).manager) →
      CalmStep n y agenda call n' (moves.map .manager)

theorem calm_step {n n' : Net} {y : AssocId} {call : Call} {agenda : List (AssocId × Call)}
    {o : List NetCall} (inv : n.Inv) (hagenda : n.agenda = (y, call) :: agenda)
    (hcalm : call.calm = true) (step : net.step n .route = some (n', o)) :
    CalmStep n y agenda call n' o := by
  have routed : ({ n with agenda := agenda } : Net).route y call = some (n', o) := by
    rw [← step]
    show _ = n.step .route
    simp only [Net.step, hagenda]
  have silent : ∀ {c : ManagerCall AssocId}, c.put? = none →
      (∀ o e, c ≠ .socketNotify o e) → SocketManager.Quiet [c] := fun hput hnotify =>
    List.forall_mem_singleton.mpr ⟨hput, hnotify⟩
  have nothing : ∀ {call : Call}, (∀ c, call ≠ .shutdownChild c) → call ≠ .deleteObserver →
      CalmStep n y agenda call { n with agenda := agenda }
        (([] : List (ManagerCall AssocId)).map .manager) := fun hshut hdelete =>
    .managed hshut rfl rfl (List.forall_mem_nil _) fun h => absurd h hdelete
  cases call with
  | shutdownChild c =>
    have told := Option.some.inj routed
    rcases Net.tell_eq { n with agenda := agenda } c .shutdown with h | ⟨hnone, h⟩
    · rw [told] at h
      obtain ⟨s, s', calls, hs, hstep, assocs, manager, agenda', rfl⟩ := Net.act_eq h
      have wf := inv.wf c s hs
      exact .shut hs (shutStep wf .shutdown hstep) (fun h cut => cut.step hstep) assocs manager
        agenda'
    · obtain ⟨rfl, rfl⟩ := Prod.mk.inj (told.symm.trans h)
      refine .gone ?_ rfl rfl rfl
      intro s hs
      cases halive : s.alive with
      | false => rfl
      | true =>
        have hstep := step_call (i := .shutdown) halive fun _ => nofun
        simp only [Net.act, hs, hstep] at hnone
        cases hnone
  | deleteObserver =>
    obtain ⟨rfl, rfl⟩ := Prod.mk.inj (Option.some.inj routed)
    exact .managed nofun rfl rfl (silent rfl nofun) fun _ => rfl
  | addObserver =>
    obtain ⟨rfl, rfl⟩ := Prod.mk.inj (Option.some.inj routed)
    exact .managed nofun rfl rfl (silent rfl nofun) nofun
  | maskObserver mask fd =>
    obtain ⟨rfl, rfl⟩ := Prod.mk.inj (Option.some.inj routed)
    exact .managed nofun rfl rfl (List.forall_mem_nil _) nofun
  | csClose cs =>
    obtain ⟨rfl, rfl⟩ := Prod.mk.inj (Option.some.inj routed)
    exact nothing nofun nofun
  | csCreateHost addr cs =>
    obtain ⟨rfl, rfl⟩ := Prod.mk.inj (Option.some.inj routed)
    exact nothing nofun nofun
  | csConnect cs res =>
    obtain ⟨rfl, rfl⟩ := Prod.mk.inj (Option.some.inj routed)
    exact nothing nofun nofun
  | _ => cases hcalm

/-! ## The phases of a closing -/

/-- How far the closing of `x` has come, with the history since it began. -/
inductive Phase (x : AssocId) (n : Net) (h : List NetCall) : Prop
  | pending : Calm n.agenda → n.Shutting x → SocketManager.Quiet (managerHistory h) →
      assocHistory x h = [] → Phase x n h
  | closing {s : Sys} : Calm n.agenda → (x, .deleteObserver) ∈ n.agenda →
      SocketManager.Quiet (managerHistory h) → n.assocs x = some s → Cut s (assocHistory x h) →
      Phase x n h
  | closed {s : Sys} : SocketManager.Fresh x n.manager (managerHistory h) → n.assocs x = some s →
      Cut s (assocHistory x h) → Phase x n h

theorem calm_append {y : AssocId} {calls : List Call} {agenda : List (AssocId × Call)}
    (calm : calls.all Call.calm = true) (rest : Calm agenda) :
    Calm (calls.map (Prod.mk y) ++ agenda) := by
  intro p hp
  rcases List.mem_append.mp hp with hp | hp
  · obtain ⟨c, hc, rfl⟩ := List.mem_map.mp hp
    exact List.all_eq_true.mp calm c hc
  · exact rest p hp

theorem quiet_append {h moves : List (ManagerCall AssocId)} (quiet : SocketManager.Quiet h)
    (more : SocketManager.Quiet moves) : SocketManager.Quiet (h ++ moves) := fun c hc =>
  (List.mem_append.mp hc).elim (quiet c) (more c)

/-- A calm step is quiet for the manager's observers. -/
theorem CalmStep.quiet {n n' : Net} {y : AssocId} {agenda : List (AssocId × Call)} {call : Call}
    {o : List NetCall} (step : CalmStep n y agenda call n' o) :
    SocketManager.Quiet (managerHistory o) := by
  cases step with
  | shut => rw [managerHistory_assoc]; exact List.forall_mem_nil _
  | gone => exact List.forall_mem_nil _
  | managed _ _ _ quiet => rw [managerHistory_manager]; exact quiet

/-- A calm step keeps the agenda calm. -/
theorem CalmStep.calm {n n' : Net} {y : AssocId} {agenda : List (AssocId × Call)} {call : Call}
    {o : List NetCall} (step : CalmStep n y agenda call n' o) (rest : Calm agenda) :
    Calm n'.agenda := by
  cases step with
  | shut _ shut _ _ _ hagenda => rw [hagenda]; exact calm_append shut.calm rest
  | gone _ _ _ hagenda => rw [hagenda]; exact rest
  | managed _ _ hagenda => rw [hagenda]; exact rest

/-- A calm step takes nothing from the agenda but the call it makes. -/
theorem CalmStep.subset {n n' : Net} {y : AssocId} {agenda : List (AssocId × Call)} {call : Call}
    {o : List NetCall} (step : CalmStep n y agenda call n' o) : agenda ⊆ n'.agenda := by
  cases step with
  | shut _ _ _ _ _ hagenda => rw [hagenda]; exact List.subset_append_right _ _
  | gone _ _ _ hagenda => rw [hagenda]; exact List.Subset.refl _
  | managed _ _ hagenda => rw [hagenda]; exact List.Subset.refl _

/-- A calm step leaves the tree as it is. -/
theorem CalmStep.sameTree {n n' : Net} {y : AssocId} {agenda : List (AssocId × Call)} {call : Call}
    {o : List NetCall} (step : CalmStep n y agenda call n' o) : n.SameTree n' := by
  cases step with
  | shut hs shut _ assocs =>
    exact .of_update hs assocs (shut.kept.trans shut.alive.symm) shut.children
  | gone _ assocs => exact .of_eq assocs
  | managed _ assocs => exact .of_eq assocs

/-- A calm step cuts an association that is shut down, and keeps one cut. -/
theorem CalmStep.cut {n n' : Net} {x y : AssocId} {agenda : List (AssocId × Call)} {call : Call}
    {o h : List NetCall} {s : Sys} (step : CalmStep n y agenda call n' o)
    (hs : n.assocs x = some s) (cut : Cut s (assocHistory x h)) :
    ∃ s', n'.assocs x = some s' ∧ Cut s' (assocHistory x (h ++ o)) := by
  rw [assocHistory_append]
  cases step with
  | @shut c t t' calls _ ht shut more assocs =>
    by_cases hx : x = c
    · subst hx
      cases hs.symm.trans ht
      rw [assocHistory_self, assocs]
      exact ⟨t', if_pos rfl, more _ cut⟩
    · rw [assocHistory_other (Ne.symm hx), List.append_nil, assocs]
      exact ⟨s, (if_neg hx).trans hs, cut⟩
  | gone _ assocs => exact ⟨s, assocs ▸ hs, by rwa [assocHistory_dangling, List.append_nil]⟩
  | managed _ assocs => exact ⟨s, assocs ▸ hs, by rwa [assocHistory_manager, List.append_nil]⟩

/-- With a calm agenda that is not empty, the only step is its next call. -/
theorem route_of_agenda {n n' : Net} {i : NetInput} {p : AssocId × Call}
    {agenda : List (AssocId × Call)} {o : List NetCall} (hagenda : n.agenda = p :: agenda)
    (step : net.step n i = some (n', o)) : i = .route := by
  change n.step i = some (n', o) at step
  unfold Net.step at step
  rw [hagenda] at step
  cases i <;> first | rfl | cases step

/-- The agenda leads to `x`, and one call of it is made: it still leads there, or `x` is shut
down. -/
theorem phase_pending {x y : AssocId} {n n' : Net} {call : Call} {agenda : List (AssocId × Call)}
    {h o : List NetCall} (hagenda : n.agenda = (y, call) :: agenda) (rest : Calm agenda)
    (shutting : n.Shutting x) (quiet : SocketManager.Quiet (managerHistory h))
    (unmoved : assocHistory x h = []) (step : CalmStep n y agenda call n' o) :
    Phase x n' (h ++ o) := by
  have quiet' : SocketManager.Quiet (managerHistory (h ++ o)) := by
    rw [managerHistory_append]
    exact quiet_append quiet step.quiet
  have calm' := step.calm rest
  have same := step.sameTree
  have subset := step.subset
  obtain ⟨y', c', hmem, descends⟩ := shutting
  -- where the way to `x` goes on elsewhere in the agenda, it is still there
  have elsewhere : (y', .shutdownChild c') ∈ agenda → n'.Shutting x := fun hmem =>
    ⟨y', c', subset hmem, descends.mono same⟩
  cases step with
  | @shut c s s' calls _ hs shut more assocs manager hagenda' =>
    by_cases hx : x = c
    · subst hx
      refine .closing (s := s') calm' ?_ quiet' (by rw [assocs]; exact if_pos rfl) ?_
      · rw [hagenda']
        exact List.mem_append_left _ (List.mem_map_of_mem shut.deleted)
      · rw [assocHistory_append, unmoved, assocHistory_self, List.nil_append]
        exact shut.cut
    · have unmoved' : assocHistory x (h ++ calls.map (.assoc c)) = [] := by
        rw [assocHistory_append, unmoved, assocHistory_other (Ne.symm hx), List.append_nil]
      refine .pending calm' ?_ quiet' unmoved'
      rcases List.mem_cons.mp (hagenda ▸ hmem) with heq | hmem
      · obtain ⟨-, hc⟩ := Prod.mk.inj heq
        obtain rfl := Call.shutdownChild.inj hc
        cases descends with
        | self => exact absurd rfl hx
        | @child _ c'' _ t ht _ hc'' down =>
          cases hs.symm.trans ht
          refine ⟨c', c'', ?_, down.mono same⟩
          rw [hagenda']
          exact List.mem_append_left _ (List.mem_map_of_mem (shut.all c'' hc''))
      · exact elsewhere hmem
  | @gone c _ hgone assocs =>
    have unmoved' : assocHistory x (h ++ [.dangling c]) = [] := by
      rw [assocHistory_append, unmoved, assocHistory_dangling]
      rfl
    refine .pending calm' ?_ quiet' unmoved'
    rcases List.mem_cons.mp (hagenda ▸ hmem) with heq | hmem
    · obtain ⟨-, hc⟩ := Prod.mk.inj heq
      obtain rfl := Call.shutdownChild.inj hc
      cases descends with
      | self hs halive => exact Bool.noConfusion (halive.symm.trans (hgone _ hs))
      | child hs halive => exact Bool.noConfusion (halive.symm.trans (hgone _ hs))
    · exact elsewhere hmem
  | @managed _ _ moves hother assocs =>
    have unmoved' : assocHistory x (h ++ moves.map .manager) = [] := by
      rw [assocHistory_append, unmoved, assocHistory_manager]
      rfl
    refine .pending calm' ?_ quiet' unmoved'
    rcases List.mem_cons.mp (hagenda ▸ hmem) with heq | hmem
    · exact absurd (Prod.mk.inj heq).2.symm (hother c')
    · exact elsewhere hmem

/-- `x` is to be deleted from the manager, and one call of the agenda is made: it still is, or it
has been. -/
theorem phase_closing {x y : AssocId} {n n' : Net} {call : Call} {agenda : List (AssocId × Call)}
    {h o : List NetCall} {s : Sys} (inv : n.Inv) (hagenda : n.agenda = (y, call) :: agenda)
    (rest : Calm agenda) (deleted : (x, .deleteObserver) ∈ n.agenda)
    (quiet : SocketManager.Quiet (managerHistory h)) (hs : n.assocs x = some s)
    (cut : Cut s (assocHistory x h)) (step : CalmStep n y agenda call n' o) :
    Phase x n' (h ++ o) := by
  have quiet' : SocketManager.Quiet (managerHistory (h ++ o)) := by
    rw [managerHistory_append]
    exact quiet_append quiet step.quiet
  have calm' := step.calm rest
  have subset := step.subset
  obtain ⟨s', hs', cut'⟩ := step.cut hs cut
  rcases List.mem_cons.mp (hagenda ▸ deleted) with heq | hmem
  · obtain ⟨rfl, rfl⟩ := Prod.mk.inj heq
    cases step with
    | managed _ _ _ _ manager =>
      refine .closed ?_ hs' cut'
      rw [manager rfl]
      apply SocketManager.fresh_of_quiet _ _ quiet'
      · exact fun hx => (SocketManager.registered_deleteObserver.mp hx).1 rfl
      · intro ev hev hx
        obtain ⟨hev, other⟩ := SocketManager.mem_queue_deleteObserver.mp hev
        exact other (hx ▸ inv.owned ev hev) hx
  · exact .closing calm' (subset hmem) quiet' hs' cut'

/-- **One step** of the program, whoever makes it. -/
theorem Phase.step {x : AssocId} {n n' : Net} {i : NetInput} {h o : List NetCall} (inv : n.Inv)
    (phase : Phase x n h) (step : net.step n i = some (n', o)) : Phase x n' (h ++ o) := by
  cases phase with
  | pending calm shutting quiet unmoved =>
    obtain ⟨y, c, hmem, -⟩ := id shutting
    obtain ⟨⟨y', call⟩, agenda, hagenda⟩ := List.exists_cons_of_ne_nil (List.ne_nil_of_mem hmem)
    cases route_of_agenda hagenda step
    have head := calm (y', call) (hagenda ▸ List.mem_cons_self)
    have rest : Calm agenda := fun p hp => calm p (hagenda ▸ List.mem_cons_of_mem _ hp)
    exact phase_pending hagenda rest shutting quiet unmoved (calm_step inv hagenda head step)
  | closing calm deleted quiet hs cut =>
    obtain ⟨⟨y', call⟩, agenda, hagenda⟩ := List.exists_cons_of_ne_nil (List.ne_nil_of_mem deleted)
    cases route_of_agenda hagenda step
    have head := calm (y', call) (hagenda ▸ List.mem_cons_self)
    have rest : Calm agenda := fun p hp => calm p (hagenda ▸ List.mem_cons_of_mem _ hp)
    exact phase_closing inv hagenda rest deleted quiet hs cut (calm_step inv hagenda head step)
  | closed fresh hs cut =>
    have fresh' : SocketManager.Fresh x n'.manager (managerHistory (h ++ o)) := by
      rw [managerHistory_append]
      have moved := Net.moved_of_step inv step
      generalize managerHistory o = moves, n'.manager = m at moved ⊢
      cases moved with
      | still => simpa only [List.append_nil] using fresh
      | step _ hstep => exact fresh.step hstep
    rcases Net.assoc_step inv step x with ⟨same, none⟩ | ⟨j, t, t', ht, hj, ht', -⟩ | ⟨hnone, -⟩
    · refine .closed fresh' (same.trans hs) ?_
      rwa [assocHistory_append, none, List.append_nil]
    · cases hs.symm.trans ht
      refine .closed fresh' ht' ?_
      rw [assocHistory_append]
      exact cut.step hj
    · cases hs.symm.trans hnone

/-! ## The result -/

theorem isolated_of_phase {x : AssocId} {n : Net} {h : List NetCall} (phase : Phase x n h) :
    Isolated x h := by
  cases phase with
  | pending _ _ quiet unmoved =>
    refine ⟨fun event => (quiet.inTurn x event).1, fun event => (quiet.inTurn x event).2,
      ?_, ?_, ?_, ?_⟩ <;> rw [unmoved]
    · exact fun _ _ _ => .nil
    · exact fun _ _ => .nil
    · exact fun _ _ => .nil
    · exact fun _ _ _ => .nil
  | closing _ _ quiet _ cut =>
    exact ⟨fun event => (quiet.inTurn x event).1, fun event => (quiet.inTurn x event).2,
      cut.got, cut.heard, cut.queued, cut.written⟩
  | closed fresh _ cut =>
    exact ⟨fresh.put, fresh.notified, cut.got, cut.heard, cut.queued, cut.written⟩

/-- The call itself begins the closing of the association and of its descendants. -/
theorem phase_call {x id : AssocId} {n n₁ : Net} {i : Input} {o : List NetCall} (inv : n.Inv)
    (shuts : i.Shuts) (call : net.step n (.call id i) = some (n₁, o))
    (descends : n.Descends id x) : Phase x n₁ o := by
  have acted : n.agenda = [] ∧ n.act id i = some (n₁, o) := by
    change n.step (.call id i) = some (n₁, o) at call
    unfold Net.step at call
    cases hagenda : n.agenda with
    | cons p agenda =>
      rw [hagenda] at call
      cases call
    | nil =>
      rw [hagenda] at call
      have hpublic : i.public = true := by cases shuts <;> rfl
      simp only [hpublic, if_true] at call
      exact ⟨rfl, call⟩
  obtain ⟨hnone, hact⟩ := acted
  obtain ⟨s, s', calls, hs, hstep, assocs, -, hagenda, rfl⟩ := Net.act_eq hact
  have shut := shutStep (inv.wf id s hs) shuts hstep
  have calm : Calm n₁.agenda := by
    rw [hagenda, hnone]
    exact calm_append shut.calm (List.forall_mem_nil _)
  have quiet : SocketManager.Quiet (managerHistory (calls.map (.assoc id))) := by
    rw [managerHistory_assoc]
    exact List.forall_mem_nil _
  by_cases hx : x = id
  · subst hx
    refine .closing (s := s') calm ?_ quiet (by rw [assocs]; exact if_pos rfl) ?_
    · rw [hagenda]
      exact List.mem_append_left _ (List.mem_map_of_mem shut.deleted)
    · rw [assocHistory_self]
      exact shut.cut
  · refine .pending calm ?_ quiet (assocHistory_other (Ne.symm hx) calls)
    cases descends with
    | self => exact absurd rfl hx
    | @child _ c _ t ht _ hc down =>
      cases hs.symm.trans ht
      refine ⟨id, c, ?_, down.mono (.of_update hs assocs (shut.kept.trans shut.alive.symm)
        shut.children)⟩
      rw [hagenda]
      exact List.mem_append_left _ (List.mem_map_of_mem (shut.all c hc))

/-- **A connection is isolated** from the one before it: in every run of a program, wherever
`shutdown` or `connect` is called on an association, from outside or from inside any callback. From
that call on, whatever happens, the association and every descendant of it hear and send nothing of
the connection they had. -/
theorem connection_isolated {is : List NetInput} {n : Net} {h : List NetCall}
    (run : net.Run Net.Born is n h) {id : AssocId} {i : Input} (shuts : i.Shuts) {n₁ : Net}
    {o : List NetCall} (call : net.step n (.call id i) = some (n₁, o)) {js : List NetInput}
    {n₂ : Net} {k : List NetCall} (later : net.exec n₁ js = some (n₂, k)) {x : AssocId}
    (descends : n.Descends id x) : Isolated x (o ++ k) := by
  have inv := Net.inv_run run
  have last := Machine.exec_invariant (fun n h => n.Inv ∧ Phase x n h)
    (fun _ _ _ _ _ now step => ⟨now.1.step step, now.2.step now.1 step⟩)
    ⟨inv.step call, phase_call inv shuts call descends⟩ later
  exact isolated_of_phase last.2

/-- A listener and its session, both found ready by one poll. The session is notified first, and
its `recv_PDU` is running with the listener's event still queued. -/
def bothReady : List NetInput :=
  sessionOpened ++
  [.processEvent 101 [{ res := 2, output := [{ read := true }, { read := true }] }] 101
    { get := { res := 3 }, getBuf := [1, 2, 3] }] ++ List.replicate 2 .route

/-- The `shutdown` of the listener, to its end, the return of `recv_PDU`, and a `processEvent`. -/
def listenerShut : List NetInput :=
  List.replicate 5 .route ++ [.ret { more := true }, .processEvent 102 [] 102 {}]

/-- The listener is shut down inside the session's `recv_PDU`: its event goes with it, and the
session reads no more, though its COMSTACK has more to give. -/
theorem connection_isolated_session : ∃ n h n₁ o n₂ k, net.Run Net.Born bothReady n h ∧
    n.manager.queue = [{ observer := 1, event := observeRead }] ∧
    net.step n (.call 1 .shutdown) = some (n₁, o) ∧ net.exec n₁ listenerShut = some (n₂, k) ∧
    n₂.manager.observers = [] ∧ n₂.manager.queue = [] ∧
    Isolated 1 (o ++ k) ∧ Isolated 2 (o ++ k) := by
  have computed : ∃ n h, net.Run Net.Born bothReady n h ∧
      ((n.assocs 1).map (fun s => (s.alive, s.assoc.children)), (n.assocs 2).map Sys.alive,
        n.manager.queue, (net.exec n (.call 1 .shutdown :: listenerShut)).map
          fun last => (last.1.manager.observers, last.1.manager.queue)) =
      (some (true, [2]), some true, [{ observer := 1, event := observeRead }], some ([], [])) :=
    Machine.Run.of_exec net_born rfl
  obtain ⟨n, h, run, read⟩ := computed
  simp only [Prod.mk.injEq] at read
  obtain ⟨hlistener, hsession, hqueue, hlast⟩ := read
  obtain ⟨s, hs, hs'⟩ := Option.map_eq_some_iff.mp hlistener
  obtain ⟨halive, hchildren⟩ := Prod.mk.inj hs'
  obtain ⟨t, ht, ht'⟩ := Option.map_eq_some_iff.mp hsession
  obtain ⟨⟨n₂, k'⟩, hexec, hend⟩ := Option.map_eq_some_iff.mp hlast
  obtain ⟨n₁, o, k, call, later, -⟩ := Machine.exec_cons.mp hexec
  obtain ⟨hobservers, hempty⟩ := Prod.mk.inj hend
  refine ⟨n, h, n₁, o, n₂, k, run, hqueue, call, later, hobservers, hempty, ?_, ?_⟩
  · exact connection_isolated run .shutdown call later (.self hs halive)
  · exact connection_isolated run .shutdown call later
      (.child hs halive (hchildren ▸ List.mem_singleton_self 2) (.self ht ht'))

end Yazpp
