import Yazpp.Net.Spec
import Yazpp.PduAssoc.Destroy

/-!
# Associations deleted in a program

An association of a program is deleted by `~Z_Assoc`, wherever the application is when it does that,
by the `destroy()` of its parent, or when a session is refused. `Net.tells` is the condition on the
step that deletes it: who still runs in it is told. In every run whose steps all meet the condition,
`socketNotify` does nothing in a deleted association behind `recv_PDU` or `connectNotify`, and a
receive loop of a deleted association finds its flag set (`no_use_after_delete`). And in no other: a
run with a step that does not meet it has used the association when every callback has returned
(`tells_of_safe`).

A program that destroys an association inside its `connectNotify` does not meet it, nor one that
destroys a listener inside the `recv_PDU` of a session (`use_after_delete`).
-/

set_option autoImplicit false

namespace Yazpp

open Yazpp.Lib

/-- What is done behind `recv_PDU` and `connectNotify` is done in associations that are there, and
the local `destroyed` of a receive loop is 1 when its association was deleted. -/
structure Net.Safe (n : Net) (h : List NetCall) : Prop where
  unread : ∀ id f, .assoc id (.useAfterDelete f) ∈ h →
    f ≠ .connect ∧ ∀ destroyed, f ≠ .recv destroyed
  flagged : ∀ id s, n.assocs id = some s → s.alive = false →
    ∀ destroyed, .recv destroyed ∈ s.frames → destroyed = true

/-- The condition on a step: where it deletes an association, every receive loop and
`connectNotify` that runs in it is told. -/
def Net.tells (n : Net) (i : NetInput) : Bool :=
  match n.deletes i with
  | none => true
  | some (id, j) =>
    match n.assocs id with
    | none => true
    | some s => j.tells s

/-- The condition on the step of a program is the condition on the step of the association. -/
theorem tells_of_net {n : Net} {i : NetInput} {id : AssocId} {j : Input} {s : Sys}
    (tells : n.tells i = true) (hs : n.assocs id = some s)
    (ends : j.ends = true → n.deletes i = some (id, j)) : j.tells s = true := by
  cases hj : j.ends with
  | true => simpa only [Net.tells, ends hj, hs] using tells
  | false => cases j <;> first | rfl | cases hj

theorem mem_assocHistory {id : AssocId} {c : Call} {h : List NetCall} :
    c ∈ assocHistory id h ↔ .assoc id c ∈ h := by
  simp only [assocHistory, List.mem_filterMap]
  constructor
  · rintro ⟨d, hd, hc⟩
    cases d with
    | assoc id' c' =>
      simp only [NetCall.ofAssoc] at hc
      split at hc
      · next hid =>
        cases hc
        exact hid ▸ hd
      · cases hc
    | manager c' => cases hc
    | dangling id' => cases hc
  · intro hmem
    exact ⟨_, hmem, by simp only [NetCall.ofAssoc, if_true]⟩

/-- **One step** that meets the condition leaves nobody behind in any association. -/
theorem quit_step {n n' : Net} {i : NetInput} {o : List NetCall} (inv : n.Inv)
    (quit : ∀ id s, n.assocs id = some s → s.Quit) (tells : n.tells i = true)
    (step : net.step n i = some (n', o)) : (∀ id s, n'.assocs id = some s → s.Quit) ∧
      ∀ id f, .assoc id (.useAfterDelete f) ∈ o → ∃ child, f = .session child := by
  have local_step : ∀ id, (∀ s, n'.assocs id = some s → s.Quit) ∧
      ∀ f, .useAfterDelete f ∈ assocHistory id o → ∃ child, f = .session child := by
    intro id
    rcases Net.assoc_step inv step id with ⟨same, none⟩ | ⟨j, s, s', hs, hj, hs', ends, -⟩ |
      ⟨-, s, hs, born⟩
    · rw [same, none]
      exact ⟨quit id, fun f hf => absurd hf List.not_mem_nil⟩
    · obtain ⟨quit', unread⟩ := (quit id s hs).step (tells_of_net tells hs ends) hj
      refine ⟨fun t ht => ?_, unread⟩
      cases hs'.symm.trans ht
      exact quit'
    · refine ⟨fun t ht => ?_, fun f hf => absurd hf ((quit_born born).2 f)⟩
      cases hs.symm.trans ht
      exact (quit_born born).1
  exact ⟨fun id => (local_step id).1, fun id f hf => (local_step id).2 f (mem_assocHistory.mpr hf)⟩

/-- **No step on a deleted association**: in every run whose steps all meet the condition, whatever
the observers do inside their callbacks. -/
theorem no_use_after_delete {is : List NetInput} {n : Net} {h : List NetCall}
    (run : (net.restrict Net.tells).Run Net.Born is n h) : n.Safe h := by
  have inv := run.invariant_restrict
    (fun n h => n.Inv ∧ (∀ id s, n.assocs id = some s → s.Quit) ∧
      ∀ id f, .assoc id (.useAfterDelete f) ∈ h → ∃ child, f = .session child)
    (by
      intro n h born
      refine ⟨Net.inv_born born, fun id s hs => absurd hs (Net.born_vacant born id s), ?_⟩
      intro id f hf
      obtain ⟨-, rfl⟩ := born
      exact absurd hf List.not_mem_nil)
    (by
      rintro n h i n' o ⟨inv, quit, unread⟩ tells step
      obtain ⟨quit', unread'⟩ := quit_step inv quit tells step
      refine ⟨inv.step step, quit', fun id f hf => ?_⟩
      exact (List.mem_append.mp hf).elim (unread id f) (unread' id f))
  obtain ⟨-, quit, unread⟩ := inv
  refine ⟨?_, ?_⟩
  · intro id f hf
    obtain ⟨child, rfl⟩ := unread id f hf
    exact ⟨nofun, nofun⟩
  · intro id s hs hdead destroyed hf
    exact quit id s hs hdead _ hf

/-! ## The converse -/

/-- Somebody goes on in a deleted association, or will when the callback it waits for returns. -/
def Net.Left (n : Net) (h : List NetCall) : Prop :=
  (∃ id s, n.assocs id = some s ∧ ¬ s.Quit) ∨
    ∃ id f, f.harmless = false ∧ .assoc id (.useAfterDelete f) ∈ h

/-- Whatever happens next, it stays so. -/
theorem Net.Left.step {n n' : Net} {i : NetInput} {h o : List NetCall} (left : n.Left h)
    (inv : n.Inv) (step : net.step n i = some (n', o)) : n'.Left (h ++ o) := by
  rcases left with ⟨id, s, hs, left⟩ | ⟨id, f, harms, used⟩
  · rcases Net.assoc_step inv step id with ⟨same, -⟩ | ⟨j, t, t', ht, hj, ht', -⟩ | ⟨hnone, -⟩
    · exact .inl ⟨id, s, same.trans hs, left⟩
    · cases hs.symm.trans ht
      rcases Sys.left_step left hj with left' | ⟨f, harms, used⟩
      · exact .inl ⟨id, t', ht', left'⟩
      · exact .inr ⟨id, f, harms, List.mem_append_right _ (mem_assocHistory.mp used)⟩
    · cases hs.symm.trans hnone
  · exact .inr ⟨id, f, harms, List.mem_append_left _ used⟩

/-- What a deleting step does to the association it deletes: the deletion, or nothing where a
`delete` finds the association gone already. -/
theorem deleted_of_step {n n' : Net} {i : NetInput} {o : List NetCall} {id : AssocId} {j : Input}
    {s : Sys} (deletes : n.deletes i = some (id, j)) (hs : n.assocs id = some s)
    (step : net.step n i = some (n', o)) :
    (j.ends = true ∧ ∃ s' calls, pdu.step s j = some (s', calls) ∧ n'.assocs id = some s') ∨
      j = .delete ∧ s.alive = false ∧ n'.assocs id = some s := by
  have acted : ∀ {m : Net} {next : Net × List NetCall}, m.assocs = n.assocs →
      m.act id j = some next →
      ∃ s' calls, pdu.step s j = some (s', calls) ∧ next.1.assocs id = some s' := by
    intro m next assocs act
    obtain ⟨t, s', calls, ht, hstep, hassocs, -⟩ := Net.act_eq act
    cases (assocs ▸ ht).symm.trans hs
    exact ⟨s', calls, hstep, hassocs ▸ if_pos rfl⟩
  change n.step i = some (n', o) at step
  unfold Net.deletes at deletes
  split at deletes
  · cases deletes
    cases hagenda : n.agenda with
    | nil =>
      simp only [Net.step, hagenda, Input.public, if_true] at step
      exact .inl ⟨rfl, acted rfl step⟩
    | cons c agenda => simp only [Net.step, hagenda, reduceCtorEq] at step
  · split at deletes
    · next owner child agenda hagenda =>
      cases deletes
      simp only [Net.step, hagenda, Net.route, Option.some.injEq] at step
      rcases Net.tell_eq { n with agenda := agenda } id .delete with act | ⟨refused, gone⟩
      · rw [step] at act
        exact .inl ⟨rfl, acted (m := { n with agenda := agenda }) rfl act⟩
      · rw [gone] at step
        obtain ⟨rfl, -⟩ := Prod.mk.inj step
        refine .inr ⟨rfl, ?_, hs⟩
        cases halive : s.alive with
        | false => rfl
        | true =>
          simp only [Net.act, hs, step_call halive (i := .delete) (fun ans h => by cases h),
            reduceCtorEq] at refused
    · cases deletes
  · cases deletes

/-- **A step that does not meet the condition** leaves somebody behind. -/
theorem left_of_untold {n n' : Net} {i : NetInput} {o : List NetCall} (untold : n.tells i = false)
    (step : net.step n i = some (n', o)) : ∃ id s, n'.assocs id = some s ∧ ¬ s.Quit := by
  unfold Net.tells at untold
  split at untold
  · cases untold
  next id j deletes =>
  split at untold
  · cases untold
  next s hs =>
  rcases deleted_of_step deletes hs step with ⟨ends, s', calls, hstep, hs'⟩ | ⟨rfl, hdead, hs'⟩
  · refine ⟨id, s', hs', fun quit => ?_⟩
    have told := (tells_iff ends hstep).mpr (quit (dead_of_ends ends hstep))
    exact Bool.noConfusion (untold.symm.trans told)
  · refine ⟨id, s, hs', fun quit => ?_⟩
    exact Bool.noConfusion (untold.symm.trans (told_null.mpr (quit hdead)))

/-- **The converse**: a run that deletes an association where somebody who runs in it is not told
has used it by the time every callback has returned. -/
theorem tells_of_safe {is : List NetInput} {n : Net} {h : List NetCall}
    (run : net.Run Net.Born is n h) (returned : ∀ id s, n.assocs id = some s → s.frames = [])
    (safe : n.Safe h) : (net.restrict Net.tells).Run Net.Born is n h := by
  have told : (net.restrict Net.tells).Run Net.Born is n h ∨ n.Left h := by
    clear returned safe
    induction run with
    | start born => exact .inl (.start born)
    | @step is n n' h o i run hstep ih =>
      rcases ih with told | left
      · cases tells : n.tells i with
        | true => exact .inl (told.step (Machine.restrict_step.mpr ⟨tells, hstep⟩))
        | false => exact .inr (.inl (left_of_untold tells hstep))
      · exact .inr (left.step (Net.inv_run run) hstep)
  rcases told with told | ⟨id, s, hs, left⟩ | ⟨id, f, harms, used⟩
  · exact told
  · refine absurd (fun _ f hf => ?_) left
    rw [returned id s hs] at hf
    cases hf
  · obtain ⟨behind, reads⟩ := safe.unread id f used
    cases f with
    | recv destroyed => exact absurd rfl (reads destroyed)
    | connect => exact absurd rfl behind
    | session child => cases harms
    | tail => cases harms

/-! ## A listener, a session, and a connection -/

/-- The session of a listener, and its `recv_PDU` running. -/
def sessionReceives : List NetInput :=
  sessionOpened ++ [.processEvent 101 [{ res := 1, output := [{ read := true }, {}] }] 101
    { get := { res := 3 }, getBuf := [1, 2, 3] }] ++ List.replicate 2 .route

/-- The listener is destroyed inside the session's `recv_PDU`, and `recv_PDU` returns. -/
def listenerDestroyed : List NetInput :=
  sessionReceives ++ [.call 1 .destroy] ++ List.replicate 6 .route ++ [.ret {}]

/-- The session destroys itself inside its `recv_PDU`, and `recv_PDU` returns. -/
def sessionDestroyed : List NetInput :=
  sessionReceives ++ [.call 2 .destroy] ++ List.replicate 3 .route ++ [.ret {}]

/-- A connection is destroyed inside its `connectNotify`, and `connectNotify` returns. -/
def connectionDestroyed : List NetInput :=
  [.new 1, .call 1 (.connect 1 "tcp:host:210" 1 {})] ++ List.replicate 5 .route ++
  [.processEvent 100 [{ res := 1, output := [{ write := true }] }] 100 {}] ++
  List.replicate 2 .route ++ [.call 1 .destroy] ++ List.replicate 2 .route ++ [.ret {}]

/-- **Two programs that use a deleted association**: destroyed inside its own `connectNotify`, and
deleted by the `destroy()` of its parent inside its `recv_PDU`. In the second the flag of the
receive loop is 0 when the parent has deleted the session. -/
theorem use_after_delete :
    (¬ ∀ is n h, net.Run Net.Born is n h → n.Safe h) ∧
      (∃ n h, net.Run Net.Born connectionDestroyed n h ∧
        .assoc 1 (.useAfterDelete .connect) ∈ h) ∧
      ∃ n h, net.Run Net.Born listenerDestroyed n h ∧
        .assoc 2 (.useAfterDelete (.recv false)) ∈ h := by
  have connection : ∃ n h, net.Run Net.Born connectionDestroyed n h ∧
      decide (.assoc 1 (.useAfterDelete .connect) ∈ h) = true :=
    Machine.Run.of_exec net_born rfl
  have listener : ∃ n h, net.Run Net.Born listenerDestroyed n h ∧
      decide (.assoc 2 (.useAfterDelete (.recv false)) ∈ h) = true :=
    Machine.Run.of_exec net_born rfl
  obtain ⟨n, h, run, used⟩ := connection
  obtain ⟨n', h', run', used'⟩ := listener
  refine ⟨?_, ⟨n, h, run, of_decide_eq_true used⟩, n', h', run', of_decide_eq_true used'⟩
  intro claim
  exact ((claim _ n h run).unread 1 .connect (of_decide_eq_true used)).1 rfl

/-- A session that destroys itself inside its `recv_PDU` meets the condition. -/
theorem no_use_after_delete_session : ∃ n h,
    (net.restrict Net.tells).Run Net.Born sessionDestroyed n h ∧
      ((n.assocs 2).map Sys.alive = some false) ∧ n.Safe h := by
  have run : ∃ n h, (net.restrict Net.tells).Run Net.Born sessionDestroyed n h ∧
      (n.assocs 2).map Sys.alive = some false :=
    Machine.Run.of_exec net_born rfl
  obtain ⟨n, h, run, dead⟩ := run
  exact ⟨n, h, run, dead, no_use_after_delete run⟩

end Yazpp
