import Yazpp.PduAssoc.Spec

/-!
# An association deleted inside a callback

`destroy()` writes through `m_p->destroyed`, and the receive loop that it points to stops. That is
the only thing a running callback is told by. A `connectNotify` has no such flag; a `delete` without
`destroy()`, as the parent makes it, writes no flag; and a receive loop inside another takes the
pointer away from it, and leaves none when it returns.

`told` is the exact condition: the frames that would go on in the association are told of its end
(`tells_iff`). A step that meets it leaves nobody behind that reads a deleted association. What
`destroy()` writes through is there, unless a PDU was read without an observer (`no_strayWrite`).
-/

set_option autoImplicit false

namespace Yazpp

open Yazpp.Lib

/-! ## What `socketNotify` does behind its callbacks -/

/-- Whether nothing of `socketNotify` behind `recv_PDU` or `connectNotify` would be done: the frame
of a receive loop whose flag is set, or of another callback. -/
def Frame.harmless : Frame → Bool
  | .recv destroyed => destroyed
  | .connect => false
  | _ => true

/-- What does not read the object does nothing to it. -/
theorem harmless_of_not_reads {f : Frame} (unread : f.reads = false) : f.harmless = true := by
  cases f with
  | recv destroyed =>
    cases destroyed with
    | true => rfl
    | false => cases unread
  | tail => rfl
  | connect => cases unread
  | session child => rfl

/-- Whether every running receive loop and `connectNotify` is told when the object ends, where
`pointer` is what `destroy()` writes through: there is one receive loop at most that is not told
already, and the pointer points to it. -/
def told (pointer : DestroyedPtr) : List Frame → Bool
  | [] => true
  | .recv false :: fs => (pointer == .loop fs.length) && told pointer fs
  | .connect :: _ => false
  | _ :: fs => told pointer fs

/-- A pointer to none of the frames tells none of them. -/
theorem told_elsewhere {pointer : DestroyedPtr} {fs : List Frame}
    (elsewhere : ∀ depth, pointer = .loop depth → fs.length ≤ depth) :
    told pointer fs = told .null fs := by
  induction fs with
  | nil => rfl
  | cons f fs ih =>
    have shorter := ih fun depth h => Nat.le_of_succ_le (elsewhere depth h)
    have other : (pointer == .loop fs.length) = false := by
      rw [beq_eq_false_iff_ne]
      intro h
      have above := elsewhere _ h
      simp only [List.length_cons] at above
      omega
    cases f with
    | recv destroyed =>
      cases destroyed with
      | true => exact shorter
      | false =>
        simp only [told, other, Bool.false_and]
        rfl
    | connect => rfl
    | session child => exact shorter
    | tail => exact shorter

theorem told_null {fs : List Frame} : told .null fs = true ↔ ∀ f ∈ fs, f.harmless = true := by
  induction fs with
  | nil => exact ⟨fun _ => List.forall_mem_nil _, fun _ => rfl⟩
  | cons f fs ih =>
    rw [List.forall_mem_cons, ← ih]
    cases f with
    | recv destroyed =>
      cases destroyed with
      | true => exact ⟨fun h => ⟨rfl, h⟩, fun h => h.2⟩
      | false => exact ⟨fun h => Bool.noConfusion h, fun h => Bool.noConfusion h.1⟩
    | connect => exact ⟨fun h => Bool.noConfusion h, fun h => Bool.noConfusion h.1⟩
    | session child => exact ⟨fun h => ⟨rfl, h⟩, fun h => h.2⟩
    | tail => exact ⟨fun h => ⟨rfl, h⟩, fun h => h.2⟩

/-- The write through the pointer leaves nobody untold exactly under the condition. -/
theorem told_loop {depth : Nat} {fs : List Frame} :
    told (.loop depth) fs = true ↔ ∀ f ∈ setDestroyed depth fs, f.harmless = true := by
  induction fs with
  | nil => exact ⟨fun _ => List.forall_mem_nil _, fun _ => rfl⟩
  | cons f fs ih =>
    by_cases here : fs.length = depth
    · -- the pointer points to this frame, and those below it are on their own
      have below : told (.loop depth) fs = told .null fs := by
        refine told_elsewhere ?_
        rintro _ ⟨⟩
        exact Nat.le_of_eq here
      simp only [setDestroyed, here, if_true]
      rw [List.forall_mem_cons, ← told_null, ← below]
      cases f with
      | recv destroyed =>
        cases destroyed with
        | true => exact ⟨fun h => ⟨rfl, h⟩, fun h => h.2⟩
        | false => simp only [told, here, BEq.rfl, Bool.true_and, Frame.harmless, true_and]
      | connect => exact ⟨fun h => Bool.noConfusion h, fun h => Bool.noConfusion h.1⟩
      | session child => exact ⟨fun h => ⟨rfl, h⟩, fun h => h.2⟩
      | tail => exact ⟨fun h => ⟨rfl, h⟩, fun h => h.2⟩
    · have other : (DestroyedPtr.loop depth == .loop fs.length) = false :=
        beq_eq_false_iff_ne.mpr fun h => here (DestroyedPtr.loop.inj h).symm
      simp only [setDestroyed, here, if_false]
      rw [List.forall_mem_cons, ← ih]
      cases f with
      | recv destroyed =>
        cases destroyed with
        | true => exact ⟨fun h => ⟨rfl, h⟩, fun h => h.2⟩
        | false => simp only [told, other, Bool.false_and, Bool.false_eq_true, Frame.harmless,
            false_and]
      | connect => exact ⟨fun h => Bool.noConfusion h, fun h => Bool.noConfusion h.1⟩
      | session child => exact ⟨fun h => ⟨rfl, h⟩, fun h => h.2⟩
      | tail => exact ⟨fun h => ⟨rfl, h⟩, fun h => h.2⟩

/-! ## One step -/

/-- The condition on a step: where it deletes the object, every running receive loop and
`connectNotify` is told. -/
def Input.tells (s : Sys) : Input → Bool
  | .destroy => told s.assoc.destroyed s.frames
  | .delete => told .null s.frames
  | _ => true

/-- Nobody is left that would go on in a deleted object. -/
def Sys.Quit (s : Sys) : Prop := s.alive = false → ∀ f ∈ s.frames, f.harmless = true

/-- A call that a function makes; the others stand for what is undefined. -/
def Call.made : Call → Bool
  | .useAfterDelete _ | .strayWrite => false
  | _ => true

theorem made_shutdown (a : PduAssoc) : a.shutdown.calls.all Call.made = true :=
  a.all_shutdown_calls (fun _ => rfl) rfl fun _ => rfl

theorem made_flushPdu (ans : Answers) (a : PduAssoc) :
    (a.flushPdu ans).calls.all Call.made = true := by
  have shut := made_shutdown
  have fl := PduAssoc.flushPdu_flushed ans a
  generalize a.flushPdu ans = o at fl
  cases fl <;> simp [shut, Call.made]

theorem made_receive (ans : Answers) (depth : Nat) (a : PduAssoc) :
    (a.receive ans depth).calls.all Call.made = true := by
  have shut := made_shutdown
  have rc := PduAssoc.receive_received ans depth a
  generalize a.receive ans depth = o at rc
  cases rc <;> simp [shut, Call.made]

theorem made_resume (f : Frame) (ans : Answers) (depth : Nat) (a : PduAssoc) :
    (a.resume f ans depth).calls.all Call.made = true := by
  cases f with
  | recv destroyed =>
    cases destroyed with
    | true => rfl
    | false =>
      have rs := PduAssoc.resumeRecv_resumed ans depth a
      simp only [PduAssoc.resume]
      generalize a.resumeRecv ans depth = o at rs
      cases rs <;> simp [made_receive, Call.made]
  | connect => exact made_flushPdu ans a
  | session child =>
    simp only [PduAssoc.resume, PduAssoc.resumeSession]
    split <;> rfl
  | tail => rfl

theorem made_socketNotify (event : Nat) (ans : Answers) (depth : Nat) (a : PduAssoc) :
    (a.socketNotify event ans depth).calls.all Call.made = true := by
  have shut := made_shutdown
  have nt := PduAssoc.socketNotify_notified event ans depth a
  generalize a.socketNotify event ans depth = o at nt
  cases nt with
  | listened =>
    have ls := PduAssoc.notifyListen_listened event ans a
    generalize a.notifyListen event ans = o at ls
    cases ls <;> rfl
  | writing => exact made_flushPdu ans a
  | ready => exact made_receive ans depth a
  | _ => simp [shut, made_flushPdu, Call.made]

theorem made_outcome {i : Input} (other : i ≠ .destroy) (depth : Nat) (a : PduAssoc) :
    (i.outcome a depth).calls.all Call.made = true := by
  have shut := made_shutdown
  cases i with
  | connect observer addr cs ans =>
    have ct := PduAssoc.connect_connected observer addr cs ans a
    simp only [Input.outcome]
    generalize a.connect observer addr cs ans = o at ct
    cases ct <;> simp [shut, Call.made]
  | listen observer addr cs ans =>
    have lm := PduAssoc.listen_made observer addr cs ans a
    simp only [Input.outcome]
    generalize a.listen observer addr cs ans = o at lm
    cases lm with
    | stopped =>
      simp only [PduAssoc.teardown]
      split <;> rfl
    | unbound cert => cases cert <;> simp [shut, Call.made]
    | bound cert => cases cert <;> simp [shut, Call.made]
    | refused => simp [shut, Call.made]
  | sendPdu buf ans =>
    have st := PduAssoc.sendPdu_sent buf ans a
    simp only [Input.outcome]
    generalize a.sendPdu buf ans = o at st
    cases st <;> simp [made_flushPdu, Call.made]
  | closeSession =>
    simp only [Input.outcome, PduAssoc.closeSession]
    split <;> simp [shut, Call.made]
  | shutdown => exact shut a
  | destroy => exact absurd rfl other
  | socketNotify event ans => exact made_socketNotify event ans depth a
  | unlink child =>
    simp only [Input.outcome, PduAssoc.unlink]
    split <;> rfl
  | _ => rfl

/-- What is undefined in `destroy` is the write through a pointer that is left behind. -/
theorem made_destroy {a : PduAssoc} {c : Call} (hc : c ∈ a.destroy.calls) :
    c.made = true ∨ c = .strayWrite ∧ a.destroyed = .dangling := by
  simp only [PduAssoc.destroy, List.mem_append] at hc
  rcases hc with ((hc | hc) | hc) | hc
  · exact .inl (List.all_eq_true.mp (made_shutdown a) c hc)
  · rcases a.strays_cases with ⟨-, h⟩ | ⟨dangling, -⟩
    · rw [h] at hc
      cases hc
    · exact .inr ⟨PduAssoc.mem_strays hc, dangling⟩
  · obtain ⟨parent, -, rfl⟩ := Option.map_eq_some_iff.mp (Option.mem_toList.mp hc)
    exact .inl rfl
  · obtain ⟨child, -, rfl⟩ := List.mem_map.mp hc
    exact .inl rfl

/-- A call that does not end the object leaves it alive. -/
theorem alive_of_not_ends {s : Sys} {i : Input} (halive : s.alive = true) (hi : i.ends = false) :
    ((s.perform (i.outcome s.assoc s.frames.length)).1.bury i).alive = true := by
  rw [Sys.bury_alive, hi]
  exact halive

/-- A call that ends the object leaves it gone. -/
theorem dead_of_ends {s s' : Sys} {i : Input} {o : List Call} (ends : i.ends = true)
    (step : pdu.step s i = some (s', o)) : s'.alive = false := by
  cases stepped_of_step step with
  | call => rw [Sys.bury_alive, ends, Bool.not_true, Bool.false_and]
  | back => cases ends
  | dead => cases ends

/-- **The exact condition**: a step that ends the object leaves nobody behind if and only if those
who run are told. -/
theorem tells_iff {s s' : Sys} {i : Input} {o : List Call} (ends : i.ends = true)
    (step : pdu.step s i = some (s', o)) :
    i.tells s = true ↔ ∀ f ∈ s'.frames, f.harmless = true := by
  cases stepped_of_step step with
  | call =>
    cases i with
    | destroy =>
      have same : (s.perform (s.assoc.destroy)).1.assoc.destroyed = s.assoc.destroyed := rfl
      show told s.assoc.destroyed s.frames = true ↔
        ∀ f ∈ ((s.perform s.assoc.destroy).1.bury .destroy).frames, f.harmless = true
      unfold Sys.bury
      rw [same]
      cases hd : s.assoc.destroyed with
      | null => exact told_null
      | loop depth => exact told_loop
      | dangling =>
        have elsewhere : told .dangling s.frames = told .null s.frames :=
          told_elsewhere fun depth h => by cases h
        rw [elsewhere]
        exact told_null
    | delete => exact told_null
    | _ => cases ends
  | back => cases ends
  | dead => cases ends

/-- **One step** that meets the condition: nobody is left behind, and what is done behind a
callback in a deleted object is not done by a receive loop or behind `connectNotify`. -/
theorem Sys.Quit.step {s s' : Sys} {i : Input} {o : List Call} (quit : s.Quit)
    (tells : i.tells s = true) (step : pdu.step s i = some (s', o)) :
    s'.Quit ∧ ∀ f, .useAfterDelete f ∈ o → ∃ child, f = .session child := by
  have made : ∀ {calls : List Call}, calls.all Call.made = true → ∀ f : Frame,
      .useAfterDelete f ∈ calls → ∃ child, f = .session child := by
    intro calls hall f hf
    exact Bool.noConfusion (List.all_eq_true.mp hall _ hf)
  cases stepped_of_step step with
  | call halive hi =>
    have faults : ∀ f : Frame, .useAfterDelete f ∈ (i.outcome s.assoc s.frames.length).calls →
        ∃ child, f = .session child := by
      by_cases destroys : i = .destroy
      · subst destroys
        intro f hf
        rcases made_destroy hf with made | ⟨stray, -⟩
        · cases made
        · cases stray
      · exact made (made_outcome destroys _ _)
    refine ⟨?_, faults⟩
    intro hdead
    cases hends : i.ends with
    | true => exact (tells_iff hends step).mp tells
    | false => exact Bool.noConfusion ((alive_of_not_ends halive hends).symm.trans hdead)
  | @back ans f fs hf hlive =>
    refine ⟨?_, made (made_resume _ _ _ _)⟩
    intro hdead
    have rest : ∀ f' ∈ fs, f'.harmless = true := fun f' hf' =>
      quit hdead f' (hf ▸ List.mem_cons_of_mem _ hf')
    have quiet : (s.assoc.resume f ans fs.length).frame = none := by
      cases hr : f.reads with
      | true => exact Bool.noConfusion ((hlive hr).symm.trans hdead)
      | false =>
        cases f with
        | recv destroyed =>
          cases destroyed with
          | true => rfl
          | false => cases hr
        | tail => rfl
        | connect => cases hr
        | session child => cases hr
    simpa only [Sys.perform, quiet, Option.toList_none, List.nil_append] using rest
  | @dead ans f fs hf hr hdead =>
    refine ⟨fun _ f' hf' => quit hdead f' (hf ▸ List.mem_cons_of_mem _ hf'), ?_⟩
    intro f' hf'
    obtain rfl := Call.useAfterDelete.inj (List.mem_singleton.mp hf')
    have harmless := quit hdead f' (hf ▸ List.mem_cons_self)
    cases f' with
    | recv destroyed =>
      -- a receive loop that is told does not read, and one that reads is not told
      cases destroyed with
      | true => cases hr
      | false => cases harmless
    | connect => cases harmless
    | session child => exact ⟨child, rfl⟩
    | tail => cases hr

/-- **Who is left behind goes on in the deleted object**: a callback of it that returns is one that
reads it, or leaves the others where they are. -/
theorem Sys.left_step {s s' : Sys} {i : Input} {o : List Call} (left : ¬ s.Quit)
    (step : pdu.step s i = some (s', o)) :
    ¬ s'.Quit ∨ ∃ f, f.harmless = false ∧ .useAfterDelete f ∈ o := by
  obtain ⟨hdead, f, hf, harms⟩ : s.alive = false ∧ ∃ f ∈ s.frames, f.harmless = false := by
    simpa [Sys.Quit] using left
  cases stepped_of_step step with
  | call halive => exact Bool.noConfusion (halive.symm.trans hdead)
  | @back ans f' fs hfs hlive =>
    have unread : f'.reads = false := Bool.eq_false_iff.mpr fun reads =>
      Bool.noConfusion ((hlive reads).symm.trans hdead)
    rcases List.mem_cons.mp (hfs ▸ hf) with rfl | hmem
    · exact Bool.noConfusion (harms.symm.trans (harmless_of_not_reads unread))
    · exact .inl fun quit => Bool.noConfusion
        (harms.symm.trans (quit hdead f (List.mem_append_right _ hmem)))
  | @dead ans f' fs hfs =>
    rcases List.mem_cons.mp (hfs ▸ hf) with rfl | hmem
    · exact .inr ⟨f, harms, List.mem_singleton_self _⟩
    · exact .inl fun quit => Bool.noConfusion (harms.symm.trans (quit hdead f hmem))

theorem made_accepted (cs : Comstack) (pending : IoPending) (fileno : Int) :
    (PduAssoc.accepted cs pending fileno).calls.all Call.made = true := by
  simp only [PduAssoc.accepted]
  split
  · simp [made_flushPdu, Call.made]
  · simp [Call.made]

theorem quit_born {s : Sys} {h : List Call} (born : s.Born h) :
    s.Quit ∧ ∀ f, .useAfterDelete f ∉ h := by
  cases born with
  | new => exact ⟨fun hdead => Bool.noConfusion hdead, fun f => List.not_mem_nil⟩
  | @accepted cs pending fileno hcs =>
    refine ⟨fun hdead => Bool.noConfusion hdead, fun f hf => ?_⟩
    exact Bool.noConfusion (List.all_eq_true.mp (made_accepted cs pending fileno) _ hf)

/-! ## A pointer that is left behind -/

namespace PduAssoc

theorem points_flushPdu {ans : Answers} {a : PduAssoc} (points : a.destroyed ≠ .dangling) :
    (a.flushPdu ans).assoc.destroyed ≠ .dangling := by
  have fl := flushPdu_flushed ans a
  generalize a.flushPdu ans = o at fl
  cases fl <;> exact points

/-- With an observer a receive loop calls it while its local is there. -/
theorem points_receive {ans : Answers} {depth : Nat} {a : PduAssoc} (observer : a.observer ≠ 0)
    (points : a.destroyed ≠ .dangling) : (a.receive ans depth).assoc.destroyed ≠ .dangling := by
  have rc := receive_received ans depth a
  generalize a.receive ans depth = o at rc
  cases rc with
  | pdu => exact (by simp : DestroyedPtr.loop depth ≠ .dangling)
  | pduUnobserved _ unobserved => exact absurd unobserved observer
  | _ => exact points

theorem points_socketNotify {event : Nat} {ans : Answers} {depth : Nat} {a : PduAssoc}
    (observer : a.observer ≠ 0) (points : a.destroyed ≠ .dangling) :
    (a.socketNotify event ans depth).assoc.destroyed ≠ .dangling := by
  have nt := socketNotify_notified event ans depth a
  generalize a.socketNotify event ans depth = o at nt
  cases nt with
  | acceptDone | connectUnobserved =>
    exact points_flushPdu (a := { a with state := .ready }) points
  | listened =>
    have ls := notifyListen_listened event ans a
    generalize a.notifyListen event ans = o at ls
    cases ls <;> exact points
  | writing => exact points_flushPdu points
  | ready => exact points_receive observer points
  | _ => exact points

theorem points_resume {f : Frame} {ans : Answers} {depth : Nat} {a : PduAssoc}
    (observer : a.observer ≠ 0) (points : a.destroyed ≠ .dangling) :
    (a.resume f ans depth).assoc.destroyed ≠ .dangling := by
  cases f with
  | recv destroyed =>
    cases destroyed with
    | true => exact points
    | false =>
      have rs := resumeRecv_resumed ans depth a
      simp only [resume]
      generalize a.resumeRecv ans depth = o at rs
      cases rs with
      | more => exact points_receive (a := { a with destroyed := .null }) observer (by simp)
      | _ => exact (by simp : DestroyedPtr.null ≠ .dangling)
  | connect => exact points_flushPdu points
  | session child =>
    simp only [resume, resumeSession]
    split <;> exact points
  | tail => exact points

end PduAssoc

/-- A call leaves no pointer behind, where an observer is notified. -/
theorem points_outcome {i : Input} {s : Sys} (observed : i.observed s = true)
    (points : s.assoc.destroyed ≠ .dangling) :
    (i.outcome s.assoc s.frames.length).assoc.destroyed ≠ .dangling := by
  cases i with
  | connect observer addr cs ans =>
    have ct := PduAssoc.connect_connected observer addr cs ans s.assoc
    simp only [Input.outcome]
    generalize s.assoc.connect observer addr cs ans = o at ct
    cases ct <;> exact points
  | listen observer addr cs ans =>
    have lm := PduAssoc.listen_made observer addr cs ans s.assoc
    simp only [Input.outcome]
    generalize s.assoc.listen observer addr cs ans = o at lm
    cases lm <;> exact points
  | sendPdu buf ans =>
    have st := PduAssoc.sendPdu_sent buf ans s.assoc
    simp only [Input.outcome]
    generalize s.assoc.sendPdu buf ans = o at st
    cases st with
    | flushed => exact PduAssoc.points_flushPdu (a := { s.assoc with queueOut := [buf] }) points
    | _ => exact points
  | closeSession =>
    simp only [Input.outcome, PduAssoc.closeSession]
    split <;> exact points
  | socketNotify event ans =>
    exact PduAssoc.points_socketNotify (by simpa [Input.observed] using observed) points
  | unlink child =>
    simp only [Input.outcome, PduAssoc.unlink]
    split <;> exact points
  | _ => exact points

/-- **`destroy()` writes to a local that is there**, where no PDU is read without an observer. -/
theorem no_strayWrite {is : List Input} {s : Sys} {h : List Call}
    (run : (pdu.restrict Input.observed).Run Sys.Born is s h) : .strayWrite ∉ h := by
  have inv : s.assoc.destroyed ≠ .dangling ∧ .strayWrite ∉ h := by
    refine run.invariant_restrict (fun s h => s.assoc.destroyed ≠ .dangling ∧ .strayWrite ∉ h)
      (fun s h born => ?_) fun s h i s' o inv observed step => ?_
    · cases born with
      | new => exact ⟨by simp, List.not_mem_nil⟩
      | @accepted cs pending fileno hcs =>
        refine ⟨?_, fun h => Bool.noConfusion (List.all_eq_true.mp (made_accepted cs _ _) _ h)⟩
        simp only [PduAssoc.accepted]
        split
        · have points : ({ cs := cs, state := .ready } : PduAssoc).destroyed ≠ .dangling := by simp
          exact PduAssoc.points_flushPdu points
        · exact (by simp : DestroyedPtr.null ≠ .dangling)
    · obtain ⟨points, none⟩ := inv
      rw [List.mem_append, not_or]
      cases stepped_of_step step with
      | call =>
        refine ⟨?_, none, fun stray => ?_⟩
        · rw [Sys.bury_assoc]
          exact points_outcome observed points
        · by_cases destroys : i = .destroy
          · subst destroys
            rcases made_destroy stray with made | ⟨-, dangling⟩
            · cases made
            · exact points dangling
          · exact Bool.noConfusion (List.all_eq_true.mp (made_outcome destroys _ _) _ stray)
      | back =>
        refine ⟨PduAssoc.points_resume (by simpa [Input.observed] using observed) points, none, ?_⟩
        exact fun h => Bool.noConfusion (List.all_eq_true.mp (made_resume _ _ _ _) _ h)
      | dead => exact ⟨points, none, by simp⟩
  exact inv.2

end Yazpp
