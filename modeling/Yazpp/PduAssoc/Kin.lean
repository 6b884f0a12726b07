import Yazpp.PduAssoc.Spec

/-!
# What a step changes in the parents and the children

Three functions have to do with other associations: `childNotify` makes one and, behind
`sessionNotify`, adopts it or deletes it, and `destroy` takes its object from the parent's list and
deletes the children. All the others leave the parent, the list and the sessions that wait for an
observer as they are, and make none of the calls that link or delete (`kin_step`). And who is shut
down by a step is a child of the association, or the session that it refuses (`shuts_step`).
-/

set_option autoImplicit false

namespace Yazpp

/-- The session a callback is about. -/
def Frame.session? : Frame → Option AssocId
  | .session child => some child
  | _ => none

/-- What an association is to others: alive, with a parent, with children, and with sessions that
wait for their `sessionNotify` to return. -/
structure Kin where
  alive : Bool := true
  parent : Option AssocId := none
  children : List AssocId := []
  sessions : List AssocId := []
deriving DecidableEq, Repr

def Sys.kin (s : Sys) : Kin where
  alive := s.alive
  parent := s.assoc.parent
  children := s.assoc.children
  sessions := s.frames.filterMap Frame.session?

/-- A call that makes, links or deletes an association. -/
def Call.links : Call → Bool
  | .newChild .. | .setChildParent _ | .unlinkFrom _ | .deleteChild _ => true
  | _ => false

/-- The calls of a list that link or delete. -/
def linking (calls : List Call) : List Call := calls.filter Call.links

theorem linking_append (calls more : List Call) :
    linking (calls ++ more) = linking calls ++ linking more := List.filter_append ..

theorem linking_shutdown (a : PduAssoc) : linking a.shutdown.calls = [] :=
  a.shutdown_calls_filter (fun _ => rfl) rfl fun _ => rfl

/-- An outcome that leaves the kin as they are. -/
structure Apart (a : PduAssoc) (o : Outcome) : Prop where
  parent : o.assoc.parent = a.parent
  children : o.assoc.children = a.children
  calls : linking o.calls = []
  frame : o.frame.bind Frame.session? = none

theorem Apart.after {a b : PduAssoc} {o : Outcome} (apart : Apart b o)
    (parent : b.parent = a.parent) (children : b.children = a.children) {calls : List Call}
    (none : linking calls = []) : Apart a (o.after calls) where
  parent := apart.parent.trans parent
  children := apart.children.trans children
  calls := by rw [Outcome.after_calls, linking_append, none, apart.calls, List.nil_append]
  frame := apart.frame

theorem apart_shutdown (a : PduAssoc) : Apart a a.shutdown :=
  ⟨rfl, rfl, linking_shutdown a, rfl⟩

theorem apart_fail (a : PduAssoc) : Apart a a.shutdown.fail where
  parent := rfl
  children := rfl
  calls := by
    rw [Outcome.fail_calls, linking_append, linking_shutdown]
    rfl
  frame := rfl

namespace PduAssoc

theorem apart_flushPdu (ans : Answers) (a : PduAssoc) : Apart a (a.flushPdu ans) := by
  have fl := flushPdu_flushed ans a
  generalize a.flushPdu ans = o at fl
  cases fl with
  | idleDead => exact (apart_fail a).after rfl rfl rfl
  | @failed q =>
    have apart : Apart a (a.shutdown.fail.after [.csPut a.cs q ans.put.res]) :=
      (apart_fail a).after rfl rfl rfl
    exact ⟨apart.parent, apart.children, apart.calls, apart.frame⟩
  | @drainedDead q =>
    have apart : Apart a (a.shutdown.after [.csPut a.cs q ans.put.res,
        .maskObserver (observeRead ||| observeExcept) ans.fileno]) :=
      (apart_shutdown a).after rfl rfl rfl
    exact ⟨apart.parent, apart.children, apart.calls, apart.frame⟩
  | _ => exact ⟨rfl, rfl, rfl, rfl⟩

theorem apart_receive (ans : Answers) (depth : Nat) (a : PduAssoc) :
    Apart a (a.receive ans depth) := by
  have rc := receive_received ans depth a
  generalize a.receive ans depth = o at rc
  cases rc with
  | closed => exact (apart_fail a).after rfl rfl rfl
  | closedUnobserved => exact (apart_shutdown a).after rfl rfl rfl
  | _ => exact ⟨rfl, rfl, rfl, rfl⟩

theorem apart_resumeRecv (ans : Answers) (depth : Nat) (a : PduAssoc) :
    Apart a (a.resumeRecv ans depth) := by
  have rs := resumeRecv_resumed ans depth a
  generalize a.resumeRecv ans depth = o at rs
  cases rs with
  | more => refine (apart_receive ans depth _).after ?_ ?_ ?_ <;> rfl
  | _ => exact ⟨rfl, rfl, rfl, rfl⟩

theorem apart_socketNotify (event : Nat) (ans : Answers) (depth : Nat) (a : PduAssoc) :
    Apart a (a.socketNotify event ans depth) ∨
      ∃ c cs pending fileno, (a.socketNotify event ans depth).assoc = a ∧
        linking (a.socketNotify event ans depth).calls = [.newChild c cs pending fileno] ∧
        (a.socketNotify event ans depth).frame = some (.session c) := by
  have nt := socketNotify_notified event ans depth a
  generalize a.socketNotify event ans depth = o at nt
  cases nt with
  | listened =>
    have ls := notifyListen_listened event ans a
    generalize a.notifyListen event ans = o at ls
    cases ls with
    | session => exact .inr ⟨_, _, _, _, rfl, rfl, rfl⟩
    | _ => exact .inl ⟨rfl, rfl, rfl, rfl⟩
  | except | closed => exact .inl (apart_fail a)
  | acceptFailed => refine .inl ((apart_fail _).after ?_ ?_ ?_) <;> rfl
  | acceptDone | connectUnobserved =>
    refine .inl ((apart_flushPdu ans _).after ?_ ?_ ?_) <;> rfl
  | writing => exact .inl (apart_flushPdu ans a)
  | ready => exact .inl (apart_receive ans depth a)
  | _ => exact .inl ⟨rfl, rfl, rfl, rfl⟩

theorem apart_connect (observer : Observer) (addr : String) (cs : Comstack) (ans : Answers)
    (a : PduAssoc) : Apart a (a.connect observer addr cs ans) := by
  have ct := connect_connected observer addr cs ans a
  generalize a.connect observer addr cs ans = o at ct
  cases ct <;> exact ⟨rfl, rfl, by rw [linking_append, linking_shutdown]; rfl, rfl⟩

theorem apart_listen (observer : Observer) (addr : String) (cs : Comstack) (ans : Answers)
    (a : PduAssoc) : Apart a (a.listen observer addr cs ans) := by
  have lm := listen_made observer addr cs ans a
  generalize a.listen observer addr cs ans = o at lm
  cases lm with
  | stopped =>
    refine ⟨rfl, rfl, ?_, rfl⟩
    simp only [teardown]
    split <;> rfl
  | refused => exact ⟨rfl, rfl, by rw [linking_append, linking_shutdown]; rfl, rfl⟩
  | unbound cert | bound cert =>
    refine ⟨rfl, rfl, ?_, rfl⟩
    rw [linking_append, linking_shutdown]
    cases cert <;> rfl

theorem apart_sendPdu (buf : Buf) (ans : Answers) (a : PduAssoc) : Apart a (a.sendPdu buf ans) := by
  have st := sendPdu_sent buf ans a
  generalize a.sendPdu buf ans = o at st
  cases st with
  | flushed => refine (apart_flushPdu ans _).after ?_ ?_ ?_ <;> rfl
  | _ => exact ⟨rfl, rfl, rfl, rfl⟩

theorem apart_closeSession (a : PduAssoc) : Apart a a.closeSession := by
  unfold closeSession
  dsimp only
  split
  · obtain ⟨parent, children, calls, frame⟩ := apart_fail { a with sessionIsDead := true }
    exact ⟨parent, children, calls, frame⟩
  · exact ⟨rfl, rfl, rfl, rfl⟩

/-- A new session has no kin yet. -/
theorem apart_accepted (cs : Comstack) (pending : IoPending) (fileno : Int) :
    Apart {} (accepted cs pending fileno) := by
  unfold accepted
  dsimp only
  split
  · refine (apart_flushPdu _ _).after ?_ ?_ ?_ <;> rfl
  · exact ⟨rfl, rfl, rfl, rfl⟩

end PduAssoc

/-! ## One step -/

/-- What a step of an association is to others. The calls are those that link or delete. -/
inductive Related (s : Sys) : Input → Kin → List Call → Prop
  | apart {i : Input} : Related s i s.kin []
  | awaits {event : Nat} {ans : Answers} (c : AssocId) (cs : Comstack) (pending : IoPending)
      (fileno : Int) : Related s (.socketNotify event ans)
        { s.kin with sessions := c :: s.kin.sessions } [.newChild c cs pending fileno]
  | adopts {ans : Answers} {c : AssocId} {fs : List Frame} : s.alive = true →
      s.frames = .session c :: fs → ans.session ≠ 0 → Related s (.ret ans)
        { s.kin with children := c :: s.kin.children, sessions := fs.filterMap Frame.session? }
        [.setChildParent c]
  | refuses {ans : Answers} {c : AssocId} {fs : List Frame} : s.frames = .session c :: fs →
      Related s (.ret ans) { s.kin with sessions := fs.filterMap Frame.session? } [.deleteChild c]
  | drops {ans : Answers} {c : AssocId} {fs : List Frame} : s.frames = .session c :: fs →
      Related s (.ret ans) { s.kin with sessions := fs.filterMap Frame.session? } []
  | destroyed : s.alive = true → Related s .destroy { s.kin with alive := false, children := [] }
      ((s.kin.parent.map Call.unlinkFrom).toList ++ s.kin.children.map .deleteChild)

/-- The three calls that only the kin of an association make. -/
def Input.fromKin : Input → Bool
  | .delete | .setParent _ | .unlink _ => true
  | _ => false

theorem filterMap_frames {o : Outcome} (apart : o.frame.bind Frame.session? = none)
    (fs : List Frame) :
    (o.frame.toList ++ fs).filterMap Frame.session? = fs.filterMap Frame.session? := by
  cases hf : o.frame with
  | none => rfl
  | some f =>
    rw [hf] at apart
    exact List.filterMap_cons_none apart

/-- `destroy()` writes a flag, which is nobody's session. -/
theorem sessions_setDestroyed (depth : Nat) (fs : List Frame) :
    (setDestroyed depth fs).filterMap Frame.session? = fs.filterMap Frame.session? := by
  induction fs with
  | nil => rfl
  | cons f fs ih =>
    simp only [setDestroyed]
    split
    · cases f <;> rfl
    · rw [List.filterMap_cons, List.filterMap_cons, ih]

/-- An outcome that leaves the kin as they are takes effect. -/
theorem kin_perform {s : Sys} {o : Outcome} (apart : Apart s.assoc o) (fs : List Frame) :
    ({ s with frames := fs }.perform o).1.kin =
      { s.kin with sessions := fs.filterMap Frame.session? } := by
  simp only [Sys.perform, Sys.kin, apart.parent, apart.children, filterMap_frames apart.frame]

/-- `destroy()`: the object is gone, and the calls for its parent and its children are made. -/
theorem kin_destroy {s s' : Sys} {o : List Call} (step : pdu.step s .destroy = some (s', o)) :
    s'.kin = { s.kin with alive := false, children := [] } ∧ linking o =
      (s.kin.parent.map Call.unlinkFrom).toList ++ s.kin.children.map .deleteChild := by
  cases stepped_of_step step with
  | call =>
    refine ⟨?_, ?_⟩
    · have same : (s.perform s.assoc.destroy).1.assoc.destroyed = s.assoc.destroyed := rfl
      simp only [Input.outcome]
      unfold Sys.bury
      rw [same]
      cases s.assoc.destroyed with
      | null | dangling => rfl
      | loop depth =>
        simp only [Sys.kin, sessions_setDestroyed]
        rfl
    · have children : linking (s.assoc.children.map Call.deleteChild) =
          s.assoc.children.map Call.deleteChild := by
        apply List.filter_eq_self.mpr
        intro c hc
        obtain ⟨child, -, rfl⟩ := List.mem_map.mp hc
        rfl
      have parent : linking (s.assoc.parent.map Call.unlinkFrom).toList =
          (s.assoc.parent.map Call.unlinkFrom).toList := by
        cases s.assoc.parent <;> rfl
      have strays : linking s.assoc.strays = [] := s.assoc.strays_filter rfl
      simp only [Input.outcome]
      rw [PduAssoc.destroy, linking_append, linking_append, linking_append, linking_shutdown,
        strays, parent, children]
      rfl

/-- **One step**, seen by the kin. -/
theorem kin_step {s s' : Sys} {i : Input} {o : List Call} (other : i.fromKin = false)
    (step : pdu.step s i = some (s', o)) : Related s i s'.kin (linking o) := by
  cases stepped_of_step step with
  | @dead ans f fs hf hr =>
    have kin : ({ s with frames := fs } : Sys).kin =
        { s.kin with sessions := fs.filterMap Frame.session? } := rfl
    rw [kin]
    cases hsession : f.session? with
    | none =>
      have same : { s.kin with sessions := fs.filterMap Frame.session? } = s.kin := by
        simp only [Sys.kin, hf, List.filterMap_cons_none hsession]
      rw [same]
      exact .apart
    | some c =>
      cases f <;> cases hsession
      exact .drops hf
  | @back ans f fs hf hlive =>
    have apart : f.session? = none → Apart s.assoc (s.assoc.resume f ans fs.length) →
        Related s (.ret ans)
          ({ s with frames := fs }.perform (s.assoc.resume f ans fs.length)).1.kin
          (linking (s.assoc.resume f ans fs.length).calls) := by
      intro hsession apart
      have same : { s.kin with sessions := fs.filterMap Frame.session? } = s.kin := by
        simp only [Sys.kin, hf, List.filterMap_cons_none hsession]
      rw [kin_perform apart, apart.calls, same]
      exact .apart
    cases f with
    | recv destroyed =>
      cases destroyed with
      | true => exact apart rfl ⟨rfl, rfl, rfl, rfl⟩
      | false => exact apart rfl (PduAssoc.apart_resumeRecv ans fs.length s.assoc)
    | connect => exact apart rfl (PduAssoc.apart_flushPdu ans s.assoc)
    | tail => exact apart rfl ⟨rfl, rfl, rfl, rfl⟩
    | session c =>
      simp only [PduAssoc.resume, PduAssoc.resumeSession]
      split
      · exact .refuses hf
      · next hobserver => exact .adopts (hlive rfl) hf hobserver
  | call halive hi =>
    have apart : Apart s.assoc (i.outcome s.assoc s.frames.length) → i.ends = false →
        Related s i ((s.perform (i.outcome s.assoc s.frames.length)).1.bury i).kin
          (linking (i.outcome s.assoc s.frames.length).calls) := by
      intro apart ends
      have kept := Sys.bury_of_alive (i := i)
        (s := (s.perform (i.outcome s.assoc s.frames.length)).1)
        (by rw [Sys.bury_alive, ends]; exact halive)
      rw [kept, apart.calls]
      have same := kin_perform apart s.frames
      rw [same]
      exact .apart
    cases i with
    | connect observer addr cs ans => exact apart (s.assoc.apart_connect observer addr cs ans) rfl
    | listen observer addr cs ans => exact apart (s.assoc.apart_listen observer addr cs ans) rfl
    | sendPdu buf ans => exact apart (s.assoc.apart_sendPdu buf ans) rfl
    | closeSession => exact apart s.assoc.apart_closeSession rfl
    | shutdown => exact apart (apart_shutdown s.assoc) rfl
    | destroy =>
      obtain ⟨kin, calls⟩ := kin_destroy step
      rw [calls, kin]
      exact .destroyed halive
    | socketNotify event ans =>
      rcases s.assoc.apart_socketNotify event ans s.frames.length with h | ⟨c, cs, pending, fileno,
        hassoc, hcalls, hframe⟩
      · exact apart h rfl
      · have kin : ((s.perform (s.assoc.socketNotify event ans s.frames.length)).1.bury
            (.socketNotify event ans)).kin = { s.kin with sessions := c :: s.kin.sessions } := by
          simp only [Sys.bury, Sys.perform, Sys.kin, hassoc, hframe]
          rfl
        simp only [Input.outcome, hcalls, kin]
        exact .awaits c cs pending fileno
    | delete | setParent | unlink => cases other
    | ret ans => exact absurd rfl (hi ans)
    | idleTime timeout => exact apart ⟨rfl, rfl, rfl, rfl⟩ rfl
    | setCertFname fname => exact apart ⟨rfl, rfl, rfl, rfl⟩ rfl
    | setObserver observer => exact apart ⟨rfl, rfl, rfl, rfl⟩ rfl

/-- What the kin of an association do to it. -/
theorem kin_fromKin {s s' : Sys} {i : Input} {o : List Call} (fromKin : i.fromKin = true)
    (step : pdu.step s i = some (s', o)) : linking o = [] ∧ s'.kin = match i with
      | .delete => { s.kin with alive := false }
      | .setParent parent => { s.kin with parent := parent }
      | .unlink child => { s.kin with children := s.kin.children.erase child }
      | _ => s.kin := by
  cases stepped_of_step step with
  | call =>
    cases i with
    | delete => exact ⟨rfl, rfl⟩
    | setParent parent => exact ⟨rfl, rfl⟩
    | unlink child =>
      simp only [Input.outcome, PduAssoc.unlink]
      split
      · exact ⟨rfl, rfl⟩
      · next hother =>
        refine ⟨rfl, ?_⟩
        have same : s.kin.children.erase child = s.kin.children := List.erase_of_not_mem hother
        simp only [same]
        rfl
    | _ => cases fromKin
  | back => cases fromKin
  | dead => cases fromKin

/-- The assignments that others make in an association, and its bare `delete`, call nobody. -/
theorem assigned_step {s s' : Sys} {i : Input} {o : List Call}
    (assigned : i.fromKin = true ∨ ∃ observer, i = .setObserver observer)
    (step : pdu.step s i = some (s', o)) : ∀ c ∈ o, c = .assertFailed := by
  intro c hc
  cases stepped_of_step step with
  | call =>
    cases i with
    | unlink child =>
      simp only [Input.outcome, PduAssoc.unlink] at hc
      split at hc
      · cases hc
      · exact List.mem_singleton.mp hc
    | delete | setParent | setObserver => cases hc
    | _ => rcases assigned with fromKin | ⟨observer, heq⟩ <;> contradiction
  | back => rcases assigned with fromKin | ⟨observer, heq⟩ <;> contradiction
  | dead => rcases assigned with fromKin | ⟨observer, heq⟩ <;> contradiction

theorem mem_sessions {s : Sys} {c : AssocId} : c ∈ s.kin.sessions ↔ .session c ∈ s.frames := by
  simp only [Sys.kin, List.mem_filterMap]
  constructor
  · rintro ⟨f, hf, hc⟩
    cases f <;> cases hc
    exact hf
  · exact fun hf => ⟨_, hf, rfl⟩

/-- **One step** adopts a session whose `sessionNotify` returns, and notifies of one that it
makes. -/
theorem adopts_step {s s' : Sys} {i : Input} {o : List Call} (step : pdu.step s i = some (s', o)) :
    (∀ c ∈ s'.assoc.children,
      c ∈ s.assoc.children ∨ .session c ∈ s.frames ∧ ∃ ans, i = .ret ans) ∧
    ∀ c, .session c ∈ s'.frames →
      .session c ∈ s.frames ∨ ∃ cs pending fileno, .newChild c cs pending fileno ∈ o := by
  have shown : (∀ c ∈ s'.kin.children,
      c ∈ s.kin.children ∨ c ∈ s.kin.sessions ∧ ∃ ans, i = .ret ans) ∧
      ∀ c ∈ s'.kin.sessions,
        c ∈ s.kin.sessions ∨ ∃ cs pending fileno, .newChild c cs pending fileno ∈ linking o := by
    cases fromKin : i.fromKin with
    | true =>
      obtain ⟨-, kin⟩ := kin_fromKin fromKin step
      rw [kin]
      cases i with
      | delete | setParent => exact ⟨fun c hc => .inl hc, fun c hc => .inl hc⟩
      | unlink child => exact ⟨fun c hc => .inl (List.mem_of_mem_erase hc), fun c hc => .inl hc⟩
      | _ => cases fromKin
    | false =>
      have related := kin_step fromKin step
      generalize linking o = ls at related ⊢
      generalize s'.kin = k at related ⊢
      have fewer : ∀ {c : AssocId} {fs : List Frame}, s.frames = .session c :: fs →
          s.kin.sessions = c :: fs.filterMap Frame.session? := by
        intro c fs hf
        simp only [Sys.kin, hf]
        rfl
      cases related with
      | apart => exact ⟨fun c hc => .inl hc, fun c hc => .inl hc⟩
      | awaits c cs pending fileno =>
        refine ⟨fun d hd => .inl hd, fun d hd => ?_⟩
        rcases List.mem_cons.mp hd with rfl | hd
        · exact .inr ⟨cs, pending, fileno, List.mem_cons_self⟩
        · exact .inl hd
      | @adopts ans c fs halive hf =>
        refine ⟨fun d hd => ?_, fun d hd => .inl (fewer hf ▸ List.mem_cons_of_mem _ hd)⟩
        rcases List.mem_cons.mp hd with rfl | hd
        · exact .inr ⟨fewer hf ▸ List.mem_cons_self, ans, rfl⟩
        · exact .inl hd
      | refuses hf | drops hf =>
        exact ⟨fun d hd => .inl hd, fun d hd => .inl (fewer hf ▸ List.mem_cons_of_mem _ hd)⟩
      | destroyed => exact ⟨fun c hc => absurd hc List.not_mem_nil, fun c hc => .inl hc⟩
  refine ⟨fun c hc => ?_, fun c hc => ?_⟩
  · rw [← mem_sessions]
    exact shown.1 c hc
  · rw [← mem_sessions] at hc ⊢
    refine (shown.2 c hc).imp_right ?_
    rintro ⟨cs, pending, fileno, hmem⟩
    exact ⟨cs, pending, fileno, (List.mem_filter.mp hmem).1⟩

/-! ## Who is shut down -/

/-- Nobody but the children is shut down. -/
def Shuts (a : PduAssoc) (calls : List Call) : Prop :=
  ∀ c, .shutdownChild c ∈ calls → c ∈ a.children

theorem shuts_shutdown (a : PduAssoc) : Shuts a a.shutdown.calls := by
  intro c hc
  simpa [PduAssoc.mem_shutdown_calls] using hc

namespace PduAssoc

theorem shuts_flushPdu (ans : Answers) (a : PduAssoc) : Shuts a (a.flushPdu ans).calls := by
  have fl := flushPdu_flushed ans a
  generalize a.flushPdu ans = o at fl
  intro c
  cases fl <;> simp [mem_shutdown_calls]

theorem shuts_receive (ans : Answers) (depth : Nat) (a : PduAssoc) :
    Shuts a (a.receive ans depth).calls := by
  have rc := receive_received ans depth a
  generalize a.receive ans depth = o at rc
  intro c
  cases rc <;> simp [mem_shutdown_calls]

theorem shuts_resumeRecv (ans : Answers) (depth : Nat) (a : PduAssoc) :
    Shuts a (a.resumeRecv ans depth).calls := by
  have rs := resumeRecv_resumed ans depth a
  generalize a.resumeRecv ans depth = o at rs
  intro c
  cases rs with
  | more =>
    intro hc
    exact shuts_receive ans depth { a with destroyed := .null } c (by simpa using hc)
  | _ => simp

theorem shuts_socketNotify (event : Nat) (ans : Answers) (depth : Nat) (a : PduAssoc) :
    Shuts a (a.socketNotify event ans depth).calls := by
  have nt := socketNotify_notified event ans depth a
  generalize a.socketNotify event ans depth = o at nt
  intro c
  cases nt with
  | listened =>
    have ls := notifyListen_listened event ans a
    generalize a.notifyListen event ans = o at ls
    cases ls <;> simp
  | acceptDone | connectUnobserved =>
    intro hc
    exact shuts_flushPdu ans { a with state := .ready } c (by simpa using hc)
  | writing => exact shuts_flushPdu ans a c
  | ready => exact shuts_receive ans depth a c
  | _ => simp [mem_shutdown_calls]

theorem shuts_accepted (cs : Comstack) (pending : IoPending) (fileno : Int) :
    Shuts {} (accepted cs pending fileno).calls := by
  intro c hc
  unfold accepted at hc
  dsimp only at hc
  split at hc
  · exact shuts_flushPdu _ { init with cs := cs, state := .ready } c (by simpa using hc)
  · simp at hc

end PduAssoc

/-- **One step** shuts down children of the association only, or a session that it refuses. -/
theorem shuts_step {s s' : Sys} {i : Input} {o : List Call} (step : pdu.step s i = some (s', o))
    {c : AssocId} (hc : .shutdownChild c ∈ o) : c ∈ s.assoc.children ∨ .session c ∈ s.frames := by
  cases stepped_of_step step with
  | dead => simp at hc
  | @back ans f fs hf =>
    cases f with
    | recv destroyed =>
      cases destroyed with
      | true => simp [PduAssoc.resume] at hc
      | false => exact .inl (PduAssoc.shuts_resumeRecv ans fs.length s.assoc c hc)
    | connect => exact .inl (PduAssoc.shuts_flushPdu ans s.assoc c hc)
    | session child =>
      simp only [PduAssoc.resume, PduAssoc.resumeSession] at hc
      split at hc
      · obtain rfl : c = child := by simpa using hc
        exact .inr (hf ▸ List.mem_cons_self)
      · simp at hc
    | tail => simp [PduAssoc.resume] at hc
  | call =>
    left
    cases i with
    | connect observer addr cs ans =>
      have ct := PduAssoc.connect_connected observer addr cs ans s.assoc
      simp only [Input.outcome] at hc
      generalize s.assoc.connect observer addr cs ans = o at ct hc
      cases ct <;> simpa [PduAssoc.mem_shutdown_calls] using hc
    | listen observer addr cs ans =>
      have lm := PduAssoc.listen_made observer addr cs ans s.assoc
      simp only [Input.outcome] at hc
      generalize s.assoc.listen observer addr cs ans = o at lm hc
      cases lm with
      | stopped => simp [PduAssoc.teardown] at hc
      | _ => simpa [PduAssoc.mem_shutdown_calls] using hc
    | sendPdu buf ans =>
      have st := PduAssoc.sendPdu_sent buf ans s.assoc
      simp only [Input.outcome] at hc
      generalize s.assoc.sendPdu buf ans = o at st hc
      cases st with
      | flushed =>
        exact PduAssoc.shuts_flushPdu ans { s.assoc with queueOut := [buf] } c (by simpa using hc)
      | _ => simp at hc
    | closeSession =>
      simp only [Input.outcome, PduAssoc.closeSession] at hc
      split at hc
      · simpa [PduAssoc.mem_shutdown_calls] using hc
      · simp at hc
    | shutdown => exact shuts_shutdown s.assoc c hc
    | destroy =>
      simp only [Input.outcome, PduAssoc.destroy, List.mem_append] at hc
      rcases hc with ((hc | hc) | hc) | hc
      · exact shuts_shutdown s.assoc c hc
      · cases PduAssoc.mem_strays hc
      · cases hp : s.assoc.parent <;> simp [hp] at hc
      · simp at hc
    | socketNotify event ans =>
      exact PduAssoc.shuts_socketNotify event ans s.frames.length s.assoc c hc
    | unlink child =>
      simp only [Input.outcome, PduAssoc.unlink] at hc
      split at hc <;> simp at hc
    | _ => simp [Input.outcome, PduAssoc.setIdleTime, PduAssoc.setCertFname] at hc

/-- A `shutdown` shuts down children only. -/
theorem shut_only {s s' : Sys} {o : List Call} (step : pdu.step s .shutdown = some (s', o))
    {c : AssocId} (hc : .shutdownChild c ∈ o) : c ∈ s.assoc.children := by
  cases stepped_of_step step with
  | call => exact shuts_shutdown s.assoc c hc

end Yazpp
