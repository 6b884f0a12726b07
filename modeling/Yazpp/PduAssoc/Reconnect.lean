import Yazpp.PduAssoc.Spec

/-!
# Reconnecting against starting fresh

`connect` shuts the association down and opens a new connection on the same object. What the
object keeps from before should not show: the association should make the calls that a new one
would make on which this `connect` came first. This is a statement about two runs, and it is
proved as a lock step: two associations that differ only in what is put aside
(`PduAssoc.aside`) make the same calls through `view` on every input.

One field is left over that is not put aside: nothing resets `m_session_is_dead`. And one piece of
code: when the `connect` is made from inside `connectNotify`, the rest of that `socketNotify` is a
`flush_PDU`, which runs on the new connection. Without these two the reconnected association
cannot be told from a new one, and with either of them it can (`reconnect_fresh_iff`).

Callbacks that were running when `connect` was called go on to return into the association; on the
fresh side they return to nothing (`Frame.tail`). A receive loop among them asks `cs_more` of the
new COMSTACK, and it is assumed that the COMSTACK has nothing to give to it: `nothingMore` is the
condition on the inputs that says so.

A pointer that a read without an observer has left behind is put aside too. A `destroy()` writes
through it (`Call.strayWrite`), which is no callback and sends nothing.
-/

set_option autoImplicit false

namespace Yazpp

open Yazpp.Lib

/-! ## What can be seen of an association -/

/-- The callbacks, and the calls on COMSTACK but the question `cs_more` and the certificate. -/
def Call.seen : Call → Bool
  | .csCreateHost .. | .csBind .. | .csConnect .. | .csRcvconnect .. | .csListen .. | .csAccept ..
  | .csAcceptNew .. | .csGet .. | .csPut .. | .csClose .. => true
  | .recvPdu .. | .connectNotify | .failNotify | .timeoutNotify | .sessionNotify .. => true
  | _ => false

/-- What of a list of calls is seen. -/
def view (calls : List Call) : List Call := calls.filter Call.seen

@[simp] theorem view_append (calls more : List Call) :
    view (calls ++ more) = view calls ++ view more :=
  List.filter_append ..

/-- The part of an association that its calls depend on. -/
def PduAssoc.core (a : PduAssoc) : PduAssoc :=
  { a with
      inputBuf := [], destroyed := .null, idleTime := 0, certFname := none, parent := none
      children := [] }

/-- What of an outcome is seen, now or later. -/
def Outcome.seen (o : Outcome) : PduAssoc × List Call × Option Frame :=
  (o.assoc.core, view o.calls, o.frame)

theorem Outcome.seen_after {o o' : Outcome} {calls calls' : List Call}
    (first : view calls = view calls') (same : o.seen = o'.seen) :
    (o.after calls).seen = (o'.after calls').seen := by
  simp only [Outcome.seen, Prod.mk.injEq] at same
  simp only [Outcome.seen, Outcome.after_assoc, Outcome.after_calls, Outcome.after_frame,
    view_append, first, same]

theorem Outcome.seen_fail {o o' : Outcome} (same : o.seen = o'.seen) :
    o.fail.seen = o'.fail.seen := by
  simp only [Outcome.seen, Prod.mk.injEq] at same
  simp only [Outcome.seen, Outcome.fail_assoc, Outcome.fail_calls, Outcome.fail_frame, view_append,
    same]

theorem Outcome.seen_ite {c : Prop} [Decidable c] {o o' p p' : Outcome} (yes : o.seen = o'.seen)
    (no : p.seen = p'.seen) : (if c then o else p).seen = (if c then o' else p').seen := by
  split
  · exact yes
  · exact no

/-! ## What is put aside does not show

Each function makes the same visible calls on `aside x a` as on `a`. The proofs follow the
branches of the functions. -/

namespace PduAssoc

open Outcome

/-- `a`, with everything that is put aside as `x` has it. -/
def aside (x a : PduAssoc) : PduAssoc :=
  { a with
      inputBuf := x.inputBuf, destroyed := x.destroyed, idleTime := x.idleTime
      certFname := x.certFname, parent := x.parent, children := x.children }

/-- Associations with one core differ in what is put aside. -/
theorem eq_aside {a b : PduAssoc} (same : a.core = b.core) : b = aside b a := by
  simp only [core, mk.injEq] at same
  simp only [aside, same]

theorem view_map_shutdownChild (children : List AssocId) :
    view (children.map .shutdownChild) = [] := by
  simp only [view, List.filter_eq_nil_iff, List.forall_mem_map]
  exact fun _ _ => nofun

theorem view_map_deleteChild (children : List AssocId) :
    view (children.map .deleteChild) = [] := by
  simp only [view, List.filter_eq_nil_iff, List.forall_mem_map]
  exact fun _ _ => nofun

theorem seen_teardown (x a : PduAssoc) : (aside x a).teardown.seen = a.teardown.seen := rfl

theorem seen_shutdown (x a : PduAssoc) : (aside x a).shutdown.seen = a.shutdown.seen := by
  refine seen_after ?_ (seen_teardown x a)
  rw [view_map_shutdownChild, view_map_shutdownChild]

theorem seen_flushPdu (x : PduAssoc) (ans : Answers) (a : PduAssoc) :
    ((aside x a).flushPdu ans).seen = (a.flushPdu ans).seen := by
  unfold flushPdu
  dsimp only [aside]
  refine seen_ite rfl ?_
  cases a.queueOut with
  | nil => exact seen_ite (seen_after rfl (seen_fail (seen_shutdown x _))) rfl
  | cons q rest =>
    refine seen_ite (seen_after rfl (seen_fail (seen_shutdown x _))) (seen_ite rfl ?_)
    exact seen_ite (seen_ite (seen_after rfl (seen_shutdown x _)) rfl) rfl

theorem seen_sendPdu (x : PduAssoc) (buf : Buf) (ans : Answers) (a : PduAssoc) :
    ((aside x a).sendPdu buf ans).seen = (a.sendPdu buf ans).seen :=
  have flush := seen_flushPdu x ans { a with queueOut := a.queueOut ++ [buf] }
  seen_ite rfl (seen_ite (seen_after rfl flush) rfl)

theorem seen_receive (x : PduAssoc) (ans : Answers) (depth : Nat) (a : PduAssoc) :
    ((aside x a).receive ans depth).seen = (a.receive ans depth).seen := by
  refine seen_ite rfl (seen_ite ?_ (seen_ite rfl rfl))
  exact seen_ite (seen_after rfl (seen_shutdown x a))
    (seen_after rfl (seen_fail (seen_shutdown x a)))

theorem seen_resumeRecv (x : PduAssoc) (ans : Answers) (depth : Nat) (a : PduAssoc) :
    ((aside x a).resumeRecv ans depth).seen = (a.resumeRecv ans depth).seen := by
  refine seen_ite rfl (seen_ite (seen_after rfl ?_) (seen_ite rfl rfl))
  exact seen_receive { x with destroyed := .null } ans depth { a with destroyed := .null }

theorem seen_socketNotify (x : PduAssoc) (event : Nat) (ans : Answers) (depth : Nat)
    (a : PduAssoc) :
    ((aside x a).socketNotify event ans depth).seen = (a.socketNotify event ans depth).seen := by
  obtain ⟨state, cs, queueOut, inputBuf, destroyed, idleTime, dead, cert, observer, parent,
    children⟩ := a
  unfold socketNotify
  refine seen_ite (seen_fail (seen_shutdown x _)) (seen_ite rfl ?_)
  cases state with
  | connecting =>
    have flush := seen_flushPdu x ans ⟨.ready, cs, queueOut, inputBuf, destroyed, idleTime, dead,
      cert, observer, parent, children⟩
    exact seen_ite rfl (seen_ite (seen_after rfl flush) rfl)
  | listen => exact seen_ite (seen_ite rfl (seen_ite rfl rfl)) rfl
  | ready => exact seen_ite (seen_receive x ans depth _) rfl
  | closed => exact seen_fail (seen_shutdown x _)
  | writing => exact seen_ite (seen_flushPdu x ans _) rfl
  | accepting =>
    have flush := seen_flushPdu x ans ⟨.ready, cs, queueOut, inputBuf, destroyed, idleTime, dead,
      cert, observer, parent, children⟩
    have failed := seen_shutdown x ⟨.accepting, 0, queueOut, inputBuf, destroyed, idleTime, dead,
      cert, observer, parent, children⟩
    exact seen_ite (seen_after rfl (seen_fail failed)) (seen_ite (seen_after rfl flush) rfl)

theorem seen_closeSession (x a : PduAssoc) :
    (aside x a).closeSession.seen = a.closeSession.seen :=
  have shut := seen_shutdown x { a with sessionIsDead := true }
  seen_ite (seen_fail shut) rfl

/-- What follows `shutdown` in `connect` and in `listen`. -/
theorem seen_afterShutdown (x : PduAssoc) {a b c : PduAssoc} {calls calls' : List Call} {ret : Int}
    (core : b.core = c.core) (same : view calls = view calls') :
    ({ assoc := b, calls := (aside x a).shutdown.calls ++ calls, ret := ret } : Outcome).seen =
      ({ assoc := c, calls := a.shutdown.calls ++ calls', ret := ret } : Outcome).seen := by
  have shut := seen_shutdown x a
  simp only [seen, Prod.mk.injEq] at shut
  simp only [seen, core, view_append, shut, same]

theorem seen_connect (x : PduAssoc) (observer : Observer) (addr : String) (cs : Comstack)
    (ans : Answers) (a : PduAssoc) : ((aside x a).connect observer addr cs ans).seen =
      (a.connect observer addr cs ans).seen := by
  unfold connect
  simp only [List.append_assoc]
  refine seen_ite (seen_afterShutdown x rfl rfl) (seen_ite (seen_afterShutdown x rfl rfl) ?_)
  exact seen_ite (seen_afterShutdown x rfl rfl) (seen_afterShutdown x rfl rfl)

theorem view_setCert (cert : Option String) (cs : Comstack) :
    view (cert.map (Call.csSetCert cs)).toList = [] := by
  cases cert <;> rfl

theorem seen_listen (x : PduAssoc) (observer : Observer) (addr : String) (cs : Comstack)
    (ans : Answers) (a : PduAssoc) : ((aside x a).listen observer addr cs ans).seen =
      (a.listen observer addr cs ans).seen := by
  unfold listen
  simp only [List.append_assoc]
  refine seen_ite (seen_teardown x a) (seen_ite (seen_afterShutdown x rfl rfl) ?_)
  have made : ∀ more, view ([.csCreateHost addr cs] ++
      (((aside x a).certFname.map (Call.csSetCert cs)).toList ++ more)) =
      view ([.csCreateHost addr cs] ++ ((a.certFname.map (Call.csSetCert cs)).toList ++ more)) :=
    fun more => by simp only [view_append, view_setCert]
  exact seen_ite (seen_afterShutdown x rfl (made _)) (seen_afterShutdown x rfl (made _))

theorem seen_destroy (x a : PduAssoc) : (aside x a).destroy.seen = a.destroy.seen := by
  have shut := seen_shutdown x a
  have unlinked : ∀ parent : Option AssocId, view (parent.map Call.unlinkFrom).toList = [] := by
    intro parent
    cases parent <;> rfl
  simp only [seen, Prod.mk.injEq] at shut
  have strays : ∀ a : PduAssoc, view a.strays = [] := fun a => a.strays_filter rfl
  simp only [seen, destroy, view_append, strays, unlinked, view_map_deleteChild, shut,
    List.append_nil, Prod.mk.injEq, and_true]
  exact shut.1

theorem seen_unlink (x : PduAssoc) (child : AssocId) (a : PduAssoc) :
    ((aside x a).unlink child).seen = (a.unlink child).seen := by
  have none : ∀ a : PduAssoc, (a.unlink child).seen = ({ assoc := a } : Outcome).seen :=
    fun a => by
      unfold unlink
      split <;> rfl
  rw [none, none]
  rfl

end PduAssoc

open PduAssoc in
/-- Every call on the association looks the same with other things put aside. -/
theorem seen_outcome (x : PduAssoc) (i : Input) (depth : Nat) (a : PduAssoc) :
    (i.outcome (aside x a) depth).seen = (i.outcome a depth).seen := by
  cases i with
  | connect observer addr cs ans => exact seen_connect x observer addr cs ans a
  | listen observer addr cs ans => exact seen_listen x observer addr cs ans a
  | sendPdu buf ans => exact seen_sendPdu x buf ans a
  | closeSession => exact seen_closeSession x a
  | shutdown => exact seen_shutdown x a
  | destroy => exact seen_destroy x a
  | socketNotify event ans => exact seen_socketNotify x event ans depth a
  | unlink child => exact seen_unlink x child a
  | _ => rfl

open PduAssoc in
/-- So does the code behind every callback. -/
theorem seen_resume (x : PduAssoc) (f : Frame) (ans : Answers) (depth : Nat) (a : PduAssoc) :
    ((aside x a).resume f ans depth).seen = (a.resume f ans depth).seen := by
  cases f with
  | recv destroyed =>
    cases destroyed with
    | true => rfl
    | false => exact seen_resumeRecv x ans depth a
  | connect => exact seen_flushPdu x ans a
  | session child => exact Outcome.seen_ite rfl rfl
  | tail => rfl

/-- The code behind a callback of the old connection shows nothing, when there is nothing to read,
unless it is the flush behind `connectNotify`. -/
theorem seen_resume_old {f : Frame} (hf : f ≠ .connect) (ans : Answers) (nothing : ans.more = false)
    (depth : Nat) (a : PduAssoc) :
    (a.resume f ans depth).seen = ({ assoc := a } : Outcome).seen := by
  cases f with
  | recv destroyed =>
    cases destroyed with
    | true => rfl
    | false =>
      have rs := PduAssoc.resumeRecv_resumed ans depth a
      simp only [PduAssoc.resume]
      generalize a.resumeRecv ans depth = o at rs
      cases rs with
      | more _ hmore => simp [nothing] at hmore
      | _ => rfl
  | connect => exact absurd rfl hf
  | session child =>
    simp only [PduAssoc.resume, PduAssoc.resumeSession]
    split <;> rfl
  | tail => rfl

/-! ## The two runs -/

/-- What comes after a `connect`: the association, and how many of its callbacks were running at
the `connect` and still are. -/
def later : Machine (Sys × Nat) Input Call where
  step s i := (pdu.step s.1 i).map fun next => ((next.1, min s.2 next.1.frames.length), next.2)

/-- **What is assumed of the new COMSTACK**: to the receive loop of a callback that was running
already, `cs_more` answers that there is nothing to read. -/
def nothingMore (s : Sys × Nat) : Input → Bool
  | .ret ans => !(decide (s.1.frames.length ≤ s.2) && ans.more)
  | _ => true

/-- The association after a `connect`. -/
def Sys.connected (observer : Observer) (addr : String) (cs : Comstack) (ans : Answers) (s : Sys) :
    Sys × Nat :=
  ((s.perform (s.assoc.connect observer addr cs ans)).1, s.frames.length)

/-- A new association in the place of `s`: the callbacks that are running return to nothing. -/
def Sys.fresh (s : Sys) : Sys := { frames := s.frames.map fun _ => .tail }

/-- `Sys.connected` is the step of the machine. -/
theorem connected_step {observer : Observer} {addr : String} {cs : Comstack} {ans : Answers}
    {s : Sys} (halive : s.alive = true) :
    pdu.step s (.connect observer addr cs ans) = some ((s.connected observer addr cs ans).1,
      (s.assoc.connect observer addr cs ans).calls) := by
  show (if s.alive then _ else _) = _
  rw [if_pos halive]
  rfl

/-- Associations in lock step. While they exist they have one core, and the same callbacks are
running but for those that were running at the `connect`; of these, none is `connectNotify`. -/
structure Alike (s t : Sys × Nat) : Prop where
  left : t.2 = s.2
  alive : t.1.alive = s.1.alive
  depth : t.1.frames.length = s.1.frames.length
  core : s.1.alive = true → t.1.assoc.core = s.1.assoc.core
  frames : s.1.alive = true → ∃ now old, .connect ∉ old ∧ old.length = s.2 ∧
    s.1.frames = now ++ old ∧ t.1.frames = now ++ old.map fun _ => .tail

/-- The same outcome on both sides of a lock step. -/
theorem Alike.perform {s t : Sys} {n m : Nat} {o o' : Outcome} (alike : Alike (s, n) (t, m))
    (halive : s.alive = true) (same : o'.seen = o.seen) :
    Alike ((s.perform o).1, min n (s.perform o).1.frames.length)
      ((t.perform o').1, min m (t.perform o').1.frames.length) := by
  simp only [Outcome.seen, Prod.mk.injEq] at same
  obtain ⟨now, old, hconn, hold, hs, ht⟩ := alike.frames halive
  have depth : (t.perform o').1.frames.length = (s.perform o).1.frames.length := by
    have below : t.frames.length = s.frames.length := alike.depth
    simp only [Sys.perform, List.length_append, same, below]
  have left : m = n := alike.left
  refine ⟨by rw [depth, left], alike.alive, depth, fun _ => same.1, fun _ => ?_⟩
  refine ⟨o.frame.toList ++ now, old, hconn, ?_, ?_, ?_⟩
  · change s.frames = now ++ old at hs
    change old.length = n at hold
    simp only [Sys.perform, hs, List.length_append]
    omega
  · exact (congrArg (o.frame.toList ++ ·) hs).trans (List.append_assoc ..).symm
  · rw [← same.2.2]
    exact (congrArg (o'.frame.toList ++ ·) ht).trans (List.append_assoc ..).symm

/-- The end of the object on both sides. -/
theorem Alike.bury {s t : Sys} {n m : Nat} (alike : Alike (s, n) (t, m)) (i : Input) :
    Alike (s.bury i, n) (t.bury i, m) := by
  have alive : (t.bury i).alive = (s.bury i).alive := by
    rw [Sys.bury_alive, Sys.bury_alive, alike.alive]
  refine ⟨alike.left, alive, ?_, fun hs => ?_, fun hs => ?_⟩
  · simp only [Sys.bury_depth, alike.depth]
  · rw [Sys.bury_of_alive hs, Sys.bury_of_alive (alive.trans hs)]
    exact alike.core (Sys.bury_of_alive hs ▸ hs)
  · rw [Sys.bury_of_alive hs, Sys.bury_of_alive (alive.trans hs)]
    exact alike.frames (Sys.bury_of_alive hs ▸ hs)

/-- Two deleted associations with as many callbacks running. -/
theorem alike_dead {s t : Sys × Nat} (left : t.2 = s.2) (hs : s.1.alive = false)
    (ht : t.1.alive = false) (depth : t.1.frames.length = s.1.frames.length) : Alike s t :=
  ⟨left, ht.trans hs.symm, depth, fun h => absurd (hs.symm.trans h) nofun,
    fun h => absurd (hs.symm.trans h) nofun⟩

/-- What a callback shows that returns into a deleted association: nothing. -/
theorem ret_dead {s : Sys} {f : Frame} {fs : List Frame} (hdead : s.alive = false)
    (hf : s.frames = f :: fs) (ans : Answers) :
    ∃ o, pdu.step s (.ret ans) = some ({ s with frames := fs }, o) ∧ view o = [] := by
  cases hr : f.reads with
  | true => exact ⟨_, step_dead hf hr hdead, rfl⟩
  | false =>
    have nothing : s.assoc.resume f ans fs.length = { assoc := s.assoc } := by
      cases f with
      | recv destroyed =>
        cases destroyed with
        | true => rfl
        | false => cases hr
      | tail => rfl
      | connect => cases hr
      | session child => cases hr
    refine ⟨[], ?_, rfl⟩
    rw [step_back _ hf (fun h => absurd (hr.symm.trans h) nofun), nothing]
    rfl

/-- A step that meets the assumption, inverted. -/
theorem later_step {s s' : Sys × Nat} {i : Input} {o : List Call} :
    (later.restrict nothingMore).step s i = some (s', o) ↔ nothingMore s i = true ∧
      ∃ next, pdu.step s.1 i = some (next, o) ∧ s' = (next, min s.2 next.frames.length) := by
  rw [Machine.restrict_step, later]
  simp only [Option.map_eq_some_iff, Prod.exists, Prod.mk.injEq]
  refine and_congr_right fun _ => ⟨?_, ?_⟩
  · rintro ⟨next, o', hstep, rfl, rfl⟩
    exact ⟨next, hstep, rfl⟩
  · rintro ⟨next, hstep, rfl⟩
    exact ⟨next, o, hstep, rfl, rfl⟩

theorem Alike.assumed {s t : Sys × Nat} (alike : Alike s t) (i : Input) :
    nothingMore t i = nothingMore s i := by
  cases i <;> simp only [nothingMore, alike.depth, alike.left]

/-- A call on both sides of a lock step. -/
theorem Alike.call {s t : Sys} {n m : Nat} (alike : Alike (s, n) (t, m)) {i : Input}
    (halive : s.alive = true) (hi : ∀ ans, i ≠ .ret ans) {s' : Sys} {o : List Call}
    (step : pdu.step s i = some (s', o)) :
    ∃ t' o', pdu.step t i = some (t', o') ∧ view o' = view o ∧
      Alike (s', min n s'.frames.length) (t', min m t'.frames.length) := by
  have depth : t.frames.length = s.frames.length := alike.depth
  have same : (i.outcome t.assoc t.frames.length).seen =
      (i.outcome s.assoc s.frames.length).seen := by
    rw [PduAssoc.eq_aside (alike.core halive).symm, depth]
    exact seen_outcome t.assoc i s.frames.length s.assoc
  cases (step_call halive hi).symm.trans step
  refine ⟨_, _, step_call (alike.alive.trans halive) hi, congrArg (·.2.1) same, ?_⟩
  rw [Sys.bury_depth, Sys.bury_depth]
  exact (alike.perform halive same).bury i

/-- The return of a callback on both sides of a lock step. -/
theorem Alike.back {s t : Sys} {n m : Nat} (alike : Alike (s, n) (t, m)) (halive : s.alive = true)
    {ans : Answers} (read : nothingMore (s, n) (.ret ans) = true) {s' : Sys} {o : List Call}
    (step : pdu.step s (.ret ans) = some (s', o)) :
    ∃ t' o', pdu.step t (.ret ans) = some (t', o') ∧ view o' = view o ∧
      Alike (s', min n s'.frames.length) (t', min m t'.frames.length) := by
  obtain ⟨now, old, hconn, rfl, hs, ht⟩ := alike.frames halive
  change s.frames = now ++ old at hs
  change t.frames = now ++ old.map (fun _ => Frame.tail) at ht
  have hm : m = old.length := alike.left
  have core : t.assoc.core = s.assoc.core := alike.core halive
  have hlive : ∀ f : Frame, f.reads = true → t.alive = true := fun _ _ => alike.alive.trans halive
  subst hm
  cases now with
  | cons f now =>
    -- a callback of the new connection: the same code runs on both sides
    obtain ⟨rfl, rfl⟩ :=
      Prod.mk.inj (Option.some.inj ((step_back _ hs fun _ => halive).symm.trans step))
    have same : (t.assoc.resume f ans (now ++ old.map fun _ => Frame.tail).length).seen =
        (s.assoc.resume f ans (now ++ old).length).seen := by
      rw [PduAssoc.eq_aside core.symm, List.length_append, List.length_append, List.length_map]
      exact seen_resume t.assoc f ans _ s.assoc
    have popped : Alike ({ s with frames := now ++ old }, old.length)
        ({ t with frames := now ++ old.map fun _ => .tail }, old.length) :=
      ⟨rfl, alike.alive, by simp, fun _ => core, fun _ => ⟨now, old, hconn, rfl, rfl, rfl⟩⟩
    exact ⟨_, _, step_back _ ht (hlive f), congrArg (·.2.1) same, popped.perform halive same⟩
  | nil =>
    rw [List.nil_append] at hs ht
    cases old with
    | nil =>
      exact absurd ((step_idle hs).symm.trans step) nofun
    | cons f old =>
      -- a callback of the old connection: nothing shows
      obtain ⟨rfl, rfl⟩ :=
        Prod.mk.inj (Option.some.inj ((step_back _ hs fun _ => halive).symm.trans step))
      have nothing : ans.more = false := by
        simpa only [nothingMore, hs, Nat.le_refl, decide_true, Bool.true_and, Bool.not_eq_true']
          using read
      have hfc : f ≠ .connect := fun h => hconn (h ▸ List.mem_cons_self)
      have quiet := seen_resume_old hfc ans nothing old.length s.assoc
      have same : (t.assoc.resume .tail ans (old.map fun _ => Frame.tail).length).seen =
          (s.assoc.resume f ans old.length).seen := by
        rw [quiet]
        simp only [PduAssoc.resume, Outcome.seen, core]
      have popped : Alike ({ s with frames := old }, old.length)
          ({ t with frames := old.map fun _ => .tail }, old.length) :=
        ⟨rfl, alike.alive, by simp, fun _ => core,
          fun _ => ⟨[], old, fun h => hconn (List.mem_cons_of_mem _ h), rfl, rfl, rfl⟩⟩
      have hframe : (s.assoc.resume f ans old.length).frame = none := congrArg (·.2.2) quiet
      have depth : ({ s with frames := old }.perform
          (s.assoc.resume f ans old.length)).1.frames.length = old.length := by
        simp only [Sys.perform, hframe, Option.toList_none, List.nil_append]
      have done := popped.perform halive same
      have depth' := done.depth.trans depth
      have left : ∀ k, k = old.length → min (f :: old).length k = min old.length k := by
        rintro k rfl
        simp only [List.length_cons, Nat.min_self, Nat.min_eq_right (Nat.le_succ old.length)]
      refine ⟨_, _, step_back _ ht (hlive .tail), congrArg (·.2.1) same, ?_⟩
      rw [left _ depth, left _ depth']
      exact done

/-- A callback returns into an association that is gone on both sides. -/
theorem Alike.gone {s t : Sys} {n m : Nat} (alike : Alike (s, n) (t, m)) (hdead : s.alive = false)
    {ans : Answers} {s' : Sys} {o : List Call} (step : pdu.step s (.ret ans) = some (s', o)) :
    ∃ t' o', pdu.step t (.ret ans) = some (t', o') ∧ view o' = view o ∧
      Alike (s', min n s'.frames.length) (t', min m t'.frames.length) := by
  have below : t.frames.length = s.frames.length := alike.depth
  have left : m = n := alike.left
  have hdead' : t.alive = false := alike.alive.trans hdead
  cases hs : s.frames with
  | nil => cases (step_idle hs).symm.trans step
  | cons f fs =>
    cases ht : t.frames with
    | nil => simp [hs, ht] at below
    | cons g gs =>
      have depth : gs.length = fs.length := by simpa [hs, ht] using below
      obtain ⟨p, hp, hview⟩ := ret_dead hdead hs ans
      obtain ⟨q, hq, hview'⟩ := ret_dead hdead' ht ans
      obtain ⟨rfl, rfl⟩ := Prod.mk.inj (Option.some.inj (hp.symm.trans step))
      refine ⟨_, q, hq, hview'.trans hview.symm, alike_dead ?_ hdead hdead' depth⟩
      simp only [left, depth]

/-- One step on both sides of a lock step. -/
theorem Alike.step {s t : Sys} {n m : Nat} (alike : Alike (s, n) (t, m)) {i : Input}
    (read : nothingMore (s, n) i = true) {s' : Sys} {o : List Call}
    (step : pdu.step s i = some (s', o)) :
    ∃ t' o', pdu.step t i = some (t', o') ∧ view o' = view o ∧
      Alike (s', min n s'.frames.length) (t', min m t'.frames.length) := by
  by_cases hret : ∃ ans, i = .ret ans
  · obtain ⟨ans, rfl⟩ := hret
    cases halive : s.alive with
    | true => exact alike.back halive read step
    | false => exact alike.gone halive step
  · have hi : ∀ ans, i ≠ .ret ans := fun ans he => hret ⟨ans, he⟩
    cases halive : s.alive with
    | true => exact alike.call halive hi step
    | false => cases (step_refused halive hi).symm.trans step

/-- What one side refuses the other refuses. -/
theorem Alike.refuse {s t : Sys} {n m : Nat} (alike : Alike (s, n) (t, m)) {i : Input}
    (refused : pdu.step s i = none) : pdu.step t i = none := by
  by_cases hret : ∃ ans, i = .ret ans
  · obtain ⟨ans, rfl⟩ := hret
    have below : t.frames.length = s.frames.length := alike.depth
    cases hs : s.frames with
    | nil =>
      rw [hs, List.length_nil, List.length_eq_zero_iff] at below
      exact step_idle below
    | cons f fs =>
      cases halive : s.alive with
      | true => cases (step_back _ hs fun _ => halive).symm.trans refused
      | false =>
        obtain ⟨o, ho, _⟩ := ret_dead halive hs ans
        cases ho.symm.trans refused
  · have hi : ∀ ans, i ≠ .ret ans := fun ans he => hret ⟨ans, he⟩
    cases halive : s.alive with
    | true => cases (step_call halive hi).symm.trans refused
    | false => exact step_refused (alike.alive.trans halive) hi

/-- **Lock step**: associations that differ in what is put aside show the same, whatever comes. -/
theorem alike_lockStep : (later.restrict nothingMore).LockStep view Alike where
  refuse := by
    rintro ⟨s, n⟩ ⟨t, m⟩ i alike refused
    cases read : nothingMore (s, n) i with
    | false => simp [Machine.restrict, alike.assumed i, read]
    | true =>
      have refused' : pdu.step s i = none := by simpa [Machine.restrict, later, read] using refused
      simp only [Machine.restrict, later, alike.refuse refused', Option.map_none, ite_self]
  accept := by
    rintro ⟨s, n⟩ ⟨t, m⟩ i s' o alike step
    obtain ⟨read, next, hstep, rfl⟩ := later_step.mp step
    obtain ⟨t', o', ht, hview, alike'⟩ := alike.step read hstep
    exact ⟨_, o', later_step.mpr ⟨(alike.assumed i).trans read, t', ht, rfl⟩, hview, alike'⟩

/-! ## What stays of a `close_session` -/

namespace PduAssoc

theorem dead_flushPdu (ans : Answers) (a : PduAssoc) :
    (a.flushPdu ans).assoc.sessionIsDead = a.sessionIsDead := by
  have fl := flushPdu_flushed ans a
  generalize a.flushPdu ans = o at fl
  cases fl <;> rfl

theorem dead_receive (ans : Answers) (depth : Nat) (a : PduAssoc) :
    (a.receive ans depth).assoc.sessionIsDead = a.sessionIsDead := by
  have rc := receive_received ans depth a
  generalize a.receive ans depth = o at rc
  cases rc <;> rfl

theorem dead_socketNotify (event : Nat) (ans : Answers) (depth : Nat) (a : PduAssoc) :
    (a.socketNotify event ans depth).assoc.sessionIsDead = a.sessionIsDead := by
  have nt := socketNotify_notified event ans depth a
  generalize a.socketNotify event ans depth = o at nt
  cases nt with
  | acceptDone => exact dead_flushPdu ans { a with state := .ready }
  | connectUnobserved => exact dead_flushPdu ans { a with state := .ready }
  | listened =>
    have ls := notifyListen_listened event ans a
    generalize a.notifyListen event ans = o at ls
    cases ls <;> rfl
  | writing => exact dead_flushPdu ans a
  | ready => exact dead_receive ans depth a
  | _ => rfl

theorem dead_sendPdu (buf : Buf) (ans : Answers) (a : PduAssoc) :
    (a.sendPdu buf ans).assoc.sessionIsDead = a.sessionIsDead := by
  have st := sendPdu_sent buf ans a
  generalize a.sendPdu buf ans = o at st
  cases st with
  | flushed => exact dead_flushPdu ans { a with queueOut := [buf] }
  | _ => rfl

theorem dead_connect (observer : Observer) (addr : String) (cs : Comstack) (ans : Answers)
    (a : PduAssoc) : (a.connect observer addr cs ans).assoc.sessionIsDead = a.sessionIsDead := by
  have ct := connect_connected observer addr cs ans a
  generalize a.connect observer addr cs ans = o at ct
  cases ct <;> rfl

theorem dead_listen (observer : Observer) (addr : String) (cs : Comstack) (ans : Answers)
    (a : PduAssoc) : (a.listen observer addr cs ans).assoc.sessionIsDead = a.sessionIsDead := by
  have lm := listen_made observer addr cs ans a
  generalize a.listen observer addr cs ans = o at lm
  cases lm <;> rfl

theorem dead_resume (f : Frame) (ans : Answers) (depth : Nat) (a : PduAssoc) :
    (a.resume f ans depth).assoc.sessionIsDead = a.sessionIsDead := by
  cases f with
  | recv destroyed =>
    cases destroyed with
    | true => rfl
    | false =>
      have rs := resumeRecv_resumed ans depth a
      simp only [resume]
      generalize a.resumeRecv ans depth = o at rs
      cases rs with
      | more => exact dead_receive ans depth { a with destroyed := .null }
      | _ => rfl
  | connect => exact dead_flushPdu ans a
  | session child =>
    simp only [resume, resumeSession]
    split <;> rfl
  | tail => rfl

end PduAssoc

open PduAssoc in
/-- `m_session_is_dead` is set by `close_session`, and reset by nothing. -/
theorem dead_outcome (i : Input) (depth : Nat) (a : PduAssoc) :
    (i.outcome a depth).assoc.sessionIsDead = (a.sessionIsDead || decide (i = .closeSession)) := by
  cases i with
  | connect observer addr cs ans =>
    exact (dead_connect observer addr cs ans a).trans (Bool.or_false _).symm
  | listen observer addr cs ans =>
    exact (dead_listen observer addr cs ans a).trans (Bool.or_false _).symm
  | sendPdu buf ans =>
    exact (dead_sendPdu buf ans a).trans (Bool.or_false _).symm
  | closeSession =>
    simp only [Input.outcome, closeSession, decide_true, Bool.or_true]
    split <;> rfl
  | socketNotify event ans =>
    exact (dead_socketNotify event ans depth a).trans (Bool.or_false _).symm
  | unlink child =>
    simp only [Input.outcome, unlink, reduceCtorEq, decide_false, Bool.or_false]
    split <;> rfl
  | _ => simp [Input.outcome, shutdown, teardown, destroy, setIdleTime, setCertFname, Outcome.after]

theorem dead_step {s s' : Sys} {i : Input} {o : List Call} (step : pdu.step s i = some (s', o)) :
    s'.assoc.sessionIsDead = (s.assoc.sessionIsDead || decide (i = .closeSession)) := by
  cases stepped_of_step step with
  | call =>
    rw [Sys.bury_assoc]
    exact dead_outcome i s.frames.length s.assoc
  | @back ans f fs =>
    exact (PduAssoc.dead_resume f ans fs.length s.assoc).trans (Bool.or_false _).symm
  | dead => simp

/-- **The session is dead exactly when `close_session` was called**, on whatever connection. -/
theorem dead_iff {is : List Input} {s : Sys} {h : List Call} (run : pdu.Run Sys.Born is s h) :
    s.assoc.sessionIsDead = true ↔ .closeSession ∈ is := by
  induction run with
  | start born =>
    cases born with
    | new => simp
    | accepted pending fileno hcs =>
      simp only [PduAssoc.accepted]
      split <;> simp [Sys.perform, PduAssoc.dead_flushPdu, PduAssoc.init]
  | @step is s s' h o i _ step ih =>
    rw [dead_step step, Bool.or_eq_true, ih, decide_eq_true_eq, List.mem_append,
      List.mem_singleton, eq_comm (a := i)]

/-! ## Without a dead session and a running `connectNotify` -/

namespace PduAssoc

/-- A `connect` keeps nothing of the core but `m_session_is_dead`. -/
theorem core_connect {observer : Observer} {addr : String} {cs : Comstack} {ans : Answers}
    {a b : PduAssoc} (dead : a.sessionIsDead = b.sessionIsDead) :
    (a.connect observer addr cs ans).assoc.core = (b.connect observer addr cs ans).assoc.core := by
  unfold connect
  simp only [shutdown_assoc, core, dead]
  split
  · rfl
  split
  · rfl
  split
  · rfl
  · rfl

theorem frame_connect {observer : Observer} {addr : String} {cs : Comstack} {ans : Answers}
    {a : PduAssoc} : (a.connect observer addr cs ans).frame = none := by
  have ct := connect_connected observer addr cs ans a
  generalize a.connect observer addr cs ans = o at ct
  cases ct <;> rfl

end PduAssoc

theorem frames_connected {observer : Observer} {addr : String} {cs : Comstack} {ans : Answers}
    {s : Sys} : (s.connected observer addr cs ans).1.frames = s.frames := by
  simp only [Sys.connected, Sys.perform, PduAssoc.frame_connect, Option.toList_none,
    List.nil_append]

/-- A reconnected association starts in lock step with a new one. -/
theorem alike_connected {observer : Observer} {addr : String} {cs : Comstack} {ans : Answers}
    {s : Sys} (halive : s.alive = true) (dead : s.assoc.sessionIsDead = false)
    (idle : .connect ∉ s.frames) :
    Alike (s.connected observer addr cs ans) (s.fresh.connected observer addr cs ans) := by
  have frames : s.fresh.frames = s.frames.map fun _ => .tail := rfl
  refine ⟨?_, halive.symm, ?_, fun _ => PduAssoc.core_connect dead.symm, fun _ => ?_⟩
  · simp only [Sys.connected, frames, List.length_map]
  · simp only [frames_connected, frames, List.length_map]
  · exact ⟨[], s.frames, idle, rfl, frames_connected, frames_connected⟩

/-! ## What shows otherwise -/

/-- Both sides take a step in which no old receive loop reads. -/
theorem both_step {s t s' t' : Sys} {n m : Nat} {i : Input} {o o' : List Call}
    (same : (later.restrict nothingMore).Indistinguishable view (s, n) (t, m))
    (read : nothingMore (s, n) i = true) (read' : nothingMore (t, m) i = true)
    (hs : pdu.step s i = some (s', o)) (ht : pdu.step t i = some (t', o')) :
    view o = view o' ∧
      ∃ n' m', (later.restrict nothingMore).Indistinguishable view (s', n') (t', m') := by
  obtain ⟨hview, next⟩ := same.step (later_step.mpr ⟨read, s', hs, rfl⟩)
    (later_step.mpr ⟨read', t', ht, rfl⟩)
  exact ⟨hview, _, _, next⟩

/-- A connection that has just opened, in the middle of its `connectNotify`. -/
structure Reopened (s s' : Sys) : Prop where
  alive : s'.alive = true
  frames : s'.frames = .connect :: s.frames
  state : s'.assoc.state = .ready
  cs : s'.assoc.cs = 1
  queue : s'.assoc.queueOut = []
  dead : s'.assoc.sessionIsDead = s.assoc.sessionIsDead

theorem reopen {s : Sys} (halive : s.alive = true) : ∃ s₁ o₁ s₂ o₂,
    pdu.step s (.connect 1 "tcp:host:210" 1 {}) = some (s₁, o₁) ∧
    pdu.step s₁ (.socketNotify observeWrite {}) = some (s₂, o₂) ∧ Reopened s s₂ := by
  obtain ⟨a, alive, entry, frames⟩ := s
  cases halive
  exact ⟨_, _, _, _, rfl, rfl, ⟨rfl, rfl, rfl, rfl, rfl, rfl⟩⟩

theorem both_reopen {s t : Sys} {n m : Nat}
    (same : (later.restrict nothingMore).Indistinguishable view (s, n) (t, m))
    (hs : s.alive = true) (ht : t.alive = true) :
    ∃ s' t' n' m', (later.restrict nothingMore).Indistinguishable view (s', n') (t', m') ∧
      Reopened s s' ∧ Reopened t t' := by
  obtain ⟨s₁, _, s₂, _, hs₁, hs₂, opened⟩ := reopen hs
  obtain ⟨t₁, _, t₂, _, ht₁, ht₂, opened'⟩ := reopen ht
  obtain ⟨_, _, _, same₁⟩ := both_step same rfl rfl hs₁ ht₁
  obtain ⟨_, _, _, same₂⟩ := both_step same₁ rfl rfl hs₂ ht₂
  exact ⟨s₂, t₂, _, _, same₂, opened, opened'⟩

/-- A dead session shows: the next connection is closed behind its `connectNotify`. -/
theorem dead_shows {p q : Sys × Nat}
    (same : (later.restrict nothingMore).Indistinguishable view p q)
    (hp : p.1.alive = true) (hq : q.1.alive = true) (fresh : q.1.assoc.sessionIsDead = false) :
    p.1.assoc.sessionIsDead = false := by
  obtain ⟨s, n⟩ := p
  obtain ⟨t, m⟩ := q
  obtain ⟨s', t', n', m', same', opened, opened'⟩ := both_reopen same hp hq
  have read : ∀ p : Sys × Nat, nothingMore p (.ret {}) = true := fun p => by simp [nothingMore]
  obtain ⟨hview, _⟩ := both_step same' (read _) (read _)
    (step_back {} opened.frames fun _ => opened.alive)
    (step_back {} opened'.frames fun _ => opened'.alive)
  cases hdead : s.assoc.sessionIsDead with
  | false => rfl
  | true =>
    have notified : .failNotify ∈ view (s'.assoc.resume .connect {} s.frames.length).calls := by
      simp [PduAssoc.resume, PduAssoc.resumeConnect, PduAssoc.flushPdu, opened.state, opened.queue,
        opened.dead, hdead, view, Call.seen]
    have quiet : view (t'.assoc.resume .connect {} t.frames.length).calls = [] := by
      simp [PduAssoc.resume, PduAssoc.resumeConnect, PduAssoc.flushPdu, opened'.state,
        opened'.queue, opened'.dead, show t.assoc.sessionIsDead = false from fresh, view, Call.seen]
    rw [hview, quiet] at notified
    cases notified

/-- A connection that waits to write the rest of one PDU. -/
structure Waiting (s : Sys) : Prop where
  alive : s.alive = true
  state : s.assoc.state = .writing
  queue : s.assoc.queueOut = [[1]]

/-- The flush behind an old `connectNotify` shows, once the callbacks inside it have returned. -/
theorem connect_shows {pre post : List Frame} {s t : Sys} {n m : Nat}
    (same : (later.restrict nothingMore).Indistinguishable view (s, n) (t, m)) (waiting : Waiting s)
    (alive : t.alive = true) (inside : .connect ∉ pre) (hs : s.frames = pre ++ .connect :: post)
    (ht : t.frames = s.frames.map fun _ => .tail) : False := by
  have read : ∀ p : Sys × Nat, nothingMore p (.ret {}) = true := fun p => by simp [nothingMore]
  induction pre generalizing s t n m with
  | nil =>
    rw [List.nil_append] at hs
    rw [hs, List.map_cons] at ht
    obtain ⟨hview, _⟩ := both_step same (read _) (read _)
      (step_back {} hs fun _ => waiting.alive) (step_back {} ht fun _ => alive)
    have flushed :
        .csPut s.assoc.cs [1] 0 ∈ view (s.assoc.resume .connect {} post.length).calls := by
      simp [PduAssoc.resume, PduAssoc.resumeConnect, PduAssoc.flushPdu, waiting.state,
        waiting.queue, view]
      split <;> simp [Call.seen]
    rw [hview] at flushed
    cases flushed
  | cons f pre ih =>
    rw [List.cons_append] at hs
    rw [hs, List.map_cons] at ht
    obtain ⟨_, n', m', same'⟩ := both_step same (read _) (read _)
      (step_back {} hs fun _ => waiting.alive) (step_back {} ht fun _ => alive)
    have hf : f ≠ .connect := fun h => inside (h ▸ List.mem_cons_self)
    have quiet := seen_resume_old hf {} rfl (pre ++ .connect :: post).length s.assoc
    have core : (s.assoc.resume f {} (pre ++ .connect :: post).length).assoc.core = s.assoc.core :=
      congrArg (·.1) quiet
    have frames := congrArg (fun f : Option Frame => f.toList ++ (pre ++ .connect :: post))
      (congrArg (·.2.2) quiet)
    exact ih same'
      ⟨waiting.alive, (congrArg PduAssoc.state core).trans waiting.state,
        (congrArg PduAssoc.queueOut core).trans waiting.queue⟩
      alive (fun h => inside (List.mem_cons_of_mem _ h)) frames
      (congrArg (List.map fun _ => Frame.tail) frames).symm

/-- Inside `connectNotify` a PDU is sent, of which `cs_put` takes a part, then and behind it. -/
theorem wait {s s' : Sys} (opened : Reopened s s') : ∃ s₁ o₁ s₂ o₂,
    pdu.step s' (.sendPdu [1] { put := { res := 1 } }) = some (s₁, o₁) ∧
    pdu.step s₁ (.ret { put := { res := 1 } }) = some (s₂, o₂) ∧ Waiting s₂ ∧
      s₂.frames = s.frames := by
  obtain ⟨⟨state, cs, queue, _, _, _, _, _, _, _, _⟩, alive, entry, frames⟩ := s'
  obtain ⟨halive, hframes, hstate, hcs, hqueue, _⟩ := opened
  cases halive
  cases hframes
  cases hstate
  cases hcs
  cases hqueue
  exact ⟨_, _, _, _, rfl, rfl, ⟨rfl, rfl, rfl⟩, rfl⟩

/-- An old `connectNotify` shows. -/
theorem connectNotify_shows {p q : Sys × Nat}
    (same : (later.restrict nothingMore).Indistinguishable view p q)
    (hp : p.1.alive = true) (hq : q.1.alive = true)
    (frames : q.1.frames = p.1.frames.map fun _ => .tail) : .connect ∉ p.1.frames := by
  intro hmem
  obtain ⟨s, n⟩ := p
  obtain ⟨t, m⟩ := q
  obtain ⟨pre, post, hsplit, hpre⟩ := List.eq_append_cons_of_mem hmem
  obtain ⟨s', t', n', m', same', opened, opened'⟩ := both_reopen same hp hq
  obtain ⟨s₁, _, s₂, _, hs₁, hs₂, waiting, hs⟩ := wait opened
  obtain ⟨t₁, _, t₂, _, ht₁, ht₂, waiting', ht⟩ := wait opened'
  have read : ∀ p : Sys × Nat, nothingMore p (.ret { put := { res := 1 } }) = true :=
    fun p => by simp [nothingMore]
  obtain ⟨_, _, _, same₁⟩ := both_step same' rfl rfl hs₁ ht₁
  obtain ⟨_, _, _, same₂⟩ := both_step same₁ (read _) (read _) hs₂ ht₂
  refine connect_shows same₂ waiting waiting'.alive hpre (hs.trans hsplit) ?_
  rw [ht, hs]
  exact frames

/-- **Reconnecting equals starting fresh, exactly when** no `close_session` was ever called on the
association and the `connect` is not made from inside its `connectNotify`; where the new COMSTACK
has nothing for a receive loop of the old connection (`nothingMore`). -/
theorem reconnect_fresh_iff {is : List Input} {s : Sys} {h : List Call}
    (run : pdu.Run Sys.Born is s h) (halive : s.alive = true) (observer : Observer)
    (addr : String) (cs : Comstack) (ans : Answers) :
    (later.restrict nothingMore).Indistinguishable view (s.connected observer addr cs ans)
        (s.fresh.connected observer addr cs ans) ↔
      .closeSession ∉ is ∧ .connect ∉ s.frames := by
  have dead : (s.connected observer addr cs ans).1.assoc.sessionIsDead = s.assoc.sessionIsDead :=
    PduAssoc.dead_connect observer addr cs ans s.assoc
  have fresh : (s.fresh.connected observer addr cs ans).1.assoc.sessionIsDead = false :=
    PduAssoc.dead_connect observer addr cs ans {}
  constructor
  · intro same
    refine ⟨fun hmem => ?_, ?_⟩
    · have hdead := dead.symm.trans (dead_shows same halive rfl fresh)
      cases hdead.symm.trans ((dead_iff run).mpr hmem)
    · have frames : (s.fresh.connected observer addr cs ans).1.frames =
          (s.connected observer addr cs ans).1.frames.map fun _ => .tail := by
        rw [frames_connected, frames_connected]
        rfl
      have shown := connectNotify_shows same halive rfl frames
      rwa [frames_connected] at shown
  · rintro ⟨closed, idle⟩
    have hdead : s.assoc.sessionIsDead = false :=
      Bool.eq_false_iff.mpr fun h => closed ((dead_iff run).mp h)
    exact alike_lockStep.indistinguishable (alike_connected halive hdead idle)

/-- After a connection that was shut down with a PDU to write, a reconnected association cannot be
told from a new one. -/
theorem reconnect_fresh_shutdown : ∃ s h, pdu.Run Sys.Born
    [.connect 1 "tcp:host:210" 1 {}, .sendPdu [1] {}, .shutdown] s h ∧
    (later.restrict nothingMore).Indistinguishable view (s.connected 1 "tcp:host:210" 2 {})
      (s.fresh.connected 1 "tcp:host:210" 2 {}) := by
  have exec : pdu.exec {} [.connect 1 "tcp:host:210" 1 {}, .sendPdu [1] {}, .shutdown] =
      some _ := rfl
  have run := Machine.Run.exec (.start Sys.Born.new) exec
  exact ⟨_, _, run, (reconnect_fresh_iff run rfl 1 "tcp:host:210" 2 {}).mpr ⟨by decide, by decide⟩⟩

/-- **A closed session closes the next connection**: after a `close_session`, with no callback
running, the new COMSTACK is closed right behind its `connectNotify`, which a new association does
not do. -/
theorem reconnect_closes : ∃ s h, pdu.Run Sys.Born
    [.connect 1 "tcp:host:210" 1 {}, .closeSession, .ret {}] s h ∧ s.frames = [] ∧
    (later.restrict nothingMore).trace view (s.connected 1 "tcp:host:210" 2 {})
        [.socketNotify observeWrite {}, .ret {}] =
      [some [.csRcvconnect 2 0, .connectNotify], some [.csClose 2, .failNotify]] ∧
    (later.restrict nothingMore).trace view (s.fresh.connected 1 "tcp:host:210" 2 {})
        [.socketNotify observeWrite {}, .ret {}] =
      [some [.csRcvconnect 2 0, .connectNotify], some []] := by
  have exec : pdu.exec {} [.connect 1 "tcp:host:210" 1 {}, .closeSession, .ret {}] = some _ := rfl
  exact ⟨_, _, Machine.Run.exec (.start Sys.Born.new) exec, rfl, rfl, rfl⟩

end Yazpp
