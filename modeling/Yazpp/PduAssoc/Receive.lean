import Yazpp.PduAssoc.Spec

/-!
# No received PDU is left behind

COMSTACK reads octets ahead: a `cs_get` that returns one PDU may leave others complete in its
buffer, and the socket shows nothing of them. `Wire` is what is assumed of it. Only `cs_get`
reads, it takes the PDUs in the order they came, `cs_more` answers whether one is buffered, and 1
is answered only when none is; a new COMSTACK has none.

The association under this assumption is the machine `fed`, whose inputs say what each `cs_get`
reads from the peer. Whatever the observer does inside `recv_PDU`, the receive loop goes on until
`cs_more` answers no, in state Writing too. So when no `recv_PDU` of the connection is running,
nothing is buffered and the observer has heard every PDU once, in order (`nothing_left_behind`). A
`socketNotify` inside `recv_PDU` returns into that loop, and may leave it something to read
(`left_behind_inside`).
-/

set_option autoImplicit false

namespace Yazpp

open Yazpp.Lib

/-! ## What is assumed of COMSTACK -/

/-- The incoming side of the installed COMSTACK: the complete PDUs read from the peer, in the order
they came, those of them still buffered, and those `recv_PDU` was called with. -/
structure Wire where
  read : List Buf := []
  unread : List Buf := []
  heard : List Buf := []
deriving DecidableEq, Repr

/-- One call, when `cs_get` reads the PDUs `new` from the peer; `none` is an answer that COMSTACK
does not give. -/
def Wire.call (new : List Buf) (w : Wire) : Call → Option Wire
  | .csGet _ res buf =>
    match w.unread ++ new with
    | [] => if res ≤ 1 then some w else none
    | next :: rest =>
      if 1 < res ∧ buf = next then some { w with read := w.read ++ new, unread := rest } else none
  | .csMore _ more => if more = !w.unread.isEmpty then some w else none
  | .recvPdu buf _ => some { w with heard := w.heard ++ [buf] }
  | .csCreateHost _ cs => if cs = 0 then some w else some {}
  | .csAttach _ => some {}
  | _ => some w

/-- The calls of one step. -/
def Wire.calls (new : List Buf) (w : Wire) (calls : List Call) : Option Wire :=
  calls.foldlM (Wire.call new) w

/-- Whether a call installs a COMSTACK. -/
def Call.installs : Call → Bool
  | .csCreateHost _ cs => cs != 0
  | .csAttach _ => true
  | _ => false

/-- The association, its wire, and how many of the running callbacks began before the COMSTACK was
installed. -/
structure Fed where
  sys : Sys
  wire : Wire := {}
  old : Nat := 0

/-- How many callbacks of before are still running when the input has been read. -/
def Input.below (s : Sys) : Input → Nat
  | .ret _ => s.frames.length - 1
  | _ => s.frames.length

/-- The association over a COMSTACK that keeps what is assumed of it. -/
def fed : Machine Fed (Input × List Buf) Call where
  step x i :=
    if i.1.observed x.sys then
      match pdu.step x.sys i.1 with
      | none => none
      | some (s, calls) => (x.wire.calls i.2 calls).map fun wire =>
        ({ sys := s
           wire := wire
           old := if calls.any Call.installs then s.frames.length
             else min x.old (i.1.below x.sys) }, calls)
    else none

/-- A new association, with nothing read. -/
inductive Fed.Born : Fed → List Call → Prop
  | born {s : Sys} {h : List Call} : s.Born h → Fed.Born { sys := s } h

/-- The running callbacks of the installed connection. -/
def Fed.callbacks (x : Fed) : List Frame := x.sys.frames.take (x.sys.frames.length - x.old)

/-- A running `recv_PDU` that the receive loop goes on behind. -/
def Frame.isRecv : Frame → Bool
  | .recv destroyed => !destroyed
  | _ => false

/-! ## What each function does to the wire -/

/-- A call that the wire does not see. -/
def Call.offWire : Call → Bool
  | .csGet .. | .csMore .. | .recvPdu .. | .csCreateHost .. | .csAttach .. => false
  | _ => true

theorem wire_offWire {new : List Buf} {w : Wire} {calls : List Call}
    (off : calls.all Call.offWire = true) : w.calls new calls = some w := by
  induction calls with
  | nil => rfl
  | cons c calls ih =>
    simp only [List.all_cons, Bool.and_eq_true] at off
    have hc : w.call new c = some w := by
      cases c <;> first | rfl | cases off.1
    simp only [Wire.calls, List.foldlM_cons, hc, Option.bind_eq_bind, Option.bind_some]
    exact ih off.2

theorem wire_append {new : List Buf} {w : Wire} {calls more : List Call} :
    w.calls new (calls ++ more) = (w.calls new calls).bind fun w' => w'.calls new more := by
  simp only [Wire.calls, List.foldlM_append, Option.bind_eq_bind]

/-- Everything read was heard or is buffered. -/
def Wire.Balanced (w : Wire) : Prop := w.heard ++ w.unread = w.read

/-- What an outcome leaves on the wire: the books are balanced, and either nothing is buffered, or
`recv_PDU` runs, or the connection is gone. -/
structure Drains (w w' : Wire) (o : Outcome) : Prop where
  kept : o.calls.any Call.installs = false
  balanced : w.Balanced → w'.Balanced
  drained : o.assoc.cs = 0 ∨ w'.unread = [] ∨ o.frame = some (.recv false)

/-- The same, of an outcome that may leave the wire as it was. -/
structure Feeds (a : PduAssoc) (w w' : Wire) (o : Outcome) : Prop where
  kept : o.calls.any Call.installs = false
  balanced : w.Balanced → w'.Balanced
  drained : (o.assoc.cs = a.cs ∧ w' = w) ∨ o.assoc.cs = 0 ∨ w'.unread = [] ∨
    o.frame = some (.recv false)

theorem Drains.feeds {a : PduAssoc} {w w' : Wire} {o : Outcome} (drains : Drains w w' o) :
    Feeds a w w' o :=
  ⟨drains.kept, drains.balanced, .inr drains.drained⟩

/-- What the wire does not see installs nothing. -/
theorem installs_offWire {calls : List Call} (off : calls.all Call.offWire = true) :
    calls.any Call.installs = false := by
  rw [List.any_eq_false]
  intro c hc
  have hoff := List.all_eq_true.mp off c hc
  cases c with
  | csCreateHost addr cs => cases hoff
  | csAttach cs => cases hoff
  | _ => nofun

/-- An outcome that the wire does not see. -/
theorem feeds_of_off {a : PduAssoc} {w w' : Wire} {new : List Buf} {o : Outcome}
    (off : o.calls.all Call.offWire = true) (hcs : o.assoc.cs = a.cs ∨ o.assoc.cs = 0)
    (step : w.calls new o.calls = some w') : Feeds a w w' o := by
  cases (wire_offWire off).symm.trans step
  exact ⟨installs_offWire off, id, hcs.imp (fun h => ⟨h, rfl⟩) .inl⟩

theorem offWire_shutdown (a : PduAssoc) : a.shutdown.calls.all Call.offWire = true :=
  a.all_shutdown_calls (fun _ => rfl) rfl fun _ => rfl

/-- `flush_PDU` does not see the wire. -/
theorem offWire_flushPdu (ans : Answers) (a : PduAssoc) :
    (a.flushPdu ans).calls.all Call.offWire = true ∧
      ((a.flushPdu ans).assoc.cs = a.cs ∨ (a.flushPdu ans).assoc.cs = 0) := by
  have off := offWire_shutdown a
  have fl := PduAssoc.flushPdu_flushed ans a
  generalize a.flushPdu ans = o at fl
  cases fl with
  | notReady => exact ⟨rfl, .inl rfl⟩
  | idle => exact ⟨rfl, .inl rfl⟩
  | idleDead => exact ⟨by simp [off, Call.offWire], .inr rfl⟩
  | failed => exact ⟨by simp [off, Call.offWire], .inr rfl⟩
  | partly => exact ⟨rfl, .inl rfl⟩
  | drained => exact ⟨rfl, .inl rfl⟩
  | drainedDead => exact ⟨by simp [off, Call.offWire], .inr rfl⟩
  | more => exact ⟨rfl, .inl rfl⟩

/-- **The receive loop** takes one PDU from the wire and gives it to `recv_PDU`, or finds none. -/
theorem drains_receive {ans : Answers} {depth : Nat} {a : PduAssoc} {w w' : Wire} {new : List Buf}
    (observer : a.observer ≠ 0) (step : w.calls new (a.receive ans depth).calls = some w') :
    Drains w w' (a.receive ans depth) := by
  have rc := PduAssoc.receive_received ans depth a
  generalize a.receive ans depth = o at rc step
  have none : ∀ {calls : List Call} {w₁ : Wire}, ans.get.res ≤ 1 → calls.all Call.offWire = true →
      w.calls new (.csGet a.cs ans.get.res ans.getBuf :: calls) = some w₁ →
      w₁ = w ∧ w.unread = [] := by
    intro calls w₁ hle off hstep
    rw [← List.singleton_append, wire_append] at hstep
    cases hunread : w.unread ++ new with
    | nil =>
      have hget : w.calls new [.csGet a.cs ans.get.res ans.getBuf] = some w := by
        simp [Wire.calls, Wire.call, hunread, hle]
      rw [hget, Option.bind_some, wire_offWire off] at hstep
      exact ⟨(Option.some.inj hstep).symm, (List.append_eq_nil_iff.mp hunread).1⟩
    | cons next rest =>
      have hget : w.calls new [.csGet a.cs ans.get.res ans.getBuf] = none := by
        simp [Wire.calls, Wire.call, hunread, Int.not_lt.mpr hle]
      rw [hget] at hstep
      cases hstep
  cases rc with
  | waits hone =>
    obtain ⟨rfl, hunread⟩ := none (Int.le_of_eq hone) rfl step
    exact ⟨rfl, id, .inr (.inl hunread)⟩
  | closed hle =>
    have off : a.shutdown.fail.calls.all Call.offWire = true := by
      simp [offWire_shutdown, Call.offWire]
    obtain ⟨rfl, _⟩ := none (by omega) off step
    exact ⟨(congrArg (false || ·) (installs_offWire off)).trans rfl, id, .inl rfl⟩
  | closedUnobserved _ hobs => exact absurd hobs observer
  | pdu hres =>
    cases hunread : w.unread ++ new with
    | nil => simp [Wire.calls, Wire.call, hunread, Int.not_le.mpr hres] at step
    | cons next rest =>
      by_cases hbuf : ans.getBuf = next
      · simp [Wire.calls, Wire.call, hunread, hres, hbuf] at step
        subst step
        refine ⟨rfl, fun balanced => ?_, .inr (.inr rfl)⟩
        simp only [Wire.Balanced] at balanced ⊢
        rw [← balanced, List.append_assoc, List.append_assoc, hunread]
        rfl
      · simp [Wire.calls, Wire.call, hunread, hbuf] at step
  | pduUnobserved _ hobs => exact absurd hobs observer

/-- Behind `recv_PDU` the loop goes on, or nothing is buffered. -/
theorem drains_resumeRecv {ans : Answers} {depth : Nat} {a : PduAssoc} {w w' : Wire}
    {new : List Buf} (observer : a.observer ≠ 0)
    (step : w.calls new (a.resumeRecv ans depth).calls = some w') :
    Drains w w' (a.resumeRecv ans depth) := by
  have rs := PduAssoc.resumeRecv_resumed ans depth a
  generalize a.resumeRecv ans depth = o at rs step
  have asked : ∀ {calls : List Call}, w.calls new (.csMore a.cs ans.more :: calls) = some w' →
      (ans.more = !w.unread.isEmpty) ∧ w.calls new calls = some w' := by
    intro calls hstep
    rw [← List.singleton_append, wire_append] at hstep
    by_cases hmore : ans.more = !w.unread.isEmpty
    · have hask : w.calls new [.csMore a.cs ans.more] = some w := by
        simp [Wire.calls, Wire.call, hmore]
      rw [hask, Option.bind_some] at hstep
      exact ⟨hmore, hstep⟩
    · have hask : w.calls new [.csMore a.cs ans.more] = none := by
        simp [Wire.calls, Wire.call, hmore]
      rw [hask] at hstep
      cases hstep
  have empty : ∀ {calls : List Call}, ans.more = false → calls.all Call.offWire = true →
      w.calls new (.csMore a.cs ans.more :: calls) = some w' → w' = w ∧ w.unread = [] := by
    intro calls hmore off hstep
    obtain ⟨hask, hrest⟩ := asked hstep
    rw [wire_offWire off] at hrest
    refine ⟨(Option.some.inj hrest).symm, ?_⟩
    rw [hmore] at hask
    simpa using hask
  cases rs with
  | gone hcs => exact ⟨rfl, by cases step; exact id, .inl hcs⟩
  | more _ hmore =>
    rw [Outcome.after_calls, List.singleton_append] at step
    have drains := drains_receive (a := { a with destroyed := .null }) observer (asked step).2
    exact ⟨drains.kept, drains.balanced, drains.drained⟩
  | ready _ hmore =>
    obtain ⟨rfl, hunread⟩ := empty hmore rfl step
    exact ⟨rfl, id, .inr (.inl hunread)⟩
  | notReady _ hmore =>
    obtain ⟨rfl, hunread⟩ := empty hmore rfl step
    exact ⟨rfl, id, .inr (.inl hunread)⟩

theorem feeds_flushPdu {ans : Answers} {a b : PduAssoc} {w w' : Wire} {new : List Buf}
    {calls : List Call} (same : b.cs = a.cs) (off : calls.all Call.offWire = true)
    (step : w.calls new ((b.flushPdu ans).after calls).calls = some w') :
    Feeds a w w' ((b.flushPdu ans).after calls) := by
  obtain ⟨hoff, hcs⟩ := offWire_flushPdu ans b
  have both : ((b.flushPdu ans).after calls).calls.all Call.offWire = true := by
    rw [Outcome.after_calls, List.all_append, off, hoff, Bool.and_self]
  exact feeds_of_off both (same ▸ hcs) step

theorem feeds_socketNotify {event : Nat} {ans : Answers} {depth : Nat} {a : PduAssoc}
    {w w' : Wire} {new : List Buf} (observer : a.observer ≠ 0)
    (step : w.calls new (a.socketNotify event ans depth).calls = some w') :
    Feeds a w w' (a.socketNotify event ans depth) := by
  have nt := PduAssoc.socketNotify_notified event ans depth a
  generalize a.socketNotify event ans depth = o at nt step
  cases nt with
  | except => exact feeds_of_off (by simp [offWire_shutdown, Call.offWire]) (.inr rfl) step
  | timeout => exact feeds_of_off rfl (.inl rfl) step
  | acceptFailed => exact feeds_of_off (by simp [offWire_shutdown, Call.offWire]) (.inr rfl) step
  | acceptMore => exact feeds_of_off rfl (.inl rfl) step
  | acceptDone => exact feeds_flushPdu rfl rfl step
  | connectMore => exact feeds_of_off rfl (.inl rfl) step
  | connectDone => exact feeds_of_off rfl (.inl rfl) step
  | connectUnobserved _ _ hobs => exact absurd hobs observer
  | listened =>
    have ls := PduAssoc.notifyListen_listened event ans a
    generalize a.notifyListen event ans = o at ls step
    cases ls <;> exact feeds_of_off rfl (.inl rfl) step
  | writing => exact feeds_of_off (offWire_flushPdu ans a).1 (offWire_flushPdu ans a).2 step
  | ready => exact (drains_receive observer step).feeds
  | nothing => exact feeds_of_off rfl (.inl rfl) step
  | closed => exact feeds_of_off (by simp [offWire_shutdown, Call.offWire]) (.inr rfl) step

theorem feeds_sendPdu {buf : Buf} {ans : Answers} {a : PduAssoc} {w w' : Wire} {new : List Buf}
    (step : w.calls new (a.sendPdu buf ans).calls = some w') :
    Feeds a w w' (a.sendPdu buf ans) := by
  have st := PduAssoc.sendPdu_sent buf ans a
  generalize a.sendPdu buf ans = o at st step
  cases st with
  | rejected => exact feeds_of_off rfl (.inl rfl) step
  | queued => exact feeds_of_off rfl (.inl rfl) step
  | flushed => exact feeds_flushPdu (b := { a with queueOut := [buf] }) rfl rfl step

/-- A new COMSTACK: nothing is read, and no callback of its connection is running. -/
structure Installed (w' : Wire) (o : Outcome) : Prop where
  installs : o.calls.any Call.installs = true
  wire : w' = {}
  frame : o.frame = none

/-- `shutdown`, then the calls that install `cs`. -/
theorem installed_after {a : PduAssoc} {addr : String} {cs : Comstack} {calls : List Call}
    {o : Outcome} {w w' : Wire} {new : List Buf} (hcs : cs ≠ 0)
    (off : calls.all Call.offWire = true) (frame : o.frame = none)
    (hcalls : o.calls = a.shutdown.calls ++ .csCreateHost addr cs :: calls)
    (step : w.calls new o.calls = some w') : Installed w' o := by
  refine ⟨?_, ?_, frame⟩
  · simp [hcalls, Call.installs, hcs]
  · rw [hcalls, wire_append, wire_offWire (offWire_shutdown a), Option.bind_some,
      ← List.singleton_append, wire_append] at step
    have hnew : w.calls new [.csCreateHost addr cs] = some {} := by
      simp [Wire.calls, Wire.call, hcs]
    rw [hnew, Option.bind_some, wire_offWire off] at step
    exact (Option.some.inj step).symm

/-- `shutdown`, and no COMSTACK to install. -/
theorem feeds_refused {a b : PduAssoc} {addr : String} {o : Outcome} {w w' : Wire}
    {new : List Buf} (hassoc : o.assoc.cs = 0)
    (hcalls : o.calls = b.shutdown.calls ++ [.csCreateHost addr 0])
    (step : w.calls new o.calls = some w') : Feeds a w w' o := by
  rw [hcalls, wire_append, wire_offWire (offWire_shutdown b), Option.bind_some] at step
  cases step
  refine ⟨?_, id, .inr (.inl hassoc)⟩
  rw [hcalls, List.any_append, installs_offWire (offWire_shutdown b)]
  rfl

/-- Every call on the association feeds, or installs a COMSTACK. -/
theorem feeds_outcome {i : Input} {depth : Nat} {s : Sys} {w w' : Wire} {new : List Buf}
    (observed : i.observed s = true)
    (step : w.calls new (i.outcome s.assoc depth).calls = some w') :
    Feeds s.assoc w w' (i.outcome s.assoc depth) ∨ Installed w' (i.outcome s.assoc depth) := by
  have off := offWire_shutdown s.assoc
  cases i with
  | connect observer addr cs ans =>
    have ct := PduAssoc.connect_connected observer addr cs ans s.assoc
    simp only [Input.outcome] at step ⊢
    generalize s.assoc.connect observer addr cs ans = o at ct step
    cases ct with
    | refused hcs =>
      subst hcs
      exact .inl (feeds_refused rfl rfl step)
    | pending mask hcs => exact .inr (installed_after hcs rfl rfl rfl step)
    | failed hcs => exact .inr (installed_after hcs rfl rfl rfl step)
  | listen observer addr cs ans =>
    have lm := PduAssoc.listen_made observer addr cs ans s.assoc
    simp only [Input.outcome] at step ⊢
    generalize s.assoc.listen observer addr cs ans = o at lm step
    cases lm with
    | stopped =>
      refine .inl (feeds_of_off ?_ (.inr rfl) step)
      simp only [PduAssoc.teardown]
      split <;> rfl
    | refused hcs =>
      subst hcs
      exact .inl (feeds_refused rfl rfl step)
    | unbound cert hcs =>
      exact .inr (installed_after hcs (by cases cert <;> rfl) rfl rfl step)
    | bound cert hcs =>
      exact .inr (installed_after hcs (by cases cert <;> rfl) rfl rfl step)
  | sendPdu buf ans => exact .inl (feeds_sendPdu step)
  | closeSession =>
    simp only [Input.outcome, PduAssoc.closeSession] at step ⊢
    split at step
    · next hq =>
      rw [if_pos hq]
      exact .inl (feeds_of_off (by simp [offWire_shutdown, Call.offWire]) (.inr rfl) step)
    · next hq =>
      rw [if_neg hq]
      exact .inl (feeds_of_off rfl (.inl rfl) step)
  | shutdown => exact .inl (feeds_of_off off (.inr rfl) step)
  | destroy =>
    refine .inl (feeds_of_off ?_ (.inr rfl) step)
    have strays : s.assoc.strays.all Call.offWire = true := s.assoc.all_strays rfl
    simp only [Input.outcome, PduAssoc.destroy, List.all_append, off, strays, Bool.true_and,
      Bool.and_eq_true, List.all_map]
    refine ⟨by cases s.assoc.parent <;> rfl, List.all_eq_true.mpr fun _ _ => rfl⟩
  | socketNotify event ans =>
    exact .inl (feeds_socketNotify (by simpa [Input.observed] using observed) step)
  | unlink child =>
    simp only [Input.outcome, PduAssoc.unlink] at step ⊢
    split at step
    · next hmem =>
      rw [if_pos hmem]
      exact .inl (feeds_of_off rfl (.inl rfl) step)
    · next hmem =>
      rw [if_neg hmem]
      exact .inl (feeds_of_off rfl (.inl rfl) step)
  | _ => exact .inl (feeds_of_off rfl (.inl rfl) step)

/-- The code behind a callback feeds; behind `recv_PDU` it drains. -/
theorem feeds_resume {f : Frame} {ans : Answers} {depth : Nat} {s : Sys} {w w' : Wire}
    {new : List Buf} (observed : (Input.ret ans).observed s = true)
    (step : w.calls new (s.assoc.resume f ans depth).calls = some w') :
    Feeds s.assoc w w' (s.assoc.resume f ans depth) ∧
      (f.isRecv = true → Drains w w' (s.assoc.resume f ans depth)) := by
  cases f with
  | recv destroyed =>
    cases destroyed with
    | true => exact ⟨feeds_of_off rfl (.inl rfl) step, by simp [Frame.isRecv]⟩
    | false =>
      have drains := drains_resumeRecv (by simpa [Input.observed] using observed) step
      exact ⟨drains.feeds, fun _ => drains⟩
  | connect =>
    obtain ⟨off, hcs⟩ := offWire_flushPdu ans s.assoc
    exact ⟨feeds_of_off off hcs step, by simp [Frame.isRecv]⟩
  | session child =>
    simp only [PduAssoc.resume, PduAssoc.resumeSession] at step ⊢
    split at step
    · next h0 =>
      rw [if_pos h0]
      exact ⟨feeds_of_off rfl (.inl rfl) step, by simp [Frame.isRecv]⟩
    · next h0 =>
      rw [if_neg h0]
      exact ⟨feeds_of_off rfl (.inl rfl) step, by simp [Frame.isRecv]⟩
  | tail => exact ⟨feeds_of_off rfl (.inl rfl) step, by simp [Frame.isRecv]⟩

/-! ## Runs -/

/-- A `recv_PDU` is running above the lowest `old` callbacks. -/
def Waited (old : Nat) (frames : List Frame) : Prop :=
  ∃ f ∈ frames.take (frames.length - old), f.isRecv = true

/-- The invariant: the books are balanced, and what is buffered is waited for by a `recv_PDU` of
the installed connection. -/
structure Fed.Inv (x : Fed) : Prop where
  wf : x.sys.assoc.WF
  balanced : x.wire.Balanced
  bounded : x.old ≤ x.sys.frames.length
  waited : x.sys.alive = true → x.sys.assoc.cs ≠ 0 → x.wire.unread ≠ [] →
    Waited x.old x.sys.frames

/-- One step of `fed`, inverted. -/
theorem fed_step {x : Fed} {i : Input} {new : List Buf} {s : Sys} {w : Wire} {old : Nat}
    {calls : List Call} (h : fed.step x (i, new) = some (⟨s, w, old⟩, calls)) :
    i.observed x.sys = true ∧ pdu.step x.sys i = some (s, calls) ∧
      x.wire.calls new calls = some w ∧
      old = if calls.any Call.installs then s.frames.length else min x.old (i.below x.sys) := by
  simp only [fed] at h
  split at h
  · next observed =>
    split at h
    · cases h
    · next s o hstep =>
      simp only [Option.map_eq_some_iff, Prod.mk.injEq, Fed.mk.injEq] at h
      obtain ⟨wire, hwire, ⟨rfl, rfl, rfl⟩, rfl⟩ := h
      exact ⟨observed, hstep, hwire, rfl⟩
  · cases h

/-- A callback begins above those that are running. -/
theorem Waited.perform {s : Sys} {o : Outcome} {old : Nat} (bounded : old ≤ s.frames.length)
    (waited : Waited old s.frames ∨ o.frame = some (.recv false)) :
    Waited old (s.perform o).1.frames := by
  have running : (s.perform o).1.frames.take ((s.perform o).1.frames.length - old) =
      o.frame.toList ++ s.frames.take (s.frames.length - old) := by
    simp only [Sys.perform, List.length_append]
    rw [Nat.add_sub_assoc bounded, List.take_length_add_append]
  rw [Waited, running]
  rcases waited with ⟨f, hf, hrecv⟩ | hframe
  · exact ⟨f, List.mem_append_right _ hf, hrecv⟩
  · exact ⟨.recv false, List.mem_append_left _ (by simp [hframe]), rfl⟩

/-- A callback returns that nothing waits for. -/
theorem Waited.tail {old : Nat} {f : Frame} {fs : List Frame} (waited : Waited old (f :: fs))
    (hf : f.isRecv = false) : Waited (min old fs.length) fs := by
  obtain ⟨g, hg, hrecv⟩ := waited
  rw [List.length_cons] at hg
  rcases Nat.lt_or_ge fs.length old with hlt | hle
  · rw [Nat.sub_eq_zero_of_le hlt, List.take_zero] at hg
    exact absurd hg List.not_mem_nil
  · rw [Nat.succ_sub hle, List.take_succ_cons, List.mem_cons] at hg
    rcases hg with rfl | hg
    · cases hf.symm.trans hrecv
    · rw [Nat.min_eq_left hle]
      exact ⟨g, hg, hrecv⟩

/-- An outcome that feeds keeps what is waited for. -/
theorem Feeds.waited {s : Sys} {w w' : Wire} {o : Outcome} {old : Nat}
    (feeds : Feeds s.assoc w w' o)
    (bounded : old ≤ s.frames.length)
    (waited : s.assoc.cs ≠ 0 → w.unread ≠ [] → Waited old s.frames) (hcs : o.assoc.cs ≠ 0)
    (hunread : w'.unread ≠ []) : Waited old (s.perform o).1.frames := by
  refine Waited.perform bounded ?_
  rcases feeds.drained with ⟨same, rfl⟩ | h0 | hnil | hframe
  · exact .inl (waited (same ▸ hcs) hunread)
  · exact absurd h0 hcs
  · exact absurd hnil hunread
  · exact .inr hframe

/-- An outcome that drains waits for what is left. -/
theorem Drains.waited {s : Sys} {w w' : Wire} {o : Outcome} {old : Nat} (drains : Drains w w' o)
    (bounded : old ≤ s.frames.length) (hcs : o.assoc.cs ≠ 0) (hunread : w'.unread ≠ []) :
    Waited old (s.perform o).1.frames := by
  refine Waited.perform bounded (.inr ?_)
  rcases drains.drained with h0 | hnil | hframe
  · exact absurd h0 hcs
  · exact absurd hnil hunread
  · exact hframe

/-- **One step** keeps the invariant. -/
theorem Fed.Inv.step {x x' : Fed} {i : Input × List Buf} {calls : List Call} (inv : x.Inv)
    (step : fed.step x i = some (x', calls)) : x'.Inv := by
  obtain ⟨i, new⟩ := i
  obtain ⟨s', w', old'⟩ := x'
  obtain ⟨observed, hstep, hwire, hold⟩ := fed_step step
  have wf := wf_step inv.wf hstep
  cases stepped_of_step hstep with
  | call halive hi =>
    have below : i.below x.sys = x.sys.frames.length := by
      cases i <;> first | rfl | exact absurd rfl (hi _)
    rcases feeds_outcome observed hwire with feeds | installed
    · rw [feeds.kept, below, Nat.min_eq_left inv.bounded, if_neg Bool.false_ne_true] at hold
      subst hold
      refine ⟨wf, feeds.balanced inv.balanced, ?_, fun halive' hcs hunread => ?_⟩
      · rw [Sys.bury_depth]
        exact Nat.le_trans inv.bounded (by simp [Sys.perform])
      · rw [Sys.bury_of_alive halive'] at hcs ⊢
        exact feeds.waited inv.bounded (inv.waited halive) hcs hunread
    · rw [installed.installs, if_pos rfl] at hold
      subst hold
      have hwire' : w' = {} := installed.wire
      subst hwire'
      exact ⟨wf, rfl, Nat.le_refl _, fun _ _ hunread => absurd rfl hunread⟩
  | @back ans f fs hf hlive =>
    obtain ⟨feeds, drains⟩ := feeds_resume observed hwire
    have below : Input.below x.sys (.ret ans) = fs.length := by
      rw [Input.below, hf, List.length_cons, Nat.add_sub_cancel]
    rw [feeds.kept, below, if_neg Bool.false_ne_true] at hold
    subst hold
    have bounded : min x.old fs.length ≤ ({ x.sys with frames := fs } : Sys).frames.length :=
      Nat.min_le_right _ _
    refine ⟨wf, feeds.balanced inv.balanced, ?_, fun halive hcs hunread => ?_⟩
    · exact Nat.le_trans bounded (by simp [Sys.perform])
    · cases hrecv : f.isRecv with
      | true => exact (drains hrecv).waited bounded hcs hunread
      | false =>
        exact feeds.waited (s := { x.sys with frames := fs }) bounded
          (fun hcs hunread => (hf ▸ inv.waited halive hcs hunread).tail hrecv) hcs hunread
  | @dead ans f fs hf _ hdead =>
    have below : Input.below x.sys (.ret ans) = fs.length := by
      rw [Input.below, hf, List.length_cons, Nat.add_sub_cancel]
    cases hwire
    refine ⟨wf, inv.balanced, ?_, fun halive => absurd (hdead.symm.trans halive) nofun⟩
    simp only [List.any_cons, List.any_nil, Call.installs, Bool.or_false, Bool.false_eq_true,
      if_false, below] at hold
    rw [hold]
    exact Nat.min_le_right _ _

theorem inv_born {x : Fed} {h : List Call} (born : Fed.Born x h) : x.Inv := by
  cases born with
  | born born =>
    exact ⟨wf_born born, rfl, Nat.zero_le _, fun _ _ hunread => absurd rfl hunread⟩

/-- **No received PDU is left behind**: whatever the observer does inside `recv_PDU`, when no
`recv_PDU` of the connection is running and the connection is open, no complete PDU is buffered in
the COMSTACK, and `recv_PDU` was called once for every PDU read, in the order they came. -/
theorem nothing_left_behind {is : List (Input × List Buf)} {x : Fed} {h : List Call}
    (run : fed.Run Fed.Born is x h) (halive : x.sys.alive = true)
    (isOpen : x.sys.assoc.state = .ready ∨ x.sys.assoc.state = .writing)
    (returned : ∀ f ∈ x.callbacks, f.isRecv = false) :
    x.wire.unread = [] ∧ x.wire.heard = x.wire.read := by
  have inv : x.Inv := run.invariant (fun x _ => x.Inv) (fun _ _ => inv_born)
    fun _ _ _ _ _ inv step => inv.step step
  have hcs : x.sys.assoc.cs ≠ 0 := inv.wf.opened (by rcases isOpen with h | h <;> simp [h])
  have hunread : x.wire.unread = [] := by
    cases hw : x.wire.unread with
    | nil => rfl
    | cons next rest =>
      obtain ⟨f, hf, hrecv⟩ := inv.waited halive hcs (by simp [hw])
      cases (returned f hf).symm.trans hrecv
  refine ⟨hunread, ?_⟩
  have balanced := inv.balanced
  rwa [Wire.Balanced, hunread, List.append_nil] at balanced

/-- Three PDUs read at once: the first is answered with a PDU that is written in part, so the
association is in Writing while it hears of the others. -/
theorem nothing_left_behind_writing : ∃ x h, fed.Run Fed.Born
    [(.connect 1 "tcp:host:210" 1 {}, []), (.socketNotify observeWrite {}, []), (.ret {}, []),
      (.socketNotify observeRead { get := { res := 2 }, getBuf := [1] }, [[1], [2], [3]]),
      (.sendPdu [9] { put := { res := 1 } }, []),
      (.ret { more := true, get := { res := 2 }, getBuf := [2] }, []),
      (.ret { more := true, get := { res := 2 }, getBuf := [3] }, []),
      (.ret {}, [])] x h ∧
    x.sys.assoc.state = .writing ∧ x.wire.read = [[1], [2], [3]] ∧
    x.wire.unread = [] ∧ x.wire.heard = x.wire.read := by
  have exec : fed.exec { sys := {} }
    [(.connect 1 "tcp:host:210" 1 {}, []), (.socketNotify observeWrite {}, []), (.ret {}, []),
      (.socketNotify observeRead { get := { res := 2 }, getBuf := [1] }, [[1], [2], [3]]),
      (.sendPdu [9] { put := { res := 1 } }, []),
      (.ret { more := true, get := { res := 2 }, getBuf := [2] }, []),
      (.ret { more := true, get := { res := 2 }, getBuf := [3] }, []),
      (.ret {}, [])] = some _ := rfl
  have run := Machine.Run.exec (.start (Fed.Born.born .new)) exec
  exact ⟨_, _, run, rfl, rfl, nothing_left_behind run rfl (.inr rfl) (by decide)⟩

/-- A `socketNotify` returns with this step: it, or what is left of it behind a callback, makes no
further callback. -/
def Fed.Returns (x : Fed) (i : Input) (x' : Fed) : Prop :=
  ((∃ event ans, i = .socketNotify event ans) ∨ ∃ ans, i = .ret ans) ∧
    x'.sys.frames.length = i.below x.sys

/-- A `socketNotify` called from inside `recv_PDU` may return with PDUs buffered. The first of three
PDUs read at once is answered with one that is written in part, and inside the same `recv_PDU` the
rest of that one is written: the association is back in Ready, and has not heard of the others. -/
theorem left_behind_inside : ¬ ∀ is x h i x' o, fed.Run Fed.Born is x h →
    fed.step x i = some (x', o) → x.Returns i.1 x' → x'.sys.alive = true →
    x'.sys.assoc.state = .ready ∨ x'.sys.assoc.state = .writing →
    x'.wire.unread = [] ∧ x'.wire.heard = x'.wire.read := by
  intro claim
  have exec : fed.exec { sys := {} }
    [(.connect 1 "tcp:host:210" 1 {}, []), (.socketNotify observeWrite {}, []), (.ret {}, []),
      (.socketNotify observeRead { get := { res := 2 }, getBuf := [1] }, [[1], [2], [3]]),
      (.sendPdu [9] { put := { res := 1 } }, [])] = some _ := rfl
  have run := Machine.Run.exec (.start (Fed.Born.born .new)) exec
  have left := claim _ _ _ (.socketNotify observeWrite {}, []) _ _ run rfl
    ⟨.inl ⟨_, _, rfl⟩, rfl⟩ rfl (.inl rfl)
  exact absurd left.1 (by decide)

end Yazpp
