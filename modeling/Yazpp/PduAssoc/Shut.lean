import Yazpp.PduAssoc.Order

/-!
# One association behind a `shutdown`

`shutdown` leaves nothing of the connection: no COMSTACK to read from, and an empty output queue.
What is read and written afterwards is of a COMSTACK that was installed since (`Cut`): the receive
loop of a `recv_PDU` that is still running reads `cs` again when it goes on.

The output side is the outbox of `Order`, which a close empties (`Outbox.Since`). The input side is
`Reads`: `cs_get` is always on the COMSTACK installed at that moment, and `recv_PDU` is called with
what `cs_get` has just returned.
-/

set_option autoImplicit false

namespace Yazpp

open Yazpp.Lib

/-! ## Where PDUs come from -/

/-- The calls by which a PDU or a session comes in. -/
def Call.reads : Call → Bool
  | .csGet .. | .recvPdu .. | .newChild .. => true
  | _ => false

/-- What the calls of a function read is from the COMSTACK it finds installed, and `recv_PDU` is
called with it. A session is made of a COMSTACK that was accepted. -/
structure Reads (a : PduAssoc) (calls : List Call) : Prop where
  line : ∀ child cs pending fileno, .newChild child cs pending fileno ∈ calls → cs ≠ 0
  get : ∀ cs res buf, .csGet cs res buf ∈ calls → cs = a.cs ∧ a.cs ≠ 0
  heard : ∀ buf len, Preceded calls (· = .recvPdu buf len) fun c => ∃ cs, c = .csGet cs len buf

/-- Calls by which nothing comes in. -/
theorem reads_of_unread {a : PduAssoc} {calls : List Call}
    (unread : calls.all (fun c => !c.reads) = true) : Reads a calls := by
  have none : ∀ c ∈ calls, c.reads = false := fun c hc =>
    Bool.not_eq_true' _ ▸ List.all_eq_true.mp unread c hc
  refine ⟨fun child cs pending fileno hc => ?_, fun cs res buf hc => ?_,
    fun buf len => .of_none ?_⟩
  · exact Bool.noConfusion (none _ hc)
  · exact Bool.noConfusion (none _ hc)
  · rintro c hc rfl
    exact Bool.noConfusion (none _ hc)

theorem Reads.append {a : PduAssoc} {calls more : List Call} (first : Reads a calls)
    (rest : Reads a more) : Reads a (calls ++ more) where
  line child cs pending fileno hc := (List.mem_append.mp hc).elim
    (first.line child cs pending fileno) (rest.line child cs pending fileno)
  get cs res buf hc := (List.mem_append.mp hc).elim (first.get cs res buf) (rest.get cs res buf)
  heard buf len := by
    apply (first.heard buf len).append
    intro p e q hk he
    obtain ⟨c, hc, hC⟩ := rest.heard buf len p e q hk he
    exact ⟨c, List.mem_append_right _ hc, hC⟩

theorem Reads.cons {a : PduAssoc} {c : Call} {calls : List Call} (first : Reads a [c])
    (rest : Reads a calls) : Reads a (c :: calls) :=
  first.append rest

theorem unread_shutdown (a : PduAssoc) : a.shutdown.calls.all (fun c => !c.reads) = true :=
  a.all_shutdown_calls (fun _ => rfl) rfl fun _ => rfl

theorem reads_shutdown (a b : PduAssoc) : Reads a b.shutdown.calls :=
  reads_of_unread (unread_shutdown b)

theorem reads_fail (a b : PduAssoc) : Reads a b.shutdown.fail.calls :=
  (reads_shutdown a b).append (reads_of_unread rfl)

theorem reads_flushPdu (ans : Answers) (a b : PduAssoc) : Reads a (b.flushPdu ans).calls := by
  have fl := PduAssoc.flushPdu_flushed ans b
  generalize b.flushPdu ans = o at fl
  cases fl with
  | notReady => exact reads_of_unread rfl
  | idle => exact reads_of_unread rfl
  | idleDead => exact Reads.cons (reads_of_unread rfl) (reads_fail a b)
  | failed => exact Reads.cons (reads_of_unread rfl) (reads_fail a b)
  | partly => exact reads_of_unread rfl
  | drained => exact reads_of_unread rfl
  | drainedDead =>
    exact Reads.cons (reads_of_unread rfl) (Reads.cons (reads_of_unread rfl) (reads_shutdown a b))
  | more => exact reads_of_unread rfl

/-- The receive loop reads the installed COMSTACK, once. -/
theorem reads_receive {ans : Answers} {depth : Nat} {a b : PduAssoc} (same : b.cs = a.cs)
    (hcs : a.cs ≠ 0) : Reads a (b.receive ans depth).calls := by
  have get : Reads a [.csGet b.cs ans.get.res ans.getBuf] := by
    refine ⟨?_, ?_, fun buf len => .of_none (List.forall_mem_singleton.mpr nofun)⟩
    · intro child cs pending fileno hc
      cases List.mem_singleton.mp hc
    intro cs res buf hc
    obtain ⟨rfl, -, -⟩ := Call.csGet.inj (List.mem_singleton.mp hc)
    exact ⟨same, hcs⟩
  have rc := PduAssoc.receive_received ans depth b
  generalize b.receive ans depth = o at rc
  cases rc with
  | waits => exact get.cons (reads_of_unread rfl)
  | closed => exact get.append (reads_fail a b)
  | closedUnobserved => exact get.append (reads_shutdown a b)
  | pduUnobserved => exact get
  | pdu =>
    refine ⟨?_, ?_, ?_⟩
    · intro child cs pending fileno hc
      rcases List.mem_cons.mp hc with hc | hc
      · cases hc
      · cases List.mem_singleton.mp hc
    · intro cs res buf hc
      rcases List.mem_cons.mp hc with hc | hc
      · exact get.get cs res buf (List.mem_singleton.mpr hc)
      · cases List.mem_singleton.mp hc
    · intro buf len
      show Preceded ([Call.csGet b.cs ans.get.res ans.getBuf] ++
        [Call.recvPdu ans.getBuf ans.get.res]) _ _
      apply (get.heard buf len).snoc
      intro hheard
      obtain ⟨rfl, rfl⟩ := Call.recvPdu.inj hheard
      exact ⟨_, List.mem_singleton_self _, b.cs, rfl⟩

/-- The code behind every callback. -/
theorem reads_resume {f : Frame} {ans : Answers} {depth : Nat} {a : PduAssoc} :
    Reads a (a.resume f ans depth).calls := by
  cases f with
  | recv destroyed =>
    cases destroyed with
    | true => exact reads_of_unread rfl
    | false =>
      have rs := PduAssoc.resumeRecv_resumed ans depth a
      simp only [PduAssoc.resume]
      generalize a.resumeRecv ans depth = o at rs
      cases rs with
      | gone => exact reads_of_unread rfl
      | more hcs =>
        have asked : Reads a [.csMore a.cs ans.more] := reads_of_unread rfl
        exact asked.append (reads_receive rfl hcs)
      | ready => exact reads_of_unread rfl
      | notReady => exact reads_of_unread rfl
  | connect => exact reads_flushPdu ans a a
  | session child =>
    simp only [PduAssoc.resume, PduAssoc.resumeSession]
    split <;> exact reads_of_unread rfl
  | tail => exact reads_of_unread rfl

theorem reads_socketNotify {event : Nat} {ans : Answers} {depth : Nat} {a : PduAssoc}
    (wf : a.WF) : Reads a (a.socketNotify event ans depth).calls := by
  have nt := PduAssoc.socketNotify_notified event ans depth a
  generalize a.socketNotify event ans depth = o at nt
  cases nt with
  | except => exact reads_fail a a
  | timeout => exact reads_of_unread rfl
  | acceptFailed => exact Reads.cons (reads_of_unread rfl) (reads_fail a _)
  | acceptMore => exact reads_of_unread rfl
  | acceptDone => exact Reads.cons (reads_of_unread rfl) (reads_flushPdu ans a _)
  | connectMore => exact reads_of_unread rfl
  | connectDone => exact reads_of_unread rfl
  | connectUnobserved => exact Reads.cons (reads_of_unread rfl) (reads_flushPdu ans a _)
  | listened =>
    have ls := PduAssoc.notifyListen_listened event ans a
    generalize a.notifyListen event ans = o at ls
    cases ls with
    | nothing => exact reads_of_unread rfl
    | noLine => exact reads_of_unread rfl
    | refused => exact reads_of_unread rfl
    | session hline =>
      have made : Reads a [.newChild ans.child ans.newLine ans.accept.pending ans.fileno] := by
        refine ⟨?_, ?_, fun buf len => .of_none (List.forall_mem_singleton.mpr nofun)⟩
        · intro child cs pending fileno hc
          obtain ⟨-, rfl, -, -⟩ := Call.newChild.inj (List.mem_singleton.mp hc)
          exact hline
        · intro cs res buf hc
          cases List.mem_singleton.mp hc
      exact Reads.cons (reads_of_unread rfl) (Reads.cons (reads_of_unread rfl)
        (made.cons (reads_of_unread rfl)))
  | writing => exact reads_flushPdu ans a a
  | ready hs => exact reads_receive rfl (wf.opened (by simp [hs]))
  | nothing => exact reads_of_unread rfl
  | closed => exact reads_fail a a

/-- `connect` and `listen` read nothing. -/
theorem reads_connect {observer : Observer} {addr : String} {cs : Comstack} {ans : Answers}
    {a : PduAssoc} : Reads a (a.connect observer addr cs ans).calls := by
  have ct := PduAssoc.connect_connected observer addr cs ans a
  generalize a.connect observer addr cs ans = o at ct
  cases ct <;> exact (reads_shutdown a a).append (reads_of_unread rfl)

theorem reads_listen {observer : Observer} {addr : String} {cs : Comstack} {ans : Answers}
    {a : PduAssoc} : Reads a (a.listen observer addr cs ans).calls := by
  have lm := PduAssoc.listen_made observer addr cs ans a
  generalize a.listen observer addr cs ans = o at lm
  cases lm with
  | stopped =>
    apply reads_of_unread
    simp only [PduAssoc.teardown]
    split <;> rfl
  | refused => exact (reads_shutdown a a).append (reads_of_unread rfl)
  | unbound cert =>
    exact (reads_shutdown a a).append (reads_of_unread (by cases cert <;> rfl))
  | bound cert =>
    exact (reads_shutdown a a).append (reads_of_unread (by cases cert <;> rfl))

/-- **Every call on the association** reads the COMSTACK it finds installed. -/
theorem reads_outcome (i : Input) {depth : Nat} {a : PduAssoc} (wf : a.WF) :
    Reads a (i.outcome a depth).calls := by
  cases i with
  | connect observer addr cs ans => exact reads_connect
  | listen observer addr cs ans => exact reads_listen
  | sendPdu buf ans =>
    have st := PduAssoc.sendPdu_sent buf ans a
    simp only [Input.outcome]
    generalize a.sendPdu buf ans = o at st
    cases st with
    | rejected => exact reads_of_unread rfl
    | queued => exact reads_of_unread rfl
    | flushed => exact Reads.cons (reads_of_unread rfl) (reads_flushPdu ans a _)
  | closeSession =>
    simp only [Input.outcome, PduAssoc.closeSession]
    split
    · exact reads_fail a _
    · exact reads_of_unread rfl
  | shutdown => exact reads_shutdown a a
  | destroy =>
    have rest : Reads a (a.strays ++ ((a.parent.map Call.unlinkFrom).toList ++
        a.children.map .deleteChild)) := by
      apply reads_of_unread
      simp only [List.all_append, List.all_map, Bool.and_eq_true, List.all_eq_true]
      refine ⟨List.all_eq_true.mp (a.all_strays rfl), ?_, fun _ _ => rfl⟩
      cases a.parent <;> simp [Call.reads]
    show Reads a (a.shutdown.calls ++ _ ++ _ ++ _)
    rw [List.append_assoc, List.append_assoc]
    exact (reads_shutdown a a).append rest
  | socketNotify event ans => exact reads_socketNotify wf
  | unlink child =>
    simp only [Input.outcome, PduAssoc.unlink]
    split <;> exact reads_of_unread rfl
  | _ => exact reads_of_unread rfl

/-- One step. -/
theorem reads_step {s s' : Sys} {i : Input} {o : List Call} (wf : s.assoc.WF)
    (step : pdu.step s i = some (s', o)) : Reads s.assoc o := by
  cases stepped_of_step step with
  | call => exact reads_outcome i wf
  | back => exact reads_resume
  | dead => exact reads_of_unread rfl

/-- Neither constructor. -/
theorem reads_born {s : Sys} {h : List Call} (born : s.Born h) : Reads s.assoc h := by
  cases born with
  | new => exact reads_of_unread rfl
  | accepted pending fileno hcs =>
    have made : ∀ {a : PduAssoc} {cs : Comstack}, Reads a [.csAttach cs, .addObserver] :=
      reads_of_unread rfl
    generalize (({} : Sys).perform (PduAssoc.accepted _ pending fileno)).1.assoc = a
    simp only [PduAssoc.accepted]
    split
    · exact made.append (reads_flushPdu _ a _)
    · exact made.append (reads_of_unread rfl)

/-! ## Since the shutdown -/

/-- The call installs `cs`. -/
def Call.Installs (cs : Comstack) (c : Call) : Prop := (∃ addr, c = .csCreateHost addr cs) ∨
  c = .csAttach cs

/-- What holds of an association since its COMSTACK was closed, with the calls since. -/
structure Cut (s : Sys) (h : List Call) : Prop where
  wf : s.assoc.WF
  since : Outbox.Since (outEvents h) s.assoc.outbox
  got : ∀ cs res buf, Preceded h (· = .csGet cs res buf) (Call.Installs cs)
  heard : ∀ buf len, Preceded h (· = .recvPdu buf len) fun c => ∃ cs, c = .csGet cs len buf

theorem installs_of_opened {c : Call} {cs : Comstack} (h : c.outEvent? = some (.opened cs)) :
    c.Installs cs := by
  cases c with
  | csCreateHost addr cs' =>
    simp only [Call.outEvent?] at h
    split at h
    · cases h
    · cases h
      exact .inl ⟨addr, rfl⟩
  | csAttach cs' =>
    cases h
    exact .inr rfl
  | _ => cases h

/-- A PDU is queued on a COMSTACK installed since. -/
theorem Cut.queued {s : Sys} {h : List Call} (cut : Cut s h) (cs : Comstack) (buf : Buf) :
    Preceded h (· = .newPduQueue cs buf) (Call.Installs cs) := by
  apply (cut.since.accepts cs buf).of_filterMap
  · rintro _ rfl
    exact ⟨_, rfl, rfl⟩
  · rintro c _ hc rfl
    exact installs_of_opened hc

/-- A PDU is written that was queued since, on the same COMSTACK. -/
theorem Cut.written {s : Sys} {h : List Call} (cut : Cut s h) (cs : Comstack) (buf : Buf)
    (res : Int) : Preceded h (· = .csPut cs buf res) (· = .newPduQueue cs buf) := by
  apply (cut.since.offers cs buf (offerOf res)).of_filterMap
  · rintro _ rfl
    exact ⟨_, rfl, rfl⟩
  · rintro c _ hc rfl
    cases c with
    | newPduQueue cs' buf' =>
      cases hc
      rfl
    | csCreateHost addr cs' =>
      simp only [Call.outEvent?] at hc
      split at hc <;> cases hc
    | _ => cases hc

/-- A step after the cut. -/
theorem Cut.step {s s' : Sys} {h o : List Call} {i : Input} (cut : Cut s h)
    (step : pdu.step s i = some (s', o)) : Cut s' (h ++ o) := by
  have reads := reads_step cut.wf step
  refine ⟨wf_step cut.wf step, ?_, ?_, ?_⟩
  · rw [outEvents_append]
    cases stepped_of_step step with
    | call =>
      rw [Sys.bury_assoc]
      exact cut.since.replay (follows_outcome i cut.wf)
    | back => exact cut.since.replay (follows_resume cut.wf)
    | dead => exact cut.since.replay (.nil _)
  · intro cs res buf
    apply (cut.got cs res buf).append
    rintro p e q hk rfl
    obtain ⟨rfl, hcs⟩ := reads.get cs res buf (hk ▸ List.mem_append_right _ List.mem_cons_self)
    -- the COMSTACK that is read is the one the outbox is open on
    have opened := cut.since.opened s.assoc.cs (by simp only [PduAssoc.outbox, hcs, if_false])
    obtain ⟨c, hc, hopen⟩ := List.mem_filterMap.mp opened
    exact ⟨c, List.mem_append_left _ hc, installs_of_opened hopen⟩
  · intro buf len
    apply (cut.heard buf len).append
    intro p e q hk he
    obtain ⟨c, hc, hC⟩ := reads.heard buf len p e q hk he
    exact ⟨c, List.mem_append_right _ hc, hC⟩

/-- An outcome that closes first, and reads nothing, cuts. -/
theorem cut_of_closed {a : PduAssoc} {s : Sys} {calls : List Call}
    (es : List (OutEvent Comstack Buf)) (wf : s.assoc.WF) (closed : outEvents calls = .closed :: es)
    (replay : Outbox.Replay a.outbox (outEvents calls) s.assoc.outbox)
    (unread : calls.all (fun c => !c.reads) = true) : Cut s calls := by
  have none : ∀ c ∈ calls, c.reads = false := fun c hc =>
    Bool.not_eq_true' _ ▸ List.all_eq_true.mp unread c hc
  rw [closed] at replay
  refine ⟨wf, closed ▸ replay.since, ?_, ?_⟩
  · intro cs res buf
    apply Preceded.of_none
    rintro c hc rfl
    exact Bool.noConfusion (none _ hc)
  · intro buf len
    apply Preceded.of_none
    rintro c hc rfl
    exact Bool.noConfusion (none _ hc)

/-- The calls by which the application shuts an association down. -/
inductive Input.Shuts : Input → Prop
  | shutdown : Input.Shuts .shutdown
  | connect (observer : Observer) (addr : String) (cs : Comstack) (ans : Answers) :
      Input.Shuts (.connect observer addr cs ans)

/-- Both shut down first, the children included. -/
theorem Input.Shuts.calls {i : Input} (shuts : i.Shuts) (a : PduAssoc) (depth : Nat) :
    ∃ rest, (i.outcome a depth).calls = a.shutdown.calls ++ rest ∧
      rest.all (fun c => !c.reads) = true := by
  cases shuts with
  | shutdown => exact ⟨[], (List.append_nil _).symm, rfl⟩
  | connect observer addr cs ans =>
    have ct := PduAssoc.connect_connected observer addr cs ans a
    simp only [Input.outcome]
    generalize a.connect observer addr cs ans = o at ct
    cases ct <;> exact ⟨_, rfl, rfl⟩

/-- **`shutdown` and `connect` cut**: whatever the association was in the middle of. -/
theorem cut_shuts {s s' : Sys} {o : List Call} {i : Input} (wf : s.assoc.WF) (shuts : i.Shuts)
    (step : pdu.step s i = some (s', o)) : Cut s' o := by
  obtain ⟨rest, hcalls, unread⟩ := shuts.calls s.assoc s.frames.length
  have wf' := wf_step wf step
  cases stepped_of_step step with
  | call =>
    refine cut_of_closed (a := s.assoc) (outEvents rest) wf' ?_ ?_ ?_
    · rw [hcalls, outEvents_append, outEvents_shutdown]
      rfl
    · rw [Sys.bury_assoc]
      exact follows_outcome i wf
    · rw [hcalls, List.all_append, unread_shutdown, unread]
      rfl
  | back => cases shuts
  | dead => cases shuts

end Yazpp
