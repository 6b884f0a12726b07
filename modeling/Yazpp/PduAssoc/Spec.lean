import Yazpp.PduAssoc.System

/-!
# What each function of `PDU_Assoc` can do

One relation for each function with branches: `Flushed` for `flush_PDU`, `Received` for the receive
loop, `Connected` for `connect`, `Notified` for `socketNotify`. A constructor is one way through
the source, with its condition and the whole of what it leaves. Every later proof is a case
analysis on these, and none unfolds a function again.
-/

set_option autoImplicit false

namespace Yazpp

namespace PduAssoc

/-! ## Small facts -/

@[simp] theorem teardown_assoc (a : PduAssoc) : a.teardown.assoc =
    { a with state := .closed, cs := 0, queueOut := [], inputBuf := [] } := rfl

@[simp] theorem shutdown_assoc (a : PduAssoc) : a.shutdown.assoc =
    { a with state := .closed, cs := 0, queueOut := [], inputBuf := [] } := rfl

/-- The calls of `shutdown`. -/
theorem mem_shutdown_calls {a : PduAssoc} {c : Call} : c ∈ a.shutdown.calls ↔
    (∃ ch ∈ a.children, c = .shutdownChild ch) ∨ c = .deleteObserver ∨
      a.cs ≠ 0 ∧ c = .csClose a.cs := by
  have hteardown : c ∈ a.teardown.calls ↔
      c = .deleteObserver ∨ a.cs ≠ 0 ∧ c = .csClose a.cs := by
    simp only [teardown, List.mem_cons]
    split
    · next hcs => simp [hcs]
    · next hcs => simp [hcs]
  simp only [shutdown, Outcome.after, List.mem_append, List.mem_map, hteardown,
    eq_comm (b := c)]

/-- What holds of a `shutdown` of a child, of a `deleteObserver` and of a `cs_close` holds of every
call of `shutdown`. -/
theorem all_shutdown_calls (a : PduAssoc) {p : Call → Bool} (child : ∀ ch, p (.shutdownChild ch))
    (deleted : p .deleteObserver) (close : ∀ cs, p (.csClose cs)) :
    a.shutdown.calls.all p = true := by
  rw [List.all_eq_true]
  intro c hc
  rcases mem_shutdown_calls.mp hc with ⟨ch, _, rfl⟩ | rfl | ⟨_, rfl⟩
  · exact child ch
  · exact deleted
  · exact close a.cs

/-- Where none of the three counts, none of the calls of `shutdown` does. -/
theorem shutdown_calls_filter (a : PduAssoc) {p : Call → Bool}
    (child : ∀ ch, p (.shutdownChild ch) = false) (deleted : p .deleteObserver = false)
    (close : ∀ cs, p (.csClose cs) = false) : a.shutdown.calls.filter p = [] := by
  apply List.filter_eq_nil_iff.mpr
  intro c hc
  rw [Bool.not_eq_true]
  rcases mem_shutdown_calls.mp hc with ⟨ch, _, rfl⟩ | rfl | ⟨_, rfl⟩
  · exact child ch
  · exact deleted
  · exact close a.cs

/-- What `shutdown` says to anyone but its children and COMSTACK is one `deleteObserver`. -/
theorem shutdown_calls_filterMap {β : Type} (a : PduAssoc) {f : Call → Option β}
    (child : ∀ ch, f (.shutdownChild ch) = none) (close : ∀ cs, f (.csClose cs) = none) :
    a.shutdown.calls.filterMap f = (f .deleteObserver).toList := by
  have hchildren : (a.children.map Call.shutdownChild).filterMap f = [] := by
    simp only [List.filterMap_eq_nil_iff, List.forall_mem_map]
    exact fun ch _ => child ch
  have hteardown : a.teardown.calls.filterMap f = (f .deleteObserver).toList := by
    simp only [teardown]
    split <;> cases hd : f .deleteObserver <;> simp [hd, close]
  simp only [shutdown, Outcome.after, List.filterMap_append, hchildren, hteardown, List.nil_append]

/-- `destroy` writes through a pointer that is left behind, or there is none. -/
theorem strays_cases (a : PduAssoc) :
    a.destroyed ≠ .dangling ∧ a.strays = [] ∨
      a.destroyed = .dangling ∧ a.strays = [.strayWrite] := by
  by_cases dangling : a.destroyed = .dangling
  · exact .inr ⟨dangling, if_pos dangling⟩
  · exact .inl ⟨dangling, if_neg dangling⟩

theorem mem_strays {a : PduAssoc} {c : Call} (hc : c ∈ a.strays) : c = .strayWrite := by
  rcases a.strays_cases with ⟨-, h⟩ | ⟨-, h⟩
  · rw [h] at hc
    cases hc
  · exact List.mem_singleton.mp (h ▸ hc)

/-- What does not count the write counts none. -/
theorem strays_filterMap {β : Type} (a : PduAssoc) {f : Call → Option β}
    (stray : f .strayWrite = none) : a.strays.filterMap f = [] := by
  rcases a.strays_cases with ⟨-, h⟩ | ⟨-, h⟩ <;> simp [h, stray]

theorem strays_filter (a : PduAssoc) {p : Call → Bool} (stray : p .strayWrite = false) :
    a.strays.filter p = [] := by
  rcases a.strays_cases with ⟨-, h⟩ | ⟨-, h⟩ <;> simp [h, stray]

theorem all_strays (a : PduAssoc) {p : Call → Bool} (stray : p .strayWrite = true) :
    a.strays.all p = true := by
  rcases a.strays_cases with ⟨-, h⟩ | ⟨-, h⟩ <;> simp [h, stray]

end PduAssoc

@[simp] theorem Outcome.after_assoc (o : Outcome) (cs : List Call) : (o.after cs).assoc = o.assoc :=
  rfl

@[simp] theorem Outcome.after_calls (o : Outcome) (cs : List Call) :
    (o.after cs).calls = cs ++ o.calls := rfl

@[simp] theorem Outcome.after_frame (o : Outcome) (cs : List Call) : (o.after cs).frame = o.frame :=
  rfl

@[simp] theorem Outcome.fail_assoc (o : Outcome) : o.fail.assoc = o.assoc := rfl

@[simp] theorem Outcome.fail_calls (o : Outcome) : o.fail.calls = o.calls ++ [.failNotify] := rfl

@[simp] theorem Outcome.fail_frame (o : Outcome) : o.fail.frame = some .tail := rfl

namespace PduAssoc

/-! ## `flush_PDU` -/

/-- The ways through `flush_PDU`. -/
inductive Flushed (ans : Answers) (a : PduAssoc) : Outcome → Prop
  | notReady : a.state ≠ .ready → a.state ≠ .writing → Flushed ans a { assoc := a, ret := 1 }
  | idle : a.state = .ready ∨ a.state = .writing → a.queueOut = [] → a.sessionIsDead = false →
      Flushed ans a
        { assoc := { a with state := .ready }
          calls := [.maskObserver (observeRead ||| observeWrite ||| observeExcept) ans.fileno] }
  | idleDead : a.state = .ready ∨ a.state = .writing → a.queueOut = [] → a.sessionIsDead = true →
      Flushed ans a (a.shutdown.fail.after
        [.maskObserver (observeRead ||| observeWrite ||| observeExcept) ans.fileno])
  | failed {q : Buf} {rest : List Buf} : a.state = .ready ∨ a.state = .writing →
      a.queueOut = q :: rest → ans.put.res < 0 →
      Flushed ans a { a.shutdown.fail.after [.csPut a.cs q ans.put.res] with ret := ans.put.res }
  | partly {q : Buf} {rest : List Buf} : a.state = .ready ∨ a.state = .writing →
      a.queueOut = q :: rest → ans.put.res = 1 →
      Flushed ans a
        { assoc := { a with state := .writing }
          calls := [.csPut a.cs q ans.put.res, .maskObserver
            (observeExcept ||| ans.put.pending.mask ||| observeWrite) ans.fileno]
          ret := ans.put.res }
  | drained {q : Buf} : a.state = .ready ∨ a.state = .writing →
      a.queueOut = [q] → 0 ≤ ans.put.res → ans.put.res ≠ 1 → a.sessionIsDead = false →
      Flushed ans a
        { assoc := { a with state := .ready, queueOut := [] }
          calls := [.csPut a.cs q ans.put.res,
            .maskObserver (observeRead ||| observeExcept) ans.fileno]
          ret := ans.put.res }
  | drainedDead {q : Buf} : a.state = .ready ∨ a.state = .writing →
      a.queueOut = [q] → 0 ≤ ans.put.res → ans.put.res ≠ 1 → a.sessionIsDead = true →
      Flushed ans a
        { a.shutdown.after [.csPut a.cs q ans.put.res,
            .maskObserver (observeRead ||| observeExcept) ans.fileno] with ret := ans.put.res }
  | more {q : Buf} {rest : List Buf} : a.state = .ready ∨ a.state = .writing →
      a.queueOut = q :: rest → rest ≠ [] → 0 ≤ ans.put.res → ans.put.res ≠ 1 →
      Flushed ans a
        { assoc := { a with queueOut := rest }
          calls := [.csPut a.cs q ans.put.res]
          ret := ans.put.res }

theorem flushPdu_flushed (ans : Answers) (a : PduAssoc) : Flushed ans a (a.flushPdu ans) := by
  unfold flushPdu
  dsimp only
  split
  · next hnot => exact .notReady hnot.1 hnot.2
  next hlive =>
    have hs : a.state = .ready ∨ a.state = .writing := by
      cases hst : a.state <;> simp [hst] at hlive ⊢
    split
    · next hq =>
      split
      · next hd => exact .idleDead hs hq hd
      · next hd => exact .idle hs hq (Bool.not_eq_true _ ▸ hd)
    · next q rest hq =>
      split
      · next hneg => exact .failed hs hq hneg
      next hneg =>
        have hnn : 0 ≤ ans.put.res := Int.not_lt.mp hneg
        split
        · next hone => exact .partly hs hq hone
        next hone =>
          split
          · next hrest =>
            subst hrest
            split
            · next hd => exact .drainedDead hs hq hnn hone hd
            · next hd => exact .drained hs hq hnn hone (Bool.not_eq_true _ ▸ hd)
          · next hrest => exact .more hs hq hrest hnn hone

/-! ## The receive loop -/

/-- The ways through the receive loop, from `cs_get` to the next callback. -/
inductive Received (ans : Answers) (depth : Nat) (a : PduAssoc) : Outcome → Prop
  | waits : ans.get.res = 1 → Received ans depth a
      { assoc := a
        calls := [.csGet a.cs ans.get.res ans.getBuf,
          .maskObserver (observeExcept ||| ans.get.pending.mask) ans.fileno] }
  | closed : ans.get.res ≤ 0 → a.observer ≠ 0 →
      Received ans depth a (a.shutdown.fail.after [.csGet a.cs ans.get.res ans.getBuf])
  | closedUnobserved : ans.get.res ≤ 0 → a.observer = 0 →
      Received ans depth a (a.shutdown.after [.csGet a.cs ans.get.res ans.getBuf])
  | pdu : 1 < ans.get.res → a.observer ≠ 0 → Received ans depth a
      { assoc := { a with inputBuf := ans.getBuf, destroyed := .loop depth }
        calls := [.csGet a.cs ans.get.res ans.getBuf, .recvPdu ans.getBuf ans.get.res]
        frame := some (.recv false) }
  | pduUnobserved : 1 < ans.get.res → a.observer = 0 → Received ans depth a
      { assoc := { a with inputBuf := ans.getBuf, destroyed := .dangling }
        calls := [.csGet a.cs ans.get.res ans.getBuf] }

theorem receive_received (ans : Answers) (depth : Nat) (a : PduAssoc) :
    Received ans depth a (a.receive ans depth) := by
  unfold receive
  dsimp only
  split
  · next hone => exact .waits hone
  next hone =>
    split
    · next hneg =>
      split
      · next hobs => exact .closedUnobserved hneg hobs
      · next hobs => exact .closed hneg hobs
    · next hneg =>
      have hpos : 1 < ans.get.res := by omega
      split
      · next hobs => exact .pduUnobserved hpos hobs
      · next hobs => exact .pdu hpos hobs

/-- The ways behind `recv_PDU`: the connection is gone, a PDU is waiting, or the loop is over. -/
inductive RecvResumed (ans : Answers) (depth : Nat) (a : PduAssoc) : Outcome → Prop
  | gone : a.cs = 0 → RecvResumed ans depth a { assoc := { a with destroyed := .null } }
  | more : a.cs ≠ 0 → ans.more = true → RecvResumed ans depth a
      ((({ a with destroyed := .null } : PduAssoc).receive ans depth).after [.csMore a.cs ans.more])
  | ready : a.cs ≠ 0 → ans.more = false → a.state = .ready → RecvResumed ans depth a
      { assoc := { a with destroyed := .null }
        calls := [.csMore a.cs ans.more,
          .maskObserver (observeExcept ||| observeRead) ans.fileno] }
  | notReady : a.cs ≠ 0 → ans.more = false → a.state ≠ .ready → RecvResumed ans depth a
      { assoc := { a with destroyed := .null }, calls := [.csMore a.cs ans.more] }

theorem resumeRecv_resumed (ans : Answers) (depth : Nat) (a : PduAssoc) :
    RecvResumed ans depth a (a.resumeRecv ans depth) := by
  unfold resumeRecv
  dsimp only
  split
  · next hcs => exact .gone hcs
  next hcs =>
    split
    · next hm => exact .more hcs hm
    next hm =>
      have hm' : ans.more = false := Bool.not_eq_true _ ▸ hm
      split
      · next hr => exact .ready hcs hm' hr
      · next hr => exact .notReady hcs hm' hr

/-! ## `socketNotify` -/

/-- The ways through `socketNotify`, up to its first callback, over those of the functions it
calls. -/
inductive Notified (event : Nat) (ans : Answers) (depth : Nat) (a : PduAssoc) : Outcome → Prop
  | except : testMask event observeExcept = true → a.state ≠ .connecting →
      Notified event ans depth a a.shutdown.fail
  | timeout : testMask event observeTimeout = true →
      Notified event ans depth a { assoc := a, calls := [.timeoutNotify], frame := some .tail }
  | acceptFailed : a.state = .accepting → ans.accept.res = 0 → Notified event ans depth a
      (({ a with cs := 0 } : PduAssoc).shutdown.fail.after [.csAccept a.cs ans.accept.res])
  | acceptMore : a.state = .accepting → ans.accept.res ≠ 0 → ans.accept.pending.mask ≠ 0 →
      Notified event ans depth a
        { assoc := a
          calls := [.csAccept a.cs ans.accept.res,
            .maskObserver (ans.accept.pending.mask ||| observeExcept) ans.fileno] }
  | acceptDone : a.state = .accepting → ans.accept.res ≠ 0 → ans.accept.pending.mask = 0 →
      testMask event observeExcept = false → testMask event observeTimeout = false →
      Notified event ans depth a
        ((({ a with state := .ready } : PduAssoc).flushPdu ans).after
          [.csAccept a.cs ans.accept.res])
  | connectMore : a.state = .connecting → ans.rcvconnect.res = 1 → Notified event ans depth a
      { assoc := a
        calls := [.csRcvconnect a.cs ans.rcvconnect.res,
          .maskObserver (observeExcept ||| ans.rcvconnect.pending.mask) ans.fileno] }
  | connectDone : a.state = .connecting → ans.rcvconnect.res ≠ 1 → a.observer ≠ 0 →
      Notified event ans depth a
        { assoc := { a with state := .ready }
          calls := [.csRcvconnect a.cs ans.rcvconnect.res, .connectNotify]
          frame := some .connect }
  | connectUnobserved : a.state = .connecting → ans.rcvconnect.res ≠ 1 → a.observer = 0 →
      testMask event observeTimeout = false →
      Notified event ans depth a
        ((({ a with state := .ready } : PduAssoc).flushPdu ans).after
          [.csRcvconnect a.cs ans.rcvconnect.res])
  | listened : a.state = .listen → Notified event ans depth a (a.notifyListen event ans)
  | writing : a.state = .writing → Notified event ans depth a (a.flushPdu ans)
  | ready : a.state = .ready → Notified event ans depth a (a.receive ans depth)
  | nothing : a.state = .ready ∨ a.state = .writing → Notified event ans depth a { assoc := a }
  | closed : a.state = .closed → Notified event ans depth a a.shutdown.fail

theorem socketNotify_notified (event : Nat) (ans : Answers) (depth : Nat) (a : PduAssoc) :
    Notified event ans depth a (a.socketNotify event ans depth) := by
  unfold socketNotify
  split
  · next hx => exact .except hx.1 hx.2
  next hx =>
    split
    · next ht => exact .timeout ht
    next ht =>
      have ht' : testMask event observeTimeout = false := Bool.not_eq_true _ ▸ ht
      cases hs : a.state with
      | accepting =>
        have hx' : testMask event observeExcept = false := by simpa [hs] using hx
        dsimp only [notifyAccepting]
        split
        · next h0 => exact .acceptFailed hs h0
        next h0 =>
          split
          · next hm => exact .acceptDone hs h0 hm hx' ht'
          · next hm => exact .acceptMore hs h0 hm
      | connecting =>
        dsimp only [notifyConnecting]
        split
        · next h1 => exact .connectMore hs h1
        next h1 =>
          split
          · next hobs => exact .connectUnobserved hs h1 hobs ht'
          · next hobs => exact .connectDone hs h1 hobs
      | listen => exact .listened hs
      | writing =>
        dsimp only
        split
        · exact .writing hs
        · exact .nothing (.inr hs)
      | ready =>
        dsimp only
        split
        · exact .ready hs
        · exact .nothing (.inl hs)
      | closed => exact .closed hs

/-- A listener's `socketNotify` leaves the association alone: it talks to COMSTACK, and may make a
child and offer it to the observer. -/
inductive Listened (ans : Answers) (a : PduAssoc) : Outcome → Prop
  | nothing : Listened ans a { assoc := a }
  | noLine : Listened ans a { assoc := a, calls := [.csListen a.cs ans.listen] }
  | refused : Listened ans a
      { assoc := a, calls := [.csListen a.cs ans.listen, .csAcceptNew a.cs ans.newLine] }
  | session : ans.newLine ≠ 0 → Listened ans a
      { assoc := a
        calls := [.csListen a.cs ans.listen, .csAcceptNew a.cs ans.newLine,
          .newChild ans.child ans.newLine ans.accept.pending ans.fileno, .sessionNotify ans.child]
        frame := some (.session ans.child) }

theorem notifyListen_listened (event : Nat) (ans : Answers) (a : PduAssoc) :
    Listened ans a (a.notifyListen event ans) := by
  unfold notifyListen
  split
  · split
    · exact .noLine
    dsimp only
    split
    · exact .refused
    · next hn => exact .session hn
  · exact .nothing

/-! ## `send_PDU`, `connect` and `listen` -/

/-- The ways through `send_PDU`: the null COMSTACK rejects, an empty queue is flushed at once. -/
inductive Sent (buf : Buf) (ans : Answers) (a : PduAssoc) : Outcome → Prop
  | rejected : a.cs = 0 → Sent buf ans a { assoc := a, ret := -1 }
  | queued : a.cs ≠ 0 → a.queueOut ≠ [] → Sent buf ans a
      { assoc := { a with queueOut := a.queueOut ++ [buf] }, calls := [.newPduQueue a.cs buf] }
  | flushed : a.cs ≠ 0 → a.queueOut = [] → Sent buf ans a
      ((({ a with queueOut := [buf] } : PduAssoc).flushPdu ans).after [.newPduQueue a.cs buf])

theorem sendPdu_sent (buf : Buf) (ans : Answers) (a : PduAssoc) :
    Sent buf ans a (a.sendPdu buf ans) := by
  unfold sendPdu
  split
  · next hcs => exact .rejected hcs
  next hcs =>
    dsimp only
    split
    · next hq =>
      rw [hq]
      exact .flushed hcs hq
    · next hq => exact .queued hcs hq

/-- The ways through `connect`: no COMSTACK, one that is connecting, one that failed at once. -/
inductive Connected (observer : Observer) (addr : String) (cs : Comstack) (ans : Answers)
    (a : PduAssoc) : Outcome → Prop
  | refused : cs = 0 → Connected observer addr cs ans a
      { assoc := { a.shutdown.assoc with observer := observer, cs := cs }
        calls := a.shutdown.calls ++ [.csCreateHost addr cs]
        ret := -1 }
  | pending (mask : Nat) : cs ≠ 0 → 0 ≤ ans.connect.res → Connected observer addr cs ans a
      { assoc := { a.shutdown.assoc with observer := observer, cs := cs, state := .connecting }
        calls := a.shutdown.calls ++ [.csCreateHost addr cs, .csConnect cs ans.connect.res,
          .addObserver, .maskObserver mask ans.fileno] }
  | failed : cs ≠ 0 → ans.connect.res < 0 → Connected observer addr cs ans a
      { assoc := { a.shutdown.assoc with observer := observer, cs := cs }
        calls := a.shutdown.calls ++ [.csCreateHost addr cs, .csConnect cs ans.connect.res,
          .addObserver, .maskObserver (observeWrite ||| observeExcept) ans.fileno] }

theorem connect_connected (observer : Observer) (addr : String) (cs : Comstack) (ans : Answers)
    (a : PduAssoc) : Connected observer addr cs ans a (a.connect observer addr cs ans) := by
  unfold connect
  dsimp only
  split
  · next h0 => exact .refused h0
  next h0 =>
    simp only [List.append_assoc, List.cons_append, List.nil_append]
    split
    · next hz => exact .pending _ h0 (Int.le_of_eq hz.symm)
    next hz =>
      split
      · next hp => exact .pending _ h0 (Int.le_of_lt hp)
      · next hp => exact .failed h0 (by omega)

/-- The ways through `listen`. -/
inductive ListenMade (observer : Observer) (addr : String) (cs : Comstack) (ans : Answers)
    (a : PduAssoc) : Outcome → Prop
  | stopped : addr = "" → ListenMade observer addr cs ans a a.teardown
  | refused : cs = 0 → ListenMade observer addr cs ans a
      { assoc := { a.shutdown.assoc with observer := observer, cs := cs }
        calls := a.shutdown.calls ++ [.csCreateHost addr cs]
        ret := -1 }
  | unbound (cert : Option String) : cs ≠ 0 → ListenMade observer addr cs ans a
      { assoc := { a.shutdown.assoc with observer := observer, cs := cs }
        calls := a.shutdown.calls ++ .csCreateHost addr cs ::
          ((cert.map (Call.csSetCert cs)).toList ++ [.csBind cs ans.bind])
        ret := -2 }
  | bound (cert : Option String) : cs ≠ 0 → ListenMade observer addr cs ans a
      { assoc := { a.shutdown.assoc with observer := observer, cs := cs, state := .listen }
        calls := a.shutdown.calls ++ .csCreateHost addr cs ::
          ((cert.map (Call.csSetCert cs)).toList ++ [.csBind cs ans.bind, .addObserver,
            .maskObserver (observeRead ||| observeExcept) ans.fileno]) }

theorem listen_made (observer : Observer) (addr : String) (cs : Comstack) (ans : Answers)
    (a : PduAssoc) : ListenMade observer addr cs ans a (a.listen observer addr cs ans) := by
  unfold listen
  split
  · next hs => exact .stopped hs
  next hs =>
    dsimp only
    split
    · next h0 => exact .refused h0
    next h0 =>
      simp only [List.append_assoc, List.cons_append, List.nil_append]
      split
      · exact .unbound a.certFname h0
      · exact .bound a.certFname h0

/-! ## What holds of every association -/

/-- A state but Closed has a COMSTACK, and without one nothing is queued. -/
structure WF (a : PduAssoc) : Prop where
  opened : a.state ≠ .closed → a.cs ≠ 0
  queued : a.cs = 0 → a.queueOut = []

theorem wf_init : init.WF := ⟨fun h => absurd rfl h, fun _ => rfl⟩

theorem wf_teardown (a : PduAssoc) : a.teardown.assoc.WF := ⟨fun h => absurd rfl h, fun _ => rfl⟩

theorem wf_shutdown (a : PduAssoc) : a.shutdown.assoc.WF := wf_teardown a

/-- The connection is open in every state but Closed, so turning Ready keeps well-formedness. -/
theorem WF.ready {a : PduAssoc} (wf : a.WF) (hs : a.state ≠ .closed) :
    ({ a with state := .ready } : PduAssoc).WF :=
  ⟨fun _ => wf.opened hs, wf.queued⟩

theorem wf_flushPdu {ans : Answers} {a : PduAssoc} (wf : a.WF) : (a.flushPdu ans).assoc.WF := by
  have live : a.state = .ready ∨ a.state = .writing → a.cs ≠ 0 := fun hs =>
    wf.opened (by rcases hs with hs | hs <;> simp [hs])
  have fl := flushPdu_flushed ans a
  generalize a.flushPdu ans = o at fl
  cases fl with
  | notReady => exact wf
  | idle hs hq => exact ⟨fun _ => live hs, fun _ => hq⟩
  | idleDead => exact wf_shutdown a
  | failed => exact wf_shutdown a
  | partly hs => exact ⟨fun _ => live hs, wf.queued⟩
  | drained hs => exact ⟨fun _ => live hs, fun _ => rfl⟩
  | drainedDead => exact wf_shutdown a
  | more hs => exact ⟨fun _ => live hs, fun hcs => absurd hcs (live hs)⟩

theorem wf_receive {ans : Answers} {depth : Nat} {a : PduAssoc} (wf : a.WF) :
    (a.receive ans depth).assoc.WF := by
  have rc := receive_received ans depth a
  generalize a.receive ans depth = o at rc
  cases rc with
  | waits => exact wf
  | closed => exact wf_shutdown a
  | closedUnobserved => exact wf_shutdown a
  | pdu => exact ⟨wf.opened, wf.queued⟩
  | pduUnobserved => exact ⟨wf.opened, wf.queued⟩

theorem wf_socketNotify {event : Nat} {ans : Answers} {depth : Nat} {a : PduAssoc} (wf : a.WF) :
    (a.socketNotify event ans depth).assoc.WF := by
  have nt := socketNotify_notified event ans depth a
  generalize a.socketNotify event ans depth = o at nt
  cases nt with
  | except => exact wf_shutdown a
  | timeout => exact wf
  | acceptFailed => exact wf_shutdown _
  | acceptMore => exact wf
  | acceptDone hs => exact wf_flushPdu (wf.ready (by simp [hs]))
  | connectMore => exact wf
  | connectDone hs => exact wf.ready (by simp [hs])
  | connectUnobserved hs => exact wf_flushPdu (wf.ready (by simp [hs]))
  | listened =>
    have ls := notifyListen_listened event ans a
    generalize a.notifyListen event ans = o at ls
    cases ls <;> exact wf
  | writing => exact wf_flushPdu wf
  | ready => exact wf_receive wf
  | nothing => exact wf
  | closed => exact wf_shutdown a

theorem wf_sendPdu {buf : Buf} {ans : Answers} {a : PduAssoc} (wf : a.WF) :
    (a.sendPdu buf ans).assoc.WF := by
  have st := sendPdu_sent buf ans a
  generalize a.sendPdu buf ans = o at st
  cases st with
  | rejected => exact wf
  | queued hcs => exact ⟨wf.opened, fun h => absurd h hcs⟩
  | flushed hcs =>
    have queued : ({ a with queueOut := [buf] } : PduAssoc).WF :=
      ⟨wf.opened, fun h => absurd h hcs⟩
    exact wf_flushPdu queued

theorem wf_resume {f : Frame} {ans : Answers} {depth : Nat} {a : PduAssoc} (wf : a.WF) :
    (a.resume f ans depth).assoc.WF := by
  cases f with
  | recv destroyed =>
    cases destroyed with
    | true => exact wf
    | false =>
      have rs := resumeRecv_resumed ans depth a
      simp only [resume]
      generalize a.resumeRecv ans depth = o at rs
      cases rs with
      | more =>
        have cleared : ({ a with destroyed := .null } : PduAssoc).WF := ⟨wf.opened, wf.queued⟩
        exact wf_receive cleared
      | _ => exact ⟨wf.opened, wf.queued⟩
  | connect => exact wf_flushPdu wf
  | session child =>
    simp only [resume, resumeSession]
    split <;> exact ⟨wf.opened, wf.queued⟩
  | tail => exact wf

end PduAssoc

open PduAssoc in
/-- Every call keeps an association well-formed. -/
theorem wf_outcome (i : Input) {depth : Nat} {a : PduAssoc} (wf : a.WF) :
    (i.outcome a depth).assoc.WF := by
  cases i with
  | connect observer addr cs ans =>
    have ct := connect_connected observer addr cs ans a
    simp only [Input.outcome]
    generalize a.connect observer addr cs ans = o at ct
    cases ct with
    | refused => exact ⟨fun h => absurd rfl h, fun _ => rfl⟩
    | pending mask hcs => exact ⟨fun _ => hcs, fun _ => rfl⟩
    | failed => exact ⟨fun h => absurd rfl h, fun _ => rfl⟩
  | listen observer addr cs ans =>
    have lm := listen_made observer addr cs ans a
    simp only [Input.outcome]
    generalize a.listen observer addr cs ans = o at lm
    cases lm with
    | stopped => exact wf_teardown a
    | refused => exact ⟨fun h => absurd rfl h, fun _ => rfl⟩
    | unbound => exact ⟨fun h => absurd rfl h, fun _ => rfl⟩
    | bound cert hcs => exact ⟨fun _ => hcs, fun _ => rfl⟩
  | sendPdu buf ans => exact wf_sendPdu wf
  | closeSession =>
    simp only [Input.outcome, closeSession]
    split
    · exact wf_shutdown _
    · exact ⟨wf.opened, wf.queued⟩
  | shutdown => exact wf_shutdown a
  | destroy => exact ⟨fun h => absurd rfl h, fun _ => rfl⟩
  | socketNotify event ans => exact wf_socketNotify wf
  | unlink child =>
    simp only [Input.outcome, unlink]
    split <;> exact ⟨wf.opened, wf.queued⟩
  | _ => exact ⟨wf.opened, wf.queued⟩

/-! ## The end of the object -/

theorem setDestroyed_length (depth : Nat) (fs : List Frame) :
    (setDestroyed depth fs).length = fs.length := by
  induction fs with
  | nil => rfl
  | cons f fs ih =>
    simp only [setDestroyed]
    split
    · rfl
    · exact congrArg Nat.succ ih

theorem Sys.bury_depth (i : Input) (s : Sys) : (s.bury i).frames.length = s.frames.length := by
  unfold Sys.bury
  split
  · exact setDestroyed_length _ _
  · rfl
  · rfl
  · rfl

/-- Whether an input ends the object. -/
def Input.ends : Input → Bool
  | .destroy | .delete => true
  | _ => false

theorem Sys.bury_alive (i : Input) (s : Sys) : (s.bury i).alive = (!i.ends && s.alive) := by
  cases i with
  | destroy => cases hd : s.assoc.destroyed <;> simp [Sys.bury, hd, Input.ends]
  | _ => simp [Sys.bury, Input.ends]

/-- Burying the object leaves the socket manager as it is. -/
theorem Sys.bury_entry (i : Input) (s : Sys) : (s.bury i).entry = s.entry := by
  unfold Sys.bury
  split <;> rfl

theorem Sys.bury_of_alive {i : Input} {s : Sys} (h : (s.bury i).alive = true) : s.bury i = s := by
  unfold Sys.bury at h ⊢
  split at h <;> first | rfl | cases h

/-- Burying the object leaves the association as it is. -/
@[simp] theorem Sys.bury_assoc (i : Input) (s : Sys) : (s.bury i).assoc = s.assoc := by
  unfold Sys.bury
  split <;> rfl

/-- A well-formed association stays well-formed. -/
theorem wf_step {s s' : Sys} {i : Input} {o : List Call} (wf : s.assoc.WF)
    (step : pdu.step s i = some (s', o)) : s'.assoc.WF := by
  cases stepped_of_step step with
  | call =>
    rw [Sys.bury_assoc]
    exact wf_outcome i wf
  | back => exact PduAssoc.wf_resume wf
  | dead => exact wf

/-- Both constructors make a well-formed association. -/
theorem wf_born {s : Sys} {h : List Call} (born : Sys.Born s h) : s.assoc.WF := by
  cases born with
  | new => exact PduAssoc.wf_init
  | accepted pending fileno hcs =>
    simp only [PduAssoc.accepted]
    split
    · exact ⟨fun _ => hcs, fun _ => rfl⟩
    · exact ⟨fun _ => hcs, fun _ => rfl⟩

end Yazpp
