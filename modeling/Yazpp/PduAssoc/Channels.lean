import Yazpp.PduAssoc.Link

/-!
# Two associations are two channels

Seen from the applications, two `PDU_Assoc`s with a connection between them are a pair of first-in
first-out channels: whatever the ends do and whatever becomes of the connection, the applications
take the steps of a `duplex` (`link_refines_duplex`). A connection that ends is a channel from which
nothing is read any more. As long as an end has its COMSTACK, what is in its channel is what the
other end has buffered, what is on the network, what is in `queue_out`, and what the application has
still to send, in this order (`Carries`).
-/

set_option autoImplicit false

namespace Yazpp

open Yazpp.Lib

variable {σ τ ι ο π : Type}

/-! ## A call on the association -/

theorem PduAssoc.outbox_closed {a : PduAssoc} : a.outbox.conn = none ↔ a.cs = 0 := by
  simp [outbox]

theorem PduAssoc.cs_of_outbox {a : PduAssoc} {cs : Comstack} (conn : a.outbox.conn = some cs) :
    a.cs = cs := by
  simp only [outbox] at conn
  split at conn
  · cases conn
  · exact Option.some.inj conn

/-- What a call on the association does to what it has queued and to what it has read; `accepted`
is what `send_PDU` was called with. -/
structure Conveys (cs : Comstack) (x x' : Fed) (accepted : List Buf) (calls : List Call) :
    Prop where
  inv : x'.Inv
  same : x'.sys.assoc.cs = cs ∨ x'.sys.assoc.cs = 0
  read : x.wire.read <+: x'.wire.read
  heard : x'.wire.heard = x.wire.heard ++ calls.filterMap Call.heard?
  queued : x'.sys.assoc.cs ≠ 0 → x.sys.assoc.cs ≠ 0 ∧
    x.sys.assoc.queueOut ++ accepted = sentOn cs calls ++ x'.sys.assoc.queueOut
  sent : sentOn cs calls <+:
    if x.sys.assoc.cs = 0 then [] else x.sys.assoc.queueOut ++ accepted

/-- A call that installs nothing. -/
theorem conveys_step {cs : Comstack} {x x' : Fed} {i : Input} {new accepted : List Buf}
    {calls : List Call} (inv : x.Inv) (hcs : x.sys.assoc.cs = cs ∨ x.sys.assoc.cs = 0)
    (hstep : fed.step x (i, new) = some (x', calls)) (results : ∀ p ∈ putsOn cs calls, p.2 ≤ 1)
    (kept : calls.any Call.installs = false) (unopened : Outbox.opens (outEvents calls) = [])
    (accepts : x.sys.assoc.cs ≠ 0 → Outbox.accepts cs (outEvents calls) = accepted) :
    Conveys cs x x' accepted calls := by
  have inv' := inv.step hstep
  obtain ⟨s, w, old⟩ := x'
  obtain ⟨-, hpdu, hwire, -⟩ := fed_step hstep
  obtain ⟨hread, hheard⟩ := Wire.calls_grow kept hwire
  have replay := replay_step inv.wf hpdu
  have htaken := taken_outEvents results
  by_cases h0 : x.sys.assoc.cs = 0
  · obtain ⟨closed, -, hoffers⟩ :=
      replay.closed (PduAssoc.outbox_closed.mpr h0) unopened cs
    have closed' : s.assoc.cs = 0 := PduAssoc.outbox_closed.mp closed
    have nothing : sentOn cs calls = [] := by
      rw [← htaken, Outbox.taken, hoffers]
      rfl
    refine ⟨inv', .inr closed', hread, hheard, fun h => absurd closed' h, ?_⟩
    rw [nothing]
    exact List.nil_prefix
  · have hopen : x.sys.assoc.cs = cs := hcs.resolve_right h0
    have conn : x.sys.assoc.outbox = ⟨some cs, x.sys.assoc.queueOut⟩ := by
      rw [PduAssoc.outbox_open h0, hopen]
    rw [conn] at replay
    rcases replay.kept rfl unopened with ⟨same, books⟩ | ⟨closed, first⟩
    · rw [accepts h0, htaken] at books
      refine ⟨inv', .inl (PduAssoc.cs_of_outbox same), hread, hheard, fun _ => ⟨h0, books⟩, ?_⟩
      rw [if_neg h0]
      exact ⟨_, books.symm⟩
    · rw [accepts h0, htaken] at first
      have closed' : s.assoc.cs = 0 := PduAssoc.outbox_closed.mp closed
      refine ⟨inv', .inr closed', hread, hheard, fun h => absurd closed' h, ?_⟩
      rw [if_neg h0]
      exact first

/-- A call that leaves the association at its connection. -/
theorem conveys_stays {cs : Comstack} {x x' : Fed} {i : Input} {new : List Buf} {calls : List Call}
    (inv : x.Inv) (hcs : x.sys.assoc.cs = cs ∨ x.sys.assoc.cs = 0) (stays : i.stays = true)
    (hstep : fed.step x (i, new) = some (x', calls))
    (results : ∀ p ∈ putsOn cs calls, p.2 ≤ 1) : Conveys cs x x' [] calls := by
  have onward : calls.all Call.onward = true := by
    obtain ⟨s, w, old⟩ := x'
    exact onward_step stays (fed_step hstep).2.1
  obtain ⟨unopened, accepts⟩ := outEvents_onward onward cs
  exact conveys_step inv hcs hstep results (installs_onward onward) unopened fun _ => accepts

/-- `send_PDU`. -/
theorem conveys_send {cs : Comstack} {x x' : Fed} {buf : Buf} {ans : Answers} {new : List Buf}
    {calls : List Call} (inv : x.Inv) (hcs : x.sys.assoc.cs = cs ∨ x.sys.assoc.cs = 0)
    (hstep : fed.step x (.sendPdu buf ans, new) = some (x', calls))
    (results : ∀ p ∈ putsOn cs calls, p.2 ≤ 1) :
    Conveys cs x x' [buf] calls ∧ calls.filterMap Call.heard? = [] := by
  have hcalls : ∃ rest, rest.all Call.onward = true ∧ rest.all Call.offWire = true ∧
      calls = (if x.sys.assoc.cs = 0 then [] else [.newPduQueue x.sys.assoc.cs buf]) ++ rest := by
    obtain ⟨s, w, old⟩ := x'
    exact sendPdu_calls (fed_step hstep).2.1
  obtain ⟨rest, onward, off, hcalls⟩ := hcalls
  obtain ⟨unopened, accepts⟩ := outEvents_onward onward cs
  have kept := installs_onward onward
  have quiet := heard_offWire off
  by_cases h0 : x.sys.assoc.cs = 0
  · rw [if_pos h0, List.nil_append] at hcalls
    subst hcalls
    exact ⟨conveys_step inv hcs hstep results kept unopened (absurd h0), quiet⟩
  · have hopen : x.sys.assoc.cs = cs := hcs.resolve_right h0
    rw [if_neg h0, hopen] at hcalls
    subst hcalls
    refine ⟨conveys_step inv hcs hstep results ?_ ?_ fun _ => ?_, ?_⟩
    · exact kept
    · exact unopened
    · rw [outEvents_append, Outbox.accepts_append, accepts]
      simp [outEvents, Call.outEvent?, Outbox.accepts]
    · exact quiet

/-! ## A step of one end -/

/-- What a step of one end does to its channels: `sent` goes out, and `inbound` becomes `inbound'`.
In `log` is what the application reads and puts out. -/
structure Advances (m : Machine σ (ι ⊕ Buf) ο) (send : ο → Option Buf) (cs : Comstack)
    (e e' : End σ) (inbound inbound' sent : List Buf) (log : List ((ι ⊕ Buf) × List ο)) :
    Prop where
  inv : e'.fed.Inv
  same : e'.fed.sys.assoc.cs = cs ∨ e'.fed.sys.assoc.cs = 0
  reads : m.logged.exec e.app (log.map Prod.fst) = some (e'.app, log)
  heard : e.fed.wire.unread ++ inbound =
    (log.map Prod.fst).filterMap Sum.getRight? ++ (e'.fed.wire.unread ++ inbound')
  queued : e'.fed.sys.assoc.cs ≠ 0 → e.fed.sys.assoc.cs ≠ 0 ∧
    e.fed.sys.assoc.queueOut ++ e.sends ++ (log.flatMap Prod.snd).filterMap send =
      sent ++ (e'.fed.sys.assoc.queueOut ++ e'.sends)
  sent : sent <+:
    if e.fed.sys.assoc.cs = 0 then [] else e.fed.sys.assoc.queueOut ++ e.sends

/-- What was heard and what is read balance. -/
theorem Conveys.balance {cs : Comstack} {x x' : Fed} {accepted : List Buf} {calls : List Call}
    (conveys : Conveys cs x x' accepted calls) (inv : x.Inv) :
    x.wire.unread ++ x'.wire.read.drop x.wire.read.length =
      calls.filterMap Call.heard? ++ x'.wire.unread := by
  obtain ⟨new, hnew⟩ := conveys.read
  have before : x.wire.heard ++ x.wire.unread = x.wire.read := inv.balanced
  have after : x'.wire.heard ++ x'.wire.unread = x'.wire.read := conveys.inv.balanced
  rw [← hnew, List.drop_left]
  rw [conveys.heard, ← hnew, ← before, List.append_assoc, List.append_assoc] at after
  exact (List.append_cancel_left after).symm

/-- The application has read what `log` says. -/
theorem end_read {m : Machine σ (ι ⊕ Buf) ο} {send : ο → Option Buf} {is : List (ι ⊕ Buf)}
    {e e' : End σ} {events : List (EndEvent ι ο)} (hread : e.read m send is = some (e', events)) :
    ∃ log, m.logged.exec e.app is = some (e'.app, log) ∧ log.map Prod.fst = is ∧
      events = log.map .app ∧ e'.fed = e.fed ∧
      e'.sends = e.sends ++ (log.flatMap Prod.snd).filterMap send := by
  obtain ⟨⟨app, log⟩, hexec, heq⟩ := Option.map_eq_some_iff.mp hread
  cases heq
  have begin : m.logged.Run (fun s l => s = e.app ∧ l = []) [] e.app [] := .start ⟨rfl, rfl⟩
  have run := begin.exec hexec
  exact ⟨log, hexec, run.logged_inputs (fun _ _ h => h.2), rfl, rfl, rfl⟩

theorem app_events (log : List ((ι ⊕ Buf) × List ο)) :
    (log.map EndEvent.app).filterMap EndEvent.app? = log ∧
      (log.map EndEvent.app).filterMap EndEvent.call? = [] := by
  constructor
  · rw [List.filterMap_map]
    exact List.filterMap_some
  · rw [List.filterMap_map]
    exact List.filterMap_eq_nil_iff.mpr fun _ _ => rfl

theorem call_events (calls : List Call) :
    (calls.map (EndEvent.call (ι := ι) (ο := ο))).filterMap EndEvent.app? = [] ∧
      (calls.map (EndEvent.call (ι := ι) (ο := ο))).filterMap EndEvent.call? = calls := by
  constructor
  · rw [List.filterMap_map]
    exact List.filterMap_eq_nil_iff.mpr fun _ _ => rfl
  · rw [List.filterMap_map]
    exact List.filterMap_some

/-- **One step of one end**, whatever it is. -/
theorem advances_online {m : Machine σ (ι ⊕ Buf) ο} {send : ο → Option Buf} {cs : Comstack}
    {e e' : End σ} {inbound inbound' sent : List Buf} {i : EndInput ι}
    {events : List (EndEvent ι ο)} (inv : e.fed.Inv)
    (hcs : e.fed.sys.assoc.cs = cs ∨ e.fed.sys.assoc.cs = 0)
    (hstep : e.online m send cs inbound i = some (e', inbound', sent, events)) :
    Advances m send cs e e' inbound inbound' sent (events.filterMap EndEvent.app?) := by
  obtain ⟨⟨e₁, events₁⟩, hend, hnet⟩ := Option.bind_eq_some_iff.mp hstep
  dsimp only at hnet
  split at hnet
  case isFalse => cases hnet
  case isTrue hold =>
    cases hnet
    obtain ⟨results, hnew⟩ := hold
    obtain ⟨rest, rfl⟩ := hnew
    rw [List.drop_left]
    cases i with
    | app i =>
      obtain ⟨log, hexec, hlog, rfl, hfed, hsends⟩ := end_read hend
      obtain ⟨happ, hcall⟩ := app_events log
      rw [happ, hcall, hfed, List.drop_length]
      refine ⟨hfed ▸ inv, hfed ▸ hcs, hlog ▸ hexec, ?_, fun hopen => ⟨hfed ▸ hopen, ?_⟩, ?_⟩
      · rw [hlog, hfed]
        rfl
      · rw [hfed, hsends, List.append_assoc]
        rfl
      · exact List.nil_prefix
    | send ans =>
      simp only [End.step] at hend
      split at hend
      · cases hend
      · next buf sends hsends =>
        obtain ⟨⟨x, calls⟩, hfed, heq⟩ := Option.map_eq_some_iff.mp hend
        cases heq
        obtain ⟨happ, hcall⟩ := call_events (ι := ι) (ο := ο) calls
        rw [hcall] at results ⊢
        rw [happ]
        obtain ⟨conveys, quiet⟩ := conveys_send inv hcs hfed results
        have balance := conveys.balance inv
        rw [quiet, List.nil_append] at balance
        refine ⟨conveys.inv, conveys.same, rfl, ?_, fun hopen => ?_, ?_⟩
        · rw [← List.append_assoc, balance]
          rfl
        · obtain ⟨before, books⟩ := conveys.queued hopen
          refine ⟨before, ?_⟩
          rw [hsends, List.flatMap_nil, List.filterMap_nil, List.append_nil, ← List.append_assoc,
            ← books, List.append_assoc]
          rfl
        · refine conveys.sent.trans ?_
          rw [hsends]
          split
          · exact List.nil_prefix
          · exact ⟨sends, by rw [List.append_assoc]; rfl⟩
    | assoc i new =>
      simp only [End.step] at hend
      split at hend
      case isFalse => cases hend
      case isTrue stays =>
        obtain ⟨⟨x, calls⟩, hfed, hmore⟩ := Option.bind_eq_some_iff.mp hend
        obtain ⟨⟨e₂, last⟩, hread, heq⟩ := Option.map_eq_some_iff.mp hmore
        cases heq
        obtain ⟨log, hexec, hlog, rfl, hfed', hsends⟩ := end_read hread
        obtain ⟨noApp, hcall⟩ := call_events (ι := ι) (ο := ο) calls
        obtain ⟨happ, noCall⟩ := app_events log
        rw [List.filterMap_append, hcall, noCall, List.append_nil] at results ⊢
        rw [List.filterMap_append, noApp, happ, List.nil_append]
        have conveys := conveys_stays inv hcs stays hfed results
        have balance := conveys.balance inv
        dsimp only at hfed' hsends
        rw [hfed']
        refine ⟨hfed' ▸ conveys.inv, hfed' ▸ conveys.same, hlog ▸ hexec, ?_, fun hopen => ?_, ?_⟩
        · rw [hlog, hfed', ← List.append_assoc, balance, List.append_assoc]
          congr 1
          rw [List.filterMap_map]
          exact List.filterMap_some.symm
        · rw [hfed'] at hopen ⊢
          obtain ⟨before, books⟩ := conveys.queued hopen
          rw [List.append_nil] at books
          refine ⟨before, ?_⟩
          rw [hsends, books]
          simp only [List.append_assoc]
        · have first := conveys.sent
          rw [List.append_nil] at first
          refine first.trans ?_
          split
          · exact List.nil_prefix
          · exact List.prefix_append _ _

/-! ## The channels -/

/-- What is on the way from `e` to `r`: buffered, on the network, queued, and still to be sent. -/
def onWay (e : End σ) (network : List Buf) (r : End τ) : List Buf :=
  r.fed.wire.unread ++ network ++ (e.fed.sys.assoc.queueOut ++ e.sends)

/-- What is in the channel from one end to the other: at least what can still be read, and all that
was not read while the sender has its COMSTACK. -/
structure Carries (sender : End σ) (network : List Buf) (receiver : End τ) (channel : List Buf) :
    Prop where
  arriving : receiver.fed.wire.unread ++ network <+: channel
  whole : sender.fed.sys.assoc.cs ≠ 0 → channel = onWay sender network receiver

section

variable {m : Machine σ (ι ⊕ Buf) ο} {send : ο → Option Buf} {cs : Comstack} {e e' : End σ}
  {r r' : End τ} {network network' inbound inbound' sent channel : List Buf}
  {log : List ((ι ⊕ Buf) × List ο)}

/-- The sender moves. -/
theorem Carries.sender (carries : Carries e network r channel)
    (moved : Advances m send cs e e' inbound inbound' sent log) :
    Carries e' (network ++ sent) r (channel ++ (log.flatMap Prod.snd).filterMap send) := by
  constructor
  · have first := moved.sent
    rw [← List.append_assoc]
    by_cases h0 : e.fed.sys.assoc.cs = 0
    · rw [if_pos h0, List.prefix_nil] at first
      rw [first, List.append_nil]
      exact carries.arriving.trans (List.prefix_append _ _)
    · rw [if_neg h0] at first
      rw [carries.whole h0]
      exact ((List.prefix_append_right_inj _).mpr first).trans (List.prefix_append _ _)
  · intro hopen
    obtain ⟨before, books⟩ := moved.queued hopen
    rw [carries.whole before, onWay, List.append_assoc, books]
    simp only [onWay, List.append_assoc]

/-- The receiver moves, and reads what was in the channel first. -/
theorem Carries.receiver (carries : Carries r network e channel)
    (moved : Advances m send cs e e' network network' sent log) :
    ∃ rest, channel = (log.map Prod.fst).filterMap Sum.getRight? ++ rest ∧
      Carries r network' e' rest := by
  obtain ⟨rest, hrest⟩ := carries.arriving
  rw [moved.heard] at hrest
  refine ⟨e'.fed.wire.unread ++ network' ++ rest, ?_, List.prefix_append _ _, fun hopen => ?_⟩
  · rw [← hrest]
    simp only [List.append_assoc]
  · have all := carries.whole hopen
    rw [onWay, moved.heard, ← hrest] at all
    rw [List.append_cancel_left all]
    rfl

end

/-- An end that has its connection, with nothing queued or still to send, and no callback
running. -/
structure End.Idle (e : End σ) : Prop where
  alive : e.fed.sys.alive = true
  cs : e.fed.sys.assoc.cs ≠ 0
  queueOut : e.fed.sys.assoc.queueOut = []
  sends : e.sends = []
  frames : e.fed.sys.frames = []

/-- Nothing is buffered at an idle end. -/
theorem End.Idle.unread {e : End σ} (idle : e.Idle) (inv : e.fed.Inv) :
    e.fed.wire.unread = [] := by
  by_contra hunread
  obtain ⟨f, hf, -⟩ := inv.waited idle.alive idle.cs hunread
  rw [idle.frames, List.take_nil] at hf
  exact List.not_mem_nil hf

/-- A channel between idle ends is what is on the network. -/
theorem Carries.idle {e : End σ} {r : End τ} {network channel : List Buf}
    (carries : Carries e network r channel) (sender : e.Idle) (receiver : r.Idle)
    (inv : r.fed.Inv) : channel = network := by
  rw [carries.whole sender.cs, onWay, receiver.unread inv, sender.queueOut, sender.sends,
    List.nil_append, List.append_nil, List.append_nil]

/-! ## Runs -/

/-- The invariant: the applications have taken the steps of a `duplex`, and its channels hold what
is on the way. -/
structure Piped (m : Machine σ (ι ⊕ Buf) ο) (n : Machine τ Buf π) (send : ο → Option Buf)
    (reply : π → Option Buf) (cs cs' : Comstack) (client : σ → Prop) (server : τ → Prop)
    (x : Link σ τ) (h : List (LinkEvent ι Empty ο π)) (is : List (DuplexInput ι))
    (d : Duplex σ τ Buf Buf) : Prop where
  run : (duplex m n send reply).Run (Duplex.Start client server) is d
    (h.filterMap LinkEvent.app?)
  client : d.client = x.near.app
  server : d.server = x.far.app
  near : x.near.fed.Inv ∧ (x.near.fed.sys.assoc.cs = cs ∨ x.near.fed.sys.assoc.cs = 0)
  far : x.far.fed.Inv ∧ (x.far.fed.sys.assoc.cs = cs' ∨ x.far.fed.sys.assoc.cs = 0)
  up : Carries x.near x.up x.far d.up
  down : Carries x.far x.down x.near d.down

section

variable {m : Machine σ (ι ⊕ Buf) ο} {n : Machine τ Buf π} {send : ο → Option Buf}
  {reply : π → Option Buf} {cs cs' : Comstack} {client : σ → Prop} {server : τ → Prop}

/-- The steps of the applications in the steps of one end. -/
theorem apps_near (events : List (EndEvent ι ο)) :
    (events.map (LinkEvent.near (κ := Empty) (π := π))).filterMap LinkEvent.app? =
      (events.filterMap EndEvent.app?).map .ofClient := by
  rw [List.filterMap_map, List.map_filterMap]
  rfl

theorem apps_far (events : List (EndEvent Empty π)) :
    (events.map (LinkEvent.far (ι := ι) (ο := ο))).filterMap LinkEvent.app? =
      (events.filterMap EndEvent.app?).map .ofServer := by
  rw [List.filterMap_map, List.map_filterMap]
  rfl

/-- **One step** of the link is steps of the channels. -/
theorem piped_step {x x' : Link σ τ} {h o : List (LinkEvent ι Empty ο π)}
    {i : LinkInput ι Empty} {is : List (DuplexInput ι)} {d : Duplex σ τ Buf Buf}
    (piped : Piped m n send reply cs cs' client server x h is d)
    (hstep : (link m n.served send reply cs cs').step x i = some (x', o)) :
    ∃ is' d', Piped m n send reply cs cs' client server x' (h ++ o) is' d' := by
  cases i with
  | near i =>
    obtain ⟨⟨e, down, sent, events⟩, honline, heq⟩ := Option.map_eq_some_iff.mp hstep
    cases heq
    have moved := advances_online piped.near.1 piped.near.2 honline
    obtain ⟨rest, hdown, carried⟩ := piped.down.receiver moved
    have reads := moved.reads
    rw [← piped.client] at reads
    have steps : (duplex m n send reply).exec d _ = some _ := exec_ofClient reads hdown
    have run := piped.run.exec steps
    rw [← apps_near, ← List.filterMap_append] at run
    exact ⟨_, _, run, rfl, piped.server, ⟨moved.inv, moved.same⟩, piped.far,
      piped.up.sender moved, carried⟩
  | far i =>
    obtain ⟨⟨e, up, sent, events⟩, honline, heq⟩ := Option.map_eq_some_iff.mp hstep
    cases heq
    have moved := advances_online piped.far.1 piped.far.2 honline
    obtain ⟨rest, hup, carried⟩ := piped.up.receiver moved
    have reads := moved.reads
    rw [← piped.server] at reads
    have steps : (duplex m n send reply).exec d _ = some _ := exec_ofServer reads hup
    have run := piped.run.exec steps
    rw [← apps_far, ← List.filterMap_append] at run
    exact ⟨_, _, run, piped.client, rfl, piped.near, ⟨moved.inv, moved.same⟩, carried,
      piped.down.sender moved⟩

theorem Fed.Opened.inv {cs : Comstack} {x : Fed} (opened : x.Opened cs) : x.Inv := by
  obtain ⟨is, h, run⟩ := opened.reached
  exact run.invariant (fun x _ => x.Inv) (fun _ _ => inv_born) fun _ _ _ _ _ inv hstep =>
    inv.step hstep

theorem piped_start {x : Link σ τ} {h : List (LinkEvent ι Empty ο π)}
    (start : Link.Start cs cs' client server x h) :
    ∃ d, Piped m n send reply cs cs' client server x h [] d := by
  have hnear := start.near.fed
  have hfar := start.far.fed
  refine ⟨{ client := x.near.app, server := x.far.app }, ?_, rfl, rfl,
    ⟨hnear.inv, .inl hnear.cs⟩, ⟨hfar.inv, .inl hfar.cs⟩, ?_, ?_⟩
  · rw [start.history]
    exact .start ⟨start.near.app, start.far.app, rfl, rfl, rfl⟩
  · have empty : x.far.fed.wire.unread ++ x.up = [] := by rw [hfar.wire, start.up]; rfl
    refine ⟨empty ▸ List.nil_prefix, fun _ => ?_⟩
    rw [onWay, empty, hnear.queueOut, start.near.sends]
    rfl
  · have empty : x.near.fed.wire.unread ++ x.down = [] := by rw [hnear.wire, start.down]; rfl
    refine ⟨empty ▸ List.nil_prefix, fun _ => ?_⟩
    rw [onWay, empty, hfar.queueOut, start.far.sends]
    rfl

theorem link_piped {is : List (LinkInput ι Empty)} {x : Link σ τ}
    {h : List (LinkEvent ι Empty ο π)}
    (run : (link m n.served send reply cs cs').Run (Link.Start cs cs' client server) is x h) :
    ∃ js d, Piped m n send reply cs cs' client server x h js d := by
  induction run with
  | start start => exact ⟨[], piped_start start⟩
  | step _ hstep ih =>
    obtain ⟨js, d, piped⟩ := ih
    exact piped_step piped hstep

/-- **Two associations are two channels**: over every run of the two ends, however the network and
the applications behave, the applications take the steps of a client and a server that are joined by
two first-in first-out channels. What can still be read is what is in these first, all of it while
the sender has its COMSTACK; between idle ends it is what is on the network. -/
theorem link_refines_duplex {is : List (LinkInput ι Empty)} {x : Link σ τ}
    {h : List (LinkEvent ι Empty ο π)}
    (run : (link m n.served send reply cs cs').Run (Link.Start cs cs' client server) is x h) :
    ∃ js d, (duplex m n send reply).Run (Duplex.Start client server) js d
        (h.filterMap LinkEvent.app?) ∧
      d.client = x.near.app ∧ d.server = x.far.app ∧
      Carries x.near x.up x.far d.up ∧ Carries x.far x.down x.near d.down ∧
      (x.near.Idle → x.far.Idle → d.up = x.up ∧ d.down = x.down) := by
  obtain ⟨js, d, piped⟩ := link_piped run
  refine ⟨js, d, piped.run, piped.client, piped.server, piped.up, piped.down, ?_⟩
  intro near far
  exact ⟨piped.up.idle near far piped.far.1, piped.down.idle far near piped.near.1⟩

end

/-! ## An echo -/

/-- A client that sends what it is told to. -/
def caller : Machine (List Buf) (Buf ⊕ Buf) Buf where
  step heard i :=
    match i with
    | .inl buf => some (heard, [buf])
    | .inr buf => some (heard ++ [buf], [])

/-- A server that sends back what it reads. -/
def echo : Machine (List Buf) Buf Buf where
  step heard buf := some (heard ++ [buf], [buf])

/-- The client behind `connect`. -/
def End.dialled (app : σ) : End σ where
  fed := { sys := (({} : Sys).perform (PduAssoc.init.connect 1 "tcp:host:210" 1 {})).1 }
  app := app

/-- The server's session behind `childNotify`. -/
def End.answered (app : σ) : End σ where
  fed :=
    let s := (({} : Sys).perform (PduAssoc.accepted 2 {} 5)).1
    { sys := { s with assoc := { s.assoc with observer := 1, parent := some 0 } } }
  app := app

theorem End.dialled_opened (app : σ) : (dialled app).Opened 1 (· = app) where
  fed :=
    { reached := by
        have run : Yazpp.fed.exec { sys := {} } [(.connect 1 "tcp:host:210" 1 {}, [])] =
          some ((dialled app).fed, _) := rfl
        exact ⟨_, _, Machine.Run.exec (.start (Fed.Born.born .new)) run⟩
      notNull := Nat.one_ne_zero
      cs := rfl
      queueOut := rfl
      observer := Nat.one_ne_zero
      wire := rfl }
  app := rfl
  sends := rfl

theorem End.answered_opened (app : σ) : (answered app).Opened 2 (· = app) where
  fed :=
    { reached := by
        have run : Yazpp.fed.exec { sys := (({} : Sys).perform (PduAssoc.accepted 2 {} 5)).1 }
            [(.setObserver 1, []), (.setParent (some 0), [])] =
          some ((answered app).fed, _) := rfl
        have born := Fed.Born.born (Sys.Born.accepted {} 5 (Nat.succ_ne_zero 1))
        exact ⟨_, _, Machine.Run.exec (.start born) run⟩
      notNull := Nat.succ_ne_zero 1
      cs := rfl
      queueOut := rfl
      observer := Nat.one_ne_zero
      wire := rfl }
  app := rfl
  sends := rfl

/-- Two PDUs, the first written in two parts and both read at once. -/
def echoed : List (LinkInput Buf Empty) :=
  [.near (.app [1]), .near (.app [2]), .near (.send {}), .near (.send {}),
    .near (.assoc (.socketNotify observeWrite {}) []),
    .near (.assoc (.ret { put := { res := 1 } }) []),
    .near (.assoc (.socketNotify observeWrite {}) []),
    .near (.assoc (.socketNotify observeWrite {}) []),
    .far (.assoc (.socketNotify observeRead { get := { res := 2 }, getBuf := [1] }) [[1], [2]]),
    .far (.send {}), .far (.assoc (.ret { more := true, get := { res := 2 }, getBuf := [2] }) []),
    .far (.send { put := { res := 1 } }), .far (.assoc (.ret {}) []),
    .near (.assoc (.socketNotify observeRead { get := { res := 2 }, getBuf := [1] }) [[1]]),
    .near (.assoc (.ret {}) [])]

/-- The answer to the first has arrived, and the answer to the second waits in `queue_out`. -/
theorem link_refines_duplex_echo : ∃ x h,
    (link caller echo.served some some 1 2).Run (Link.Start 1 2 (· = []) (· = [])) echoed x h ∧
    x.far.app = [[1], [2]] ∧ x.near.app = [[1]] ∧
    ∃ js d, (duplex caller echo some some).Run (Duplex.Start (· = []) (· = [])) js d
        (h.filterMap LinkEvent.app?) ∧
      d.client = x.near.app ∧ d.server = x.far.app ∧ d.up = [] ∧ d.down = [[2]] := by
  have start : Link.Start 1 2 (· = []) (· = []) { near := .dialled [], far := .answered [] }
      ([] : List (LinkEvent Buf Empty Buf Buf)) :=
    ⟨End.dialled_opened ([] : List Buf), End.answered_opened ([] : List Buf), rfl, rfl, rfl⟩
  have seen : ∃ x h, (link caller echo.served some some 1 2).Run
      (Link.Start 1 2 (· = []) (· = [])) echoed x h ∧
      (x.far.app, x.near.app, x.near.fed.sys.assoc.cs, onWay x.near x.up x.far,
        x.far.fed.sys.assoc.cs, onWay x.far x.down x.near) =
        ([[1], [2]], [[1]], 1, [], 2, [[2]]) :=
    Machine.Run.of_exec (f := fun x h => (x.far.app, x.near.app, x.near.fed.sys.assoc.cs,
      onWay x.near x.up x.far, x.far.fed.sys.assoc.cs, onWay x.far x.down x.near)) start
      rfl
  obtain ⟨x, h, run, seen⟩ := seen
  simp only [Prod.mk.injEq] at seen
  obtain ⟨far, near, hcs, hup, hcs', hdown⟩ := seen
  obtain ⟨js, d, apps, client, server, up, down, -⟩ := link_refines_duplex run
  refine ⟨x, h, run, far, near, js, d, apps, client, server, ?_, ?_⟩
  · exact (up.whole (hcs ▸ Nat.one_ne_zero)).trans hup
  · exact (down.whole (hcs' ▸ Nat.succ_ne_zero 1)).trans hdown

end Yazpp
