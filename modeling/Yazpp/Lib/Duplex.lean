import Yazpp.Lib.Machine

/-!
# Two machines and the channels between them

A client and a server that are joined by two channels which keep what is on the way in order. The
client also reads inputs of its own. A step is the client's, with such an input or with the next
message of its channel, or the server's, with the next message of its own; any interleaving is a
run.

Neither machine sees the interleaving: over any run each of them executes what it has read
(`Views.client`, `Views.server`), and what one has put out is what the other has read and what is on
the way (`Views.up`, `Views.down`).
-/

set_option autoImplicit false

namespace Yazpp.Lib

/-- The two states, and what is on the way to the server (`up`) and to the client (`down`). -/
structure Duplex (σ τ μ ν : Type) where
  client : σ
  server : τ
  up : List μ := []
  down : List ν := []

/-- Whose step it is. -/
inductive DuplexInput (ι : Type)
  | user (i : ι)
  | serve
  | deliver
deriving DecidableEq, Repr

/-- A step: what was read, and what it made the machine put out. -/
inductive DuplexEvent (ι μ ν ο π : Type)
  | user (i : ι) (os : List ο)
  | served (msg : μ) (ps : List π)
  | delivered (msg : ν) (os : List ο)
deriving DecidableEq, Repr

section

variable {σ τ μ ν ι ο π : Type}

/-- The client `m` and the server `n`; `send` and `reply` are the messages among their outputs. -/
def duplex (m : Machine σ (ι ⊕ ν) ο) (n : Machine τ μ π) (send : ο → Option μ)
    (reply : π → Option ν) : Machine (Duplex σ τ μ ν) (DuplexInput ι) (DuplexEvent ι μ ν ο π) where
  step x i :=
    match i with
    | .user i => (m.step x.client (.inl i)).map fun next =>
        ({ x with client := next.1, up := x.up ++ next.2.filterMap send }, [.user i next.2])
    | .serve =>
      match x.up with
      | [] => none
      | msg :: up => (n.step x.server msg).map fun next =>
          ({ x with server := next.1, up := up, down := x.down ++ next.2.filterMap reply },
            [.served msg next.2])
    | .deliver =>
      match x.down with
      | [] => none
      | msg :: down => (m.step x.client (.inr msg)).map fun next =>
          ({ x with client := next.1, up := x.up ++ next.2.filterMap send, down := down },
            [.delivered msg next.2])

/-- A machine without inputs of its own. -/
def Machine.served (n : Machine τ μ π) : Machine τ (Empty ⊕ μ) π where
  step s i :=
    match i with
    | .inl i => nomatch i
    | .inr msg => n.step s msg

namespace DuplexEvent

/-- What the client reads in a step. -/
def clientInput : DuplexEvent ι μ ν ο π → List (ι ⊕ ν)
  | .user i _ => [.inl i]
  | .served _ _ => []
  | .delivered msg _ => [.inr msg]

/-- What the client puts out. -/
def clientOutput : DuplexEvent ι μ ν ο π → List ο
  | .user _ os | .delivered _ os => os
  | .served _ _ => []

/-- What the server reads. -/
def serverInput : DuplexEvent ι μ ν ο π → List μ
  | .served msg _ => [msg]
  | .user _ _ | .delivered _ _ => []

/-- What the server puts out. -/
def serverOutput : DuplexEvent ι μ ν ο π → List π
  | .served _ ps => ps
  | .user _ _ | .delivered _ _ => []

/-- What is delivered to the client. -/
def arrived : DuplexEvent ι μ ν ο π → List ν
  | .delivered msg _ => [msg]
  | .user _ _ | .served _ _ => []

end DuplexEvent

/-- The messages that were delivered to the client, in order. -/
def arrivals (h : List (DuplexEvent ι μ ν ο π)) : List ν := h.flatMap DuplexEvent.arrived

/-- The messages that the server has read, in order. -/
def heardBy (h : List (DuplexEvent ι μ ν ο π)) : List μ := h.flatMap DuplexEvent.serverInput

/-- The two machines as they started, with nothing on the way. -/
structure Duplex.Start (client : σ → Prop) (server : τ → Prop) (x : Duplex σ τ μ ν)
    (h : List (DuplexEvent ι μ ν ο π)) : Prop where
  client : client x.client
  server : server x.server
  up : x.up = []
  down : x.down = []
  history : h = []

/-- **What each side sees of a run**, from the states `s` and `t` on. -/
structure Views (m : Machine σ (ι ⊕ ν) ο) (n : Machine τ μ π) (send : ο → Option μ)
    (reply : π → Option ν) (s : σ) (t : τ) (x : Duplex σ τ μ ν)
    (h : List (DuplexEvent ι μ ν ο π)) : Prop where
  client : m.exec s (h.flatMap DuplexEvent.clientInput) =
    some (x.client, h.flatMap DuplexEvent.clientOutput)
  server : n.exec t (heardBy h) = some (x.server, h.flatMap DuplexEvent.serverOutput)
  up : (h.flatMap DuplexEvent.clientOutput).filterMap send = heardBy h ++ x.up
  down : (h.flatMap DuplexEvent.serverOutput).filterMap reply = arrivals h ++ x.down

/-- What arrives is what the client reads that is not its own. -/
theorem arrivals_eq (h : List (DuplexEvent ι μ ν ο π)) :
    arrivals h = (h.flatMap DuplexEvent.clientInput).filterMap Sum.getRight? := by
  induction h with
  | nil => rfl
  | cons e h ih =>
    rw [arrivals, List.flatMap_cons, List.flatMap_cons, List.filterMap_append, ← ih, ← arrivals]
    cases e <;> rfl

variable {m : Machine σ (ι ⊕ ν) ο} {n : Machine τ μ π} {send : ο → Option μ}
  {reply : π → Option ν} {s : σ} {t : τ}

theorem views_step {x x' : Duplex σ τ μ ν} {h o : List (DuplexEvent ι μ ν ο π)} {i : DuplexInput ι}
    (views : Views m n send reply s t x h)
    (hstep : (duplex m n send reply).step x i = some (x', o)) :
    Views m n send reply s t x' (h ++ o) := by
  obtain ⟨client, server, up, down⟩ := views
  cases i with
  | user i =>
    obtain ⟨⟨c, os⟩, hc, heq⟩ := Option.map_eq_some_iff.mp hstep
    cases heq
    constructor
    · simpa [DuplexEvent.clientInput, DuplexEvent.clientOutput] using Machine.exec_snoc client hc
    · simpa [heardBy, DuplexEvent.serverInput, DuplexEvent.serverOutput] using server
    · simp [heardBy, DuplexEvent.serverInput, DuplexEvent.clientOutput, up, ← List.append_assoc]
    · simp [arrivals, DuplexEvent.arrived, DuplexEvent.serverOutput, down]
  | serve =>
    simp only [duplex] at hstep
    split at hstep
    · cases hstep
    · next msg rest hup =>
      obtain ⟨⟨c, ps⟩, hc, heq⟩ := Option.map_eq_some_iff.mp hstep
      cases heq
      constructor
      · simpa [DuplexEvent.clientInput, DuplexEvent.clientOutput] using client
      · simpa [heardBy, DuplexEvent.serverInput, DuplexEvent.serverOutput] using
          Machine.exec_snoc server hc
      · simp [heardBy, DuplexEvent.serverInput, DuplexEvent.clientOutput, up, hup]
      · simp [arrivals, DuplexEvent.arrived, DuplexEvent.serverOutput, down, ← List.append_assoc]
  | deliver =>
    simp only [duplex] at hstep
    split at hstep
    · cases hstep
    · next msg rest hdown =>
      obtain ⟨⟨c, os⟩, hc, heq⟩ := Option.map_eq_some_iff.mp hstep
      cases heq
      constructor
      · simpa [DuplexEvent.clientInput, DuplexEvent.clientOutput] using Machine.exec_snoc client hc
      · simpa [heardBy, DuplexEvent.serverInput, DuplexEvent.serverOutput] using server
      · simp [heardBy, DuplexEvent.serverInput, DuplexEvent.clientOutput, up, ← List.append_assoc]
      · simp [arrivals, DuplexEvent.arrived, DuplexEvent.serverOutput, down, hdown]

/-! ## Several steps of one side -/

/-- The step in which the client reads this. -/
def DuplexInput.ofClient : ι ⊕ ν → DuplexInput ι
  | .inl i => .user i
  | .inr _ => .deliver

/-- The event of that step. -/
def DuplexEvent.ofClient (entry : (ι ⊕ ν) × List ο) : DuplexEvent ι μ ν ο π :=
  match entry.1 with
  | .inl i => .user i entry.2
  | .inr msg => .delivered msg entry.2

/-- The event of a step of the server. -/
def DuplexEvent.ofServer (entry : (Empty ⊕ μ) × List π) : DuplexEvent ι μ ν ο π :=
  match entry.1 with
  | .inl i => nomatch i
  | .inr msg => .served msg entry.2

/-- What the client reads on its own, it reads from its channel. -/
theorem exec_ofClient {x : Duplex σ τ μ ν} {is : List (ι ⊕ ν)} {c : σ}
    {log : List ((ι ⊕ ν) × List ο)} {down : List ν}
    (run : m.logged.exec x.client is = some (c, log))
    (arrived : x.down = is.filterMap Sum.getRight? ++ down) :
    (duplex m n send reply).exec x (is.map .ofClient) =
      some ({ x with
        client := c
        up := x.up ++ (log.flatMap Prod.snd).filterMap send
        down := down }, log.map .ofClient) := by
  induction is generalizing x log with
  | nil =>
    cases run
    obtain ⟨client, server, up, rest⟩ := x
    cases arrived
    simp [Machine.exec]
  | cons i is ih =>
    obtain ⟨s₁, o₁, log', hlogged, hrest, rfl⟩ := Machine.exec_cons.mp run
    obtain ⟨os, hstep, rfl⟩ := Machine.logged_step.mp hlogged
    have first : (duplex m n send reply).step x (.ofClient i) =
        some ({ x with
          client := s₁
          up := x.up ++ os.filterMap send
          down := is.filterMap Sum.getRight? ++ down }, [.ofClient (i, os)]) := by
      cases i with
      | inl i =>
        simp only [List.filterMap_cons, Sum.getRight?] at arrived
        simp only [duplex, DuplexInput.ofClient, DuplexEvent.ofClient, hstep, Option.map_some,
          ← arrived]
      | inr msg =>
        simp only [List.filterMap_cons, Sum.getRight?, List.cons_append] at arrived
        simp only [duplex, DuplexInput.ofClient, DuplexEvent.ofClient, arrived, hstep,
          Option.map_some]
    have rest := ih (x := { x with
      client := s₁
      up := x.up ++ os.filterMap send
      down := is.filterMap Sum.getRight? ++ down }) hrest rfl
    refine Machine.exec_cons.mpr ⟨_, _, _, first, rest.trans ?_, rfl⟩
    simp

/-- What the server reads on its own, it reads from its channel. -/
theorem exec_ofServer {x : Duplex σ τ μ ν} {is : List (Empty ⊕ μ)} {t : τ}
    {log : List ((Empty ⊕ μ) × List π)} {up : List μ}
    (run : n.served.logged.exec x.server is = some (t, log))
    (arrived : x.up = is.filterMap Sum.getRight? ++ up) :
    (duplex m n send reply).exec x (is.map fun _ => .serve) =
      some ({ x with
        server := t
        up := up
        down := x.down ++ (log.flatMap Prod.snd).filterMap reply }, log.map .ofServer) := by
  induction is generalizing x log with
  | nil =>
    cases run
    obtain ⟨client, server, rest, down⟩ := x
    cases arrived
    simp [Machine.exec]
  | cons i is ih =>
    obtain ⟨s₁, o₁, log', hlogged, hrest, rfl⟩ := Machine.exec_cons.mp run
    obtain ⟨ps, hstep, rfl⟩ := Machine.logged_step.mp hlogged
    cases i with
    | inl i => cases i
    | inr msg =>
      simp only [List.filterMap_cons, Sum.getRight?, List.cons_append] at arrived
      have hstep' : n.step x.server msg = some (s₁, ps) := hstep
      have first : (duplex m n send reply).step x .serve =
          some ({ x with
            server := s₁
            up := is.filterMap Sum.getRight? ++ up
            down := x.down ++ ps.filterMap reply }, [.ofServer (.inr msg, ps)]) := by
        simp only [duplex, DuplexEvent.ofServer, arrived, hstep', Option.map_some]
      have rest := ih (x := { x with
        server := s₁
        up := is.filterMap Sum.getRight? ++ up
        down := x.down ++ ps.filterMap reply }) hrest rfl
      refine Machine.exec_cons.mpr ⟨_, _, _, first, rest.trans ?_, rfl⟩
      simp

/-- **Over any interleaving** each side executes what it has read, and the channels lose nothing,
double nothing and keep the order. -/
theorem duplex_views {cs : σ → Prop} {ss : τ → Prop} {is : List (DuplexInput ι)}
    {x : Duplex σ τ μ ν} {h : List (DuplexEvent ι μ ν ο π)}
    (run : (duplex m n send reply).Run (Duplex.Start cs ss) is x h) :
    ∃ s t, cs s ∧ ss t ∧ Views m n send reply s t x h := by
  induction run with
  | @start x h hs =>
    refine ⟨x.client, x.server, hs.client, hs.server, ?_⟩
    rw [hs.history]
    exact ⟨rfl, rfl, hs.up.symm, hs.down.symm⟩
  | step _ hstep ih =>
    obtain ⟨s, t, hs, ht, views⟩ := ih
    exact ⟨s, t, hs, ht, views_step views hstep⟩

end

end Yazpp.Lib
