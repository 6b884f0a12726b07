import Mathlib.Data.List.Chain
import Mathlib.Data.List.Basic
import Yazpp.Lib.History

/-!
# An outbox — one queue, one connection at a time

A sender holds at most one connection and a queue of messages for it. Opening a connection starts
with an empty queue; a message is accepted at the back; the head is offered to the transport,
which fails, takes a part of it, or takes it whole; a close drops the queue. That is the whole
automaton, and it is the general form of "in order, no gap, nothing twice".

Over any run of it (`Ran`), on a connection that is opened once:

- `Ran.order`: the messages taken whole are a prefix of the messages accepted, in order;
- `Ran.retry`: after a message was taken in part, the next offer is of the same message.

From a close on (`Since`), whatever the connection before it left undone is forgotten: what is
offered was accepted since, on a connection that was opened since.

The types of connections and messages are arbitrary.
-/

set_option autoImplicit false

namespace Yazpp.Lib

/-- What the transport does with an offered message. -/
inductive Offer
  | failed | partly | whole
deriving DecidableEq, Repr

/-- What happens to an outbox. -/
inductive OutEvent (κ β : Type)
  | opened (conn : κ)
  | closed
  | accepted (conn : κ) (msg : β)
  | offered (conn : κ) (msg : β) (offer : Offer)
deriving DecidableEq, Repr

/-- The connection, if any, and the messages not yet taken. -/
structure Outbox (κ β : Type) where
  conn : Option κ := none
  queue : List β := []
deriving DecidableEq, Repr

namespace Outbox

variable {κ β : Type}

/-- One event. Only the open connection accepts, and only the head of the queue is offered. -/
inductive Step : Outbox κ β → OutEvent κ β → Outbox κ β → Prop
  | opened {x : Outbox κ β} (c : κ) : Step x (.opened c) ⟨some c, []⟩
  | closed {x : Outbox κ β} : Step x .closed ⟨none, []⟩
  | accepted (c : κ) (q : List β) (b : β) : Step ⟨some c, q⟩ (.accepted c b) ⟨some c, q ++ [b]⟩
  | failed (c : κ) (q : List β) (b : β) :
      Step ⟨some c, b :: q⟩ (.offered c b .failed) ⟨some c, b :: q⟩
  | partly (c : κ) (q : List β) (b : β) :
      Step ⟨some c, b :: q⟩ (.offered c b .partly) ⟨some c, b :: q⟩
  | whole (c : κ) (q : List β) (b : β) : Step ⟨some c, b :: q⟩ (.offered c b .whole) ⟨some c, q⟩

/-- A list of events in order. -/
inductive Replay : Outbox κ β → List (OutEvent κ β) → Outbox κ β → Prop
  | nil (x : Outbox κ β) : Replay x [] x
  | cons {x y z : Outbox κ β} {e : OutEvent κ β} {es : List (OutEvent κ β)} :
      Step x e y → Replay y es z → Replay x (e :: es) z

/-- A run from the empty outbox, seen from its last event. -/
inductive Ran : List (OutEvent κ β) → Outbox κ β → Prop
  | nil : Ran [] {}
  | snoc {es : List (OutEvent κ β)} {e : OutEvent κ β} {x y : Outbox κ β} :
      Ran es x → Step x e y → Ran (es ++ [e]) y

theorem Ran.replay {es fs : List (OutEvent κ β)} {x y : Outbox κ β} (ran : Ran es x)
    (next : Replay x fs y) : Ran (es ++ fs) y := by
  induction next generalizing es with
  | nil => simpa only [List.append_nil] using ran
  | cons step _ ih => simpa only [List.append_assoc, List.singleton_append] using ih (ran.snoc step)

/-- One event alone. -/
theorem Replay.single {x y : Outbox κ β} {e : OutEvent κ β} (step : Step x e y) :
    Replay x [e] y :=
  .cons step (.nil y)

theorem Replay.append {x y z : Outbox κ β} {es fs : List (OutEvent κ β)} (first : Replay x es y)
    (rest : Replay y fs z) : Replay x (es ++ fs) z := by
  induction first with
  | nil => exact rest
  | cons step _ ih => exact .cons step (ih rest)

/-! ## From a close on -/

/-- What holds of an outbox since it was closed, with the events since: the open connection was
opened, what is queued was accepted for it, and nothing was offered or accepted out of turn. -/
structure Since (es : List (OutEvent κ β)) (x : Outbox κ β) : Prop where
  opened : ∀ c, x.conn = some c → .opened c ∈ es
  queued : ∀ c, x.conn = some c → ∀ b ∈ x.queue, .accepted c b ∈ es
  accepts : ∀ c b, Preceded es (· = .accepted c b) (· = .opened c)
  offers : ∀ c b r, Preceded es (· = .offered c b r) (· = .accepted c b)

/-- A close forgets whatever was before it. -/
theorem since_closed : Since [.closed] (⟨none, []⟩ : Outbox κ β) where
  opened _ h := by cases h
  queued _ h := by cases h
  accepts _ _ := .of_none (List.forall_mem_singleton.mpr nofun)
  offers _ _ _ := .of_none (List.forall_mem_singleton.mpr nofun)

/-- An offer of a queued message that leaves no other message in the queue. -/
theorem Since.offer {es : List (OutEvent κ β)} {x y : Outbox κ β} {c : κ} {b : β} {r : Offer}
    (since : Since es x) (conn : x.conn = some c) (hb : b ∈ x.queue) (same : y.conn = some c)
    (queue : ∀ b' ∈ y.queue, b' ∈ x.queue) : Since (es ++ [.offered c b r]) y where
  opened c' hc := List.mem_append_left _ (since.opened c' (conn.trans (same.symm.trans hc)))
  queued c' hc b' hb' := List.mem_append_left _
    (since.queued c' (conn.trans (same.symm.trans hc)) b' (queue b' hb'))
  accepts c' b' := (since.accepts c' b').snoc nofun
  offers c' b' r' := by
    apply (since.offers c' b' r').snoc
    rintro ⟨⟩
    exact ⟨_, since.queued c conn b hb, rfl⟩

theorem Since.step {es : List (OutEvent κ β)} {x y : Outbox κ β} {e : OutEvent κ β}
    (since : Since es x) (step : Step x e y) : Since (es ++ [e]) y := by
  have kept : ∀ {e' : OutEvent κ β}, e' ∈ es → e' ∈ es ++ [e] := List.mem_append_left _
  cases step with
  | opened c =>
    refine ⟨?_, ?_, ?_, ?_⟩
    · rintro _ ⟨⟩
      exact List.mem_append_right _ (List.mem_singleton_self _)
    · exact fun _ _ _ hb => absurd hb List.not_mem_nil
    · exact fun c' b => (since.accepts c' b).snoc nofun
    · exact fun c' b r => (since.offers c' b r).snoc nofun
  | closed =>
    refine ⟨nofun, nofun, ?_, ?_⟩
    · exact fun c' b => (since.accepts c' b).snoc nofun
    · exact fun c' b r => (since.offers c' b r).snoc nofun
  | accepted c q b =>
    refine ⟨?_, ?_, ?_, ?_⟩
    · exact fun c' hc => kept (since.opened c' hc)
    · rintro _ ⟨⟩ b' hb'
      rcases List.mem_append.mp hb' with hb' | hb'
      · exact kept (since.queued c rfl b' hb')
      · cases List.mem_singleton.mp hb'
        exact List.mem_append_right _ (List.mem_singleton_self _)
    · intro c' b'
      apply (since.accepts c' b').snoc
      rintro ⟨⟩
      exact ⟨_, since.opened c rfl, rfl⟩
    · exact fun c' b' r => (since.offers c' b' r).snoc nofun
  | failed c q b => exact since.offer rfl List.mem_cons_self rfl fun _ hb => hb
  | partly c q b => exact since.offer rfl List.mem_cons_self rfl fun _ hb => hb
  | whole c q b =>
    exact since.offer rfl List.mem_cons_self rfl fun _ hb => List.mem_cons_of_mem _ hb

theorem Since.replay {es fs : List (OutEvent κ β)} {x y : Outbox κ β} (since : Since es x)
    (next : Replay x fs y) : Since (es ++ fs) y := by
  induction next generalizing es with
  | nil => simpa only [List.append_nil] using since
  | cons step _ ih =>
    simpa only [List.append_assoc, List.singleton_append] using ih (since.step step)

/-- A close first, and whatever was there before. -/
theorem Replay.since {es : List (OutEvent κ β)} {x y : Outbox κ β}
    (replay : Replay x (.closed :: es) y) : Since (.closed :: es) y := by
  cases replay with
  | cons step rest =>
    cases step
    exact since_closed.replay rest

/-! ## What a run did on one connection -/

/-- The connections opened. -/
def opens (es : List (OutEvent κ β)) : List κ :=
  es.filterMap fun
    | .opened c => some c
    | _ => none

theorem opens_append (es fs : List (OutEvent κ β)) : opens (es ++ fs) = opens es ++ opens fs :=
  List.filterMap_append

/-- Only `opened` opens. -/
theorem opens_snoc (es : List (OutEvent κ β)) (e : OutEvent κ β) :
    opens (es ++ [e]) = opens es ++ match e with
      | .opened c => [c]
      | _ => [] := by
  rw [opens_append]
  cases e <;> rfl

variable [DecidableEq κ]

/-- The messages accepted for `c`. -/
def accepts (c : κ) (es : List (OutEvent κ β)) : List β :=
  es.filterMap fun
    | .accepted c' b => if c' = c then some b else none
    | _ => none

/-- The offers made on `c`. -/
def offers (c : κ) (es : List (OutEvent κ β)) : List (β × Offer) :=
  es.filterMap fun
    | .offered c' b r => if c' = c then some (b, r) else none
    | _ => none

/-- The messages taken whole on `c`. -/
def taken (c : κ) (es : List (OutEvent κ β)) : List β :=
  ((offers c es).filter fun p => p.2 = .whole).map Prod.fst

theorem accepts_append (c : κ) (es fs : List (OutEvent κ β)) :
    accepts c (es ++ fs) = accepts c es ++ accepts c fs :=
  List.filterMap_append

theorem offers_append (c : κ) (es fs : List (OutEvent κ β)) :
    offers c (es ++ fs) = offers c es ++ offers c fs :=
  List.filterMap_append

/-! ## The invariant -/

/-- Two offers in a row: after a part, the same message. -/
def Retries (p q : β × Offer) : Prop := p.2 = .partly → q.1 = p.1

/-- What a run leaves: the queue of the open connection is what it accepted and did not take, and
a message taken in part is still at its head. -/
structure Kept (es : List (OutEvent κ β)) (x : Outbox κ β) : Prop where
  queue : ∀ c, x.conn = some c → accepts c es = taken c es ++ x.queue
  owned : ∀ c, x.conn = some c → c ∈ opens es
  head : ∀ c b, x.conn = some c → (offers c es).getLast? = some (b, .partly) →
    x.queue.head? = some b
  unopened : ∀ c, c ∉ opens es → accepts c es = [] ∧ offers c es = []
  order : ∀ c, taken c es <+: accepts c es
  retry : ∀ c, (offers c es).IsChain Retries

/-- Only the connection of an `accepted` accepts. -/
theorem accepts_snoc (c : κ) (es : List (OutEvent κ β)) (e : OutEvent κ β) :
    accepts c (es ++ [e]) = accepts c es ++ match e with
      | .accepted c' b => if c' = c then [b] else []
      | _ => [] := by
  rw [accepts_append]
  cases e with
  | accepted c' b => by_cases hc : c' = c <;> simp [accepts, hc]
  | _ => rfl

/-- Only the connection of an `offered` offers. -/
theorem offers_snoc (c : κ) (es : List (OutEvent κ β)) (e : OutEvent κ β) :
    offers c (es ++ [e]) = offers c es ++ match e with
      | .offered c' b r => if c' = c then [(b, r)] else []
      | _ => [] := by
  rw [offers_append]
  cases e with
  | offered c' b r => by_cases hc : c' = c <;> simp [offers, hc]
  | _ => rfl

/-- Only an offer taken whole takes. -/
theorem taken_snoc (c : κ) (es : List (OutEvent κ β)) (e : OutEvent κ β) :
    taken c (es ++ [e]) = taken c es ++ match e with
      | .offered c' b .whole => if c' = c then [b] else []
      | _ => [] := by
  simp only [taken, offers_snoc, List.filter_append, List.map_append]
  congr 1
  cases e with
  | offered c' b r => cases r <;> by_cases hc : c' = c <;> simp [hc]
  | _ => rfl

/-- An offer of the head of the queue is a retry after a part. -/
theorem Kept.offer_retry {es : List (OutEvent κ β)} {c : κ} {q : List β} {b : β}
    (kept : Kept es ⟨some c, b :: q⟩) (r : Offer) : (offers c es ++ [(b, r)]).IsChain Retries := by
  refine (kept.retry c).append (.singleton _) ?_
  rintro ⟨b', r'⟩ hlast p hp hpart
  cases Option.some.inj hp
  subst hpart
  exact Option.some.inj (kept.head c b' rfl hlast)

/-- What an offer that is not taken whole keeps. -/
theorem Kept.offer_kept {es : List (OutEvent κ β)} {c : κ} {q : List β} {b : β}
    (kept : Kept es ⟨some c, b :: q⟩) {r : Offer} (hr : r ≠ .whole) :
    Kept (es ++ [.offered c b r]) ⟨some c, b :: q⟩ := by
  have htaken : ∀ d, taken d (es ++ [.offered c b r]) = taken d es := fun d => by
    cases r <;> simp [taken_snoc] at hr ⊢
  have haccepts : ∀ d, accepts d (es ++ [.offered c b r]) = accepts d es := fun d => by
    simp [accepts_snoc]
  refine ⟨fun d hd => ?_, fun d hd => ?_, fun d b' hd hlast => ?_, fun d hd => ?_, fun d => ?_,
    fun d => ?_⟩
  · rw [htaken, haccepts]
    exact kept.queue d hd
  · simpa [opens_snoc] using kept.owned d hd
  · cases hd
    simp only [offers_snoc, if_true, List.getLast?_append, List.getLast?_singleton,
      Option.some_or, Option.some.injEq, Prod.mk.injEq] at hlast
    exact congrArg some hlast.1
  · have hd' : d ∉ opens es := by simpa [opens_snoc] using hd
    have hne : c ≠ d := fun he => hd' (he ▸ kept.owned c rfl)
    rw [haccepts, offers_snoc]
    simpa [hne] using kept.unopened d hd'
  · rw [htaken, haccepts]
    exact kept.order d
  · rw [offers_snoc]
    by_cases hc : c = d
    · subst hc
      simpa using kept.offer_retry r
    · simpa [hc] using kept.retry d

/-- **One event** keeps the invariant, when it opens no connection a second time. -/
theorem Kept.step {es : List (OutEvent κ β)} {x y : Outbox κ β} {e : OutEvent κ β}
    (kept : Kept es x) (step : Step x e y) (once : (opens (es ++ [e])).Nodup) :
    Kept (es ++ [e]) y := by
  cases step with
  | opened c =>
    have hnew : c ∉ opens es := by
      rw [opens_snoc] at once
      exact fun hmem => (List.nodup_append.mp once).2.2 c hmem c (List.mem_singleton_self c) rfl
    have htaken : taken c es = [] := by simp only [taken, (kept.unopened c hnew).2]; rfl
    obtain ⟨haccepts, hoffers⟩ := kept.unopened c hnew
    refine ⟨fun d hd => ?_, fun d hd => ?_, fun d b hd hlast => ?_, fun d hd => ?_, fun d => ?_,
      fun d => ?_⟩
    · cases hd
      simp [accepts_snoc, taken_snoc, haccepts, htaken]
    · cases hd
      simp [opens_snoc]
    · cases hd
      simp [offers_snoc, hoffers] at hlast
    · have hd' : d ∉ opens es := fun hmem => hd (opens_append es _ ▸ List.mem_append_left _ hmem)
      simpa [accepts_snoc, offers_snoc] using kept.unopened d hd'
    · simpa [accepts_snoc, taken_snoc] using kept.order d
    · simpa [offers_snoc] using kept.retry d
  | closed =>
    refine ⟨nofun, nofun, nofun, fun d hd => ?_, fun d => ?_, fun d => ?_⟩
    · have hd' : d ∉ opens es := by simpa [opens_snoc] using hd
      simpa [accepts_snoc, offers_snoc] using kept.unopened d hd'
    · simpa [accepts_snoc, taken_snoc] using kept.order d
    · simpa [offers_snoc] using kept.retry d
  | accepted c q b =>
    refine ⟨fun d hd => ?_, fun d hd => ?_, fun d b' hd hlast => ?_, fun d hd => ?_, fun d => ?_,
      fun d => ?_⟩
    · cases hd
      simp [accepts_snoc, taken_snoc, kept.queue c rfl]
    · simpa [opens_snoc] using kept.owned d hd
    · have hlast' : (offers d es).getLast? = some (b', .partly) := by
        simpa [offers_snoc] using hlast
      rw [List.head?_append, kept.head d b' hd hlast', Option.some_or]
    · have hd' : d ∉ opens es := by simpa [opens_snoc] using hd
      have hne : c ≠ d := fun he => hd' (he ▸ kept.owned c rfl)
      simpa [accepts_snoc, offers_snoc, hne] using kept.unopened d hd'
    · have longer := (kept.order d).trans (List.prefix_append (accepts d es)
        (if c = d then [b] else []))
      simpa [accepts_snoc, taken_snoc] using longer
    · simpa [offers_snoc] using kept.retry d
  | failed c q b => exact kept.offer_kept nofun
  | partly c q b => exact kept.offer_kept nofun
  | whole c q b =>
    have hqueue := kept.queue c rfl
    refine ⟨fun d hd => ?_, fun d hd => ?_, fun d b' hd hlast => ?_, fun d hd => ?_, fun d => ?_,
      fun d => ?_⟩
    · cases hd
      simp [accepts_snoc, taken_snoc, hqueue]
    · simpa [opens_snoc] using kept.owned d hd
    · cases hd
      simp [offers_snoc] at hlast
    · have hd' : d ∉ opens es := by simpa [opens_snoc] using hd
      have hne : c ≠ d := fun he => hd' (he ▸ kept.owned c rfl)
      simpa [accepts_snoc, offers_snoc, hne] using kept.unopened d hd'
    · by_cases hc : c = d
      · subst hc
        simp only [accepts_snoc, taken_snoc, if_true, List.append_nil, hqueue]
        exact ⟨q, by simp⟩
      · simpa [accepts_snoc, taken_snoc, hc] using kept.order d
    · rw [offers_snoc]
      by_cases hc : c = d
      · subst hc
        simpa using kept.offer_retry .whole
      · simpa [hc] using kept.retry d

/-- **The invariant of a run** that opens no connection twice. -/
theorem Ran.kept {es : List (OutEvent κ β)} {x : Outbox κ β} (ran : Ran es x)
    (once : (opens es).Nodup) : Kept es x := by
  induction ran with
  | nil =>
    exact ⟨nofun, nofun, nofun, fun _ _ => ⟨rfl, rfl⟩, fun _ => List.prefix_refl _,
      fun _ => .nil⟩
  | snoc _ step ih =>
    have before := (List.nodup_append.mp (opens_append _ _ ▸ once)).1
    exact (ih before).step step once

/-- Taken in order, with no gap and nothing twice. -/
theorem Ran.order {es : List (OutEvent κ β)} {x : Outbox κ β} (ran : Ran es x)
    (once : (opens es).Nodup) (c : κ) : taken c es <+: accepts c es :=
  (ran.kept once).order c

/-- Without a connection, and with none opened, nothing happens. -/
theorem Replay.closed {es : List (OutEvent κ β)} {x y : Outbox κ β} (replay : Replay x es y)
    (conn : x.conn = none) (unopened : opens es = []) (c : κ) :
    y.conn = none ∧ accepts c es = [] ∧ offers c es = [] := by
  induction replay with
  | nil => exact ⟨conn, rfl, rfl⟩
  | cons step _ ih =>
    cases step with
    | opened => cases unopened
    | closed => exact ih rfl unopened
    | _ => cases conn

/-- **On one connection**: what was queued and what is accepted has been taken or is queued, unless
the connection was closed; then some of it is gone, and what was taken came first. -/
theorem Replay.kept {es : List (OutEvent κ β)} {x y : Outbox κ β} (replay : Replay x es y) {c : κ}
    (conn : x.conn = some c) (unopened : opens es = []) :
    (y.conn = some c ∧ x.queue ++ accepts c es = taken c es ++ y.queue) ∨
      (y.conn = none ∧ taken c es <+: x.queue ++ accepts c es) := by
  induction replay with
  | nil => exact .inl ⟨conn, by simp [accepts, taken, offers]⟩
  | @cons x y z e es step rest ih =>
    cases step with
    | opened => cases unopened
    | closed =>
      obtain ⟨closed, -, hoffers⟩ := rest.closed rfl unopened c
      refine .inr ⟨closed, ?_⟩
      have htaken : taken c (.closed :: es) = [] := by
        show taken c es = []
        rw [taken, hoffers]
        rfl
      rw [htaken]
      exact List.nil_prefix
    | accepted c' q b =>
      cases conn
      have haccepts : q ++ accepts c (.accepted c b :: es) = q ++ [b] ++ accepts c es := by
        simp [accepts]
      rw [haccepts]
      exact ih rfl unopened
    | failed c' q b =>
      cases conn
      have htaken : taken c (.offered c b .failed :: es) = taken c es := by simp [taken, offers]
      rw [htaken]
      exact ih rfl unopened
    | partly c' q b =>
      cases conn
      have htaken : taken c (.offered c b .partly :: es) = taken c es := by simp [taken, offers]
      rw [htaken]
      exact ih rfl unopened
    | whole c' q b =>
      cases conn
      have htaken : taken c (.offered c b .whole :: es) = b :: taken c es := by
        simp [taken, offers]
      have haccepts : accepts c (.offered c b .whole :: es) = accepts c es := rfl
      rw [htaken, haccepts]
      rcases ih rfl unopened with ⟨same, books⟩ | ⟨closed, first⟩
      · exact .inl ⟨same, congrArg (b :: ·) books⟩
      · exact .inr ⟨closed, List.cons_prefix_cons.mpr ⟨rfl, first⟩⟩

/-- After a part, the same message. -/
theorem Ran.retry {es : List (OutEvent κ β)} {x : Outbox κ β} (ran : Ran es x)
    (once : (opens es).Nodup) (c : κ) : (offers c es).IsChain Retries :=
  (ran.kept once).retry c

end Outbox

end Yazpp.Lib
