import Yazpp.Lib.Forest
import Yazpp.Net.Spec
import Yazpp.PduAssoc.Kin

/-!
# Parents and children in a program

The associations of a program are a forest (`Net.forest`). A function that links or deletes changes
its own association at once and the others through the agenda, so that the lists are not exact while
there is something on it; what they are to be is read off the agenda (`Net.settled`). The next call
of the agenda does what was read off (`settled_route`), and what a function of an association does
to the settled forest is one of the operations of an owner (`Grows`). So the child lists are exact
whenever the agenda is empty (`linked_run`), provided a `sessionNotify` returns no observer of a
session that it has deleted.
-/

set_option autoImplicit false

namespace Yazpp

open Yazpp.Lib

namespace Net

/-- Who knows whom. -/
def forest (n : Net) : Forest AssocId where
  known x := (n.assocs x).isSome
  alive x := (n.assocs x).any fun s => s.kin.alive
  parent x := (n.assocs x).bind fun s => s.kin.parent
  children x := (n.assocs x).elim [] fun s => s.kin.children
  pending x := (n.assocs x).elim [] fun s => s.kin.sessions

/-- What a call on the agenda does to the forest when its turn comes. -/
def link (f : Forest AssocId) : AssocId × Call → Forest AssocId
  | (_, .newChild c _ _ _) => f.make c
  | (p, .setChildParent c) => f.setParent c p
  | (x, .unlinkFrom q) => f.unlink q x
  | (_, .deleteChild c) => f.kill c
  | _ => f

/-- The forest when the agenda is empty. -/
def settled (n : Net) : Forest AssocId := n.agenda.foldl link n.forest

/-- One association in a forest. -/
def put (x : AssocId) (k : Kin) (f : Forest AssocId) : Forest AssocId where
  known := Function.update f.known x true
  alive := Function.update f.alive x k.alive
  parent := Function.update f.parent x k.parent
  children := Function.update f.children x k.children
  pending := Function.update f.pending x k.sessions

theorem settled_idle {n : Net} (idle : n.agenda = []) : n.settled = n.forest := by
  rw [settled, idle, List.foldl_nil]

theorem forest_congr {n n' : Net} (same : n'.assocs = n.assocs) : n'.forest = n.forest := by
  rw [forest, forest, same]

theorem forest_update {n n' : Net} {x : AssocId} {s : Sys}
    (assocs : n'.assocs = update n.assocs x s) : n'.forest = put x s.kin n.forest := by
  simp only [forest, put, assocs, update, Forest.mk.injEq]
  refine ⟨?_, ?_, ?_, ?_, ?_⟩ <;> funext y <;> by_cases hy : y = x <;> simp [hy]

/-- What is known of an association. -/
theorem forest_at {n : Net} {x : AssocId} {s : Sys} (hs : n.assocs x = some s) :
    n.forest.known x = true ∧ n.forest.alive x = s.kin.alive ∧ n.forest.parent x = s.kin.parent ∧
      n.forest.children x = s.kin.children ∧ n.forest.pending x = s.kin.sessions := by
  simp only [forest, hs, Option.isSome_some, Option.any_some, Option.bind_some, Option.elim_some,
    and_self]

theorem put_at {n : Net} {x : AssocId} {s : Sys} (hs : n.assocs x = some s) (k : Kin) :
    put x k n.forest =
      { n.forest with
        alive := Function.update n.forest.alive x k.alive
        parent := Function.update n.forest.parent x k.parent
        children := Function.update n.forest.children x k.children
        pending := Function.update n.forest.pending x k.sessions } := by
  have known : Function.update n.forest.known x true = n.forest.known := by
    rw [← (forest_at hs).1, Function.update_eq_self]
  rw [put, known]

/-- An association whose kin are as they were. -/
theorem put_self {n : Net} {x : AssocId} {s : Sys} (hs : n.assocs x = some s) :
    put x s.kin n.forest = n.forest := by
  obtain ⟨-, alive, parent, children, pending⟩ := forest_at hs
  rw [put_at hs, ← alive, ← parent, ← children, ← pending]
  simp only [Function.update_eq_self]

/-! ## The agenda -/

theorem link_apart {c : Call} (apart : c.links = false) (f : Forest AssocId) (x : AssocId) :
    link f (x, c) = f := by
  cases c <;> first | rfl | cases apart

/-- Only the calls that link or delete count. -/
theorem foldl_linking (x : AssocId) (calls : List Call) (f : Forest AssocId) :
    (calls.map (Prod.mk x)).foldl link f = ((linking calls).map (Prod.mk x)).foldl link f := by
  induction calls generalizing f with
  | nil => rfl
  | cons c calls ih =>
    rw [List.map_cons, List.foldl_cons, ih]
    cases hc : c.links with
    | false =>
      have apart : linking (c :: calls) = linking calls := List.filter_cons_of_neg (by simp [hc])
      rw [link_apart hc, apart]
    | true =>
      have links : linking (c :: calls) = c :: linking calls := List.filter_cons_of_pos hc
      rw [links, List.map_cons, List.foldl_cons]

/-- What an association that has acted makes of the forest. -/
theorem settled_act {n n' : Net} {x : AssocId} {s' : Sys} {calls : List Call}
    (assocs : n'.assocs = update n.assocs x s')
    (agenda : n'.agenda = calls.map (Prod.mk x) ++ n.agenda) :
    n'.settled = n.agenda.foldl link
      (((linking calls).map (Prod.mk x)).foldl link (put x s'.kin n.forest)) := by
  rw [settled, agenda, List.foldl_append, forest_update assocs, foldl_linking]

/-- What code does that cannot tell whether the association is there. -/
theorem tell_cases (n : Net) (x : AssocId) {j : Input} (hj : ∀ ans, j ≠ .ret ans) :
    (∃ s s' calls, n.assocs x = some s ∧ s.alive = true ∧ pdu.step s j = some (s', calls) ∧
      (n.tell x j).1.assocs = update n.assocs x s' ∧
      (n.tell x j).1.agenda = calls.map (Prod.mk x) ++ n.agenda ∧
      (n.tell x j).2 = calls.map (.assoc x)) ∨
    n.forest.alive x = false ∧ n.tell x j = (n, [.dangling x]) := by
  rcases tell_eq n x j with h | ⟨hact, h⟩
  · obtain ⟨s, s', calls, hs, hstep, assocs, -, agenda, ho⟩ := act_eq h
    exact .inl ⟨s, s', calls, hs, alive_of_step hj hstep, hstep, assocs, agenda, ho⟩
  · refine .inr ⟨?_, h⟩
    cases hs : n.assocs x with
    | none => simp only [forest, hs, Option.any_none]
    | some s =>
      cases halive : s.alive with
      | false =>
        rw [(forest_at hs).2.1]
        exact halive
      | true =>
        simp only [act, hs, step_call halive hj] at hact
        cases hact

/-- A call that makes none that links or deletes. -/
theorem settled_tell (n : Net) (x : AssocId) {j : Input} (hj : ∀ ans, j ≠ .ret ans)
    (apart : ∀ s s' o, pdu.step s j = some (s', o) → linking o = []) :
    (n.tell x j).1.settled = n.agenda.foldl link (n.tell x j).1.forest := by
  rcases tell_cases n x hj with ⟨s, s', calls, -, -, hstep, -, agenda, -⟩ | ⟨-, h⟩
  · rw [settled, agenda, List.foldl_append, foldl_linking, apart s s' calls hstep]
    rfl
  · rw [h]
    rfl

/-- A call that does `op` to the forest, and nothing where nobody is alive. -/
theorem forest_tell {n : Net} {x : AssocId} {j : Input} (op : Forest AssocId → Forest AssocId)
    (hj : ∀ ans, j ≠ .ret ans)
    (live : ∀ s s' o, n.assocs x = some s → s.alive = true → pdu.step s j = some (s', o) →
      put x s'.kin n.forest = op n.forest)
    (dead : n.forest.alive x = false → op n.forest = n.forest) :
    (n.tell x j).1.forest = op n.forest := by
  rcases tell_cases n x hj with ⟨s, s', calls, hs, halive, hstep, assocs, -, -⟩ | ⟨hdead, h⟩
  · rw [forest_update assocs, live s s' calls hs halive hstep]
  · rw [h, dead hdead]

/-- `shutdown`, and the assignment of the observer, are nothing to the kin. -/
theorem kin_apart {s s' : Sys} {j : Input} {o : List Call}
    (hj : j = .shutdown ∨ ∃ observer, j = .setObserver observer)
    (step : pdu.step s j = some (s', o)) : s'.kin = s.kin ∧ linking o = [] := by
  have notKin : j.fromKin = false := by rcases hj with rfl | ⟨observer, rfl⟩ <;> rfl
  have related := kin_step notKin step
  generalize s'.kin = k at related
  generalize linking o = calls at related
  rcases hj with rfl | ⟨observer, rfl⟩ <;> cases related <;> exact ⟨rfl, rfl⟩

theorem forest_apart (n : Net) (x : AssocId) {j : Input}
    (hj : j = .shutdown ∨ ∃ observer, j = .setObserver observer) :
    (n.tell x j).1.forest = n.forest := by
  refine forest_tell id ?_ ?_ fun _ => rfl
  · rintro ans rfl
    rcases hj with h | ⟨observer, h⟩ <;> cases h
  · intro s s' o hs _ hstep
    rw [(kin_apart hj hstep).1]
    exact put_self hs

theorem forest_delete (n : Net) (x : AssocId) :
    (n.tell x .delete).1.forest = n.forest.kill x := by
  refine forest_tell (fun f => f.kill x) (fun _ => nofun) ?_ Forest.kill_dead
  intro s s' o hs _ hstep
  obtain ⟨-, -, parent, children, pending⟩ := forest_at hs
  rw [(kin_fromKin rfl hstep).2, put_at hs, ← parent, ← children, ← pending]
  simp only [Function.update_eq_self, Forest.kill]

theorem forest_setParent (n : Net) (x p : AssocId) :
    (n.tell x (.setParent (some p))).1.forest = n.forest.setParent x p := by
  refine forest_tell (fun f => f.setParent x p) (fun _ h => by cases h) ?_ ?_
  · intro s s' o hs halive hstep
    obtain ⟨-, alive, -, children, pending⟩ := forest_at hs
    have halive' : n.forest.alive x = true := alive.trans halive
    rw [(kin_fromKin rfl hstep).2, put_at hs, ← alive, ← children, ← pending]
    rw [Forest.setParent, if_pos halive']
    simp only [Function.update_eq_self]
  · intro hdead
    rw [Forest.setParent, if_neg (by rw [hdead]; exact Bool.false_ne_true)]

theorem forest_unlink (n : Net) (x c : AssocId) :
    (n.tell x (.unlink c)).1.forest = n.forest.unlink x c := by
  refine forest_tell (fun f => f.unlink x c) (fun _ h => by cases h) ?_ ?_
  · intro s s' o hs halive hstep
    obtain ⟨-, alive, parent, children, pending⟩ := forest_at hs
    have halive' : n.forest.alive x = true := alive.trans halive
    rw [(kin_fromKin rfl hstep).2, put_at hs, ← alive, ← parent, ← children, ← pending]
    rw [Forest.unlink, if_pos halive']
    simp only [Function.update_eq_self]
  · intro hdead
    rw [Forest.unlink, if_neg (by rw [hdead]; exact Bool.false_ne_true)]

/-- A new association, which has no kin yet. -/
theorem settled_born {n n' : Net} {c : AssocId} {s : Sys} {calls : List Call} {o : List NetCall}
    (kin : s.kin = {}) (apart : linking calls = []) (h : n.born c s calls = some (n', o)) :
    n.forest.known c = false ∧ n'.settled = n.agenda.foldl link (n.forest.make c) := by
  unfold born at h
  split at h
  · cases h
  next hnone =>
    obtain ⟨rfl, rfl⟩ := Prod.mk.inj (Option.some.inj h)
    have fresh : n.forest.known c = false := by
      simp only [forest, hnone, Option.isSome_none]
    refine ⟨fresh, ?_⟩
    rw [settled_act rfl rfl, kin, apart, Forest.make, fresh, if_neg Bool.false_ne_true]
    rfl

/-- A session that is made. -/
theorem settled_accepted {n n' : Net} {c : AssocId} {cs : Comstack} {pending : IoPending}
    {fileno : Int} {o : List NetCall}
    (h : n.born c (({} : Sys).perform (PduAssoc.accepted cs pending fileno)).1
      (PduAssoc.accepted cs pending fileno).calls = some (n', o)) :
    n.forest.known c = false ∧ n'.settled = n.agenda.foldl link (n.forest.make c) := by
  have apart := PduAssoc.apart_accepted cs pending fileno
  exact settled_born (kin_perform (s := {}) apart []) apart.calls h

/-- **The next call of the agenda** does what was read off the agenda. -/
theorem settled_route {n n' : Net} {o : List NetCall} (step : net.step n .route = some (n', o)) :
    n'.settled = n.settled := by
  cases hagenda : n.agenda with
  | nil =>
    have refused : n.step .route = none := by simp only [Net.step, hagenda]
    cases refused.symm.trans step
  | cons p agenda =>
    obtain ⟨x, c⟩ := p
    have routed : ({ n with agenda := agenda } : Net).route x c = some (n', o) := by
      rw [← step]
      show _ = n.step .route
      simp only [Net.step, hagenda]
    have was : n.settled = agenda.foldl link (link n.forest (x, c)) := by
      rw [settled, hagenda, List.foldl_cons]
    rw [was]
    have apart : ∀ {y : AssocId} {j : Input},
        (j = .shutdown ∨ ∃ observer, j = .setObserver observer) →
        (({ n with agenda := agenda } : Net).tell y j).1.settled = agenda.foldl link n.forest := by
      intro y j hj
      have other : ∀ ans, j ≠ .ret ans := by
        rintro ans rfl
        rcases hj with h | ⟨observer, h⟩ <;> cases h
      rw [settled_tell _ y other fun _ _ _ h => (kin_apart hj h).2, forest_apart _ y hj]
      rfl
    have fromKin : ∀ {y : AssocId} {j : Input} {f : Forest AssocId}, j.fromKin = true →
        (({ n with agenda := agenda } : Net).tell y j).1.forest = f →
        (({ n with agenda := agenda } : Net).tell y j).1.settled = agenda.foldl link f := by
      rintro y j f hj rfl
      have other : ∀ ans, j ≠ .ret ans := by
        rintro ans rfl
        cases hj
      exact settled_tell _ y other fun _ _ _ h => (kin_fromKin hj h).1
    cases c with
    | newChild child cs pending fileno => exact (settled_accepted routed).2
    | setChildObserver child observer =>
      obtain ⟨rfl, rfl⟩ := Prod.mk.inj (Option.some.inj routed)
      exact apart (.inr ⟨observer, rfl⟩)
    | shutdownChild child =>
      obtain ⟨rfl, rfl⟩ := Prod.mk.inj (Option.some.inj routed)
      exact apart (.inl rfl)
    | setChildParent child =>
      obtain ⟨rfl, rfl⟩ := Prod.mk.inj (Option.some.inj routed)
      exact fromKin rfl (forest_setParent _ child x)
    | deleteChild child =>
      obtain ⟨rfl, rfl⟩ := Prod.mk.inj (Option.some.inj routed)
      exact fromKin rfl (forest_delete _ child)
    | unlinkFrom parent =>
      obtain ⟨rfl, rfl⟩ := Prod.mk.inj (Option.some.inj routed)
      exact fromKin rfl (forest_unlink _ parent x)
    | _ =>
      cases routed
      rfl

/-! ## What a function does -/

/-- An association that is buried. -/
theorem put_destroyed {n : Net} {x : AssocId} {s s' : Sys} (hs : n.assocs x = some s)
    (kin : s'.kin = { s.kin with alive := false, children := [] }) :
    put x s'.kin n.forest = n.forest.bury x := by
  obtain ⟨-, -, parent, -, pending⟩ := forest_at hs
  rw [put_at hs, kin, ← parent, ← pending]
  simp only [Function.update_eq_self, Forest.bury]

/-- `destroy()` of a live association. -/
theorem settled_destroyed {n n' : Net} (idle : n.agenda = []) {x : AssocId} {s s' : Sys}
    {calls : List Call} (hs : n.assocs x = some s)
    (kin : s'.kin = { s.kin with alive := false, children := [] })
    (links : linking calls =
      (s.kin.parent.map Call.unlinkFrom).toList ++ s.kin.children.map .deleteChild)
    (assocs : n'.assocs = update n.assocs x s')
    (agenda : n'.agenda = calls.map (Prod.mk x) ++ n.agenda) :
    n'.settled = n.forest.destroy x := by
  obtain ⟨-, -, parent, children, -⟩ := forest_at hs
  have kills : ∀ (cs : List AssocId) (f : Forest AssocId),
      ((cs.map Call.deleteChild).map (Prod.mk x)).foldl link f = f.kills cs := by
    intro cs
    induction cs with
    | nil => exact fun f => rfl
    | cons c cs ih => exact fun f => ih (f.kill c)
  rw [settled_act assocs agenda, idle, List.foldl_nil, links, put_destroyed hs kin, List.map_append,
    List.foldl_append, kills, Forest.destroy, parent, children]
  cases s.kin.parent <;> rfl

/-- `~Z_Assoc_priv` of a live association: at once, and when everything is done. -/
theorem forest_destroy {n : Net} {x : AssocId} (hx : n.forest.alive x = true) :
    (n.tell x .destroy).1.forest = n.forest.bury x ∧
      (n.agenda = [] → (n.tell x .destroy).1.settled = n.forest.destroy x) := by
  rcases tell_cases n x (j := .destroy) (fun _ => nofun) with
    ⟨s, s', calls, hs, halive, hstep, assocs, agenda, -⟩ | ⟨hdead, -⟩
  · obtain ⟨kin, links⟩ : s'.kin = { s.kin with alive := false, children := [] } ∧
        linking calls =
          (s.kin.parent.map Call.unlinkFrom).toList ++ s.kin.children.map .deleteChild :=
      kin_destroy hstep
    refine ⟨?_, fun idle => settled_destroyed idle hs kin links assocs agenda⟩
    rw [forest_update assocs, put_destroyed hs kin]
  · cases hdead.symm.trans hx

/-- **A function of a live association** grows the forest, provided the names are new that it gives
and the session it adopts is there. -/
theorem grown_related {n n' : Net} (idle : n.agenda = []) {x : AssocId} {s s' : Sys} {i : Input}
    {calls : List Call} (grown : ∃ age k, n.forest.Grown age k) (hs : n.assocs x = some s)
    (related : Related s i s'.kin (linking calls))
    (fresh : ∀ c cs pending fileno, .newChild c cs pending fileno ∈ linking calls →
      n.forest.known c = false)
    (owns : ∀ ans c fs, i = .ret ans → s.frames = .session c :: fs → ans.session ≠ 0 →
      s.alive = true → n.forest.alive c = true)
    (assocs : n'.assocs = update n.assocs x s')
    (agenda : n'.agenda = calls.map (Prod.mk x) ++ n.agenda) :
    ∃ age k, n'.settled.Grown age k := by
  obtain ⟨age, k, grown⟩ := grown
  obtain ⟨known, alive, parent, children, pending⟩ := forest_at hs
  have settled := settled_act assocs agenda
  rw [idle, List.foldl_nil] at settled
  -- what is left when a session is taken off the frames
  have off : ∀ {c : AssocId} {fs : List Frame}, s.frames = .session c :: fs →
      c ∈ n.forest.pending x ∧ fs.filterMap Frame.session? = (n.forest.pending x).erase c := by
    intro c fs hframes
    have sessions : n.forest.pending x = c :: fs.filterMap Frame.session? := by
      rw [pending, Sys.kin, hframes]
      rfl
    rw [sessions, List.erase_cons_head]
    exact ⟨List.mem_cons_self, rfl⟩
  generalize hk : s'.kin = k' at related
  generalize hl : linking calls = ls at related
  rw [hk, hl] at settled
  rw [hl] at fresh
  cases related with
  | apart =>
    rw [put_self hs] at settled
    rw [settled]
    exact ⟨age, k, grown⟩
  | awaits c cs io fileno =>
    rw [put_at hs, ← alive, ← parent, ← children, ← pending] at settled
    simp only [Function.update_eq_self] at settled
    rw [settled]
    exact ⟨_, _, grown.await known (fresh c cs io fileno List.mem_cons_self)⟩
  | @adopts ans c fs halive hframes hobserver =>
    obtain ⟨made, rest⟩ := off hframes
    rw [put_at hs, ← alive, ← parent, ← children, rest] at settled
    simp only [Function.update_eq_self] at settled
    rw [settled]
    exact ⟨age, k, grown.adopt (owns ans c fs rfl hframes hobserver halive) made⟩
  | @refuses ans c fs hframes =>
    obtain ⟨made, rest⟩ := off hframes
    rw [put_at hs, ← alive, ← parent, ← children, rest] at settled
    simp only [Function.update_eq_self] at settled
    rw [settled]
    exact ⟨age, k, grown.refuse made⟩
  | @drops ans c fs hframes =>
    obtain ⟨made, rest⟩ := off hframes
    rw [put_at hs, ← alive, ← parent, ← children, rest] at settled
    simp only [Function.update_eq_self] at settled
    rw [settled]
    exact ⟨age, k, grown.settle x c⟩
  | destroyed halive =>
    rw [settled_destroyed idle hs hk hl assocs agenda]
    exact ⟨age, k, grown.destroy (alive.trans halive)⟩

/-! ## Every run -/

/-- Calls are put in front of the agenda, and nobody is forgotten. -/
structure Onward (n n' : Net) : Prop where
  agenda : n.agenda ⊆ n'.agenda
  known : ∀ y, n.forest.known y = true → n'.forest.known y = true

theorem onward_update {n n' : Net} {x : AssocId} {s : Sys} {new : List (AssocId × Call)}
    (assocs : n'.assocs = update n.assocs x s) (agenda : n'.agenda = new ++ n.agenda) :
    Onward n n' where
  agenda := agenda ▸ List.subset_append_right _ _
  known y hy := by
    rw [forest_update assocs]
    simp only [put, Function.update_apply]
    split
    · rfl
    · exact hy

theorem onward_tell (n : Net) (x : AssocId) (j : Input) : Onward n (n.tell x j).1 := by
  rcases tell_eq n x j with h | ⟨-, h⟩
  · obtain ⟨s, s', calls, -, -, assocs, -, agenda, -⟩ := act_eq h
    exact onward_update assocs agenda
  · rw [h]
    exact ⟨List.Subset.refl _, fun _ hy => hy⟩

theorem onward_route {n n' : Net} {x : AssocId} {c : Call} {o : List NetCall}
    (h : n.route x c = some (n', o)) : Onward n n' := by
  have born : ∀ {c : AssocId} {s : Sys} {calls : List Call},
      n.born c s calls = some (n', o) → Onward n n' := by
    intro c s calls h
    unfold Net.born at h
    split at h
    · cases h
    · cases h
      exact onward_update rfl rfl
  cases c with
  | newChild child cs pending fileno => exact born h
  | setChildObserver child _ | setChildParent child | shutdownChild child | deleteChild child =>
    obtain ⟨rfl, -⟩ := Prod.mk.inj (Option.some.inj h)
    exact onward_tell n child _
  | unlinkFrom parent =>
    obtain ⟨rfl, -⟩ := Prod.mk.inj (Option.some.inj h)
    exact onward_tell n parent _
  | _ =>
    cases h
    exact ⟨List.Subset.refl _, fun _ hy => hy⟩

/-- The names on the agenda are new. A program where one is not stops when its turn comes. -/
def Fresh (n : Net) : Prop := ∀ x c cs pending fileno,
  (x, .newChild c cs pending fileno) ∈ n.agenda → n.forest.known c = false

/-- The settled forest has grown from nothing. -/
def Rooted (n : Net) : Prop := n.Fresh → ∃ age k, n.settled.Grown age k

/-- With nothing on the agenda the forest is what it was to be. -/
theorem Rooted.grown {n : Net} (rooted : n.Rooted) (idle : n.agenda = []) :
    ∃ age k, n.forest.Grown age k := by
  rw [← settled_idle idle]
  apply rooted
  intro x c cs pending fileno hmem
  rw [idle] at hmem
  cases hmem

/-- The observer that `sessionNotify` returns has a session that is there. -/
def ownsSession (n : Net) : NetInput → Bool
  | .ret ans =>
    match n.stack with
    | [] => true
    | x :: _ =>
      match n.assocs x with
      | none => true
      | some s =>
        match s.frames with
        | .session c :: _ => !s.alive || ans.session == 0 || n.forest.alive c
        | _ => true
  | _ => true

/-- The next call of the agenda. -/
theorem Rooted.route {n n' : Net} {o : List NetCall} (rooted : n.Rooted)
    (step : net.step n .route = some (n', o)) : n'.Rooted := by
  intro fresh
  rw [settled_route step]
  apply rooted
  intro x c cs pending fileno hmem
  cases hagenda : n.agenda with
  | nil =>
    rw [hagenda] at hmem
    cases hmem
  | cons p agenda =>
    have routed : ({ n with agenda := agenda } : Net).route p.1 p.2 = some (n', o) := by
      rw [← step]
      show _ = n.step .route
      simp only [Net.step, hagenda]
    rw [hagenda] at hmem
    rcases List.mem_cons.mp hmem with rfl | hmem
    · exact (settled_accepted routed).1
    · have onward := onward_route routed
      have later := fresh x c cs pending fileno (onward.agenda hmem)
      cases hknown : n.forest.known c with
      | false => rfl
      | true => cases later.symm.trans (onward.known c hknown)

/-- An association acts, outside the agenda. -/
theorem Rooted.act {n m n' : Net} {x : AssocId} {j : Input} {o : List NetCall} (rooted : n.Rooted)
    (idle : n.agenda = []) (assocs : m.assocs = n.assocs) (agenda : m.agenda = n.agenda)
    (notKin : j.fromKin = false)
    (owns : ∀ s ans c fs, n.assocs x = some s → j = .ret ans → s.frames = .session c :: fs →
      ans.session ≠ 0 → s.alive = true → n.forest.alive c = true)
    (h : m.act x j = some (n', o)) : n'.Rooted := by
  obtain ⟨s, s', calls, hs, hstep, hassocs, -, hagenda, -⟩ := act_eq h
  rw [assocs] at hs hassocs
  rw [agenda] at hagenda
  intro fresh
  refine grown_related idle (rooted.grown idle) hs (kin_step notKin hstep) ?_ ?_ hassocs hagenda
  · intro c cs pending fileno hmem
    have hcalls : .newChild c cs pending fileno ∈ calls := List.mem_of_mem_filter hmem
    have later := fresh x c cs pending fileno (by
      rw [hagenda]
      exact List.mem_append_left _ (List.mem_map_of_mem hcalls))
    cases hknown : n.forest.known c with
    | false => rfl
    | true => cases later.symm.trans ((onward_update hassocs hagenda).known c hknown)
  · intro ans c fs
    exact owns s ans c fs hs

/-- A step that leaves the associations and the agenda alone. -/
theorem Rooted.same {n n' : Net} (rooted : n.Rooted) (assocs : n'.assocs = n.assocs)
    (agenda : n'.agenda = n.agenda) : n'.Rooted := by
  intro fresh
  rw [settled, agenda, forest_congr assocs]
  apply rooted
  intro x c cs pending fileno hmem
  have later := fresh x c cs pending fileno (agenda ▸ hmem)
  rwa [forest_congr assocs] at later

/-- **One step** keeps the forest rooted. -/
theorem Rooted.step {n n' : Net} {i : NetInput} {o : List NetCall} (rooted : n.Rooted)
    (owns : n.ownsSession i = true) (step : net.step n i = some (n', o)) : n'.Rooted := by
  have route := @Rooted.route n n' o rooted
  change n.step i = some (n', o) at step
  unfold Net.step at step
  split at step
  · next id c agenda hagenda =>
    apply route
    show n.step .route = _
    simp only [Net.step, hagenda, step]
  · next id hagenda =>
    obtain ⟨unknown, settled⟩ := settled_born rfl rfl step
    intro _
    obtain ⟨age, k, grown⟩ := rooted.grown hagenda
    rw [settled, hagenda]
    exact ⟨_, _, grown.make unknown⟩
  · next id j hagenda =>
    split at step
    · next hpublic =>
      refine rooted.act hagenda rfl rfl ?_ ?_ step
      · cases j <;> first | rfl | cases hpublic
      · rintro s ans c fs - rfl
        cases hpublic
    · cases step
  · next ans hagenda =>
    split at step
    · cases step
    · next id stack hstack =>
      refine rooted.act (m := { n with stack := stack }) hagenda rfl rfl rfl ?_ step
      rintro s ans' c fs hs hans hframes hobserver halive
      cases hans
      simpa [ownsSession, hstack, hs, hframes, halive, hobserver] using owns
  · next now replies later ans hagenda =>
    unfold processEvent at step
    split at step
    · cases step
    next made hmade =>
    dsimp only at step
    split at step
    · cases step
      exact rooted.same rfl rfl
    · next ev hev =>
      obtain ⟨rfl, -⟩ := Prod.mk.inj (Option.some.inj step)
      rcases tell_eq (n.manage made).1 ev.observer (.socketNotify ev.event ans) with h | ⟨-, h⟩
      · refine rooted.act (m := (n.manage made).1) hagenda rfl rfl rfl ?_ h
        rintro s ans' c fs - hret
        cases hret
      · rw [h]
        exact rooted.same rfl rfl
  · cases step

/-- A program starts with nobody. -/
theorem rooted_born {n : Net} {h : List NetCall} (born : Born n h) : n.Rooted := by
  obtain ⟨rfl, -⟩ := born
  intro _
  have nobody : ∀ x, ¬ (({} : Net).forest.alive x = true) := fun x => nofun
  refine ⟨fun _ => 0, 0, ⟨fun p hp => absurd hp (nobody p), fun p hp => absurd hp (nobody p)⟩,
    fun x hx => absurd hx (nobody x), fun x => nofun, fun x p => nofun, fun p c hc => ?_,
    fun p => List.nodup_nil, fun p q c hc => ?_⟩ <;> exact absurd hc List.not_mem_nil

theorem rooted_run {is : List NetInput} {n : Net} {h : List NetCall}
    (run : (net.restrict ownsSession).Run Born is n h) : n.Rooted :=
  run.invariant_restrict (fun n _ => n.Rooted) (fun _ _ => rooted_born)
    fun _ _ _ _ _ rooted owns step => rooted.step owns step

/-- **The child lists are exact** whenever control is with the application. -/
theorem linked_run {is : List NetInput} {n : Net} {h : List NetCall}
    (run : (net.restrict ownsSession).Run Born is n h) (idle : n.agenda = []) :
    n.forest.Linked := by
  obtain ⟨age, k, grown⟩ := (rooted_run run).grown idle
  exact grown.linked

end Net

end Yazpp
