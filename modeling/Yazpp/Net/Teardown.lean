import Yazpp.Net.Kin

/-!
# The order in which the `Z_Assoc`s go

`~Z_Assoc_priv` calls `destroy()` on its association and deletes it, and `destroy()` deletes the
children, whose own `Z_Assoc`s know nothing of that. So a listener and its sessions are each deleted
once if the listener goes last, in whatever order the sessions go before it, and not otherwise: the
`Z_Assoc` of a session that goes behind the listener's calls `destroy()` on an association that is
deleted, and deletes it again (`deleted_once_iff`).
-/

set_option autoImplicit false

namespace Yazpp

open Yazpp.Lib

/-- What is seen of a teardown: an object is deleted, and everything else. -/
inductive Torn
  | deleted (id : AssocId)
  | call (c : NetCall)
deriving DecidableEq, Repr

/-- The object that is deleted. -/
def Torn.deleted? : Torn → Option AssocId
  | .deleted id => some id
  | .call _ => none

/-- An operation on a deleted object, or a failed assertion. -/
def Torn.faulty : Torn → Bool
  | .call (.dangling _) | .call (.assoc _ .assertFailed) => true
  | _ => false

/-- `~Z_Assoc_priv`, which cannot tell whether the association is there, and the agenda. -/
def Net.tear (n : Net) : NetInput → Option (Net × List NetCall)
  | .call id .destroy => if n.agenda = [] then some (n.tell id .destroy) else none
  | .route => n.step .route
  | _ => none

/-- `Z_Assoc`s that go one after the other. -/
def teardown : Machine Net NetInput Torn where
  step n i := (n.tear i).map fun next =>
    (next.1, ((n.deletes i).map fun d => .deleted d.1).toList ++ next.2.map .call)

/-- The association whose `Z_Assoc` goes. -/
def NetInput.destroys? : NetInput → Option AssocId
  | .call id .destroy => some id
  | _ => none

/-- The associations whose `Z_Assoc`s go, in order. -/
def destroyed (is : List NetInput) : List AssocId := is.filterMap NetInput.destroys?

/-- A teardown that goes well. -/
structure TornDown (n : Net) (order : List AssocId) (is : List NetInput) (n' : Net)
    (h : List Torn) : Prop where
  run : teardown.exec n is = some (n', h)
  each : destroyed is = order
  idle : n'.agenda = []
  once : ∀ id ∈ order, h.count (.deleted id) = 1
  there : ∀ id, .call (.dangling id) ∉ h
  listed : ∀ id, .call (.assoc id .assertFailed) ∉ h
  linked : ∀ pre post m k, is = pre ++ post → teardown.exec n pre = some (m, k) → m.agenda = [] →
    m.forest.Linked

/-- The `Z_Assoc`s go in that order, to the end, and every association of theirs is deleted once. -/
def DeletedOnce (n : Net) (order : List AssocId) : Prop :=
  ∃ is n' h, TornDown n order is n' h

/-! ## The agenda runs empty -/

/-- The agenda is worked off down to `agenda` without a fault; the forest is `f` then, and the
objects `ds` have been deleted. -/
def Clears (n : Net) (agenda : List (AssocId × Call)) (f : Forest AssocId) (ds : List AssocId) :
    Prop :=
  ∃ n' h, (∃ k, teardown.exec n (List.replicate k .route) = some (n', h)) ∧ n'.agenda = agenda ∧
    n'.forest = f ∧ (∀ t ∈ h, t.faulty = false) ∧ h.filterMap Torn.deleted? = ds

theorem Clears.refl {n : Net} {agenda : List (AssocId × Call)} (hagenda : n.agenda = agenda) :
    Clears n agenda n.forest [] :=
  ⟨n, [], ⟨0, rfl⟩, hagenda, rfl, List.forall_mem_nil _, rfl⟩

theorem Clears.trans {n : Net} {agenda agenda' : List (AssocId × Call)} {f f' : Forest AssocId}
    {ds ds' : List AssocId} (first : Clears n agenda f ds)
    (rest : ∀ n', n'.agenda = agenda → n'.forest = f → Clears n' agenda' f' ds') :
    Clears n agenda' f' (ds ++ ds') := by
  obtain ⟨n₁, h₁, ⟨k, run₁⟩, hagenda, hforest, quiet₁, rfl⟩ := first
  obtain ⟨n₂, h₂, ⟨l, run₂⟩, hagenda', hforest', quiet₂, rfl⟩ := rest n₁ hagenda hforest
  refine ⟨n₂, h₁ ++ h₂, ⟨k + l, ?_⟩, hagenda', hforest', ?_, List.filterMap_append⟩
  · rw [List.replicate_add]
    exact Machine.exec_append.mpr ⟨n₁, h₁, h₂, run₁, run₂, rfl⟩
  · intro t ht
    exact (List.mem_append.mp ht).elim (quiet₁ t) (quiet₂ t)

/-- One call of the agenda. -/
theorem Clears.one {n : Net} {x : AssocId} {c : Call} {agenda rest : List (AssocId × Call)}
    (next : Net × List NetCall) {f : Forest AssocId} {ds : List AssocId}
    (hagenda : n.agenda = (x, c) :: rest)
    (routed : ({ n with agenda := rest } : Net).route x c = some next)
    (left : next.1.agenda = agenda) (forest : next.1.forest = f)
    (quiet : ∀ d ∈ next.2, (Torn.call d).faulty = false)
    (deletes : ((n.deletes .route).map fun d => d.1).toList = ds) : Clears n agenda f ds := by
  obtain ⟨n', o⟩ := next
  have step : teardown.step n .route = some (n',
      ((n.deletes .route).map fun d => Torn.deleted d.1).toList ++ o.map .call) := by
    have hstep : n.step .route = some (n', o) := by
      simp only [Net.step, hagenda, routed]
    simp only [teardown, Net.tear, hstep, Option.map_some]
  refine ⟨n', _, ⟨1, Machine.exec_cons.mpr ⟨n', _, [], step, rfl, rfl⟩⟩, left, forest, ?_, ?_⟩
  · intro t ht
    rw [List.append_nil] at ht
    rcases List.mem_append.mp ht with ht | ht
    · cases hd : n.deletes .route with
      | none =>
        rw [hd] at ht
        cases ht
      | some d =>
        rw [hd] at ht
        rw [List.mem_singleton.mp ht]
        rfl
    · obtain ⟨d, hd, rfl⟩ := List.mem_map.mp ht
      exact quiet d hd
  · have calls : (o.map Torn.call).filterMap Torn.deleted? = [] := by
      rw [List.filterMap_map]
      exact List.filterMap_eq_nil_iff.mpr fun _ _ => rfl
    rw [List.append_nil, List.filterMap_append, calls, List.append_nil, ← deletes]
    cases n.deletes .route <;> rfl

/-- What code finds that cannot tell whether the association is there, when it is. -/
theorem tell_live {n : Net} {x : AssocId} (hx : n.forest.alive x = true) {j : Input}
    (hj : ∀ ans, j ≠ .ret ans) : ∃ s, n.assocs x = some s ∧
      (n.tell x j).1.agenda =
        (j.outcome s.assoc s.frames.length).calls.map (Prod.mk x) ++ n.agenda ∧
      (n.tell x j).2 = (j.outcome s.assoc s.frames.length).calls.map (.assoc x) := by
  rcases Net.tell_cases n x hj with ⟨s, s', calls, hs, halive, hstep, -, agenda, o⟩ | ⟨hdead, -⟩
  · obtain ⟨rfl, rfl⟩ := Prod.mk.inj (Option.some.inj ((step_call halive hj).symm.trans hstep))
    exact ⟨s, hs, agenda, o⟩
  · cases hdead.symm.trans hx

theorem not_faulty {x : AssocId} {calls : List Call} (listed : .assertFailed ∉ calls) :
    ∀ d ∈ calls.map (NetCall.assoc x), (Torn.call d).faulty = false := by
  intro d hd
  obtain ⟨c, hc, rfl⟩ := List.mem_map.mp hd
  cases c <;> first | rfl | exact absurd hc listed

theorem not_failed_shutdown (a : PduAssoc) : .assertFailed ∉ a.shutdown.calls := fun hmem => by
  rcases PduAssoc.mem_shutdown_calls.mp hmem with ⟨_, _, h⟩ | h | ⟨_, h⟩ <;> cases h

/-- A call that the manager or nobody hears. -/
theorem clears_apart {n : Net} {x : AssocId} {c : Call} {rest : List (AssocId × Call)}
    (hagenda : n.agenda = (x, c) :: rest)
    (hc : c = .deleteObserver ∨ (∃ cs, c = .csClose cs) ∨ c = .strayWrite) :
    Clears n rest n.forest [] := by
  rcases hc with rfl | ⟨cs, rfl⟩ | rfl
  · refine Clears.one _ hagenda rfl rfl rfl ?_ (by simp only [Net.deletes, hagenda]; rfl)
    intro d hd
    obtain ⟨_, -, rfl⟩ := List.mem_map.mp hd
    rfl
  · exact Clears.one _ hagenda rfl rfl rfl (List.forall_mem_nil _)
      (by simp only [Net.deletes, hagenda]; rfl)
  · exact Clears.one _ hagenda rfl rfl rfl (List.forall_mem_nil _)
      (by simp only [Net.deletes, hagenda]; rfl)

/-- The first call of a `shutdown` of a child that is there: the calls that are left of it. -/
theorem clears_shutdownChild {n : Net} {x c : AssocId} {rest : List (AssocId × Call)}
    (hagenda : n.agenda = (x, .shutdownChild c) :: rest) (hc : n.forest.alive c = true) :
    ∃ cs : List Comstack, Clears n ((n.forest.children c).map (fun g => (c, .shutdownChild g)) ++
      (c, .deleteObserver) :: (cs.map fun cs => (c, .csClose cs)) ++ rest) n.forest [] := by
  obtain ⟨s, hs, agenda, o⟩ := tell_live (n := { n with agenda := rest }) hc (j := .shutdown)
    (fun _ => nofun)
  refine ⟨if s.assoc.cs = 0 then [] else [s.assoc.cs], ?_⟩
  refine Clears.one (({ n with agenda := rest } : Net).tell c .shutdown) hagenda rfl
    (agenda.trans ?_) (Net.forest_apart _ c (.inl rfl)) ?_
    (by simp only [Net.deletes, hagenda]; rfl)
  · have children : n.forest.children c = s.assoc.children := (Net.forest_at hs).2.2.2.1
    rw [children]
    simp only [Input.outcome, PduAssoc.shutdown, PduAssoc.teardown, Outcome.after_calls,
      List.map_append, List.map_map, List.map_cons]
    split <;> rfl
  · rw [o]
    exact not_faulty (not_failed_shutdown s.assoc)

/-- A child leaves the list of a parent that is there and lists it. -/
theorem clears_unlinkFrom {n : Net} {x q : AssocId} {rest : List (AssocId × Call)}
    (hagenda : n.agenda = (x, .unlinkFrom q) :: rest) (hq : n.forest.alive q = true)
    (hx : x ∈ n.forest.children q) : Clears n rest (n.forest.unlink q x) [] := by
  obtain ⟨s, hs, agenda, o⟩ := tell_live (n := { n with agenda := rest }) hq (j := .unlink x)
    (fun _ => nofun)
  have children : n.forest.children q = s.assoc.children :=
    (Net.forest_at (n := { n with agenda := rest }) hs).2.2.2.1
  have hx' : x ∈ s.assoc.children := children ▸ hx
  simp only [Input.outcome, PduAssoc.unlink, hx', if_true] at agenda o
  refine Clears.one (({ n with agenda := rest } : Net).tell q (.unlink x)) hagenda rfl
    agenda (Net.forest_unlink _ q x) ?_ (by simp only [Net.deletes, hagenda]; rfl)
  rw [o]
  exact List.forall_mem_nil _

/-- A child that is there is deleted. -/
theorem clears_deleteChild {n : Net} {x c : AssocId} {rest : List (AssocId × Call)}
    (hagenda : n.agenda = (x, .deleteChild c) :: rest) (hc : n.forest.alive c = true) :
    Clears n rest (n.forest.kill c) [c] := by
  obtain ⟨s, -, agenda, o⟩ := tell_live (n := { n with agenda := rest }) hc (j := .delete)
    (fun _ => nofun)
  refine Clears.one (({ n with agenda := rest } : Net).tell c .delete) hagenda rfl
    agenda (Net.forest_delete _ c) ?_ (by simp only [Net.deletes, hagenda]; rfl)
  rw [o]
  exact List.forall_mem_nil _

/-- Calls that clear one by one. -/
theorem clears_each {calls : List (AssocId × Call)} {f : Forest AssocId}
    (each : ∀ p ∈ calls, ∀ n rest, n.agenda = p :: rest → n.forest = f → Clears n rest f []) :
    ∀ n rest, n.agenda = calls ++ rest → n.forest = f → Clears n rest f [] := by
  induction calls with
  | nil =>
    rintro n rest hagenda rfl
    exact Clears.refl hagenda
  | cons p calls ih =>
    intro n rest hagenda hforest
    refine (each p List.mem_cons_self n _ hagenda hforest).trans ?_
    intro n' hagenda' hforest'
    exact ih (fun q hq => each q (List.mem_cons_of_mem _ hq)) n' rest hagenda' hforest'

/-- **The `shutdown` of a tree** comes to its end and leaves the forest alone, where those younger
than `a` list nobody but live children. By induction on what is left above the child's age. -/
theorem clears_tree {f : Forest AssocId} {age : AssocId → Nat} {b a : Nat}
    (below : ∀ x, f.alive x = true → age x < b)
    (tree : ∀ p, f.alive p = true → a < age p → ∀ c ∈ f.children p,
      f.alive c = true ∧ age p < age c) :
    ∀ k x c, b - age c ≤ k → a < age c → f.alive c = true → ∀ n rest,
      n.agenda = (x, .shutdownChild c) :: rest → n.forest = f → Clears n rest f [] := by
  intro k
  induction k with
  | zero =>
    intro x c hk _ hc
    have := below c hc
    omega
  | succ k ih =>
    rintro x c hk ha hc n rest hagenda rfl
    obtain ⟨cs, first⟩ := clears_shutdownChild hagenda hc
    refine first.trans fun n' => clears_each ?_ n' rest
    intro p hp n' rest' hagenda' hforest
    rcases List.mem_append.mp hp with hp | hp
    · obtain ⟨g, hg, rfl⟩ := List.mem_map.mp hp
      obtain ⟨hg', older⟩ := tree c hc ha g hg
      exact ih c g (by omega) (by omega) hg' n' rest' hagenda' hforest
    · rw [← hforest]
      rcases List.mem_cons.mp hp with rfl | hp
      · exact clears_apart hagenda' (.inl rfl)
      · obtain ⟨cs, -, rfl⟩ := List.mem_map.mp hp
        exact clears_apart hagenda' (.inr (.inl ⟨cs, rfl⟩))

/-- The deletion of children that are there. -/
theorem clears_kills {x : AssocId} {cs : List AssocId} (once : cs.Nodup) : ∀ n rest,
    (∀ c ∈ cs, n.forest.alive c = true) →
    n.agenda = cs.map (fun c => (x, .deleteChild c)) ++ rest →
    Clears n rest (n.forest.kills cs) cs := by
  induction cs with
  | nil =>
    intro n rest _ hagenda
    exact Clears.refl hagenda
  | cons c cs ih =>
    intro n rest hlive hagenda
    obtain ⟨hnew, once⟩ := List.nodup_cons.mp once
    have first := clears_deleteChild hagenda (hlive c List.mem_cons_self)
    refine first.trans ?_
    intro n' hagenda' hforest
    have later : ∀ d ∈ cs, n'.forest.alive d = true := by
      intro d hd
      have other : d ≠ c := fun h => hnew (h ▸ hd)
      rw [hforest]
      exact (Function.update_of_ne other ..).trans (hlive d (List.mem_cons_of_mem _ hd))
    have rest := ih once n' rest later hagenda'
    rw [hforest] at rest
    exact rest

/-- The agenda of `destroy()`. -/
theorem agenda_destroy {n : Net} (idle : n.agenda = []) {x : AssocId}
    (hx : n.forest.alive x = true) : ∃ apart : List Call,
      (∀ c ∈ apart, (∃ cs, c = .csClose cs) ∨ c = .strayWrite) ∧
      (n.tell x .destroy).1.agenda =
        (n.forest.children x).map (fun g => (x, .shutdownChild g)) ++
          ((x, .deleteObserver) :: apart.map (fun c => (x, c)) ++
            ((n.forest.parent x).toList.map (fun q => (x, .unlinkFrom q)) ++
              ((n.forest.children x).map (fun c => (x, .deleteChild c)) ++ []))) ∧
      ∀ d ∈ (n.tell x .destroy).2, (Torn.call d).faulty = false := by
  obtain ⟨s, hs, agenda, o⟩ := tell_live hx (j := .destroy) (fun _ => nofun)
  obtain ⟨-, -, parent, children, -⟩ := Net.forest_at hs
  have parent' : n.forest.parent x = s.assoc.parent := parent
  have children' : n.forest.children x = s.assoc.children := children
  refine ⟨(if s.assoc.cs = 0 then [] else [.csClose s.assoc.cs]) ++ s.assoc.strays, ?_, ?_, ?_⟩
  · intro c hc
    rcases List.mem_append.mp hc with hc | hc
    · split at hc
      · cases hc
      · exact .inl ⟨_, List.mem_singleton.mp hc⟩
    · exact .inr (PduAssoc.mem_strays hc)
  · rw [agenda, idle, parent', children']
    simp only [Input.outcome, PduAssoc.destroy, PduAssoc.shutdown, PduAssoc.teardown,
      Outcome.after_calls, List.map_append, List.map_map, List.map_cons, List.append_assoc,
      List.cons_append]
    congr 4
    cases s.assoc.parent <;> rfl
  · rw [o]
    apply not_faulty
    simp only [Input.outcome, PduAssoc.destroy, List.mem_append, not_or]
    refine ⟨⟨⟨not_failed_shutdown s.assoc, fun h => ?_⟩, ?_⟩, ?_⟩
    · cases PduAssoc.mem_strays h
    · cases s.assoc.parent <;> simp
    · simp

/-- **One `~Z_Assoc`** of an association that is there, and whose parent is there if it has one: it
comes to its end without a fault, and deletes the association and its children. -/
theorem clears_destroy {n : Net} (idle : n.agenda = []) {age : AssocId → Nat} {b : Nat}
    (grown : n.forest.Grown age b) {x : AssocId} (hx : n.forest.alive x = true)
    (root : ∀ q, n.forest.parent x = some q → n.forest.alive q = true) :
    Clears (n.tell x .destroy).1 [] (n.forest.destroy x) (n.forest.children x) := by
  obtain ⟨apart, quiet, agenda, -⟩ := agenda_destroy idle hx
  have forest := (Net.forest_destroy hx).1
  have mine : ∀ c ∈ n.forest.children x, c ≠ x ∧ n.forest.alive c = true ∧ age x < age c := by
    intro c hc
    obtain ⟨hlive, hparent, younger⟩ := grown.listed hx hc
    exact ⟨(grown.parent_ne hparent).symm, hlive, younger⟩
  have tree : ∀ p, (n.forest.bury x).alive p = true → age x < age p →
      ∀ c ∈ (n.forest.bury x).children p, (n.forest.bury x).alive c = true ∧ age p < age c := by
    intro p hp younger c hc
    obtain ⟨other, hp⟩ := Forest.bury_alive.mp hp
    rw [Forest.bury_children other] at hc
    obtain ⟨hlive, -, older⟩ := grown.listed hp hc
    refine ⟨Forest.bury_alive.mpr ⟨?_, hlive⟩, older⟩
    rintro rfl
    omega
  have below : ∀ y, (n.forest.bury x).alive y = true → age y < b := fun y hy =>
    grown.below y (grown.known y (Forest.bury_alive.mp hy).2)
  -- the children shut down, and the association leaves the manager
  have shut := clears_each (f := n.forest.bury x) (fun p hp n' rest hagenda hforest => by
    obtain ⟨g, hg, rfl⟩ := List.mem_map.mp hp
    obtain ⟨other, hlive, younger⟩ := mine g hg
    exact clears_tree below tree (b - age g) x g (Nat.le_refl _) younger
      (Forest.bury_alive.mpr ⟨other, hlive⟩) n' rest hagenda hforest) _ _ agenda forest
  refine shut.trans fun n₁ agenda₁ forest₁ => ?_
  have left := clears_each (f := n.forest.bury x) (fun p hp n' rest hagenda hforest => by
    rw [← hforest]
    rcases List.mem_cons.mp hp with rfl | hp
    · exact clears_apart hagenda (.inl rfl)
    · obtain ⟨c, hc, rfl⟩ := List.mem_map.mp hp
      exact clears_apart hagenda (.inr (quiet c hc))) _ _ agenda₁ forest₁
  refine left.trans fun n₂ agenda₂ forest₂ => ?_
  -- it leaves its parent's list, and the children are deleted
  have once := grown.linked.once x hx
  have kills : ∀ (f : Forest AssocId) n', f.alive = (n.forest.bury x).alive →
      n'.agenda = (n.forest.children x).map (fun c => (x, Call.deleteChild c)) ++ [] →
      n'.forest = f → Clears n' [] (f.kills (n.forest.children x)) (n.forest.children x) := by
    rintro f n' alive hagenda rfl
    refine clears_kills once n' [] (fun c hc => ?_) hagenda
    obtain ⟨other, hlive, -⟩ := mine c hc
    rw [alive]
    exact Forest.bury_alive.mpr ⟨other, hlive⟩
  cases hparent : n.forest.parent x with
  | none =>
    rw [hparent] at agenda₂
    rw [Forest.destroy, hparent]
    exact kills _ n₂ rfl agenda₂ forest₂
  | some q =>
    rw [hparent] at agenda₂
    rw [Forest.destroy, hparent]
    have other := grown.parent_ne hparent
    have hq := root q hparent
    have hq' : n₂.forest.alive q = true := by
      rw [forest₂]
      exact Forest.bury_alive.mpr ⟨other, hq⟩
    have hx' : x ∈ n₂.forest.children q := by
      rw [forest₂, Forest.bury_children other]
      exact (grown.linked.exact q hq x).mpr ⟨hx, hparent⟩
    refine (clears_unlinkFrom agenda₂ hq' hx').trans fun n₃ agenda₃ forest₃ => ?_
    rw [forest₂] at forest₃
    refine kills _ n₃ ?_ agenda₃ forest₃
    simp only [Option.toList_some, List.foldl_cons, List.foldl_nil, Forest.unlink]
    split <;> rfl

/-! ## Every step -/

/-- What a step makes of the forest that is to be: nothing, or the destruction of one object. -/
theorem teardown_settled {n n' : Net} {i : NetInput} {o : List Torn}
    (step : teardown.step n i = some (n', o)) :
    n'.settled = n.settled ∨ ∃ x, n.settled.alive x = true ∧ n'.settled = n.settled.destroy x := by
  obtain ⟨next, htear, heq⟩ := Option.map_eq_some_iff.mp step
  obtain ⟨rfl, -⟩ := Prod.mk.inj heq
  cases i with
  | route => exact .inl (Net.settled_route (o := next.2) htear)
  | call id j =>
    cases j with
    | destroy =>
      simp only [Net.tear] at htear
      split at htear
      · next idle =>
        cases htear
        rw [Net.settled_idle idle]
        cases halive : n.forest.alive id with
        | true => exact .inr ⟨id, halive, (Net.forest_destroy halive).2 idle⟩
        | false =>
          rcases Net.tell_cases n id (j := .destroy) (fun _ => nofun) with
            ⟨s, -, -, hs, hlive, -⟩ | ⟨-, h⟩
          · have hlive' := (Net.forest_at hs).2.1.trans hlive
            cases halive.symm.trans hlive'
          · rw [h]
            exact .inl (Net.settled_idle idle)
      · cases htear
    | _ => cases htear
  | _ => cases htear

/-- The forest that is to be has grown from nothing, in every order. -/
theorem teardown_grown {n n' : Net} {is : List NetInput} {h : List Torn} {age : AssocId → Nat}
    {b : Nat} (grown : n.settled.Grown age b) (run : teardown.exec n is = some (n', h)) :
    n'.settled.Grown age b := by
  refine Machine.exec_invariant (fun m (_ : List Torn) => m.settled.Grown age b) ?_ (h := [])
    grown run
  intro m _ i m' o grown step
  rcases teardown_settled step with same | ⟨x, hx, destroyed⟩
  · rwa [same]
  · rw [destroyed]
    exact grown.destroy hx

/-- Nobody comes to life, and no parent pointer is written. -/
theorem teardown_mono {n n' : Net} {is : List NetInput} {h : List Torn}
    (run : teardown.exec n is = some (n', h)) : n'.settled.parent = n.settled.parent ∧
      ∀ y, n'.settled.alive y = true → n.settled.alive y = true := by
  refine Machine.exec_invariant (fun m (_ : List Torn) => m.settled.parent = n.settled.parent ∧
    ∀ y, m.settled.alive y = true → n.settled.alive y = true) ?_ (h := []) ⟨rfl, fun _ h => h⟩ run
  rintro m _ i m' o ⟨parent, alive⟩ step
  rcases teardown_settled step with same | ⟨x, hx, destroyed⟩
  · rw [same]
    exact ⟨parent, alive⟩
  · rw [destroyed, Forest.destroy_parent]
    refine ⟨parent, fun y hy => alive y ?_⟩
    exact (Forest.destroy_alive _ x y |>.mp hy).2.2

/-- `~Z_Assoc_priv` of an association that is gone. -/
theorem teardown_dangling {n n' : Net} {x : AssocId} {o : List Torn}
    (step : teardown.step n (.call x .destroy) = some (n', o)) (dead : n.settled.alive x = false) :
    .call (.dangling x) ∈ o := by
  obtain ⟨next, htear, heq⟩ := Option.map_eq_some_iff.mp step
  obtain ⟨-, rfl⟩ := Prod.mk.inj heq
  simp only [Net.tear] at htear
  split at htear
  · next idle =>
    cases htear
    rw [Net.settled_idle idle] at dead
    rcases Net.tell_cases n x (j := .destroy) (fun _ => nofun) with ⟨s, -, -, hs, hlive, -⟩ | ⟨-, h⟩
    · cases dead.symm.trans ((Net.forest_at hs).2.1.trans hlive)
    · rw [h]
      exact List.mem_append_right _ List.mem_cons_self
  · cases htear

/-- Only an empty agenda lets a `Z_Assoc` go. -/
theorem teardown_idle {n n' : Net} {x : AssocId} {o : List Torn}
    (step : teardown.step n (.call x .destroy) = some (n', o)) : n.agenda = [] := by
  obtain ⟨next, htear, -⟩ := Option.map_eq_some_iff.mp step
  simp only [Net.tear] at htear
  split at htear
  · next idle => exact idle
  · cases htear

/-! ## The whole teardown -/

theorem count_deleted (h : List Torn) (id : AssocId) :
    h.count (.deleted id) = (h.filterMap Torn.deleted?).count id := by
  induction h with
  | nil => rfl
  | cons t h ih =>
    cases t with
    | deleted id' =>
      have hd : (Torn.deleted id' :: h).filterMap Torn.deleted? =
          id' :: h.filterMap Torn.deleted? := rfl
      rw [hd, List.count_cons, List.count_cons, ih]
      simp
    | call c =>
      have hd : (Torn.call c :: h).filterMap Torn.deleted? = h.filterMap Torn.deleted? := rfl
      rw [hd, List.count_cons, ih]
      simp

/-- **`Z_Assoc`s that go in order**: to the end, without a fault, and each association is deleted
once. By induction on the order: who is deleted by one of them is none of those to come. -/
theorem tears_orderly {order : List AssocId} : ∀ {n : Net} {age : AssocId → Nat} {b : Nat},
    n.agenda = [] → n.forest.Grown age b → order.Nodup → Forest.Orderly order n.forest →
    ∃ is n' h, teardown.exec n is = some (n', h) ∧ destroyed is = order ∧ n'.agenda = [] ∧
      (∀ t ∈ h, t.faulty = false) ∧ (∀ id ∈ h.filterMap Torn.deleted?, n.forest.alive id = true) ∧
      ∀ id ∈ order, h.count (.deleted id) = 1 := by
  induction order with
  | nil =>
    intro n age b idle _ _ _
    exact ⟨[], n, [], rfl, rfl, idle, List.forall_mem_nil _, List.forall_mem_nil _,
      List.forall_mem_nil _⟩
  | cons x rest ih =>
    intro n age b idle grown once orderly
    obtain ⟨hx, root, childless, orderly⟩ := orderly
    obtain ⟨hnew, once⟩ := List.nodup_cons.mp once
    obtain ⟨-, -, -, quiet⟩ := agenda_destroy idle hx
    have first : teardown.step n (.call x .destroy) = some ((n.tell x .destroy).1,
        .deleted x :: (n.tell x .destroy).2.map .call) := by
      simp only [teardown, Net.tear, idle, if_true]
      rfl
    obtain ⟨n₁, h₁, ⟨k, run₁⟩, idle₁, forest₁, quiet₁, deleted₁⟩ :=
      clears_destroy idle grown hx root
    have grown₁ : n₁.forest.Grown age b := forest₁ ▸ grown.destroy hx
    obtain ⟨is, n₂, h₂, run₂, each₂, idle₂, quiet₂, live₂, once₂⟩ :=
      ih idle₁ grown₁ once (forest₁ ▸ orderly)
    have none : ((n.tell x .destroy).2.map Torn.call).filterMap Torn.deleted? = [] := by
      rw [List.filterMap_map]
      exact List.filterMap_eq_nil_iff.mpr fun _ _ => rfl
    have deleted : (Torn.deleted x :: (n.tell x .destroy).2.map .call ++
        (h₁ ++ h₂)).filterMap Torn.deleted? =
        x :: (n.forest.children x ++ h₂.filterMap Torn.deleted?) := by
      have hcons : (Torn.deleted x :: (n.tell x .destroy).2.map .call ++
          (h₁ ++ h₂)).filterMap Torn.deleted? =
          x :: ((n.tell x .destroy).2.map Torn.call ++ (h₁ ++ h₂)).filterMap Torn.deleted? := rfl
      rw [hcons, List.filterMap_append, none, List.nil_append, List.filterMap_append, deleted₁]
    have later : ∀ id, id ∈ h₂.filterMap Torn.deleted? →
        id ≠ x ∧ id ∉ n.forest.children x ∧ n.forest.alive id = true := by
      intro id hid
      have hlive := live₂ id hid
      rw [forest₁] at hlive
      exact (Forest.destroy_alive _ x id).mp hlive
    refine ⟨.call x .destroy :: (List.replicate k .route ++ is), n₂, _,
      Machine.exec_cons.mpr ⟨_, _, _, first,
        Machine.exec_append.mpr ⟨n₁, h₁, h₂, run₁, run₂, rfl⟩, rfl⟩, ?_, idle₂, ?_, ?_, ?_⟩
    · have routes : (List.replicate k NetInput.route).filterMap NetInput.destroys? = [] :=
        List.filterMap_eq_nil_iff.mpr fun i hi => by
          rw [List.eq_of_mem_replicate hi]
          rfl
      have hcons : destroyed (.call x .destroy :: (List.replicate k .route ++ is)) =
          x :: (List.replicate k NetInput.route ++ is).filterMap NetInput.destroys? := rfl
      rw [hcons, List.filterMap_append, routes, List.nil_append]
      exact congrArg (List.cons x) each₂
    · intro t ht
      rcases List.mem_append.mp ht with ht | ht
      · rcases List.mem_cons.mp ht with rfl | ht
        · rfl
        · obtain ⟨d, hd, rfl⟩ := List.mem_map.mp ht
          exact quiet d hd
      · exact (List.mem_append.mp ht).elim (quiet₁ t) (quiet₂ t)
    · intro id hid
      rw [deleted] at hid
      rcases List.mem_cons.mp hid with rfl | hid
      · exact hx
      · rcases List.mem_append.mp hid with hid | hid
        · exact (grown.listed hx hid).1
        · exact (later id hid).2.2
    · intro id hid
      rw [count_deleted, deleted, List.count_cons, List.count_append]
      have mine : (n.forest.children x).count id = 0 ∧
          (h₂.filterMap Torn.deleted?).count id + (if x == id then 1 else 0) = 1 := by
        rcases List.mem_cons.mp hid with rfl | hid
        · refine ⟨List.count_eq_zero.mpr ?_, ?_⟩
          · intro hmem
            exact grown.parent_ne (grown.listed hx hmem).2.1 rfl
          · have gone : id ∉ h₂.filterMap Torn.deleted? := fun hmem => (later id hmem).1 rfl
            rw [List.count_eq_zero.mpr gone, if_pos (beq_self_eq_true id)]
        · refine ⟨List.count_eq_zero.mpr fun hmem => childless id hmem hid, ?_⟩
          have other : (x == id) = false := by
            rw [beq_eq_false_iff_ne]
            rintro rfl
            exact hnew hid
          rw [other, ← count_deleted, once₂ id hid]
          rfl
      omega

/-- A teardown in which the parent goes before a child: its `Z_Assoc` or the child's finds an
association that is gone. -/
theorem tears_late {n n' : Net} {l c : AssocId} {is₁ is₂ is₃ : List NetInput} {h : List Torn}
    (linked : ∃ age b, n.settled.Grown age b) (hparent : n.settled.parent c = some l)
    (run : teardown.exec n (is₁ ++ .call l .destroy :: (is₂ ++ .call c .destroy :: is₃)) =
      some (n', h)) : ∃ id, .call (.dangling id) ∈ h := by
  obtain ⟨age, b, grown⟩ := linked
  obtain ⟨m, h₁, h₂, run₁, later, rfl⟩ := Machine.exec_append.mp run
  obtain ⟨m', o, h₃, step, behind, rfl⟩ := Machine.exec_cons.mp later
  obtain ⟨m₂, h₄, h₅, run₂, last, rfl⟩ := Machine.exec_append.mp behind
  obtain ⟨m₃, o', h₆, step', -, rfl⟩ := Machine.exec_cons.mp last
  have grown₁ := teardown_grown grown run₁
  have idle := teardown_idle step
  cases hl : m.settled.alive l with
  | false =>
    refine ⟨l, ?_⟩
    have fault := teardown_dangling step hl
    simp only [List.mem_append]
    exact .inr (.inl fault)
  | true =>
    refine ⟨c, ?_⟩
    have hl' : m.forest.alive l = true := Net.settled_idle idle ▸ hl
    have after : m'.settled = m.settled.destroy l := by
      obtain ⟨next, htear, heq⟩ := Option.map_eq_some_iff.mp step
      obtain ⟨rfl, -⟩ := Prod.mk.inj heq
      simp only [Net.tear, idle, if_true] at htear
      cases htear
      rw [(Net.forest_destroy hl').2 idle, Net.settled_idle idle]
    have dead : m₂.settled.alive c = false := by
      cases hc : m₂.settled.alive c with
      | false => rfl
      | true =>
        have hc' := (teardown_mono run₂).2 c hc
        rw [after, Forest.destroy_alive] at hc'
        obtain ⟨-, unlisted, hlive⟩ := hc'
        have hparent' : m.settled.parent c = some l := (teardown_mono run₁).1 ▸ hparent
        exact absurd ((grown₁.linked.exact l hl c).mpr ⟨hlive, hparent'⟩) unlisted
    have fault := teardown_dangling step' dead
    simp only [List.mem_append]
    exact .inr (.inr (.inr (.inl fault)))

/-- The inputs of a teardown, split where two `Z_Assoc`s go. -/
theorem destroyed_split {is : List NetInput} (pre mid : List AssocId) {post : List AssocId}
    {x y : AssocId} (each : destroyed is = pre ++ x :: (mid ++ y :: post)) : ∃ is₁ is₂ is₃,
      is = is₁ ++ .call x .destroy :: (is₂ ++ .call y .destroy :: is₃) := by
  have named : ∀ {i : NetInput} {z : AssocId}, i.destroys? = some z → i = .call z .destroy := by
    intro i z hi
    cases i with
    | call id j =>
      cases j <;> first | cases hi; rfl | cases hi
    | _ => cases hi
  obtain ⟨is₁, later, rfl, -, hlater⟩ := List.filterMap_eq_append_iff.mp each
  obtain ⟨is₂, i, behind, rfl, -, hi, hbehind⟩ := List.filterMap_eq_cons_iff.mp hlater
  obtain ⟨is₃, last, rfl, -, hlast⟩ := List.filterMap_eq_append_iff.mp hbehind
  obtain ⟨is₄, j, is₅, rfl, -, hj, -⟩ := List.filterMap_eq_cons_iff.mp hlast
  refine ⟨is₁ ++ is₂, is₃ ++ is₄, is₅, ?_⟩
  rw [named hi, named hj]
  simp only [List.append_assoc]

/-- **Each association deleted exactly once**: for every listener with sessions, in every state that
a program reaches, the `Z_Assoc`s go well in a given order if and only if the listener's goes
last. -/
theorem deleted_once_iff {is : List NetInput} {n : Net} {h : List NetCall}
    (run : (net.restrict Net.ownsSession).Run Net.Born is n h) (idle : n.agenda = [])
    {l : AssocId} {s : Sys} (hs : n.assocs l = some s) (halive : s.alive = true)
    (root : ∀ q, s.assoc.parent = some q → ∃ t, n.assocs q = some t ∧ t.alive = true)
    {order : List AssocId} (each : order.Perm (l :: s.assoc.children)) :
    DeletedOnce n order ↔ order.getLast? = some l := by
  obtain ⟨age, b, grown⟩ := (Net.rooted_run run).grown idle
  obtain ⟨-, alive, parent, children, -⟩ := Net.forest_at hs
  have hl : n.forest.alive l = true := alive.trans halive
  have children' : n.forest.children l = s.assoc.children := children
  have unlisted : l ∉ n.forest.children l := fun hmem =>
    grown.parent_ne (grown.listed hl hmem).2.1 rfl
  have once : (l :: n.forest.children l).Nodup :=
    List.nodup_cons.mpr ⟨unlisted, grown.linked.once l hl⟩
  rw [← children'] at each
  have onceOrder := each.nodup_iff.mpr once
  have settled : ∃ age b, n.settled.Grown age b := ⟨age, b, Net.settled_idle idle ▸ grown⟩
  constructor
  · rintro ⟨is', n', h', torn⟩
    obtain ⟨pre, post, rfl⟩ := List.append_of_mem (each.mem_iff.mpr List.mem_cons_self)
    cases post with
    | nil => simp
    | cons c post =>
      -- somebody goes behind the listener, and it is one of the sessions
      have hmem : c ∈ l :: n.forest.children l := each.mem_iff.mp (by simp)
      have other : c ≠ l := by
        rintro rfl
        simp [List.nodup_append] at onceOrder
      have hc := (List.mem_cons.mp hmem).resolve_left other
      have hparent : n.settled.parent c = some l := by
        rw [Net.settled_idle idle]
        exact (grown.listed hl hc).2.1
      obtain ⟨is₁, is₂, is₃, rfl⟩ := destroyed_split pre [] torn.each
      obtain ⟨id, fault⟩ := tears_late settled hparent torn.run
      exact absurd fault (torn.there id)
  · intro last
    obtain ⟨cs, rfl⟩ := List.getLast?_eq_some_iff.mp last
    have each' : cs.Perm (n.forest.children l) := by
      have moved : (cs ++ [l]).Perm (l :: cs) := List.perm_append_singleton l cs
      exact (List.perm_cons l).mp (moved.symm.trans each)
    have root' : ∀ q, n.forest.parent l = some q → n.forest.alive q = true := by
      intro q hq
      obtain ⟨t, ht, hlive⟩ := root q (parent.symm.trans hq)
      exact (Net.forest_at ht).2.1.trans hlive
    have orderly := Forest.orderly_last grown hl root' each'
    obtain ⟨is', n', h', run', each'', idle', quiet, -, once'⟩ :=
      tears_orderly idle grown onceOrder orderly
    refine ⟨is', n', h', run', each'', idle', once', ?_, ?_, ?_⟩
    · intro id hmem
      cases quiet _ hmem
    · intro id hmem
      cases quiet _ hmem
    · rintro pre post m k rfl hpre idle''
      obtain ⟨age, b, grown⟩ := settled
      have grown' := teardown_grown grown hpre
      rw [Net.settled_idle idle''] at grown'
      exact grown'.linked

/-! ## A listener with two sessions -/

/-- The listener accepts another session. -/
def sessionsOpened : List NetInput :=
  sessionOpened ++ [.processEvent 101 [{ res := 1, output := [{}, { read := true }] }] 101
    { newLine := 3, child := 3, accept := { res := 1 }, fileno := 5 }] ++
  List.replicate 7 .route ++ [.ret { session := 3 }] ++ List.replicate 2 .route

/-- The sessions in the order they came, and then the listener. -/
theorem deleted_once_two : ∃ n h, (net.restrict Net.ownsSession).Run Net.Born sessionsOpened n h ∧
    n.agenda = [] ∧ (n.assocs 1).map (fun s => (s.alive, s.assoc.parent, s.assoc.children)) =
      some (true, none, [3, 2]) ∧ DeletedOnce n [2, 3, 1] := by
  have opened : ∃ n h, (net.restrict Net.ownsSession).Run Net.Born sessionsOpened n h ∧
      (n.agenda, (n.assocs 1).map (fun s => (s.alive, s.assoc.parent, s.assoc.children))) =
        ([], some (true, none, [3, 2])) := Machine.Run.of_exec net_born rfl
  obtain ⟨n, h, run, seen⟩ := opened
  obtain ⟨idle, seen⟩ := Prod.mk.inj seen
  refine ⟨n, h, run, idle, seen, ?_⟩
  obtain ⟨s, hs, hseen⟩ := Option.map_eq_some_iff.mp seen
  obtain ⟨halive, hparent, hchildren⟩ : s.alive = true ∧ s.assoc.parent = none ∧
      s.assoc.children = [3, 2] := by simpa using hseen
  refine (deleted_once_iff run idle hs halive ?_ ?_).mpr rfl
  · intro q hq
    cases hparent.symm.trans hq
  · rw [hchildren]
    decide

/-- The listener's `Z_Assoc` goes, and then the session's. -/
def listenerFirst : List NetInput :=
  [.call 1 .destroy] ++ List.replicate 6 .route ++ [.call 2 .destroy]

/-- **The listener first**: `destroy()` is called on the session that the listener has deleted, and
the session is deleted twice. -/
theorem deleted_twice :
    (¬ ∀ is n h, (net.restrict Net.ownsSession).Run Net.Born is n h → n.agenda = [] →
      ∀ l s, n.assocs l = some s → s.alive = true → s.assoc.parent = none →
      ∀ order : List AssocId, order.Perm (l :: s.assoc.children) → DeletedOnce n order) ∧
    ∃ n h n' k, (net.restrict Net.ownsSession).Run Net.Born sessionOpened n h ∧
      teardown.exec n listenerFirst = some (n', k) ∧ .call (.dangling 2) ∈ k ∧
      k.count (.deleted 2) = 2 := by
  have opened : ∃ n h, (net.restrict Net.ownsSession).Run Net.Born sessionOpened n h ∧
      (n.agenda, (n.assocs 1).map (fun s => (s.alive, s.assoc.parent, s.assoc.children)),
        (teardown.exec n listenerFirst).map fun next =>
          (decide (.call (.dangling 2) ∈ next.2), next.2.count (.deleted 2))) =
        ([], some (true, none, [2]), some (true, 2)) := Machine.Run.of_exec net_born rfl
  obtain ⟨n, h, run, seen⟩ := opened
  obtain ⟨idle, seen⟩ := Prod.mk.inj seen
  obtain ⟨seen, torn⟩ := Prod.mk.inj seen
  refine ⟨?_, ?_⟩
  · intro all
    obtain ⟨s, hs, hseen⟩ := Option.map_eq_some_iff.mp seen
    obtain ⟨halive, hparent, hchildren⟩ : s.alive = true ∧ s.assoc.parent = none ∧
        s.assoc.children = [2] := by simpa using hseen
    obtain ⟨is, n', k, torn⟩ := all _ n h run idle 1 s hs halive hparent [1, 2]
      (hchildren ▸ List.Perm.refl _)
    obtain ⟨age, b, grown⟩ := (Net.rooted_run run).grown idle
    obtain ⟨-, alive, -, children, -⟩ := Net.forest_at hs
    have hc : 2 ∈ n.forest.children 1 := by
      have children' : n.forest.children 1 = s.assoc.children := children
      rw [children', hchildren]
      exact List.mem_singleton_self 2
    have hparent' : n.settled.parent 2 = some 1 := by
      rw [Net.settled_idle idle]
      exact (grown.listed (alive.trans halive) hc).2.1
    obtain ⟨is₁, is₂, is₃, rfl⟩ := destroyed_split [] [] torn.each
    obtain ⟨id, fault⟩ := tears_late ⟨age, b, Net.settled_idle idle ▸ grown⟩ hparent' torn.run
    exact torn.there id fault
  · obtain ⟨⟨n', k⟩, run', hk⟩ := Option.map_eq_some_iff.mp torn
    obtain ⟨fault, twice⟩ := Prod.mk.inj hk
    exact ⟨n, h, n', k, run, run', of_decide_eq_true fault, twice⟩

end Yazpp
