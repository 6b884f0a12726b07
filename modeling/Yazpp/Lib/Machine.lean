/-!
# Machines with outputs — runs, invariants, lock step

A machine reads one input at a time, and answers with its next state and a list of outputs, or
refuses the input. What holds of a machine is said of its RUNS: the inputs read so far, the state
reached, and the history of everything it has put out. Nothing here is about any one machine.

`Machine.exec` is the computable form, a fold over a list of inputs. `Machine.Run` is the same
thing seen from the end, a start and a last step, which is the form an induction wants: an
invariant of the state AND the history (`Run.invariant`) is what every safety argument carries.

`Machine.restrict` keeps the steps a condition admits, so "every run whose steps all meet the
condition" is a run of the restricted machine and not a side condition on a list.

`Machine.Refines` is the rule for a machine and a simpler one that says what it is for: when every
step puts out the same and keeps a relation between the states, every run does (`Refines.exec`).

`Machine.LockStep` is the two-run rule: a relation between two states that every input preserves
while the visible outputs agree makes the two states indistinguishable
(`LockStep.indistinguishable`).
-/

set_option autoImplicit false

namespace Yazpp.Lib

/-- A deterministic machine: one input, one step, a list of outputs; `none` refuses the input. -/
structure Machine (σ ι ο : Type) where
  step : σ → ι → Option (σ × List ο)

namespace Machine

variable {σ ι ο : Type}

/-- A list of inputs read in order: the last state and everything put out on the way. -/
def exec (m : Machine σ ι ο) (s : σ) : List ι → Option (σ × List ο)
  | [] => some (s, [])
  | i :: is =>
    match m.step s i with
    | none => none
    | some (s₁, o₁) =>
      match m.exec s₁ is with
      | none => none
      | some (s₂, o₂) => some (s₂, o₁ ++ o₂)

/-- The machine that takes only the steps `p` admits. -/
def restrict (m : Machine σ ι ο) (p : σ → ι → Bool) : Machine σ ι ο where
  step s i := if p s i then m.step s i else none

/-- A run from a start: the inputs read, the state reached, the history put out. A start may
carry a history of its own. -/
inductive Run (m : Machine σ ι ο) (start : σ → List ο → Prop) : List ι → σ → List ο → Prop
  | start {s : σ} {h : List ο} : start s h → Run m start [] s h
  | step {is : List ι} {s s' : σ} {h o : List ο} {i : ι} :
      Run m start is s h → m.step s i = some (s', o) → Run m start (is ++ [i]) s' (h ++ o)

/-! ## One step, and a list of them -/

/-- Reading nothing. -/
theorem exec_nil {m : Machine σ ι ο} {s : σ} : m.exec s [] = some (s, []) := rfl

/-- Reading one input first: the step, then the rest. -/
theorem exec_cons {m : Machine σ ι ο} {s : σ} {i : ι} {is : List ι} {s' : σ} {h : List ο} :
    m.exec s (i :: is) = some (s', h) ↔
      ∃ s₁ o₁ o₂, m.step s i = some (s₁, o₁) ∧ m.exec s₁ is = some (s', o₂) ∧ h = o₁ ++ o₂ := by
  constructor
  · intro hx
    simp only [exec] at hx
    split at hx
    · cases hx
    · next s₁ o₁ hs =>
      split at hx
      · cases hx
      · next s₂ o₂ hr =>
        cases hx
        exact ⟨s₁, o₁, o₂, hs, hr, rfl⟩
  · rintro ⟨s₁, o₁, o₂, hs, hr, rfl⟩
    simp only [exec, hs, hr]

/-- A list of inputs in two parts. -/
theorem exec_append {m : Machine σ ι ο} {s : σ} {is js : List ι} {s' : σ} {h : List ο} :
    m.exec s (is ++ js) = some (s', h) ↔
      ∃ t o₁ o₂, m.exec s is = some (t, o₁) ∧ m.exec t js = some (s', o₂) ∧ h = o₁ ++ o₂ := by
  induction is generalizing s h with
  | nil =>
    constructor
    · intro hx
      exact ⟨s, [], h, rfl, hx, rfl⟩
    · rintro ⟨t, o₁, o₂, hfirst, hrest, rfl⟩
      cases hfirst
      exact hrest
  | cons i is ih =>
    rw [List.cons_append, exec_cons]
    constructor
    · rintro ⟨s₁, o₁, o₂, hs, hr, rfl⟩
      obtain ⟨t, p₁, p₂, hfirst, hrest, rfl⟩ := ih.mp hr
      exact ⟨t, o₁ ++ p₁, p₂, exec_cons.mpr ⟨s₁, o₁, p₁, hs, hfirst, rfl⟩, hrest,
        (List.append_assoc ..).symm⟩
    · rintro ⟨t, o₁, o₂, hfirst, hrest, rfl⟩
      obtain ⟨s₁, p₁, p₂, hs, hr, rfl⟩ := exec_cons.mp hfirst
      exact ⟨s₁, p₁, p₂ ++ o₂, hs, ih.mpr ⟨t, p₂, o₂, hr, hrest, rfl⟩, List.append_assoc ..⟩

/-- One more input at the end. -/
theorem exec_snoc {m : Machine σ ι ο} {s s' s'' : σ} {is : List ι} {h o : List ο} {i : ι}
    (run : m.exec s is = some (s', h)) (hstep : m.step s' i = some (s'', o)) :
    m.exec s (is ++ [i]) = some (s'', h ++ o) :=
  exec_append.mpr ⟨s', h, o, run,
    exec_cons.mpr ⟨s'', o, [], hstep, rfl, (List.append_nil o).symm⟩, rfl⟩

/-- What was put out was put out by one of the steps. -/
theorem exec_mem {m : Machine σ ι ο} {s s' : σ} {is : List ι} {h : List ο} {o : ο}
    (run : m.exec s is = some (s', h)) (hmem : o ∈ h) :
    ∃ pre i post mid k next os, is = pre ++ i :: post ∧ m.exec s pre = some (mid, k) ∧
      m.step mid i = some (next, os) ∧ o ∈ os := by
  induction is generalizing s h with
  | nil =>
    cases run
    cases hmem
  | cons i is ih =>
    obtain ⟨s₁, o₁, o₂, hs, hr, rfl⟩ := exec_cons.mp run
    rcases List.mem_append.mp hmem with hmem | hmem
    · exact ⟨[], i, is, s, [], s₁, o₁, rfl, rfl, hs, hmem⟩
    · obtain ⟨pre, j, post, mid, k, next, os, rfl, hpre, hj, hos⟩ := ih hr hmem
      exact ⟨i :: pre, j, post, mid, o₁ ++ k, next, os, rfl,
        exec_cons.mpr ⟨s₁, o₁, k, hs, hpre, rfl⟩, hj, hos⟩

/-- A step of a run: what it puts out is put out by the run. -/
theorem exec_split {m : Machine σ ι ο} {s s' : σ} {pre post : List ι} {i : ι} {h : List ο}
    (run : m.exec s (pre ++ i :: post) = some (s', h)) :
    ∃ mid k next os, m.exec s pre = some (mid, k) ∧ m.step mid i = some (next, os) ∧ os ⊆ h := by
  obtain ⟨mid, k, rest, hpre, hrest, rfl⟩ := exec_append.mp run
  obtain ⟨next, os, later, hstep, -, rfl⟩ := exec_cons.mp hrest
  exact ⟨mid, k, next, os, hpre, hstep, fun o ho =>
    List.mem_append_right _ (List.mem_append_left _ ho)⟩

/-! ## Runs -/

/-- A run goes on through any list of inputs the machine accepts. -/
theorem Run.exec {m : Machine σ ι ο} {start : σ → List ο → Prop} {is js : List ι} {s s' : σ}
    {h k : List ο} (run : m.Run start is s h) (next : m.exec s js = some (s', k)) :
    m.Run start (is ++ js) s' (h ++ k) := by
  induction js generalizing is s h k with
  | nil =>
    cases next
    simpa only [List.append_nil] using run
  | cons j js ih =>
    obtain ⟨t, o₁, o₂, hs, hr, rfl⟩ := exec_cons.mp next
    have longer := ih (run.step hs) hr
    simpa only [List.append_assoc, List.singleton_append] using longer

/-- A run read off a computation, of which only what `f` keeps is named. -/
theorem Run.of_exec {m : Machine σ ι ο} {start : σ → List ο → Prop} {s : σ} {is : List ι}
    {α : Type} {f : σ → List ο → α} {a : α} (born : start s [])
    (computed : (m.exec s is).map (fun next => f next.1 next.2) = some a) :
    ∃ s' h, m.Run start is s' h ∧ f s' h = a := by
  obtain ⟨⟨s', h⟩, run, hf⟩ := Option.map_eq_some_iff.mp computed
  exact ⟨s', h, (Run.start born).exec run, hf⟩

/-- **The invariant rule**: what holds of every start, and is kept by every step together with
what the step puts out, holds at every point of every run. -/
theorem Run.invariant {m : Machine σ ι ο} {start : σ → List ο → Prop} (Inv : σ → List ο → Prop)
    (init : ∀ s h, start s h → Inv s h)
    (keep : ∀ s h i s' o, Inv s h → m.step s i = some (s', o) → Inv s' (h ++ o))
    {is : List ι} {s : σ} {h : List ο} (run : m.Run start is s h) : Inv s h := by
  induction run with
  | start hs => exact init _ _ hs
  | step _ hstep ih => exact keep _ _ _ _ _ ih hstep

/-- The invariant rule for a list of inputs read from one state, with what came before it. -/
theorem exec_invariant {m : Machine σ ι ο} (Inv : σ → List ο → Prop)
    (keep : ∀ s h i s' o, Inv s h → m.step s i = some (s', o) → Inv s' (h ++ o))
    {is : List ι} {s s' : σ} {h k : List ο} (now : Inv s h) (next : m.exec s is = some (s', k)) :
    Inv s' (h ++ k) := by
  induction is generalizing s h k with
  | nil =>
    cases next
    simpa only [List.append_nil] using now
  | cons i is ih =>
    obtain ⟨t, o₁, o₂, hs, hr, rfl⟩ := exec_cons.mp next
    have later := ih (keep s h i t o₁ now hs) hr
    simpa only [List.append_assoc] using later

/-- An admitted step of the restricted machine is a step of the machine. -/
theorem restrict_step {m : Machine σ ι ο} {p : σ → ι → Bool} {s s' : σ} {i : ι} {o : List ο} :
    (m.restrict p).step s i = some (s', o) ↔ p s i = true ∧ m.step s i = some (s', o) := by
  by_cases hp : p s i = true
  · simp only [restrict, hp, if_true, true_and]
  · simp only [restrict, hp, Bool.false_eq_true, if_false, reduceCtorEq, false_and]

/-- The invariant rule for runs whose steps all meet a condition. -/
theorem Run.invariant_restrict {m : Machine σ ι ο} {p : σ → ι → Bool}
    {start : σ → List ο → Prop} (Inv : σ → List ο → Prop) (init : ∀ s h, start s h → Inv s h)
    (keep : ∀ s h i s' o, Inv s h → p s i = true → m.step s i = some (s', o) → Inv s' (h ++ o))
    {is : List ι} {s : σ} {h : List ο} (run : (m.restrict p).Run start is s h) : Inv s h :=
  run.invariant Inv init fun s h i s' o inv step =>
    keep s h i s' o inv (restrict_step.mp step).1 (restrict_step.mp step).2

/-! ## Outputs step by step -/

/-- The machine that puts out one entry for each step: the input, and what it made the machine put
out. Its history is the history with the steps told apart. -/
def logged (m : Machine σ ι ο) : Machine σ ι (ι × List ο) where
  step s i := (m.step s i).map fun next => (next.1, [(i, next.2)])

theorem logged_step {m : Machine σ ι ο} {s s' : σ} {i : ι} {log : List (ι × List ο)} :
    m.logged.step s i = some (s', log) ↔ ∃ o, m.step s i = some (s', o) ∧ log = [(i, o)] := by
  simp only [logged, Option.map_eq_some_iff, Prod.exists, Prod.mk.injEq]
  constructor
  · rintro ⟨t, o, hstep, rfl, rfl⟩
    exact ⟨o, hstep, rfl⟩
  · rintro ⟨o, hstep, rfl⟩
    exact ⟨s', o, hstep, rfl, rfl⟩

/-- Every run is logged, from its start on. -/
theorem Run.logged {m : Machine σ ι ο} {start : σ → List ο → Prop} {is : List ι} {s : σ}
    {h : List ο} (run : m.Run start is s h) :
    ∃ before log, h = before ++ log.flatMap Prod.snd ∧
      m.logged.Run (fun s log => (∃ h, start s h) ∧ log = []) is s log := by
  induction run with
  | @start s h hs => exact ⟨h, [], (List.append_nil h).symm, .start ⟨⟨h, hs⟩, rfl⟩⟩
  | @step is s s' h o i _ hstep ih =>
    obtain ⟨before, log, rfl, run⟩ := ih
    refine ⟨before, log ++ [(i, o)], ?_, run.step (logged_step.mpr ⟨o, hstep, rfl⟩)⟩
    simp only [List.flatMap_append, List.flatMap_singleton, List.append_assoc]

/-- The entries of a logged run name the inputs it has read, in order. -/
theorem Run.logged_inputs {m : Machine σ ι ο} {start : σ → List (ι × List ο) → Prop}
    (empty : ∀ s log, start s log → log = []) {is : List ι} {s : σ} {log : List (ι × List ο)}
    (run : m.logged.Run start is s log) : log.map Prod.fst = is := by
  induction run with
  | start hs => rw [empty _ _ hs, List.map_nil]
  | step _ hstep ih =>
    obtain ⟨o, -, rfl⟩ := logged_step.mp hstep
    rw [List.map_append, ih]
    rfl

/-! ## One machine refines another -/

/-- Related states accept the same inputs; what they put out is the same, and the next states are
related again. -/
def Refines {τ : Type} (m : Machine σ ι ο) (n : Machine τ ι ο) (R : σ → τ → Prop) : Prop :=
  ∀ s t i, R s t → Option.Rel (fun x y => R x.1 y.1 ∧ x.2 = y.2) (m.step s i) (n.step t i)

/-- **Refinement over runs**: related states put out the same over any list of inputs, or both
refuse one of them. -/
theorem Refines.exec {τ : Type} {m : Machine σ ι ο} {n : Machine τ ι ο} {R : σ → τ → Prop}
    (refines : m.Refines n R) (is : List ι) :
    ∀ {s : σ} {t : τ}, R s t →
      Option.Rel (fun x y => R x.1 y.1 ∧ x.2 = y.2) (m.exec s is) (n.exec t is) := by
  induction is with
  | nil => exact fun rel => .some ⟨rel, rfl⟩
  | cons i is ih =>
    intro s t rel
    have hstep := refines s t i rel
    unfold Machine.exec
    cases hm : m.step s i <;> cases hn : n.step t i <;> rw [hm, hn] at hstep
    case none.none => exact .none
    case none.some => nomatch hstep
    case some.none => nomatch hstep
    case some.some x y =>
      obtain ⟨s₁, o⟩ := x
      obtain ⟨t₁, o'⟩ := y
      obtain ⟨rel₁, rfl⟩ : R s₁ t₁ ∧ o = o' := by
        cases hstep with
        | some h => exact h
      have hrest := ih rel₁
      dsimp only
      cases hm' : m.exec s₁ is <;> cases hn' : n.exec t₁ is <;> rw [hm', hn'] at hrest
      case none.none => exact .none
      case none.some => nomatch hrest
      case some.none => nomatch hrest
      case some.some x y =>
        cases hrest with
        | some h => exact .some ⟨h.1, by rw [h.2]⟩

/-- The machine with its outputs renamed. -/
def rename {ο' : Type} (m : Machine σ ι ο) (f : ο → ο') : Machine σ ι ο' where
  step s i := (m.step s i).map fun next => (next.1, next.2.map f)

/-- A run puts out the same, renamed. -/
theorem exec_rename {ο' : Type} (m : Machine σ ι ο) (f : ο → ο') (is : List ι) :
    ∀ s, (m.rename f).exec s is = (m.exec s is).map fun next => (next.1, next.2.map f) := by
  induction is with
  | nil => exact fun s => rfl
  | cons i is ih =>
    intro s
    simp only [exec, rename]
    cases m.step s i with
    | none => rfl
    | some next =>
      dsimp only [Option.map_some]
      have hrest := ih next.1
      unfold rename at hrest
      rw [hrest]
      cases m.exec next.1 is with
      | none => rfl
      | some last => simp

/-! ## Two runs in lock step -/

/-- Two states in lock step under `R`: whatever input one accepts the other accepts, what they
put out looks the same through `view`, and the next states are related again. -/
structure LockStep (m : Machine σ ι ο) {ω : Type} (view : List ο → ω) (R : σ → σ → Prop) :
    Prop where
  refuse : ∀ s t i, R s t → m.step s i = none → m.step t i = none
  accept : ∀ s t i s' o, R s t → m.step s i = some (s', o) →
    ∃ t' o', m.step t i = some (t', o') ∧ view o' = view o ∧ R s' t'

/-- What a list of inputs makes visible, step by step; refused inputs are visible as refusals. -/
def trace (m : Machine σ ι ο) {ω : Type} (view : List ο → ω) (s : σ) : List ι → List (Option ω)
  | [] => []
  | i :: is =>
    match m.step s i with
    | none => [none]
    | some (s', o) => some (view o) :: m.trace view s' is

/-- **Lock step is indistinguishability**: related states make the same things visible on every
list of inputs. -/
theorem LockStep.trace_eq {m : Machine σ ι ο} {ω : Type} {view : List ο → ω} {R : σ → σ → Prop}
    (lock : m.LockStep view R) : ∀ (is : List ι) {s t : σ}, R s t →
      m.trace view s is = m.trace view t is
  | [], _, _, _ => rfl
  | i :: is, s, t, rel => by
    cases hs : m.step s i with
    | none => simp only [trace, hs, lock.refuse s t i rel hs]
    | some next =>
      obtain ⟨s', o⟩ := next
      obtain ⟨t', o', ht, hview, rel'⟩ := lock.accept s t i s' o rel hs
      simp only [trace, hs, ht, hview, lock.trace_eq is rel']

/-- Two states that no list of inputs tells apart through `view`. -/
def Indistinguishable (m : Machine σ ι ο) {ω : Type} (view : List ο → ω) (s t : σ) : Prop :=
  ∀ is, m.trace view s is = m.trace view t is

/-- A step both take looks the same, and leads to states that nothing tells apart. -/
theorem Indistinguishable.step {m : Machine σ ι ο} {ω : Type} {view : List ο → ω} {s t s' t' : σ}
    {i : ι} {o p : List ο} (same : m.Indistinguishable view s t)
    (left : m.step s i = some (s', o)) (right : m.step t i = some (t', p)) :
    view o = view p ∧ m.Indistinguishable view s' t' := by
  have longer : ∀ is, view o = view p ∧ m.trace view s' is = m.trace view t' is := fun is => by
    simpa only [trace, left, right, List.cons.injEq, Option.some.injEq] using same (i :: is)
  exact ⟨(longer []).1, fun is => (longer is).2⟩

/-- Related states of a lock step are indistinguishable. -/
theorem LockStep.indistinguishable {m : Machine σ ι ο} {ω : Type} {view : List ο → ω}
    {R : σ → σ → Prop} (lock : m.LockStep view R) {s t : σ} (rel : R s t) :
    m.Indistinguishable view s t :=
  fun is => lock.trace_eq is rel

end Machine

end Yazpp.Lib
