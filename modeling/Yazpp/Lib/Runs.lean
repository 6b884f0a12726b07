import Mathlib.Data.List.Basic

/-!
# The maximal runs of a list

The elements of a list that satisfy a predicate stand in runs, with gaps around them. `Runs` says
which lists are the maximal runs of a list, in order; `runs` computes them. There is one answer to a
list (`runs_iff`), and no more runs than elements (`length_runs_le`).

A scan that reads the list from the left holds the run that it is in. What it needs is how `runs`
reads a list behind such a run: nothing is left (`runs_of_forall`), or a gap begins
(`runs_append_cons`). In between, what it holds is the front of a run (`exists_mem_runs_le`).
-/

set_option autoImplicit false

namespace Yazpp.Lib

variable {α : Type} {p : α → Bool}

/-- The maximal runs of a list: behind a gap there is nothing, or a run, which ends where the list
ends or an element does not belong to it. -/
inductive Runs (p : α → Bool) : List α → List (List α) → Prop
  | gap {g : List α} : (∀ a ∈ g, p a = false) → Runs p g []
  | run {g w l : List α} {ws : List (List α)} :
      (∀ a ∈ g, p a = false) → w ≠ [] → (∀ a ∈ w, p a) → (∀ a ∈ l.head?, p a = false) →
      Runs p l ws → Runs p (g ++ w ++ l) (w :: ws)

/-- The maximal runs, computed: the pieces between the other elements that are not empty. -/
def runs (p : α → Bool) (l : List α) : List (List α) :=
  (l.splitOnP fun a => !p a).filter fun w => !w.isEmpty

/-- A list as the runs that it is where all of it is one piece: none, where it is empty. -/
def piece (w : List α) : List (List α) := if w.isEmpty then [] else [w]

@[simp] theorem piece_nil : piece ([] : List α) = [] := rfl

@[simp] theorem piece_of_ne_nil {w : List α} (h : w ≠ []) : piece w = [w] := by
  simp [piece, h]

/-! ## Behind a run -/

/-- Nothing is left. -/
theorem runs_of_forall {w : List α} (h : ∀ a ∈ w, p a) : runs p w = piece w := by
  unfold runs
  rw [List.splitOnP_eq_singleton fun a ha => by simp [h a ha]]
  cases w <;> rfl

/-- A gap begins. -/
theorem runs_append_cons {w : List α} (h : ∀ a ∈ w, p a) {b : α} (hb : p b = false) (l : List α) :
    runs p (w ++ b :: l) = piece w ++ runs p l := by
  unfold runs
  rw [List.splitOnP_append_cons_of_forall_mem (fun a ha => by simp [h a ha]) b (by simp [hb])]
  cases w <;> rfl

@[simp] theorem runs_nil : runs p [] = [] := rfl

/-- An element in front that belongs to no run. -/
theorem runs_cons_gap {b : α} (hb : p b = false) (l : List α) : runs p (b :: l) = runs p l :=
  runs_append_cons (w := []) (fun _ h => nomatch h) hb l

theorem runs_append_gap {g : List α} (hg : ∀ a ∈ g, p a = false) (l : List α) :
    runs p (g ++ l) = runs p l := by
  induction g with
  | nil => rfl
  | cons b g ih =>
    rw [List.cons_append, runs_cons_gap (hg b (List.mem_cons_self ..))]
    exact ih fun a ha => hg a (List.mem_cons_of_mem _ ha)

/-! ## The runs that are computed -/

/-- A gap gets longer. -/
theorem Runs.cons_gap {b : α} {l : List α} {ws : List (List α)} (h : Runs p l ws)
    (hb : p b = false) : Runs p (b :: l) ws := by
  cases h with
  | gap hg => exact .gap fun a ha => (List.mem_cons.mp ha).elim (fun e => e ▸ hb) (hg a)
  | @run g w l ws hg hw hall hl hrest =>
    exact .run (g := b :: g)
      (fun a ha => (List.mem_cons.mp ha).elim (fun e => e ▸ hb) (hg a)) hw hall hl hrest

/-- What is computed are the runs, by induction on what is behind the run that has begun. -/
theorem runs_append_spec (l : List α) :
    ∀ {w : List α}, (∀ a ∈ w, p a) → Runs p (w ++ l) (runs p (w ++ l)) := by
  induction l with
  | nil =>
    intro w hw
    rw [List.append_nil, runs_of_forall hw]
    rcases eq_or_ne w [] with rfl | hne
    · exact .gap fun _ h => nomatch h
    · have : Runs p ([] ++ w ++ []) [w] :=
        .run (fun _ h => nomatch h) hne hw (fun _ h => nomatch h) (.gap fun _ h => nomatch h)
      simpa [hne] using this
  | cons b l ih =>
    intro w hw
    cases hb : p b with
    | true =>
      have := ih (w := w ++ [b]) fun a ha =>
        (List.mem_append.mp ha).elim (hw a) fun h => List.mem_singleton.mp h ▸ hb
      simpa using this
    | false =>
      have hrest : Runs p (b :: l) (runs p l) := (ih (w := []) fun _ h => nomatch h).cons_gap hb
      rw [runs_append_cons hw hb]
      rcases eq_or_ne w [] with rfl | hne
      · exact hrest
      · have : Runs p ([] ++ w ++ b :: l) (w :: runs p l) :=
          .run (fun _ h => nomatch h) hne hw (fun a ha => by cases ha; exact hb) hrest
        simpa [hne] using this

/-- The runs of a list are what is computed, and nothing else is. -/
theorem runs_iff {l : List α} {ws : List (List α)} : Runs p l ws ↔ ws = runs p l := by
  constructor
  · intro h
    induction h with
    | @gap g hg => simpa using (runs_append_gap hg []).symm
    | @run g w l ws hg hw hall hl hrest ih =>
      rw [List.append_assoc, runs_append_gap hg]
      cases l with
      | nil =>
        rw [List.append_nil, runs_of_forall hall, piece_of_ne_nil hw, ih]
        rfl
      | cons b l =>
        have hb : p b = false := hl b rfl
        rw [runs_append_cons hall hb, piece_of_ne_nil hw, ih, runs_cons_gap hb]
        rfl
  · rintro rfl
    exact runs_append_spec l (w := []) fun _ h => nomatch h

/-! ## How many, and how long -/

/-- A run has an element of its own. -/
theorem Runs.length_le {l : List α} {ws : List (List α)} (h : Runs p l ws) :
    ws.length ≤ l.length := by
  induction h with
  | gap => exact Nat.zero_le _
  | run hg hw hall hl hrest ih =>
    have := List.length_pos_iff.mpr hw
    simp only [List.length_cons, List.length_append]
    omega

/-- There are no more runs than elements. -/
theorem length_runs_le (l : List α) : (runs p l).length ≤ l.length :=
  (runs_iff.mpr rfl).length_le

/-- A run that has begun ends in one that is at least as long. -/
theorem exists_mem_runs_le {w : List α} (hne : w ≠ []) (l : List α) (hw : ∀ a ∈ w, p a) :
    ∃ r ∈ runs p (w ++ l), w.length ≤ r.length := by
  induction l generalizing w with
  | nil => exact ⟨w, by simp [runs_of_forall hw, hne], Nat.le_refl _⟩
  | cons b l ih =>
    cases hb : p b with
    | true =>
      obtain ⟨r, hr, hle⟩ := ih (w := w ++ [b]) (by simp) fun a ha =>
        (List.mem_append.mp ha).elim (hw a) fun h => List.mem_singleton.mp h ▸ hb
      rw [List.append_assoc] at hr
      simp only [List.length_append] at hle
      exact ⟨r, hr, by omega⟩
    | false =>
      refine ⟨w, ?_, Nat.le_refl _⟩
      rw [runs_append_cons hw hb, piece_of_ne_nil hne]
      exact List.mem_cons_self ..

end Yazpp.Lib
