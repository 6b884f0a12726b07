/-!
# A search whose test may fault

A list is searched from its front for the first element on which a test holds. The test may fault,
and then the search does; so it never gets to a fault that stands behind an element it stops at.
What a search finds is told by the elements in front of it (`search_eq_some`, `search_eq_none`), and
a search comes to an end exactly when every element with a fault stands behind one on which the test
holds (`search_returns_iff`). Nothing here is about any one program.
-/

set_option autoImplicit false

namespace Yazpp.Lib

variable {α φ : Type} {test : α → Except φ Bool}

/-- The first element on which the test holds. -/
def search (test : α → Except φ Bool) : List α → Except φ (Option α)
  | [] => .ok none
  | x :: l =>
    match test x with
    | .error fault => .error fault
    | .ok true => .ok (some x)
    | .ok false => search test l

theorem search_cons_true {x : α} (l : List α) (holds : test x = .ok true) :
    search test (x :: l) = .ok (some x) := by
  rw [search, holds]

theorem search_cons_false {x : α} (l : List α) (fails : test x = .ok false) :
    search test (x :: l) = search test l := by
  rw [search, fails]

theorem search_cons_error {x : α} {fault : φ} (l : List α) (faults : test x = .error fault) :
    search test (x :: l) = .error fault := by
  rw [search, faults]

/-- What is found: the test holds on it, and on nothing in front of it. -/
theorem search_eq_some {l : List α} {x : α} : search test l = .ok (some x) ↔
    ∃ before after, l = before ++ x :: after ∧ test x = .ok true ∧
      ∀ y ∈ before, test y = .ok false := by
  constructor
  · intro found
    induction l with
    | nil => cases found
    | cons y l ih =>
      cases hy : test y with
      | error fault =>
        rw [search_cons_error l hy] at found
        cases found
      | ok holds =>
        cases holds with
        | true =>
          rw [search_cons_true l hy] at found
          cases found
          exact ⟨[], l, rfl, hy, List.forall_mem_nil _⟩
        | false =>
          rw [search_cons_false l hy] at found
          obtain ⟨before, after, rfl, hx, none⟩ := ih found
          exact ⟨y :: before, after, rfl, hx, List.forall_mem_cons.mpr ⟨hy, none⟩⟩
  · rintro ⟨before, after, rfl, hx, none⟩
    induction before with
    | nil => exact search_cons_true after hx
    | cons y before ih =>
      obtain ⟨hy, none⟩ := List.forall_mem_cons.mp none
      rw [List.cons_append, search_cons_false _ hy]
      exact ih none

theorem search_eq_none {l : List α} :
    search test l = .ok none ↔ ∀ x ∈ l, test x = .ok false := by
  induction l with
  | nil => exact iff_of_true rfl (List.forall_mem_nil _)
  | cons x l ih =>
    rw [List.forall_mem_cons, ← ih]
    cases hx : test x with
    | error fault =>
      rw [search_cons_error l hx]
      exact iff_of_false (fun h => by cases h) fun h => by cases h.1
    | ok holds =>
      cases holds with
      | true =>
        rw [search_cons_true l hx]
        exact iff_of_false (fun h => by cases h) fun h => by cases h.1
      | false =>
        rw [search_cons_false l hx]
        exact (and_iff_right rfl).symm

/-- **A search returns** when every element with a fault stands behind one on which the test
holds. -/
theorem search_returns_iff {l : List α} : (∃ found, search test l = .ok found) ↔
    ∀ before x after, l = before ++ x :: after → (∃ fault, test x = .error fault) →
      ∃ y ∈ before, test y = .ok true := by
  induction l with
  | nil =>
    refine iff_of_true ⟨none, rfl⟩ fun before x after h => ?_
    cases before <;> cases h
  | cons x l ih =>
    cases hx : test x with
    | error fault =>
      rw [search_cons_error l hx]
      refine iff_of_false (fun ⟨_, h⟩ => by cases h) fun all => ?_
      obtain ⟨y, hy, -⟩ := all [] x l rfl ⟨fault, hx⟩
      cases hy
    | ok holds =>
      cases holds with
      | true =>
        rw [search_cons_true l hx]
        refine iff_of_true ⟨some x, rfl⟩ fun before y after h faults => ?_
        cases before with
        | nil =>
          obtain ⟨rfl, -⟩ := List.cons.inj h
          obtain ⟨fault, faults⟩ := faults
          cases hx.symm.trans faults
        | cons z before =>
          obtain ⟨rfl, -⟩ := List.cons.inj h
          exact ⟨x, List.mem_cons_self, hx⟩
      | false =>
        rw [search_cons_false l hx, ih]
        constructor
        · intro all before y after h faults
          cases before with
          | nil =>
            obtain ⟨rfl, -⟩ := List.cons.inj h
            obtain ⟨fault, faults⟩ := faults
            cases hx.symm.trans faults
          | cons z before =>
            obtain ⟨-, rfl⟩ := List.cons.inj h
            obtain ⟨w, hw, holds⟩ := all before y after rfl faults
            exact ⟨w, List.mem_cons_of_mem _ hw, holds⟩
        · intro all before y after h faults
          obtain ⟨w, hw, holds⟩ := all (x :: before) y after (congrArg (x :: ·) h) faults
          rcases List.mem_cons.mp hw with rfl | hw
          · cases hx.symm.trans holds
          · exact ⟨w, hw, holds⟩

/-! ## The newest first

A list that grows at its end, searched backwards. -/

variable {β : Type} {f : β → α} {l : List β}

/-- Where an element stands in it. -/
theorem map_reverse_eq_split {newer older : List α} {y : α} :
    (l.map f).reverse = newer ++ y :: older ↔ ∃ before x after, l = before ++ x :: after ∧
      f x = y ∧ newer = (after.map f).reverse ∧ older = (before.map f).reverse := by
  constructor
  · intro h
    have turned : l.map f = older.reverse ++ y :: newer.reverse := by
      have reversed := congrArg List.reverse h
      rwa [List.reverse_reverse, List.reverse_append, List.reverse_cons, List.append_assoc,
        List.singleton_append] at reversed
    obtain ⟨before, rest, rfl, hbefore, hrest⟩ := List.map_eq_append_iff.mp turned
    obtain ⟨x, after, rfl, hx, hafter⟩ := List.map_eq_cons_iff.mp hrest
    refine ⟨before, x, after, rfl, hx, ?_, ?_⟩
    · rw [hafter, List.reverse_reverse]
    · rw [hbefore, List.reverse_reverse]
  · rintro ⟨before, x, after, rfl, rfl, rfl, rfl⟩
    rw [List.map_append, List.map_cons, List.reverse_append, List.reverse_cons, List.append_assoc,
      List.singleton_append]

theorem mem_map_reverse {y : α} : y ∈ (l.map f).reverse ↔ ∃ x ∈ l, f x = y := by
  rw [List.mem_reverse, List.mem_map]

/-- What is found of it: the test holds on it, and on nothing newer. -/
theorem search_newest_eq_some {y : α} : search test (l.map f).reverse = .ok (some y) ↔
    ∃ before x after, l = before ++ x :: after ∧ f x = y ∧ test y = .ok true ∧
      ∀ z ∈ after, test (f z) = .ok false := by
  rw [search_eq_some]
  constructor
  · rintro ⟨newer, older, hsplit, holds, none⟩
    obtain ⟨before, x, after, hl, hx, rfl, -⟩ := map_reverse_eq_split.mp hsplit
    exact ⟨before, x, after, hl, hx, holds, fun z hz => none _ (mem_map_reverse.mpr ⟨z, hz, rfl⟩)⟩
  · rintro ⟨before, x, after, hl, hx, holds, none⟩
    refine ⟨_, _, map_reverse_eq_split.mpr ⟨before, x, after, hl, hx, rfl, rfl⟩, holds, ?_⟩
    intro y hy
    obtain ⟨z, hz, rfl⟩ := mem_map_reverse.mp hy
    exact none z hz

/-- A search of it returns when every element with a fault has a newer one on which the test
holds. -/
theorem search_newest_returns_iff : (∃ found, search test (l.map f).reverse = .ok found) ↔
    ∀ before x after, l = before ++ x :: after → (∃ fault, test (f x) = .error fault) →
      ∃ y ∈ after, test (f y) = .ok true := by
  rw [search_returns_iff]
  constructor
  · intro all before x after hl faults
    obtain ⟨y, hy, holds⟩ :=
      all _ _ _ (map_reverse_eq_split.mpr ⟨before, x, after, hl, rfl, rfl, rfl⟩) faults
    obtain ⟨z, hz, rfl⟩ := mem_map_reverse.mp hy
    exact ⟨z, hz, holds⟩
  · intro all newer y older hsplit faults
    obtain ⟨before, x, after, hl, rfl, rfl, -⟩ := map_reverse_eq_split.mp hsplit
    obtain ⟨z, hz, holds⟩ := all before x after hl faults
    exact ⟨f z, mem_map_reverse.mpr ⟨z, hz, rfl⟩, holds⟩

end Yazpp.Lib
