/-!
# Lookup by a key that others may share

A list is searched by a key, and the first element that has it is the answer. Elements behind the
first are never found: an element is found once for every element that has its key, and exactly
once when no other element has it (`countP_find?_eq_one`).

The second half is about parts of a list without repetitions: what stands before an element in the
part stands before it in the list (`sublist_before`).
-/

set_option autoImplicit false

namespace Yazpp.Lib

variable {α κ : Type} {key : α → κ} {l : List α} {x : α}

/-- Distinct keys are shared with nobody. -/
theorem alone_of_nodup (distinct : (l.map key).Nodup) (hx : x ∈ l) :
    ∀ y ∈ l, key y = key x → y = x := by
  induction l with
  | nil => cases hx
  | cons z l ih =>
    obtain ⟨hz, hl⟩ := List.nodup_cons.mp distinct
    intro y hy hkey
    rcases List.mem_cons.mp hx with rfl | hx' <;> rcases List.mem_cons.mp hy with rfl | hy'
    · rfl
    · exact absurd (hkey ▸ List.mem_map_of_mem hy') hz
    · exact absurd (hkey ▸ List.mem_map_of_mem hx') hz
    · exact ih hl hx' y hy' hkey

variable [DecidableEq κ]

/-- What is found has the key. -/
theorem key_of_find? {k : κ} (h : (l.find? fun y => key y = k) = some x) : key x = k := by
  simpa only [decide_eq_true_eq] using List.find?_some h

/-- An element that shares its key with no other is found. -/
theorem find?_key (hx : x ∈ l) (alone : ∀ y ∈ l, key y = key x → y = x) :
    (l.find? fun y => key y = key x) = some x := by
  cases hfind : l.find? fun y => key y = key x with
  | none => exact absurd (decide_eq_true rfl) (List.find?_eq_none.mp hfind x hx)
  | some y => rw [alone y (List.mem_of_find?_eq_some hfind) (key_of_find? hfind)]

/-- In a list without repetitions, an element is the only one of its key when its key occurs
once. -/
theorem countP_key_eq_one (nodup : l.Nodup) (hx : x ∈ l) :
    (l.countP fun y => key y = key x) = 1 ↔ ∀ y ∈ l, key y = key x → y = x := by
  rw [List.countP_eq_length_filter]
  have hmem : x ∈ l.filter fun y => key y = key x := List.mem_filter.mpr ⟨hx, decide_eq_true rfl⟩
  constructor
  · intro one y hy hkey
    obtain ⟨z, hz⟩ := List.length_eq_one_iff.mp one
    have hyz : y ∈ l.filter fun y => key y = key x :=
      List.mem_filter.mpr ⟨hy, decide_eq_true hkey⟩
    rw [hz] at hmem hyz
    exact (List.mem_singleton.mp hyz).trans (List.mem_singleton.mp hmem).symm
  · intro alone
    have same : ∀ y ∈ l.filter fun y => key y = key x, y = x := fun y hy =>
      alone y (List.mem_filter.mp hy).1 (of_decide_eq_true (List.mem_filter.mp hy).2)
    have hnodup := nodup.sublist (List.filter_sublist (p := fun y => key y = key x))
    match hfilter : l.filter fun y => key y = key x with
    | [] => exact absurd (hfilter ▸ hmem) List.not_mem_nil
    | [y] => rfl
    | y :: z :: rest =>
      rw [hfilter] at same hnodup
      have heq : y = z := (same y List.mem_cons_self).trans
        (same z (List.mem_cons_of_mem _ List.mem_cons_self)).symm
      exact absurd (heq ▸ List.mem_cons_self) (List.nodup_cons.mp hnodup).1

/-- **Found once**: looking up the key of every element finds an element exactly once when, and
only when, no other element has its key. -/
theorem countP_find?_eq_one [DecidableEq α] (nodup : l.Nodup) (hx : x ∈ l) :
    (l.countP fun z => (l.find? fun y => key y = key z) = some x) = 1 ↔
      ∀ y ∈ l, key y = key x → y = x := by
  rw [← countP_key_eq_one nodup hx]
  by_cases found : (l.find? fun y => key y = key x) = some x
  · have same : ∀ z ∈ l, decide ((l.find? fun y => key y = key z) = some x) = true ↔
        decide (key z = key x) = true := by
      intro z _
      rw [decide_eq_true_iff, decide_eq_true_iff]
      refine ⟨fun h => (key_of_find? h).symm, fun h => ?_⟩
      rw [h]
      exact found
    rw [List.countP_congr same]
  · -- an element behind the first of its key is found by no element, and it is not alone
    have none : (l.countP fun z => (l.find? fun y => key y = key z) = some x) = 0 := by
      rw [List.countP_eq_zero]
      intro z _ h
      have hz := of_decide_eq_true h
      exact found (key_of_find? hz ▸ hz)
    rw [none, countP_key_eq_one nodup hx]
    exact ⟨fun h => absurd h (by omega), fun alone => absurd (find?_key hx alone) found⟩

/-! ## A part of a list without repetitions -/

/-- The first occurrence of an element cuts a list in one way. -/
theorem before_eq {k₁ k₂ r₁ r₂ : List α} (hk : x ∉ k₁) (hr : x ∉ r₁)
    (h : k₁ ++ x :: k₂ = r₁ ++ x :: r₂) : k₁ = r₁ := by
  induction k₁ generalizing r₁ with
  | nil =>
    cases r₁ with
    | nil => rfl
    | cons y r₁ => exact absurd (List.cons.inj h).1 fun hxy => hr (hxy ▸ List.mem_cons_self)
  | cons y k₁ ih =>
    cases r₁ with
    | nil => exact absurd (List.cons.inj h).1 fun hyx => hk (hyx ▸ List.mem_cons_self)
    | cons z r₁ =>
      obtain ⟨rfl, rest⟩ := List.cons.inj h
      rw [ih (List.not_mem_of_not_mem_cons hk) (List.not_mem_of_not_mem_cons hr) rest]

/-- What stands before an element in a part stands before it in the whole. -/
theorem sublist_before {l₁ l₂ k₁ k₂ : List α} (nodup : (k₁ ++ x :: k₂).Nodup)
    (sub : (l₁ ++ x :: l₂).Sublist (k₁ ++ x :: k₂)) : l₁.Sublist k₁ := by
  obtain ⟨r₁, r₂, hr, hl₁, hl₂⟩ := List.append_sublist_iff.mp sub
  obtain ⟨s, t, rfl⟩ := List.append_of_mem (hl₂.subset List.mem_cons_self)
  rw [← List.append_assoc] at hr
  have fresh : ∀ {a b : List α}, (a ++ x :: b).Nodup → x ∉ a := fun nodup h =>
    (List.nodup_append.mp nodup).2.2 x h x List.mem_cons_self rfl
  rw [before_eq (fresh nodup) (fresh (hr ▸ nodup)) hr]
  exact hl₁.trans (List.sublist_append_left r₁ s)

end Yazpp.Lib
