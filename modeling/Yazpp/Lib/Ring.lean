import Mathlib.Algebra.Ring.Nat
import Mathlib.Data.List.Nodup
import Mathlib.Data.Nat.ModEq

/-!
# Rings — a list of fixed length, newest first

A `RingBuffer` is an array with the place written last. `RingBuffer.push` goes one place on, around
the end, and writes there: what was written longest ago is gone. What a ring holds is its `window`,
the values newest first, and everything a program does with a ring is a plain operation on that
list: a push is a `cons` that drops the last value (`window_push`), a change of the newest value is
`modifyHead` (`window_modify`), and a fold that does not care about the order may run over the
array (`window_perm`). Nothing here is about any one program.

The last part counts: a window of the last `n` seconds, one number for each second, holds as many
events as happened in it (`sum_count_window`).
-/

set_option autoImplicit false

namespace Yazpp.Lib

/-- An array that is written around the end, and the place written last. -/
structure RingBuffer (α : Type) where
  slots : List α
  ptr : Nat
  inRange : ptr < slots.length

namespace RingBuffer

variable {α : Type}

/-- How many values a ring holds. -/
def size (r : RingBuffer α) : Nat := r.slots.length

theorem size_pos (r : RingBuffer α) : 0 < r.size := Nat.zero_lt_of_lt r.inRange

/-- The place behind the one written last. -/
def nextPtr (r : RingBuffer α) : Nat := if r.ptr + 1 = r.size then 0 else r.ptr + 1

theorem nextPtr_lt (r : RingBuffer α) : r.nextPtr < r.slots.length := by
  have hptr := r.inRange
  unfold nextPtr size
  split <;> omega

/-- One place on, and `x` written there. -/
def push (x : α) (r : RingBuffer α) : RingBuffer α where
  slots := r.slots.set r.nextPtr x
  ptr := r.nextPtr
  inRange := by
    rw [List.length_set]
    exact r.nextPtr_lt

/-- `n` places on, and `x` written in each. -/
def pushes (x : α) : Nat → RingBuffer α → RingBuffer α
  | 0, r => r
  | n + 1, r => pushes x n (r.push x)

/-- The newest value changed in place. -/
def modify (f : α → α) (r : RingBuffer α) : RingBuffer α where
  slots := r.slots.set r.ptr (f (r.slots.get ⟨r.ptr, r.inRange⟩))
  ptr := r.ptr
  inRange := by
    rw [List.length_set]
    exact r.inRange

/-- The values, newest first. -/
def window (r : RingBuffer α) : List α :=
  (r.slots.take (r.ptr + 1)).reverse ++ (r.slots.drop (r.ptr + 1)).reverse

/-! ## The window -/

theorem take_set_succ {l : List α} {x : α} {i : Nat} (h : i < l.length) :
    (l.set i x).take (i + 1) = l.take i ++ [x] := by
  rw [List.take_succ_eq_append_getElem (by rwa [List.length_set]), List.getElem_set_self,
    List.take_set_of_le (Nat.le_refl i)]

theorem drop_set_succ {l : List α} {x : α} {i : Nat} : (l.set i x).drop (i + 1) = l.drop (i + 1) :=
  List.drop_set_of_lt (Nat.lt_succ_self i)

/-- The window holds what the array holds. -/
theorem window_perm (r : RingBuffer α) : r.window.Perm r.slots := by
  have both : (r.slots.take (r.ptr + 1) ++ r.slots.drop (r.ptr + 1)).Perm r.slots := by
    rw [List.take_append_drop]
  exact ((List.reverse_perm _).append (List.reverse_perm _)).trans both

@[simp] theorem length_window (r : RingBuffer α) : r.window.length = r.size :=
  r.window_perm.length_eq

@[simp] theorem size_push (x : α) (r : RingBuffer α) : (r.push x).size = r.size :=
  List.length_set

@[simp] theorem size_modify (f : α → α) (r : RingBuffer α) : (r.modify f).size = r.size :=
  List.length_set

@[simp] theorem size_pushes (x : α) (n : Nat) (r : RingBuffer α) :
    (r.pushes x n).size = r.size := by
  induction n generalizing r with
  | zero => rfl
  | succ n ih => rw [pushes, ih, size_push]

/-- A push puts `x` in front and drops the oldest value. -/
theorem window_push (x : α) (r : RingBuffer α) : (r.push x).window = x :: r.window.dropLast := by
  have hptr := r.inRange
  by_cases hlast : r.ptr + 1 = r.size
  · -- around the end: the place written next is the first one of the array
    have hnext : r.nextPtr = 0 := if_pos hlast
    have hdrop : r.slots.drop (r.ptr + 1) = [] := List.drop_eq_nil_of_le (Nat.le_of_eq hlast.symm)
    have htake : r.slots.take (r.ptr + 1) = r.slots :=
      List.take_of_length_le (Nat.le_of_eq hlast.symm)
    simp only [window, push, hnext, hdrop, htake, List.reverse_nil, List.append_nil]
    cases hs : r.slots with
    | nil => simp [hs] at hptr
    | cons y ys =>
      simp only [List.set_cons_zero, List.take_succ_cons, List.drop_succ_cons, List.take_zero,
        List.drop_zero, List.reverse_cons, List.reverse_nil, List.nil_append, List.singleton_append,
        List.dropLast_concat]
  · have hnext : r.nextPtr = r.ptr + 1 := if_neg hlast
    have hlt : r.ptr + 1 < r.slots.length := Nat.lt_of_le_of_ne hptr hlast
    have hne : (r.slots.drop (r.ptr + 1)).reverse ≠ [] := by
      rw [Ne, List.reverse_eq_nil_iff, List.drop_eq_nil_iff]
      exact Nat.not_le.mpr hlt
    simp only [window, push, hnext, take_set_succ hlt, drop_set_succ, List.reverse_append,
      List.reverse_singleton, List.nil_append, List.cons_append]
    rw [List.dropLast_append_of_ne_nil hne, List.dropLast_reverse, List.tail_drop]

/-- `n` pushes put `n` values in front. -/
theorem window_pushes (x : α) (n : Nat) (r : RingBuffer α) (hn : n ≤ r.size) :
    (r.pushes x n).window = List.replicate n x ++ r.window.take (r.size - n) := by
  induction n generalizing r with
  | zero =>
    rw [pushes, List.replicate_zero, List.nil_append, Nat.sub_zero, ← length_window,
      List.take_length]
  | succ n ih =>
    have hshort : r.size - n = r.size - (n + 1) + 1 := by omega
    have hlast : List.replicate n x ++ [x] = List.replicate (n + 1) x :=
      List.replicate_succ'.symm
    rw [pushes, ih (r.push x) (by rw [size_push]; omega), size_push, window_push, hshort,
      List.take_succ_cons, List.append_cons, hlast, List.dropLast_eq_take, List.take_take,
      length_window, Nat.min_eq_left (by omega)]

/-- What a push keeps, any number of them keep. -/
theorem pushes_invariant {P : RingBuffer α → Prop} {x : α} (keep : ∀ r, P r → P (r.push x))
    (n : Nat) {r : RingBuffer α} (h : P r) : P (r.pushes x n) := by
  induction n generalizing r with
  | zero => exact h
  | succ n ih => exact ih (keep r h)

/-- A change of the newest value is one of the front. -/
theorem window_modify (f : α → α) (r : RingBuffer α) :
    (r.modify f).window = r.window.modifyHead f := by
  have hptr := r.inRange
  have htake : r.slots.take (r.ptr + 1) = r.slots.take r.ptr ++ [r.slots.get ⟨r.ptr, hptr⟩] :=
    List.take_succ_eq_append_getElem hptr
  simp only [window, modify, htake, take_set_succ hptr, drop_set_succ, List.reverse_append,
    List.reverse_singleton, List.nil_append, List.cons_append, List.modifyHead_cons]

/-! ## The places written -/

/-- The places of the next `n` pushes. -/
def places (size : Nat) : Nat → Nat → List Nat
  | _, 0 => []
  | ptr, n + 1 => (ptr + 1) % size :: places size ((ptr + 1) % size) n

theorem nextPtr_eq (r : RingBuffer α) : r.nextPtr = (r.ptr + 1) % r.size := by
  have hptr : r.ptr < r.size := r.inRange
  unfold nextPtr
  split
  · next hlast => rw [hlast, Nat.mod_self]
  · next hnot => rw [Nat.mod_eq_of_lt (by omega)]

@[simp] theorem length_places (size ptr n : Nat) : (places size ptr n).length = n := by
  induction n generalizing ptr with
  | zero => rfl
  | succ n ih => rw [places, List.length_cons, ih]

theorem places_eq (size ptr n : Nat) :
    places size ptr n = (List.range n).map fun i => (ptr + 1 + i) % size := by
  induction n generalizing ptr with
  | zero => rfl
  | succ n ih =>
    rw [places, ih, List.range_succ_eq_map, List.map_cons, List.map_map]
    refine congrArg₂ List.cons rfl (List.map_congr_left fun i _ => ?_)
    have shift : ptr + 1 + (i + 1) = ptr + 1 + (1 + i) := by rw [Nat.add_comm i]
    show ((ptr + 1) % size + 1 + i) % size = (ptr + 1 + (i + 1)) % size
    rw [shift, Nat.add_assoc, Nat.mod_add_mod]

/-- No place twice, once around at most. -/
theorem nodup_places {size n : Nat} (ptr : Nat) (hn : n ≤ size) : (places size ptr n).Nodup := by
  rw [places_eq]
  refine List.Nodup.map_on (fun i hi j hj h => ?_) List.nodup_range
  have hi := List.mem_range.mp hi
  have hj := List.mem_range.mp hj
  have same : i % size = j % size := Nat.ModEq.add_left_cancel' (ptr + 1) h
  rwa [Nat.mod_eq_of_lt (by omega), Nat.mod_eq_of_lt (by omega)] at same

theorem ptr_pushes (x : α) (n : Nat) (r : RingBuffer α) {β : Type} (y : β) (s : RingBuffer β)
    (hsize : r.size = s.size) (hptr : r.ptr = s.ptr) : (r.pushes x n).ptr = (s.pushes y n).ptr := by
  induction n generalizing r s with
  | zero => exact hptr
  | succ n ih =>
    refine ih (r.push x) (s.push y) (by rw [size_push, size_push, hsize]) ?_
    show r.nextPtr = s.nextPtr
    rw [nextPtr_eq, nextPtr_eq, hptr, hsize]

/-- **What `n` pushes write**: the value in their places, and nothing elsewhere. -/
theorem getElem?_pushes (x : α) (n : Nat) (r : RingBuffer α) {i : Nat} (hi : i < r.size) :
    (r.pushes x n).slots[i]? =
      if i ∈ places r.size r.ptr n then some x else r.slots[i]? := by
  induction n generalizing r with
  | zero => simp only [pushes, places, List.not_mem_nil, if_false]
  | succ n ih =>
    have hptr : (r.push x).ptr = (r.ptr + 1) % r.size := r.nextPtr_eq
    have hslot : (r.push x).slots[i]? =
        if i = (r.ptr + 1) % r.size then some x else r.slots[i]? := by
      show (r.slots.set r.nextPtr x)[i]? = _
      rw [List.getElem?_set, r.nextPtr_eq]
      by_cases h : (r.ptr + 1) % r.size = i
      · rw [if_pos h, if_pos h.symm, if_pos (by rw [h]; exact hi)]
      · rw [if_neg h, if_neg (Ne.symm h)]
    rw [pushes, ih (r.push x) (by rwa [size_push]), size_push, hptr, hslot, places]
    by_cases later : i ∈ places r.size ((r.ptr + 1) % r.size) n
    · rw [if_pos later, if_pos (List.mem_cons_of_mem _ later)]
    · simp only [later, if_false, List.mem_cons, or_false]

theorem getElem?_modify (f : α → α) (r : RingBuffer α) (i : Nat) :
    (r.modify f).slots[i]? = r.slots[i]?.map fun x => if i = r.ptr then f x else x := by
  have hptr := r.inRange
  show (r.slots.set r.ptr _)[i]? = _
  rw [List.getElem?_set]
  by_cases h : r.ptr = i
  · subst h
    rw [if_pos rfl, if_pos hptr, List.getElem?_eq_getElem hptr, Option.map_some, if_pos rfl]
    rfl
  · have other : ∀ x, (if i = r.ptr then f x else x) = x := fun x => if_neg (Ne.symm h)
    simp only [if_neg h, other, Option.map_id']

/-- Once around, every place has been written. -/
theorem slots_pushes_size (x : α) (r : RingBuffer α) :
    (r.pushes x r.size).slots = List.replicate r.size x := by
  have window : (r.pushes x r.size).window = List.replicate r.size x := by
    rw [window_pushes x _ r (Nat.le_refl _), Nat.sub_self, List.take_zero, List.append_nil]
  exact List.perm_replicate.mp (window ▸ (window_perm _).symm)

/-- Once around, what was in the ring is forgotten. -/
theorem pushes_size_congr (x : α) {r s : RingBuffer α} (hsize : r.size = s.size)
    (hptr : r.ptr = s.ptr) : r.pushes x r.size = s.pushes x s.size := by
  have hslots : (r.pushes x r.size).slots = (s.pushes x s.size).slots := by
    rw [slots_pushes_size, slots_pushes_size, hsize]
  have hptrs : (r.pushes x r.size).ptr = (s.pushes x s.size).ptr := by
    rw [ptr_pushes x r.size r x s hsize hptr, hsize]
  cases hr : r.pushes x r.size
  cases hs : s.pushes x s.size
  rw [hr, hs] at hslots hptrs
  cases hslots
  cases hptrs
  rfl

end RingBuffer

/-! ## Counting events by the second -/

/-- The events of the last `n` seconds up to `t`, counted second by second. -/
theorem sum_count_window (times : List Int) (t : Int) (n : Nat) :
    ((List.range n).map fun i : Nat => times.count (t - i)).sum =
      times.countP fun s => t - n < s ∧ s ≤ t := by
  induction n with
  | zero =>
    have none : times.countP (fun s => decide (t - (0 : Nat) < s ∧ s ≤ t)) = 0 := by
      rw [List.countP_eq_zero]
      intro s _
      simp only [decide_eq_true_eq]
      omega
    rw [none]
    rfl
  | succ n ih =>
    rw [List.range_succ, List.map_append, List.sum_append, ih, List.map_singleton,
      List.sum_singleton]
    clear ih
    induction times with
    | nil => rfl
    | cons s times ih =>
      simp only [List.countP_cons, List.count_cons, decide_eq_true_eq, beq_iff_eq] at ih ⊢
      have one : (if t - n < s ∧ s ≤ t then 1 else 0) + (if s = t - n then 1 else 0) =
          if t - (n + 1 : Nat) < s ∧ s ≤ t then 1 else 0 := by
        split <;> split <;> split <;> omega
      omega

end Yazpp.Lib
