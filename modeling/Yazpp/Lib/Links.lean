import Mathlib.Data.List.Chain
import Mathlib.Data.List.Nodup
import Mathlib.Logic.Function.Basic

/-!
# Links in two directions

Nodes are linked by two partial functions, one for each direction. A doubly linked list of which
something else holds both ends is a ring: the holder is a node too, its forward link is the first
node and its backward link the last one (`LinkRing`). So there are no cases for what is at an end,
and an operation is one change on each side: a node is put in at the end (`LinkRing.push`), and a
node is taken out wherever it is (`LinkRing.unlink`).

With the null pointer for the holder, the nodes of a ring are what is visited from either end up to
null, in opposite orders (`LinkRing.visits`, `LinkRing.reverse`).
-/

set_option autoImplicit false

namespace Yazpp.Lib

variable {α : Type} {fwd bwd fwd' bwd' : α → Option α} {s a x y : α} {l pre post : List α}

/-- Nodes next to each other are linked both ways. -/
def Links (fwd bwd : α → Option α) (l : List α) : Prop :=
  l.IsChain fun x y => fwd x = some y ∧ bwd y = some x

/-- A ring of links through the nodes of a list, from `s` and back to it. -/
def LinkRing (fwd bwd : α → Option α) (s : α) (l : List α) : Prop :=
  Links fwd bwd (s :: (l ++ [s]))

/-- A sequence of nodes stays linked where the last does not need its forward link, and the first
not its backward link. -/
theorem Links.frame : ∀ {l : List α}, Links fwd bwd l → (∀ x ∈ l.dropLast, fwd' x = fwd x) →
    (∀ y ∈ l.tail, bwd' y = bwd y) → Links fwd' bwd' l
  | [], _, _, _ => .nil
  | [_], _, _, _ => .singleton _
  | x :: y :: l, h, hf, hb => by
    obtain ⟨⟨hx, hy⟩, hrest⟩ := List.isChain_cons_cons.mp h
    refine List.isChain_cons_cons.mpr ⟨⟨?_, ?_⟩, ?_⟩
    · rw [hf x (List.mem_cons_self ..), hx]
    · rw [hb y (List.mem_cons_self ..), hy]
    · refine Links.frame (l := y :: l) hrest (fun z hz => hf z ?_) fun z hz => hb z ?_
      · rw [List.dropLast_cons_cons]
        exact List.mem_cons_of_mem _ hz
      · exact List.mem_cons_of_mem _ hz

/-- The other way round. -/
theorem Links.reverse (h : Links fwd bwd l) : Links bwd fwd l.reverse :=
  List.isChain_reverse.mpr (h.imp fun _ _ hxy => hxy.symm)

/-- Two sequences, and a link from the end of one to the beginning of the other. -/
theorem links_append_cons {p q : List α} :
    Links fwd bwd (p ++ x :: y :: q) ↔
      Links fwd bwd (p ++ [x]) ∧ (fwd x = some y ∧ bwd y = some x) ∧ Links fwd bwd (y :: q) :=
  List.isChain_append_cons_cons

/-! ## Rings -/

namespace LinkRing

/-- Nobody but the holder. -/
theorem nil (hf : fwd s = some s) (hb : bwd s = some s) : LinkRing fwd bwd s [] :=
  List.isChain_cons_cons.mpr ⟨⟨hf, hb⟩, .singleton _⟩

theorem reverse (ring : LinkRing fwd bwd s l) : LinkRing bwd fwd s l.reverse := by
  have := Links.reverse ring
  simpa [LinkRing] using this

/-- A ring stays where its links stay. -/
theorem frame (ring : LinkRing fwd bwd s l) (hf : ∀ x ∈ s :: l, fwd' x = fwd x)
    (hb : ∀ y ∈ s :: l, bwd' y = bwd y) : LinkRing fwd' bwd' s l := by
  refine Links.frame ring (fun z hz => hf z ?_) fun z hz => hb z ?_
  · rwa [← List.cons_append, List.dropLast_concat] at hz
  · exact List.mem_cons.mpr ((List.mem_append.mp hz).symm.imp List.mem_singleton.mp id)

/-- The holder and the nodes in front of a place: the last of them, and the others. -/
theorem exists_concat (s : α) (pre : List α) : ∃ p x, s :: pre = p ++ [x] :=
  (List.eq_nil_or_concat (s :: pre)).elim (fun h => nomatch h) fun ⟨p, x, h⟩ =>
    ⟨p, x, by rw [h, List.concat_eq_append]⟩

/-- The nodes behind a place and the holder: the first of them, and the others. -/
theorem exists_cons (s : α) (post : List α) : ∃ y q, post ++ [s] = y :: q :=
  List.exists_cons_of_ne_nil (by simp)

/-- Backwards from a node is the one in front of it. -/
theorem bwd_eq (ring : LinkRing fwd bwd s (pre ++ a :: post)) : bwd a = (s :: pre).getLast? := by
  obtain ⟨p, x, hp⟩ := exists_concat s pre
  have hold : s :: ((pre ++ a :: post) ++ [s]) = p ++ x :: a :: (post ++ [s]) := by
    rw [← List.cons_append, ← List.cons_append, hp]
    simp
  unfold LinkRing at ring
  rw [hold] at ring
  rw [(links_append_cons.mp ring).2.1.2, hp, List.getLast?_concat]

/-- Forwards from a node is the one behind it. -/
theorem fwd_eq (ring : LinkRing fwd bwd s (pre ++ a :: post)) : fwd a = (post ++ [s]).head? := by
  have := ring.reverse
  rw [List.reverse_append, List.reverse_cons, List.append_assoc] at this
  rw [this.bwd_eq, List.getLast?_cons, List.getLast?_reverse]
  cases post <;> rfl

/-- Backwards from the holder is the last node. -/
theorem bwd_holder (ring : LinkRing fwd bwd s l) : bwd s = (s :: l).getLast? := by
  obtain ⟨p, x, hp⟩ := exists_concat s l
  have hold : s :: (l ++ [s]) = p ++ x :: [s] := by
    rw [← List.cons_append, hp, List.append_assoc]
    rfl
  unfold LinkRing at ring
  rw [hold] at ring
  rw [(links_append_cons.mp ring).2.1.2, hp, List.getLast?_concat]

/-- Forwards from the holder is the first node. -/
theorem fwd_holder (ring : LinkRing fwd bwd s l) : fwd s = (l ++ [s]).head? := by
  rw [ring.reverse.bwd_holder, List.getLast?_cons, List.getLast?_reverse]
  cases l <;> rfl

variable [DecidableEq α]

/-- A node is put in at the end, behind the node that the holder links to. -/
theorem push (ring : LinkRing fwd bwd s l) (nodup : (s :: l).Nodup) (ha : a ∉ s :: l)
    (hx : bwd s = some x) :
    LinkRing (Function.update (Function.update fwd x (some a)) a (some s))
      (Function.update (Function.update bwd a (some x)) s (some a)) s (l ++ [a]) := by
  obtain ⟨p, z, hp⟩ := exists_concat s l
  have hold : s :: (l ++ [s]) = p ++ z :: [s] := by
    rw [← List.cons_append, hp, List.append_assoc]
    rfl
  have hnew : s :: ((l ++ [a]) ++ [s]) = p ++ z :: a :: [s] := by
    rw [← List.cons_append, ← List.cons_append, hp]
    simp
  unfold LinkRing at ring ⊢
  rw [hold] at ring
  obtain ⟨hfront, ⟨-, hz⟩, -⟩ := links_append_cons.mp ring
  obtain rfl : z = x := Option.some.inj (hz.symm.trans hx)
  have hza : z ≠ a := fun e => ha (e ▸ hp ▸ List.mem_append_right _ (List.mem_singleton_self _))
  have hsa : s ≠ a := fun e => ha (e ▸ List.mem_cons_self ..)
  have hpz := hp ▸ nodup
  rw [hnew]
  refine links_append_cons.mpr ⟨hfront.frame (fun u hu => ?_) (fun v hv => ?_), ⟨?_, ?_⟩, ?_⟩
  · rw [List.dropLast_concat] at hu
    have hua : u ≠ a := fun e => ha (e ▸ hp ▸ List.mem_append_left _ hu)
    have huz : u ≠ z := fun e =>
      List.disjoint_of_nodup_append hpz hu (e ▸ List.mem_singleton_self _)
    rw [Function.update_of_ne hua, Function.update_of_ne huz]
  · rw [← hp] at hv
    have hva : v ≠ a := fun e => ha (e ▸ List.mem_cons_of_mem _ hv)
    have hvs : v ≠ s := fun e => (List.nodup_cons.mp nodup).1 (e ▸ hv)
    rw [Function.update_of_ne hvs, Function.update_of_ne hva]
  · rw [Function.update_of_ne hza, Function.update_self]
  · rw [Function.update_of_ne (Ne.symm hsa), Function.update_self]
  · exact List.isChain_cons_cons.mpr
      ⟨⟨Function.update_self .., Function.update_self ..⟩, .singleton _⟩

/-- A node is taken out, wherever it is: the two that it links to are linked to each other. -/
theorem unlink (ring : LinkRing fwd bwd s (pre ++ a :: post))
    (nodup : (s :: (pre ++ a :: post)).Nodup) (hx : bwd a = some x) (hy : fwd a = some y) :
    LinkRing (Function.update fwd x (some y)) (Function.update bwd y (some x)) s (pre ++ post) := by
  obtain ⟨p, u, hp⟩ := exists_concat s pre
  obtain ⟨v, q, hq⟩ := exists_cons s post
  have hold : s :: ((pre ++ a :: post) ++ [s]) = p ++ u :: a :: (v :: q) := by
    rw [← hq, ← List.cons_append, ← List.cons_append, hp]
    simp
  have hnew : s :: ((pre ++ post) ++ [s]) = p ++ u :: v :: q := by
    rw [List.append_assoc, hq, ← List.cons_append, hp]
    simp
  unfold LinkRing at ring ⊢
  rw [hold] at ring
  obtain ⟨hfront, ⟨-, hu⟩, hrest⟩ := links_append_cons.mp ring
  obtain ⟨⟨hv, -⟩, hback⟩ := List.isChain_cons_cons.mp hrest
  obtain rfl : u = x := Option.some.inj (hu.symm.trans hx)
  obtain rfl : v = y := Option.some.inj (hv.symm.trans hy)
  -- the nodes in front with the holder, and the nodes behind, have no node in common
  have hperm : (s :: pre ++ post).Nodup :=
    nodup.sublist ((List.Sublist.append_left (List.sublist_cons_self a post) pre).cons_cons s)
  obtain ⟨hpre, hpost, hdisj⟩ := List.nodup_append.mp hperm
  have hu' : u ∈ s :: pre := hp ▸ List.mem_append_right _ (List.mem_singleton_self _)
  have hv' : v = s ∨ v ∈ post := by
    have : v ∈ post ++ [s] := hq ▸ List.mem_cons_self ..
    exact (List.mem_append.mp this).symm.imp_left List.mem_singleton.mp
  have hback' : (post ++ [s]).Nodup := by
    refine List.nodup_append.mpr ⟨hpost, List.nodup_singleton s, fun z hz w hw e => ?_⟩
    exact hdisj w (List.mem_singleton.mp hw ▸ List.mem_cons_self ..) z hz e.symm
  rw [hp] at hpre
  rw [hq] at hback'
  rw [hnew]
  refine links_append_cons.mpr
    ⟨hfront.frame (fun z hz => ?_) (fun z hz => ?_),
      ⟨Function.update_self .., Function.update_self ..⟩,
      Links.frame hback (fun z hz => ?_) (fun z hz => ?_)⟩
  · rw [List.dropLast_concat] at hz
    refine Function.update_of_ne (fun e => ?_) ..
    exact List.disjoint_of_nodup_append hpre hz (e ▸ List.mem_singleton_self _)
  · rw [← hp] at hz
    refine Function.update_of_ne (fun e => ?_) ..
    rcases hv' with hvs | hvpost
    · exact (List.nodup_cons.mp (hp ▸ hpre)).1 (hvs ▸ e ▸ hz)
    · exact hdisj z (List.mem_cons_of_mem _ hz) v hvpost e
  · rw [← hq, List.dropLast_concat] at hz
    exact Function.update_of_ne (fun e => hdisj u hu' z hz e.symm) ..
  · exact Function.update_of_ne (fun e : z = v => (List.nodup_cons.mp hback').1 (e ▸ hz)) ..

end LinkRing

/-! ## What is visited from an end -/

section Visits

variable {link : α → Option (Option α)} {p : Option α}

/-- From a pointer on, the nodes of a list are visited, and then it is null. -/
inductive Visits (link : α → Option (Option α)) : Option α → List α → Prop
  | null : Visits link none []
  | node {a : α} {p : Option α} {l : List α} :
      link a = some p → Visits link p l → Visits link (some a) (a :: l)

/-- There is one list only that is visited. -/
theorem Visits.unique {k : List α} (h : Visits link p l) (h' : Visits link p k) : l = k := by
  induction h generalizing k with
  | null =>
    cases h'
    rfl
  | node hp _ ih =>
    cases h' with
    | node hp' hrest =>
      obtain rfl := Option.some.inj (hp.symm.trans hp')
      rw [ih hrest]

variable {f b : Option α → Option (Option α)}

/-- Behind a node, the rest of a sequence of nodes up to null is visited. -/
theorem Links.visits {l : List α} : ∀ {s : Option α} {p : Option α},
    Links f b (s :: (l.map some ++ [none])) → f s = some p → Visits (fun a => f (some a)) p l := by
  induction l with
  | nil =>
    intro s p h hp
    obtain ⟨⟨hs, -⟩, -⟩ := List.isChain_cons_cons.mp h
    obtain rfl := Option.some.inj (hp.symm.trans hs)
    exact .null
  | cons a l ih =>
    intro s p h hp
    obtain ⟨⟨hs, -⟩, hrest⟩ := List.isChain_cons_cons.mp h
    obtain rfl := Option.some.inj (hp.symm.trans hs)
    have hlinks : Links f b (some a :: (l.map some ++ [none])) := hrest
    obtain ⟨y, q, hq⟩ := LinkRing.exists_cons none (l.map some)
    have hnext : f (some a) = some y := by
      rw [hq] at hlinks
      exact (List.isChain_cons_cons.mp hlinks).1.1
    exact .node hnext (ih hrest hnext)

/-- The nodes of a ring around null are visited from its first one. -/
theorem LinkRing.visits {l : List α} (ring : LinkRing f b none (l.map some))
    (hp : f none = some p) : Visits (fun a => f (some a)) p l :=
  Links.visits ring hp

end Visits

end Yazpp.Lib
