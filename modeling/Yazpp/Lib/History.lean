/-!
# What comes before what

`Preceded h E C` says of a history that every event of the kind `E` in it has one of the kind `C`
somewhere before it. A history grows at its end, so the laws are about one more piece: what was
preceded stays so (`Preceded.append`), and an event of the new piece may find what it needs in the
history or in the piece itself.

`Parted h E C` says that between any two events of the kind `E` there is one of the kind `C`. What
it takes to add an `E` is that no other is `Open`, with no `C` behind it.
-/

set_option autoImplicit false

namespace Yazpp.Lib

variable {ε : Type} {E C : ε → Prop}

/-- Every `E` of the history comes behind a `C`. -/
def Preceded (h : List ε) (E C : ε → Prop) : Prop :=
  ∀ p e q, h = p ++ e :: q → E e → ∃ c ∈ p, C c

/-- What holds of every event, with the history before it, holds of one more event at the end and of
those that were there. -/
theorem forall_split_snoc {P : List ε → ε → Prop} {h : List ε} {e : ε} :
    (∀ p x q, h ++ [e] = p ++ x :: q → P p x) ↔ (∀ p x q, h = p ++ x :: q → P p x) ∧ P h e := by
  constructor
  · intro all
    refine ⟨?_, all h e [] rfl⟩
    intro p x q hh
    exact all p x (q ++ [e]) (by rw [hh, List.append_assoc, List.cons_append])
  · rintro ⟨old, new⟩ p x q hh
    rcases List.append_eq_append_iff.mp hh with ⟨m, rfl, hm⟩ | ⟨m, rfl, hm⟩
    · obtain ⟨rfl, rfl, -⟩ : m = [] ∧ x = e ∧ q = [] := by simpa [List.cons_eq_append_iff] using hm
      rwa [List.append_nil]
    · cases m with
      | nil =>
        obtain ⟨rfl, -⟩ := List.cons.inj hm
        rwa [List.append_nil] at new
      | cons y m =>
        obtain ⟨rfl, -⟩ := List.cons.inj hm
        exact old p x m rfl

namespace Preceded

/-- A history without any `E`. -/
theorem of_none {h : List ε} (none : ∀ e ∈ h, ¬ E e) : Preceded h E C := by
  intro p e q hh he
  exact absurd he (none e (hh ▸ List.mem_append_right _ List.mem_cons_self))

theorem nil : Preceded [] E C := of_none (List.forall_mem_nil _)

/-- One more piece of history, whose events find what they need before them. -/
theorem append {h k : List ε} (old : Preceded h E C)
    (new : ∀ p e q, k = p ++ e :: q → E e → ∃ c ∈ h ++ p, C c) : Preceded (h ++ k) E C := by
  intro p e q hh he
  rcases List.append_eq_append_iff.mp hh with ⟨m, hp, hk⟩ | ⟨m, hh, hk⟩
  · obtain ⟨c, hc, hC⟩ := new m e q hk he
    exact ⟨c, hp ▸ hc, hC⟩
  · cases m with
    | nil =>
      obtain ⟨c, hc, hC⟩ := new [] e q hk.symm he
      rw [hh, List.append_nil, List.append_nil] at hc
      exact ⟨c, hc, hC⟩
    | cons e' m =>
      obtain ⟨rfl, -⟩ := List.cons.inj hk
      exact old p e m hh he

/-- One more piece without any `E`. -/
theorem append_none {h k : List ε} (old : Preceded h E C) (none : ∀ e ∈ k, ¬ E e) :
    Preceded (h ++ k) E C := by
  apply old.append
  intro p e q hk he
  exact absurd he (none e (hk ▸ List.mem_append_right _ List.mem_cons_self))

/-- One more piece, behind a history that already has a `C`. -/
theorem append_of_mem {h k : List ε} (old : Preceded h E C) {c : ε} (hc : c ∈ h) (hC : C c) :
    Preceded (h ++ k) E C :=
  old.append fun _ _ _ _ _ => ⟨c, List.mem_append_left _ hc, hC⟩

/-- One more event at the end, behind what it needs. -/
theorem snoc {h : List ε} (old : Preceded h E C) {e : ε} (new : E e → ∃ c ∈ h, C c) :
    Preceded (h ++ [e]) E C :=
  forall_split_snoc.mpr ⟨old, new⟩

/-- A history read through a partial view: what precedes in the view precedes in the history. -/
theorem of_filterMap {δ : Type} {h : List δ} {f : δ → Option ε} {E' C' : δ → Prop}
    (view : Preceded (h.filterMap f) E C) (seen : ∀ d, E' d → ∃ e, f d = some e ∧ E e)
    (back : ∀ d c, f d = some c → C c → C' d) : Preceded h E' C' := by
  intro p d q hh hd
  obtain ⟨e, hfe, he⟩ := seen d hd
  have hview : h.filterMap f = p.filterMap f ++ e :: q.filterMap f := by
    rw [hh, List.filterMap_append, List.filterMap_cons, hfe]
  obtain ⟨c, hc, hC⟩ := view _ e _ hview he
  obtain ⟨d', hd', hfc⟩ := List.mem_filterMap.mp hc
  exact ⟨d', hd', back d' c hfc hC⟩

end Preceded

/-- An `E` of the history has no `C` behind it. -/
def Open (h : List ε) (E C : ε → Prop) : Prop :=
  ∃ p e q, h = p ++ e :: q ∧ E e ∧ ∀ c ∈ q, ¬ C c

/-- Between two `E`s of the history there is a `C`. -/
def Parted (h : List ε) (E C : ε → Prop) : Prop :=
  ∀ p e q, h = p ++ e :: q → E e → ¬ Open p E C

namespace Open

/-- A history without any `E`. -/
theorem not_of_none {h : List ε} (none : ∀ e ∈ h, ¬ E e) : ¬ Open h E C := by
  rintro ⟨p, e, q, rfl, he, -⟩
  exact none e (List.mem_append_right _ List.mem_cons_self) he

/-- What is open behind one more event: the event itself, or what it does not close. -/
theorem of_snoc {h : List ε} {e : ε} (opened : Open (h ++ [e]) E C) :
    E e ∨ (Open h E C ∧ ¬ C e) := by
  obtain ⟨p, x, q, hh, hx, hq⟩ := opened
  rcases List.eq_nil_or_concat q with rfl | ⟨q', y, rfl⟩
  · obtain ⟨-, hex⟩ := List.append_inj' hh rfl
    exact .inl (List.singleton_inj.mp hex ▸ hx)
  · rw [List.concat_eq_append, ← List.cons_append, ← List.append_assoc] at hh
    obtain ⟨rfl, hey⟩ := List.append_inj' hh rfl
    obtain rfl : e = y := List.singleton_inj.mp hey
    rw [List.concat_eq_append] at hq
    exact .inr ⟨⟨p, x, q', rfl, hx, fun c hc => hq c (List.mem_append_left _ hc)⟩,
      hq e (List.mem_append_right _ (List.mem_singleton_self e))⟩

end Open

namespace Parted

/-- A history without any `E`. -/
theorem of_none {h : List ε} (none : ∀ e ∈ h, ¬ E e) : Parted h E C := by
  intro p e q hh he
  exact absurd he (none e (hh ▸ List.mem_append_right _ List.mem_cons_self))

/-- One more event at the end, which is no `E` while another is open. -/
theorem snoc {h : List ε} (old : Parted h E C) {e : ε} (new : E e → ¬ Open h E C) :
    Parted (h ++ [e]) E C :=
  forall_split_snoc.mpr ⟨old, new⟩

end Parted

end Yazpp.Lib
