import Yazpp.ZQuery.Model

/-!
# Copies of a query

A query whose last setting failed has no buffer, but may have the length of the one before it, and a
query that was never set has no buffer and no length. `operator=` looks for the buffer first; the
copy constructor does not. It copies from the null pointer, and where the length is 0 it leaves a
buffer without octets, which matches others of that kind where the original matches nothing.

`copied_iff` says of every query of every program that both copies are as they should be exactly
when it has a buffer. What carries it is that a buffer is as long as its query says (`Whole`).
-/

set_option autoImplicit false

namespace Yazpp

open Yazpp.Lib

variable {γ σ : Type}

/-- A program without queries. -/
def NoQueries (qs : List (ZQuery σ)) (h : List (QueryEvent γ)) : Prop := qs = [] ∧ h = []

namespace ZQuery

/-- A buffer is as long as its query says. -/
def Whole (q : ZQuery σ) : Prop := ∀ octets, q.buf = some octets → octets.length = q.len

/-- A query that some sequence of operations makes. -/
def Reachable (odr : OdrEncode γ σ) (yaz : QueryYaz γ) (q : ZQuery σ) : Prop :=
  ∃ is qs h, (zQueries odr yaz).Run NoQueries is qs h ∧ q ∈ qs

/-- A query that nobody can tell from `q`: not by `get_Z_Query`, nor by `match` with any query in
either direction. -/
structure Behaves (odr : OdrEncode γ σ) (yaz : QueryYaz γ) (q c : ZQuery σ) : Prop where
  got : c.getZQuery yaz = q.getZQuery yaz
  matching : ∀ x, Reachable odr yaz x → c.matchQuery x = q.matchQuery x
  matched : ∀ x, Reachable odr yaz x → x.matchQuery c = x.matchQuery q

/-- **Copying as it should be**: the copy constructor and the assignment to any query are defined,
and what they leave behaves as `q` does. -/
structure Copied (odr : OdrEncode γ σ) (yaz : QueryYaz γ) (q : ZQuery σ) : Prop where
  constructed : ∃ c, q.copy odr = some c ∧ Behaves odr yaz q c
  assigned : ∀ p, Reachable odr yaz p → ∃ c, p.assign odr q = some c ∧ Behaves odr yaz q c

/-! ## One operation -/

/-- What an operation leaves where it changes a query or makes one. -/
inductive Made (odr : OdrEncode γ σ) (yaz : QueryYaz γ) (qs : List (ZQuery σ)) : ZQuery σ → Prop
  | new : Made odr yaz qs (new odr)
  | copy {q c : ZQuery σ} : q ∈ qs → q.copy odr = some c → Made odr yaz qs c
  | assign {p q c : ZQuery σ} : q ∈ qs → p.assign odr q = some c → Made odr yaz qs c
  | setRpn (q : ZQuery σ) (rpn : String) : Made odr yaz qs (q.setRpn odr yaz rpn).1
  | setZQuery (q : ZQuery σ) (query : γ) : Made odr yaz qs (q.setZQuery odr query)

/-- The queries behind an operation are those before it, and what it makes. -/
theorem mem_step {odr : OdrEncode γ σ} {yaz : QueryYaz γ} {qs qs' : List (ZQuery σ)}
    {i : QueryInput γ} {o : List (QueryEvent γ)}
    (hstep : (zQueries odr yaz).step qs i = some (qs', o)) {q : ZQuery σ} (hq : q ∈ qs') :
    q ∈ qs ∨ Made odr yaz qs q := by
  change step odr yaz qs i = some (qs', o) at hstep
  cases i with
  | construct =>
    cases hstep
    rcases List.mem_append.mp hq with hq | hq
    · exact .inl hq
    · exact .inr (List.mem_singleton.mp hq ▸ .new)
  | copy place =>
    simp only [step, Option.bind_eq_bind, Option.bind_eq_some_iff] at hstep
    obtain ⟨source, hsource, made, hcopy, hstep⟩ := hstep
    cases hstep
    rcases List.mem_append.mp hq with hq | hq
    · exact .inl hq
    · cases List.mem_singleton.mp hq
      exact .inr (.copy (List.mem_of_getElem? hsource) hcopy)
  | assign place source =>
    simp only [step, Option.bind_eq_bind, Option.bind_eq_some_iff] at hstep
    obtain ⟨target, -, q', hq', hstep⟩ := hstep
    split at hstep
    · cases hstep
      exact .inl hq
    · obtain ⟨made, hassign, hstep⟩ := Option.bind_eq_some_iff.mp hstep
      cases hstep
      rcases List.mem_or_eq_of_mem_set hq with hq | rfl
      · exact .inl hq
      · exact .inr (.assign (List.mem_of_getElem? hq') hassign)
  | setRpn place rpn =>
    simp only [step, Option.bind_eq_bind, Option.bind_eq_some_iff] at hstep
    obtain ⟨target, -, hstep⟩ := hstep
    cases hstep
    rcases List.mem_or_eq_of_mem_set hq with hq | rfl
    · exact .inl hq
    · exact .inr (.setRpn target rpn)
  | setZQuery place query =>
    simp only [step, Option.bind_eq_bind, Option.bind_eq_some_iff] at hstep
    obtain ⟨target, -, hstep⟩ := hstep
    cases hstep
    rcases List.mem_or_eq_of_mem_set hq with hq | rfl
    · exact .inl hq
    · exact .inr (.setZQuery target query)
  | getZQuery place =>
    simp only [step, Option.bind_eq_bind, Option.bind_eq_some_iff] at hstep
    obtain ⟨target, -, hstep⟩ := hstep
    cases hstep
    exact .inl hq
  | matchQuery place other =>
    simp only [step, Option.bind_eq_bind, Option.bind_eq_some_iff] at hstep
    obtain ⟨target, -, compared, -, hstep⟩ := hstep
    cases hstep
    exact .inl hq
  | destroy place =>
    simp only [step, Option.bind_eq_bind, Option.bind_eq_some_iff] at hstep
    obtain ⟨target, -, hstep⟩ := hstep
    cases hstep
    exact .inl (List.mem_of_mem_eraseIdx hq)

/-! ## Buffers are whole -/

/-- A whole buffer is copied whole. -/
theorem memcpy_whole {octets : Buf} {len : Nat} (whole : octets.length = len) :
    memcpy (some octets) len = some octets := by
  subst whole
  simp only [memcpy, Nat.le_refl, if_true, List.take_length]

/-- What was copied is as long as what there was to copy. -/
theorem length_of_memcpy {buf : Option Buf} {len : Nat} {octets : Buf}
    (copied : memcpy buf len = some octets) : octets.length = len := by
  unfold memcpy at copied
  split at copied
  · split at copied
    · next hlen =>
      cases copied
      exact hlen.symm
    · cases copied
  · split at copied
    · next hlen =>
      cases copied
      exact List.length_take_of_le hlen
    · cases copied

theorem whole_copy {odr : OdrEncode γ σ} {q c : ZQuery σ} (made : q.copy odr = some c) :
    c.Whole := by
  obtain ⟨octets, copied, rfl⟩ := Option.map_eq_some_iff.mp made
  rintro _ ⟨⟩
  exact length_of_memcpy copied

theorem whole_assign {odr : OdrEncode γ σ} {p q c : ZQuery σ} (made : p.assign odr q = some c) :
    c.Whole := by
  unfold assign at made
  split at made
  · cases made
    rintro _ ⟨⟩
  · obtain ⟨octets, copied, rfl⟩ := Option.map_eq_some_iff.mp made
    rintro _ ⟨⟩
    exact length_of_memcpy copied

theorem whole_setZQuery (odr : OdrEncode γ σ) (query : γ) (q : ZQuery σ) :
    (q.setZQuery odr query).Whole := by
  unfold setZQuery
  dsimp only
  split
  · rintro _ ⟨⟩
    rfl
  · rintro _ ⟨⟩

theorem whole_setRpn (odr : OdrEncode γ σ) (yaz : QueryYaz γ) (rpn : String) (q : ZQuery σ) :
    (q.setRpn odr yaz rpn).1.Whole := by
  unfold setRpn
  dsimp only
  split
  · rintro _ ⟨⟩
  · split
    · rintro _ ⟨⟩
      rfl
    · rintro _ ⟨⟩

/-- What an operation makes is whole, whatever it was made of. -/
theorem Made.whole {odr : OdrEncode γ σ} {yaz : QueryYaz γ} {qs : List (ZQuery σ)} {q : ZQuery σ}
    (made : Made odr yaz qs q) : q.Whole := by
  cases made with
  | new => rintro _ ⟨⟩
  | copy _ made => exact whole_copy made
  | assign _ made => exact whole_assign made
  | setRpn q rpn => exact whole_setRpn odr yaz rpn q
  | setZQuery q query => exact whole_setZQuery odr query q

/-- **Every query is whole** that some sequence of operations makes. -/
theorem Reachable.whole {odr : OdrEncode γ σ} {yaz : QueryYaz γ} {q : ZQuery σ}
    (reach : Reachable odr yaz q) : q.Whole := by
  obtain ⟨is, qs, h, run, hq⟩ := reach
  have inv := run.invariant (fun qs _ => ∀ q ∈ qs, q.Whole)
    (by
      rintro _ _ ⟨rfl, -⟩
      exact List.forall_mem_nil _)
    (by
      intro qs _ i qs' o whole hstep q hq
      rcases mem_step hstep hq with old | made
      · exact whole q old
      · exact made.whole)
  exact inv q hq

/-! ## The two copies -/

/-- A copy constructed is a query of the program too. -/
theorem Reachable.copy {odr : OdrEncode γ σ} {yaz : QueryYaz γ} {q c : ZQuery σ}
    (reach : Reachable odr yaz q) (made : q.copy odr = some c) : Reachable odr yaz c := by
  obtain ⟨is, qs, h, run, hq⟩ := reach
  obtain ⟨place, hplace⟩ := List.getElem?_of_mem hq
  have hstep : (zQueries odr yaz).step qs (.copy place) = some (qs ++ [c], []) := by
    show (do let made ← (← qs[place]?).copy odr; return (qs ++ [made], [])) = _
    rw [hplace]
    simp only [Option.bind_eq_bind, Option.bind_some, made]
    rfl
  exact ⟨_, _, _, run.step hstep, List.mem_append_right _ (List.mem_singleton_self c)⟩

/-- Without a buffer nothing matches. -/
theorem matchQuery_none {q : ZQuery σ} (none : q.buf = none) (x : ZQuery σ) :
    q.matchQuery x = false := by
  simp only [matchQuery, none, ite_self]

theorem matchQuery_none_right {q : ZQuery σ} (none : q.buf = none) (x : ZQuery σ) :
    x.matchQuery q = false := by
  unfold matchQuery
  rw [none]
  cases x.buf <;> exact ite_self _

/-- A query with the same buffer behaves the same; without one the length does not matter. -/
theorem behaves_of_buf {odr : OdrEncode γ σ} {yaz : QueryYaz γ} {q c : ZQuery σ}
    (buf : c.buf = q.buf) (len : q.buf ≠ none → c.len = q.len) : Behaves odr yaz q c := by
  by_cases none : q.buf = none
  · have none' := buf.trans none
    constructor
    · simp only [getZQuery, none, none', Option.bind_none]
    · intro x _
      rw [matchQuery_none none, matchQuery_none none']
    · intro x _
      rw [matchQuery_none_right none, matchQuery_none_right none']
  · have same := len none
    constructor
    · simp only [getZQuery, buf, same]
    · intro x _
      simp only [matchQuery, buf, same]
    · intro x _
      simp only [matchQuery, buf, same]

/-- An assignment is as it should be, whether or not there is a buffer. -/
theorem assign_behaves {odr : OdrEncode γ σ} {yaz : QueryYaz γ} {q : ZQuery σ} (whole : q.Whole)
    (p : ZQuery σ) : ∃ c, p.assign odr q = some c ∧ Behaves odr yaz q c := by
  cases hbuf : q.buf with
  | none =>
    refine ⟨_, by simp only [assign, hbuf]; rfl, behaves_of_buf hbuf.symm ?_⟩
    intro some
    exact absurd hbuf some
  | some octets =>
    have copied := memcpy_whole (whole octets hbuf)
    refine ⟨_, by simp only [assign, hbuf, copied]; rfl, behaves_of_buf hbuf.symm ?_⟩
    intro _
    rfl

/-- So is the copy constructor where there is a buffer. -/
theorem copy_behaves {odr : OdrEncode γ σ} {yaz : QueryYaz γ} {q : ZQuery σ} (whole : q.Whole)
    (buffer : q.buf ≠ none) : ∃ c, q.copy odr = some c ∧ Behaves odr yaz q c := by
  obtain ⟨octets, hbuf⟩ := Option.ne_none_iff_exists'.mp buffer
  have copied := memcpy_whole (whole octets hbuf)
  refine ⟨_, by simp only [copy, hbuf, copied]; rfl, behaves_of_buf hbuf.symm ?_⟩
  intro _
  rfl

/-- Without one it leaves a buffer, if it returns at all, and so a query that matches itself. -/
theorem matchQuery_copy_self {odr : OdrEncode γ σ} {q c : ZQuery σ} (made : q.copy odr = some c) :
    c.matchQuery c = true := by
  obtain ⟨octets, -, rfl⟩ := Option.map_eq_some_iff.mp made
  simp only [matchQuery, ne_eq, not_true_eq_false, if_false, decide_true]

end ZQuery

/-- **Copies are as they should be exactly when there is a buffer to copy.** -/
theorem copied_iff {odr : OdrEncode γ σ} {yaz : QueryYaz γ} {q : ZQuery σ}
    (reach : q.Reachable odr yaz) : q.Copied odr yaz ↔ q.buf ≠ none := by
  constructor
  · intro copied none
    obtain ⟨c, made, behaves⟩ := copied.constructed
    have itself := behaves.matching c (reach.copy made)
    rw [ZQuery.matchQuery_copy_self made, ZQuery.matchQuery_none none] at itself
    cases itself
  · intro buffer
    exact
      { constructed := ZQuery.copy_behaves reach.whole buffer
        assigned := fun p _ => ZQuery.assign_behaves reach.whole p }

/-! ## `x`, and then a query that does not parse -/

/-- Queries that are their octets: an encoder that writes them behind what is there, and of nothing
makes nothing. -/
def octetOdr : OdrEncode Buf Buf where
  createmem := []
  zGdu stream query := (stream ++ query, query ≠ [])
  geterror _ := false
  getelement _ := none
  getbuf stream := stream
  reset _ := []

/-- A parser that knows one query, the term `x` with the attribute set bib-1, and refuses others. -/
def termYaz : QueryYaz Buf where
  pQueryRpn rpn :=
    if rpn = "x" then
      some [0xa1, 0x15, 0x06, 0x07, 0x2a, 0x86, 0x48, 0xce, 0x13, 0x03, 0x01, 0xa0, 0x0a,
        0xbf, 0x66, 0x07, 0xbf, 0x2c, 0x00, 0x9f, 0x2d, 0x01, 0x78]
    else none
  decode octets := if octets = [] then none else some octets

/-- A query behind a setting that succeeded. -/
theorem copied_iff_set : ∃ q : ZQuery Buf, q.Reachable octetOdr termYaz ∧ q.buf ≠ none ∧
    q.Copied octetOdr termYaz := by
  have none : (zQueries octetOdr termYaz).Run NoQueries [] [] [] := .start ⟨rfl, rfl⟩
  have set := (none.step (i := .construct) rfl).step (i := .setRpn 0 "x") rfl
  have reach : ZQuery.Reachable octetOdr termYaz _ := ⟨_, _, _, set, List.mem_singleton_self _⟩
  refine ⟨_, reach, ?_, (copied_iff reach).mpr ?_⟩ <;> exact Option.some_ne_none _

/-- Behind one that then failed, 23 octets would be copied from a null pointer. -/
theorem not_copied :
    ¬ ∀ q : ZQuery Buf, q.Reachable octetOdr termYaz → q.Copied octetOdr termYaz := by
  intro all
  have none : (zQueries octetOdr termYaz).Run NoQueries [] [] [] := .start ⟨rfl, rfl⟩
  have set := (none.step (i := .construct) rfl).step (i := .setRpn 0 "x") rfl
  have failed := set.step (i := .setRpn 0 "@and") rfl
  obtain ⟨c, made, -⟩ := (all _ ⟨_, _, _, failed, List.mem_singleton_self _⟩).constructed
  cases made

end Yazpp
