import Mathlib.Data.List.Forall2
import Yazpp.Gdu.Memory
import Yazpp.Lib.ArenaStore

/-!
# `GDU`s are values

What is in the memory of a stream, what each function of `src/gdu.cpp` makes of it, and what the
user has at any time: each thing has a stream of its own, a `GDU` has its tree there and nothing
else, and there is no other stream.

`gdu_refines` says that a `GDU` is a value, whatever the trees it is made of become, and that
nothing is freed too early, twice or never.
-/

set_option autoImplicit false

namespace Yazpp

open Yazpp.Lib

variable {γ α σ μ : Type}

/-! ## Streams and what is in them -/

/-- What a variable stands for, by what is in the memory. -/
inductive GduVar.Points (c : Option (List (Nat × GduTree γ α))) :
    GduVar Nat Nat → GduVar γ α → Prop
  | nullGdu : Points c (.gdu none) (.gdu none)
  | gdu {gdu : Nat} {g : γ} : (gdu, .gdu g) ∈ c.getD [] → Points c (.gdu (some gdu)) (.gdu (some g))
  | nullApdu : Points c (.apdu none) (.apdu none)
  | apdu {apdu : Nat} {p : α} :
      (apdu, .apdu p) ∈ c.getD [] → Points c (.apdu (some apdu)) (.apdu (some p))

/-- What a thing is, by what is in its memory. A `GDU` has its tree there and nothing else. -/
inductive GduThing.Fits :
    GduThing → GduItem γ α → Option (List (Nat × GduTree γ α)) → Prop
  | moved {decode : Nat} : Fits (.gdu { decode := decode }) (.gdu { moved := true }) none
  | none {decode : Nat} : Fits (.gdu { decode := decode }) (.gdu {}) (some [])
  | some {gdu decode : Nat} {g : γ} :
      Fits (.gdu { gdu := some gdu, decode := decode }) (.gdu { value := some g })
        (some [(gdu, .gdu g)])
  | odr {mem : Nat} {vars : List (GduVar Nat Nat)} {trees : List (GduVar γ α)}
      {c : Option (List (Nat × GduTree γ α))} :
      List.Forall₂ (GduVar.Points c) vars trees → Fits (.odr mem vars) (.odr trees) c

/-- The stream of a thing. -/
def GduThing.stream : GduThing → Nat
  | .gdu this => this.decode
  | .odr mem _ => mem

variable {nmem : GduNmem μ γ α} {Holds : μ → ArenaContents (GduTree γ α) → Prop} {m : μ}
  {own : Nat → Option (Option (List (Nat × GduTree γ α)))}

/-- There is something where a pointer points. -/
theorem GduVar.Points.there {c : Option (List (Nat × GduTree γ α))} {b : Nat × GduTree γ α}
    (h : b ∈ c.getD []) : ∃ l, c = some l ∧ b ∈ l := by
  cases c with
  | none => cases h
  | some l => exact ⟨l, rfl, h⟩

/-- A variable stands for the same as long as what it points at is there. -/
theorem GduVar.Points.mono {c c' : Option (List (Nat × GduTree γ α))} {var : GduVar Nat Nat}
    {tree : GduVar γ α} (h : GduVar.Points c var tree) (sub : c.getD [] ⊆ c'.getD []) :
    GduVar.Points c' var tree := by
  cases h with
  | nullGdu => exact .nullGdu
  | gdu h => exact .gdu (sub h)
  | nullApdu => exact .nullApdu
  | apdu h => exact .apdu (sub h)

/-- A `GDU` points to its tree. -/
theorem GduThing.Fits.points {this : GduObject} {g : GduValue γ}
    {c : Option (List (Nat × GduTree γ α))} (h : GduThing.Fits (.gdu this) (.gdu g) c) :
    GduVar.Points c (.gdu this.gdu) (.gdu g.value : GduVar γ α) := by
  cases h with
  | moved | none => exact .nullGdu
  | some => exact .gdu (List.mem_singleton_self _)

namespace GduNmem

theorem readGdu_eq (laws : nmem.Lawful Holds) (h : Arenas.Keeps Holds m own) {o gdu : Nat}
    {c : Option (List (Nat × GduTree γ α))} {g : γ}
    (ho : own o = some c) (there : (gdu, .gdu g) ∈ c.getD []) : nmem.readGdu gdu m = .ok g := by
  obtain ⟨l, rfl, hmem⟩ := GduVar.Points.there there
  simp only [readGdu, laws.keeps_read h ho hmem]
  rfl

theorem readApdu_eq (laws : nmem.Lawful Holds) (h : Arenas.Keeps Holds m own) {o apdu : Nat}
    {c : Option (List (Nat × GduTree γ α))} {p : α}
    (ho : own o = some c) (there : (apdu, .apdu p) ∈ c.getD []) : nmem.readApdu apdu m = .ok p := by
  obtain ⟨l, rfl, hmem⟩ := GduVar.Points.there there
  simp only [readApdu, laws.keeps_read h ho hmem]
  rfl

end GduNmem

/-- Something is made: a `GDU` of this value, with a stream of its own, and nothing else. -/
def GduObject.Made (Holds : μ → ArenaContents (GduTree γ α) → Prop)
    (own : Nat → Option (Option (List (Nat × GduTree γ α))))
    (x : Except ArenaFault (GduObject × μ)) (g : GduValue γ) : Prop :=
  ∃ this m' c, x = .ok (this, m') ∧ own this.decode = none ∧
    GduThing.Fits (.gdu this) (.gdu g) c ∧
    Arenas.Keeps Holds m' (Function.update own this.decode (some c))

namespace GduObject

variable (yaz : GduCodec γ α σ)

/-- What is read back is alone in its stream. -/
theorem recode_eq (laws : nmem.Lawful Holds) (h : Arenas.Keeps Holds m own) {gdu : Option Nat}
    {v : Option γ} {o decode : Nat}
    {c : Option (List (Nat × GduTree γ α))} (ho : own o = some c)
    (points : GduVar.Points c (.gdu gdu) (.gdu v)) (hdecode : own decode = some (some [])) :
    ∃ m_gdu m' l, recode yaz nmem gdu decode m = .ok (m_gdu, m') ∧
      GduThing.Fits (.gdu { gdu := m_gdu, decode := decode })
        (.gdu { value := v.bind yaz.reread }) (some l) ∧
      Arenas.Keeps Holds m' (Function.update own decode (some (some l))) := by
  have same : Function.update own decode (some (some [])) = own := by
    rw [← hdecode, Function.update_eq_self]
  cases points with
  | nullGdu => exact ⟨none, m, [], rfl, .none, same.symm ▸ h⟩
  | @gdu gdu g there =>
    have hread := GduNmem.readGdu_eq laws h ho there
    simp only [recode, hread, bind, Except.bind, Option.bind_some, GduCodec.reread,
      OdrEncode.octets]
    cases hencoded : (yaz.encoder.zGdu yaz.encoder.createmem g).2 with
    | false => exact ⟨none, m, [], rfl, .none, same.symm ▸ h⟩
    | true =>
      generalize yaz.encoder.getbuf (yaz.encoder.zGdu yaz.encoder.createmem g).1 = buf
      cases hdecoded : yaz.decoder buf with
      | none => exact ⟨none, m, [], rfl, .none, same.symm ▸ h⟩
      | some g' =>
        obtain ⟨a, m', halloc, h'⟩ := laws.keeps_alloc h hdecode (.gdu g')
        simp only [if_true, halloc]
        exact ⟨some a, m', _, rfl, .some, h'⟩

/-- What `base` makes of a tree that somebody owns. The encoding stream is gone. -/
theorem base_eq (laws : nmem.Lawful Holds) (h : Arenas.Keeps Holds m own) {gdu : Option Nat}
    {v : Option γ} {o encode : Nat}
    {c ce : Option (List (Nat × GduTree γ α))} (ho : own o = some c)
    (points : GduVar.Points c (.gdu gdu) (.gdu v)) (he : own encode = some ce) :
    ∃ this m' c, base yaz nmem gdu encode m = .ok (this, m') ∧ own this.decode = none ∧
      GduThing.Fits (.gdu this) (.gdu { value := v.bind yaz.reread }) c ∧
      Arenas.Keeps Holds m'
        (Function.update (Function.update own encode none) this.decode (some c)) := by
  obtain ⟨new, h₁⟩ := laws.keeps_create h
  have old : ∀ {k : Nat} {c : Option (List (Nat × GduTree γ α))}, own k = some c →
      k ≠ (nmem.create m).1 := by
    rintro k c hk rfl
    cases new.symm.trans hk
  obtain ⟨m_gdu, m₂, l, hrecode, fits, h₂⟩ := recode_eq yaz laws h₁
    ((Function.update_of_ne (old ho) ..).trans ho) points (Function.update_self ..)
  rw [Function.update_idem] at h₂
  obtain ⟨m₃, hdestroy, h₃⟩ := laws.keeps_destroy h₂ ((Function.update_of_ne (old he) ..).trans he)
  rw [Function.update_comm (old he).symm] at h₃
  refine ⟨_, m₃, _, ?_, new, fits, h₃⟩
  unfold base
  simp only [hrecode, bind, Except.bind, hdestroy]
  rfl

/-- What is created and destroyed again has not been there. -/
theorem update_none {o : Nat} (new : own o = none) (c : Option (List (Nat × GduTree γ α))) :
    Function.update (Function.update own o (some c)) o none = own := by
  rw [Function.update_idem, ← new, Function.update_eq_self]

/-- `base`, when only the encoding stream is new. -/
theorem base_made (laws : nmem.Lawful Holds) {gdu : Option Nat} {v : Option γ} {o encode : Nat}
    {c ce : Option (List (Nat × GduTree γ α))} (new : own encode = none)
    (h : Arenas.Keeps Holds m (Function.update own encode (some ce)))
    (ho : Function.update own encode (some ce) o = some c)
    (points : GduVar.Points c (.gdu gdu) (.gdu v)) :
    Made Holds own (base yaz nmem gdu encode m) { value := v.bind yaz.reread } := by
  obtain ⟨this, m', c', hbase, hnone, fits, h'⟩ :=
    base_eq yaz laws h ho points (Function.update_self ..)
  rw [update_none new] at h'
  refine ⟨this, m', c', hbase, ?_, fits, h'⟩
  rw [← update_none new ce, Function.update_apply]
  split
  · rfl
  · exact hnone

theorem empty_made (laws : nmem.Lawful Holds) (h : Arenas.Keeps Holds m own) :
    Made Holds own (empty yaz nmem m) {} := by
  obtain ⟨new, h₁⟩ := laws.keeps_create h
  exact base_made yaz laws new h₁ (Function.update_self ..) .nullGdu

theorem ofGdu_made (laws : nmem.Lawful Holds) (h : Arenas.Keeps Holds m own) {gdu : Option Nat}
    {v : Option γ} {o : Nat}
    {c : Option (List (Nat × GduTree γ α))} (ho : own o = some c)
    (points : GduVar.Points c (.gdu gdu) (.gdu v)) :
    Made Holds own (ofGdu yaz nmem gdu m) { value := v.bind yaz.reread } := by
  obtain ⟨new, h₁⟩ := laws.keeps_create h
  refine base_made yaz laws new h₁ ((Function.update_of_ne ?_ ..).trans ho) points
  rintro rfl
  cases new.symm.trans ho

theorem ofApdu_made (laws : nmem.Lawful Holds) (h : Arenas.Keeps Holds m own) {apdu : Option Nat}
    {p : Option α} {o : Nat}
    {c : Option (List (Nat × GduTree γ α))} (ho : own o = some c)
    (points : GduVar.Points c (.apdu apdu) (.apdu p)) :
    Made Holds own (ofApdu yaz nmem apdu m) { value := yaz.reread (yaz.z3950 p) } := by
  obtain ⟨new, h₁⟩ := laws.keeps_create h
  have old : o ≠ (nmem.create m).1 := by
    rintro rfl
    cases new.symm.trans ho
  obtain ⟨gdu, m₂, halloc, h₂⟩ :=
    laws.keeps_alloc h₁ (Function.update_self ..) (.gdu (yaz.z3950 p))
  rw [Function.update_idem] at h₂
  have made := base_made yaz laws (v := some (yaz.z3950 p)) new h₂ (Function.update_self ..)
    (.gdu (List.mem_append_right _ (List.mem_singleton_self _)))
  cases points with
  | nullApdu =>
    simp only [ofApdu, bind, Except.bind, halloc]
    exact made
  | apdu there =>
    have hread := GduNmem.readApdu_eq laws h₁ ((Function.update_of_ne old ..).trans ho) there
    simp only [ofApdu, bind, Except.bind, hread, pure, Except.pure, halloc]
    exact made

/-- A stream has an `NMEM`, its own or a new one. -/
theorem provide_eq (laws : nmem.Lawful Holds) {c : ArenaContents (GduTree γ α)} (holds : Holds m c)
    {dst : Nat} {x : Option Nat} (hdst : c.owners dst = some x) (live : c.MayFree x) :
    ∃ r k m', provide nmem dst m = .ok m' ∧
      Holds m' ((c.setOwner dst (some (some r))).setArena r (some k)) ∧
      (x = some r ∧ c.arenas r = some k ∨ x = none ∧ c.arenas r = none ∧ k = []) := by
  cases x with
  | some r =>
    obtain ⟨k, hk⟩ := Option.ne_none_iff_exists'.mp (live r rfl)
    have same : (c.setOwner dst (some (some r))).setArena r (some k) = c := by
      simp only [ArenaContents.setOwner, ArenaContents.setArena, ← hdst, ← hk,
        Function.update_eq_self]
    refine ⟨r, k, m, ?_, same.symm ▸ holds, .inl ⟨rfl, hk⟩⟩
    simp only [provide, laws.arenaOf m c dst _ holds hdst]
    rfl
  | none =>
    obtain ⟨hr, holds₁⟩ := laws.newArena m c holds
    obtain ⟨m', hassign, holds'⟩ := laws.assign _ _ dst none (some (nmem.newArena m).1) holds₁ hdst
    refine ⟨_, [], m', ?_, holds', .inr ⟨rfl, hr, rfl⟩⟩
    simp only [provide, laws.arenaOf m c dst _ holds hdst, bind, Except.bind, hassign]

/-- `move_away_gdu`: what the stream of the `GDU` had goes to the other, and its `NMEM` is freed. -/
theorem moveAway_eq (laws : nmem.Lawful Holds) (h : Arenas.Keeps Holds m own) {this : GduObject}
    {dst : Nat} (other : this.decode ≠ dst) {l : List (Nat × GduTree γ α)}
    {x : Option (List (Nat × GduTree γ α))} (hsrc : own this.decode = some (some l))
    (hdst : own dst = some x) :
    ∃ m', this.moveAway nmem dst m = .ok (this.gdu, { this with gdu := none }, m') ∧
      Arenas.Keeps Holds m' (Function.update (Function.update own this.decode (some none)) dst
        (some (some (x.getD [] ++ l)))) := by
  obtain ⟨c, holds, owned⟩ := h
  obtain ⟨none, -⟩ | ⟨r, l', same, howner, harena⟩ := owned.cases hsrc
  · cases none
  cases same
  obtain ⟨m₁, hextract, holds₁⟩ := laws.extract m c _ _ holds howner
  obtain ⟨y, hy⟩ : ∃ y, c.owners dst = some y := Option.ne_none_iff_exists'.mp fun none => by
    cases hdst.symm.trans ((owned.gone dst).mpr none)
  obtain ⟨r', k, m₂, hprovide, holds₂, provided⟩ :=
    provide_eq laws holds₁ ((Function.update_of_ne other.symm ..).trans hy) (owned.mayFree hy)
  have distinct : r' ≠ r := by
    rintro rfl
    rcases provided with ⟨rfl, -⟩ | ⟨-, none, -⟩
    · exact other (owned.apart _ _ _ howner hy)
    · cases harena.symm.trans none
  have contents : x.getD [] = k := by
    rcases provided with ⟨rfl, hk⟩ | ⟨rfl, -, rfl⟩
    · rw [show x = some k from Option.some.inj (hdst.symm.trans ((owned.blocks dst r' hy).trans
        (congrArg some hk)))]
      rfl
    · rw [show x = none from Option.some.inj (hdst.symm.trans (owned.bare dst hy))]
      rfl
  have hmem := laws.arenaOf m₂ _ dst (some r') holds₂ (Function.update_self ..)
  obtain ⟨m₃, htransfer, holds₃⟩ := laws.transfer m₂ _ r' r k l holds₂ distinct
    (Function.update_self ..) ((Function.update_of_ne distinct.symm ..).trans harena)
  obtain ⟨m₄, hfree, holds₄⟩ := laws.free m₃ _ (some r) holds₃ (by
    rintro _ ⟨⟩
    simp [ArenaContents.setArena, distinct.symm])
  refine ⟨m₄, ?_, _, ?_, owned.surrender (k := x.getD []) howner distinct ?_⟩
  · simp only [moveAway, hextract, bind, Except.bind, hprovide, hmem, htransfer, hfree]
    rfl
  · rw [contents]
    simpa only [ArenaContents.freed, ArenaContents.setArena, ArenaContents.setOwner,
      Function.update_idem, Function.update_comm distinct] using holds₄
  · rcases provided with ⟨rfl, -⟩ | ⟨rfl, none, -⟩
    · exact .inl hy
    · exact .inr ⟨hy, none⟩

/-- There is no `NMEM` to move away for a second time. -/
theorem moveAway_null (laws : nmem.Lawful Holds) (h : Arenas.Keeps Holds m own) {this : GduObject}
    {dst : Nat} (other : this.decode ≠ dst) {x : Option (List (Nat × GduTree γ α))}
    (hsrc : own this.decode = some none) (hdst : own dst = some x) :
    this.moveAway nmem dst m = .error (.arena none) := by
  obtain ⟨c, holds, owned⟩ := h
  obtain ⟨-, howner⟩ | ⟨r, l, some, -⟩ := owned.cases hsrc
  case inr => cases some
  obtain ⟨m₁, hextract, holds₁⟩ := laws.extract m c _ _ holds howner
  obtain ⟨y, hy⟩ : ∃ y, c.owners dst = some y := Option.ne_none_iff_exists'.mp fun none => by
    cases hdst.symm.trans ((owned.gone dst).mpr none)
  obtain ⟨r', k, m₂, hprovide, holds₂, -⟩ :=
    provide_eq laws holds₁ ((Function.update_of_ne other.symm ..).trans hy) (owned.mayFree hy)
  have hmem := laws.arenaOf m₂ _ dst (some r') holds₂ (Function.update_self ..)
  simp only [moveAway, hextract, bind, Except.bind, hprovide, hmem, laws.transfer_null]

/-- `get_size` leaves nothing behind. -/
theorem size_eq (laws : nmem.Lawful Holds) (h : Arenas.Keeps Holds m own) {this : GduObject}
    {g : GduValue γ}
    {c : Option (List (Nat × GduTree γ α))} (ho : own this.decode = some c)
    (fits : GduThing.Fits (.gdu this) (.gdu g) c) :
    ∃ m', this.size yaz nmem m = .ok ((g.value.map yaz.written).getD 0, m') ∧
      Arenas.Keeps Holds m' own := by
  obtain ⟨new, h₁⟩ := laws.keeps_create h
  obtain ⟨m₂, hdestroy, h₂⟩ := laws.keeps_destroy h₁ (Function.update_self ..)
  rw [update_none new] at h₂
  have old : this.decode ≠ (nmem.create m).1 := fun he => by
    rw [he] at ho
    cases new.symm.trans ho
  have points := fits.points
  generalize hgdu : this.gdu = gdu at points
  generalize g.value = v at points ⊢
  refine ⟨m₂, ?_, h₂⟩
  cases points with
  | nullGdu =>
    simp only [GduObject.size, hgdu, bind, Except.bind, hdestroy]
    rfl
  | gdu there =>
    have hread := GduNmem.readGdu_eq laws h₁ ((Function.update_of_ne old ..).trans ho) there
    simp only [GduObject.size, hgdu, bind, Except.bind, hread, pure, Except.pure,
      hdestroy, Option.map_some, Option.getD_some, GduCodec.written, OdrEncode.octets]

end GduObject

/-- The constructor for a variable. -/
theorem GduMemory.ofVar_made (yaz : GduCodec γ α σ) (laws : nmem.Lawful Holds)
    (h : Arenas.Keeps Holds m own) {o : Nat}
    {c : Option (List (Nat × GduTree γ α))} (ho : own o = some c) {var : GduVar Nat Nat}
    {tree : GduVar γ α} (points : GduVar.Points c var tree) :
    GduObject.Made Holds own (ofVar yaz nmem m var) (yaz.ofVar tree) := by
  cases points with
  | nullGdu => exact GduObject.ofGdu_made yaz laws h ho .nullGdu
  | gdu there => exact GduObject.ofGdu_made yaz laws h ho (.gdu there)
  | nullApdu => exact GduObject.ofApdu_made yaz laws h ho .nullApdu
  | apdu there => exact GduObject.ofApdu_made yaz laws h ho (.apdu there)

/-! ## What the user has -/

/-- The memory is what the things of the user need, each has a stream of its own, and what is there
is what the user takes them for. -/
structure GduMemory.Represents (Holds : μ → ArenaContents (GduTree γ α) → Prop) (u : GduMemory μ)
    (a : GduStore γ α)
    (own : Nat → Option (Option (List (Nat × GduTree γ α)))) : Prop where
  holds : Arenas.Keeps Holds u.heap own
  fits : ∀ x, Option.Rel (fun t i => ∃ c, own t.stream = some c ∧ GduThing.Fits t i c)
    (u.things x) (a x)
  apart : ∀ x y t t', u.things x = some t → u.things y = some t' → t.stream = t'.stream → x = y
  kept : ∀ o c, own o = some c → ∃ x t, u.things x = some t ∧ t.stream = o

namespace GduMemory.Represents

variable (yaz : GduCodec γ α σ) {u : GduMemory μ} {a : GduStore γ α}

theorem gone (h : u.Represents Holds a own) {x : Nat} (hx : a x = none) : u.things x = none := by
  have fits := h.fits x
  rw [hx] at fits
  cases hu : u.things x with
  | none => rfl
  | some t =>
    rw [hu] at fits
    cases fits

theorem gdu (h : u.Represents Holds a own) {x : Nat} {g : GduValue γ} (hx : a x = some (.gdu g)) :
    ∃ this c, u.things x = some (.gdu this) ∧ own this.decode = some c ∧
      GduThing.Fits (.gdu this) (.gdu g : GduItem γ α) c := by
  have fits := h.fits x
  rw [hx] at fits
  generalize hu : u.things x = t at fits
  cases fits with
  | some fits =>
    obtain ⟨c, ho, fits⟩ := fits
    cases fits with
    | moved => exact ⟨_, _, rfl, ho, .moved⟩
    | none => exact ⟨_, _, rfl, ho, .none⟩
    | some => exact ⟨_, _, rfl, ho, .some⟩

theorem odr (h : u.Represents Holds a own) {x : Nat} {trees : List (GduVar γ α)}
    (hx : a x = some (.odr trees)) :
    ∃ mem vars c, u.things x = some (.odr mem vars) ∧ own mem = some c ∧
      List.Forall₂ (GduVar.Points c) vars trees := by
  have fits := h.fits x
  rw [hx] at fits
  generalize hu : u.things x = t at fits
  cases fits with
  | some fits =>
    obtain ⟨c, ho, fits⟩ := fits
    cases fits with
    | odr points => exact ⟨_, _, c, rfl, ho, points⟩

/-- What a thing is, as long as its memory is as it was. -/
theorem fits_of (h : u.Represents Holds a own) {y : Nat}
    {own' : Nat → Option (Option (List (Nat × GduTree γ α)))}
    (same : ∀ t, u.things y = some t → own' t.stream = own t.stream) :
    Option.Rel (fun t i => ∃ c, own' t.stream = some c ∧ GduThing.Fits t i c)
      (u.things y) (a y) := by
  have fits := h.fits y
  generalize u.things y = t, a y = i at fits same ⊢
  cases fits with
  | none => exact .none
  | some fits =>
    rw [← same _ rfl] at fits
    exact .some fits

/-- A thing changes, or is new, and the others stay what they are. -/
theorem set (h : u.Represents Holds a own) {x : Nat} {t : GduThing} {i : GduItem γ α}
    {c : Option (List (Nat × GduTree γ α))} {heap : μ}
    {own' : Nat → Option (Option (List (Nat × GduTree γ α)))} (holds : Arenas.Keeps Holds heap own')
    (ht : own' t.stream = some c) (fits : GduThing.Fits t i c)
    (others : ∀ y t', y ≠ x → u.things y = some t' →
      t'.stream ≠ t.stream ∧ own' t'.stream = own t'.stream)
    (nothing : ∀ o c', own' o = some c' → o ≠ t.stream →
      ∃ y t', y ≠ x ∧ u.things y = some t' ∧ t'.stream = o) :
    (u.set x t heap).Represents Holds (Function.update a x (some i)) own' := by
  constructor
  case holds => exact holds
  case fits =>
    intro y
    simp only [GduMemory.set, Function.update_apply]
    by_cases hy : y = x
    · rw [if_pos hy, if_pos hy]
      exact .some ⟨c, ht, fits⟩
    · rw [if_neg hy, if_neg hy]
      exact h.fits_of fun t' hu => (others y t' hy hu).2
  case apart =>
    intro y z t₁ t₂ hy hz heq
    simp only [GduMemory.set, Function.update_apply] at hy hz
    split at hy <;> split at hz
    case isTrue.isTrue hyx hzx => exact hyx.trans hzx.symm
    case isTrue.isFalse hyx hzx =>
      cases hy
      exact absurd heq.symm (others z _ hzx hz).1
    case isFalse.isTrue hyx hzx =>
      cases hz
      exact absurd heq (others y _ hyx hy).1
    case isFalse.isFalse => exact h.apart y z t₁ t₂ hy hz heq
  case kept =>
    intro o c' ho
    by_cases heq : o = t.stream
    · exact ⟨x, t, Function.update_self .., heq.symm⟩
    · obtain ⟨y, t', hy, hu, hs⟩ := nothing o c' ho heq
      exact ⟨y, t', (Function.update_of_ne hy ..).trans hu, hs⟩

/-- A thing goes, and the others stay what they are. -/
theorem drop (h : u.Represents Holds a own) {x : Nat} {t : GduThing} (hx : u.things x = some t)
    {heap : μ} (holds : Arenas.Keeps Holds heap (Function.update own t.stream none)) :
    (u.drop x heap).Represents Holds (Function.update a x none)
      (Function.update own t.stream none) := by
  have others : ∀ y t', y ≠ x → u.things y = some t' → t'.stream ≠ t.stream :=
    fun y t' hy hu heq => hy (h.apart y x t' t hu hx heq)
  constructor
  case holds => exact holds
  case fits =>
    intro y
    simp only [GduMemory.drop]
    by_cases hy : y = x
    · subst hy
      rw [Function.update_self, Function.update_self]
      exact .none
    · rw [Function.update_of_ne hy, Function.update_of_ne hy]
      exact h.fits_of fun t' hu => Function.update_of_ne (others y t' hy hu) ..
  case apart =>
    intro y z t₁ t₂ hy hz heq
    simp only [GduMemory.drop, Function.update_apply] at hy hz
    split at hy
    · cases hy
    · split at hz
      · cases hz
      · exact h.apart y z t₁ t₂ hy hz heq
  case kept =>
    intro o c' ho
    rw [Function.update_apply] at ho
    split at ho
    · cases ho
    · next hne =>
      obtain ⟨y, t', hu, hs⟩ := h.kept o c' ho
      refine ⟨y, t', ?_, hs⟩
      refine (Function.update_of_ne ?_ ..).trans hu
      rintro rfl
      cases hu.symm.trans hx
      exact hne hs.symm

/-- The stream of a thing is there. -/
theorem owned (h : u.Represents Holds a own) {y : Nat} {t : GduThing} (hu : u.things y = some t) :
    ∃ c, own t.stream = some c := by
  have fits := h.fits y
  rw [hu] at fits
  generalize a y = i at fits
  cases fits with
  | some fits => exact ⟨fits.choose, fits.choose_spec.1⟩

/-- What has a new stream is new. -/
theorem new (h : u.Represents Holds a own) {x : Nat} (hx : a x = none) {t : GduThing}
    {i : GduItem γ α}
    {c : Option (List (Nat × GduTree γ α))} {heap : μ} (hnew : own t.stream = none)
    (holds : Arenas.Keeps Holds heap (Function.update own t.stream (some c)))
    (fits : GduThing.Fits t i c) :
    (u.set x t heap).Represents Holds (Function.update a x (some i))
      (Function.update own t.stream (some c)) := by
  refine h.set holds (Function.update_self ..) fits ?_ ?_
  · intro y t' hy hu
    have hne : t'.stream ≠ t.stream := fun heq => by
      obtain ⟨c', ho⟩ := h.owned hu
      rw [heq] at ho
      cases hnew.symm.trans ho
    exact ⟨hne, Function.update_of_ne hne ..⟩
  · intro o c' ho hne
    obtain ⟨y, t', hu, hs⟩ := h.kept o c' ((Function.update_of_ne hne ..).symm.trans ho)
    refine ⟨y, t', ?_, hu, hs⟩
    rintro rfl
    cases (h.gone hx).symm.trans hu

/-- A new `GDU`. -/
theorem made (h : u.Represents Holds a own) {x : Nat} (hx : a x = none)
    {made : Except ArenaFault (GduObject × μ)} {g : GduValue γ}
    (hmade : GduObject.Made Holds own made g) :
    ∃ this heap own', made = .ok (this, heap) ∧
      (u.set x (.gdu this) heap).Represents Holds (Function.update a x (some (.gdu g))) own' := by
  obtain ⟨this, heap, c, rfl, hnew, fits, holds⟩ := hmade
  exact ⟨this, heap, _, rfl, h.new hx (t := .gdu this) hnew holds fits⟩

/-- A thing keeps its stream, and what is in this changes. -/
theorem change (h : u.Represents Holds a own) {x : Nat} {t t' : GduThing} {i : GduItem γ α}
    {c : Option (List (Nat × GduTree γ α))} {heap : μ} (hx : u.things x = some t)
    (same : t'.stream = t.stream)
    (holds : Arenas.Keeps Holds heap (Function.update own t.stream (some c)))
    (fits : GduThing.Fits t' i c) :
    (u.set x t' heap).Represents Holds (Function.update a x (some i))
      (Function.update own t.stream (some c)) := by
  have ht : Function.update own t.stream (some c) t'.stream = some c := by
    rw [same, Function.update_self]
  refine h.set holds ht fits ?_ ?_
  · intro y t₁ hy hu
    have hne : t₁.stream ≠ t.stream := fun heq => hy (h.apart y x t₁ t hu hx heq)
    exact ⟨same ▸ hne, Function.update_of_ne hne ..⟩
  · intro o c' ho hne
    rw [same] at hne
    obtain ⟨y, t₁, hu, hs⟩ := h.kept o c' ((Function.update_of_ne hne ..).symm.trans ho)
    refine ⟨y, t₁, ?_, hu, hs⟩
    rintro rfl
    cases hu.symm.trans hx
    exact hne hs.symm

/-- A variable is looked at. -/
theorem deref (laws : nmem.Lawful Holds) (h : u.Represents Holds a own) {o : Nat}
    {c : Option (List (Nat × GduTree γ α))}
    (ho : own o = some c) {var : GduVar Nat Nat} {tree : GduVar γ α}
    (points : GduVar.Points c var tree) : u.deref nmem var = .ok tree := by
  cases points with
  | nullGdu | nullApdu => rfl
  | gdu there =>
    rw [GduMemory.deref, GduNmem.readGdu_eq laws h.holds ho there]
    rfl
  | apdu there =>
    rw [GduMemory.deref, GduNmem.readApdu_eq laws h.holds ho there]
    rfl

/-- A tree is made in the memory of a stream, and the others of it stay. -/
theorem build (laws : nmem.Lawful Holds) (h : u.Represents Holds a own) {mem : Nat}
    {c : Option (List (Nat × GduTree γ α))}
    (ho : own mem = some c) {vars : List (GduVar Nat Nat)} {trees : List (GduVar γ α)}
    (points : List.Forall₂ (GduVar.Points c) vars trees) (tree : GduVar γ α) :
    ∃ var heap c', GduMemory.build nmem mem u.heap tree = .ok (var, heap) ∧
      Arenas.Keeps Holds heap (Function.update own mem (some c')) ∧
      List.Forall₂ (GduVar.Points c') (vars ++ [var]) (trees ++ [tree]) := by
  have same : Function.update own mem (some c) = own := by
    rw [← ho, Function.update_eq_self]
  have more : ∀ b var, GduVar.Points (some (c.getD [] ++ [b])) var tree →
      List.Forall₂ (GduVar.Points (some (c.getD [] ++ [b]))) (vars ++ [var]) (trees ++ [tree]) :=
    fun b var hvar => List.rel_append
      (points.imp fun _ _ hp => hp.mono (List.subset_append_left _ _)) (.cons hvar .nil)
  have last : ∀ b : Nat × GduTree γ α, b ∈ (some (c.getD [] ++ [b])).getD [] :=
    fun b => List.mem_append_right _ (List.mem_singleton_self b)
  cases tree with
  | gdu g =>
    cases g with
    | none =>
      exact ⟨_, _, c, rfl, same.symm ▸ h.holds, List.rel_append points (.cons .nullGdu .nil)⟩
    | some g =>
      obtain ⟨ptr, heap, halloc, hheap⟩ := laws.keeps_alloc h.holds ho (.gdu g)
      refine ⟨_, heap, _, ?_, hheap, more _ (.gdu (some ptr)) (.gdu (last _))⟩
      rw [GduMemory.build, halloc]
      rfl
  | apdu p =>
    cases p with
    | none =>
      exact ⟨_, _, c, rfl, same.symm ▸ h.holds, List.rel_append points (.cons .nullApdu .nil)⟩
    | some p =>
      obtain ⟨ptr, heap, halloc, hheap⟩ := laws.keeps_alloc h.holds ho (.apdu p)
      refine ⟨_, heap, _, ?_, hheap, more _ (.apdu (some ptr)) (.apdu (last _))⟩
      rw [GduMemory.build, halloc]
      rfl

/-- The destructor, or `odr_destroy`. -/
theorem destroy (laws : nmem.Lawful Holds) (h : u.Represents Holds a own) {x : Nat} {t : GduThing}
    {c : Option (List (Nat × GduTree γ α))} (hx : u.things x = some t)
    (ho : own t.stream = some c) :
    ∃ heap, nmem.destroy t.stream u.heap = .ok heap ∧
      (u.drop x heap).Represents Holds (Function.update a x none)
        (Function.update own t.stream none) := by
  obtain ⟨heap, hdestroy, holds⟩ := laws.keeps_destroy h.holds ho
  exact ⟨heap, hdestroy, h.drop hx holds⟩

/-- `operator=`, of another. -/
theorem assign (laws : nmem.Lawful Holds) (h : u.Represents Holds a own) {x y : Nat} (other : x ≠ y)
    {g g' : GduValue γ}
    (hx : a x = some (.gdu g)) (hy : a y = some (.gdu g')) :
    ∃ this that this' heap own', u.things x = some (.gdu this) ∧ u.things y = some (.gdu that) ∧
      GduObject.assign yaz nmem this that u.heap = .ok (this', heap) ∧
      (u.set x (.gdu this') heap).Represents Holds
        (Function.update a x (some (.gdu (yaz.ofVar (.gdu g'.value))))) own' := by
  obtain ⟨this, c, hthis, ho, -⟩ := h.gdu hx
  obtain ⟨that, c', hthat, ho', fits⟩ := h.gdu hy
  obtain ⟨heap₁, hdestroy, h₁⟩ := h.destroy laws hthis ho
  have apart : that.decode ≠ this.decode := fun heq => other (h.apart y x _ _ hthat hthis heq).symm
  have hnone : Function.update a x none x = none := Function.update_self ..
  obtain ⟨this', heap, own', hmade, h'⟩ := h₁.made hnone
    (GduObject.ofGdu_made yaz laws h₁.holds ((Function.update_of_ne apart ..).trans ho')
      fits.points)
  rw [Function.update_idem] at h'
  have hset : (u.drop x heap₁).set x (.gdu this') heap = u.set x (.gdu this') heap := by
    rw [GduMemory.set, GduMemory.drop, Function.update_idem]
    rfl
  rw [hset] at h'
  refine ⟨this, that, this', heap, own', hthis, hthat, ?_, h'⟩
  rw [GduThing.stream] at hdestroy
  rw [GduObject.assign, hdestroy]
  exact hmade

/-- `move_away_gdu`: the stream of the user has the tree, and the `GDU` has none. -/
theorem moveAway (laws : nmem.Lawful Holds) (h : u.Represents Holds a own) {x y : Nat}
    {g : GduValue γ}
    {trees : List (GduVar γ α)} (hx : a x = some (.gdu g)) (hy : a y = some (.odr trees)) :
    ∃ this mem vars, u.things x = some (.gdu this) ∧ u.things y = some (.odr mem vars) ∧
      match g.moved with
      | true => this.moveAway nmem mem u.heap = .error (.arena none)
      | false => ∃ heap own',
        this.moveAway nmem mem u.heap = .ok (this.gdu, { this with gdu := none }, heap) ∧
        ((u.set x (.gdu { this with gdu := none }) heap).set y
          (.odr mem (vars ++ [.gdu this.gdu])) heap).Represents Holds
          (Function.update (Function.update a x (some (.gdu { moved := true }))) y
            (some (.odr (trees ++ [.gdu g.value])))) own' := by
  obtain ⟨this, c, hthis, ho, fits⟩ := h.gdu hx
  obtain ⟨mem, vars, c', hmem, ho', points⟩ := h.odr hy
  have other : x ≠ y := by
    rintro rfl
    cases hthis.symm.trans hmem
  have apart : this.decode ≠ mem := fun heq => other (h.apart x y _ _ hthis hmem heq)
  refine ⟨this, mem, vars, hthis, hmem, ?_⟩
  have given : g.moved = true ∧ c = none ∨ g.moved = false ∧ ∃ l, c = some l := by
    cases fits with
    | moved => exact .inl ⟨rfl, rfl⟩
    | none | some => exact .inr ⟨rfl, _, rfl⟩
  obtain ⟨hmoved, rfl⟩ | ⟨hmoved, l, rfl⟩ := given
  · rw [hmoved]
    exact GduObject.moveAway_null laws h.holds apart ho ho'
  · rw [hmoved]
    obtain ⟨heap, hmove, holds⟩ := GduObject.moveAway_eq laws h.holds apart ho ho'
    obtain ⟨heap₁, -, holds₁⟩ := laws.keeps_release h.holds ho
    have h₁ : (u.set x (.gdu { this with gdu := none }) heap₁).Represents Holds _ _ :=
      h.change hthis rfl holds₁ .moved
    have hy₁ : (u.set x (.gdu { this with gdu := none }) heap₁).things y = some (.odr mem vars) :=
      (Function.update_of_ne other.symm ..).trans hmem
    refine ⟨heap, _, hmove, h₁.change hy₁ rfl holds (.odr (List.rel_append ?_ (.cons ?_ .nil)))⟩
    · exact points.imp fun _ _ hp => hp.mono (List.subset_append_left _ _)
    · exact fits.points.mono (List.subset_append_right _ _)

/-- What there is under a name. -/
theorem named (h : u.Represents Holds a own) (x : Nat) :
    (a x = none ∧ u.things x = none) ∨
    (∃ g this c, a x = some (.gdu g) ∧ u.things x = some (.gdu this) ∧ own this.decode = some c ∧
      GduThing.Fits (.gdu this) (.gdu g : GduItem γ α) c) ∨
    ∃ trees mem vars c, a x = some (.odr trees) ∧ u.things x = some (.odr mem vars) ∧
      own mem = some c ∧ List.Forall₂ (GduVar.Points c) vars trees := by
  cases ha : a x with
  | none => exact .inl ⟨rfl, h.gone ha⟩
  | some item =>
    cases item with
    | gdu g =>
      obtain ⟨this, c, hu, ho, fits⟩ := h.gdu ha
      exact .inr (.inl ⟨g, this, c, rfl, hu, ho, fits⟩)
    | odr trees =>
      obtain ⟨mem, vars, c, hu, ho, points⟩ := h.odr ha
      exact .inr (.inr ⟨trees, mem, vars, c, rfl, hu, ho, points⟩)

/-- A new stream. -/
theorem create (laws : nmem.Lawful Holds) (h : u.Represents Holds a own) {x : Nat}
    (hx : a x = none) :
    (u.set x (.odr (nmem.create u.heap).1 []) (nmem.create u.heap).2).Represents Holds
      (Function.update a x (some (.odr [])))
      (Function.update own (nmem.create u.heap).1 (some (some []))) := by
  obtain ⟨hnew, holds⟩ := laws.keeps_create h.holds
  exact h.new hx (t := .odr (nmem.create u.heap).1 []) hnew holds (.odr .nil)

end GduMemory.Represents

/-- What a variable at an index points at. -/
theorem GduVar.points_at {c : Option (List (Nat × GduTree γ α))} {vars : List (GduVar Nat Nat)}
    {trees : List (GduVar γ α)} (points : List.Forall₂ (GduVar.Points c) vars trees) (i : Nat) :
    Option.Rel (GduVar.Points c) vars[i]? trees[i]? := by
  induction points generalizing i with
  | nil => exact .none
  | cons point _ ih =>
    cases i with
    | zero => exact .some point
    | succ i => exact ih i

/-! ## Runs -/

variable {yaz : GduCodec γ α σ}

/-- One call of both. -/
theorem gduMemory_step (laws : nmem.Lawful Holds) :
    (gduMemory yaz nmem).Refines (gduStore yaz) fun u a => ∃ own, u.Represents Holds a own := by
  rintro u a i ⟨own, h⟩
  unfold gduMemory gduStore
  cases i with
  | odr x =>
    obtain ⟨ha, hu⟩ | ⟨g, this, c, ha, hu, -⟩ | ⟨trees, mem, vars, c, ha, hu, -⟩ := h.named x <;>
      simp only [GduMemory.perform, GduStore.perform, ha, hu]
    · exact .some ⟨⟨_, h.create laws ha⟩, rfl⟩
    · exact .none
    · exact .none
  | build x tree =>
    obtain ⟨ha, hu⟩ | ⟨g, this, c, ha, hu, -⟩ | ⟨trees, mem, vars, c, ha, hu, ho, points⟩ :=
      h.named x <;> simp only [GduMemory.perform, GduStore.perform, ha, hu]
    · exact .none
    · exact .none
    · obtain ⟨var, heap, c', hbuild, holds, points'⟩ := h.build laws ho points tree
      rw [hbuild]
      exact .some ⟨⟨_, h.change hu rfl holds (.odr points')⟩, rfl⟩
  | look x i =>
    obtain ⟨ha, hu⟩ | ⟨g, this, c, ha, hu, -⟩ | ⟨trees, mem, vars, c, ha, hu, ho, points⟩ :=
      h.named x <;> simp only [GduMemory.perform, GduStore.perform, ha, hu]
    · exact .none
    · exact .none
    · have found := GduVar.points_at points i
      generalize vars[i]? = var, trees[i]? = tree at found ⊢
      cases found with
      | none => exact .none
      | some point =>
        simp only [Option.map_some, h.deref laws ho point]
        exact .some ⟨⟨own, h⟩, rfl⟩
  | release x =>
    obtain ⟨ha, hu⟩ | ⟨g, this, c, ha, hu, -⟩ | ⟨trees, mem, vars, c, ha, hu, ho, -⟩ :=
      h.named x <;> simp only [GduMemory.perform, GduStore.perform, ha, hu]
    · exact .none
    · exact .none
    · obtain ⟨heap, hrelease, holds⟩ := laws.keeps_release h.holds ho
      rw [hrelease]
      exact .some ⟨⟨_, h.change hu rfl holds (.odr .nil)⟩, rfl⟩
  | destroyOdr x =>
    obtain ⟨ha, hu⟩ | ⟨g, this, c, ha, hu, -⟩ | ⟨trees, mem, vars, c, ha, hu, ho, -⟩ :=
      h.named x <;> simp only [GduMemory.perform, GduStore.perform, ha, hu]
    · exact .none
    · exact .none
    · obtain ⟨heap, hdestroy, h'⟩ := h.destroy laws hu ho
      rw [GduThing.stream] at hdestroy
      rw [hdestroy]
      exact .some ⟨⟨_, h'⟩, rfl⟩
  | empty x =>
    obtain ⟨ha, hu⟩ | ⟨g, this, c, ha, hu, -⟩ | ⟨trees, mem, vars, c, ha, hu, -⟩ := h.named x <;>
      simp only [GduMemory.perform, GduStore.perform, ha, hu]
    · obtain ⟨this, heap, own', hmade, h'⟩ :=
        h.made ha (GduObject.empty_made yaz laws h.holds)
      rw [hmade]
      exact .some ⟨⟨_, h'⟩, rfl⟩
    · exact .none
    · exact .none
  | ofVar x y i =>
    obtain ⟨ha, hu⟩ | ⟨g, this, c, ha, hu, -⟩ | ⟨trees, mem, vars, c, ha, hu, -⟩ := h.named x <;>
      simp only [GduMemory.perform, GduStore.perform, ha, hu]
    · obtain ⟨hb, hv⟩ | ⟨g, this, c, hb, hv, -⟩ | ⟨trees, mem, vars, c, hb, hv, ho, points⟩ :=
        h.named y <;> simp only [hb, hv]
      · exact .none
      · exact .none
      · have found := GduVar.points_at points i
        generalize vars[i]? = var, trees[i]? = tree at found ⊢
        cases found with
        | none => exact .none
        | some point =>
          obtain ⟨this, heap, own', hmade, h'⟩ :=
            h.made ha (GduMemory.ofVar_made yaz laws h.holds ho point)
          simp only [Option.map_some, hmade]
          exact .some ⟨⟨_, h'⟩, rfl⟩
    · exact .none
    · exact .none
  | copy x y =>
    obtain ⟨ha, hu⟩ | ⟨g, this, c, ha, hu, -⟩ | ⟨trees, mem, vars, c, ha, hu, -⟩ := h.named x <;>
      simp only [GduMemory.perform, GduStore.perform, ha, hu]
    · obtain ⟨hb, hv⟩ | ⟨g, this, c, hb, hv, ho, fits⟩ | ⟨trees, mem, vars, c, hb, hv, -⟩ :=
        h.named y <;> simp only [hb, hv]
      · exact .none
      · obtain ⟨this', heap, own', hmade, h'⟩ :=
          h.made ha (GduObject.ofGdu_made yaz laws h.holds ho fits.points)
        have hcopy : GduObject.copy yaz nmem this u.heap = .ok (this', heap) := hmade
        rw [hcopy]
        exact .some ⟨⟨_, h'⟩, rfl⟩
      · exact .none
    · exact .none
    · exact .none
  | assign x y =>
    obtain ⟨ha, hu⟩ | ⟨g, this, c, ha, hu, -⟩ | ⟨trees, mem, vars, c, ha, hu, -⟩ := h.named x <;>
      simp only [GduMemory.perform, GduStore.perform, ha, hu]
    · exact .none
    · obtain ⟨hb, hv⟩ | ⟨g', that, c', hb, hv, -⟩ | ⟨trees, mem, vars, c', hb, hv, -⟩ :=
        h.named y <;> simp only [hb, hv]
      · exact .none
      · by_cases other : x ≠ y
        · obtain ⟨this₁, that₁, this', heap, own', hthis, hthat, hassign, h'⟩ :=
            h.assign yaz laws other ha hb
          cases hu.symm.trans hthis
          cases hv.symm.trans hthat
          simp only [if_pos other, hassign]
          exact .some ⟨⟨_, h'⟩, rfl⟩
        · simp only [if_neg other]
          exact .some ⟨⟨own, h⟩, rfl⟩
      · exact .none
    · exact .none
  | get x =>
    obtain ⟨ha, hu⟩ | ⟨g, this, c, ha, hu, ho, fits⟩ | ⟨trees, mem, vars, c, ha, hu, -⟩ :=
      h.named x <;> simp only [GduMemory.perform, GduStore.perform, ha, hu]
    · exact .none
    · simp only [h.deref laws ho fits.points]
      exact .some ⟨⟨own, h⟩, rfl⟩
    · exact .none
  | size x =>
    obtain ⟨ha, hu⟩ | ⟨g, this, c, ha, hu, ho, fits⟩ | ⟨trees, mem, vars, c, ha, hu, -⟩ :=
      h.named x <;> simp only [GduMemory.perform, GduStore.perform, ha, hu]
    · exact .none
    · obtain ⟨heap, hsize, holds⟩ := GduObject.size_eq yaz laws h.holds ho fits
      rw [hsize]
      exact .some ⟨⟨own, holds, h.fits, h.apart, h.kept⟩, rfl⟩
    · exact .none
  | moveAway x y =>
    obtain ⟨ha, hu⟩ | ⟨g, this, c, ha, hu, -⟩ | ⟨trees, mem, vars, c, ha, hu, -⟩ := h.named x <;>
      simp only [GduMemory.perform, GduStore.perform, ha, hu]
    · exact .none
    · obtain ⟨hb, hv⟩ | ⟨g', that, c', hb, hv, -⟩ | ⟨trees, mem, vars, c', hb, hv, -⟩ :=
        h.named y <;> simp only [hb, hv]
      · exact .none
      · exact .none
      · obtain ⟨this₁, mem₁, vars₁, hthis, hmem, hmove⟩ := h.moveAway laws ha hb
        cases hu.symm.trans hthis
        cases hv.symm.trans hmem
        cases hmoved : g.moved with
        | true =>
          rw [hmoved] at hmove
          simp only [if_true] at hmove ⊢
          rw [hmove]
          exact .some ⟨⟨own, h⟩, rfl⟩
        | false =>
          rw [hmoved] at hmove
          obtain ⟨heap, own', hmove, h'⟩ := hmove
          rw [hmove]
          exact .some ⟨⟨_, h'⟩, rfl⟩
    · exact .none
  | destroy x =>
    obtain ⟨ha, hu⟩ | ⟨g, this, c, ha, hu, ho, -⟩ | ⟨trees, mem, vars, c, ha, hu, -⟩ :=
      h.named x <;> simp only [GduMemory.perform, GduStore.perform, ha, hu]
    · exact .none
    · obtain ⟨heap, hdestroy, h'⟩ := h.destroy laws hu ho
      rw [GduThing.stream] at hdestroy
      rw [GduObject.destroy, hdestroy]
      exact .some ⟨⟨_, h'⟩, rfl⟩
    · exact .none

/-- What goes wrong goes wrong where memory is moved away that was moved away before. -/
theorem gduStore_fault {is : List (GduCall γ α)} {a a' : GduStore γ α} {os : List (GduSeen γ α)}
    (run : (gduStore yaz).exec a is = some (a', os)) {f : ArenaFault} (hmem : .fault f ∈ os) :
    ∃ pre x y post mid outs g, is = pre ++ .moveAway x y :: post ∧
      (gduStore yaz).exec a pre = some (mid, outs) ∧ mid x = some (.gdu g) ∧ g.moved = true := by
  obtain ⟨pre, i, post, mid, outs, next, o, rfl, hpre, hstep, hmem⟩ := Machine.exec_mem run hmem
  simp only [gduStore] at hstep
  cases i with
  | moveAway x y =>
    simp only [GduStore.perform] at hstep
    split at hstep
    case h_1 g trees hx hy =>
      split at hstep
      case isTrue hmoved => exact ⟨pre, x, y, post, mid, outs, g, rfl, hpre, hx, hmoved⟩
      case isFalse =>
        cases hstep
        cases hmem
    case h_2 => cases hstep
  | look x i | ofVar x y i =>
    simp only [GduStore.perform] at hstep
    split at hstep
    · obtain ⟨tree, -, heq⟩ := Option.map_eq_some_iff.mp hstep
      cases heq
      simp at hmem
    · cases hstep
  | assign x y =>
    simp only [GduStore.perform] at hstep
    split at hstep
    · split at hstep <;> cases hstep <;> cases hmem
    · cases hstep
  | odr | build | release | destroyOdr | empty | copy | get | size | destroy =>
    simp only [GduStore.perform] at hstep
    split at hstep <;> cases hstep
    simp at hmem

/-- **A `GDU` is a value**, in any memory that is as it should be: over any sequence of calls, the
user sees of the `GDU`s and of the trees that were moved out of them what they would see of values,
whatever was destroyed meanwhile. Each `NMEM` that there is belongs to a `GDU` or to a stream that
is still there. And nothing that is gone is touched or freed, but by `move_away_gdu` of a `GDU` that
was moved away before. -/
theorem gdu_refines (yaz : GduCodec γ α σ) (laws : nmem.Lawful Holds) (is : List (GduCall γ α)) :
    Option.Rel
      (fun memory store => memory.2 = store.2 ∧
        (∃ own, memory.1.Represents Holds store.1 own) ∧
        (∃ c, Holds memory.1.heap c ∧ ∀ r, c.arenas r ≠ none ↔ ∃ x t,
          memory.1.things x = some t ∧ c.owners t.stream = some (some r)) ∧
        ∀ f, .fault f ∈ memory.2 → ∃ pre x y post mid os g, is = pre ++ .moveAway x y :: post ∧
          (gduStore yaz).exec (fun _ => none) pre = some (mid, os) ∧ mid x = some (.gdu g) ∧
          g.moved = true)
      ((gduMemory yaz nmem).exec (.new nmem) is) ((gduStore yaz).exec (fun _ => none) is) := by
  have hstart : ∃ own, (GduMemory.new nmem).Represents Holds (fun _ => none) own :=
    ⟨_, laws.keeps_start, fun _ => .none, fun _ _ _ _ h => (nomatch h), fun _ _ h => (nomatch h)⟩
  have hstep : (gduMemory yaz nmem).Refines (gduStore yaz) _ := gduMemory_step laws
  have hexec := hstep.exec is hstart
  generalize (gduMemory yaz nmem).exec (.new nmem) is = memory at hexec ⊢
  generalize hstore : (gduStore yaz).exec (fun _ => none) is = store at hexec ⊢
  cases hexec with
  | none => exact .none
  | some h =>
    obtain ⟨⟨own, h⟩, same⟩ := h
    obtain ⟨c, holds, owned⟩ := h.holds
    refine .some ⟨same, ⟨own, h⟩, ⟨c, holds, fun r => ⟨fun hlive => ?_, ?_⟩⟩, fun f hf => ?_⟩
    · obtain ⟨o, ho⟩ := owned.kept r hlive
      obtain ⟨x, t, hx, rfl⟩ := h.kept o _ (owned.blocks o r ho)
      exact ⟨x, t, hx, ho⟩
    · rintro ⟨x, t, -, ho⟩
      exact owned.live _ r ho
    · rw [same] at hf
      exact gduStore_fault hstore hf

/-- GDUs that are their octets, and no octets are none. -/
def octetGdus : GduCodec Buf Buf Buf where
  encoder :=
    { createmem := []
      zGdu := fun stream g => (stream ++ g, g ≠ [])
      geterror := fun _ => false
      getelement := fun _ => none
      getbuf := fun stream => stream
      reset := fun _ => [] }
  decoder octets := if octets = [] then none else some octets
  z3950 apdu := apdu.getD []

/-- A tree is moved out of a `GDU` that then goes, as the stream went that it was made in. -/
def movedOut : List (GduCall Buf Buf) :=
  [.odr 0, .build 0 (.gdu (some [0xaf, 0x00])), .ofVar 1 0 0, .destroyOdr 0, .odr 2, .moveAway 1 2,
    .destroy 1, .look 2 0]

theorem gdu_refines_movedOut : ∃ u : GduMemory (ArenaStore (GduTree Buf Buf)),
    (gduMemory octetGdus (arenaStore _)).exec (.new (arenaStore _)) movedOut =
        some (u, [.tree (.gdu (some [0xaf, 0x00]))]) ∧
      ∃ c, ArenaStore.Holds u.heap c ∧ ∀ r, c.arenas r ≠ none ↔ ∃ x t, u.things x = some t ∧
        c.owners t.stream = some (some r) := by
  have refines := gdu_refines octetGdus (arenaStore_lawful (GduTree Buf Buf)) movedOut
  have values : ((gduStore octetGdus).exec (fun _ => none) movedOut).map Prod.snd =
      some [.tree (.gdu (some [0xaf, 0x00]))] := by decide +kernel
  obtain ⟨store, hstore, houts⟩ := Option.map_eq_some_iff.mp values
  rw [hstore] at refines
  generalize hmemory : (gduMemory octetGdus (arenaStore _)).exec (.new (arenaStore _)) movedOut =
    memory at refines ⊢
  cases refines with
  | @some memory _ h => exact ⟨memory.1, congrArg some (Prod.ext rfl (h.1.trans houts)), h.2.2.1⟩

end Yazpp
