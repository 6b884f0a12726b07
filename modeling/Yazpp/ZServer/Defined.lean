import Yazpp.ZServer.Negotiate

/-!
# Whether the members are set when they are used

`init` assigns the sizes of a Retrieval facility and `recv` its streams, and each of the two calls
services. A client usually starts with an init: there `sr_init` runs before any `recv`, on streams
that nobody has assigned. A client that starts with a search makes `pack_records` compare sizes that
nobody has assigned. `set_iff` says which sequences do neither: what first calls a service is an
init, and it comes behind a request that was offered to the facility and taken by a later one.
-/

set_option autoImplicit false

namespace Yazpp

open Yazpp.Lib

variable {σ τ : Type}

/-- A request that a Retrieval facility takes. -/
def Apdu.asks (request : Apdu) : Bool :=
  match request.body with
  | .searchRequest _ | .presentRequest _ => true
  | _ => false

/-- The GDU is a request, other than an init, that goes as far as the facility at `k`. -/
def Gdu.reaches (fs : List Facility) (k : Nat) : Gdu → Bool
  | .z3950 { body := .initRequest _, .. } => false
  | .z3950 request => (fs.take k).all fun f => !f.accepts request
  | .http _ => false

/-- The GDU is a search or present request that goes as far as the facility at `k`. -/
def Gdu.asks (fs : List Facility) (k : Nat) (gdu : Gdu) : Bool :=
  gdu.reaches fs k && match gdu with
    | .z3950 request => request.asks
    | .http _ => false

/-- The streams of the members are the server's, and the sizes were assigned. -/
structure Retrieval.SetBy (s : ZServer σ τ) (m : Retrieval) : Prop where
  odrEncode : m.odrEncode = .assign s.odrEncode
  odrDecode : m.odrDecode = .assign s.odrDecode
  preferred : m.preferredMessageSize.isSet = true
  maximum : m.maximumRecordSize.isSet = true

/-- A GDU behind others: the facility at `k` calls no service for it, or has had from them what the
GDU itself does not bring. -/
structure Ready (fs : List Facility) (k : Nat) (pre : List Gdu) (gdu : Gdu) : Prop where
  init : gdu.initRequest?.isSome → ∃ earlier ∈ pre, earlier.reaches fs k = true
  asks : gdu.asks fs k = true → ∃ earlier ∈ pre, earlier.initRequest?.isSome

/-! ## Where a GDU goes -/

/-- A facility behind a GDU that was read with these facilities. -/
def Facility.behind (s : ZServer σ τ) (k : Nat) (gdu : Gdu) (f : Facility) : Facility :=
  match gdu.initRequest? with
  | some req => f.initialized req
  | none => if gdu.reaches s.facilities k then f.touched s.odrEncode s.odrDecode else f

theorem getElem?_touchedUpTo (encode decode : Odr) (request : Apdu) (fs : List Facility) (k : Nat) :
    (touchedUpTo encode decode request fs)[k]? =
      fs[k]?.map fun f =>
        if (fs.take k).all fun f => !f.accepts request then f.touched encode decode else f := by
  induction fs generalizing k with
  | nil => rfl
  | cons f fs ih =>
    unfold touchedUpTo
    cases k with
    | zero => rfl
    | succ k =>
      rw [List.getElem?_cons_succ, List.getElem?_cons_succ, List.take_succ_cons, List.all_cons]
      cases haccepts : f.accepts request with
      | true =>
        simp only [if_true, Bool.not_true, Bool.false_and, Bool.false_eq_true, if_false]
        exact Option.map_id'.symm ▸ rfl
      | false => simpa only [Bool.false_eq_true, if_false, Bool.not_false, Bool.true_and] using ih k

/-- **One step**, as the facility at `k` sees it. -/
theorem recvGdu_behind (p : ServerParams σ τ) (s : ZServer σ τ) (gdu : Gdu) (k : Nat) :
    (s.recvGdu p gdu).1.facilities[k]? = s.facilities[k]?.map (Facility.behind s k gdu) := by
  cases gdu with
  | http octets => exact Option.map_id'.symm ▸ rfl
  | z3950 request =>
    by_cases init : ∃ req, request.body = .initRequest req
    · obtain ⟨req, hbody⟩ := init
      obtain ⟨id, body⟩ := request
      cases hbody
      rw [(ZServer.recvGdu_init p rfl s).1, List.getElem?_map]
      rfl
    · rw [(ZServer.recvGdu_other p (fun req h => init ⟨req, h⟩) s).1, getElem?_touchedUpTo]
      obtain ⟨id, body⟩ := request
      cases body with
      | initRequest req => exact absurd ⟨req, rfl⟩ init
      | _ => rfl

/-- No GDU changes what a facility takes. -/
theorem Facility.accepts_behind (s : ZServer σ τ) (k : Nat) (gdu : Gdu) (request : Apdu)
    (f : Facility) : (f.behind s k gdu).accepts request = f.accepts request := by
  unfold behind
  split
  · cases f <;> rfl
  · split
    · cases f <;> rfl
    · rfl

theorem accepts_recvGdu (p : ServerParams σ τ) (s : ZServer σ τ) (gdu : Gdu) (request : Apdu) :
    (s.recvGdu p gdu).1.facilities.map (Facility.accepts request) =
      s.facilities.map (Facility.accepts request) := by
  apply List.ext_getElem?
  intro k
  rw [List.getElem?_map, List.getElem?_map, recvGdu_behind, Option.map_map]
  refine congrArg (fun accepts => s.facilities[k]?.map accepts) ?_
  funext f
  exact f.accepts_behind s k gdu request

/-- An init is not offered as the others are. -/
theorem Gdu.reaches_init {gdu : Gdu} {req : InitRequest} (hinit : gdu.initRequest? = some req)
    (fs : List Facility) (k : Nat) : gdu.reaches fs k = false := by
  cases gdu with
  | http octets => cases hinit
  | z3950 request =>
    obtain ⟨id, body⟩ := request
    cases body with
    | initRequest req => rfl
    | _ => cases hinit

/-- So GDUs go as far as they did. -/
theorem reaches_recvGdu (p : ServerParams σ τ) (s : ZServer σ τ) (gdu later : Gdu) (k : Nat) :
    later.reaches (s.recvGdu p gdu).1.facilities k = later.reaches s.facilities k := by
  have taken : ∀ (fs : List Facility) (request : Apdu),
      (fs.take k).all (fun f => !f.accepts request) =
        ((fs.map (Facility.accepts request)).take k).all not := by
    intro fs request
    rw [← List.map_take, List.all_map]
    rfl
  cases later with
  | http octets => rfl
  | z3950 request =>
    obtain ⟨id, body⟩ := request
    cases body with
    | initRequest req => rfl
    | _ =>
      unfold Gdu.reaches
      dsimp only
      rw [taken, taken, accepts_recvGdu]

/-! ## What is known of the members -/

/-- A server that has read these GDUs since it was born: each of its Retrieval facilities has the
sizes set behind an init, and the streams set, to the server's, behind a request that reached it. -/
structure Noted (s₀ : ZServer σ τ) (pre : List Gdu) (s : ZServer σ τ) : Prop where
  streams : s.odrEncode = s₀.odrEncode ∧ s.odrDecode = s₀.odrDecode
  reaches : ∀ (gdu : Gdu) k, gdu.reaches s.facilities k = gdu.reaches s₀.facilities k
  kinds : ∀ k : Nat, (∃ m, s.facilities[k]? = some (.retrieval m)) ↔
    ∃ m, s₀.facilities[k]? = some (.retrieval m)
  sized : ∀ (k : Nat) m, s.facilities[k]? = some (.retrieval m) →
    m.preferredMessageSize.isSet = (pre.any fun gdu => gdu.initRequest?.isSome) ∧
    m.maximumRecordSize.isSet = (pre.any fun gdu => gdu.initRequest?.isSome)
  reached : ∀ (k : Nat) m, s.facilities[k]? = some (.retrieval m) →
    if pre.any fun gdu => gdu.reaches s₀.facilities k then
      m.odrEncode = .assign s₀.odrEncode ∧ m.odrDecode = .assign s₀.odrDecode
    else m.odrEncode.isSet = false ∧ m.odrDecode.isSet = false

theorem noted_born {s : ZServer σ τ} (born : s.Born []) : Noted s [] s where
  streams := ⟨rfl, rfl⟩
  reaches _ _ := rfl
  kinds _ := Iff.rfl
  sized k m hm := by
    have unset := born.unset m (List.mem_of_getElem? hm)
    exact ⟨unset.1, unset.2.1⟩
  reached k m hm := (born.unset m (List.mem_of_getElem? hm)).2.2

/-- What a GDU makes of the members of a Retrieval facility. -/
theorem behind_retrieval {s : ZServer σ τ} {k : Nat} {gdu : Gdu} {f : Facility} {m : Retrieval}
    (hf : f.behind s k gdu = .retrieval m) :
    ∃ m₀, f = .retrieval m₀ ∧ m = match gdu.initRequest? with
      | some req => m₀.init req
      | none =>
        if gdu.reaches s.facilities k then m₀.setStreams s.odrEncode s.odrDecode else m₀ := by
  unfold Facility.behind at hf
  cases f with
  | retrieval m₀ =>
    refine ⟨m₀, rfl, ?_⟩
    split at hf
    · cases hf
      rfl
    · split at hf
      · next hreaches =>
        rw [if_pos hreaches]
        cases hf
        rfl
      · next hreaches =>
        rw [if_neg hreaches]
        cases hf
        rfl
  | ill =>
    split at hf
    · cases hf
    · split at hf
      · cases hf
      · cases hf
  | update =>
    split at hf
    · cases hf
    · split at hf
      · cases hf
      · cases hf

theorem noted_step {p : ServerParams σ τ} {s₀ s : ZServer σ τ} {pre : List Gdu}
    (noted : Noted s₀ pre s) (gdu : Gdu) : Noted s₀ (pre ++ [gdu]) (s.recvGdu p gdu).1 where
  streams := by
    obtain ⟨hencode, hdecode⟩ := ZServer.recvGdu_streams p gdu s
    exact ⟨hencode.trans noted.streams.1, hdecode.trans noted.streams.2⟩
  reaches later k := (reaches_recvGdu p s gdu later k).trans (noted.reaches later k)
  kinds k := by
    rw [← noted.kinds k, recvGdu_behind]
    constructor
    · rintro ⟨m, hm⟩
      obtain ⟨f, hf, hbehind⟩ := Option.map_eq_some_iff.mp hm
      obtain ⟨m₀, rfl, -⟩ := behind_retrieval hbehind
      exact ⟨m₀, hf⟩
    · rintro ⟨m, hm⟩
      rw [hm]
      unfold Facility.behind
      split
      · exact ⟨_, rfl⟩
      · split
        · exact ⟨_, rfl⟩
        · exact ⟨_, rfl⟩
  sized k m hm := by
    rw [recvGdu_behind] at hm
    obtain ⟨f, hf, hbehind⟩ := Option.map_eq_some_iff.mp hm
    obtain ⟨m₀, rfl, rfl⟩ := behind_retrieval hbehind
    have before := noted.sized k m₀ hf
    rw [List.any_append, List.any_cons, List.any_nil, Bool.or_false, ← before.1]
    cases gdu.initRequest? with
    | some req => exact ⟨(Bool.or_true _).symm, (Bool.or_true _).symm⟩
    | none =>
      rw [Option.isSome_none, Bool.or_false]
      dsimp only
      split
      · exact ⟨rfl, before.2.trans before.1.symm⟩
      · exact ⟨rfl, before.2.trans before.1.symm⟩
  reached k m hm := by
    rw [recvGdu_behind] at hm
    obtain ⟨f, hf, hbehind⟩ := Option.map_eq_some_iff.mp hm
    obtain ⟨m₀, rfl, rfl⟩ := behind_retrieval hbehind
    have before := noted.reached k m₀ hf
    rw [List.any_append, List.any_cons, List.any_nil, Bool.or_false, ← noted.reaches gdu k]
    cases hinit : gdu.initRequest? with
    | some req =>
      rw [gdu.reaches_init hinit, Bool.or_false]
      exact before
    | none =>
      cases hreaches : gdu.reaches s.facilities k with
      | true =>
        rw [Bool.or_true, if_pos rfl, ← noted.streams.1, ← noted.streams.2]
        exact ⟨rfl, rfl⟩
      | false =>
        rw [Bool.or_false]
        exact before

theorem noted_exec {p : ServerParams σ τ} {s₀ s s' : ZServer σ τ} {pre is : List Gdu}
    {h : List ServerCall} (noted : Noted s₀ pre s) (run : (zServer p).exec s is = some (s', h)) :
    Noted s₀ (pre ++ is) s' := by
  induction is generalizing pre s h with
  | nil =>
    cases run
    rwa [List.append_nil]
  | cons gdu is ih =>
    obtain ⟨s₁, o₁, o₂, hstep, hrest, -⟩ := Machine.exec_cons.mp run
    obtain ⟨-, hgdu⟩ := zServer_step.mp hstep
    have next := noted_step (p := p) noted gdu
    rw [hgdu] at next
    rw [List.append_cons]
    exact ih next hrest

/-! ## What is used -/

/-- An init calls `sr_init` of every Retrieval facility. -/
theorem initFacilities_used (svc : Service σ) (req : InitRequest) (k : Nat) {i : Nat}
    {fs : List Facility} (res : InitResponse) (app : σ) (total : Nat) {m : Retrieval}
    (hm : fs[i]? = some (.retrieval m)) :
    .facility (k + i) (.uses .srInit (m.init req)) ∈
      (ZServer.initFacilities svc req k fs res app total).calls := by
  induction fs generalizing k i res app total with
  | nil => cases hm
  | cons f fs ih =>
    unfold ZServer.initFacilities
    cases i with
    | zero =>
      cases hm
      exact List.mem_append_left _ (List.mem_map_of_mem (List.mem_singleton_self _))
    | succ i =>
      have later := ih (k + 1) (f.init svc k req res { app := app, total := total }).answer
        (f.init svc k req res { app := app, total := total }).run.app
        (f.init svc k req res { app := app, total := total }).run.total hm
      rw [Nat.add_right_comm, Nat.add_assoc] at later
      exact List.mem_append_right _ later

/-- A request that a Retrieval facility takes calls a service of it. -/
theorem recv_used (p : ServerParams σ τ) (k : Nat) (encode decode : Odr) {request : Apdu}
    (r : Running σ) (m : Retrieval) (asks : request.asks = true) :
    ∃ use, .uses use (m.setStreams encode decode) ∈
      ((Facility.retrieval m).recv p k encode decode request r).run.calls := by
  unfold Apdu.asks at asks
  unfold Facility.recv
  split at asks
  · next sreq hbody =>
    obtain ⟨r', -, used, rest⟩ := Facility.recvSearch_leads p k (m.setStreams encode decode)
      request sreq r
    rw [hbody]
    exact ⟨_, rest.mem used⟩
  · next preq hbody =>
    obtain ⟨r', -, used, rest⟩ := Facility.recvPresent_leads p k (m.setStreams encode decode)
      request preq r
    rw [hbody]
    exact ⟨_, rest.mem used⟩
  · cases asks

theorem recvFacilities_used (p : ServerParams σ τ) (encode decode : Odr) {request : Apdu}
    (k : Nat) {i : Nat} {fs : List Facility} (app : σ) (total : Nat) {m : Retrieval}
    (hm : fs[i]? = some (.retrieval m))
    (first : ((fs.take i).all fun f => !f.accepts request) = true) (asks : request.asks = true) :
    ∃ use, .facility (k + i) (.uses use (m.setStreams encode decode)) ∈
      (ZServer.recvFacilities p encode decode request k fs app total).calls := by
  induction fs generalizing k i app total with
  | nil => cases hm
  | cons f fs ih =>
    unfold ZServer.recvFacilities
    dsimp only
    have hanswer := f.recv_isSome p k encode decode request { app := app, total := total }
    cases i with
    | zero =>
      cases hm
      obtain ⟨use, used⟩ := recv_used p k encode decode { app := app, total := total } m asks
      refine ⟨use, ?_⟩
      split
      · exact List.mem_map_of_mem used
      · exact List.mem_append_left _ (List.mem_map_of_mem used)
    | succ i =>
      rw [List.take_succ_cons, List.all_cons, Bool.and_eq_true, Bool.not_eq_true'] at first
      rw [first.1, Option.isSome_eq_false_iff, Option.isNone_iff_eq_none] at hanswer
      rw [hanswer]
      obtain ⟨use, used⟩ := ih (k + 1)
        (f.recv p k encode decode request { app := app, total := total }).run.app
        (f.recv p k encode decode request { app := app, total := total }).run.total hm first.2
      rw [Nat.add_right_comm, Nat.add_assoc] at used
      exact ⟨use, List.mem_append_right _ used⟩

/-- Nothing else calls one. -/
theorem recvFacilities_asked {p : ServerParams σ τ} {encode decode : Odr} {request : Apdu}
    {k j : Nat} {fs : List Facility} {app : σ} {total : Nat} {use : Use} {m : Retrieval}
    (hmem : .facility j (.uses use m) ∈
      (ZServer.recvFacilities p encode decode request k fs app total).calls) :
    ∃ i, j = k + i ∧ ((fs.take i).all fun f => !f.accepts request) = true ∧
      request.asks = true := by
  induction fs generalizing k app total with
  | nil => cases hmem
  | cons f fs ih =>
    have taken : .facility j (.uses use m) ∈
        (f.recv p k encode decode request { app := app, total := total }).run.tagged k →
        j = k + 0 ∧ f.accepts request = true ∧ request.asks = true := by
      intro hmem
      obtain ⟨rfl, hcall⟩ := ZServer.mem_tagged hmem
      obtain ⟨htouched, haccepts⟩ := Facility.recv_uses hcall
      refine ⟨rfl, haccepts, ?_⟩
      cases f with
      | retrieval m₀ => exact haccepts
      | ill => cases htouched
      | update => cases htouched
    have hanswer := f.recv_isSome p k encode decode request { app := app, total := total }
    unfold ZServer.recvFacilities at hmem
    dsimp only at hmem
    split at hmem
    · obtain ⟨rfl, -, hasks⟩ := taken hmem
      exact ⟨0, rfl, rfl, hasks⟩
    · next hnone =>
      rw [hnone, Option.isSome_none] at hanswer
      rcases List.mem_append.mp hmem with hmem | hmem
      · obtain ⟨-, haccepts, -⟩ := taken hmem
        rw [haccepts] at hanswer
        cases hanswer
      · obtain ⟨i, rfl, first, hasks⟩ := ih hmem
        refine ⟨i + 1, by omega, ?_, hasks⟩
        rw [List.take_succ_cons, List.all_cons, ← hanswer, first]
        rfl

/-- **A GDU calls a service** of the facility at `k` when it is an init, or when it asks it. -/
theorem used_iff {p : ServerParams σ τ} {s : ZServer σ τ} {gdu : Gdu} {k : Nat} {m : Retrieval}
    (hm : s.facilities[k]? = some (.retrieval m)) :
    (∃ use m', .facility k (.uses use m') ∈ (s.recvGdu p gdu).2) ↔
      gdu.initRequest?.isSome ∨ gdu.asks s.facilities k = true := by
  cases gdu with
  | http octets =>
    constructor
    · rintro ⟨use, m', hmem⟩
      cases List.mem_singleton.mp hmem
    · rintro (h | h)
      · cases h
      · cases h
  | z3950 request =>
    by_cases init : ∃ req, request.body = .initRequest req
    · obtain ⟨req, hbody⟩ := init
      have isInit : (Gdu.z3950 request).initRequest? = some req := by
        obtain ⟨id, body⟩ := request
        cases hbody
        rfl
      refine ⟨fun _ => .inl (isInit ▸ rfl), fun _ => ⟨.srInit, m.init req, ?_⟩⟩
      have used := initFacilities_used p.service req 0
        (ZServer.acceptVersions req p.zget.initResponse) s.app
        (s.total + p.zget.size .initResponse) hm
      rw [Nat.zero_add] at used
      simp only [ZServer.recvGdu, ZServer.recvZPdu, hbody, ZServer.recvInit]
      exact List.mem_append_left _ used
    · have hother : ∀ req, request.body ≠ .initRequest req := fun req h => init ⟨req, h⟩
      have notInit : (Gdu.z3950 request).initRequest? = none := by
        obtain ⟨id, body⟩ := request
        cases body with
        | initRequest req => exact absurd rfl (hother req)
        | _ => rfl
      have goes : (Gdu.z3950 request).reaches s.facilities k =
          (s.facilities.take k).all fun f => !f.accepts request := by
        obtain ⟨id, body⟩ := request
        cases body with
        | initRequest req => exact absurd rfl (hother req)
        | _ => rfl
      have calls : ∀ use m', .facility k (.uses use m') ∈ (s.recvGdu p (.z3950 request)).2 ↔
          .facility k (.uses use m') ∈ (ZServer.recvFacilities p s.odrEncode s.odrDecode request 0
            s.facilities s.app s.total).calls := by
        intro use m'
        rw [ZServer.recvGdu, ZServer.recvZPdu_other p hother]
        dsimp only
        split
        · exact ⟨fun hmem => (List.mem_append.mp hmem).resolve_right
            ((ZServer.sendZPdu_facilities p _ _).2 k _), List.mem_append_left _⟩
        · exact ⟨fun hmem => (List.mem_append.mp hmem).resolve_right (by simp),
            List.mem_append_left _⟩
      simp only [calls, notInit, Gdu.asks, goes, Option.isSome_none, Bool.false_eq_true, false_or,
        Bool.and_eq_true]
      constructor
      · rintro ⟨use, m', hmem⟩
        obtain ⟨i, hi, first, asks⟩ := recvFacilities_asked hmem
        rw [Nat.zero_add] at hi
        subst hi
        exact ⟨first, asks⟩
      · rintro ⟨first, asks⟩
        obtain ⟨use, used⟩ :=
          recvFacilities_used p s.odrEncode s.odrDecode 0 s.app s.total hm first asks
        rw [Nat.zero_add] at used
        exact ⟨use, _, used⟩

/-! ## When the members are set -/

/-- Members are set behind an init and a request that was offered to the facility. -/
theorem setBy_iff {s₀ s : ZServer σ τ} {pre : List Gdu} (noted : Noted s₀ pre s) {k : Nat}
    {m : Retrieval} (hm : s.facilities[k]? = some (.retrieval m)) :
    m.SetBy s₀ ↔ (∃ gdu ∈ pre, gdu.reaches s₀.facilities k = true) ∧
      ∃ gdu ∈ pre, gdu.initRequest?.isSome = true := by
  have sized := noted.sized k m hm
  have reached := noted.reached k m hm
  rw [← List.any_eq_true, ← List.any_eq_true, ← sized.1]
  constructor
  · intro set
    refine ⟨?_, set.preferred⟩
    by_cases some : (pre.any fun gdu => gdu.reaches s₀.facilities k) = true
    · exact some
    · rw [if_neg some, set.odrEncode] at reached
      cases reached.1
  · rintro ⟨some, preferred⟩
    rw [if_pos some] at reached
    exact ⟨reached.1, reached.2, preferred, sized.2.trans (sized.1.symm.trans preferred)⟩

/-- One GDU: everything that it uses is set, exactly when every facility is ready for it. -/
theorem set_step_iff (p : ServerParams σ τ) {s₀ s : ZServer σ τ} {pre : List Gdu}
    (noted : Noted s₀ pre s) (gdu : Gdu) :
    (∀ k use m, .facility k (.uses use m) ∈ (s.recvGdu p gdu).2 → m.SetBy s₀) ↔
      ∀ (k : Nat) m, s₀.facilities[k]? = some (.retrieval m) → Ready s₀.facilities k pre gdu := by
  have next := noted_step (p := p) noted gdu
  have asked : ∀ k, gdu.asks s.facilities k = gdu.asks s₀.facilities k := fun k => by
    unfold Gdu.asks
    rw [noted.reaches gdu k]
  have last : ∀ q : Gdu → Bool, (∃ g ∈ pre ++ [gdu], q g = true) ↔
      (∃ g ∈ pre, q g = true) ∨ q gdu = true := by
    intro q
    simp only [List.mem_append, List.mem_singleton, or_and_right, exists_or, exists_eq_left]
  constructor
  · intro set k m₀ hm₀
    obtain ⟨m, hm⟩ := (noted.kinds k).mpr ⟨m₀, hm₀⟩
    -- a service that is called has members that are set, so both have come before
    have both : gdu.initRequest?.isSome ∨ gdu.asks s.facilities k = true →
        (∃ g ∈ pre ++ [gdu], g.reaches s₀.facilities k = true) ∧
          ∃ g ∈ pre ++ [gdu], g.initRequest?.isSome = true := by
      intro called
      obtain ⟨use, m', used⟩ := (used_iff (p := p) hm).mpr called
      exact (setBy_iff next (ZServer.recvGdu_uses used)).mp (set k use m' used)
    rw [last, last] at both
    constructor
    · intro init
      obtain ⟨req, hreq⟩ := Option.isSome_iff_exists.mp init
      refine (both (.inl init)).1.resolve_right ?_
      rw [gdu.reaches_init hreq]
      exact Bool.false_ne_true
    · intro asks
      refine (both (.inr ((asked k).trans asks))).2.resolve_right ?_
      intro init
      obtain ⟨req, hreq⟩ := Option.isSome_iff_exists.mp init
      unfold Gdu.asks at asks
      rw [gdu.reaches_init hreq] at asks
      cases asks
  · intro ready k use m used
    have hm := ZServer.recvGdu_uses used
    obtain ⟨m₀, hm₀⟩ := (next.kinds k).mp ⟨m, hm⟩
    obtain ⟨m₁, hm₁⟩ := (noted.kinds k).mpr ⟨m₀, hm₀⟩
    rw [setBy_iff next hm, last, last]
    rcases (used_iff hm₁).mp ⟨use, m, used⟩ with init | asks
    · exact ⟨.inl ((ready k m₀ hm₀).init init), .inr init⟩
    · rw [asked] at asks
      refine ⟨.inr ?_, .inl ((ready k m₀ hm₀).asks asks)⟩
      unfold Gdu.asks at asks
      exact (Bool.and_eq_true _ _ ▸ asks).1

/-- **Set when used, exactly when**: in a run of a server from its birth on, whatever its facilities
are, all the members that its Retrieval facilities use are set, if and only if each of the
facilities is ready for each of the GDUs. -/
theorem set_iff {p : ServerParams σ τ} {s s' : ZServer σ τ} (born : s.Born []) {is : List Gdu}
    {h : List ServerCall} (run : (zServer p).exec s is = some (s', h)) :
    (∀ k use m, .facility k (.uses use m) ∈ h → m.SetBy s) ↔
      ∀ (k : Nat) m, s.facilities[k]? = some (.retrieval m) →
        ∀ pre gdu post, is = pre ++ gdu :: post → Ready s.facilities k pre gdu := by
  constructor
  · intro set k m hm pre gdu post his
    obtain ⟨mid, k', next, os, hpre, hstep, hsub⟩ := Machine.exec_split (his ▸ run)
    obtain ⟨-, hgdu⟩ := zServer_step.mp hstep
    refine (set_step_iff p (noted_exec (noted_born born) hpre) gdu).mp ?_ k m hm
    rw [hgdu]
    exact fun k use m used => set k use m (hsub used)
  · intro ready k use m hmem
    obtain ⟨pre, gdu, post, mid, k', next, os, his, hpre, hstep, hos⟩ := Machine.exec_mem run hmem
    obtain ⟨-, hgdu⟩ := zServer_step.mp hstep
    have step := (set_step_iff p (noted_exec (noted_born born) hpre) gdu).mpr
      fun k m hm => ready k m hm pre gdu post his
    rw [hgdu] at step
    exact step k use m hos

/-- An update that the Retrieval facility passes on, before the init: both are fine. -/
theorem set_iff_update : ∃ s h,
    (zServer (.sized 200)).exec (.fresh [.retrieval .unset, .update])
      [.z3950 { body := .extendedServicesRequest .updating },
        .z3950 { body := .initRequest (.proposing 2000 2000) }] = some (s, h) ∧
    ∀ k use m, .facility k (.uses use m) ∈ h → m.SetBy s := by
  obtain ⟨s, h, run⟩ : ∃ s h, (zServer (.sized 200)).exec (.fresh [.retrieval .unset, .update])
      [.z3950 { body := .extendedServicesRequest .updating },
        .z3950 { body := .initRequest (.proposing 2000 2000) }] = some (s, h) := ⟨_, _, rfl⟩
  have born : (ZServer.fresh [.retrieval .unset, .update]).Born [] := by
    refine ⟨rfl, ?_, rfl⟩
    intro m hm
    rcases List.mem_cons.mp hm with hm | hm
    · cases hm
      exact ⟨rfl, rfl, rfl, rfl⟩
    · cases List.mem_singleton.mp hm
  have streams := (noted_exec (noted_born born) run).streams
  refine ⟨s, h, run, ?_⟩
  intro k use m used
  have set := (set_iff born run).mpr ?_ k use m used
  · exact ⟨streams.1 ▸ set.odrEncode, streams.2 ▸ set.odrDecode, set.preferred, set.maximum⟩
  · intro k m hm pre gdu post his
    have at₀ : k = 0 := by
      rcases k with _ | _ | k
      · rfl
      · cases hm
      · cases hm
    subst at₀
    rcases pre with _ | ⟨first, _ | ⟨second, pre⟩⟩
    · cases his
      exact ⟨by decide, by decide⟩
    · cases his
      exact ⟨fun _ => ⟨_, List.mem_cons_self, rfl⟩, by decide⟩
    · have short := congrArg List.length his
      simp only [List.cons_append, List.length_cons, List.length_append, List.length_nil] at short
      omega

/-- A client that starts with an init: `sr_init` finds streams that nobody has assigned. -/
theorem not_set : ∃ s h,
    (zServer (.sized 200)).exec (.fresh [.retrieval .unset])
      [.z3950 { body := .initRequest (.proposing 2000 2000) }] = some (s, h) ∧
    ∃ m, .facility 0 (.uses .srInit m) ∈ h ∧ m.odrEncode.isSet = false ∧
      m.odrDecode.isSet = false ∧ ¬ m.SetBy s := by
  refine ⟨_, _, rfl, Retrieval.unset.init (.proposing 2000 2000), List.mem_cons_self, rfl, rfl, ?_⟩
  intro set
  cases set.odrEncode

end Yazpp
