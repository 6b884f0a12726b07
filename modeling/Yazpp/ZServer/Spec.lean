import Mathlib.Algebra.Group.Int.Defs
import Mathlib.Algebra.Group.Nat.Defs
import Yazpp.ZServer.Model
import Yazpp.ZServer.Pack

/-!
# What a request does to the facilities

Which requests a facility takes is a matter of the facility's kind and of the request alone
(`Facility.accepts`), and so is what it makes of its members: an init assigns the sizes of every
Retrieval facility, and any other request assigns the streams of those that it reaches. The two
walks of `recv_Z_PDU` are read off these (`initFacilities_eq`, `recvFacilities_eq`).
-/

set_option autoImplicit false

namespace Yazpp

open Yazpp.Lib

variable {σ τ : Type}

/-- The requests that a facility takes. -/
def Facility.accepts (request : Apdu) : Facility → Bool
  | .retrieval _ =>
    match request.body with
    | .searchRequest _ | .presentRequest _ => true
    | _ => false
  | .ill =>
    match request.body with
    | .extendedServicesRequest { taskSpecificParameters := some (.itemOrder, _) } => true
    | _ => false
  | .update =>
    match request.body with
    | .extendedServicesRequest { taskSpecificParameters := some (.update, _) } => true
    | .extendedServicesRequest { taskSpecificParameters := some (.update0, _) } => true
    | _ => false

/-- The APDU that a call sends. -/
def ServerCall.sent? : ServerCall → Option Apdu
  | .sendZPdu apdu => some apdu
  | _ => none

/-- What a history sends, in order. -/
def sent (h : List ServerCall) : List Apdu := h.filterMap ServerCall.sent?

theorem sent_append (h k : List ServerCall) : sent (h ++ k) = sent h ++ sent k :=
  List.filterMap_append

/-- A facility behind an init request. -/
def Facility.initialized (req : InitRequest) : Facility → Facility
  | .retrieval m => .retrieval (m.init req)
  | f => f

/-- A facility that another request has reached. -/
def Facility.touched (encode decode : Odr) : Facility → Facility
  | .retrieval m => .retrieval (m.setStreams encode decode)
  | f => f

/-- The facilities behind a request: it reaches them up to the one that takes it. -/
def touchedUpTo (encode decode : Odr) (request : Apdu) : List Facility → List Facility
  | [] => []
  | f :: fs =>
    f.touched encode decode ::
      if f.accepts request then fs else touchedUpTo encode decode request fs

/-- The first facility that takes a request. -/
def taker? (request : Apdu) (fs : List Facility) : Option Facility :=
  fs.find? (Facility.accepts request)

namespace Facility

theorem init_facility (svc : Service σ) (k : Nat) (req : InitRequest) (res : InitResponse)
    (r : Running σ) (f : Facility) : (f.init svc k req res r).facility = f.initialized req := by
  cases f <;> rfl

theorem recv_facility (p : ServerParams σ τ) (k : Nat) (encode decode : Odr) (request : Apdu)
    (r : Running σ) (f : Facility) :
    (f.recv p k encode decode request r).facility = f.touched encode decode := by
  cases f with
  | retrieval m =>
    unfold recv
    dsimp only
    cases request.body <;> rfl
  | ill =>
    unfold recv
    cases request.body with
    | extendedServicesRequest req =>
      obtain ⟨_ | ⟨which, package⟩⟩ := req
      · rfl
      · cases which <;> rfl
    | _ => rfl
  | update =>
    unfold recv
    cases request.body with
    | extendedServicesRequest req =>
      obtain ⟨_ | ⟨which, package⟩⟩ := req
      · rfl
      · cases which <;> rfl
    | _ => rfl

/-- A facility answers the requests that it takes, and only these. -/
theorem recv_isSome (p : ServerParams σ τ) (k : Nat) (encode decode : Odr) (request : Apdu)
    (r : Running σ) (f : Facility) :
    (f.recv p k encode decode request r).answer.isSome = f.accepts request := by
  cases f with
  | retrieval m =>
    unfold recv accepts
    dsimp only
    cases request.body <;> rfl
  | ill =>
    unfold recv accepts
    cases request.body with
    | extendedServicesRequest req =>
      obtain ⟨_ | ⟨which, package⟩⟩ := req
      · rfl
      · cases which <;> rfl
    | _ => rfl
  | update =>
    unfold recv accepts
    cases request.body with
    | extendedServicesRequest req =>
      obtain ⟨_ | ⟨which, package⟩⟩ := req
      · rfl
      · cases which <;> rfl
    | _ => rfl

end Facility

/-! ## What a facility uses -/

/-- What is running has gone on, and has used these members only. -/
def Running.LeadsTo (m : Retrieval) (r r' : Running σ) : Prop :=
  ∃ more, r'.calls = r.calls ++ more ∧ ∀ use m', .uses use m' ∈ more → m' = m

namespace Running.LeadsTo

variable {m : Retrieval} {r r₁ r₂ : Running σ}

theorem rfl : r.LeadsTo m r :=
  ⟨[], (List.append_nil _).symm, fun _ _ hmem => absurd hmem List.not_mem_nil⟩

theorem trans (first : r.LeadsTo m r₁) (second : r₁.LeadsTo m r₂) : r.LeadsTo m r₂ := by
  obtain ⟨more₁, hcalls₁, only₁⟩ := first
  obtain ⟨more₂, hcalls₂, only₂⟩ := second
  refine ⟨more₁ ++ more₂, by rw [hcalls₂, hcalls₁, List.append_assoc], ?_⟩
  intro use m' hmem
  rcases List.mem_append.mp hmem with hmem | hmem
  · exact only₁ use m' hmem
  · exact only₂ use m' hmem

theorem malloc (leads : r.LeadsTo m r₁) (size : Nat) : r.LeadsTo m (r₁.malloc size) := by
  refine leads.trans ⟨[.odrMalloc size], Eq.refl _, ?_⟩
  intro use m' hmem
  cases List.mem_singleton.mp hmem

theorem use (leads : r.LeadsTo m r₁) (use : Use) : r.LeadsTo m (r₁.use use m) := by
  refine leads.trans ⟨[.uses use m], Eq.refl _, ?_⟩
  intro use' m' hmem
  cases List.mem_singleton.mp hmem
  exact Eq.refl _

theorem serve {α : Type} (leads : r.LeadsTo m r₁) (served : Served σ α) :
    r.LeadsTo m (r₁.serve served) := leads

/-- What was called stays called. -/
theorem mem (leads : r.LeadsTo m r₁) {call : FacilityCall} (hmem : call ∈ r.calls) :
    call ∈ r₁.calls := by
  obtain ⟨more, hcalls, -⟩ := leads
  exact hcalls ▸ List.mem_append_left _ hmem

/-- From the start on, only these members were used. -/
theorem uses {app : σ} {total : Nat}
    (leads : Running.LeadsTo m { app := app, total := total } r₁) {use : Use} {m' : Retrieval}
    (hmem : .uses use m' ∈ r₁.calls) : m' = m := by
  obtain ⟨more, hcalls, only⟩ := leads
  rw [hcalls] at hmem
  exact only use m' hmem

variable {sz : Sizeof} {svc : Service σ} {k : Nat}

theorem fetchRecord (sz : Sizeof) (svc : Service σ) (k : Nat) (req : PackRequest) (recno : Int)
    (leads : r.LeadsTo m r₁) : r.LeadsTo m (fetchRecord sz svc k m req recno r₁).run := by
  have served := ((leads.malloc sz.namePlusRecord).use (.srRecord recno)).serve
    (svc.srRecord k r₁.app req.resultSetName recno req.format req.comp)
  unfold Yazpp.fetchRecord
  dsimp only
  split
  · exact served.malloc _
  · exact served

theorem packOne (sz : Sizeof) (svc : Service σ) (k : Nat) (req : PackRequest) (recno : Int)
    {p : Packing σ} (leads : r.LeadsTo m p.run) :
    r.LeadsTo m (packOne sz svc k m req recno p).1.run := by
  have fetched := leads.fetchRecord sz svc k req recno
  unfold Yazpp.packOne
  dsimp only
  split
  · exact fetched
  · have compared := fetched.use .compareSizes
    split
    · exact compared
    · exact compared
    · exact compared.malloc _

theorem packLoop {req : PackRequest} {left : Nat} {recno : Int} {p : Packing σ}
    (leads : r.LeadsTo m p.run) : r.LeadsTo m (packLoop sz svc k m req left recno p).run := by
  induction left generalizing recno p with
  | zero => exact leads
  | succ left ih =>
    have one := leads.packOne sz svc k req recno
    unfold Yazpp.packLoop
    split
    · next q hout =>
      rw [hout] at one
      exact ih one
    · next q hout =>
      rw [hout] at one
      exact one

theorem packRecords (req : PackRequest) (start : Int) (leads : r.LeadsTo m r₁) :
    r.LeadsTo m (packRecords sz svc k m req start r₁).run :=
  packLoop (((leads.malloc _).malloc _).malloc _)

end Running.LeadsTo

namespace Facility

/-- A search request calls `sr_search`, with the members as the request finds them, and goes on
with these. -/
theorem recvSearch_leads (p : ServerParams σ τ) (k : Nat) (m : Retrieval) (request : Apdu)
    (sreq : SearchRequest) (r : Running σ) :
    ∃ r', r.LeadsTo m r' ∧ .uses .srSearch m ∈ r'.calls ∧
      r'.LeadsTo m (recvSearch p k m request sreq r).run := by
  refine ⟨((transfer p.sizeof request { body := .searchResponse p.zget.searchResponse }
    (createZPdu p.zget .searchResponse r)).2).use .srSearch m, Running.LeadsTo.rfl.use _,
    List.mem_append_right _ (List.mem_singleton_self _), ?_⟩
  unfold recvSearch
  dsimp only
  split
  · unfold fetchViaPiggyback
    dsimp only
    have served : ∀ r₁ : Running σ, r₁.LeadsTo m r₁ := fun _ => .rfl
    split
    · exact Running.LeadsTo.packRecords _ _ ((((served _).serve _).malloc _).malloc _ |>.malloc _)
    · exact (((served _).serve _).malloc _).malloc _
  · exact Running.LeadsTo.rfl.serve _

/-- So does a present request, with `sr_present`. -/
theorem recvPresent_leads (p : ServerParams σ τ) (k : Nat) (m : Retrieval) (request : Apdu)
    (preq : PresentRequest) (r : Running σ) :
    ∃ r', r.LeadsTo m r' ∧ .uses .srPresent m ∈ r'.calls ∧
      r'.LeadsTo m (recvPresent p k m request preq r).run := by
  refine ⟨((transfer p.sizeof request { body := .presentResponse p.zget.presentResponse }
    (createZPdu p.zget .presentResponse r)).2).use .srPresent m, Running.LeadsTo.rfl.use _,
    List.mem_append_right _ (List.mem_singleton_self _), ?_⟩
  unfold recvPresent
  dsimp only
  split
  · exact Running.LeadsTo.packRecords _ _ (Running.LeadsTo.rfl.serve _)
  · exact Running.LeadsTo.rfl.serve _

/-- **What a facility uses are its members**, behind the assignments that the request makes. -/
theorem recv_uses {p : ServerParams σ τ} {k : Nat} {encode decode : Odr} {request : Apdu}
    {app : σ} {total : Nat} {f : Facility} {use : Use} {m : Retrieval}
    (hmem : .uses use m ∈
      (f.recv p k encode decode request { app := app, total := total }).run.calls) :
    f.touched encode decode = .retrieval m ∧ f.accepts request = true := by
  have none : .uses use m ∉ ({ app := app, total := total } : Running σ).calls := List.not_mem_nil
  have extended : ∀ {g : Facility} {call : FacilityCall}
      {service : σ → ExtendedServicesResponse → Served σ ExtendedServicesResponse},
      .uses use m ∈ (recvExtended p g call service request
        { app := app, total := total }).run.calls → .uses use m = call := fun hmem =>
    List.mem_singleton.mp hmem
  cases f with
  | retrieval m₀ =>
    unfold recv at hmem
    unfold accepts
    dsimp only at hmem
    split at hmem
    · next sreq hbody =>
      obtain ⟨r', first, -, rest⟩ := recvSearch_leads p k (m₀.setStreams encode decode) request
        sreq { app := app, total := total }
      rw [(first.trans rest).uses hmem, hbody]
      exact ⟨rfl, rfl⟩
    · next preq hbody =>
      obtain ⟨r', first, -, rest⟩ := recvPresent_leads p k (m₀.setStreams encode decode) request
        preq { app := app, total := total }
      rw [(first.trans rest).uses hmem, hbody]
      exact ⟨rfl, rfl⟩
    · exact absurd hmem none
  | ill =>
    simp only [recv] at hmem
    split at hmem
    · split at hmem
      · cases extended hmem
      · exact absurd hmem none
    · exact absurd hmem none
  | update =>
    simp only [recv] at hmem
    split at hmem
    · split at hmem
      · cases extended hmem
      · cases extended hmem
      · exact absurd hmem none
    · exact absurd hmem none

/-- `sr_init` may use the members as `init` has assigned them. -/
theorem init_uses {svc : Service σ} {k : Nat} {req : InitRequest} {res : InitResponse} {app : σ}
    {total : Nat} {f : Facility} {use : Use} {m : Retrieval}
    (hmem : .uses use m ∈ (f.init svc k req res { app := app, total := total }).run.calls) :
    f.initialized req = .retrieval m := by
  cases f with
  | retrieval m₀ =>
    cases List.mem_singleton.mp hmem
    rfl
  | ill => cases hmem
  | update => cases hmem

end Facility

/-! ## The two walks -/

namespace ZServer

/-- An init request reaches every facility. -/
theorem initFacilities_eq (svc : Service σ) (req : InitRequest) (k : Nat) (fs : List Facility)
    (res : InitResponse) (app : σ) (total : Nat) :
    (initFacilities svc req k fs res app total).facilities =
      fs.map (Facility.initialized req) := by
  induction fs generalizing k res app total with
  | nil => rfl
  | cons f fs ih =>
    simp only [initFacilities, Facility.init_facility, ih, List.map_cons]

/-- Any other request reaches the facilities up to the first that takes it. -/
theorem recvFacilities_eq (p : ServerParams σ τ) (encode decode : Odr) (request : Apdu) (k : Nat)
    (fs : List Facility) (app : σ) (total : Nat) :
    (recvFacilities p encode decode request k fs app total).facilities =
        touchedUpTo encode decode request fs ∧
      (recvFacilities p encode decode request k fs app total).answer.isSome =
        (taker? request fs).isSome := by
  induction fs generalizing k app total with
  | nil => exact ⟨rfl, rfl⟩
  | cons f fs ih =>
    have hfacility := f.recv_facility p k encode decode request { app := app, total := total }
    have hanswer := f.recv_isSome p k encode decode request { app := app, total := total }
    unfold recvFacilities touchedUpTo taker?
    dsimp only
    cases hrecv : (f.recv p k encode decode request { app := app, total := total }).answer with
    | some response =>
      rw [hrecv] at hanswer
      simp only [hfacility, ← hanswer, Option.isSome_some, if_true, List.find?_cons, and_self]
    | none =>
      rw [hrecv] at hanswer
      obtain ⟨hrest, htaker⟩ :=
        ih (k + 1) (f.recv p k encode decode request { app := app, total := total }).run.app
          (f.recv p k encode decode request { app := app, total := total }).run.total
      simp only [hfacility, ← hanswer, hrest, Option.isSome_none, Bool.false_eq_true, if_false,
        List.find?_cons, true_and]
      exact htaker

/-- A call of a tagged run is a call of the run. -/
theorem mem_tagged {k j : Nat} {r : Running σ} {call : FacilityCall}
    (hmem : .facility j call ∈ r.tagged k) : j = k ∧ call ∈ r.calls := by
  obtain ⟨call', hcall, heq⟩ := List.mem_map.mp hmem
  cases heq
  exact ⟨rfl, hcall⟩

/-- The facilities send nothing themselves. -/
theorem sent_tagged (k : Nat) (r : Running σ) : sent (r.tagged k) = [] := by
  apply List.filterMap_eq_nil_iff.mpr
  intro c hc
  obtain ⟨call, -, rfl⟩ := List.mem_map.mp hc
  rfl

theorem sent_initFacilities (svc : Service σ) (req : InitRequest) (k : Nat) (fs : List Facility)
    (res : InitResponse) (app : σ) (total : Nat) :
    sent (initFacilities svc req k fs res app total).calls = [] := by
  induction fs generalizing k res app total with
  | nil => rfl
  | cons f fs ih => simp only [initFacilities, sent_append, sent_tagged, ih, List.append_nil]

theorem sent_recvFacilities (p : ServerParams σ τ) (encode decode : Odr) (request : Apdu) (k : Nat)
    (fs : List Facility) (app : σ) (total : Nat) :
    sent (recvFacilities p encode decode request k fs app total).calls = [] := by
  induction fs generalizing k app total with
  | nil => rfl
  | cons f fs ih =>
    unfold recvFacilities
    dsimp only
    split
    · exact sent_tagged ..
    · rw [sent_append, sent_tagged, ih]
      rfl

/-- What is used on the way through an init are the members that it leaves. -/
theorem initFacilities_uses {svc : Service σ} {req : InitRequest} {k j : Nat} {fs : List Facility}
    {res : InitResponse} {app : σ} {total : Nat} {use : Use} {m : Retrieval}
    (hmem : .facility j (.uses use m) ∈ (initFacilities svc req k fs res app total).calls) :
    ∃ i, j = k + i ∧
      (initFacilities svc req k fs res app total).facilities[i]? = some (.retrieval m) := by
  induction fs generalizing k res app total with
  | nil => cases hmem
  | cons f fs ih =>
    rcases List.mem_append.mp hmem with hmem | hmem
    · obtain ⟨rfl, hcall⟩ := mem_tagged hmem
      refine ⟨0, rfl, ?_⟩
      rw [initFacilities_eq, List.map_cons, List.getElem?_cons_zero, Facility.init_uses hcall]
    · obtain ⟨i, rfl, hi⟩ := ih hmem
      exact ⟨i + 1, by omega, hi⟩

/-- What is used on the way to the facility that takes a request are the members that are left. -/
theorem recvFacilities_uses {p : ServerParams σ τ} {encode decode : Odr} {request : Apdu}
    {k j : Nat} {fs : List Facility} {app : σ} {total : Nat} {use : Use} {m : Retrieval}
    (hmem : .facility j (.uses use m) ∈
      (recvFacilities p encode decode request k fs app total).calls) :
    ∃ i, j = k + i ∧
      (recvFacilities p encode decode request k fs app total).facilities[i]? =
        some (.retrieval m) := by
  induction fs generalizing k app total with
  | nil => cases hmem
  | cons f fs ih =>
    have first : .facility j (.uses use m) ∈
        (f.recv p k encode decode request { app := app, total := total }).run.tagged k →
        j = k + 0 ∧ (f.recv p k encode decode request { app := app, total := total }).facility =
          .retrieval m := by
      intro hmem
      obtain ⟨rfl, hcall⟩ := mem_tagged hmem
      rw [Facility.recv_facility]
      exact ⟨rfl, (Facility.recv_uses hcall).1⟩
    unfold recvFacilities at hmem ⊢
    dsimp only at hmem ⊢
    split at hmem
    · next response hrecv =>
      obtain ⟨hj, hfacility⟩ := first hmem
      exact ⟨0, hj, congrArg some hfacility⟩
    · next hrecv =>
      rcases List.mem_append.mp hmem with hmem | hmem
      · obtain ⟨hj, hfacility⟩ := first hmem
        exact ⟨0, hj, congrArg some hfacility⟩
      · obtain ⟨i, rfl, hi⟩ := ih hmem
        exact ⟨i + 1, by omega, hi⟩

/-- One APDU is sent. -/
theorem sent_sendZPdu (p : ServerParams σ τ) (apdu : Apdu) (s : ZServer σ τ) :
    sent (s.sendZPdu p apdu).2 = [apdu] := by
  have log : (((s.assoc.sendGdu p.odr (.z3950 apdu) 0).calls).map ServerCall.assoc).filterMap
      ServerCall.sent? = [] := by
    apply List.filterMap_eq_nil_iff.mpr
    intro c hc
    obtain ⟨call, -, rfl⟩ := List.mem_map.mp hc
    rfl
  show apdu :: (((s.assoc.sendGdu p.odr (.z3950 apdu) 0).calls).map ServerCall.assoc).filterMap
      ServerCall.sent? = [apdu]
  rw [log]

/-- Sending leaves the facilities, and is no call of theirs. -/
theorem sendZPdu_facilities (p : ServerParams σ τ) (apdu : Apdu) (s : ZServer σ τ) :
    (s.sendZPdu p apdu).1.facilities = s.facilities ∧
      ∀ k call, .facility k call ∉ (s.sendZPdu p apdu).2 := by
  refine ⟨rfl, ?_⟩
  intro k call hmem
  rcases List.mem_cons.mp hmem with h | hmem
  · cases h
  · obtain ⟨c, -, h⟩ := List.mem_map.mp hmem
    cases h

/-- **A use is a use of the members as the step leaves them.** -/
theorem recvGdu_uses {p : ServerParams σ τ} {gdu : Gdu} {s : ZServer σ τ} {k : Nat} {use : Use}
    {m : Retrieval} (hmem : .facility k (.uses use m) ∈ (s.recvGdu p gdu).2) :
    (s.recvGdu p gdu).1.facilities[k]? = some (.retrieval m) := by
  cases gdu with
  | http octets =>
    cases List.mem_singleton.mp hmem
  | z3950 request =>
    simp only [recvGdu, recvZPdu] at hmem ⊢
    split at hmem
    · next req hbody =>
      simp only [recvInit] at hmem ⊢
      rcases List.mem_append.mp hmem with hmem | hmem
      · obtain ⟨i, hk, hi⟩ := initFacilities_uses hmem
        rw [hk, Nat.zero_add]
        exact hi
      · exact absurd hmem ((sendZPdu_facilities p _ _).2 k _)
    · split at hmem
      · next response hanswer =>
        rcases List.mem_append.mp hmem with hmem | hmem
        · obtain ⟨i, hk, hi⟩ := recvFacilities_uses hmem
          rw [hk, Nat.zero_add]
          exact hi
        · exact absurd hmem ((sendZPdu_facilities p _ _).2 k _)
      · next hanswer =>
        rcases List.mem_append.mp hmem with hmem | hmem
        · obtain ⟨i, hk, hi⟩ := recvFacilities_uses hmem
          rw [hk, Nat.zero_add]
          exact hi
        · simp at hmem

/-! ## One step -/

/-- A server behind an init request. -/
theorem recvGdu_init (p : ServerParams σ τ) {request : Apdu} {req : InitRequest}
    (hbody : request.body = .initRequest req) (s : ZServer σ τ) :
    (s.recvGdu p (.z3950 request)).1.facilities =
        s.facilities.map (Facility.initialized req) ∧
      (s.recvGdu p (.z3950 request)).1.alive = s.alive := by
  simp only [recvGdu, recvZPdu, hbody, recvInit]
  exact ⟨initFacilities_eq .., rfl⟩

/-- A request that is no init goes to the facilities. -/
theorem recvZPdu_other (p : ServerParams σ τ) {request : Apdu}
    (hbody : ∀ req, request.body ≠ .initRequest req) (s : ZServer σ τ) :
    s.recvZPdu p request =
      let walked := recvFacilities p s.odrEncode s.odrDecode request 0 s.facilities s.app s.total
      let s := { s with facilities := walked.facilities, app := walked.app, total := walked.total }
      match walked.answer with
      | some response => ((s.sendZPdu p response).1, walked.calls ++ (s.sendZPdu p response).2)
      | none =>
        ({ s with alive := false }, walked.calls ++ [.unhandled request.which, .deleteThis]) := by
  unfold recvZPdu
  split
  · next req h => exact absurd h (hbody req)
  · rfl

/-- A server behind any other request. -/
theorem recvGdu_other (p : ServerParams σ τ) {request : Apdu}
    (hbody : ∀ req, request.body ≠ .initRequest req) (s : ZServer σ τ) :
    (s.recvGdu p (.z3950 request)).1.facilities =
        touchedUpTo s.odrEncode s.odrDecode request s.facilities ∧
      (s.recvGdu p (.z3950 request)).1.alive =
        (s.alive && (taker? request s.facilities).isSome) := by
  obtain ⟨hfacilities, hanswer⟩ :=
    recvFacilities_eq p s.odrEncode s.odrDecode request 0 s.facilities s.app s.total
  rw [recvGdu, recvZPdu_other p hbody]
  dsimp only
  generalize recvFacilities p s.odrEncode s.odrDecode request 0 s.facilities s.app s.total = walked
    at *
  cases h : walked.answer with
  | some response =>
    rw [h] at hanswer
    refine ⟨hfacilities, ?_⟩
    rw [← hanswer]
    exact (Bool.and_true _).symm
  | none =>
    rw [h] at hanswer
    refine ⟨hfacilities, ?_⟩
    rw [← hanswer]
    exact (Bool.and_false _).symm

/-- The streams of a server are the same for good. -/
theorem recvGdu_streams (p : ServerParams σ τ) (gdu : Gdu) (s : ZServer σ τ) :
    (s.recvGdu p gdu).1.odrEncode = s.odrEncode ∧ (s.recvGdu p gdu).1.odrDecode = s.odrDecode := by
  cases gdu with
  | http octets => exact ⟨rfl, rfl⟩
  | z3950 request =>
    by_cases init : ∃ req, request.body = .initRequest req
    · obtain ⟨req, hbody⟩ := init
      simp only [recvGdu, recvZPdu, hbody]
      exact ⟨rfl, rfl⟩
    · rw [recvGdu, recvZPdu_other p fun req h => init ⟨req, h⟩]
      dsimp only
      split <;> exact ⟨rfl, rfl⟩

end ZServer

/-- Only a server that lives takes a GDU. -/
theorem zServer_step {p : ServerParams σ τ} {s s' : ZServer σ τ} {gdu : Gdu} {o : List ServerCall} :
    (zServer p).step s gdu = some (s', o) ↔ s.alive = true ∧ s.recvGdu p gdu = (s', o) := by
  unfold zServer
  dsimp only
  by_cases halive : s.alive = true
  · rw [if_pos halive, Option.some.injEq]
    exact ⟨fun h => ⟨halive, h⟩, fun h => h.2⟩
  · rw [if_neg halive]
    exact ⟨nofun, fun h => absurd h.1 halive⟩

/-! ## A program to run -/

/-- A BER integer that is not negative and has at most 31 bits, with its length. -/
def berInt (v : Nat) : Buf :=
  let octets : Buf :=
    if v < 2 ^ 7 then [.ofNat v]
    else if v < 2 ^ 15 then [.ofNat (v / 2 ^ 8), .ofNat v]
    else if v < 2 ^ 23 then [.ofNat (v / 2 ^ 16), .ofNat (v / 2 ^ 8), .ofNat v]
    else [.ofNat (v / 2 ^ 24), .ofNat (v / 2 ^ 16), .ofNat (v / 2 ^ 8), .ofNat v]
  .ofNat octets.length :: octets

/-- The octet of a BER bit string that has these eight bits of a mask. -/
def berBits (mask first : Nat) : UInt8 :=
  (List.range 8).foldl
    (fun octet i => if mask.testBit (first + i) then octet + .ofNat (2 ^ (7 - i)) else octet) 0

/-- BER for an init response, of which nothing is in a later octet of a length. What is not an init
response has its reference id only. -/
def Gdu.ber : Gdu → Buf
  | .z3950 apdu =>
    let id : Buf := (apdu.referenceIdP.map fun id => 0x82 :: .ofNat id.length :: id).getD []
    match apdu.body with
    | .initResponse res =>
      let members : Buf := id ++ [0x83, 0x02, 0x05, berBits res.protocolVersion 0] ++
        [0x84, 0x03, 0x05, berBits res.options 0, berBits res.options 8] ++
        0x85 :: berInt res.preferredMessageSize.toNat ++
        0x86 :: berInt res.maximumRecordSize.toNat ++
        [0x8c, 0x01, if res.result then 0xff else 0x00]
      0xb5 :: .ofNat members.length :: members
    | _ => 0x30 :: .ofNat id.length :: id
  | .http octets => 0x48 :: octets

/-- A stream on which everything encodes. -/
def berOdr : OdrEncode Gdu Buf where
  createmem := []
  zGdu s g := (s ++ g.ber, true)
  geterror _ := false
  getelement _ := none
  getbuf s := s
  reset _ := []

/-- What `zget_APDU` gives, with these sizes. -/
def Zget.sized (preferred maximum : Int) : Zget where
  initResponse :=
    { protocolVersion := 0, options := 0, preferredMessageSize := preferred
      maximumRecordSize := maximum, result := true }
  searchResponse :=
    { resultCount := 0, numberOfRecordsReturned := 0, nextResultSetPosition := 0
      searchStatus := true, resultSetStatus := none, presentStatus := none, records := none }
  presentResponse :=
    { numberOfRecordsReturned := 0, nextResultSetPosition := 0, presentStatus := presentSuccess
      records := none }
  extendedServicesResponse := { operationStatus := 1, taskPackage := none }
  size _ := 48

/-- A program whose records all have so many octets, and whose init responses have a mebibyte for
both sizes. -/
def ServerParams.sized (size : Nat) : ServerParams Unit Buf where
  sizeof := .lp64
  zget := .sized (2 ^ 20) (2 ^ 20)
  odr := berOdr
  service := .sized fun _ => size

/-- A Retrieval facility that holds zeros nobody has assigned. -/
def Retrieval.unset : Retrieval where
  preferredMessageSize := { value := 0 }
  maximumRecordSize := { value := 0 }
  odrEncode := { value := 0 }
  odrDecode := { value := 0 }

/-- A server with these facilities, before its first request. -/
def ZServer.fresh (facilities : List Facility) : ZServer Unit Buf where
  assoc := .new berOdr
  odrEncode := 1
  odrDecode := 2
  facilities := facilities
  app := ()
  total := 0

/-- An init request that proposes these sizes, and searches and presents. -/
def InitRequest.proposing (preferred maximum : Int) : InitRequest where
  protocolVersion := 7
  options := 3
  preferredMessageSize := preferred
  maximumRecordSize := maximum

/-- An update of nothing. -/
def ExtendedServicesRequest.updating : ExtendedServicesRequest where
  taskSpecificParameters := some (.update, [])

end Yazpp
