import Yazpp.ZServer.Spec

/-!
# What answers a request

A server takes an init request itself, and any other request goes to the first of its facilities
that accepts it. What it takes it answers with one response, of the type that belongs to the
request's, and with the request's reference id, wherever the facility copies it (`recvGdu_taken`). A
request that nobody takes, and what is no request at all, ends the server (`recvGdu_untaken`).
-/

set_option autoImplicit false

namespace Yazpp

open Yazpp.Lib

variable {σ τ : Type}

/-- The type of response that belongs to a type of request that a server may take. -/
def ApduType.response? : ApduType → Option ApduType
  | .initRequest => some .initResponse
  | .searchRequest => some .searchResponse
  | .presentRequest => some .presentResponse
  | .extendedServicesRequest => some .extendedServicesResponse
  | _ => none

/-- A response of the matching type, with the reference id of the request. -/
structure Apdu.Answers (request response : Apdu) : Prop where
  type : request.which.response? = some response.which
  referenceId : response.referenceId = request.referenceId

/-- The facility at `k` is the first that accepts a request. -/
structure FirstTaker (fs : List Facility) (request : Apdu) (k : Nat) : Prop where
  accepts : ∃ f, fs[k]? = some f ∧ f.accepts request = true
  first : ∀ f ∈ fs.take k, f.accepts request = false

/-- The calls are those of the one facility that takes a request. -/
structure TakenBy (fs : List Facility) (request : Apdu) (k : Nat) (calls : List ServerCall) :
    Prop where
  taker : FirstTaker fs request k
  called : ∃ call, .facility k call ∈ calls
  only : ∀ j call, .facility j call ∈ calls → j = k

/-- A request that is taken: by the init handling, or by a facility. -/
def Taken (fs : List Facility) (request : Apdu) (calls : List ServerCall) : Prop :=
  (∃ req, request.body = .initRequest req) ∨ ∃ k, TakenBy fs request k calls

/-- A GDU that nobody takes. -/
def Untaken (fs : List Facility) : Gdu → Prop
  | .z3950 request => (∀ req, request.body ≠ .initRequest req) ∧
      ∀ f ∈ fs, f.accepts request = false
  | .http _ => True

/-! ## One facility -/

/-- `transfer_referenceId` into a response that belongs to the request. -/
theorem transfer_response (sz : Sizeof) {request : Apdu} (body : ApduBody) (r : Running σ)
    {which : ApduType} (type : request.which.response? = some which)
    (same : ({ body := body } : Apdu).which = which) :
    (Facility.transfer sz request { body := body } r).1 =
      { referenceId := request.referenceId, body := body } := by
  have known : request.which.hasReferenceIdP = true ∧ which.hasReferenceIdP = true := by
    cases hwhich : request.which <;> rw [hwhich] at type <;> cases type <;> exact ⟨rfl, rfl⟩
  simp only [Facility.transfer, Apdu.transferReferenceId, same, known.2, if_true,
    Apdu.referenceIdP, known.1]

/-- **A facility's answer** to a request that it takes. -/
theorem Facility.recv_answers {p : ServerParams σ τ} {k : Nat} {encode decode : Odr}
    {request response : Apdu} {r : Running σ} {f : Facility}
    (hrecv : (f.recv p k encode decode request r).answer = some response) :
    request.Answers response := by
  have extended : ∀ {g : Facility} {call : FacilityCall}
      {service : σ → ExtendedServicesResponse → Served σ ExtendedServicesResponse}
      {req : ExtendedServicesRequest}, request.body = .extendedServicesRequest req →
      (recvExtended p g call service request r).answer = some response →
      request.Answers response := by
    intro g call service req hbody hrecv
    have type : request.which.response? = some .extendedServicesResponse := by
      simp only [Apdu.which, hbody, ApduType.response?]
    have copied := fun res r => transfer_response (σ := σ) p.sizeof
      (.extendedServicesResponse res) r type rfl
    simp only [recvExtended, copied, Option.some.injEq] at hrecv
    exact hrecv ▸ ⟨type, rfl⟩
  cases f with
  | retrieval m =>
    unfold recv at hrecv
    dsimp only at hrecv
    split at hrecv
    · next sreq hbody =>
      have type : request.which.response? = some .searchResponse := by
        simp only [Apdu.which, hbody, ApduType.response?]
      have copied := fun r => transfer_response (σ := σ) p.sizeof
        (.searchResponse p.zget.searchResponse) r type rfl
      simp only [recvSearch, copied, Option.some.injEq] at hrecv
      exact hrecv ▸ ⟨type, rfl⟩
    · next preq hbody =>
      have type : request.which.response? = some .presentResponse := by
        simp only [Apdu.which, hbody, ApduType.response?]
      have copied := fun r => transfer_response (σ := σ) p.sizeof
        (.presentResponse p.zget.presentResponse) r type rfl
      simp only [recvPresent, copied, Option.some.injEq] at hrecv
      exact hrecv ▸ ⟨type, rfl⟩
    · cases hrecv
  | ill =>
    unfold recv at hrecv
    dsimp only at hrecv
    split at hrecv
    · next req hbody =>
      split at hrecv
      · exact extended hbody hrecv
      · cases hrecv
    · cases hrecv
  | update =>
    unfold recv at hrecv
    dsimp only at hrecv
    split at hrecv
    · next req hbody =>
      split at hrecv
      · exact extended hbody hrecv
      · exact extended hbody hrecv
      · cases hrecv
    · cases hrecv

/-- A facility calls its service for a request that it takes, and for no other. -/
theorem Facility.recv_calls (p : ServerParams σ τ) (k : Nat) (encode decode : Odr) (request : Apdu)
    (app : σ) (total : Nat) (f : Facility) :
    (f.recv p k encode decode request { app := app, total := total }).run.calls ≠ [] ↔
      f.accepts request = true := by
  have none : ({ app := app, total := total } : Running σ).calls ≠ [] ↔ false = true :=
    ⟨fun h => absurd rfl h, fun h => absurd h Bool.false_ne_true⟩
  have used : ∀ {call : FacilityCall} {calls : List FacilityCall}, call ∈ calls →
      (calls ≠ [] ↔ true = true) := fun hmem =>
    ⟨fun _ => rfl, fun _ => List.ne_nil_of_mem hmem⟩
  cases f with
  | retrieval m =>
    unfold recv accepts
    cases request.body with
    | searchRequest sreq =>
      obtain ⟨r', -, hmem, rest⟩ := recvSearch_leads p k (m.setStreams encode decode) request sreq
        { app := app, total := total }
      exact used (rest.mem hmem)
    | presentRequest preq =>
      obtain ⟨r', -, hmem, rest⟩ := recvPresent_leads p k (m.setStreams encode decode) request preq
        { app := app, total := total }
      exact used (rest.mem hmem)
    | _ => exact none
  | ill =>
    unfold recv accepts
    cases request.body with
    | extendedServicesRequest req =>
      obtain ⟨_ | ⟨which, package⟩⟩ := req
      · exact none
      · cases which with
        | itemOrder => exact used (List.mem_singleton_self _)
        | _ => exact none
    | _ => exact none
  | update =>
    unfold recv accepts
    cases request.body with
    | extendedServicesRequest req =>
      obtain ⟨_ | ⟨which, package⟩⟩ := req
      · exact none
      · cases which with
        | update => exact used (List.mem_singleton_self _)
        | update0 => exact used (List.mem_singleton_self _)
        | _ => exact none
    | _ => exact none

/-! ## The walk through the facilities -/

/-- What the walk leaves of a request that is taken: `i` counts from the first of these
facilities. -/
structure WalkTaken (p : ServerParams σ τ) (fs : List Facility) (request : Apdu) (k i : Nat)
    (w : Walked σ (Option Apdu)) : Prop where
  taker : FirstTaker fs request i
  called : ∃ call, .facility (k + i) call ∈ w.calls
  only : ∀ c ∈ w.calls, ∃ call, c = .facility (k + i) call
  answer : ∃ response, w.answer = some response ∧ request.Answers response

/-- A facility that does not accept a request calls nothing. -/
theorem Facility.recv_silent (f : Facility) (p : ServerParams σ τ) (k : Nat) (encode decode : Odr)
    {request : Apdu} (app : σ) (total : Nat) (refuses : f.accepts request = false) :
    (f.recv p k encode decode request { app := app, total := total }).run.calls = [] := by
  by_cases hnil : (f.recv p k encode decode request { app := app, total := total }).run.calls = []
  · exact hnil
  · rw [(f.recv_calls p k encode decode request app total).mp hnil] at refuses
    cases refuses

/-- **The first facility that accepts a request takes it**, and no other calls anything. -/
theorem recvFacilities_taken (p : ServerParams σ τ) (encode decode : Odr) {request : Apdu}
    (k : Nat) {fs : List Facility} (app : σ) (total : Nat)
    (taken : (taker? request fs).isSome = true) :
    ∃ i, WalkTaken p fs request k i
      (ZServer.recvFacilities p encode decode request k fs app total) := by
  induction fs generalizing k app total with
  | nil => cases taken
  | cons f fs ih =>
    have answers := f.recv_isSome p k encode decode request { app := app, total := total }
    have calls := f.recv_calls p k encode decode request app total
    unfold ZServer.recvFacilities
    dsimp only
    split
    · next response hrecv =>
      rw [hrecv] at answers
      obtain ⟨call, hcall⟩ := List.exists_mem_of_ne_nil _ (calls.mpr answers.symm)
      refine ⟨0, ⟨⟨f, rfl, answers.symm⟩, List.forall_mem_nil _⟩,
        ⟨call, List.mem_map_of_mem hcall⟩, ?_, response, rfl, Facility.recv_answers hrecv⟩
      intro c hc
      obtain ⟨call', -, rfl⟩ := List.mem_map.mp hc
      exact ⟨call', rfl⟩
    · next hrecv =>
      rw [hrecv] at answers
      have refuses : f.accepts request = false := answers.symm
      rw [taker?, List.find?_cons_of_neg (by rw [refuses]; exact Bool.false_ne_true)] at taken
      have silent := f.recv_silent p k encode decode app total refuses
      obtain ⟨i, walk⟩ := ih (k + 1)
        (f.recv p k encode decode request { app := app, total := total }).run.app
        (f.recv p k encode decode request { app := app, total := total }).run.total taken
      have place : k + 1 + i = k + (i + 1) := by omega
      simp only [Running.tagged, silent, List.map_nil, List.nil_append]
      refine ⟨i + 1, ⟨?_, ?_⟩, place ▸ walk.called, place ▸ walk.only, walk.answer⟩
      · exact walk.taker.accepts
      · rw [List.take_succ_cons]
        exact List.forall_mem_cons.mpr ⟨refuses, walk.taker.first⟩

/-- Nobody takes it: nothing is called. -/
theorem recvFacilities_untaken (p : ServerParams σ τ) (encode decode : Odr) {request : Apdu}
    (k : Nat) {fs : List Facility} (app : σ) (total : Nat)
    (untaken : ∀ f ∈ fs, f.accepts request = false) :
    (ZServer.recvFacilities p encode decode request k fs app total).answer = none ∧
      (ZServer.recvFacilities p encode decode request k fs app total).calls = [] := by
  induction fs generalizing k app total with
  | nil => exact ⟨rfl, rfl⟩
  | cons f fs ih =>
    obtain ⟨refuses, rest⟩ := List.forall_mem_cons.mp untaken
    have answers := f.recv_isSome p k encode decode request { app := app, total := total }
    rw [refuses, Option.isSome_eq_false_iff, Option.isNone_iff_eq_none] at answers
    have silent := f.recv_silent p k encode decode app total refuses
    unfold ZServer.recvFacilities
    simp only [answers, Running.tagged, silent, List.map_nil, List.nil_append]
    exact ih _ _ _ rest

/-! ## One GDU -/

/-- A request that is taken: the calls of the facilities, and then one response. -/
structure Replied (p : ServerParams σ τ) (s : ZServer σ τ) (request response : Apdu)
    (next : ZServer σ τ × List ServerCall) : Prop where
  answers : request.Answers response
  taken : Taken s.facilities request next.2
  alive : next.1.alive = s.alive
  sends : ∃ (mid : ZServer σ τ) (calls : List ServerCall), mid.assoc = s.assoc ∧
    (∀ c ∈ calls, ∃ k call, c = .facility k call) ∧
    next.1.assoc = (mid.sendZPdu p response).1.assoc ∧ next.2 = calls ++ (mid.sendZPdu p response).2

theorem initFacilities_facility {svc : Service σ} {req : InitRequest} {k : Nat}
    {fs : List Facility} {res : InitResponse} {app : σ} {total : Nat} :
    ∀ c ∈ (ZServer.initFacilities svc req k fs res app total).calls,
      ∃ k call, c = .facility k call := by
  induction fs generalizing k res app total with
  | nil => exact List.forall_mem_nil _
  | cons f fs ih =>
    intro c hc
    rcases List.mem_append.mp hc with hc | hc
    · obtain ⟨call, -, rfl⟩ := List.mem_map.mp hc
      exact ⟨k, call, rfl⟩
    · exact ih c hc

/-- **A request that is taken is answered once**: an init by the server, any other by the first
facility that accepts it. -/
theorem recvGdu_taken (p : ServerParams σ τ) (s : ZServer σ τ) {request : Apdu}
    (taken : (∃ req, request.body = .initRequest req) ∨
      (taker? request s.facilities).isSome = true) :
    ∃ response, Replied p s request response (s.recvGdu p (.z3950 request)) := by
  by_cases init : ∃ req, request.body = .initRequest req
  · obtain ⟨req, hbody⟩ := init
    have type : request.which.response? = some .initResponse := by
      simp only [Apdu.which, hbody, ApduType.response?]
    simp only [ZServer.recvGdu, ZServer.recvZPdu, hbody, ZServer.recvInit]
    generalize hwalked : ZServer.initFacilities p.service req 0 s.facilities
      (ZServer.acceptVersions req p.zget.initResponse) s.app
      (s.total + p.zget.size .initResponse) = walked
    have copied := transfer_response p.sizeof (.initResponse walked.answer)
      ({ app := walked.app, total := walked.total } : Running σ) type rfl
    rw [copied]
    refine ⟨{ referenceId := request.referenceId, body := .initResponse walked.answer },
      ⟨type, rfl⟩, .inl ⟨req, hbody⟩, rfl, _, walked.calls, ?_, ?_, rfl, rfl⟩
    · rfl
    · rw [← hwalked]
      exact initFacilities_facility
  · have hother : ∀ req, request.body ≠ .initRequest req := fun req h => init ⟨req, h⟩
    obtain ⟨k, walk⟩ := recvFacilities_taken p s.odrEncode s.odrDecode 0 s.app s.total
      (taken.resolve_left init)
    rw [ZServer.recvGdu, ZServer.recvZPdu_other p hother]
    generalize ZServer.recvFacilities p s.odrEncode s.odrDecode request 0 s.facilities s.app
      s.total = walked at walk
    obtain ⟨response, hanswer, answers⟩ := walk.answer
    have only := walk.only
    have called := walk.called
    rw [Nat.zero_add] at only called
    dsimp only
    rw [hanswer]
    refine ⟨response, answers, .inr ⟨k, walk.taker, ?_, ?_⟩, rfl, _, walked.calls, ?_, ?_, rfl, rfl⟩
    · obtain ⟨call, hcall⟩ := called
      exact ⟨call, List.mem_append_left _ hcall⟩
    · intro j call hmem
      rcases List.mem_append.mp hmem with hmem | hmem
      · obtain ⟨call', hcall'⟩ := only _ hmem
        cases hcall'
        rfl
      · exact absurd hmem ((ZServer.sendZPdu_facilities p _ _).2 j call)
    · rfl
    · intro c hc
      obtain ⟨call, rfl⟩ := only c hc
      exact ⟨k, call, rfl⟩

/-- **What nobody takes** ends the server, and sends nothing. -/
theorem recvGdu_untaken (p : ServerParams σ τ) (s : ZServer σ τ) {gdu : Gdu}
    (untaken : Untaken s.facilities gdu) :
    (s.recvGdu p gdu).1.alive = false ∧ (s.recvGdu p gdu).1.assoc = s.assoc ∧
      ((s.recvGdu p gdu).2 = [.deleteThis] ∨
        ∃ which, (s.recvGdu p gdu).2 = [.unhandled which, .deleteThis]) := by
  cases gdu with
  | http octets => exact ⟨rfl, rfl, .inl rfl⟩
  | z3950 request =>
    obtain ⟨hother, untaken⟩ := untaken
    obtain ⟨hanswer, hcalls⟩ :=
      recvFacilities_untaken p s.odrEncode s.odrDecode 0 s.app s.total untaken
    rw [ZServer.recvGdu, ZServer.recvZPdu_other p hother]
    dsimp only
    rw [hanswer, hcalls]
    exact ⟨rfl, rfl, .inr ⟨request.which, rfl⟩⟩

/-- A GDU is taken or not. -/
theorem taken_or_untaken (fs : List Facility) (gdu : Gdu) :
    (∃ request, gdu = .z3950 request ∧ ((∃ req, request.body = .initRequest req) ∨
      (taker? request fs).isSome = true)) ∨ Untaken fs gdu := by
  cases gdu with
  | http octets => exact .inr trivial
  | z3950 request =>
    by_cases init : ∃ req, request.body = .initRequest req
    · exact .inl ⟨request, rfl, .inl init⟩
    · cases htaker : taker? request fs with
      | some f => exact .inl ⟨request, rfl, .inr (by rw [htaker]; rfl)⟩
      | none =>
        refine .inr ⟨fun req h => init ⟨req, h⟩, ?_⟩
        intro f hf
        exact Bool.not_eq_true _ ▸ List.find?_eq_none.mp htaker f hf

end Yazpp
