import Yazpp.ZServer.Spec

/-!
# The sizes agreed on

An init response has the sizes that `zget_APDU` gave it: nobody writes the proposed ones into it.
What the facility enforces from then on are the proposed ones, narrowed to an `int`. The two agree,
and do not exceed what was proposed, exactly when the client happens to propose the default sizes
(`negotiated_iff`). Nothing but the next init changes what is enforced (`limits_kept`).
-/

set_option autoImplicit false

namespace Yazpp

open Yazpp.Lib

variable {σ τ : Type}

/-- The init request that a GDU is. -/
def Gdu.initRequest? : Gdu → Option InitRequest
  | .z3950 { body := .initRequest req, .. } => some req
  | _ => none

/-- `sr_init` leaves the sizes of the response. -/
def KeepsSizes (svc : Service σ) : Prop :=
  ∀ k app req res, (svc.srInit k app req res).answer.preferredMessageSize =
      res.preferredMessageSize ∧
    (svc.srInit k app req res).answer.maximumRecordSize = res.maximumRecordSize

/-- The sizes that a server's Retrieval facilities enforce. -/
def ZServer.Limits (preferred maximum : Int) (s : ZServer σ τ) : Prop :=
  ∀ m, .retrieval m ∈ s.facilities →
    m.preferredMessageSize.value = preferred ∧ m.maximumRecordSize.value = maximum

/-- An init was negotiated: one response was sent, its sizes are not larger than the proposed ones,
and they are what every later request finds, and every comparison uses, until the next init. -/
def Negotiated (p : ServerParams σ τ) (req : InitRequest) (s' : ZServer σ τ)
    (o : List ServerCall) : Prop :=
  ∃ response res, sent o = [response] ∧ response.body = .initResponse res ∧
    res.preferredMessageSize ≤ req.preferredMessageSize ∧
    res.maximumRecordSize ≤ req.maximumRecordSize ∧
    ∀ later s'' h, (∀ gdu ∈ later, gdu.initRequest? = none) →
      (zServer p).exec s' later = some (s'', h) →
      s''.Limits res.preferredMessageSize res.maximumRecordSize ∧
      ∀ k use m, .facility k (.uses use m) ∈ h →
        m.preferredMessageSize.value = res.preferredMessageSize ∧
        m.maximumRecordSize.value = res.maximumRecordSize

/-- The proposed sizes are, as `int`s, the default ones, which are not larger than them. -/
def ProposesDefaults (zget : Zget) (req : InitRequest) : Prop :=
  (toInt32 req.preferredMessageSize = zget.initResponse.preferredMessageSize ∧
    zget.initResponse.preferredMessageSize ≤ req.preferredMessageSize) ∧
  (toInt32 req.maximumRecordSize = zget.initResponse.maximumRecordSize ∧
    zget.initResponse.maximumRecordSize ≤ req.maximumRecordSize)

/-! ## What is enforced -/

/-- A facility behind a GDU that is no init has the sizes that it had. -/
theorem sizes_touched {encode decode : Odr} {request : Apdu} {fs : List Facility} {m : Retrieval}
    (hm : .retrieval m ∈ touchedUpTo encode decode request fs) :
    ∃ m₀, .retrieval m₀ ∈ fs ∧ m.preferredMessageSize = m₀.preferredMessageSize ∧
      m.maximumRecordSize = m₀.maximumRecordSize := by
  induction fs with
  | nil => cases hm
  | cons f fs ih =>
    rcases List.mem_cons.mp hm with hm | hm
    · cases f with
      | retrieval m₀ =>
        cases hm
        exact ⟨m₀, List.mem_cons_self, rfl, rfl⟩
      | ill => cases hm
      | update => cases hm
    · split at hm
      · exact ⟨m, List.mem_cons_of_mem _ hm, rfl, rfl⟩
      · obtain ⟨m₀, hm₀, same⟩ := ih hm
        exact ⟨m₀, List.mem_cons_of_mem _ hm₀, same⟩

/-- Only an init changes the limits. -/
theorem limits_recvGdu {p : ServerParams σ τ} {s : ZServer σ τ} {gdu : Gdu}
    {preferred maximum : Int} (limits : s.Limits preferred maximum)
    (other : gdu.initRequest? = none) :
    (s.recvGdu p gdu).1.Limits preferred maximum := by
  cases gdu with
  | http octets => exact limits
  | z3950 request =>
    have hbody : ∀ req, request.body ≠ .initRequest req := by
      rintro req hreq
      obtain ⟨id, body⟩ := request
      cases hreq
      cases other
    intro m hm
    rw [(ZServer.recvGdu_other p hbody s).1] at hm
    obtain ⟨m₀, hm₀, hpreferred, hmaximum⟩ := sizes_touched hm
    rw [hpreferred, hmaximum]
    exact limits m₀ hm₀

/-- **Nothing but the next init** changes what is enforced, and every comparison uses it. -/
theorem limits_kept {p : ServerParams σ τ} {s s' : ZServer σ τ} {later : List Gdu}
    {h : List ServerCall} {preferred maximum : Int} (limits : s.Limits preferred maximum)
    (others : ∀ gdu ∈ later, gdu.initRequest? = none)
    (run : (zServer p).exec s later = some (s', h)) :
    s'.Limits preferred maximum ∧ ∀ k use m, .facility k (.uses use m) ∈ h →
      m.preferredMessageSize.value = preferred ∧ m.maximumRecordSize.value = maximum := by
  induction later generalizing s h with
  | nil =>
    cases run
    exact ⟨limits, fun k use m hmem => absurd hmem List.not_mem_nil⟩
  | cons gdu later ih =>
    obtain ⟨s₁, o₁, o₂, hstep, hrest, rfl⟩ := Machine.exec_cons.mp run
    obtain ⟨-, hgdu⟩ := zServer_step.mp hstep
    have next : s₁.Limits preferred maximum := by
      have := limits_recvGdu (p := p) limits (others gdu List.mem_cons_self)
      rwa [hgdu] at this
    obtain ⟨hlimits, huses⟩ := ih next (fun g hg => others g (List.mem_cons_of_mem _ hg)) hrest
    refine ⟨hlimits, ?_⟩
    intro k use m hmem
    rcases List.mem_append.mp hmem with hmem | hmem
    · have used : .facility k (.uses use m) ∈ (s.recvGdu p gdu).2 := by
        rw [hgdu]
        exact hmem
      have members := ZServer.recvGdu_uses used
      rw [hgdu] at members
      exact next m (List.mem_of_getElem? members)
    · exact huses k use m hmem

/-! ## What is answered -/

/-- With a service that leaves the sizes, no facility writes them. -/
theorem initFacilities_sizes {svc : Service σ} (keeps : KeepsSizes svc) (req : InitRequest)
    (k : Nat) (fs : List Facility) (res : InitResponse) (app : σ) (total : Nat) :
    (ZServer.initFacilities svc req k fs res app total).answer.preferredMessageSize =
        res.preferredMessageSize ∧
      (ZServer.initFacilities svc req k fs res app total).answer.maximumRecordSize =
        res.maximumRecordSize := by
  induction fs generalizing k res app total with
  | nil => exact ⟨rfl, rfl⟩
  | cons f fs ih =>
    have first : (f.init svc k req res { app := app, total := total }).answer.preferredMessageSize =
          res.preferredMessageSize ∧
        (f.init svc k req res { app := app, total := total }).answer.maximumRecordSize =
          res.maximumRecordSize := by
      cases f with
      | retrieval m => exact keeps k app req (Retrieval.acceptOptions req res)
      | ill =>
        simp only [Facility.init, Facility.acceptExtendedServices]
        split <;> exact ⟨rfl, rfl⟩
      | update =>
        simp only [Facility.init, Facility.acceptExtendedServices]
        split <;> exact ⟨rfl, rfl⟩
    obtain ⟨hpreferred, hmaximum⟩ := ih (k + 1) _ _ _
    exact ⟨hpreferred.trans first.1, hmaximum.trans first.2⟩

/-- An init sends one response, with the default sizes, and enforces the proposed ones. -/
theorem recvGdu_negotiates {p : ServerParams σ τ} (keeps : KeepsSizes p.service) {request : Apdu}
    {req : InitRequest} (hbody : request.body = .initRequest req) (s : ZServer σ τ) :
    (∃ response res, sent (s.recvGdu p (.z3950 request)).2 = [response] ∧
      response.body = .initResponse res ∧
      res.preferredMessageSize = p.zget.initResponse.preferredMessageSize ∧
      res.maximumRecordSize = p.zget.initResponse.maximumRecordSize) ∧
    (s.recvGdu p (.z3950 request)).1.Limits (toInt32 req.preferredMessageSize)
      (toInt32 req.maximumRecordSize) := by
  constructor
  · simp only [ZServer.recvGdu, ZServer.recvZPdu, hbody, ZServer.recvInit, sent_append,
      ZServer.sent_initFacilities, ZServer.sent_sendZPdu, List.nil_append]
    obtain ⟨hpreferred, hmaximum⟩ := initFacilities_sizes keeps req 0 s.facilities
      (ZServer.acceptVersions req p.zget.initResponse) s.app
      (s.total + p.zget.size .initResponse)
    exact ⟨_, _, rfl, rfl, hpreferred, hmaximum⟩
  · intro m hm
    rw [(ZServer.recvGdu_init p hbody s).1] at hm
    obtain ⟨f, -, hf⟩ := List.mem_map.mp hm
    cases f with
    | retrieval m₀ =>
      cases hf
      exact ⟨rfl, rfl⟩
    | ill => cases hf
    | update => cases hf

/-- A server that has a Retrieval facility keeps it. -/
theorem retrieval_recvGdu {p : ServerParams σ τ} {s : ZServer σ τ} (gdu : Gdu)
    (has : ∃ m, .retrieval m ∈ s.facilities) :
    ∃ m, .retrieval m ∈ (s.recvGdu p gdu).1.facilities := by
  obtain ⟨m, hm⟩ := has
  cases gdu with
  | http octets => exact ⟨m, hm⟩
  | z3950 request =>
    by_cases init : ∃ req, request.body = .initRequest req
    · obtain ⟨req, hbody⟩ := init
      rw [(ZServer.recvGdu_init p hbody s).1]
      exact ⟨m.init req, List.mem_map_of_mem (f := Facility.initialized req) hm⟩
    · rw [(ZServer.recvGdu_other p (fun req h => init ⟨req, h⟩) s).1]
      have touched : ∀ fs : List Facility, .retrieval m ∈ fs →
          ∃ m, .retrieval m ∈ touchedUpTo s.odrEncode s.odrDecode request fs := by
        intro fs
        induction fs with
        | nil => exact fun h => absurd h List.not_mem_nil
        | cons f fs ih =>
          intro hmem
          rcases List.mem_cons.mp hmem with rfl | hmem
          · exact ⟨_, List.mem_cons_self⟩
          · unfold touchedUpTo
            split
            · exact ⟨m, List.mem_cons_of_mem _ hmem⟩
            · obtain ⟨m', hm'⟩ := ih hmem
              exact ⟨m', List.mem_cons_of_mem _ hm'⟩
      exact touched s.facilities hm

/-- A server that has a Retrieval facility has one behind every run. -/
theorem retrieval_exec {p : ServerParams σ τ} {s s' : ZServer σ τ} {is : List Gdu}
    {h : List ServerCall} (has : ∃ m, .retrieval m ∈ s.facilities)
    (run : (zServer p).exec s is = some (s', h)) : ∃ m, .retrieval m ∈ s'.facilities := by
  refine Machine.exec_invariant (fun s _ => ∃ m, .retrieval m ∈ s.facilities) ?_ (h := []) has run
  intro s h gdu s' o has step
  obtain ⟨-, hgdu⟩ := zServer_step.mp step
  have kept := retrieval_recvGdu (p := p) gdu has
  rwa [hgdu] at kept

/-- **Negotiated exactly when** the default sizes were proposed: for every run of a server with a
Retrieval facility, the response to each of its inits has sizes that are not larger than the
proposed ones and that are enforced until the next init, if and only if each of its inits proposes
the default sizes. -/
theorem negotiated_iff {p : ServerParams σ τ} (keeps : KeepsSizes p.service) {s s' : ZServer σ τ}
    (has : ∃ m, .retrieval m ∈ s.facilities) {is : List Gdu} {h : List ServerCall}
    (run : (zServer p).exec s is = some (s', h)) :
    (∀ pre request req post mid next k o, is = pre ++ .z3950 request :: post →
      request.body = .initRequest req → (zServer p).exec s pre = some (mid, k) →
      (zServer p).step mid (.z3950 request) = some (next, o) → Negotiated p req next o) ↔
    ∀ request req, .z3950 request ∈ is → request.body = .initRequest req →
      ProposesDefaults p.zget req := by
  constructor
  · intro negotiated request req hmem hbody
    obtain ⟨pre, post, rfl⟩ := List.append_of_mem hmem
    obtain ⟨mid, k, _, hpre, hrest, -⟩ := Machine.exec_append.mp run
    obtain ⟨next, o, _, hstep, -⟩ := Machine.exec_cons.mp hrest
    obtain ⟨response, res, hsent, hres, within, withinMax, later⟩ :=
      negotiated pre request req post mid next k o rfl hbody hpre hstep
    obtain ⟨told, -⟩ := later [] next [] (List.forall_mem_nil _) rfl
    obtain ⟨-, hgdu⟩ := zServer_step.mp hstep
    -- what the response says, and what the facilities hold
    obtain ⟨⟨response', res', hsent', hres', hpreferred, hmaximum⟩, enforced⟩ :=
      recvGdu_negotiates keeps hbody mid
    have kept := retrieval_recvGdu (p := p) (.z3950 request) (retrieval_exec has hpre)
    rw [hgdu] at hsent' enforced kept
    rw [hsent] at hsent'
    cases hsent'
    rw [hres] at hres'
    cases hres'
    obtain ⟨m, hm⟩ := kept
    have same := (enforced m hm).1.symm.trans (told m hm).1
    have sameMax := (enforced m hm).2.symm.trans (told m hm).2
    rw [hpreferred] at same within
    rw [hmaximum] at sameMax withinMax
    exact ⟨⟨same, within⟩, sameMax, withinMax⟩
  · intro defaults pre request req post mid next k o his hbody hpre hstep
    obtain ⟨-, hgdu⟩ := zServer_step.mp hstep
    obtain ⟨⟨response, res, hsent, hres, hpreferred, hmaximum⟩, hlimits⟩ :=
      recvGdu_negotiates keeps hbody mid
    rw [hgdu] at hsent hlimits
    obtain ⟨⟨same, within⟩, sameMax, withinMax⟩ :=
      defaults request req (his ▸ List.mem_append_right _ List.mem_cons_self) hbody
    rw [same, sameMax, ← hpreferred, ← hmaximum] at hlimits
    rw [← hpreferred] at within
    rw [← hmaximum] at withinMax
    refine ⟨response, res, hsent, hres, within, withinMax, ?_⟩
    intro later s'' h others run
    exact limits_kept hlimits others run

/-- A client that proposes what the response has by default. -/
theorem negotiated_iff_default : ∃ s h,
    (zServer (.sized 200)).step (.fresh [.retrieval .unset])
      (.z3950 { body := .initRequest (.proposing (2 ^ 20) (2 ^ 20)) }) = some (s, h) ∧
    Negotiated (.sized 200) (.proposing (2 ^ 20) (2 ^ 20)) s h := by
  obtain ⟨s, h, hgdu⟩ : ∃ s h, (ZServer.fresh [.retrieval .unset]).recvGdu (.sized 200)
      (.z3950 { body := .initRequest (.proposing (2 ^ 20) (2 ^ 20)) }) = (s, h) := ⟨_, _, rfl⟩
  have step := zServer_step.mpr ⟨rfl, hgdu⟩
  have run : (zServer (.sized 200)).exec _ [_] = _ :=
    Machine.exec_cons.mpr ⟨s, h, [], step, rfl, rfl⟩
  refine ⟨_, _, step, ?_⟩
  refine (negotiated_iff (fun _ _ _ _ => ⟨rfl, rfl⟩) ⟨_, List.mem_cons_self⟩ run).mpr ?_
    [] _ _ [] _ s [] h rfl rfl rfl step
  intro request req hmem hbody
  cases List.mem_singleton.mp hmem
  cases hbody
  unfold ProposesDefaults
  decide

/-- A client that proposes two kibibytes: it is answered with a mebibyte, which is more, and which
is not what is enforced. -/
theorem not_negotiated : ∃ s h res,
    (zServer (.sized 200)).step (.fresh [.retrieval .unset])
      (.z3950 { body := .initRequest (.proposing 2000 2000) }) = some (s, h) ∧
    sent h = [{ body := .initResponse res }] ∧ 2000 < res.preferredMessageSize ∧
    s.Limits 2000 2000 ∧ ¬ Negotiated (.sized 200) (.proposing 2000 2000) s h := by
  refine ⟨_, _, _, rfl, rfl, by decide, ?_, ?_⟩
  · intro m hm
    cases List.mem_singleton.mp hm
    decide
  · rintro ⟨response, res, hsent, hres, within, -⟩
    cases hsent
    cases hres
    exact absurd within (by decide)

end Yazpp
