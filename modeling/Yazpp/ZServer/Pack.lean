import Yazpp.ZServer.Retrieval

/-!
# How `pack_records` goes through the positions

One turn of the loop does one of four things (`Turn`), and with a preferred size that is not
negative two of them never happen: `total_length` is all of `odr_total` less what was dumped, and
`this_length`, the rest, is what was dumped, which is nothing (`packVerdict_eq`). So a record is
kept as long as the whole of `odr_total`, narrowed to an `int`, is within the preferred size, and
the first one that is not ends the reply.
-/

set_option autoImplicit false

namespace Yazpp

section Pack

variable {σ : Type} {sz : Sizeof} {svc : Service σ} {k : Nat} {m : Retrieval} {req : PackRequest}

/-- The comparisons before anything was dumped. -/
theorem packVerdict_eq (sized : 0 ≤ m.preferredMessageSize.value) (total : Nat) :
    packVerdict m req total 0 =
      if toInt32 total ≤ m.preferredMessageSize.value then .keep else .partialReply := by
  simp only [packVerdict, Int.sub_zero, toInt32_sub_self, Int.zero_add, toInt32_idem, sized,
    if_true]
  by_cases h : toInt32 total ≤ m.preferredMessageSize.value
  · rw [if_pos h, if_neg (by omega)]
  · rw [if_neg h, if_pos (by omega)]

/-- One turn of the loop: what it makes of the position, of the list and of `*next` and `*pres`, and
whether there is another. -/
inductive Turn (recno : Int) (p : Packing σ) (fetched : Fetched σ) (verdict : Verdict) :
    Packing σ × Bool → Prop
  | failed {q : Packing σ} {diagnostics : Records} :
      fetched.answer.diagnostics = some diagnostics → q.list = p.list → q.next = p.next →
      q.diagnostics = some diagnostics → q.pres = presentFailure →
      Turn recno p fetched verdict (q, false)
  | partly {q : Packing σ} : fetched.answer.diagnostics = none → verdict = .partialReply →
      q.list = p.list → q.next = p.next → q.diagnostics = p.diagnostics →
      q.pres = presentPartial2 → Turn recno p fetched verdict (q, false)
  | kept {q : Packing σ} : fetched.answer.diagnostics = none → verdict = .keep →
      q.list = p.list ++ [fetched.answer.record] → q.next = toInt32 (recno + 1) →
      q.diagnostics = p.diagnostics → q.pres = p.pres → q.dumped = p.dumped →
      Turn recno p fetched verdict (q, true)
  | replaced {q : Packing σ} {condition : Int} : fetched.answer.diagnostics = none →
      verdict = .replace condition →
      q.list = p.list ++ [createSurrogateDiagnostics condition fetched.answer.record] →
      q.next = toInt32 (recno + 1) → q.diagnostics = p.diagnostics → q.pres = p.pres →
      Turn recno p fetched verdict (q, true)

/-- `pack_records`' loop, one turn of it. -/
theorem packOne_turn (sz : Sizeof) (svc : Service σ) (k : Nat) (m : Retrieval)
    (req : PackRequest) (recno : Int) (p : Packing σ) :
    Turn recno p (fetchRecord sz svc k m req recno p.run)
      (packVerdict m req (fetchRecord sz svc k m req recno p.run).run.total p.dumped)
      (packOne sz svc k m req recno p) := by
  simp only [packOne, Running.use]
  generalize fetchRecord sz svc k m req recno p.run = fetched
  cases hd : fetched.answer.diagnostics with
  | some diagnostics => exact .failed hd rfl rfl rfl rfl
  | none =>
    dsimp only
    cases hv : packVerdict m req fetched.run.total p.dumped with
    | keep => exact .kept hd rfl rfl rfl rfl rfl rfl
    | partialReply => exact .partly hd rfl rfl rfl rfl rfl
    | replace condition => exact .replaced hd rfl rfl rfl rfl rfl

/-- The positions that the loop reaches, each with what has been packed before it. -/
def packSteps (sz : Sizeof) (svc : Service σ) (k : Nat) (m : Retrieval) (req : PackRequest) :
    Nat → Int → Packing σ → List (Int × Packing σ)
  | 0, _, _ => []
  | left + 1, recno, p =>
    (recno, p) ::
      match packOne sz svc k m req recno p with
      | (p, true) => packSteps sz svc k m req left (toInt32 (recno + 1)) p
      | (_, false) => []

/-- The list only grows. -/
theorem packLoop_prefix (sz : Sizeof) (svc : Service σ) (k : Nat) (m : Retrieval)
    (req : PackRequest) (left : Nat) (recno : Int) (p : Packing σ) :
    p.list <+: (packLoop sz svc k m req left recno p).list := by
  induction left generalizing recno p with
  | zero => exact List.prefix_refl _
  | succ left ih =>
    have turn := packOne_turn sz svc k m req recno p
    unfold packLoop
    cases hout : packOne sz svc k m req recno p with
    | mk q goes =>
      rw [hout] at turn
      cases turn with
      | failed _ hlist => exact hlist ▸ List.prefix_refl _
      | partly _ _ hlist => exact hlist ▸ List.prefix_refl _
      | kept _ _ hlist => exact (hlist ▸ List.prefix_append _ _).trans (ih _ q)
      | replaced _ _ hlist => exact (hlist ▸ List.prefix_append _ _).trans (ih _ q)

/-- While the preferred size is not negative, nothing is ever dumped. -/
theorem packSteps_dumped (sized : 0 ≤ m.preferredMessageSize.value) {left : Nat} {recno : Int}
    {p : Packing σ} (undumped : p.dumped = 0) :
    ∀ s ∈ packSteps sz svc k m req left recno p, s.2.dumped = 0 := by
  induction left generalizing recno p with
  | zero => exact List.forall_mem_nil _
  | succ left ih =>
    have turn := packOne_turn sz svc k m req recno p
    rw [undumped, packVerdict_eq sized] at turn
    unfold packSteps
    refine List.forall_mem_cons.mpr ⟨undumped, ?_⟩
    cases hout : packOne sz svc k m req recno p with
    | mk q goes =>
      rw [hout] at turn
      cases turn with
      | failed | partly => exact List.forall_mem_nil _
      | kept _ _ _ _ _ _ hdumped => exact ih (hdumped.trans undumped)
      | replaced _ hverdict =>
        split at hverdict
        · cases hverdict
        · cases hverdict

end Pack

/-! ## A service with records of given sizes -/

/-- The sizes where a pointer has 64 bits. -/
def Sizeof.lp64 : Sizeof where
  records := 16
  recordList := 16
  pointer := 8
  namePlusRecord := 24
  bool := 4
  odrInt := 8
  odrOct := 24
  gdu := 16
  surrogate := 73

/-- A service that has a record of so many octets at every position, and leaves every response as
it is. -/
def Service.sized (size : Int → Nat) : Service Unit where
  srInit _ _ _ res := { app := (), answer := res }
  srSearch _ _ _ res := { app := (), answer := res }
  srPresent _ _ _ res := { app := (), answer := res }
  srRecord _ _ _ position _ _ :=
    { app := (), answer := { record := { content := .databaseRecord (some []) } }
      grown := size position }
  illService _ _ _ _ res := { app := (), answer := res }
  updateService _ _ _ _ res := { app := (), answer := res }
  updateService0 _ _ _ _ res := { app := (), answer := res }

/-- A facility behind an init with these sizes. -/
def Retrieval.sized (preferred maximum : Int) : Retrieval where
  preferredMessageSize := .assign (toInt32 preferred)
  maximumRecordSize := .assign (toInt32 maximum)
  odrEncode := .assign 1
  odrDecode := .assign 2

end Yazpp
