import Mathlib.Algebra.Ring.Int.Defs
import Yazpp.ZServer.Pack

/-!
# The size rules

What the sizes are meant to say of a record is `sizeRule`: it is about `T`, the part of the total
that was there before the record was fetched, and `g`, what the record added. `pack_records` takes
its snapshot of `odr_total` when the record has been fetched already, and so its `this_length` is
never `g` but 0. The rule is kept all the same by the records that it would keep, and by those that
are small enough for a reply of their own (`Fits`); a record that is larger than the preferred size
ends the reply, where the rule would replace it or return it by itself.
-/

set_option autoImplicit false

namespace Yazpp

/-- The rule: `preferred` and `maximum` are the sizes agreed on, `toget` is how many records were
asked for. -/
def sizeRule (preferred maximum toget total grown : Int) : Verdict :=
  if total + grown ≤ preferred then .keep
  else if grown ≤ preferred then .partialReply
  else if maximum ≤ grown then .replace 17
  else if 1 < toget then .replace 16
  else .keep

/-- The records for which the code keeps the rule. Beyond `INT_MAX` the total is narrowed, and may
look small again. -/
def Fits (preferred maximum toget total grown : Int) : Prop :=
  total + grown ≤ preferred ∨
    (grown ≤ preferred ∧ preferred < toInt32 (total + grown)) ∨
    (toInt32 (total + grown) ≤ preferred ∧ preferred < grown ∧ grown < maximum ∧ toget ≤ 1)

/-- What a verdict comes to in the reply. -/
def Verdict.Applied {σ : Type} (recno : Int) (p : Packing σ) (record : NamePlusRecord)
    (out : Packing σ × Bool) : Verdict → Prop
  | .keep => out.2 = true ∧ out.1.list = p.list ++ [record] ∧ out.1.next = toInt32 (recno + 1)
  | .partialReply =>
    out.2 = false ∧ out.1.list = p.list ∧ out.1.next = p.next ∧ out.1.pres = presentPartial2
  | .replace condition =>
    out.2 = true ∧ out.1.list = p.list ++ [createSurrogateDiagnostics condition record] ∧
      out.1.next = toInt32 (recno + 1)

/-- The code's comparison is the rule's exactly for the records that fit. -/
theorem verdict_eq_rule {preferred maximum toget : Int} (sized : 0 < preferred)
    (narrow : toInt32 preferred = preferred) (before total : Nat) :
    (if toInt32 total ≤ preferred then Verdict.keep else .partialReply) =
        sizeRule preferred maximum toget before (total - before) ↔
      Fits preferred maximum toget before (total - before) := by
  have hsum : (before : Int) + (total - before) = total := by omega
  have hbound := toInt32_lt preferred
  have hsmall : (total : Int) ≤ preferred → toInt32 total = total := fun h =>
    toInt32_eq (by omega) (by omega)
  unfold sizeRule Fits
  rw [hsum]
  by_cases hkeep : (total : Int) ≤ preferred
  · have hcode : toInt32 total ≤ preferred := by
      rw [hsmall hkeep]
      exact hkeep
    rw [if_pos hkeep, if_pos hcode]
    exact iff_of_true rfl (.inl hkeep)
  rw [if_neg hkeep]
  by_cases hgrown : (total : Int) - before ≤ preferred
  · -- small enough for a reply of its own: the code ends the reply, unless the total was narrowed
    rw [if_pos hgrown]
    by_cases hcode : toInt32 total ≤ preferred
    · rw [if_pos hcode]
      exact iff_of_false nofun (by omega)
    · rw [if_neg hcode]
      exact iff_of_true rfl (by omega)
  rw [if_neg hgrown]
  by_cases hcode : toInt32 total ≤ preferred
  · rw [if_pos hcode]
    by_cases hmax : maximum ≤ (total : Int) - before
    · rw [if_pos hmax]
      exact iff_of_false nofun (by omega)
    · rw [if_neg hmax]
      by_cases hone : 1 < toget
      · rw [if_pos hone]
        exact iff_of_false nofun (by omega)
      · rw [if_neg hone]
        exact iff_of_true rfl (by omega)
  · -- larger than the preferred size: the code ends the reply, whatever the rule says
    rw [if_neg hcode]
    refine iff_of_false ?_ (by omega)
    split
    · exact nofun
    · split
      · exact nofun
      · exact nofun

instance (preferred maximum toget total grown : Int) :
    Decidable (Fits preferred maximum toget total grown) :=
  inferInstanceAs (Decidable (_ ∨ _ ∨ _))

section Steps

variable {σ : Type} (sz : Sizeof) (svc : Service σ) (k : Nat) (m : Retrieval) (req : PackRequest)

/-- The record of a position that the loop reached. -/
def stepFetched (s : Int × Packing σ) : Fetched σ := fetchRecord sz svc k m req s.1 s.2.run

/-- By how much `odr_total` grew while it was fetched. -/
def stepGrown (s : Int × Packing σ) : Int :=
  (stepFetched sz svc k m req s).run.total - (stepFetched sz svc k m req s).before

/-- What the code says of it. -/
def stepVerdict (s : Int × Packing σ) : Verdict :=
  packVerdict m req (stepFetched sz svc k m req s).run.total s.2.dumped

/-- The growth of the records that were replaced by diagnostics. -/
def replacedGrown (steps : List (Int × Packing σ)) : Int :=
  (steps.map fun s =>
    match stepVerdict sz svc k m req s with
    | .replace _ => stepGrown sz svc k m req s
    | _ => 0).sum

/-- The rule is kept at every position the loop reaches, and the reply is what the rule says. -/
def RulesKept (start : Int) (r : Running σ) : Prop :=
  ∀ pre s post, packSteps sz svc k m req req.toget.toNat start (packStart sz req r) =
      pre ++ s :: post →
    (stepFetched sz svc k m req s).answer.diagnostics = none →
    let rule := sizeRule m.preferredMessageSize.value m.maximumRecordSize.value req.toget
      ((stepFetched sz svc k m req s).before - replacedGrown sz svc k m req pre)
      (stepGrown sz svc k m req s)
    stepVerdict sz svc k m req s = rule ∧
      rule.Applied s.1 s.2 (stepFetched sz svc k m req s).answer.record
        (packOne sz svc k m req s.1 s.2)

variable {sz svc k m req}

/-- A turn does what its verdict says. -/
theorem verdict_applied {s : Int × Packing σ}
    (recorded : (stepFetched sz svc k m req s).answer.diagnostics = none) :
    (stepVerdict sz svc k m req s).Applied s.1 s.2 (stepFetched sz svc k m req s).answer.record
      (packOne sz svc k m req s.1 s.2) := by
  have turn := packOne_turn sz svc k m req s.1 s.2
  unfold stepVerdict
  unfold stepFetched at recorded ⊢
  generalize packVerdict m req _ _ = verdict at turn ⊢
  cases hout : packOne sz svc k m req s.1 s.2 with
  | mk q goes =>
    rw [hout] at turn
    cases turn with
    | failed hdiag => exact absurd (recorded.symm.trans hdiag) nofun
    | partly _ hverdict hlist hnext _ hpres =>
      rw [hverdict]
      exact ⟨rfl, hlist, hnext, hpres⟩
    | kept _ hverdict hlist hnext =>
      rw [hverdict]
      exact ⟨rfl, hlist, hnext⟩
    | replaced _ hverdict hlist hnext =>
      rw [hverdict]
      exact ⟨rfl, hlist, hnext⟩

/-- The verdict of the code, at a position that the loop reached. -/
theorem stepVerdict_eq (sized : 0 < m.preferredMessageSize.value) {start : Int} {r : Running σ}
    {s : Int × Packing σ}
    (reached : s ∈ packSteps sz svc k m req req.toget.toNat start (packStart sz req r)) :
    stepVerdict sz svc k m req s =
      if toInt32 (stepFetched sz svc k m req s).run.total ≤ m.preferredMessageSize.value then .keep
      else .partialReply := by
  have undumped := packSteps_dumped (Int.le_of_lt sized) (p := packStart sz req r) rfl s reached
  unfold stepVerdict
  rw [undumped, packVerdict_eq (Int.le_of_lt sized)]

/-- No record that the loop reached was replaced. -/
theorem replacedGrown_eq_zero (sized : 0 < m.preferredMessageSize.value) {start : Int}
    {r : Running σ} {steps : List (Int × Packing σ)}
    (reached : ∀ s ∈ steps,
      s ∈ packSteps sz svc k m req req.toget.toNat start (packStart sz req r)) :
    replacedGrown sz svc k m req steps = 0 := by
  induction steps with
  | nil => rfl
  | cons s steps ih =>
    have rest := ih fun t ht => reached t (List.mem_cons_of_mem _ ht)
    have verdict := stepVerdict_eq sized (reached s List.mem_cons_self)
    unfold replacedGrown at rest ⊢
    rw [List.map_cons, List.sum_cons, rest, verdict, Int.add_zero]
    split
    · next h => split at h <;> cases h
    · rfl

/-- **The rules are kept exactly when** every record that is reached fits. -/
theorem rules_kept_iff (sized : 0 < m.preferredMessageSize.value)
    (narrow : toInt32 m.preferredMessageSize.value = m.preferredMessageSize.value) (start : Int)
    (r : Running σ) :
    RulesKept sz svc k m req start r ↔
      ∀ s ∈ packSteps sz svc k m req req.toget.toNat start (packStart sz req r),
        (stepFetched sz svc k m req s).answer.diagnostics = none →
        Fits m.preferredMessageSize.value m.maximumRecordSize.value req.toget
          (stepFetched sz svc k m req s).before (stepGrown sz svc k m req s) := by
  have pointwise : ∀ s ∈ packSteps sz svc k m req req.toget.toNat start (packStart sz req r),
      (stepVerdict sz svc k m req s = sizeRule m.preferredMessageSize.value
        m.maximumRecordSize.value req.toget (stepFetched sz svc k m req s).before
          (stepGrown sz svc k m req s) ↔
        Fits m.preferredMessageSize.value m.maximumRecordSize.value req.toget
          (stepFetched sz svc k m req s).before (stepGrown sz svc k m req s)) := by
    intro s hs
    rw [stepVerdict_eq sized hs]
    exact verdict_eq_rule sized narrow _ _
  constructor
  · intro kept s hs recorded
    obtain ⟨pre, post, hsteps⟩ := List.append_of_mem hs
    have rule := (kept pre s post hsteps recorded).1
    have none : replacedGrown sz svc k m req pre = 0 :=
      replacedGrown_eq_zero sized fun t ht => hsteps ▸ List.mem_append_left _ ht
    rw [none, Int.sub_zero] at rule
    exact (pointwise s hs).mp rule
  · intro fits pre s post hsteps recorded
    have hs : s ∈ packSteps sz svc k m req req.toget.toNat start (packStart sz req r) :=
      hsteps ▸ List.mem_append_right _ List.mem_cons_self
    have none : replacedGrown sz svc k m req pre = 0 :=
      replacedGrown_eq_zero sized fun t ht => hsteps ▸ List.mem_append_left _ ht
    have verdict := (pointwise s hs).mpr (fits s hs recorded)
    have applied := verdict_applied recorded
    dsimp only
    rw [none, Int.sub_zero, ← verdict]
    exact ⟨rfl, applied⟩

end Steps

/-- Two records that fit the reply together. -/
theorem rules_kept_iff_two : ∃ m : Retrieval, m.preferredMessageSize.value = 1000 ∧
    m.maximumRecordSize.value = 5000 ∧
    RulesKept .lp64 (.sized fun _ => 200) 0 m
      { resultSetName := [], toget := 2, comp := none, format := none } 1
      { app := (), total := 0 } := by
  refine ⟨Retrieval.sized 1000 5000, rfl, rfl, ?_⟩
  exact (rules_kept_iff (by decide) (by decide) 1 { app := (), total := 0 }).mpr (by decide)

/-- The second of two records is larger than the preferred size and smaller than the maximum: it
should be replaced by the diagnostic 16, and the reply ends without it. -/
theorem rules_broken : ∃ m : Retrieval, m.preferredMessageSize.value = 1000 ∧
    m.maximumRecordSize.value = 5000 ∧
    (packRecords .lp64 (.sized fun position => if position = 1 then 200 else 2000) 0 m
      { resultSetName := [], toget := 2, comp := none, format := none } 1
      { app := (), total := 0 }).list.length = 1 ∧
    ¬ RulesKept .lp64 (.sized fun position => if position = 1 then 200 else 2000) 0 m
      { resultSetName := [], toget := 2, comp := none, format := none } 1
      { app := (), total := 0 } := by
  refine ⟨Retrieval.sized 1000 5000, rfl, rfl, by decide, ?_⟩
  intro kept
  exact absurd (kept [_] _ [] rfl rfl).1 (by decide)

end Yazpp
