import Yazpp.Zlint.Verdicts

/-!
# A request that is lost

When a request of a test is lost, `failNotify` is a notification inside another one. The calls of a
test are split there (`makes_split`): those in front of it are all for the test itself, those behind
it for whatever test is current then. So it is known when the connection is closed, and how many
connections are opened.
-/

set_option autoImplicit false

namespace Yazpp

open Yazpp.Lib

variable {τ γ ρ φ : Type}

/-- A request that a call sends. -/
def TestCall.request? : TestCall ρ → Option ρ
  | .send request => some request
  | _ => none

namespace Zlint

/-- The calls in front of the first request that is lost, without the requests that are refused. -/
def front : List (TestCall ρ) → List SendOutcome → List (TestCall ρ)
  | [], _ => []
  | call :: calls, sent =>
    match call, sent.headD .refused with
    | .send _, .lost => []
    | .send _, .refused => front calls sent.tail
    | call, _ => call :: front calls (call.later sent)

/-- The calls behind it, and what becomes of their requests. -/
def back : List (TestCall ρ) → List SendOutcome → Option (List (TestCall ρ) × List SendOutcome)
  | [], _ => none
  | call :: calls, sent =>
    match call, sent.headD .refused with
    | .send _, .lost => some (calls, sent.tail)
    | call, _ => back calls (call.later sent)

/-- The current test prints what it says. -/
def speaks (z : Zlint τ) (t : ZlintT τ) (rest : List (ZlintT τ)) (calls : List (TestCall ρ)) :
    ZlintNext τ ρ φ :=
  ({ z with rest := (t.tells calls).1 :: rest },
    (t.tells calls).2.map (.prints z.passed.length))

/-- Lines in front. -/
theorem behind_andThen (lines : List (ZlintCall ρ φ)) (next : ZlintNext τ ρ φ)
    (f : Zlint τ → ZlintNext τ ρ φ) :
    ((next.andThen f).1, lines ++ (next.andThen f).2) =
      ZlintNext.andThen (next.1, lines ++ next.2) f := by
  unfold ZlintNext.andThen
  dsimp only
  split
  · rfl
  · rw [List.append_assoc]

/-- **The calls of a test**: up to the first request that is lost they are all for the current
test. -/
theorem makes_split (fail : Zlint τ → ZlintNext τ ρ φ) (calls : List (TestCall ρ))
    (sent : List SendOutcome) {z : Zlint τ} {t : ZlintT τ} {rest : List (ZlintT τ)}
    (alive : z.faulted = false) (hrest : z.rest = t :: rest) :
    makes fail calls sent z =
      match back calls sent with
      | none => z.speaks t rest (front calls sent)
      | some (more, sent') =>
        ((z.speaks t rest (front calls sent)).andThen fail).andThen (makes fail more sent') := by
  induction calls generalizing sent z t with
  | nil =>
    simp only [makes, back, front, speaks, ZlintT.tells, List.map_nil, ← hrest]
  | cons call calls ih =>
    have one : ∀ call' : TestCall ρ, z.make fail (sent.headD .refused) call' = z.tell call' →
        back (call' :: calls) sent = back calls (call'.later sent) →
        front (call' :: calls) sent = call' :: front calls (call'.later sent) →
        makes fail (call' :: calls) sent z =
          match back (call' :: calls) sent with
          | none => z.speaks t rest (front (call' :: calls) sent)
          | some (more, sent') =>
            ((z.speaks t rest (front (call' :: calls) sent)).andThen fail).andThen
              (makes fail more sent') := by
      intro call' hmake hback hfront
      have htell : z.tell (φ := φ) call' = ({ z with rest := (t.tell call').1 :: rest },
          (t.tell call').2.map (.prints z.passed.length)) := by
        simp only [Zlint.tell, hrest]
      have later := ih (call'.later sent) (z := { z with rest := (t.tell call').1 :: rest })
        alive rfl
      rw [makes, hmake, htell, ZlintNext.andThen_of_alive alive, later, hback, hfront]
      cases back calls (call'.later sent) with
      | none => simp only [speaks, ZlintT.tells, List.map_append]
      | some more =>
        simp only [behind_andThen]
        simp only [speaks, ZlintT.tells, List.map_append]
    cases call with
    | send request =>
      cases houtcome : sent.headD .refused with
      | sent =>
        refine one (.send request) ?_ ?_ ?_ <;> simp only [make, back, front, houtcome]
      | refused =>
        have later := ih sent.tail alive hrest
        simp only [makes, make, back, front, houtcome, TestCall.later,
          ZlintNext.andThen_of_alive (x := ((z, []) : ZlintNext τ ρ φ)) alive,
          List.nil_append]
        exact later
      | lost =>
        simp only [makes, make, back, front, houtcome, TestCall.later, speaks, ZlintT.tells,
          List.map_nil, ← hrest]
        rw [ZlintNext.andThen_of_alive (x := ((z, []) : ZlintNext τ ρ φ)) alive]
        rfl
    | _ => exact one _ rfl rfl rfl

/-- Where every request is sent, every call is made. -/
theorem front_of_sent (calls : List (TestCall ρ)) : ∀ {sent more : List SendOutcome},
    sent = List.replicate (calls.filterMap TestCall.request?).length .sent ++ more →
    front calls sent = calls ∧ back calls sent = none := by
  induction calls with
  | nil => exact fun _ => ⟨rfl, rfl⟩
  | cons call calls ih =>
    intro sent more hsent
    cases call with
    | send request =>
      have hsent' : sent = .sent :: (List.replicate
          (calls.filterMap TestCall.request?).length .sent ++ more) := hsent
      subst hsent'
      obtain ⟨hfront, hback⟩ := ih rfl
      exact ⟨congrArg _ hfront, hback⟩
    | _ =>
      obtain ⟨hfront, hback⟩ := @ih sent more hsent
      exact ⟨congrArg _ hfront, hback⟩

/-- Without a connection no request is lost. -/
theorem back_nil (calls : List (TestCall ρ)) : back calls [] = none := by
  induction calls with
  | nil => rfl
  | cons call calls ih => cases call <;> exact ih

/-- A complaint, when there is no test. -/
theorem makes_complaint_nil (fail : Zlint τ → ZlintNext τ ρ φ) (text : String)
    (sent : List SendOutcome) {z : Zlint τ} (hrest : z.rest = []) :
    makes fail [.checkFail text] sent z = ({ z with faulted := true }, [.fault .noCurTest]) := by
  simp only [makes, make, Zlint.tell, hrest]
  rfl

/-- A complaint, booked on the current test. -/
theorem makes_complaint (fail : Zlint τ → ZlintNext τ ρ φ) (text : String)
    (sent : List SendOutcome) {z : Zlint τ} {t : ZlintT τ} {rest : List (ZlintT τ)}
    (alive : z.faulted = false) (hrest : z.rest = t :: rest) :
    makes fail [.checkFail text] sent z = z.speaks t rest [.checkFail text] :=
  makes_split fail [.checkFail text] sent alive hrest

/-- **A turn in which no request is lost**: what the current test prints, and what follows. -/
theorem turn_plain {fail : Zlint τ → ZlintNext τ ρ φ} {sent : List SendOutcome}
    {f : τ → Except φ (τ × List (TestCall ρ) × LintCode)}
    {next : LintCode → Zlint τ → ZlintNext τ ρ φ} {z : Zlint τ} {t : ZlintT τ}
    {rest : List (ZlintT τ)} {test : τ} {calls : List (TestCall ρ)} {code : LintCode}
    (alive : z.faulted = false) (hrest : z.rest = t :: rest)
    (hf : f t.test = .ok (test, calls, code)) (plain : back calls sent = none) :
    z.turn fail sent f next =
      ((next code (z.speaks (φ := φ) { t with test := test } rest (front calls sent)).1).1,
        (z.speaks { t with test := test } rest (front calls sent)).2 ++
          (next code (z.speaks (φ := φ) { t with test := test } rest (front calls sent)).1).2) := by
  have split := makes_split fail calls sent
    (z := { z with rest := { t with test := test } :: rest }) alive rfl
  rw [plain] at split
  rw [turn_answer hrest hf, split]
  exact ZlintNext.andThen_of_alive alive

/-- A test that does not finish, where no request is lost. -/
theorem perform_stays {ops : ZlintTest τ γ ρ φ} {i : ZlintInput γ} {z : Zlint τ} {t : ZlintT τ}
    {rest : List (ZlintT τ)} {test : τ} {calls : List (TestCall ρ)} {code : LintCode}
    (alive : z.faulted = false) (hrest : z.rest = t :: rest)
    (hf : answer ops i t.test = .ok (test, calls, code)) (plain : back calls (outcomes i) = none)
    (hcode : code ≠ .testFinished) :
    z.perform ops i =
      ((z.speaks (φ := φ) { t with test := test } rest (front calls (outcomes i))).1,
        (z.speaks { t with test := test } rest (front calls (outcomes i))).2 ++
          if reopens i code then reconnect else []) := by
  rw [perform_eq, turn_plain alive hrest hf plain, ending_eq, if_neg hcode]

/-- A test that finishes, where no request is lost. -/
theorem perform_finishes {ops : ZlintTest τ γ ρ φ} {i : ZlintInput γ} {z : Zlint τ} {t : ZlintT τ}
    {rest : List (ZlintT τ)} {test : τ} {calls : List (TestCall ρ)}
    (alive : z.faulted = false) (hrest : z.rest = t :: rest)
    (hf : answer ops i t.test = .ok (test, calls, .testFinished))
    (plain : back calls (outcomes i) = none) :
    z.perform ops i =
      ({ z with
          passed := z.passed ++
            [(({ t with test := test } : ZlintT τ).tells (front calls (outcomes i))).1]
          rest := rest },
        (z.speaks { t with test := test } rest (front calls (outcomes i))).2 ++
          if rest = [] then [.close] else reconnect) := by
  rw [perform_eq, turn_plain alive hrest hf plain, ending_eq, if_pos rfl]
  cases rest <;> rfl

/-- **A turn in which a request is lost**: the other notification comes before the end of this
one. -/
theorem turn_lost {fail : Zlint τ → ZlintNext τ ρ φ} {sent sent' : List SendOutcome}
    {f : τ → Except φ (τ × List (TestCall ρ) × LintCode)}
    {next : LintCode → Zlint τ → ZlintNext τ ρ φ} {z : Zlint τ} {t : ZlintT τ}
    {rest : List (ZlintT τ)} {test : τ} {calls more : List (TestCall ρ)} {code : LintCode}
    (alive : z.faulted = false) (hrest : z.rest = t :: rest)
    (hf : f t.test = .ok (test, calls, code)) (lost : back calls sent = some (more, sent')) :
    let said := z.speaks (φ := φ) { t with test := test } rest (front calls sent)
    z.turn fail sent f next =
      (ZlintNext.andThen ((fail said.1).1, said.2 ++ (fail said.1).2)
        (makes fail more sent')).andThen (next code) := by
  have split := makes_split fail calls sent
    (z := { z with rest := { t with test := test } :: rest }) alive rfl
  rw [lost] at split
  have met : (z.speaks (φ := φ) { t with test := test } rest (front calls sent)).andThen fail = _ :=
    ZlintNext.andThen_of_alive alive
  rw [turn_answer hrest hf, split]
  exact congrArg (fun x => (ZlintNext.andThen x (makes fail more sent')).andThen (next code)) met

/-! ## The end of the connection -/

/-- There is a current test, or the connection has just been closed behind the last one. -/
inductive Ends (z : Zlint τ) (h : List (ZlintCall ρ φ)) : Prop
  | going : z.rest ≠ [] → .close ∉ h → Ends z h
  | closed (p : List (ZlintCall ρ φ)) : z.rest = [] → h = p ++ [.close] → .close ∉ p → Ends z h

/-- The connection is closed behind the last test, once. Nothing follows but a message of that test,
which has no place any more. -/
inductive Closing (z : Zlint τ) (h : List (ZlintCall ρ φ)) : Prop
  | before : (z.rest = [] → z.passed = []) → .close ∉ h → Closing z h
  | behind (p : List (ZlintCall ρ φ)) : z.rest = [] → h = p ++ [.close] → .close ∉ p → Closing z h
  | complained (p : List (ZlintCall ρ φ)) : z.rest = [] → z.faulted = true →
      h = p ++ [.close, .fault .noCurTest] → .close ∉ p → Closing z h

theorem Ends.closing {z : Zlint τ} {h : List (ZlintCall ρ φ)} (ends : Ends z h) : Closing z h := by
  cases ends with
  | going hrest none => exact .before (fun hnil => absurd hnil hrest) none
  | closed p hnil hp none => exact .behind p hnil hp none

/-- What a test still reopens, by a measure that no answer raises and every reopening lowers. -/
def Lowers (ops : ZlintTest τ γ ρ φ) (μ : τ → Nat) : Prop :=
  ∀ (i : ZlintInput γ) t t' calls code, answer ops i t = .ok (t', calls, code) →
    μ t' + (if reopens i code then 1 else 0) ≤ μ t

/-- The connections that are still to come, at most. -/
def toCome (μ : τ → Nat) (z : Zlint τ) : Nat :=
  z.rest.foldr (fun t n => μ t.test + n) 0 + (z.rest.length - 1)

theorem tell_test (t : ZlintT τ) (call : TestCall ρ) : (t.tell call).1.test = t.test := by
  cases call <;> simp only [ZlintT.tell] <;> split <;> rfl

theorem tells_test (calls : List (TestCall ρ)) :
    ∀ t : ZlintT τ, (t.tells calls).1.test = t.test := by
  induction calls with
  | nil => exact fun t => rfl
  | cons call calls ih => exact fun t => (ih _).trans (tell_test t call)

section Spends

variable [DecidableEq ρ] [DecidableEq φ] {μ : τ → Nat}

/-- The connections that are opened are paid for. -/
def Spends (μ : τ → Nat) (f : Zlint τ → ZlintNext τ ρ φ) : Prop :=
  ∀ z, (f z).2.count .client + toCome μ (f z).1 ≤ toCome μ z

theorem Spends.nothing : Spends μ fun z => ((z, []) : ZlintNext τ ρ φ) := fun _ =>
  Nat.le_of_eq (Nat.zero_add _)

theorem Spends.andThen {f : Zlint τ → ZlintNext τ ρ φ} {x : ZlintNext τ ρ φ} {n m : Nat}
    (spent : x.2.count .client + toCome μ x.1 ≤ n)
    (spends : ∀ z, (f z).2.count .client + toCome μ (f z).1 ≤ toCome μ z + m) :
    (x.andThen f).2.count .client + toCome μ (x.andThen f).1 ≤ n + m := by
  cases hfaulted : x.1.faulted with
  | true =>
    rw [ZlintNext.andThen_of_faulted hfaulted]
    exact Nat.le_trans spent (Nat.le_add_right _ _)
  | false =>
    have later := spends x.1
    rw [ZlintNext.andThen_of_alive hfaulted]
    dsimp only
    rw [List.count_append]
    omega

theorem spends_tell (call : TestCall ρ) : Spends (φ := φ) μ fun z => z.tell call := by
  intro z
  cases hrest : z.rest with
  | nil => cases call <;> simp [Zlint.tell, hrest, toCome]
  | cons t rest =>
    have none : ((t.tell call).2.map (ZlintCall.prints (φ := φ) z.passed.length)).count
        .client = 0 := by
      rw [List.count_eq_zero]
      simp
    simp only [Zlint.tell, hrest, none, toCome, List.foldr_cons, tell_test, List.length_cons]
    exact Nat.le_of_eq (Nat.zero_add _)

theorem spends_closeGotoNext : Spends (ρ := ρ) (φ := φ) μ closeGotoNext := by
  intro z
  unfold closeGotoNext
  split
  · next t u rest hrest =>
    simp only [toCome, hrest, List.foldr_cons, List.length_cons]
    simp [reconnect]
    omega
  · next t hrest => simp [toCome, hrest]
  · next hrest => simp [toCome, hrest]

theorem spends_makes {fail : Zlint τ → ZlintNext τ ρ φ} (spends : Spends μ fail)
    (calls : List (TestCall ρ)) : ∀ sent, Spends μ (makes fail calls sent) := by
  induction calls with
  | nil => exact fun sent => .nothing
  | cons call calls ih =>
    intro sent z
    refine Spends.andThen (m := 0) ?_ (ih (call.later sent))
    unfold make
    split
    · exact Nat.le_of_eq (Nat.zero_add _)
    · exact spends z
    · exact spends_tell _ z

theorem spends_ending (i : ZlintInput γ) (code : LintCode) (z : Zlint τ) :
    (ending (ρ := ρ) (φ := φ) i code z).2.count .client +
        toCome μ (ending (ρ := ρ) (φ := φ) i code z).1 ≤
      toCome μ z + if reopens i code then 1 else 0 := by
  rw [ending_eq]
  split
  · exact Nat.le_trans (spends_closeGotoNext z) (Nat.le_add_right _ _)
  · split
    · simp [reconnect]
      omega
    · exact Nat.le_of_eq (Nat.zero_add _)

theorem spends_turn {ops : ZlintTest τ γ ρ φ} (lowers : Lowers ops μ)
    {fail : Zlint τ → ZlintNext τ ρ φ} (spends : Spends μ fail) (sent : List SendOutcome)
    (i : ZlintInput γ) : Spends μ fun z => z.turn fail sent (answer ops i) (ending i) := by
  intro z
  cases hrest : z.rest with
  | nil =>
    simp only [turn_idle hrest]
    exact Spends.nothing z
  | cons t rest =>
    cases hf : answer ops i t.test with
    | error fault =>
      simp only [turn_fault hrest hf]
      exact Nat.le_of_eq (Nat.zero_add _)
    | ok said =>
      obtain ⟨test, calls, code⟩ := said
      have lowered := lowers i t.test test calls code hf
      have made := spends_makes spends calls sent { z with rest := { t with test := test } :: rest }
      have done := Spends.andThen made (spends_ending i code)
      simp only [turn_answer hrest hf]
      refine Nat.le_trans done ?_
      simp only [toCome, hrest, List.foldr_cons, List.length_cons]
      omega

theorem spends_failNotify {ops : ZlintTest τ γ ρ φ} (lowers : Lowers ops μ) :
    Spends μ (failNotify ops) :=
  spends_turn lowers .nothing [] .failNotify

/-- **A notification pays for the connections that it opens**, and so does one inside it. -/
theorem spends_perform {ops : ZlintTest τ γ ρ φ} (lowers : Lowers ops μ) (i : ZlintInput γ) :
    Spends μ (perform ops · i) := by
  intro z
  simp only [perform_eq]
  have spends : Spends μ (failing ops i) := by
    cases i
    case failNotify => exact .nothing
    all_goals exact spends_failNotify lowers
  exact spends_turn lowers spends (outcomes i) i z

end Spends

end Zlint

end Yazpp
