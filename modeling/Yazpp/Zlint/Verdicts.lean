import Yazpp.Lib.History
import Yazpp.Zlint.Driver

/-!
# What zlint prints, and in which order

Whatever tests do, and wherever a connection fails, a `Zlint` prints a line with the current test,
gives the current test other members, moves to the next test, opens a connection, or comes to a
fault. What each of these preserves is preserved by any notification (`Stable.perform`). All of it
is for any tests.
-/

set_option autoImplicit false

namespace Yazpp

open Yazpp.Lib

variable {τ γ ρ φ : Type}

theorem ZlintNext.andThen_of_alive {x : ZlintNext τ ρ φ} {f : Zlint τ → ZlintNext τ ρ φ}
    (alive : x.1.faulted = false) : x.andThen f = ((f x.1).1, x.2 ++ (f x.1).2) := by
  unfold ZlintNext.andThen
  rw [alive]
  rfl

theorem ZlintNext.andThen_of_faulted {x : ZlintNext τ ρ φ} {f : Zlint τ → ZlintNext τ ρ φ}
    (faulted : x.1.faulted = true) : x.andThen f = x := by
  unfold ZlintNext.andThen
  rw [if_pos faulted]

namespace Zlint

/-! ## One notification -/

/-- What a test makes of a notification. -/
def answer (ops : ZlintTest τ γ ρ φ) : ZlintInput γ → τ →
    Except φ (τ × List (TestCall ρ) × LintCode)
  | .connectNotify sent => ops.init sent
  | .timeoutNotify _ => ops.recvFail 2
  | .failNotify => ops.recvFail 1
  | .recvGdu gdu _ => ops.recvGdu gdu

/-- What becomes of the requests of the test. -/
def outcomes : ZlintInput γ → List SendOutcome
  | .connectNotify sent | .timeoutNotify sent | .recvGdu _ sent => sent
  | .failNotify => []

/-- What follows a connection that fails in one of them. -/
def failing (ops : ZlintTest τ γ ρ φ) : ZlintInput γ → Zlint τ → ZlintNext τ ρ φ
  | .failNotify => fun z => (z, [])
  | _ => failNotify ops

/-- What follows the answer. -/
def ending : ZlintInput γ → LintCode → Zlint τ → ZlintNext τ ρ φ
  | .connectNotify _ => connected
  | .timeoutNotify _ | .failNotify => failed
  | .recvGdu .. => received

/-- The four notifications are turns of the current test. -/
theorem perform_eq (ops : ZlintTest τ γ ρ φ) (z : Zlint τ) (i : ZlintInput γ) :
    z.perform ops i = z.turn (failing ops i) (outcomes i) (answer ops i) (ending i) := by
  cases i <;> rfl

/-- The same test gets another connection. -/
def reopens : ZlintInput γ → LintCode → Bool
  | .connectNotify _, _ | _, .testFinished => false
  | .recvGdu .., code => code == .testReopen
  | .timeoutNotify _, _ | .failNotify, _ => true

/-- An answer is followed by the next test, or by another connection, or by nothing. -/
theorem ending_eq (i : ZlintInput γ) (code : LintCode) (z : Zlint τ) :
    (ending i code z : ZlintNext τ ρ φ) =
      if code = .testFinished then z.closeGotoNext
      else (z, if reopens i code then reconnect else []) := by
  cases i <;> cases code <;> rfl

section Turn

variable {fail : Zlint τ → ZlintNext τ ρ φ} {sent : List SendOutcome}
  {f : τ → Except φ (τ × List (TestCall ρ) × LintCode)}
  {next : LintCode → Zlint τ → ZlintNext τ ρ φ} {z : Zlint τ}

theorem turn_idle (hrest : z.rest = []) : z.turn fail sent f next = (z, []) := by
  unfold turn
  rw [hrest]

theorem turn_fault {t : ZlintT τ} {rest : List (ZlintT τ)} {fault : φ} (hrest : z.rest = t :: rest)
    (hf : f t.test = .error fault) :
    z.turn fail sent f next = ({ z with faulted := true }, [.fault (.test fault)]) := by
  unfold turn
  rw [hrest]
  simp only [hf]

theorem turn_answer {t : ZlintT τ} {rest : List (ZlintT τ)} {test : τ} {calls : List (TestCall ρ)}
    {code : LintCode} (hrest : z.rest = t :: rest) (hf : f t.test = .ok (test, calls, code)) :
    z.turn fail sent f next =
      (makes fail calls sent { z with rest := { t with test := test } :: rest }).andThen
        (next code) := by
  unfold turn
  rw [hrest]
  simp only [hf]

end Turn

/-- A step is a notification, before any fault. -/
theorem step_eq {ops : ZlintTest τ γ ρ φ} {z z' : Zlint τ} {i : ZlintInput γ}
    {o : List (ZlintCall ρ φ)} (hstep : (zlint ops).step z i = some (z', o)) :
    z.faulted = false ∧ z.perform ops i = (z', o) := by
  simp only [zlint] at hstep
  split at hstep
  · cases hstep
  · next alive => exact ⟨Bool.eq_false_iff.mpr alive, Option.some.inj hstep⟩

/-! ## What is preserved whatever the tests do -/

/-- What each thing that a `Zlint` does preserves. -/
structure Stable (P : Zlint τ → List (ZlintCall ρ φ) → Prop) : Prop where
  told {z : Zlint τ} {h : List (ZlintCall ρ φ)} (call : TestCall ρ) :
    P z h → P (z.tell (φ := φ) call).1 (h ++ (z.tell call).2)
  assigned {z : Zlint τ} {h : List (ZlintCall ρ φ)} {t : ZlintT τ} {rest : List (ZlintT τ)}
    (test : τ) : z.rest = t :: rest → P z h →
    P { z with rest := { t with test := test } :: rest } h
  moved {z : Zlint τ} {h : List (ZlintCall ρ φ)} :
    P z h → P (z.closeGotoNext (ρ := ρ) (φ := φ)).1 (h ++ z.closeGotoNext.2)
  reconnected {z : Zlint τ} {h : List (ZlintCall ρ φ)} : P z h → P z (h ++ reconnect)
  faulted {z : Zlint τ} {h : List (ZlintCall ρ φ)} (fault : ZlintFault φ) :
    P z h → P { z with faulted := true } (h ++ [.fault fault])

/-- What a part of a notification preserves. -/
def Keeps (P : Zlint τ → List (ZlintCall ρ φ) → Prop) (f : Zlint τ → ZlintNext τ ρ φ) : Prop :=
  ∀ z h, P z h → P (f z).1 (h ++ (f z).2)

section Stable

variable {P : Zlint τ → List (ZlintCall ρ φ) → Prop}

theorem Keeps.nothing : Keeps P fun z => (z, []) := by
  intro z h holds
  rwa [List.append_nil]

theorem Keeps.andThen {f : Zlint τ → ZlintNext τ ρ φ} (keeps : Keeps P f) {next : ZlintNext τ ρ φ}
    {h : List (ZlintCall ρ φ)} (holds : P next.1 (h ++ next.2)) :
    P (next.andThen f).1 (h ++ (next.andThen f).2) := by
  cases hfaulted : next.1.faulted with
  | true => rwa [ZlintNext.andThen_of_faulted hfaulted]
  | false =>
    rw [ZlintNext.andThen_of_alive hfaulted, ← List.append_assoc]
    exact keeps _ _ holds

namespace Stable

theorem make (stable : Stable P) {fail : Zlint τ → ZlintNext τ ρ φ} (keeps : Keeps P fail)
    (outcome : SendOutcome) (call : TestCall ρ) : Keeps P (Zlint.make fail outcome call) := by
  intro z h holds
  unfold Zlint.make
  split
  · rwa [List.append_nil]
  · exact keeps z h holds
  · exact stable.told _ holds

theorem makes (stable : Stable P) {fail : Zlint τ → ZlintNext τ ρ φ} (keeps : Keeps P fail)
    (calls : List (TestCall ρ)) :
    ∀ sent : List SendOutcome, Keeps P (Zlint.makes fail calls sent) := by
  induction calls with
  | nil => exact fun sent => .nothing
  | cons call calls ih =>
    intro sent z h holds
    exact (ih (call.later sent)).andThen (stable.make keeps _ call z h holds)

theorem ending (stable : Stable P) (i : ZlintInput γ) (code : LintCode) :
    Keeps P (Zlint.ending i code) := by
  intro z h holds
  rw [ending_eq]
  split
  · exact stable.moved holds
  · split
    · exact stable.reconnected holds
    · exact Keeps.nothing z h holds

theorem turn (stable : Stable P) {fail : Zlint τ → ZlintNext τ ρ φ} (keeps : Keeps P fail)
    (sent : List SendOutcome) (f : τ → Except φ (τ × List (TestCall ρ) × LintCode))
    (i : ZlintInput γ) : Keeps P fun z => z.turn fail sent f (Zlint.ending i) := by
  intro z h holds
  cases hrest : z.rest with
  | nil =>
    simp only [turn_idle hrest]
    exact Keeps.nothing z h holds
  | cons t rest =>
    cases hf : f t.test with
    | error fault =>
      simp only [turn_fault hrest hf]
      exact stable.faulted (.test fault) holds
    | ok said =>
      obtain ⟨test, calls, code⟩ := said
      simp only [turn_answer hrest hf]
      have assigned := stable.assigned test hrest holds
      exact (stable.ending i code).andThen (stable.makes keeps calls sent _ h assigned)

theorem failNotify (stable : Stable P) (ops : ZlintTest τ γ ρ φ) :
    Keeps P (Zlint.failNotify ops) :=
  stable.turn .nothing [] (ops.recvFail 1) (.failNotify : ZlintInput γ)

/-- **A notification preserves what is stable**, also where another one is made inside it. -/
theorem perform (stable : Stable P) (ops : ZlintTest τ γ ρ φ) (i : ZlintInput γ) :
    Keeps P (Zlint.perform ops · i) := by
  intro z h holds
  simp only [perform_eq]
  have keeps : Keeps P (failing ops i) := by
    cases i
    case failNotify => exact .nothing
    all_goals exact stable.failNotify ops
  exact stable.turn keeps (outcomes i) (answer ops i) i z h holds

/-- **So does a run.** -/
theorem run (stable : Stable P) {ops : ZlintTest τ γ ρ φ} {ts : List τ} {is : List (ZlintInput γ)}
    {z : Zlint τ} {h : List (ZlintCall ρ φ)} (starts : ∀ z h, Started ts z h → P z h)
    (run : (zlint ops).Run (Started ts) is z h) : P z h := by
  refine run.invariant P starts fun z h i z' o holds hstep => ?_
  have kept : P (z.perform ops i).1 (h ++ (z.perform ops i).2) := stable.perform ops i z h holds
  rwa [(step_eq hstep).2] at kept

end Stable

end Stable

/-- The tests of a start are the ones that were added, in order. -/
theorem foldl_addTest (ts : List τ) : ∀ z : Zlint τ, z.passed = [] →
    ts.foldl (fun z t => z.addTest t) z =
      { z with rest := z.rest ++ ts.map fun t => { test := t } } := by
  induction ts with
  | nil => simp
  | cons t ts ih =>
    intro z hz
    rw [List.foldl_cons, ih]
    · unfold addTest tests
      split <;> simp [*]
    · unfold addTest
      split <;> first | rfl | exact hz

theorem started_eq {ts : List τ} {z : Zlint τ} {h : List (ZlintCall ρ φ)} (hs : Started ts z h) :
    z = { rest := ts.map fun t => { test := t } } := by
  rw [hs.state, foldl_addTest ts {} rfl]
  rfl

/-! ## The verdicts of a test -/

/-- A verdict on the test in this place. -/
def verdict (k : Nat) : ZlintCall ρ φ → Prop
  | .prints j .ok | .prints j .fail | .prints j .unsupported => j = k
  | _ => False

/-- The test in this place says what it checks. -/
def checking (k : Nat) : ZlintCall ρ φ → Prop
  | .prints j (.checking _) => j = k
  | _ => False

/-- What a test has said so far, and whether it has reported a verdict on what it checks. -/
structure Heard (k : Nat) (reported : Bool) (h : List (ZlintCall ρ φ)) : Prop where
  parted : Parted h (verdict k) (checking k)
  reports : Open h (verdict k) (checking k) → reported = true

namespace Heard

variable {k : Nat} {reported : Bool} {h : List (ZlintCall ρ φ)}

/-- One more line, which is no verdict and no check. -/
theorem snoc_other (heard : Heard k reported h) {e : ZlintCall ρ φ} (hv : ¬ verdict k e) :
    Heard k reported (h ++ [e]) where
  parted := heard.parted.snoc fun he => absurd he hv
  reports opened := by
    rcases opened.of_snoc with he | ⟨open', -⟩
    · exact absurd he hv
    · exact heard.reports open'

/-- A verdict, where none is reported. -/
theorem snoc_verdict (heard : Heard k reported h) {e : ZlintCall ρ φ} (unreported : ¬ reported) :
    Heard k true (h ++ [e]) where
  parted := heard.parted.snoc fun _ opened => unreported (heard.reports opened)
  reports _ := rfl

/-- A check. -/
theorem snoc_checking (heard : Heard k reported h) (text : String) :
    Heard k false (h ++ [.prints k (.checking text)]) where
  parted := heard.parted.snoc fun he => nomatch he
  reports opened := by
    rcases opened.of_snoc with he | ⟨-, hc⟩
    · nomatch he
    · exact absurd rfl hc

/-- One call. -/
theorem tell {t : ZlintT τ} (heard : Heard k t.testReported h) (call : TestCall ρ) :
    Heard k (t.tell call).1.testReported (h ++ (t.tell call).2.map (.prints k)) := by
  cases call with
  | checkFor text => exact heard.snoc_checking text
  | checkInfo text => exact heard.snoc_other (fun hv => nomatch hv)
  | send request => exact heard.snoc_other (fun hv => nomatch hv)
  | checkOk =>
    simp only [ZlintT.tell]
    split
    · simpa only [List.map_nil, List.append_nil] using heard
    · next unreported => exact heard.snoc_verdict unreported
  | checkNotapp =>
    simp only [ZlintT.tell]
    split
    · simpa only [List.map_nil, List.append_nil] using heard
    · next unreported => exact heard.snoc_verdict unreported
  | checkFail text =>
    simp only [ZlintT.tell]
    split
    · exact heard.snoc_other (fun hv => nomatch hv)
    · next unreported =>
      have h := (heard.snoc_verdict (e := .prints k .fail) unreported).snoc_other
        (e := .prints k (.info text)) (fun hv => nomatch hv)
      rwa [List.append_assoc] at h

/-- Lines of other tests, and calls that are no lines. -/
theorem append_other (heard : Heard k reported h) {more : List (ZlintCall ρ φ)}
    (none : ∀ e ∈ more, ¬ verdict k e) : Heard k reported (h ++ more) := by
  induction more generalizing h with
  | nil => rwa [List.append_nil]
  | cons e more ih =>
    rw [List.append_cons]
    exact ih (heard.snoc_other (none e List.mem_cons_self))
      fun x hx => none x (List.mem_cons_of_mem _ hx)

end Heard

/-- What is no line is no verdict. -/
theorem prints_of_verdict {k : Nat} {e : ZlintCall ρ φ} (hv : verdict k e) :
    ∃ line, e = .prints k line := by
  unfold verdict at hv
  split at hv
  · subst hv; exact ⟨_, rfl⟩
  · subst hv; exact ⟨_, rfl⟩
  · subst hv; exact ⟨_, rfl⟩
  · exact hv.elim

/-- The verdict flag of the test in this place. -/
def reported (z : Zlint τ) (k : Nat) : Bool := (z.tests[k]?.map ZlintT.testReported).getD true

theorem reported_current {z : Zlint τ} {t : ZlintT τ} {rest : List (ZlintT τ)}
    (hrest : z.rest = t :: rest) : z.reported z.passed.length = t.testReported := by
  simp [reported, tests, hrest]

/-- Another test in the place of the current one. -/
theorem reported_other {z : Zlint τ} {t t' : ZlintT τ} {rest : List (ZlintT τ)}
    (hrest : z.rest = t :: rest) {k : Nat} (other : k ≠ z.passed.length) :
    ({ z with rest := t' :: rest } : Zlint τ).reported k = z.reported k := by
  have htests : z.passed ++ t' :: rest = (z.passed ++ t :: rest).set z.passed.length t' := by
    rw [List.set_append_right _ _ (Nat.le_refl _), Nat.sub_self]
    rfl
  simp only [reported, tests, hrest, htests, List.getElem?_set_ne other.symm]

/-- What has been said, of all the tests. -/
def Spoken (z : Zlint τ) (h : List (ZlintCall ρ φ)) : Prop := ∀ k, Heard k (z.reported k) h

theorem spoken_tell {z : Zlint τ} {h : List (ZlintCall ρ φ)} (spoken : Spoken z h)
    (call : TestCall ρ) : Spoken (z.tell (φ := φ) call).1 (h ++ (z.tell call).2) := by
  intro k
  cases hrest : z.rest with
  | nil =>
    have silent : ∀ e ∈ (z.tell (φ := φ) call).2, ¬ verdict k e := by
      cases call <;> simp [Zlint.tell, hrest, verdict]
    have same : (z.tell (φ := φ) call).1.reported k = z.reported k := by
      cases call <;> simp [Zlint.tell, hrest, reported, tests]
    rw [same]
    exact (spoken k).append_other silent
  | cons t rest =>
    have htell : z.tell call = ({ z with rest := (t.tell call).1 :: rest },
        (t.tell call).2.map (.prints (φ := φ) z.passed.length)) := by
      simp only [Zlint.tell, hrest]
    rw [htell]
    by_cases hk : k = z.passed.length
    · subst hk
      have heard := spoken z.passed.length
      rw [reported_current hrest] at heard
      have current : ({ z with rest := (t.tell call).1 :: rest } : Zlint τ).reported
          z.passed.length = (t.tell call).1.testReported := reported_current rfl
      rw [current]
      exact heard.tell call
    · rw [reported_other hrest hk]
      refine (spoken k).append_other fun e he hv => ?_
      obtain ⟨line, -, rfl⟩ := List.mem_map.mp he
      obtain ⟨line', heq⟩ := prints_of_verdict hv
      cases heq
      exact hk rfl

/-- Any tests, whatever they do. -/
theorem spoken_stable : Stable (Spoken : Zlint τ → List (ZlintCall ρ φ) → Prop) where
  told call spoken := spoken_tell spoken call
  assigned {z h t rest} test hrest spoken k := by
    by_cases hk : k = z.passed.length
    · have heard := spoken k
      subst hk
      rw [reported_current hrest] at heard
      rwa [reported_current (z := { z with rest := { t with test := test } :: rest }) rfl]
    · rw [reported_other hrest hk]
      exact spoken k
  moved {z h} spoken k := by
    have same : (z.closeGotoNext (ρ := ρ) (φ := φ)).1.reported k = z.reported k := by
      unfold closeGotoNext
      split <;> simp [reported, tests, *]
    have silent : ∀ e ∈ (z.closeGotoNext (ρ := ρ) (φ := φ)).2, ¬ verdict k e := by
      unfold closeGotoNext
      split <;> simp [reconnect, verdict]
    rw [same]
    exact (spoken k).append_other silent
  reconnected spoken k := (spoken k).append_other (by simp [reconnect, verdict])
  faulted fault spoken k := (spoken k).snoc_other (fun hv => hv)

/-- A start. -/
theorem spoken_started {ts : List τ} {z : Zlint τ} {h : List (ZlintCall ρ φ)}
    (hs : Started ts z h) : Spoken z h := by
  intro k
  have silent : ∀ e ∈ h, ¬ verdict k e := by
    rw [hs.history]
    simp [reconnect, verdict]
  exact ⟨.of_none silent, fun opened => absurd opened (Open.not_of_none silent)⟩

end Zlint

/-- **Between two verdicts that are booked on a test, it is said what is checked next with this
test**, over any notifications, whatever the tests do and wherever their requests are lost. -/
theorem one_verdict {ops : ZlintTest τ γ ρ φ} {ts : List τ} {is : List (ZlintInput γ)}
    {z : Zlint τ} {h : List (ZlintCall ρ φ)}
    (run : (zlint ops).Run (Zlint.Started ts) is z h) (k : Nat) :
    Parted h (Zlint.verdict k) (Zlint.checking k) :=
  (Zlint.spoken_stable.run (fun _ _ => Zlint.spoken_started) run k).parted

/-- Two tests, and a first request that is lost: both get a verdict in one notification. -/
theorem one_verdict_lost : ∃ z h,
    (zlint (⟨fun _ t => .ok (t, [.checkFor "init", .send (), .checkFail "unable"], .testFinished),
        fun _ t => .ok (t, [], .testContinue),
        fun _ t => .ok (t, [.checkFail "closed"], .testFinished)⟩ :
      ZlintTest Unit Unit Unit Unit)).Run (Zlint.Started [(), ()]) [.connectNotify [.lost]] z h ∧
      (.prints 0 .fail ∈ h ∧ .prints 1 .fail ∈ h) ∧ Parted h (Zlint.verdict 1) (Zlint.checking 1) :=
  have run := (Machine.Run.start (show Zlint.Started [(), ()] _ _ from ⟨rfl, rfl⟩)).step rfl
  ⟨_, _, run, by decide, one_verdict run 1⟩

/-! ## The order of the tests -/

namespace Zlint

/-- The place of the test that is current when a line is printed. -/
def place : ZlintCall ρ φ → Option Nat
  | .prints k _ => some k
  | _ => none

/-- The lines, with one test at a time. -/
structure InTurn (n : Nat) (z : Zlint τ) (h : List (ZlintCall ρ φ)) : Prop where
  lines : (h.filterMap place).Pairwise (· ≤ ·)
  latest : ∀ k ∈ h.filterMap place, k ≤ z.passed.length
  length : z.passed.length + z.rest.length = n

/-- Lines of the current place, behind others. -/
theorem InTurn.append {n : Nat} {z z' : Zlint τ} {h o : List (ZlintCall ρ φ)} (turn : InTurn n z h)
    (here : ∀ k ∈ o.filterMap place, k = z.passed.length)
    (hpassed : z.passed.length ≤ z'.passed.length)
    (length : z'.passed.length + z'.rest.length = n) : InTurn n z' (h ++ o) := by
  refine ⟨?_, fun k hk => ?_, length⟩
  · rw [List.filterMap_append]
    refine List.pairwise_append.mpr ⟨turn.lines, ?_, fun j hj k hk => ?_⟩
    · refine List.pairwise_of_forall_mem_list fun j hj k hk => ?_
      exact Nat.le_of_eq ((here j hj).trans (here k hk).symm)
    · rw [here k hk]
      exact turn.latest j hj
  · rw [List.filterMap_append] at hk
    rcases List.mem_append.mp hk with hk | hk
    · exact Nat.le_trans (turn.latest k hk) hpassed
    · exact here k hk ▸ hpassed

end Zlint

end Yazpp
