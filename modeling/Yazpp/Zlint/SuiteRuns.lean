import Yazpp.Zlint.Lost
import Yazpp.Zlint.Suite
import Yazpp.Zlint.Tables

/-!
# Runs of zlint

What holds of zlint with the tests of its `main`, whatever the servers send and wherever the
connections fail: the tests have their turns in order, the connection is closed behind the last one,
and a bounded number of connections is opened.
-/

set_option autoImplicit false

namespace Yazpp

open Yazpp.Lib

/-! ## What the tests answer -/

/-- Nothing is sent. -/
def Quiet {ρ : Type} (calls : List (TestCall ρ)) : Prop := ∀ request, .send request ∉ calls

/-- What is said in front of the requests. -/
theorem Zlint.split_append {ρ : Type} {said : List (TestCall ρ)} (quiet : Quiet said)
    (calls : List (TestCall ρ)) (sent : List SendOutcome) :
    Zlint.back (said ++ calls) sent = Zlint.back calls sent ∧
      Zlint.front (said ++ calls) sent = said ++ Zlint.front calls sent := by
  induction said with
  | nil => exact ⟨rfl, rfl⟩
  | cons call said ih =>
    have rest : Quiet said := fun request h => quiet request (List.mem_cons_of_mem _ h)
    obtain ⟨hback, hfront⟩ := ih rest
    cases call with
    | send request => exact absurd List.mem_cons_self (quiet request)
    | _ => exact ⟨hback, congrArg _ hfront⟩

theorem Zlint.back_append {ρ : Type} {said : List (TestCall ρ)} (quiet : Quiet said)
    (calls : List (TestCall ρ)) (sent : List SendOutcome) :
    Zlint.back (said ++ calls) sent = Zlint.back calls sent :=
  (Zlint.split_append quiet calls sent).1

/-- What is sent is sent last, and the test waits for the answer. -/
def SendsLast (calls : List (TestCall LintRequest)) (code : LintCode) : Prop :=
  Quiet calls ∨ ∃ said request, calls = said ++ [.send request] ∧ Quiet said ∧
    code = .testContinue

/-- Behind a request that is lost such a test does nothing. -/
theorem SendsLast.back {calls more : List (TestCall LintRequest)} {code : LintCode}
    {sent sent' : List SendOutcome} (sends : SendsLast calls code)
    (lost : Zlint.back calls sent = some (more, sent')) : more = [] ∧ code = .testContinue := by
  rcases sends with quiet | ⟨said, request, rfl, quiet, hcode⟩
  · have none := Zlint.back_append quiet [] sent
    rw [List.append_nil, lost] at none
    cases none
  · rw [Zlint.back_append quiet] at lost
    refine ⟨?_, hcode⟩
    simp only [Zlint.back] at lost
    split at lost <;> cases lost
    rfl

theorem Quiet.append_iff {ρ : Type} {calls more : List (TestCall ρ)} :
    Quiet (calls ++ more) ↔ Quiet calls ∧ Quiet more := by
  simp [Quiet, forall_and]

theorem SendsLast.append {said calls : List (TestCall LintRequest)} {code : LintCode}
    (sends : SendsLast calls code) (quiet : Quiet said) : SendsLast (said ++ calls) code := by
  rcases sends with quiet' | ⟨before, request, rfl, quiet', hcode⟩
  · exact .inl (Quiet.append_iff.mpr ⟨quiet, quiet'⟩)
  · exact .inr ⟨said ++ before, request, (List.append_assoc ..).symm,
      Quiet.append_iff.mpr ⟨quiet, quiet'⟩, hcode⟩

namespace SuiteTest

theorem lift_ok {τ : Type} {f : τ → SuiteTest} {a : Except SuiteFault (LintAnswer τ)}
    {t : SuiteTest} {calls : List (TestCall LintRequest)} {code : LintCode} :
    lift f a = .ok (t, calls, code) ↔ ∃ t', a = .ok (t', calls, code) ∧ f t' = t := by
  cases a with
  | error fault => simp [lift, Except.map]
  | ok said =>
    obtain ⟨t', calls', code'⟩ := said
    simp only [lift, Except.map, Except.ok.injEq, Prod.mk.injEq]
    constructor
    · rintro ⟨rfl, rfl, rfl⟩
      exact ⟨t', ⟨rfl, rfl, rfl⟩, rfl⟩
    · rintro ⟨_, ⟨rfl, rfl, rfl⟩, rfl⟩
      exact ⟨rfl, rfl, rfl⟩

/-- An answer that reopens no connection, and sends last what it sends. -/
def Stays {τ : Type} (a : Except SuiteFault (LintAnswer τ)) : Prop :=
  ∀ t calls code, a = .ok (t, calls, code) → code ≠ .testReopen ∧ SendsLast calls code

/-- An answer that is no fault, reopens no connection and sends nothing. -/
def Plain {τ : Type} (a : Except SuiteFault (LintAnswer τ)) : Prop :=
  ∃ t calls code, a = .ok (t, calls, code) ∧ code ≠ .testReopen ∧ Quiet calls

theorem Plain.stays {τ : Type} {a : Except SuiteFault (LintAnswer τ)} (plain : Plain a) :
    Stays a := by
  obtain ⟨t, calls, code, rfl, hcode, quiet⟩ := plain
  rintro t' calls' code' ⟨⟩
  exact ⟨hcode, .inl quiet⟩

theorem plain_wantInit {τ : Type} {t : τ} {f : LintInitResponse → Except SuiteFault (LintAnswer τ)}
    (plain : ∀ init, Plain (f init)) (gdu : SuiteGdu) : Plain (wantInit t f gdu) := by
  cases gdu with
  | initResponse init => exact plain init
  | _ => exact ⟨_, _, _, rfl, nofun, by simp [Quiet]⟩

theorem plain_init01 : ∀ gdu, Plain (InitTest01.recvGdu gdu) := plain_wantInit fun init => by
  dsimp only
  split <;> exact ⟨_, _, _, rfl, nofun, by simp [Quiet]⟩

theorem plain_init02 : ∀ gdu, Plain (InitTest02.recvGdu gdu) := plain_wantInit fun _ =>
  ⟨_, _, _, rfl, nofun, by simp [Quiet]⟩

theorem plain_init04 : ∀ gdu, Plain (InitTest04.recvGdu gdu) := plain_wantInit fun init => by
  refine ⟨_, _, _, rfl, nofun, ?_⟩
  cases init.referenceId <;> simp [Quiet]

theorem quiet_wrongId (which : String) (buf : Buf) (id : Option Buf) :
    Quiet (InitTest05.wrongId which buf id) := by
  cases id <;> simp [InitTest05.wrongId, Quiet]

theorem plain_init05 (no : Nat) : ∀ gdu, Plain (InitTest05.recvGdu no gdu) :=
  plain_wantInit fun init => by
    have second : Quiet (if no = 0 then [] else
        InitTest05.wrongId "second" refidBuf2 init.referenceId) := by
      split
      · simp [Quiet]
      · exact quiet_wrongId _ _ _
    generalize (if no = 0 then [] else
      InitTest05.wrongId "second" refidBuf2 init.referenceId) = wrong at second
    have rejected : Quiet (wrong ++ [.checkFail "init rejected (result false)"]) :=
      Quiet.append_iff.mpr ⟨second, by simp [Quiet]⟩
    have accepted : Quiet (wrong ++ [.checkOk]) := Quiet.append_iff.mpr ⟨second, by simp [Quiet]⟩
    dsimp only
    split
    · exact ⟨_, _, _, rfl, nofun, quiet_wrongId _ _ _⟩
    · split
      · exact ⟨_, _, _, rfl, nofun, rejected⟩
      · split
        · exact ⟨_, _, _, rfl, nofun, second⟩
        · exact ⟨_, _, _, rfl, nofun, accepted⟩

theorem plain_init06 : ∀ gdu, Plain (InitTest06.recvGdu gdu) := plain_wantInit fun init => by
  dsimp only
  split
  · exact ⟨_, _, _, rfl, nofun, by simp [Quiet]⟩
  · split <;> exact ⟨_, _, _, rfl, nofun, by simp [Quiet]⟩

theorem plain_init07 : ∀ gdu, Plain (InitTest07.recvGdu gdu) := plain_wantInit fun init => by
  split <;> exact ⟨_, _, _, rfl, nofun, by simp [Quiet]⟩

theorem init03_stays (z : SuiteEnv) (gdu : SuiteGdu) : Stays (InitTest03.recvGdu z gdu) := by
  intro t calls code h
  cases gdu with
  | initResponse init =>
    simp only [InitTest03.recvGdu, wantInit] at h
    split at h
    · cases h
      exact ⟨nofun, .inl (by simp [Quiet])⟩
    · split at h <;> cases h
      exact ⟨nofun, .inl (by simp [Quiet])⟩
  | _ =>
    cases h
    exact ⟨nofun, .inl (by simp [Quiet])⟩

/-- `init08` opens another connection as often as it counts. -/
theorem init08_answer (no : Nat) (gdu : SuiteGdu) : ∃ no' calls code,
    InitTest08.recvGdu no gdu = .ok (no', calls, code) ∧ Quiet calls ∧
      (code = .testReopen ∧ no < 2 ∧ no' = no + 1 ∨ code = .testFinished ∧ no' = no) := by
  cases gdu with
  | initResponse init =>
    simp only [InitTest08.recvGdu, wantInit]
    split
    · next more => exact ⟨_, _, _, rfl, by simp [Quiet], .inl ⟨rfl, more, rfl⟩⟩
    · exact ⟨_, _, _, rfl, by simp [Quiet], .inr ⟨rfl, rfl⟩⟩
  | _ => exact ⟨_, _, _, rfl, by simp [Quiet], .inr ⟨rfl, rfl⟩⟩

end SuiteTest

/-- A computation of two parts that succeeds. -/
theorem except_bind_ok {ε α β : Type} {x : Except ε α} {f : α → Except ε β} {b : β} :
    (x >>= f) = .ok b ↔ ∃ a, x = .ok a ∧ f a = .ok b := by
  cases x with
  | error e => simp [bind, Except.bind]
  | ok a => simp [bind, Except.bind]

namespace SearchTest

theorem sendTest_stays {z : LintEnv} {t : SearchTest} {calls : List LintCall} {code : LintCode}
    (h : t.sendTest z = .ok (calls, code)) :
    code ≠ .testReopen ∧ SendsLast (calls.map toCall) code := by
  unfold sendTest at h
  split at h
  · obtain ⟨query, -, h⟩ := except_bind_ok.mp h
    cases query with
    | none =>
      cases h
      exact ⟨nofun, .inl (by simp [Quiet, toCall])⟩
    | some query =>
      dsimp only at h
      split at h <;> cases h
      · exact ⟨nofun, .inl (by simp [Quiet, toCall])⟩
      · exact ⟨nofun, .inr ⟨[], _, rfl, by simp [Quiet], rfl⟩⟩
  · obtain ⟨recordSyntax, -, h⟩ := except_bind_ok.mp h
    cases recordSyntax with
    | some recordSyntax =>
      cases h
      exact ⟨nofun, .inr ⟨[_], _, rfl, by simp [Quiet, toCall], rfl⟩⟩
    | none =>
      obtain ⟨sort, -, h⟩ := except_bind_ok.mp h
      cases sort with
      | none =>
        cases h
        exact ⟨nofun, .inl (by simp [Quiet])⟩
      | some sort =>
        cases h
        exact ⟨nofun, .inr ⟨[_], _, rfl, by simp [Quiet, toCall], rfl⟩⟩

theorem goOn_stays {z : LintEnv} {said : List LintCall} (quiet : Quiet (said.map toCall))
    {t t' : SearchTest} {calls : List LintCall} {code : LintCode}
    (h : t.goOn z said = .ok (t', calls, code)) :
    code ≠ .testReopen ∧ SendsLast (calls.map toCall) code := by
  obtain ⟨⟨calls', code'⟩, hsend, h⟩ := except_bind_ok.mp h
  cases h
  obtain ⟨hcode, sends⟩ := sendTest_stays hsend
  rw [List.map_append]
  exact ⟨hcode, sends.append quiet⟩

theorem presentReport_quiet {z : LintEnv} {t : SearchTest} {records : Option LintRecords}
    {said : List LintCall} (h : t.presentReport z records = .ok said) :
    Quiet (said.map toCall) := by
  unfold presentReport at h
  split at h
  · obtain ⟨entry, -, h⟩ := except_bind_ok.mp h
    split at h
    · obtain ⟨same, -, h⟩ := except_bind_ok.mp h
      split at h <;> cases h <;> simp [Quiet, toCall]
    · cases h
      simp [Quiet, toCall]
    · cases h
      simp [Quiet, toCall]
  · cases h
    simp [Quiet, toCall]
  · cases h
    simp [Quiet, toCall]
  · obtain ⟨entry, -, h⟩ := except_bind_ok.mp h
    cases h
    simp [Quiet, toCall]

theorem recvGdu_stays {z : LintEnv} {gdu : LintGdu} {t t' : SearchTest} {calls : List LintCall}
    {code : LintCode} (h : t.recvGdu z gdu = .ok (t', calls, code)) :
    code ≠ .testReopen ∧ SendsLast (calls.map toCall) code := by
  have nothing : Quiet (([] : List LintCall).map toCall) := by simp [Quiet]
  cases gdu with
  | initResponse result =>
    simp only [recvGdu] at h
    split at h
    · exact goOn_stays nothing h
    · cases h
      exact ⟨by decide, .inl (by simp [Quiet, toCall])⟩
  | searchResponse records resultCount =>
    simp only [recvGdu] at h
    split at h
    · exact goOn_stays nothing h
    · cases resultCount with
      | none => exact goOn_stays nothing h
      | some count =>
        dsimp only at h
        split at h
        · exact goOn_stays nothing h
        · obtain ⟨entry, -, h⟩ := except_bind_ok.mp h
          exact goOn_stays (by simp [Quiet, toCall]) h
  | presentResponse records =>
    obtain ⟨said, hreport, h⟩ := except_bind_ok.mp h
    exact goOn_stays (presentReport_quiet hreport) h
  | sortResponse diagnostics =>
    simp only [recvGdu] at h
    split at h
    · obtain ⟨entry, -, h⟩ := except_bind_ok.mp h
      exact goOn_stays (by simp [Quiet, toCall]) h
    · exact goOn_stays (by simp [Quiet, toCall]) h
  | other =>
    cases h
    exact ⟨by decide, .inl (by simp [Quiet, toCall])⟩

theorem answer_stays {z : SuiteEnv} {gdu : SuiteGdu} (t : SearchTest) :
    SuiteTest.Stays (t.answer z gdu) := by
  intro t' calls code h
  unfold answer at h
  split at h <;> cases h
  exact recvGdu_stays ‹_›

end SearchTest

namespace ScanTest

theorem sendTest_stays {z : SuiteEnv} {scanNo : Nat} {calls : List (TestCall LintRequest)}
    {code : LintCode} (h : sendTest z scanNo = .ok (calls, code)) :
    (code ≠ .testReopen ∧ SendsLast calls code) ∧ SendsLast calls .testContinue := by
  obtain ⟨scan, -, h⟩ := except_bind_ok.mp h
  cases scan with
  | none =>
    cases h
    exact ⟨⟨nofun, .inl (by simp [Quiet])⟩, .inl (by simp [Quiet])⟩
  | some scan =>
    cases h
    have sends : SendsLast [.checkFor ("scan support " ++ scan),
        .send (.scan [z.database] (z.pqfScan scan))] .testContinue :=
      .inr ⟨[_], _, rfl, by simp [Quiet], rfl⟩
    exact ⟨⟨nofun, sends⟩, sends⟩

theorem sent_stays {z : SuiteEnv} {scanNo t : Nat} {said calls : List (TestCall LintRequest)}
    {code : LintCode} (quiet : Quiet said)
    (h : (do
      let (calls, code) ← sendTest z (scanNo + 1)
      return (scanNo + 1, said ++ calls, code)) = .ok (t, calls, code)) :
    code ≠ .testReopen ∧ SendsLast calls code := by
  obtain ⟨⟨calls', code'⟩, hsend, h⟩ := except_bind_ok.mp h
  cases h
  obtain ⟨⟨hcode, sends⟩, -⟩ := sendTest_stays hsend
  exact ⟨hcode, sends.append quiet⟩

theorem recvGdu_stays {z : SuiteEnv} {scanNo : Nat} (gdu : SuiteGdu) :
    SuiteTest.Stays (recvGdu z scanNo gdu) := by
  intro t calls code h
  cases gdu with
  | initResponse init =>
    simp only [recvGdu] at h
    split at h
    · cases h
      exact ⟨nofun, .inl (by simp [Quiet])⟩
    · split at h
      · cases h
        exact ⟨nofun, .inl (by simp [Quiet])⟩
      · obtain ⟨⟨said, code'⟩, hsend, h⟩ := except_bind_ok.mp h
        cases h
        exact ⟨nofun, (sendTest_stays hsend).2.append (by simp [Quiet])⟩
  | scanResponse entries =>
    cases entries with
    | none => cases h
    | some entries =>
      simp only [recvGdu] at h
      split at h
      · obtain ⟨scan, -, h⟩ := except_bind_ok.mp h
        exact sent_stays (by simp [Quiet]) h
      · split at h
        · exact sent_stays (by simp [Quiet]) h
        · obtain ⟨scan, -, h⟩ := except_bind_ok.mp h
          exact sent_stays (by simp [Quiet]) h
  | http => cases h
  | _ =>
    cases h
    exact ⟨nofun, .inl (by simp [Quiet])⟩

end ScanTest

namespace SuiteTest

/-- The connections that a test opens again, at most. -/
def reopensLeft : SuiteTest → Nat
  | .init08 no => 2 - no
  | _ => 0

/-- `Zlint_test_scan_01`. -/
def isScan : SuiteTest → Bool
  | .scan01 _ => true
  | _ => false

/-- What a test does with a GDU, when it comes to no fault. -/
structure Answered (t t' : SuiteTest) (calls : List (TestCall LintRequest)) (code : LintCode) :
    Prop where
  same : t'.isScan = t.isScan
  lowers : t'.reopensLeft + (if code = .testReopen then 1 else 0) ≤ t.reopensLeft
  sends : SendsLast calls code

/-- A test other than `init08` answers without a new connection, and `init08` counts its own. -/
theorem recvGdu_answered {z : SuiteEnv} {gdu : SuiteGdu} {t t' : SuiteTest}
    {calls : List (TestCall LintRequest)} {code : LintCode}
    (h : recvGdu z gdu t = .ok (t', calls, code)) : Answered t t' calls code := by
  have stays : ∀ {τ : Type} {f : τ → SuiteTest} {a : Except SuiteFault (LintAnswer τ)},
      Stays a → (∀ x, (f x).isScan = t.isScan) → (∀ x, (f x).reopensLeft = 0) →
      lift f a = .ok (t', calls, code) → Answered t t' calls code := by
    intro τ f a stays hscan hleft h
    obtain ⟨x, ha, rfl⟩ := lift_ok.mp h
    obtain ⟨hcode, sends⟩ := stays x calls code ha
    refine ⟨hscan x, ?_, sends⟩
    rw [if_neg hcode, hleft]
    exact Nat.zero_le _
  cases t with
  | init01 =>
    exact stays (f := fun _ => .init01) (plain_init01 gdu).stays (fun _ => rfl) (fun _ => rfl) h
  | init02 =>
    exact stays (f := fun _ => .init02) (plain_init02 gdu).stays (fun _ => rfl) (fun _ => rfl) h
  | init03 =>
    exact stays (f := fun _ => .init03) (init03_stays z gdu) (fun _ => rfl) (fun _ => rfl) h
  | init04 =>
    exact stays (f := fun _ => .init04) (plain_init04 gdu).stays (fun _ => rfl) (fun _ => rfl) h
  | init05 no =>
    exact stays (f := .init05) (plain_init05 no gdu).stays (fun _ => rfl) (fun _ => rfl) h
  | init06 =>
    exact stays (f := fun _ => .init06) (plain_init06 gdu).stays (fun _ => rfl) (fun _ => rfl) h
  | init07 =>
    exact stays (f := fun _ => .init07) (plain_init07 gdu).stays (fun _ => rfl) (fun _ => rfl) h
  | search01 t =>
    exact stays (f := .search01) t.answer_stays (fun _ => rfl) (fun _ => rfl) h
  | scan01 no =>
    exact stays (f := .scan01) (ScanTest.recvGdu_stays gdu) (fun _ => rfl) (fun _ => rfl) h
  | init08 no =>
    obtain ⟨no', hno, rfl⟩ := lift_ok.mp h
    obtain ⟨no'', calls', code', hno', quiet, next⟩ := init08_answer no gdu
    cases hno.symm.trans hno'
    refine ⟨rfl, ?_, .inl quiet⟩
    rcases next with ⟨rfl, more, rfl⟩ | ⟨rfl, rfl⟩
    · simp only [reopensLeft, if_true]
      omega
    · simp [reopensLeft]

/-- What every test says of a lost connection. -/
def gone : List (TestCall LintRequest) := [.checkFail "target closed connection"]

/-- A test finishes with its connection, but for `init08`, which counts. -/
theorem recvFail_eq (reason : Int) (t : SuiteTest) :
    ∃ t' code, recvFail reason t = .ok (t', gone, code) ∧ t'.isScan = t.isScan ∧
      (code = .testFinished ∧ t.reopensLeft = 0 ∧ t'.reopensLeft = 0 ∨
        code = .testReopen ∧ ∃ no, t = .init08 no ∧ t' = .init08 (no + 1) ∧ no < 2) := by
  cases t with
  | init08 no =>
    by_cases more : no < 2
    · refine ⟨.init08 (no + 1), .testReopen, ?_, rfl, .inr ⟨rfl, no, rfl, rfl, more⟩⟩
      simp only [recvFail, InitTest08.recvFail, more, if_true]
      rfl
    · have none : (SuiteTest.init08 no).reopensLeft = 0 :=
        Nat.sub_eq_zero_of_le (Nat.le_of_not_lt more)
      refine ⟨.init08 no, .testFinished, ?_, rfl, .inl ⟨rfl, none, none⟩⟩
      simp only [recvFail, InitTest08.recvFail, more, if_false]
      rfl
  | _ => exact ⟨_, .testFinished, rfl, rfl, .inl ⟨rfl, rfl, rfl⟩⟩

/-- What every test of init says when a request is not sent. -/
def unsent : List (TestCall LintRequest) := [.checkFail "unable to send init request"]

/-- Behind an init request that is lost there is the complaint, and the end of the test. -/
theorem back_sendInits (requests : List LintInitRequest) : ∀ sent : List SendOutcome,
    Zlint.back (sendInits requests sent).1 sent = none ∨
      (sendInits requests sent).2 = .testFinished ∧
        ∃ sent', Zlint.back (sendInits requests sent).1 sent = some (unsent, sent') := by
  induction requests with
  | nil => exact fun sent => .inl rfl
  | cons request requests ih =>
    intro sent
    cases houtcome : sent.headD .refused with
    | sent =>
      simp only [sendInits, houtcome, Zlint.back, TestCall.later]
      exact ih sent.tail
    | refused =>
      simp only [sendInits, houtcome, Zlint.back]
      exact .inl trivial
    | lost =>
      simp only [sendInits, houtcome, Zlint.back]
      exact .inr ⟨trivial, sent.tail, rfl⟩

theorem back_initWith (what : String) (requests : List LintInitRequest)
    (sent : List SendOutcome) :
    Zlint.back (initWith what requests sent).1 sent = none ∨
      (initWith what requests sent).2 = .testFinished ∧
        ∃ sent', Zlint.back (initWith what requests sent).1 sent = some (unsent, sent') :=
  back_sendInits requests sent

theorem back_init {z : SuiteEnv} {t t' : SuiteTest} {calls : List (TestCall LintRequest)}
    {code : LintCode} {sent : List SendOutcome} (h : init z sent t = .ok (t', calls, code)) :
    t' = t ∧ (Zlint.back calls sent = none ∨
      code = .testFinished ∧ ∃ sent', Zlint.back calls sent = some (unsent, sent')) := by
  obtain ⟨same, hsaid⟩ := Prod.mk.inj (Except.ok.inj h)
  refine ⟨same.symm, ?_⟩
  have hcalls := congrArg Prod.fst hsaid
  have hcode := congrArg Prod.snd hsaid
  dsimp only at hcalls hcode
  rw [← hcalls, ← hcode]
  cases t with
  | init07 =>
    simp only [InitTest07.init]
    split
    · exact .inl rfl
    · split <;> exact back_initWith _ _ sent
  | scan01 no => exact back_sendInits _ sent
  | _ => exact back_initWith _ _ sent

theorem lowers (z : SuiteEnv) : Zlint.Lowers (ops z) reopensLeft := by
  have fails : ∀ reason t t' calls code, recvFail reason t = .ok (t', calls, code) →
      t'.reopensLeft + (if code = .testFinished then 0 else 1) ≤ t.reopensLeft := by
    intro reason t t' calls code h
    obtain ⟨t'', code', h', -, next⟩ := recvFail_eq reason t
    cases h'.symm.trans h
    rcases next with ⟨rfl, -, none⟩ | ⟨rfl, no, rfl, rfl, more⟩
    · rw [none]
      exact Nat.zero_le _
    · simp [reopensLeft]
      omega
  intro i t t' calls code h
  cases i with
  | connectNotify sent =>
    obtain ⟨rfl, -⟩ := back_init h
    exact Nat.le_refl _
  | recvGdu gdu sent =>
    have lowered := (recvGdu_answered (z := z) h).lowers
    cases code <;> exact lowered
  | timeoutNotify sent =>
    have lowered := fails 2 t t' calls code h
    cases code <;> exact lowered
  | failNotify =>
    have lowered := fails 1 t t' calls code h
    cases code <;> exact lowered

end SuiteTest

/-! ## The order of the tests, and the connections -/

/-- **zlint opens at most twelve connections**, whatever the servers send and wherever a connection
fails: one for each test, and two more for `init08`. -/
theorem connects_bounded {z : SuiteEnv} {is : List (ZlintInput SuiteGdu)} {s : Zlint SuiteTest}
    {h : List (ZlintCall LintRequest SuiteFault)}
    (run : (zlintMain z).Run (Zlint.Started SuiteTest.all) is s h) : h.count .client ≤ 12 := by
  have bound : h.count .client + Zlint.toCome SuiteTest.reopensLeft s ≤ 12 := by
    refine run.invariant
      (fun s h => h.count .client + Zlint.toCome SuiteTest.reopensLeft s ≤ 12) ?_ ?_
    · intro s h hs
      rw [Zlint.started_eq hs, hs.history]
      decide
    · intro s h i s' o inv hstep
      have spent := Zlint.spends_perform (SuiteTest.lowers z) i s
      simp only [(Zlint.step_eq hstep).2] at spent
      rw [List.count_append]
      omega
  omega

/-- zlint where the default init request has version 2 and the options of search and present. -/
def suiteEnv : SuiteEnv where
  toLintEnv := lintEnv
  initRequest :=
    { protocolVersion := 3, options := 3, preferredMessageSize := 1048576
      maximumRecordSize := 1048576 }
  oiAPDU := true
  oiUpdate := true
  pqfScan query := some query.toUTF8.toList
  noArgument := 0

/-- A server that cannot be reached. -/
theorem connects_bounded_unreachable : ∃ s h,
    (zlintMain suiteEnv).Run (Zlint.Started SuiteTest.all) (List.replicate 12 .failNotify) s h ∧
      h.count .client = 12 ∧ h.count .client ≤ 12 := by
  have computed : ((zlintMain suiteEnv).exec (SuiteTest.all.foldl (fun z t => z.addTest t) {})
      (List.replicate 12 .failNotify)).map (fun next => next.2.count .client) = some 11 := rfl
  obtain ⟨⟨s, h⟩, hexec, hcount⟩ := Option.map_eq_some_iff.mp computed
  have run := (Machine.Run.start (m := zlintMain suiteEnv)
    (show Zlint.Started SuiteTest.all _ _ from ⟨rfl, rfl⟩)).exec hexec
  refine ⟨s, _, run, ?_, connects_bounded run⟩
  rw [List.count_append, hcount]
  rfl

end Yazpp
