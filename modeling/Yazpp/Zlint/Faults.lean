import Yazpp.Zlint.SuiteRuns

/-!
# The faults of zlint

What is undefined in a run of zlint with the tests of its `main`: what a server sends may bring
`init03`, `search01` and `scan01` to it, and a request of the last test that is lost, since
`m_cur_test` is null when this test complains. There is nothing else, at any point of any run.
-/

set_option autoImplicit false

namespace Yazpp

open Yazpp.Lib

namespace SearchTest

end SearchTest

namespace SuiteTest

/-- The members of a test that has not finished. -/
def InPlace : SuiteTest → Prop
  | .search01 t => ∃ past, t = SearchTest.behind past
  | .scan01 no => no ≤ 2
  | _ => True

/-- The scan test is the last one. -/
def ScanLast : List (ZlintT SuiteTest) → Prop
  | [] => True
  | t :: rest => (t.test.isScan = true ↔ rest = []) ∧ ScanLast rest

/-- The tests that are left have not finished, and the scan test is the last of them. -/
structure Sound (s : Zlint SuiteTest) : Prop where
  inPlace : ∀ t ∈ s.rest, t.test.InPlace
  last : ScanLast s.rest

/-- A notification leaves the tests behind the current one, or passes over the next one too, or the
current test stays. -/
inductive Left (t : ZlintT SuiteTest) (rest : List (ZlintT SuiteTest)) :
    List (ZlintT SuiteTest) → Prop
  | finished : Left t rest rest
  | passed : Left t rest rest.tail
  | stays {t' : ZlintT SuiteTest} : t'.test.InPlace → t'.test.isScan = t.test.isScan →
      Left t rest (t' :: rest)

theorem Sound.left {s s' : Zlint SuiteTest} (sound : Sound s) {t : ZlintT SuiteTest}
    {rest : List (ZlintT SuiteTest)} (hrest : s.rest = t :: rest) (left : Left t rest s'.rest) :
    Sound s' := by
  obtain ⟨inPlace, last⟩ := sound
  rw [hrest] at inPlace last
  rw [List.forall_mem_cons] at inPlace
  generalize hleft : s'.rest = rest' at left
  cases left with
  | finished => exact ⟨hleft ▸ inPlace.2, hleft ▸ last.2⟩
  | passed =>
    refine ⟨fun u hu => inPlace.2 u (List.mem_of_mem_tail (hleft ▸ hu)), ?_⟩
    rw [hleft]
    cases rest with
    | nil => trivial
    | cons u rest => exact last.2.2
  | stays fits same =>
    refine ⟨hleft ▸ List.forall_mem_cons.mpr ⟨fits, inPlace.2⟩, ?_⟩
    rw [hleft]
    exact ⟨same ▸ last.1, last.2⟩

theorem sound_started {s : Zlint SuiteTest} {h : List (ZlintCall LintRequest SuiteFault)}
    (hs : Zlint.Started all s h) : Sound s := by
  rw [Zlint.started_eq hs]
  refine ⟨fun t ht => ?_, ?_⟩
  · obtain ⟨test, htest, rfl⟩ := List.mem_map.mp ht
    simp only [all, List.mem_cons, List.not_mem_nil, or_false] at htest
    rcases htest with rfl | rfl | rfl | rfl | rfl | rfl | rfl | rfl | rfl | rfl
    case inr.inr.inr.inr.inr.inr.inr.inr.inl => exact ⟨[], rfl⟩
    case inr.inr.inr.inr.inr.inr.inr.inr.inr => exact Nat.zero_le 2
    all_goals trivial
  · simp [all, ScanLast, isScan]

end SuiteTest

/-! ## One notification -/

namespace Zlint

end Zlint

namespace SuiteTest

variable {z : SuiteEnv} {s : Zlint SuiteTest} {t : ZlintT SuiteTest}
  {rest : List (ZlintT SuiteTest)}

/-- What is printed of a connection that fails, for the current test. -/
def goneLines (k : Nat) (t : ZlintT SuiteTest) : List (ZlintCall LintRequest SuiteFault) :=
  (t.tells gone).2.map (.prints k)

/-- **A connection that fails**: the current test is finished, but for `init08`, which counts. -/
inductive Fell (s : Zlint SuiteTest) (t : ZlintT SuiteTest) (rest : List (ZlintT SuiteTest)) :
    ZlintNext SuiteTest LintRequest SuiteFault → Prop
  | finished (u : ZlintT SuiteTest) : t.test.reopensLeft = 0 →
      Fell s t rest ({ s with passed := s.passed ++ [u], rest := rest },
        goneLines s.passed.length t ++ if rest = [] then [.close] else Zlint.reconnect)
  | counted {no : Nat} (u : ZlintT SuiteTest) : t.test = .init08 no → no < 2 →
      u.test = .init08 (no + 1) → u.testReported = true →
      Fell s t rest ({ s with rest := u :: rest }, goneLines s.passed.length t ++ Zlint.reconnect)

/-- It does not depend on the members of the test. -/
theorem goneLines_with (k : Nat) (t : ZlintT SuiteTest) (test : SuiteTest) :
    goneLines k { t with test := test } = goneLines k t := by
  simp only [goneLines, gone, ZlintT.tells, ZlintT.tell]
  split <;> rfl

theorem failNotify_fell (z : SuiteEnv) (alive : s.faulted = false) (hrest : s.rest = t :: rest) :
    Fell s t rest (s.failNotify (ops z)) := by
  obtain ⟨t', code, hf, -, next⟩ := recvFail_eq 1 t.test
  have lines : (s.speaks (φ := SuiteFault) { t with test := t' } rest (Zlint.front gone [])).2 =
      goneLines s.passed.length t := goneLines_with s.passed.length t t'
  rcases next with ⟨rfl, left, -⟩ | ⟨rfl, no, hno, rfl, more⟩
  · have finishes : s.failNotify (ops z) = _ :=
      Zlint.perform_finishes (i := .failNotify) alive hrest hf (Zlint.back_nil gone)
    rw [finishes, Zlint.outcomes, lines]
    exact .finished _ left
  · have stays : s.failNotify (ops z) = _ :=
      Zlint.perform_stays (i := .failNotify) alive hrest hf (Zlint.back_nil gone) (by decide)
    rw [stays, Zlint.outcomes, lines]
    refine .counted _ hno more ?_ ?_
    · rw [Zlint.tells_test]
    · simp only [Zlint.front, gone, ZlintT.tells, ZlintT.tell]
      split <;> simp [*]

/-- What a test of init says of a request that is not sent. -/
def unsentLines (k : Nat) (t : ZlintT SuiteTest) : List (ZlintCall LintRequest SuiteFault) :=
  (t.tells unsent).2.map (.prints k)

/-- The complaint, and the end of the notification. -/
theorem complaint_ends (f : Zlint SuiteTest → ZlintNext SuiteTest LintRequest SuiteFault)
    (sent : List SendOutcome) (o : List (ZlintCall LintRequest SuiteFault))
    (alive : s.faulted = false) :
    (ZlintNext.andThen (s, o) (Zlint.makes f unsent sent)).andThen
        (Zlint.connected .testFinished) =
      match s.rest with
      | [] => ({ s with faulted := true }, o ++ [.fault .noCurTest])
      | u :: more =>
        ({ s with passed := s.passed ++ [(u.tells unsent).1], rest := more },
          o ++ unsentLines s.passed.length u ++
            if more = [] then [.close] else Zlint.reconnect) := by
  rw [ZlintNext.andThen_of_alive (x := (s, o)) alive, unsent]
  cases hrest : s.rest with
  | nil =>
    rw [Zlint.makes_complaint_nil _ _ _ hrest]
    refine (ZlintNext.andThen_of_faulted (x := ({ s with faulted := true }, _)) rfl).trans ?_
    simp only [hrest]
  | cons u more =>
    rw [Zlint.makes_complaint _ _ _ alive hrest]
    refine (ZlintNext.andThen_of_alive alive).trans ?_
    cases more <;> rfl

/-- **An init request is lost**: behind what was said, the connection fails, and the complaint is
booked on whatever test is current then. `said` is what the test has said, and `t` the test behind
it. -/
inductive Dropped (s : Zlint SuiteTest) (said : List (ZlintCall LintRequest SuiteFault))
    (t : ZlintT SuiteTest) (rest : List (ZlintT SuiteTest)) :
    ZlintNext SuiteTest LintRequest SuiteFault → Prop
  -- there is no test any more
  | faulted (s' : Zlint SuiteTest) : t.test.reopensLeft = 0 → rest = [] → s'.faulted = true →
      s'.rest = [] →
      Dropped s said t rest (s', said ++ goneLines s.passed.length t ++ [.close, .fault .noCurTest])
  -- the next test is passed over
  | passed (s' : Zlint SuiteTest) {u : ZlintT SuiteTest} {more : List (ZlintT SuiteTest)} :
      t.test.reopensLeft = 0 → rest = u :: more → s'.faulted = false → s'.rest = more →
      Dropped s said t rest (s', said ++ goneLines s.passed.length t ++ Zlint.reconnect ++
        unsentLines (s.passed.length + 1) u ++ if more = [] then [.close] else Zlint.reconnect)
  -- `init08` has counted
  | counted (s' : Zlint SuiteTest) {u : ZlintT SuiteTest} : 0 < t.test.reopensLeft →
      u.testReported = true → s'.faulted = false → s'.rest = rest →
      Dropped s said t rest (s', said ++ goneLines s.passed.length t ++ Zlint.reconnect ++
        unsentLines s.passed.length u ++ if rest = [] then [.close] else Zlint.reconnect)

theorem connectNotify_dropped {sent sent' : List SendOutcome}
    {calls : List (TestCall LintRequest)} (alive : s.faulted = false) (hrest : s.rest = t :: rest)
    (hf : init z sent t.test = .ok (t.test, calls, .testFinished))
    (lost : Zlint.back calls sent = some (unsent, sent')) :
    Dropped s (s.speaks t rest (Zlint.front calls sent)).2 (t.tells (Zlint.front calls sent)).1 rest
      (s.connectNotify (ops z) sent) := by
  have turned : s.connectNotify (ops z) sent = _ := Zlint.turn_lost alive hrest hf lost
  have fell := failNotify_fell z (s := (s.speaks (φ := SuiteFault) t rest
    (Zlint.front calls sent)).1) alive rfl
  rw [turned]
  generalize (s.speaks (φ := SuiteFault) t rest (Zlint.front calls sent)).1.failNotify (ops z) =
    failed at fell ⊢
  generalize (s.speaks (φ := SuiteFault) t rest (Zlint.front calls sent)).2 = said
  cases fell with
  | finished u left =>
    dsimp only [Zlint.speaks]
    rw [complaint_ends (s := { s with passed := s.passed ++ [u], rest := rest }) _ _ _ alive]
    cases rest with
    | nil =>
      have dropped : Dropped s said _ [] _ := .faulted
        { s with passed := s.passed ++ [u], rest := [], faulted := true } left rfl rfl rfl
      simpa using dropped
    | cons v more =>
      have dropped : Dropped s said _ (v :: more) _ := .passed
        { s with passed := s.passed ++ [u] ++ [(v.tells unsent).1], rest := more } left rfl alive
          rfl
      simpa using dropped
  | counted u hno more hu reported =>
    dsimp only [Zlint.speaks]
    rw [complaint_ends (s := { s with rest := u :: rest }) _ _ _ alive]
    have counts : 0 < (t.tells (Zlint.front calls sent)).1.test.reopensLeft := by
      rw [hno]
      exact Nat.sub_pos_of_lt more
    have dropped : Dropped s said _ rest _ := .counted
      { s with passed := s.passed ++ [(u.tells unsent).1], rest := rest } counts reported alive rfl
    simpa using dropped

/-- **A request behind an answer is lost**: the connection fails, and that is all. -/
theorem recvGdu_fell {gdu : SuiteGdu} {sent sent' : List SendOutcome} {test : SuiteTest}
    {calls : List (TestCall LintRequest)} (alive : s.faulted = false) (hrest : s.rest = t :: rest)
    (hf : recvGdu z gdu t.test = .ok (test, calls, .testContinue))
    (lost : Zlint.back calls sent = some ([], sent')) :
    let said := s.speaks (φ := SuiteFault) { t with test := test } rest (Zlint.front calls sent)
    ∃ failed, Fell said.1 (({ t with test := test } : ZlintT SuiteTest).tells
        (Zlint.front calls sent)).1 rest failed ∧
      s.recvGdu (ops z) gdu sent = (failed.1, said.2 ++ failed.2) := by
  intro said
  have turned : s.recvGdu (ops z) gdu sent =
      (ZlintNext.andThen ((said.1.failNotify (ops z)).1, said.2 ++ (said.1.failNotify (ops z)).2)
        (Zlint.makes (Zlint.failNotify (ops z)) [] sent')).andThen
          (Zlint.received .testContinue) := Zlint.turn_lost alive hrest hf lost
  have fell := failNotify_fell z (s := said.1) alive rfl
  refine ⟨_, fell, turned.trans ?_⟩
  generalize said.1.failNotify (ops z) = failed at fell ⊢
  have alive' : failed.1.faulted = false := by
    cases fell <;> exact alive
  simp [ZlintNext.andThen, alive', Zlint.makes, Zlint.received]

end SuiteTest

end Yazpp
