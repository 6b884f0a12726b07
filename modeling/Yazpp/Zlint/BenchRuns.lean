import Yazpp.Zlint.BenchAnswers

/-!
# zlint and `yaz-my-server`, over any run

What is on a connection are the answers to the first of the requests that zlint waits for, and the
others of them (`LintLink.Carries`). From this invariant (`Bench.Inv`) and what a test makes of the
next answer it is read off what zlint prints, where the two programs come to a stop, and which
request zlint cannot afford to lose.
-/

set_option autoImplicit false

namespace Yazpp

open Yazpp.Lib

/-! ## What is printed -/

/-- A verdict that is printed. -/
def ZlintCall.verdict? {ρ φ : Type} : ZlintCall ρ φ → Option (TestLine ρ)
  | .prints _ .ok => some .ok
  | .prints _ .fail => some .fail
  | .prints _ .unsupported => some .unsupported
  | _ => none

/-- The verdicts in an output. -/
def verdicts {ρ φ : Type} (o : List (ZlintCall ρ φ)) : List (TestLine ρ) :=
  o.filterMap ZlintCall.verdict?

theorem verdicts_append {ρ φ : Type} (o p : List (ZlintCall ρ φ)) :
    verdicts (o ++ p) = verdicts o ++ verdicts p := List.filterMap_append

section Tells

variable {κ ρ φ : Type} {t : ZlintT κ}

/-- What a test sends is sent. -/
theorem tells_requests (k : Nat) (calls : List (TestCall ρ)) (t : ZlintT κ) :
    ((t.tells calls).2.map (ZlintCall.prints (φ := φ) k)).filterMap ZlintCall.request? =
      calls.filterMap TestCall.request? := by
  induction calls generalizing t with
  | nil => rfl
  | cons call calls ih =>
    simp only [ZlintT.tells, List.map_append, List.filterMap_append, ih]
    cases call <;> simp only [ZlintT.tell] <;> (try split) <;> rfl

/-- Nothing of it gives up the connection. -/
theorem prints_drops (k : Nat) (lines : List (TestLine ρ)) :
    (lines.map (ZlintCall.prints (φ := φ) k)).any ZlintCall.drops = false := by
  induction lines with
  | nil => rfl
  | cons line lines ih => exact ih

/-- Behind a verdict there is no other, until the test says what it checks next. -/
theorem tells_reported (k : Nat) (calls : List (TestCall ρ)) (t : ZlintT κ)
    (reported : t.testReported = true) (same : ∀ text, .checkFor text ∉ calls) :
    verdicts ((t.tells calls).2.map (ZlintCall.prints (φ := φ) k)) = [] := by
  induction calls generalizing t with
  | nil => rfl
  | cons call calls ih =>
    have rest : ∀ text, .checkFor text ∉ calls := fun text h => same text (List.mem_cons_of_mem _ h)
    have one : (t.tell call).1.testReported = true ∧
        verdicts ((t.tell call).2.map (ZlintCall.prints (φ := φ) k)) = [] := by
      cases call with
      | checkFor text => exact absurd List.mem_cons_self (same text)
      | checkInfo | send => exact ⟨reported, rfl⟩
      | checkOk | checkFail | checkNotapp =>
        simp only [ZlintT.tell, reported, if_true]
        exact ⟨trivial, rfl⟩
    simp only [ZlintT.tells, List.map_append, verdicts_append, one.2, List.nil_append]
    exact ih _ one.1 rest

/-- **The first verdict is printed**, and no other. -/
theorem tells_verdicts (k : Nat) (calls : List (TestCall ρ)) (t : ZlintT κ)
    (unreported : t.testReported = false) (same : ∀ text, .checkFor text ∉ calls) :
    verdicts ((t.tells calls).2.map (ZlintCall.prints (φ := φ) k)) = verdictOf calls := by
  induction calls generalizing t with
  | nil => rfl
  | cons call calls ih =>
    have rest : ∀ text, .checkFor text ∉ calls := fun text h => same text (List.mem_cons_of_mem _ h)
    simp only [ZlintT.tells, List.map_append, verdicts_append]
    cases call with
    | checkFor text => exact absurd List.mem_cons_self (same text)
    | checkInfo | send => exact ih t unreported rest
    | checkOk | checkFail | checkNotapp =>
      simp only [ZlintT.tell, unreported, Bool.false_eq_true, if_false]
      rw [tells_reported k calls _ rfl rest]
      rfl

/-- What a test sends is no verdict. -/
theorem tells_sends (k : Nat) (requests : List ρ) (t : ZlintT κ) :
    (t.tells (requests.map TestCall.send)).1 = t ∧
      verdicts ((t.tells (requests.map TestCall.send)).2.map
        (ZlintCall.prints (φ := φ) k)) = [] := by
  induction requests with
  | nil => exact ⟨rfl, rfl⟩
  | cons request requests ih => exact ih

end Tells

/-- What a test says and sends when it is told of the connection is no verdict, and with it the test
has none reported, unless it says nothing. -/
theorem tells_announces (k : Nat) (t : ZlintT SuiteTest) (test : SuiteTest)
    (requests : List LintRequest)
    (begins : t.testReported = false ∨ BenchEnv.announces test ≠ []) :
    let calls := BenchEnv.announces test ++ requests.map TestCall.send
    (t.tells calls).1.testReported = false ∧ calls.filterMap TestCall.request? = requests ∧
      verdicts ((t.tells calls).2.map (ZlintCall.prints (φ := SuiteFault) k)) = [] := by
  intro calls
  have sends : (requests.map TestCall.send).filterMap TestCall.request? = requests := by
    induction requests with
    | nil => rfl
    | cons request requests ih => exact congrArg (request :: ·) ih
  have said : BenchEnv.announces test = [] ∨
      ∃ text, BenchEnv.announces test = [.checkFor text] := by
    cases test
    case scan01 => exact .inl rfl
    all_goals exact .inr ⟨_, rfl⟩
  rcases said with hsaid | ⟨text, hsaid⟩
  · obtain ⟨same, none⟩ := tells_sends (φ := SuiteFault) k requests t
    have unreported : t.testReported = false := begins.resolve_right (fun h => h hsaid)
    simp only [calls, hsaid, List.nil_append, same, none, unreported, sends, and_self]
  · obtain ⟨same, none⟩ := tells_sends (φ := SuiteFault) k requests
      (t.tell (.checkFor text : TestCall LintRequest)).1
    simp only [calls, hsaid, List.singleton_append, ZlintT.tells, same, List.map_append,
      verdicts_append, none]
    exact ⟨rfl, sends, rfl⟩

/-! ## What is on a connection -/

variable {τ : Type} {e : BenchEnv τ}

/-- The answers to the first of the requests that are waited for, and the other requests; the
session is dead if one of them could not be answered. -/
inductive LintLink.Carries (e : BenchEnv τ) (asked : List LintRequest) (l : LintLink τ) : Prop
  | serving (answered : List LintRequest) :
      MyServer.Serves l.server → asked = answered ++ l.requests →
      List.Forall₂ e.Answers answered l.responses → Carries e asked l
  | ended (answered : List LintRequest) (request : LintRequest) :
      l.server.alive = false → asked = answered ++ request :: l.requests →
      List.Forall₂ e.Answers answered l.responses → (∀ gdu, ¬ e.Answers request gdu) →
      Carries e asked l

namespace LintLink.Carries

variable {asked : List LintRequest} {l : LintLink τ}

/-- More is sent. -/
theorem send (carries : l.Carries e asked) (more : List LintRequest) :
    ({ l with requests := l.requests ++ more } : LintLink τ).Carries e (asked ++ more) := by
  cases carries with
  | serving answered serves hasked answers =>
    refine .serving answered serves ?_ answers
    rw [hasked, List.append_assoc]
  | ended answered request dead hasked answers silent =>
    refine .ended answered request dead ?_ answers silent
    rw [hasked, List.append_assoc, List.cons_append]

/-- The session takes a request. -/
theorem serve (usual : e.Usual) {server : ZServer Unit τ} {request : LintRequest}
    {requests : List LintRequest} {responses : List SuiteGdu}
    (carries : LintLink.Carries e asked ⟨server, request :: requests, responses⟩)
    (alive : server.alive = true) :
    LintLink.Carries e asked
      ⟨(e.serve request server).1, requests, responses ++ (e.serve request server).2⟩ := by
  cases carries with
  | ended _ _ dead => exact absurd (alive.symm.trans dead) (by decide)
  | serving answered serves hasked answers =>
    rcases e.serve_answers usual serves request with
      ⟨serves', gdu, hgdu, one⟩ | ⟨dead, hnone, silent⟩
    · refine .serving (answered ++ [request]) serves' ?_ ?_
      · rw [hasked, List.append_assoc]
        rfl
      · rw [hgdu]
        exact List.rel_append answers (.cons one .nil)
    · refine .ended answered request dead hasked ?_ silent
      rw [hnone, List.append_nil]
      exact answers

/-- zlint takes what is the answer to the first request that it waits for. -/
theorem deliver {server : ZServer Unit τ} {requests : List LintRequest} {gdu : SuiteGdu}
    {responses : List SuiteGdu}
    (carries : LintLink.Carries e asked ⟨server, requests, gdu :: responses⟩) :
    ∃ request asked', asked = request :: asked' ∧ e.Answers request gdu ∧
      LintLink.Carries e asked' ⟨server, requests, responses⟩ := by
  cases carries with
  | serving answered serves hasked answers =>
    cases answers with
    | @cons request _ answered' _ one answers' =>
      exact ⟨request, _, hasked, one, .serving answered' serves rfl answers'⟩
  | ended answered request dead hasked answers silent =>
    cases answers with
    | @cons request' _ answered' _ one answers' =>
      exact ⟨request', _, hasked, one, .ended answered' request dead rfl answers' silent⟩

end LintLink.Carries

/-! ## The invariant -/

namespace Bench

/-- A test, and its connection. Only the search test waits for more behind a verdict. -/
inductive Engaged (e : BenchEnv τ) (t : ZlintT SuiteTest) : Option (LintLink τ) → Prop
  | unlinked : t.test.Fresh → t.testReported = false ∨ BenchEnv.announces t.test ≠ [] →
      Engaged e t none
  | linked {l : LintLink τ} {asked : List LintRequest} :
      e.Awaits t.test asked → l.Carries e asked →
      ((∀ s, t.test ≠ .search01 s) → t.testReported = false) → Engaged e t (some l)

/-- zlint has come to no fault, and behind its current test are others that have not begun. -/
structure Inv (e : BenchEnv τ) (b : Bench τ) : Prop where
  alive : b.zlint.faulted = false
  closed : b.zlint.rest = [] → b.link = none
  current : ∀ t rest, b.zlint.rest = t :: rest → Engaged e t b.link
  later : ∀ t ∈ b.zlint.rest.tail, t.test.Fresh ∧ t.testReported = false
  last : SuiteTest.ScanLast b.zlint.rest

/-- A start. -/
theorem inv_start {b : Bench τ} {h : List (ZlintCall LintRequest SuiteFault)} (hs : Start b h) :
    Inv e b := by
  obtain ⟨z, link⟩ := b
  obtain ⟨hz, hlink⟩ := hs
  obtain rfl : link = none := hlink
  have sound := SuiteTest.sound_started hz
  obtain rfl := Zlint.started_eq hz
  have fresh : ∀ t ∈ SuiteTest.all, t.Fresh := by
    simp only [SuiteTest.all, List.forall_mem_cons]
    exact ⟨trivial, trivial, trivial, trivial, rfl, trivial, trivial, trivial, rfl, rfl,
      List.forall_mem_nil _⟩
  have begins : ∀ t ∈ SuiteTest.all.map fun test => ({ test := test } : ZlintT SuiteTest),
      t.test.Fresh ∧ t.testReported = false := by
    rintro t ht
    obtain ⟨test, htest, rfl⟩ := List.mem_map.mp ht
    exact ⟨fresh test htest, rfl⟩
  refine ⟨rfl, fun _ => rfl, fun t rest hrest => ?_, fun t ht => ?_, sound.last⟩
  · have ht := begins t ((congrArg (t ∈ ·) hrest).mpr List.mem_cons_self)
    exact .unlinked ht.1 (.inl ht.2)
  · exact begins t (List.mem_of_mem_tail ht)

section Turn

variable {b b' : Bench τ} {t : ZlintT SuiteTest} {rest : List (ZlintT SuiteTest)}

/-- The tests behind the current one have not begun. -/
theorem Inv.behind (inv : Inv e b) (hrest : b.zlint.rest = t :: rest) :
    (∀ u ∈ rest, u.test.Fresh ∧ u.testReported = false) ∧ SuiteTest.ScanLast rest := by
  obtain ⟨-, -, -, later, last⟩ := inv
  rw [hrest] at later last
  exact ⟨later, last.2⟩

/-- Tests that have not begun are still to come. -/
theorem inv_of_fresh {rest : List (ZlintT SuiteTest)}
    (later : ∀ u ∈ rest, u.test.Fresh ∧ u.testReported = false) (last : SuiteTest.ScanLast rest)
    (alive : b'.zlint.faulted = false) (hlink : b'.link = none) (hrest : b'.zlint.rest = rest) :
    Inv e b' := by
  subst hrest
  refine ⟨alive, fun _ => hlink, fun u more hmore => ?_,
    fun u hu => later u (List.mem_of_mem_tail hu), last⟩
  obtain ⟨fresh, unreported⟩ := later u (hmore ▸ List.mem_cons_self)
  rw [hlink]
  exact .unlinked fresh (.inl unreported)

/-- The current test is done. -/
theorem Inv.next (inv : Inv e b) (hrest : b.zlint.rest = t :: rest)
    (alive : b'.zlint.faulted = false) (hlink : b'.link = none) (hrest' : b'.zlint.rest = rest) :
    Inv e b' := by
  obtain ⟨later, last⟩ := inv.behind hrest
  exact inv_of_fresh later last alive hlink hrest'

/-- So is the test behind it. -/
theorem Inv.passOver (inv : Inv e b) {u : ZlintT SuiteTest} (hrest : b.zlint.rest = t :: u :: rest)
    (alive : b'.zlint.faulted = false) (hlink : b'.link = none) (hrest' : b'.zlint.rest = rest) :
    Inv e b' := by
  obtain ⟨later, last⟩ := inv.behind hrest
  exact inv_of_fresh (fun v hv => later v (List.mem_cons_of_mem _ hv)) last.2 alive hlink hrest'

/-- The current test goes on. -/
theorem Inv.goOn (inv : Inv e b) (hrest : b.zlint.rest = t :: rest) {t' : ZlintT SuiteTest}
    (same : t'.test.isScan = t.test.isScan) (alive : b'.zlint.faulted = false)
    (engaged : Engaged e t' b'.link) (hrest' : b'.zlint.rest = t' :: rest) : Inv e b' := by
  obtain ⟨later, last⟩ := inv.behind hrest
  have scanLast := inv.last
  rw [hrest] at scanLast
  refine ⟨alive, fun hnil => absurd (hrest'.symm.trans hnil) (List.cons_ne_nil _ _),
    fun u more hmore => ?_, fun u hu => ?_, ?_⟩
  · cases hrest'.symm.trans hmore
    exact engaged
  · rw [hrest'] at hu
    exact later u hu
  · rw [hrest']
    exact ⟨same ▸ scanLast.1, last⟩

end Turn

end Bench

/-- A request that the test sends when it is told of the connection is lost. -/
def BenchEnv.loses (e : BenchEnv τ) (test : SuiteTest) (fails : Option Nat) : Bool :=
  fails.any (· < (BenchEnv.asks e.lint test).length)

/-- What zlint says in a step, where a test is current and others are behind it. A test that is
passed over is blamed for the request of the one before it. -/
def BenchEnv.hears (e : BenchEnv τ) (t : ZlintT SuiteTest) (rest : List (ZlintT SuiteTest)) :
    BenchInput → List (TestLine LintRequest)
  | .connect fails =>
    if e.loses t.test fails then
      .fail :: if 0 < t.test.reopensLeft ∨ rest = [] then [] else [.fail]
    else []
  | .serve => []
  | .deliver _ => e.finds t.test
  | .lose | .timeout => if t.testReported then [] else [.fail]

namespace Bench

/-- A step keeps the invariant, unless it ends with a fault; it ends with one where the init request
of the scan test is lost; and zlint says what is known of the current test. -/
structure Kept (e : BenchEnv τ) (b : Bench τ) (i : BenchInput) (b' : Bench τ)
    (o : List (ZlintCall LintRequest SuiteFault)) : Prop where
  inv : b'.zlint.faulted = false → Inv e b'
  faults : b'.zlint.faulted = true ↔
    (∃ t rest, b.zlint.rest = t :: rest ∧ t.test.isScan = true) ∧ i = .connect (some 0)
  hears : ∀ t rest, b.zlint.rest = t :: rest → (∀ s, t.test ≠ .search01 s) →
    verdicts o = e.hears t rest i

/-- A step that is no connection. -/
theorem Kept.of_inv {b b' : Bench τ} {i : BenchInput} {o : List (ZlintCall LintRequest SuiteFault)}
    (inv : Inv e b') (other : i ≠ .connect (some 0))
    (hears : ∀ t rest, b.zlint.rest = t :: rest → (∀ s, t.test ≠ .search01 s) →
      verdicts o = e.hears t rest i) : Kept e b i b' o where
  inv _ := inv
  faults := iff_of_false (Bool.eq_false_iff.mp inv.alive) fun h => other h.2
  hears := hears

/-- zlint gives up the connection in a step. -/
theorem follow_drops (l : LintLink τ) (next : ZlintNext SuiteTest LintRequest SuiteFault)
    (drops : next.2.any ZlintCall.drops = true) : follow l next = (⟨next.1, none⟩, next.2) := by
  unfold follow
  rw [drops]
  rfl

theorem outcomesOf_sent {k : Nat} (two : k ≤ 2) {fails : Option Nat}
    (fits : ∀ n, fails = some n → k ≤ n) :
    ∃ more, outcomesOf fails = List.replicate k .sent ++ more := by
  cases fails with
  | none => exact ⟨List.replicate (2 - k) .sent, by
      rw [← List.replicate_add, Nat.add_sub_cancel' two]
      rfl⟩
  | some n => exact ⟨List.replicate (n - k) .sent ++ [.lost], by
      rw [← List.append_assoc, ← List.replicate_add, Nat.add_sub_cancel' (fits n rfl)]
      rfl⟩

/-- A connection is there, and the requests of the test are sent. -/
theorem kept_connect (usual : e.Usual) {b b' : Bench τ} {fails : Option Nat}
    {o : List (ZlintCall LintRequest SuiteFault)} (inv : Inv e b) {t : ZlintT SuiteTest}
    {rest : List (ZlintT SuiteTest)} (hrest : b.zlint.rest = t :: rest)
    (sent : e.loses t.test fails = false)
    (hstep : b.perform e (.connect fails) = some (b', o)) : Kept e b (.connect fails) b' o := by
  obtain ⟨z, link⟩ := b
  cases link with
  | some l => cases hstep
  | none =>
    obtain hrest : z.rest = t :: rest := hrest
    have fits : ∀ n, fails = some n → (BenchEnv.asks e.lint t.test).length ≤ n := by
      rintro n rfl
      simpa [BenchEnv.loses] using sent
    obtain ⟨some, two⟩ := BenchEnv.asks_length e.lint t.test
    obtain ⟨more, houtcomes⟩ := outcomesOf_sent two fits
    obtain ⟨fresh, begins⟩ : t.test.Fresh ∧
        (t.testReported = false ∨ BenchEnv.announces t.test ≠ []) := by
      cases inv.current t rest hrest with
      | unlinked fresh begins => exact ⟨fresh, begins⟩
    obtain ⟨unreported, sends, none⟩ := tells_announces z.passed.length t t.test
      ((BenchEnv.asks e.lint t.test).map .init) begins
    rw [List.map_map] at unreported sends none
    have hinit : SuiteTest.init e.lint (outcomesOf fails) t.test = .ok (t.test,
        BenchEnv.announces t.test ++
          (BenchEnv.asks e.lint t.test).map (TestCall.send ∘ LintRequest.init),
        .testContinue) := by
      rw [BenchEnv.init_eq usual, houtcomes, BenchEnv.sendInits_sent]
      rfl
    have hlength := congrArg List.length sends
    rw [List.length_map] at hlength
    obtain ⟨hfront, hback⟩ := Zlint.front_of_sent _ (hlength ▸ houtcomes)
    have hnext : z.connectNotify (SuiteTest.ops e.lint) (outcomesOf fails) = _ :=
      Zlint.perform_stays (i := .connectNotify (outcomesOf fails)) inv.alive hrest
        hinit hback (by decide)
    simp only [perform, hrest, follow, hnext, Zlint.reopens, Zlint.outcomes, Zlint.speaks, hfront,
      Bool.false_eq_true, if_false, List.append_nil, prints_drops, tells_requests] at hstep
    cases hstep
    have same := Zlint.tells_test (BenchEnv.announces t.test ++
      (BenchEnv.asks e.lint t.test).map (TestCall.send ∘ LintRequest.init)) t
    have awaits : e.Awaits t.test ((BenchEnv.asks e.lint t.test).map .init) := .first fresh
    refine ⟨fun _ => ?_, ?_, fun u rest' hmore _ => ?_⟩
    · refine inv.goOn hrest (congrArg SuiteTest.isScan same) inv.alive ?_ rfl
      exact .linked ((congrArg (e.Awaits · _) same).mpr awaits)
        (.serving [] ⟨rfl, _, rfl⟩ sends.symm .nil) fun _ => unreported
    · refine iff_of_false (Bool.eq_false_iff.mp inv.alive) ?_
      rintro ⟨-, hi⟩
      cases hi
      exact absurd (fits 0 rfl) (Nat.not_le_of_lt some)
    · cases hrest.symm.trans hmore
      simp only [BenchEnv.hears, sent, Bool.false_eq_true, if_false]
      exact none

/-- What is printed of a complaint. -/
theorem verdicts_complaint (k : Nat) (t : ZlintT SuiteTest) (text : String) :
    verdicts ((t.tells [(.checkFail text : TestCall LintRequest)]).2.map
      (ZlintCall.prints (φ := SuiteFault) k)) = if t.testReported then [] else [.fail] := by
  cases hreported : t.testReported <;> simp [ZlintT.tells, ZlintT.tell, hreported] <;> rfl

/-- What follows a test gives up the connection, and is no verdict. -/
theorem drops_ending (rest : List (ZlintT SuiteTest)) :
    (if rest = [] then [.close] else Zlint.reconnect :
        List (ZlintCall LintRequest SuiteFault)).any ZlintCall.drops = true ∧
      verdicts (if rest = [] then [.close] else Zlint.reconnect :
        List (ZlintCall LintRequest SuiteFault)) = [] := by
  split <;> exact ⟨rfl, rfl⟩

/-- A connection is there, and a request of the test is lost. -/
theorem kept_connect_lost (usual : e.Usual) {b b' : Bench τ} {fails : Option Nat}
    {o : List (ZlintCall LintRequest SuiteFault)} (inv : Inv e b) {t : ZlintT SuiteTest}
    {rest : List (ZlintT SuiteTest)} (hrest : b.zlint.rest = t :: rest)
    (lost : e.loses t.test fails = true)
    (hstep : b.perform e (.connect fails) = some (b', o)) : Kept e b (.connect fails) b' o := by
  obtain ⟨z, link⟩ := b
  cases link with
  | some l => cases hstep
  | none =>
    obtain hrest : z.rest = t :: rest := hrest
    obtain ⟨n, rfl, hn⟩ : ∃ n, fails = some n ∧ n < (BenchEnv.asks e.lint t.test).length := by
      simpa [BenchEnv.loses, Option.any_eq_true] using lost
    have begins : t.testReported = false ∨ BenchEnv.announces t.test ≠ [] := by
      cases inv.current t rest hrest with
      | unlinked fresh begins => exact begins
    obtain ⟨unreported, -, none⟩ := tells_announces z.passed.length t t.test
      (((BenchEnv.asks e.lint t.test).take n).map .init) begins
    rw [List.map_map] at unreported none
    obtain ⟨hcode, hback, hfront⟩ := BenchEnv.sendInits_lost hn
    have split := Zlint.split_append (BenchEnv.quiet_announces t.test)
      (sendInits (BenchEnv.asks e.lint t.test) (outcomesOf (some n))).1 (outcomesOf (some n))
    have hinit := BenchEnv.init_eq usual (outcomesOf (some n)) t.test
    have dropped := SuiteTest.connectNotify_dropped (z := e.lint) inv.alive hrest
      (hinit.trans (congrArg _ (congrArg _ (congrArg _ hcode)))) (split.1.trans hback)
    have said : Zlint.front (BenchEnv.announces t.test ++
        (sendInits (BenchEnv.asks e.lint t.test) (outcomesOf (some n))).1) (outcomesOf (some n)) =
        BenchEnv.announces t.test ++ ((BenchEnv.asks e.lint t.test).take n).map
          (TestCall.send ∘ LintRequest.init) := split.2.trans (congrArg _ hfront)
    rw [said] at dropped
    simp only [perform, hrest] at hstep
    generalize z.connectNotify (SuiteTest.ops e.lint) (outcomesOf (some n)) = next at dropped hstep
    have drops : next.2.any ZlintCall.drops = true := by
      cases dropped <;> simp [Zlint.reconnect, ZlintCall.drops]
    rw [follow_drops _ _ drops] at hstep
    cases hstep
    have gone : verdicts (SuiteTest.goneLines z.passed.length (t.tells (BenchEnv.announces t.test ++
        ((BenchEnv.asks e.lint t.test).take n).map (TestCall.send ∘ LintRequest.init))).1) =
        [.fail] := by
      refine (verdicts_complaint _ _ _).trans ?_
      rw [unreported]
      rfl
    have scanLast := inv.last
    obtain ⟨later, -⟩ := inv.behind hrest
    rw [hrest] at scanLast
    replace none : verdicts (z.speaks (φ := SuiteFault) t rest (BenchEnv.announces t.test ++
      ((BenchEnv.asks e.lint t.test).take n).map (TestCall.send ∘ LintRequest.init))).2 = [] := none
    cases dropped with
    | faulted s' left hnil faulted hrest' =>
      have scan := scanLast.1.mpr hnil
      refine ⟨fun alive => absurd (alive.symm.trans faulted) (by decide),
        iff_of_true faulted ⟨⟨t, rest, hrest, scan⟩, ?_⟩, fun u rest' hmore _ => ?_⟩
      · have one : (BenchEnv.asks e.lint t.test).length = 1 := by
          cases htest : t.test <;> rw [htest] at scan
          case scan01 => rfl
          all_goals cases scan
        rw [one] at hn
        rw [Nat.lt_one_iff.mp hn]
      · cases hrest.symm.trans hmore
        subst hnil
        simp only [verdicts_append, none, gone, BenchEnv.hears, lost, if_true, or_true]
        rfl
    | @passed s' u more left hmore goesOn hrest' =>
      subst hmore
      rw [Zlint.tells_test] at left
      refine ⟨fun _ => inv.passOver hrest goesOn rfl hrest',
        iff_of_false (Bool.eq_false_iff.mp goesOn) ?_, fun v rest' hmore _ => ?_⟩
      · rintro ⟨⟨v, rest', hv, scan⟩, -⟩
        cases hrest.symm.trans hv
        exact nomatch scanLast.1.mp scan
      · cases hrest.symm.trans hmore
        have blamed : verdicts (SuiteTest.unsentLines (z.passed.length + 1) u) = [.fail] := by
          refine (verdicts_complaint _ _ _).trans ?_
          rw [(later u List.mem_cons_self).2]
          rfl
        simp only [verdicts_append, none, gone, blamed, (drops_ending more).2, BenchEnv.hears, lost,
          if_true, left, Nat.lt_irrefl, reduceCtorEq, or_self, if_false]
        rfl
    | @counted s' u counts reported goesOn hrest' =>
      rw [Zlint.tells_test] at counts
      refine ⟨fun _ => inv.next hrest goesOn rfl hrest',
        iff_of_false (Bool.eq_false_iff.mp goesOn) ?_, fun v rest' hmore _ => ?_⟩
      · rintro ⟨⟨v, rest', hv, scan⟩, -⟩
        cases hrest.symm.trans hv
        cases htest : t.test <;> rw [htest] at scan counts
        case scan01 => exact absurd counts (Nat.lt_irrefl 0)
        all_goals cases scan
      · cases hrest.symm.trans hmore
        have silent : verdicts (SuiteTest.unsentLines z.passed.length u) = [] := by
          refine (verdicts_complaint _ _ _).trans ?_
          rw [reported]
          rfl
        simp only [verdicts_append, none, gone, silent, (drops_ending rest).2, BenchEnv.hears, lost,
          if_true, counts, true_or]
        rfl

/-- The session takes a request. -/
theorem kept_serve (usual : e.Usual) {b b' : Bench τ}
    {o : List (ZlintCall LintRequest SuiteFault)} (inv : Inv e b)
    (hstep : b.perform e .serve = some (b', o)) : Kept e b .serve b' o := by
  obtain ⟨z, link⟩ := b
  cases link with
  | none => cases hstep
  | some l =>
    obtain ⟨server, requests, responses⟩ := l
    cases requests with
    | nil => cases hstep
    | cons request requests =>
      simp only [perform] at hstep
      split at hstep
      · next alive =>
        cases hstep
        refine .of_inv ⟨inv.alive, fun hnil => ?_, fun t rest hrest => ?_, inv.later, inv.last⟩
          nofun fun _ _ _ _ => rfl
        · cases inv.closed hnil
        · cases inv.current t rest hrest with
          | linked awaits carries unreported =>
            exact .linked awaits (carries.serve usual alive) unreported
      · cases hstep

/-- What is said in front of a request that is sent last is all that is said, if it is not lost. -/
theorem front_of_plain {calls : List (TestCall LintRequest)} {code : LintCode} {fails : Option Nat}
    (sends : SendsLast calls code) (plain : Zlint.back calls (outcomesOf fails) = none) :
    Zlint.front calls (outcomesOf fails) = calls := by
  rcases sends with quiet | ⟨said, request, rfl, quiet, -⟩
  · have split := (Zlint.split_append quiet [] (outcomesOf fails)).2
    rwa [List.append_nil, Zlint.front, List.append_nil] at split
  · obtain ⟨hback, hfront⟩ := Zlint.split_append quiet [.send request] (outcomesOf fails)
    rw [hfront]
    rw [hback] at plain
    rcases fails with _ | _ | n
    · rfl
    · cases plain
    · rfl

/-- The search test remains one, and so does any other. -/
theorem search_recvGdu {z : SuiteEnv} {gdu : SuiteGdu} {t t' : SuiteTest}
    {calls : List (TestCall LintRequest)} {code : LintCode}
    (h : SuiteTest.recvGdu z gdu t = .ok (t', calls, code)) :
    (∃ s, t = .search01 s) ↔ ∃ s, t' = .search01 s := by
  cases t with
  | search01 s =>
    obtain ⟨s', -, rfl⟩ := SuiteTest.lift_ok.mp h
    exact iff_of_true ⟨_, rfl⟩ ⟨_, rfl⟩
  | _ =>
    simp only [SuiteTest.recvGdu] at h
    obtain ⟨_, -, rfl⟩ := SuiteTest.lift_ok.mp h
    exact iff_of_false (by rintro ⟨_, ⟨⟩⟩) (by rintro ⟨_, ⟨⟩⟩)

/-- zlint takes an answer. -/
theorem kept_deliver (usual : e.Usual) {b b' : Bench τ} {fails : Option Nat}
    {o : List (ZlintCall LintRequest SuiteFault)} (inv : Inv e b)
    (hstep : b.perform e (.deliver fails) = some (b', o)) : Kept e b (.deliver fails) b' o := by
  obtain ⟨z, link⟩ := b
  have noConnect : BenchInput.deliver fails ≠ .connect (some 0) := by
    rintro ⟨⟩
  cases link with
  | none => cases hstep
  | some l =>
    obtain ⟨server, requests, responses⟩ := l
    cases responses with
    | nil => cases hstep
    | cons gdu responses =>
      cases hrest : z.rest with
      | nil => cases inv.closed hrest
      | cons t rest =>
        cases inv.current t rest hrest with
        | linked awaits carries unreported =>
          obtain ⟨request, asked, rfl, answers, left⟩ := carries.deliver
          obtain ⟨test, calls, code, found⟩ := BenchEnv.finds_awaited usual awaits answers
          have answered := SuiteTest.recvGdu_answered found.answer
          have search := search_recvGdu found.answer
          simp only [perform] at hstep
          cases plain : Zlint.back calls (outcomesOf fails) with
          | none =>
            have said := front_of_plain answered.sends plain
            -- what is printed, but for the end of the step, which prints nothing
            have hears : (∀ s, t.test ≠ .search01 s) →
                verdicts (z.speaks (φ := SuiteFault) { t with test := test } rest calls).2 =
                  e.finds t.test := by
              intro other
              obtain ⟨hverdict, same⟩ := found.verdict other
              exact (tells_verdicts (φ := SuiteFault) z.passed.length calls { t with test := test }
                (unreported other) same).trans hverdict
            have goes := found.goes
            cases goes with
            | waits awaits' quiet =>
              have hnext : z.recvGdu (SuiteTest.ops e.lint) gdu (outcomesOf fails) = _ :=
                Zlint.perform_stays (i := .recvGdu gdu (outcomesOf fails)) inv.alive hrest
                  found.answer plain (by decide)
              have stays : Zlint.reopens (.recvGdu gdu (outcomesOf fails)) .testContinue = false :=
                rfl
              simp only [follow, hnext, stays, Zlint.outcomes, said, Bool.false_eq_true, if_false,
                List.append_nil, Zlint.speaks, prints_drops, tells_requests] at hstep
              cases hstep
              refine .of_inv (inv.goOn hrest ?_ inv.alive (.linked ?_ (left.send _) fun other => ?_)
                rfl) noConnect fun u more hmore other => ?_
              · rw [Zlint.tells_test]
                exact answered.same
              · rw [Zlint.tells_test]
                exact awaits'
              · rw [Zlint.tells_test] at other
                rw [quiet other]
                exact unreported fun s hs =>
                  (search.mp ⟨s, hs⟩).elim fun s' hs' => other s' hs'
              · cases hrest.symm.trans hmore
                exact hears other
            | reopens htest =>
              have hnext : z.recvGdu (SuiteTest.ops e.lint) gdu (outcomesOf fails) = _ :=
                Zlint.perform_stays (i := .recvGdu gdu (outcomesOf fails)) inv.alive hrest
                  found.answer plain (by decide)
              rw [hnext, follow_drops] at hstep
              · simp only [Zlint.outcomes, said] at hstep
                cases hstep
                refine .of_inv (inv.goOn hrest ?_ inv.alive (.unlinked ?_ (.inr ?_)) rfl) noConnect
                  fun u more hmore other => ?_
                · rw [Zlint.tells_test]
                  exact answered.same
                · rw [Zlint.tells_test, htest]
                  trivial
                · rw [Zlint.tells_test, htest]
                  exact List.cons_ne_nil _ _
                · cases hrest.symm.trans hmore
                  exact (verdicts_append _ _).trans ((List.append_nil _).trans (hears other))
              · simp [Zlint.reopens, Zlint.reconnect, ZlintCall.drops]
            | finished =>
              have hnext : z.recvGdu (SuiteTest.ops e.lint) gdu (outcomesOf fails) = _ :=
                Zlint.perform_finishes (i := .recvGdu gdu (outcomesOf fails)) inv.alive hrest
                  found.answer plain
              have drops := drops_ending rest
              rw [hnext, follow_drops] at hstep
              · simp only [Zlint.outcomes, said] at hstep
                cases hstep
                refine .of_inv (inv.next hrest inv.alive rfl rfl) noConnect
                  fun u more hmore other => ?_
                cases hrest.symm.trans hmore
                rw [verdicts_append, drops.2, List.append_nil]
                exact hears other
              · rw [List.any_append, drops.1, Bool.or_true]
          | some behind =>
            obtain ⟨more, sent⟩ := behind
            obtain ⟨rfl, rfl⟩ := answered.sends.back plain
            obtain ⟨failed, fell, hfailed⟩ :=
              SuiteTest.recvGdu_fell inv.alive hrest found.answer plain
            rw [hfailed] at hstep
            -- only the search test has sent something
            have searching : ∃ s, test = .search01 s := by
              refine Classical.not_not.mp fun none => ?_
              cases found.goes with
              | waits _ quiet =>
                rw [quiet fun s hs => none ⟨s, hs⟩] at plain
                cases plain
            cases fell with
            | counted u hno =>
              obtain ⟨s, rfl⟩ := searching
              rw [Zlint.tells_test] at hno
              cases hno
            | finished u =>
              rw [follow_drops] at hstep
              · cases hstep
                refine .of_inv (inv.next hrest inv.alive rfl rfl) noConnect
                  fun u more hmore other => ?_
                cases hrest.symm.trans hmore
                obtain ⟨s, hs⟩ := search.mpr searching
                exact absurd hs (other s)
              · rw [List.any_append, List.any_append, (drops_ending rest).1, Bool.or_true,
                  Bool.or_true]

/-- The connection is gone, or zlint has waited for too long. -/
theorem kept_lost {z : Zlint SuiteTest} {link : Option (LintLink τ)} (inv : Inv e ⟨z, link⟩)
    {i : BenchInput} (told : ZlintInput SuiteGdu) (reason : Int)
    (fails : Zlint.answer (SuiteTest.ops e.lint) told = SuiteTest.recvFail reason)
    (again : Zlint.reopens told .testReopen = true) (alone : Zlint.outcomes told = [])
    (other : i ≠ .connect (some 0))
    (hears : ∀ t rest, e.hears t rest i = if t.testReported then [] else [.fail]) :
    Kept e ⟨z, link⟩ i ⟨(z.perform (SuiteTest.ops e.lint) told).1, none⟩
      (z.perform (SuiteTest.ops e.lint) told).2 := by
  cases hrest : z.rest with
  | nil =>
    rw [Zlint.perform_eq, Zlint.turn_idle hrest]
    refine .of_inv ⟨inv.alive, fun _ => rfl, fun t rest hmore => ?_, inv.later, inv.last⟩ other
      fun t rest hmore => ?_
    · cases hrest.symm.trans hmore
    · cases hrest.symm.trans hmore
  | cons t rest =>
    obtain ⟨test, code, hf, same, next⟩ := SuiteTest.recvFail_eq reason t.test
    have hanswer : Zlint.answer (SuiteTest.ops e.lint) told t.test =
        .ok (test, SuiteTest.gone, code) := (congrFun fails t.test).trans hf
    have plain : Zlint.back SuiteTest.gone (Zlint.outcomes told) = none :=
      alone ▸ Zlint.back_nil SuiteTest.gone
    have said : Zlint.front SuiteTest.gone (Zlint.outcomes told) = SuiteTest.gone := by
      rw [alone]
      rfl
    have fail : verdicts (z.speaks (φ := SuiteFault) { t with test := test } rest
        SuiteTest.gone).2 = if t.testReported then [] else [.fail] :=
      verdicts_complaint z.passed.length { t with test := test } _
    rcases next with ⟨rfl, -, -⟩ | ⟨rfl, no, -, rfl, -⟩
    · rw [Zlint.perform_finishes inv.alive hrest hanswer plain, said]
      refine .of_inv (inv.next hrest inv.alive rfl rfl) other fun u more hmore _ => ?_
      cases hrest.symm.trans hmore
      rw [hears, verdicts_append, fail, (drops_ending rest).2, List.append_nil]
    · rw [Zlint.perform_stays inv.alive hrest hanswer plain (by decide), said, again]
      refine .of_inv (inv.goOn hrest ?_ inv.alive (.unlinked ?_ (.inr ?_)) rfl) other
        fun u more hmore _ => ?_
      · rw [Zlint.tells_test]
        exact same
      · rw [Zlint.tells_test]
        trivial
      · rw [Zlint.tells_test]
        exact List.cons_ne_nil _ _
      · cases hrest.symm.trans hmore
        rw [hears]
        exact (verdicts_append _ _).trans ((List.append_nil _).trans fail)

theorem step_eq {b b' : Bench τ} {i : BenchInput} {o : List (ZlintCall LintRequest SuiteFault)}
    (hstep : (bench e).step b i = some (b', o)) :
    b.zlint.faulted = false ∧ b.perform e i = some (b', o) := by
  cases hfaulted : b.zlint.faulted with
  | true => cases (if_pos hfaulted).symm.trans hstep
  | false => exact ⟨rfl, (if_neg (Bool.eq_false_iff.mp hfaulted)).symm.trans hstep⟩

/-- **A step.** -/
theorem kept_step (usual : e.Usual) {b b' : Bench τ} {i : BenchInput}
    {o : List (ZlintCall LintRequest SuiteFault)} (inv : Inv e b)
    (hstep : (bench e).step b i = some (b', o)) : Kept e b i b' o := by
  have hperform := (step_eq hstep).2
  cases i with
  | connect fails =>
    cases hrest : b.zlint.rest with
    | nil => cases hlink : b.link <;> simp [perform, hrest, hlink] at hperform
    | cons t rest =>
      cases lost : e.loses t.test fails with
      | false => exact kept_connect usual inv hrest lost hperform
      | true => exact kept_connect_lost usual inv hrest lost hperform
  | serve => exact kept_serve usual inv hperform
  | deliver => exact kept_deliver usual inv hperform
  | lose =>
    cases hperform
    exact kept_lost inv .failNotify 1 rfl rfl rfl nofun fun _ _ => rfl
  | timeout =>
    cases hperform
    exact kept_lost inv (.timeoutNotify []) 2 rfl rfl rfl nofun fun _ _ => rfl

end Bench

/-- What is not answered is the sort request. -/
theorem BenchEnv.Awaits.unanswered {t : SuiteTest} {asked : List LintRequest}
    (awaits : e.Awaits t asked) {request : LintRequest} (hmem : request ∈ asked)
    (silent : ∀ gdu, ¬ e.Answers request gdu) :
    ∃ s, t = .search01 s ∧ s.gotResultSet = true ∧
      s.recordSyntaxNo = LintTable.trySyntax.entries.length := by
  cases awaits with
  | first =>
    obtain ⟨init, -, rfl⟩ := List.mem_map.mp hmem
    exact absurd .init (silent _)
  | second =>
    cases List.mem_singleton.mp hmem
    exact absurd .init (silent _)
  | searching =>
    cases List.mem_singleton.mp hmem
    exact absurd .search (silent (.searchResponse none (some 0)))
  | presenting =>
    cases List.mem_singleton.mp hmem
    exact absurd (.present trivial) (silent (.presentResponse none))
  | sorting hgot hrecord _ => exact ⟨_, rfl, hgot, hrecord⟩

/-- A test always waits for something. -/
theorem BenchEnv.Awaits.ne_nil {t : SuiteTest} {asked : List LintRequest}
    (awaits : e.Awaits t asked) : asked ≠ [] := by
  cases awaits with
  | first =>
    have asks : BenchEnv.asks e.lint t ≠ [] := by
      cases t <;> simp only [BenchEnv.asks] <;> (try split) <;> exact List.cons_ne_nil _ _
    exact fun hnil => asks (List.map_eq_nil_iff.mp hnil)
  | second | searching | presenting | sorting => exact List.cons_ne_nil _ _

/-- The session has ended behind the sort request of the search test. -/
def Bench.Stopped (b : Bench τ) (t : SuiteTest) : Prop :=
  (∃ l, b.link = some l ∧ l.server.alive = false ∧ l.responses = []) ∧
    ∃ s, t = .search01 s ∧ s.gotResultSet = true ∧
      s.recordSyntaxNo = LintTable.trySyntax.entries.length

/-- While there are tests something can happen without a loss, but behind the sort request. -/
theorem Bench.Inv.progress {b : Bench τ} {t : ZlintT SuiteTest} {rest : List (ZlintT SuiteTest)}
    (inv : b.Inv e) (hrest : b.zlint.rest = t :: rest) :
    (∃ i, (i = .connect none ∨ i = .serve ∨ i = .deliver none) ∧
        ((bench e).step b i).isSome = true) ∨ b.Stopped t.test := by
  have step : ∀ i, (bench e).step b i = b.perform e i := fun _ =>
    if_neg (Bool.eq_false_iff.mp inv.alive)
  simp only [step]
  clear step
  have engaged := inv.current t rest hrest
  clear inv
  obtain ⟨z, link⟩ := b
  obtain hrest : z.rest = t :: rest := hrest
  cases engaged with
  | unlinked =>
    refine .inl ⟨.connect none, .inl rfl, ?_⟩
    simp only [Bench.perform, hrest]
    rfl
  | @linked l asked awaits carries =>
    obtain ⟨server, requests, responses⟩ := l
    cases responses with
    | cons gdu responses =>
      refine .inl ⟨.deliver none, .inr (.inr rfl), ?_⟩
      rfl
    | nil =>
      cases carries with
      | serving answered serves hasked answers =>
        cases answers
        cases requests with
        | nil => exact absurd hasked awaits.ne_nil
        | cons request requests =>
          refine .inl ⟨.serve, .inr (.inl rfl), ?_⟩
          have alive : server.alive = true := serves.alive
          simp only [Bench.perform, alive]
          rfl
      | ended answered request dead hasked answers silent =>
        have hmem : request ∈ asked := hasked ▸ List.mem_append_right _ List.mem_cons_self
        exact .inr ⟨⟨_, rfl, dead, rfl⟩, awaits.unanswered hmem silent⟩

/-- **What zlint finds out about `yaz-my-server`**, at any point of any run: it comes to a fault
just where the init request of the scan test is lost; while tests are left something can happen
without a loss, but behind the sort request of the search test; and its verdict on any other test is
the one of `BenchEnv.hears`. -/
theorem zlint_on_myServer (usual : e.Usual) {is : List BenchInput} {b : Bench τ}
    {h : List (ZlintCall LintRequest SuiteFault)} (run : (bench e).Run Bench.Start is b h) :
    (∀ i b' o, (bench e).step b i = some (b', o) → (b'.zlint.faulted = true ↔
      (∃ t rest, b.zlint.rest = t :: rest ∧ t.test.isScan = true) ∧ i = .connect (some 0))) ∧
    ∀ t rest, b.zlint.faulted = false → b.zlint.rest = t :: rest →
      ((∃ i, (i = .connect none ∨ i = .serve ∨ i = .deliver none) ∧
          ((bench e).step b i).isSome = true) ∨ b.Stopped t.test) ∧
        ∀ i b' o, (bench e).step b i = some (b', o) → (∀ s, t.test ≠ .search01 s) →
          verdicts o = e.hears t rest i := by
  have inv : b.zlint.faulted = false → b.Inv e := by
    refine run.invariant (fun b _ => b.zlint.faulted = false → b.Inv e)
      (fun _ _ hs _ => Bench.inv_start hs) fun b h i b' o inv hstep => ?_
    exact (Bench.kept_step usual (inv (Bench.step_eq hstep).1) hstep).inv
  refine ⟨fun i b' o hstep => ?_, fun t rest alive hrest => ⟨(inv alive).progress hrest, ?_⟩⟩
  · exact (Bench.kept_step usual (inv (Bench.step_eq hstep).1) hstep).faults
  · intro i b' o hstep other
    exact (Bench.kept_step usual (inv alive) hstep).hears t rest hrest other

/-- The two programs where YAZ proposes 30 kilobytes. -/
def benchEnv : BenchEnv Buf where
  lint := suiteEnv
  my :=
    { sizeof := .lp64
      generalTerm := some
      marcRecords := []
      external := fun length => length }
  zget := .sized 30720 30720
  odr := berOdr
  unset := .unset
  odrEncode := 1
  odrDecode := 2
  searchRequest :=
    { resultSetName := "default".toUTF8.toList
      smallSetUpperBound := 0
      largeSetLowerBound := 1
      mediumSetPresentNumber := 0
      smallSetElementSetNames := none
      mediumSetElementSetNames := none
      preferredRecordSyntax := none
      query := [] }
  presentRequest :=
    { resultSetId := "default".toUTF8.toList
      resultSetStartPoint := 1
      numberOfRecordsRequested := 10
      recordComposition := none
      preferredRecordSyntax := none }
  usmarc := [1, 2, 840, 10003, 5, 10]

theorem benchEnv_usual : benchEnv.Usual := ⟨rfl, rfl, rfl, rfl, rfl, by decide⟩

/-- An answer at once to every request of the tests before `init08`; that one complains of the first
answer it gets. -/
theorem zlint_on_myServer_init08 : ∃ b h b' o,
    (bench benchEnv).Run Bench.Start
      ((List.replicate 4 [.connect none, .serve, .deliver none]).flatten ++
        [.connect none, .serve, .serve, .deliver none, .deliver none] ++
        (List.replicate 2 [.connect none, .serve, .deliver none]).flatten ++
        [.connect none, .serve]) b h ∧
      (bench benchEnv).step b (.deliver none) = some (b', o) ∧ verdicts o = [.fail] := by
  have computed : ∃ next, (bench benchEnv).exec
      ⟨SuiteTest.all.foldl (fun z t => z.addTest t) {}, none⟩
      ((List.replicate 4 [.connect none, .serve, .deliver none]).flatten ++
        [.connect none, .serve, .serve, .deliver none, .deliver none] ++
        (List.replicate 2 [.connect none, .serve, .deliver none]).flatten ++
        [.connect none, .serve]) = some next ∧
      (next.1.zlint.rest.head?.map fun t => t.test) = some (.init08 0) ∧
      next.1.zlint.faulted = false ∧
      ((bench benchEnv).step next.1 (.deliver none)).isSome = true := ⟨_, rfl, rfl, rfl, rfl⟩
  obtain ⟨⟨b, h⟩, hexec, hcur, alive, hstep⟩ := computed
  obtain ⟨⟨b', o⟩, hstep⟩ := Option.isSome_iff_exists.mp hstep
  have run := (Machine.Run.start (m := bench benchEnv)
    (show Bench.Start _ _ from ⟨⟨rfl, rfl⟩, rfl⟩)).exec hexec
  refine ⟨b, _, b', o, run, hstep, ?_⟩
  cases hrest : b.zlint.rest with
  | nil =>
    rw [hrest] at hcur
    cases hcur
  | cons t rest =>
    rw [hrest] at hcur
    have hinit08 : t.test = .init08 0 := Option.some.inj hcur
    have other : ∀ s, t.test ≠ .search01 s := by
      rw [hinit08]
      exact fun s h => nomatch h
    rw [((zlint_on_myServer benchEnv_usual run).2 t rest alive hrest).2 _ b' o hstep other,
      BenchEnv.hears, hinit08]
    decide

end Yazpp
