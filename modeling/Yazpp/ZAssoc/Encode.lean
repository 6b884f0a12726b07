import Yazpp.ZAssoc.Model

/-!
# `encode_GDU` behind a failure

`encode_GDU` resets the encoding stream behind a value that was encoded, and returns before the
reset when one was not. The stream keeps its error indicator, so a `Z_Assoc` that has failed once
encodes nothing any more: the APDUs behind the first failure are lost, encodable or not.

`AsFresh` says of one call that what a fresh `Z_Assoc` would have encoded was encoded, to the
same octets, and handed over. The invariant is about the stream alone (`StreamOf`): clean while
every value has been encodable, in error from the first one that was not.
-/

set_option autoImplicit false

namespace Yazpp

open Yazpp.Lib

variable {γ σ : Type}

/-- The value a call encodes. -/
def ZInput.gdu : ZInput γ → Option γ
  | .sendGdu g _ => some g
  | .encodeGdu g => some g
  | .setApduLog _ _ => none
  | .setApduYazlog _ => none

/-- The values of a sequence of calls, in order. -/
def gdus (is : List (ZInput γ)) : List γ := is.filterMap ZInput.gdu

/-- What a call put out is what a fresh `Z_Assoc` makes of its value, when that is encodable. -/
def AsFresh (odr : OdrEncode γ σ) (i : ZInput γ) (o : List (ZCall γ)) : Prop :=
  match i with
  | .sendGdu g _ => odr.Encodable g → .sendPdu (odr.octets g) ∈ o
  | .encodeGdu g => odr.Encodable g →
      .encoded (odr.octets g).length (some (odr.octets g)) ∈ o
  | _ => True

/-- A value leaves the encoder: to the caller, or to `send_PDU`. -/
def ZCall.handsOver : ZCall γ → Bool
  | .sendPdu _ => true
  | .encoded _ _ => true
  | _ => false

/-- The calls of a `Z_Assoc` from its constructor on. -/
def ZBorn (odr : OdrEncode γ σ) (z : ZAssoc σ) (log : List (ZInput γ × List (ZCall γ))) : Prop :=
  z = ZAssoc.new odr ∧ log = []

/-! ## One call of `encode_GDU` -/

namespace ZAssoc

/-- A clean stream encodes what is encodable, and is clean again. -/
theorem encodeGdu_clean {odr : OdrEncode γ σ} (law : odr.Lawful) {z : ZAssoc σ} {g : γ}
    (clean : odr.Clean z.odrOut) (hg : odr.Encodable g) :
    (z.encodeGdu odr g).buf = some (odr.octets g) ∧
      (z.encodeGdu odr g).ret = (odr.octets g).length ∧
      odr.Clean (z.encodeGdu odr g).assoc.odrOut := by
  have hr : (odr.zGdu z.odrOut g).2 = true := (law.same _ g clean).trans hg
  have hbuf := law.buffer _ g clean hg
  refine ⟨?_, ?_, ?_⟩
  · simp only [encodeGdu, hr, if_true, hbuf]
  · simp only [encodeGdu, hr, if_true, hbuf]
  · simp only [encodeGdu, hr, if_true]
    exact law.reset _

/-- Without a reset an encoder that failed leaves the error indicator set. -/
theorem encodeGdu_failed {odr : OdrEncode γ σ} (law : odr.Lawful) {z : ZAssoc σ} {g : γ}
    (hr : (odr.zGdu z.odrOut g).2 = false) :
    (z.encodeGdu odr g).buf = none ∧ odr.geterror (z.encodeGdu odr g).assoc.odrOut = true := by
  refine ⟨?_, ?_⟩
  · simp only [encodeGdu, hr, Bool.false_eq_true, if_false]
  · simp only [encodeGdu, hr, Bool.false_eq_true, if_false]
    exact law.fails _ _ hr

/-- What `encode_GDU` calls: YAZ's log, and when there is a file, the file and what `odr_print`
prints to by then. -/
theorem mem_encodeGdu_calls {odr : OdrEncode γ σ} {z : ZAssoc σ} {g : γ} {c : ZCall γ}
    (hc : c ∈ (z.encodeGdu odr g).calls) :
    (∃ text, c = .yazLog text) ∨ (∃ file, c = .setPrint file) ∨ c = .print (some .yazLog) g ∨
      ∃ f, z.apduFile = some f ∧ ((∃ text, c = .fprintf f text) ∨
        c = .print (z.encodeGdu odr g).assoc.printTo g ∨ c = .fflush f) := by
  have parts : ∃ yazlogged filed, (z.encodeGdu odr g).calls = yazlogged ++ filed ∧
      (∀ c ∈ yazlogged, (∃ text, c = .yazLog text) ∨ (∃ file, c = .setPrint file) ∨
        c = .print (some .yazLog) g) ∧
      (∀ c ∈ filed, ∃ f, z.apduFile = some f ∧ ((∃ text, c = .fprintf f text) ∨
        c = .print (z.encodeGdu odr g).assoc.printTo g ∨ c = .fflush f)) := by
    unfold encodeGdu
    cases hr : (odr.zGdu z.odrOut g).2 <;> refine ⟨_, _, rfl, ?_, ?_⟩
    · intro c hc
      grind
    · intro c hc
      split at hc
      · cases hc
      · next f hf => grind
    · intro c hc
      grind
    · intro c hc
      split at hc
      · cases hc
      · next f hf => grind
  obtain ⟨yazlogged, filed, heq, hyaz, hfiled⟩ := parts
  rw [heq] at hc
  rcases List.mem_append.mp hc with hc | hc
  · rcases hyaz c hc with hc | hc | hc
    · exact .inl hc
    · exact .inr (.inl hc)
    · exact .inr (.inr (.inl hc))
  · exact .inr (.inr (.inr (hfiled c hc)))

/-- `encode_GDU` itself hands nothing over: what it calls is the log. -/
theorem encodeGdu_quiet (odr : OdrEncode γ σ) (z : ZAssoc σ) (g : γ) :
    ∀ c ∈ (z.encodeGdu odr g).calls, c.handsOver = false := by
  intro c hc
  rcases mem_encodeGdu_calls hc with
    ⟨_, rfl⟩ | ⟨_, rfl⟩ | rfl | ⟨_, -, ⟨_, rfl⟩ | rfl | rfl⟩ <;> rfl

/-- `send_GDU` leaves the stream as `encode_GDU` does. -/
theorem sendGdu_assoc (odr : OdrEncode γ σ) (g : γ) (res : Int) (z : ZAssoc σ) :
    (z.sendGdu odr g res).assoc = (z.encodeGdu odr g).assoc := by
  simp only [sendGdu]
  split
  · split <;> rfl
  · rfl

end ZAssoc

/-! ## One call of the machine -/

/-- The stream behind a sequence of values: clean while all were encodable, in error otherwise. -/
def StreamOf (odr : OdrEncode γ σ) (past : List γ) (s : σ) : Prop :=
  ((∀ g ∈ past, odr.Encodable g) → odr.Clean s) ∧
    ((∃ g ∈ past, ¬ odr.Encodable g) → odr.geterror s = true)

/-- The stream behind one more value. -/
theorem streamOf_encodeGdu {odr : OdrEncode γ σ} (law : odr.Lawful) {z : ZAssoc σ} {past : List γ}
    {g : γ} (stream : StreamOf odr past z.odrOut) :
    StreamOf odr (past ++ [g]) (z.encodeGdu odr g).assoc.odrOut := by
  refine ⟨?_, ?_⟩
  · intro all
    have clean := stream.1 fun g' hg' => all g' (List.mem_append_left _ hg')
    have hg := all g (List.mem_append_right _ (List.mem_singleton_self g))
    exact (ZAssoc.encodeGdu_clean law clean hg).2.2
  · rintro ⟨g', hmem, hg'⟩
    apply (ZAssoc.encodeGdu_failed law ?_).2
    by_cases all : ∀ g ∈ past, odr.Encodable g
    · -- the first value that does not encode is this one
      rcases List.mem_append.mp hmem with hold | hnew
      · exact absurd (all g' hold) hg'
      · cases List.mem_singleton.mp hnew
        rw [law.same _ _ (stream.1 all)]
        exact Bool.eq_false_iff.mpr hg'
    · obtain ⟨g', hfailed⟩ := Classical.not_forall.mp all
      obtain ⟨hmem, hg'⟩ := Classical.not_imp.mp hfailed
      exact law.sticks _ _ (stream.2 ⟨g', hmem, hg'⟩)

/-- Behind values that were all encodable, an encodable one is handed over as it should be. -/
theorem asFresh_of_clean {odr : OdrEncode γ σ} (law : odr.Lawful) {z z' : ZAssoc σ}
    {i : ZInput γ} {o : List (ZCall γ)} (clean : odr.Clean z.odrOut)
    (hstep : (zAssoc odr).step z i = some (z', o)) : AsFresh odr i o := by
  cases i with
  | sendGdu g res =>
    intro hg
    obtain ⟨hbuf, hret, -⟩ := ZAssoc.encodeGdu_clean law clean hg
    have hpos : 0 < (z.encodeGdu odr g).ret := by
      have := List.length_pos_iff.mpr (law.nonempty g hg)
      omega
    cases hstep
    simp only [ZAssoc.sendGdu, hbuf, hpos, if_true]
    exact List.mem_append_right _ (List.mem_singleton_self _)
  | encodeGdu g =>
    intro hg
    obtain ⟨hbuf, hret, -⟩ := ZAssoc.encodeGdu_clean law clean hg
    have outs := (Prod.mk.inj (Option.some.inj hstep)).2
    rw [hbuf, hret] at outs
    rw [← outs]
    exact List.mem_append_right _ (List.mem_singleton_self _)
  | setApduLog fname file => trivial
  | setApduYazlog v => trivial

/-- With the error indicator set, no encodable value is handed over. -/
theorem not_asFresh_of_error {odr : OdrEncode γ σ} (law : odr.Lawful) {z z' : ZAssoc σ}
    {i : ZInput γ} {o : List (ZCall γ)} {g : γ} (herr : odr.geterror z.odrOut = true)
    (hi : i.gdu = some g) (hg : odr.Encodable g)
    (hstep : (zAssoc odr).step z i = some (z', o)) : ¬ AsFresh odr i o := by
  have hbuf : (z.encodeGdu odr g).buf = none :=
    (ZAssoc.encodeGdu_failed law (law.sticks _ g herr)).1
  have quiet := ZAssoc.encodeGdu_quiet odr z g
  cases i with
  | sendGdu g' res =>
    cases hi
    intro isolated
    have sent := isolated hg
    cases hstep
    simp only [ZAssoc.sendGdu, hbuf] at sent
    exact Bool.noConfusion (quiet _ sent)
  | encodeGdu g' =>
    cases hi
    intro isolated
    have handed := isolated hg
    cases hstep
    rw [hbuf] at handed
    rcases List.mem_append.mp handed with inside | last
    · exact Bool.noConfusion (quiet _ inside)
    · exact Option.some_ne_none _ (ZCall.encoded.inj (List.mem_singleton.mp last)).2
  | setApduLog fname file => cases hi
  | setApduYazlog v => cases hi

/-- What one call does to the stream. -/
theorem streamOf_step {odr : OdrEncode γ σ} (law : odr.Lawful) {z z' : ZAssoc σ} {past : List γ}
    {i : ZInput γ} {o : List (ZCall γ)} (stream : StreamOf odr past z.odrOut)
    (hstep : (zAssoc odr).step z i = some (z', o)) :
    StreamOf odr (past ++ i.gdu.toList) z'.odrOut := by
  cases i with
  | sendGdu g res =>
    cases hstep
    show StreamOf odr (past ++ [g]) (z.sendGdu odr g res).assoc.odrOut
    rw [ZAssoc.sendGdu_assoc]
    exact streamOf_encodeGdu law stream
  | encodeGdu g =>
    cases hstep
    exact streamOf_encodeGdu law stream
  | setApduLog fname file =>
    have same : z'.odrOut = z.odrOut := by
      rw [← (Prod.mk.inj (Option.some.inj hstep)).1]
      cases fname <;> rfl
    rw [same]
    simpa only [ZInput.gdu, Option.toList_none, List.append_nil] using stream
  | setApduYazlog v =>
    have same : z'.odrOut = z.odrOut := by
      rw [← (Prod.mk.inj (Option.some.inj hstep)).1]
      rfl
    rw [same]
    simpa only [ZInput.gdu, Option.toList_none, List.append_nil] using stream

/-- One more call is isolated exactly when it encodes nothing encodable, or nothing before it
failed. -/
theorem asFresh_step {odr : OdrEncode γ σ} (law : odr.Lawful) {z z' : ZAssoc σ} {past : List γ}
    {i : ZInput γ} {o : List (ZCall γ)} (stream : StreamOf odr past z.odrOut)
    (hstep : (zAssoc odr).step z i = some (z', o)) :
    AsFresh odr i o ↔ ∀ g ∈ past, ∀ g' ∈ i.gdu, odr.Encodable g' → odr.Encodable g := by
  constructor
  · intro isolated g hg g' hg' henc
    apply Classical.byContradiction
    intro hfail
    exact not_asFresh_of_error law (stream.2 ⟨g, hg, hfail⟩) hg' henc hstep isolated
  · intro order
    by_cases all : ∀ g ∈ past, odr.Encodable g
    · exact asFresh_of_clean law (stream.1 all) hstep
    · -- behind a failure the call encodes nothing encodable, and has nothing to hand over
      obtain ⟨g, hfailed⟩ := Classical.not_forall.mp all
      obtain ⟨hg, hfail⟩ := Classical.not_imp.mp hfailed
      cases i with
      | sendGdu g' res => exact fun henc => absurd (order g hg g' rfl henc) hfail
      | encodeGdu g' => exact fun henc => absurd (order g hg g' rfl henc) hfail
      | setApduLog fname file => trivial
      | setApduYazlog v => trivial

/-! ## Every sequence of calls -/

/-- Behind a failure, nothing encodable. -/
def FailuresLast (odr : OdrEncode γ σ) (past : List γ) : Prop :=
  past.Pairwise fun g g' => odr.Encodable g' → odr.Encodable g

theorem failuresLast_append {odr : OdrEncode γ σ} {past : List γ} {g? : Option γ} :
    FailuresLast odr (past ++ g?.toList) ↔ FailuresLast odr past ∧
      ∀ g ∈ past, ∀ g' ∈ g?, odr.Encodable g' → odr.Encodable g := by
  cases g? with
  | none => simp [FailuresLast]
  | some g' => simp [FailuresLast, List.pairwise_append]

/-- **Encoding failures are not isolated**: on every sequence of calls from a fresh `Z_Assoc` on,
every encodable value is encoded to its octets and handed over if and only if no encodable value
comes behind one that is not. -/
theorem failures_isolated_iff (odr : OdrEncode γ σ) (law : odr.Lawful) {is : List (ZInput γ)}
    {z : ZAssoc σ} {log : List (ZInput γ × List (ZCall γ))}
    (run : (zAssoc odr).logged.Run (ZBorn odr) is z log) :
    (∀ e ∈ log, AsFresh odr e.1 e.2) ↔ FailuresLast odr (gdus is) := by
  have inputs : log.map Prod.fst = is := run.logged_inputs fun _ _ born => born.2
  have inv := run.invariant
    (fun z log => StreamOf odr (gdus (log.map Prod.fst)) z.odrOut ∧
      ((∀ e ∈ log, AsFresh odr e.1 e.2) ↔ FailuresLast odr (gdus (log.map Prod.fst))))
    (by
      rintro _ _ ⟨rfl, rfl⟩
      refine ⟨⟨fun _ => law.created, fun ⟨g, hg, _⟩ => absurd hg List.not_mem_nil⟩, ?_⟩
      exact ⟨fun _ => List.Pairwise.nil, fun _ => List.forall_mem_nil _⟩)
    (by
      intro z log i z' entry inv hstep
      obtain ⟨o, hcall, rfl⟩ := Machine.logged_step.mp hstep
      have grown : gdus ((log ++ [(i, o)]).map Prod.fst) =
          gdus (log.map Prod.fst) ++ i.gdu.toList := by
        rw [List.map_append, gdus, List.filterMap_append]
        cases i <;> rfl
      rw [grown, failuresLast_append, List.forall_mem_append, List.forall_mem_singleton, inv.2,
        asFresh_step law inv.1 hcall]
      exact ⟨streamOf_step law inv.1 hcall, Iff.rfl⟩)
  rw [← inputs]
  exact inv.2

/-! ## A `Close` without its reason -/

/-- A `Z_Close` APDU, of which only the mandatory `closeReason` is set or not. -/
structure ZClose where
  closeReason : Option UInt8
deriving DecidableEq, Repr

/-- A stream: the error indicator, and the octets so far. -/
structure ZStream where
  error : Bool := false
  octets : Buf := []
deriving DecidableEq, Repr

/-- BER for `ZClose` as YAZ has it: a missing mandatory element sets the error indicator, behind
the tag that was already written, and with the indicator set nothing is encoded. -/
def closeOdr : OdrEncode ZClose ZStream where
  createmem := {}
  zGdu s apdu :=
    if s.error then (s, false)
    else match apdu.closeReason with
      | none => ({ error := true, octets := s.octets ++ [0xbf, 0x30] }, false)
      | some reason =>
        ({ s with octets := s.octets ++ [0xbf, 0x30, 0x05, 0x9f, 0x81, 0x53, 0x01, reason] }, true)
  geterror s := s.error
  getelement s := if s.error then some "closeReason" else none
  getbuf s := s.octets
  reset _ := {}

theorem closeOdr_lawful : closeOdr.Lawful where
  created := ⟨rfl, rfl⟩
  reset _ := ⟨rfl, rfl⟩
  same s g clean := by
    obtain ⟨error, octets⟩ := s
    obtain ⟨rfl, rfl⟩ : error = false ∧ octets = [] := ⟨clean.error, clean.empty⟩
    rfl
  buffer s g clean _ := by
    obtain ⟨error, octets⟩ := s
    obtain ⟨rfl, rfl⟩ : error = false ∧ octets = [] := ⟨clean.error, clean.empty⟩
    rfl
  fails s g hr := by
    obtain ⟨error, octets⟩ := s
    obtain ⟨reason⟩ := g
    cases error <;> cases reason <;> first | rfl | cases hr
  sticks s g herr := by
    obtain ⟨error, octets⟩ := s
    cases herr
    rfl
  nonempty g hg := by
    obtain ⟨reason⟩ := g
    cases reason with
    | none => cases hg
    | some reason => exact List.cons_ne_nil _ _

/-- The two calls, run from a fresh `Z_Assoc`: the second hands nothing over either. -/
theorem failures_not_isolated :
    ¬ ∀ is z log, (zAssoc closeOdr).logged.Run (ZBorn closeOdr) is z log →
      ∀ e ∈ log, AsFresh closeOdr e.1 e.2 := by
  intro claim
  have ran := claim _ _ _ (.step (.step (.start ⟨rfl, rfl⟩)
    (i := .sendGdu ⟨none⟩ 0) rfl) (i := .sendGdu ⟨some 0⟩ 0) rfl)
  have second := ran _ (List.mem_append_right _ (List.mem_singleton_self _))
  have sent := second rfl
  revert sent
  decide

/-- The other way round both calls are as they should be: a `Close`, and the failing one last. -/
theorem failures_isolated_last :
    ∃ z log, (zAssoc closeOdr).logged.Run (ZBorn closeOdr)
        [.sendGdu ⟨some 0⟩ 0, .sendGdu ⟨none⟩ 0] z log ∧
      log.length = 2 ∧ ∀ e ∈ log, AsFresh closeOdr e.1 e.2 := by
  have run := Machine.Run.step (.step (.start ⟨rfl, rfl⟩ : (zAssoc closeOdr).logged.Run
    (ZBorn closeOdr) [] (ZAssoc.new closeOdr) []) (i := .sendGdu ⟨some 0⟩ 0) rfl)
    (i := .sendGdu ⟨none⟩ 0) rfl
  refine ⟨_, _, run, rfl, (failures_isolated_iff closeOdr closeOdr_lawful run).mpr ?_⟩
  refine List.Pairwise.cons ?_ (List.pairwise_singleton _ _)
  intro g hg henc
  cases List.mem_singleton.mp hg
  exact Bool.noConfusion henc

end Yazpp
