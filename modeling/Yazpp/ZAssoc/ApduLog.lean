import Yazpp.Lib.History
import Yazpp.ZAssoc.LogBalance

/-!
# Which file the APDU log is, and who closes it

`set_APDU_log` closes the file of the name before, and the destructor closes what `odr_print`
prints to. A null name closes the file but leaves `odr_print` with it, so that the destructor closes
it once more, unless another name has been given by then or something was printed to the YAZ log,
behind which `odr_print` gets what `APDU_file` is. A null name behind `"-"` does not even reset
`APDU_file`.

`log_kept_iff` says of every sequence of calls when the log is as it should be. What the calls do to
files is a balance, kept by all of them (`Balance`); how the association got where it is, is read
off the calls (`Reflects`).
-/

set_option autoImplicit false

namespace Yazpp

open Yazpp.Lib

variable {γ σ : Type}

/-! ## What is to be shown -/

namespace ZLifeInput

/-- The call, when it is one of those that do not decode. -/
def toCall : ZLifeInput γ → Option (ZInput γ)
  | .call i => some i
  | _ => none

/-- The stream that a call of `set_APDU_log` is for. -/
def names : ZLifeInput γ → Option (Option LogFile)
  | .call (.setApduLog none _) => some none
  | .call (.setApduLog (some fname) file) => some (logStream fname file)
  | _ => none

/-- What `set_APDU_yazlog` is called with. -/
def yazlog : ZLifeInput γ → Option Int
  | .call (.setApduYazlog v) => some v
  | _ => none

end ZLifeInput

/-- The stream of the last name given. -/
def named (is : List (ZLifeInput γ)) : Option LogFile :=
  (is.filterMap ZLifeInput.names).getLast?.join

/-- Whether the YAZ log is on. -/
def yazlogOf (is : List (ZLifeInput γ)) : Int :=
  (is.filterMap ZLifeInput.yazlog).getLast?.getD 0

/-- The values that were given to `encode_GDU`. -/
def values (is : List (ZLifeInput γ)) : List γ := gdus (is.filterMap ZLifeInput.toCall)

/-- **The APDU log as it should be**, over a life: a file that was opened is closed once and not
written to behind that, and `APDU_file` is always the stream of the last name. -/
structure LogKept (out : OdrEncode γ σ) (dec : OdrDecode γ) (is : List (ZLifeInput γ))
    (h : List (ZCall γ)) : Prop where
  once : ∀ n, (∃ c ∈ h, c.opens n = true) → h.countP (ZCall.closes n) = 1
  silent : ∀ n before c after, h = before ++ c :: after → c.closes n = true →
    ∀ d ∈ after, d.writes n = false
  follows : ∀ before after, is = before ++ after → ∀ z files k,
    (zLife out dec).exec (.new out) before = some ({ assoc := some z, files := files }, k) →
      z.apduFile = named before

/-- A call behind which `odr_print` prints to what `APDU_file` is: it gives a name, or it prints to
the YAZ log. `encode_GDU` does so when the YAZ log is on, and when it fails, which it does from the
first value on that does not encode. -/
def Repoints (out : OdrEncode γ σ) (dec : OdrDecode γ) (past : List (ZLifeInput γ)) :
    ZLifeInput γ → Prop
  | .call (.setApduLog fname _) => fname ≠ none
  | .call (.setApduYazlog _) => False
  | .call (.encodeGdu g) => yazlogOf past ≠ 0 ∨ ∃ g' ∈ values past ++ [g], ¬ out.Encodable g'
  | .call (.sendGdu g _) => yazlogOf past ≠ 0 ∨ ∃ g' ∈ values past ++ [g], ¬ out.Encodable g'
  | .decodeGdu buf => yazlogOf past ≠ 0 ∧ ∃ g, dec.zGdu buf = .ok g
  | .destroy => False

/-- **Null names are harmless**: none comes when the last name was `"-"`, and behind each that comes
when there is a file some call repoints `odr_print`. -/
def NullsHarmless (out : OdrEncode γ σ) (dec : OdrDecode γ) (is : List (ZLifeInput γ)) : Prop :=
  ∀ before file after, is = before ++ .call (.setApduLog none file) :: after →
    named before ≠ some .stderr ∧
      ((∃ n, named before = some (.opened n)) → ∃ mid i rest, after = mid ++ i :: rest ∧
        Repoints out dec (before ++ .call (.setApduLog none file) :: mid) i)

/-! ## What the calls so far say of the association -/

/-- The last value that a list of calls gives, behind one more. -/
theorem getLast?_filterMap_snoc {β : Type} (f : ZLifeInput γ → Option β)
    (is : List (ZLifeInput γ)) (i : ZLifeInput γ) :
    ((is ++ [i]).filterMap f).getLast? = (f i).or (is.filterMap f).getLast? := by
  rw [List.filterMap_append]
  cases hi : f i with
  | none => simp only [List.filterMap_cons, hi, List.filterMap_nil, List.append_nil, Option.none_or]
  | some v =>
    simp only [List.filterMap_cons, hi, List.filterMap_nil, List.getLast?_concat, Option.some_or]

theorem named_snoc (is : List (ZLifeInput γ)) (i : ZLifeInput γ) :
    named (is ++ [i]) = i.names.getD (named is) := by
  unfold named
  rw [getLast?_filterMap_snoc]
  cases i.names <;> rfl

theorem yazlogOf_snoc (is : List (ZLifeInput γ)) (i : ZLifeInput γ) :
    yazlogOf (is ++ [i]) = i.yazlog.getD (yazlogOf is) := by
  unfold yazlogOf
  rw [getLast?_filterMap_snoc]
  cases i.yazlog <;> rfl

theorem values_snoc (is : List (ZLifeInput γ)) (i : ZLifeInput γ) :
    values (is ++ [i]) = values is ++ (i.toCall.bind ZInput.gdu).toList := by
  unfold values gdus
  rw [List.filterMap_append, List.filterMap_append]
  cases hi : i.toCall with
  | none =>
    simp only [List.filterMap_cons, hi, List.filterMap_nil, Option.bind_none, Option.toList_none]
  | some call =>
    cases hg : call.gdu <;>
      simp only [List.filterMap_cons, hi, List.filterMap_nil, Option.bind_some, hg,
        Option.toList_none, Option.toList_some]

/-- A null name came when there was a file, and nothing has repointed `odr_print` since. -/
def Dangling (out : OdrEncode γ σ) (dec : OdrDecode γ) (n : Nat) (is : List (ZLifeInput γ)) :
    Prop :=
  ∃ before file after, is = before ++ .call (.setApduLog none file) :: after ∧
    named before = some (.opened n) ∧ ∀ mid i rest, after = mid ++ i :: rest →
      ¬ Repoints out dec (before ++ .call (.setApduLog none file) :: mid) i

/-- A null name came when the last name was `"-"`. -/
def LeftStderr (is : List (ZLifeInput γ)) : Prop :=
  ∃ before file after, is = before ++ .call (.setApduLog none file) :: after ∧
    named before = some .stderr

/-- **The association as the calls have it.** -/
structure Reflects (out : OdrEncode γ σ) (dec : OdrDecode γ) (is : List (ZLifeInput γ))
    (z : ZAssoc σ) : Prop where
  yazlog : z.apduYazlog = yazlogOf is
  stream : StreamOf out (values is) z.odrOut
  file : z.apduFile = named is ∨
    z.apduFile = some .stderr ∧ named is = none ∧ LeftStderr is
  dangling : ∀ n, z.printTo = some (.opened n) →
    z.apduFile = some (.opened n) ∨ Dangling out dec n is

/-- What a call does, in the terms of the calls before it. -/
inductive ZLife.Stepped (out : OdrEncode γ σ) (dec : OdrDecode γ) (past : List (ZLifeInput γ))
    (z : ZAssoc σ) (files : List Nat) : ZLifeInput γ → ZLife σ → List (ZCall γ) → Prop
  | setApduLog {fname : Option String} {file : Option LogFile} {files' : List Nat} :
      ZLife.give files file = some files' →
      Stepped out dec past z files (.call (.setApduLog fname file))
        { assoc := some (z.setApduLog (γ := γ) fname file).1, files := files' }
        (z.setApduLog fname file).2
  | setApduYazlog (v : Int) :
      Stepped out dec past z files (.call (.setApduYazlog v))
        { assoc := some { z with apduYazlog := v }, files := files } []
  | prints {i : ZLifeInput γ} {z' : ZAssoc σ} {o : List (ZCall γ)} :
      i.names = none → i.yazlog = none → Printed (Repoints out dec past i) z z' o →
      Stepped out dec past z files i { assoc := some z', files := files } o
  | destroy :
      Stepped out dec past z files .destroy { assoc := none, files := files }
        (ZAssoc.closing z.printTo)

namespace ZLife

variable {out : OdrEncode γ σ} {dec : OdrDecode γ} {past : List (ZLifeInput γ)} {s s' : ZLife σ}
  {z z' : ZAssoc σ} {i : ZLifeInput γ} {o : List (ZCall γ)}

/-- An encoder fails from the first value on that does not encode. -/
theorem zGdu_false_iff (law : out.Lawful) {values : List γ} {stream : σ}
    (behind : StreamOf out values stream) (g : γ) :
    (out.zGdu stream g).2 = false ↔ ∃ g' ∈ values ++ [g], ¬ out.Encodable g' := by
  by_cases all : ∀ g' ∈ values, out.Encodable g'
  · rw [law.same _ g (behind.1 all), ← Bool.not_eq_true]
    constructor
    · intro fails
      exact ⟨g, List.mem_append_right _ (List.mem_singleton_self g), fails⟩
    · rintro ⟨g', hmem, fails⟩
      rcases List.mem_append.mp hmem with hmem | hmem
      · exact absurd (all g' hmem) fails
      · exact List.mem_singleton.mp hmem ▸ fails
  · obtain ⟨g', hfailed⟩ := Classical.not_forall.mp all
    obtain ⟨hmem, fails⟩ := Classical.not_imp.mp hfailed
    refine iff_of_true (law.sticks _ g (behind.2 ⟨g', hmem, fails⟩)) ?_
    exact ⟨g', List.mem_append_left _ hmem, fails⟩

theorem stepped (law : out.Lawful) (hs : s.assoc = some z) (yazlog : z.apduYazlog = yazlogOf past)
    (stream : StreamOf out (values past) z.odrOut)
    (hstep : (zLife out dec).step s i = some (s', o)) : Stepped out dec past z s.files i s' o := by
  have repoints : ∀ g, (z.apduYazlog ≠ 0 ∨ (out.zGdu z.odrOut g).2 = false) =
      (yazlogOf past ≠ 0 ∨ ∃ g' ∈ values past ++ [g], ¬ out.Encodable g') := fun g => by
    rw [yazlog, zGdu_false_iff law stream g]
  change step out dec s i = some (s', o) at hstep
  simp only [step, hs] at hstep
  cases i with
  | call i =>
    dsimp only at hstep
    cases hgive : give s.files i.file with
    | none =>
      rw [hgive] at hstep
      cases hstep
    | some files =>
      rw [hgive] at hstep
      cases i with
      | sendGdu g res =>
        cases hgive
        cases hstep
        refine .prints rfl rfl ?_
        have printed := ZAssoc.sendGdu_printed out g res z
        rwa [repoints] at printed
      | encodeGdu g =>
        cases hgive
        cases hstep
        refine .prints rfl rfl ?_
        have printed := ZAssoc.encodeGdu_printed out g z
        rw [repoints] at printed
        refine { printed with tame := fun c hc => ?_ }
        rcases List.mem_append.mp hc with hc | hc
        · exact printed.tame c hc
        · exact List.mem_singleton.mp hc ▸ .encoded _ _
      | setApduLog fname file =>
        cases hstep
        exact .setApduLog hgive
      | setApduYazlog v =>
        cases hgive
        cases hstep
        exact .setApduYazlog v
  | decodeGdu buf =>
    cases hstep
    refine .prints rfl rfl ?_
    have printed := ZAssoc.decodeGdu_printed dec buf z
    rwa [yazlog] at printed
  | destroy =>
    cases hstep
    rw [ZAssoc.destroy_eq]
    exact .destroy

/-- The encoding stream behind one more call. -/
theorem stream_step (law : out.Lawful) (hs : s.assoc = some z)
    (stream : StreamOf out (values past) z.odrOut)
    (hstep : (zLife out dec).step s i = some (s', o)) (hs' : s'.assoc = some z') :
    StreamOf out (values (past ++ [i])) z'.odrOut := by
  rw [values_snoc]
  change step out dec s i = some (s', o) at hstep
  simp only [step, hs] at hstep
  cases i with
  | call i =>
    dsimp only at hstep
    split at hstep
    · next files next calls hgive hcall =>
      cases hstep
      cases hs'
      exact streamOf_step law stream hcall
    · cases hstep
  | decodeGdu buf =>
    cases hstep
    cases hs'
    have same : (z.decodeGdu dec buf).assoc.odrOut = z.odrOut := by
      unfold ZAssoc.decodeGdu
      split <;> rfl
    rw [same]
    exact (List.append_nil _).symm ▸ stream
  | destroy =>
    cases hstep
    cases hs'

end ZLife

/-! ## Every sequence of calls -/

/-- One more call that comes behind a null name too. -/
theorem LeftStderr.snoc {is : List (ZLifeInput γ)} (left : LeftStderr is) (i : ZLifeInput γ) :
    LeftStderr (is ++ [i]) := by
  obtain ⟨before, file, after, rfl, hnamed⟩ := left
  exact ⟨before, file, after ++ [i], by rw [List.append_assoc, List.cons_append], hnamed⟩

/-- And does not repoint. -/
theorem Dangling.snoc {out : OdrEncode γ σ} {dec : OdrDecode γ} {n : Nat} {is : List (ZLifeInput γ)}
    (dangling : Dangling out dec n is) {i : ZLifeInput γ} (stays : ¬ Repoints out dec is i) :
    Dangling out dec n (is ++ [i]) := by
  obtain ⟨before, file, after, rfl, hnamed, quiet⟩ := dangling
  refine ⟨before, file, after ++ [i], by rw [List.append_assoc, List.cons_append], hnamed, ?_⟩
  exact forall_split_snoc.mpr ⟨quiet, stays⟩

/-- A null name when there is a file. -/
theorem Dangling.null {out : OdrEncode γ σ} {dec : OdrDecode γ} {n : Nat}
    {is : List (ZLifeInput γ)} (hnamed : named is = some (.opened n)) (file : Option LogFile) :
    Dangling out dec n (is ++ [.call (.setApduLog none file)]) :=
  ⟨is, file, [], rfl, hnamed, fun _ _ _ h => absurd h (List.append_ne_nil_of_right_ne_nil _
    (List.cons_ne_nil _ _)).symm⟩

namespace Reflects

variable {out : OdrEncode γ σ} {dec : OdrDecode γ} {is : List (ZLifeInput γ)} {z z' : ZAssoc σ}
  {files : List Nat} {o : List (ZCall γ)} {i : ZLifeInput γ} {s' : ZLife σ}

/-- Whether the YAZ log is on, behind one more call. -/
theorem yazlog_step (reflects : Reflects out dec is z)
    (stepped : ZLife.Stepped out dec is z files i s' o) (hs' : s'.assoc = some z') :
    z'.apduYazlog = yazlogOf (is ++ [i]) := by
  rw [yazlogOf_snoc, ← reflects.yazlog]
  cases stepped with
  | @setApduLog fname file _ _ =>
    cases hs'
    cases fname with
    | none => rw [ZAssoc.setApduLog_none]; rfl
    | some fname => rw [ZAssoc.setApduLog_some]; rfl
  | setApduYazlog v => cases hs'; rfl
  | prints _ yazlog printed =>
    cases hs'
    rw [yazlog]
    exact printed.yazlog
  | destroy => cases hs'

/-- What `APDU_file` is. -/
theorem file_step (reflects : Reflects out dec is z)
    (stepped : ZLife.Stepped out dec is z files i s' o) (hs' : s'.assoc = some z') :
    z'.apduFile = named (is ++ [i]) ∨
      z'.apduFile = some .stderr ∧ named (is ++ [i]) = none ∧ LeftStderr (is ++ [i]) := by
  rw [named_snoc]
  cases stepped with
  | @setApduLog fname file _ _ =>
    cases hs'
    cases fname with
    | none =>
      rw [ZAssoc.setApduLog_none]
      by_cases err : z.apduFile = some .stderr
      · -- `stderr` stays, whether the last name was "-" or it stayed before
        refine .inr ⟨if_pos err, rfl, ?_⟩
        rcases reflects.file with hnamed | ⟨-, -, left⟩
        · exact ⟨is, file, [], rfl, hnamed.symm.trans err⟩
        · exact left.snoc _
      · exact .inl (if_neg err)
    | some fname =>
      rw [ZAssoc.setApduLog_some]
      exact .inl rfl
  | setApduYazlog v =>
    cases hs'
    exact reflects.file.imp_right fun ⟨err, unnamed, left⟩ => ⟨err, unnamed, left.snoc _⟩
  | prints names _ printed =>
    cases hs'
    rw [names, printed.file]
    exact reflects.file.imp_right fun ⟨err, unnamed, left⟩ => ⟨err, unnamed, left.snoc _⟩
  | destroy => cases hs'

/-- What `odr_print` prints to. -/
theorem dangling_step (reflects : Reflects out dec is z)
    (stepped : ZLife.Stepped out dec is z files i s' o) (hs' : s'.assoc = some z') (n : Nat) :
    z'.printTo = some (.opened n) →
      z'.apduFile = some (.opened n) ∨ Dangling out dec n (is ++ [i]) := by
  cases stepped with
  | @setApduLog fname file _ _ =>
    cases hs'
    cases fname with
    | none =>
      rw [ZAssoc.setApduLog_none]
      intro hto
      right
      rcases reflects.dangling n hto with now | dangling
      · refine .null ?_ file
        rcases reflects.file with hnamed | ⟨err, -, -⟩
        · exact hnamed.symm.trans now
        · cases err.symm.trans now
      · exact dangling.snoc fun some => some rfl
    | some fname =>
      rw [ZAssoc.setApduLog_some]
      exact .inl
  | setApduYazlog v =>
    cases hs'
    intro hto
    exact (reflects.dangling n hto).imp_right fun dangling => dangling.snoc id
  | prints names _ printed =>
    cases hs'
    intro hto
    rw [printed.file]
    by_cases yaz : Repoints out dec is i
    · exact .inl ((printed.repointed yaz).symm.trans hto)
    · rw [printed.kept yaz] at hto
      exact (reflects.dangling n hto).imp_right fun dangling => dangling.snoc yaz
  | destroy => cases hs'

/-- What the calls say of the association, behind one more. -/
theorem step (reflects : Reflects out dec is z)
    (stepped : ZLife.Stepped out dec is z files i s' o) (hs' : s'.assoc = some z')
    (stream : StreamOf out (values (is ++ [i])) z'.odrOut) : Reflects out dec (is ++ [i]) z' :=
  { yazlog := reflects.yazlog_step stepped hs'
    stream := stream
    file := reflects.file_step stepped hs'
    dangling := reflects.dangling_step stepped hs' }

end Reflects

/-- A call that changes something is called while the association is there. -/
theorem ZLife.alive {out : OdrEncode γ σ} {dec : OdrDecode γ} {s : ZLife σ} {i : ZLifeInput γ}
    {next : ZLife σ × List (ZCall γ)} (hstep : (zLife out dec).step s i = some next) :
    ∃ z, s.assoc = some z := by
  cases hs : s.assoc with
  | some z => exact ⟨z, rfl⟩
  | none =>
    change ZLife.step out dec s i = some next at hstep
    simp only [ZLife.step, hs] at hstep
    cases hstep

/-- A `Z_Assoc` that was just made. -/
def Created (out : OdrEncode γ σ) (s : ZLife σ) (h : List (ZCall γ)) : Prop :=
  s = .new out ∧ h = []

/-- **The balance, and what the calls say**, at every point of every life. -/
theorem life_run {out : OdrEncode γ σ} {dec : OdrDecode γ} (law : out.Lawful)
    {is : List (ZLifeInput γ)} {s : ZLife σ} {h : List (ZCall γ)}
    (run : (zLife out dec).Run (Created out) is s h) {z : ZAssoc σ} (hs : s.assoc = some z) :
    Balance z s.files h ∧ Reflects out dec is z := by
  induction run generalizing z with
  | start created =>
    obtain ⟨rfl, rfl⟩ := created
    cases hs
    refine ⟨.new out, ?_⟩
    exact
      { yazlog := rfl
        stream := ⟨fun _ => law.created, fun ⟨g, hg, _⟩ => absurd hg List.not_mem_nil⟩
        file := .inl rfl
        dangling := fun n hto => by cases hto }
  | @step is s s' h o i _ hstep ih =>
    obtain ⟨z₀, hz₀⟩ := ZLife.alive hstep
    obtain ⟨balance, reflects⟩ := ih hz₀
    have stepped := ZLife.stepped law hz₀ reflects.yazlog reflects.stream hstep
    have stream := ZLife.stream_step law hz₀ reflects.stream hstep hs
    refine ⟨?_, reflects.step stepped hs stream⟩
    cases stepped with
    | @setApduLog fname file _ give =>
      cases hs
      cases fname with
      | none => exact balance.setApduLog_none give
      | some fname => exact balance.setApduLog_some fname give
    | setApduYazlog v =>
      cases hs
      rw [List.append_nil]
      exact { balance with }
    | prints _ _ printed =>
      cases hs
      exact balance.printed printed
    | destroy => cases hs

/-- The association behind a call of `set_APDU_log`. -/
theorem ZLife.setApduLog_step {out : OdrEncode γ σ} {dec : OdrDecode γ} {s s' : ZLife σ}
    {z : ZAssoc σ} {fname : Option String} {file : Option LogFile} {o : List (ZCall γ)}
    (hs : s.assoc = some z)
    (hstep : (zLife out dec).step s (.call (.setApduLog fname file)) = some (s', o)) :
    s'.assoc = some (z.setApduLog (γ := γ) fname file).1 := by
  change ZLife.step out dec s (.call (.setApduLog fname file)) = some (s', o) at hstep
  simp only [ZLife.step, hs] at hstep
  cases hgive : ZLife.give s.files (ZInput.file (γ := γ) (.setApduLog fname file)) with
  | none =>
    rw [hgive] at hstep
    cases hstep
  | some files =>
    rw [hgive] at hstep
    cases hstep
    rfl

/-- The last call of those that leave `odr_print` with a closed file. -/
theorem Dangling.snoc_cases {out : OdrEncode γ σ} {dec : OdrDecode γ} {n : Nat}
    {is : List (ZLifeInput γ)} {i : ZLifeInput γ} (dangling : Dangling out dec n (is ++ [i])) :
    (∃ file, i = .call (.setApduLog none file) ∧ named is = some (.opened n)) ∨
      Dangling out dec n is ∧ ¬ Repoints out dec is i := by
  obtain ⟨before, file, after, heq, hnamed, quiet⟩ := dangling
  rcases List.eq_nil_or_concat after with rfl | ⟨after, j, rfl⟩
  · obtain ⟨rfl, hlast⟩ := List.append_inj' heq rfl
    exact .inl ⟨file, (List.cons.inj hlast).1, hnamed⟩
  · rw [List.concat_eq_append, ← List.cons_append, ← List.append_assoc] at heq
    obtain ⟨rfl, hlast⟩ := List.append_inj' heq rfl
    obtain ⟨rfl, -⟩ := List.cons.inj hlast
    rw [List.concat_eq_append] at quiet
    obtain ⟨quiet, stays⟩ := forall_split_snoc.mp quiet
    exact .inr ⟨⟨before, file, after, rfl, hnamed, quiet⟩, stays⟩

/-- **A dangling stream**: `odr_print` prints to a file that is not `APDU_file`. -/
theorem dangling_run {out : OdrEncode γ σ} {dec : OdrDecode γ} (law : out.Lawful)
    {is : List (ZLifeInput γ)} {s : ZLife σ} {h : List (ZCall γ)}
    (run : (zLife out dec).Run (Created out) is s h) {z : ZAssoc σ} (hs : s.assoc = some z)
    {n : Nat} (dangling : Dangling out dec n is) :
    z.apduFile = none ∧ z.printTo = some (.opened n) := by
  induction run generalizing z with
  | start =>
    obtain ⟨before, file, after, heq, -⟩ := dangling
    cases List.append_ne_nil_of_right_ne_nil _ (List.cons_ne_nil _ _) heq.symm
  | @step is s s' h o i run hstep ih =>
    obtain ⟨z₀, hz₀⟩ := ZLife.alive hstep
    obtain ⟨balance, reflects⟩ := life_run law run hz₀
    rcases dangling.snoc_cases with ⟨file, rfl, hnamed⟩ | ⟨dangling, stays⟩
    · have now : z₀.apduFile = some (.opened n) := by
        rcases reflects.file with hfile | ⟨-, unnamed, -⟩
        · exact hfile.trans hnamed
        · cases unnamed.symm.trans hnamed
      have dest := (balance.linked (now ▸ Option.some_ne_none _)).trans now
      cases hs.symm.trans (ZLife.setApduLog_step hz₀ hstep)
      rw [ZAssoc.setApduLog_none, now]
      exact ⟨rfl, dest⟩
    · obtain ⟨file, dest⟩ := ih hz₀ dangling
      cases ZLife.stepped law hz₀ reflects.yazlog reflects.stream hstep with
      | @setApduLog fname _ _ give =>
        cases hs
        cases fname with
        | none =>
          rw [ZAssoc.setApduLog_none, file]
          exact ⟨rfl, dest⟩
        | some fname => exact absurd (Option.some_ne_none fname) stays
      | setApduYazlog v =>
        cases hs
        exact ⟨file, dest⟩
      | prints _ _ printed =>
        cases hs
        exact ⟨printed.file.trans file, (printed.kept stays).trans dest⟩
      | destroy => cases hs

/-- A life up to one of its points is a run. -/
theorem run_of_exec {out : OdrEncode γ σ} {dec : OdrDecode γ} {is : List (ZLifeInput γ)}
    {s : ZLife σ} {h : List (ZCall γ)} (life : (zLife out dec).exec (.new out) is = some (s, h)) :
    (zLife out dec).Run (Created out) is s h := by
  have created : (zLife out dec).Run (Created out) [] (.new out) [] := .start ⟨rfl, rfl⟩
  exact created.exec life

/-- The end of a life: what is at hand when the destructor is called, and what it closes. -/
theorem life_end {out : OdrEncode γ σ} {dec : OdrDecode γ} (law : out.Lawful)
    {is : List (ZLifeInput γ)} {s : ZLife σ} {h : List (ZCall γ)}
    (life : (zLife out dec).exec (.new out) (is ++ [.destroy]) = some (s, h)) :
    ∃ t z k, (zLife out dec).exec (.new out) is = some (t, k) ∧ t.assoc = some z ∧
      Balance z t.files k ∧ Reflects out dec is z ∧ h = k ++ ZAssoc.closing z.printTo := by
  obtain ⟨t, k, last, first, ends, rfl⟩ := Machine.exec_append.mp life
  obtain ⟨t', o, o', hstep, rest, rfl⟩ := Machine.exec_cons.mp ends
  cases rest
  obtain ⟨z, hz⟩ := ZLife.alive hstep
  obtain ⟨balance, reflects⟩ := life_run law (run_of_exec first) hz
  obtain rfl : o = ZAssoc.closing z.printTo := by
    change ZLife.step out dec t .destroy = some (s, o) at hstep
    simp only [ZLife.step, hz, ZAssoc.destroy_eq] at hstep
    exact (Prod.mk.inj (Option.some.inj hstep)).2.symm
  exact ⟨t, z, k, first, hz, balance, reflects, by rw [List.append_nil]⟩

/-- A null name behind `"-"` leaves `APDU_file` at `stderr`, and it should be nothing. -/
theorem LogKept.not_stderr {out : OdrEncode γ σ} {dec : OdrDecode γ} (law : out.Lawful)
    {before after : List (ZLifeInput γ)} {file : Option LogFile} {t : ZLife σ}
    {k h : List (ZCall γ)}
    (first : (zLife out dec).exec (.new out) (before ++ .call (.setApduLog none file) :: after) =
      some (t, k))
    (kept : LogKept out dec (before ++ .call (.setApduLog none file) :: after) h) :
    named before ≠ some .stderr := by
  intro err
  obtain ⟨t₁, k₁, k₂, early, late, rfl⟩ := Machine.exec_append.mp first
  obtain ⟨t₂, o₁, o₂, hnull, later, rfl⟩ := Machine.exec_cons.mp late
  obtain ⟨z₁, hz₁⟩ := ZLife.alive hnull
  obtain ⟨-, reflects⟩ := life_run law (run_of_exec early) hz₁
  have null := Machine.exec_append.mpr ⟨_, _, _, early,
    Machine.exec_cons.mpr ⟨t₂, o₁, [], hnull, Machine.exec_nil, rfl⟩, rfl⟩
  have hfile : z₁.apduFile = some .stderr := by
    rcases reflects.file with hfile | ⟨hfile, -⟩
    · exact hfile.trans err
    · exact hfile
  have hz₂ := ZLife.setApduLog_step hz₁ hnull
  have follows := kept.follows (before ++ [.call (.setApduLog none file)]) after
    (by rw [List.append_assoc]; rfl) _ t₂.files _ (null.trans (by rw [← hz₂]))
  rw [ZAssoc.setApduLog_none, hfile, named_snoc] at follows
  cases follows

/-- A log with a stream that dangles at the end is not as it should be: the file was closed by the
null name, and is closed by the destructor. -/
theorem LogKept.not_dangling {out : OdrEncode γ σ} {dec : OdrDecode γ} (law : out.Lawful)
    {is : List (ZLifeInput γ)} {t : ZLife σ} {z : ZAssoc σ} {k : List (ZCall γ)}
    (first : (zLife out dec).exec (.new out) is = some (t, k)) (hz : t.assoc = some z)
    (kept : LogKept out dec is (k ++ ZAssoc.closing z.printTo)) (n : Nat) :
    ¬ Dangling out dec n is := by
  intro dangling
  obtain ⟨balance, -⟩ := life_run law (run_of_exec first) hz
  obtain ⟨unset, dest⟩ := dangling_run law (run_of_exec first) hz dangling
  have opened := balance.pointed n dest
  have twice := countP_closes balance opened
  rw [if_pos ⟨dest, fun file => by cases unset.symm.trans file⟩] at twice
  obtain ⟨c, hc, hopens⟩ := opened
  have once := kept.once n ⟨c, List.mem_append_left _ hc, hopens⟩
  cases once.symm.trans twice

/-- With harmless null names nothing dangles at the end, and `APDU_file` follows the names. -/
theorem logKept_of_harmless {out : OdrEncode γ σ} {dec : OdrDecode γ} (law : out.Lawful)
    {is : List (ZLifeInput γ)} {z : ZAssoc σ} {files : List Nat} {k : List (ZCall γ)}
    (balance : Balance z files k) (reflects : Reflects out dec is z)
    (harmless : NullsHarmless out dec is) :
    LogKept out dec is (k ++ ZAssoc.closing z.printTo) := by
  refine
    { once := ?_
      silent := ?_
      follows := ?_ }
  · rintro n ⟨c, hc, hopens⟩
    have opened : ∃ c ∈ k, c.opens n = true := by
      rcases List.mem_append.mp hc with hc | hc
      · exact ⟨c, hc, hopens⟩
      · cases (ZAssoc.opens_closing n hc).1.symm.trans hopens
    rw [countP_closes balance opened, if_neg]
    rintro ⟨dest, other⟩
    rcases reflects.dangling n dest with now | ⟨before, file, after, his, hnamed, quiet⟩
    · exact other now
    · obtain ⟨mid, i, rest, hafter, repoints⟩ := (harmless before file after his).2 ⟨n, hnamed⟩
      exact quiet mid i rest hafter repoints
  · intro n before c after hsplit closed d hd
    have pairs := balance.silent_append n (o := ZAssoc.closing z.printTo) fun d hd =>
      (ZAssoc.opens_closing n hd).2
    rw [hsplit] at pairs
    exact (List.pairwise_cons.mp (List.pairwise_append.mp pairs).2.1).1 d hd closed
  · intro before after his z₁ files k early
    obtain ⟨-, reflects₁⟩ := life_run law (run_of_exec early) rfl
    rcases reflects₁.file with hfile | ⟨-, -, before', file, after', hbefore, err⟩
    · exact hfile
    · rw [hbefore, List.append_assoc, List.cons_append] at his
      exact absurd err (harmless before' file _ his).1

/-- **The log is as it should be exactly when null names are harmless**, over every life of a
`Z_Assoc`. -/
theorem log_kept_iff (out : OdrEncode γ σ) (dec : OdrDecode γ) (law : out.Lawful)
    {is : List (ZLifeInput γ)} {s : ZLife σ} {h : List (ZCall γ)}
    (life : (zLife out dec).exec (.new out) (is ++ [.destroy]) = some (s, h)) :
    LogKept out dec is h ↔ NullsHarmless out dec is := by
  obtain ⟨t, z, k, first, hz, balance, reflects, rfl⟩ := life_end law life
  constructor
  · rintro kept before file after rfl
    refine ⟨kept.not_stderr law first, ?_⟩
    rintro ⟨n, hnamed⟩
    apply Classical.byContradiction
    intro never
    exact kept.not_dangling law first hz n ⟨before, file, after, rfl, hnamed,
      fun mid i rest hafter repoints => never ⟨mid, i, rest, hafter, repoints⟩⟩
  · exact logKept_of_harmless law balance reflects

/-! ## A `Close` that is logged -/

/-- A decoder for a `Close` with its reason. -/
def closeDec : OdrDecode ZClose where
  zGdu buf :=
    match buf with
    | [0xbf, 0x30, 0x05, 0x9f, 0x81, 0x53, 0x01, reason] => .ok { closeReason := some reason }
    | _ => .error { message := "bad choice", offset := 0, element := some "" }
  escaped buf := toString buf
  dumpBer buf := toString buf

/-- A name, no name, and another name. -/
def renamed : List (ZLifeInput ZClose) :=
  [.call (.setApduLog (some "apdu.log") (some (.opened 0))), .call (.setApduLog none none),
    .call (.setApduLog (some "more.log") (some (.opened 1)))]

/-- Each of the two files is closed once. -/
theorem log_kept_iff_renamed : ∃ s h,
    (zLife closeOdr closeDec).exec (.new closeOdr) (renamed ++ [.destroy]) = some (s, h) ∧
      LogKept closeOdr closeDec renamed h := by
  refine ⟨_, _, rfl, (log_kept_iff closeOdr closeDec closeOdr_lawful rfl).mpr ?_⟩
  intro before file after split
  rcases before with _ | ⟨first, _ | ⟨second, _ | ⟨third, before⟩⟩⟩
  · cases split
  · cases split
    exact ⟨by decide, fun _ => ⟨[], _, [], rfl, Option.some_ne_none _⟩⟩
  · cases split
  · have short := congrArg List.length split
    simp only [renamed, List.length_cons, List.length_append, List.length_nil] at short
    omega

/-- Without the second name, the file is closed by the null name and by the destructor. -/
theorem not_log_kept : ¬ ∀ is s h,
    (zLife closeOdr closeDec).exec (.new closeOdr) (is ++ [.destroy]) = some (s, h) →
      LogKept closeOdr closeDec is h := by
  intro all
  have kept := all (renamed.take 2) _ _ rfl
  have once := kept.once 0 ⟨.fopen "apdu.log" (some (.opened 0)), List.mem_cons_self, rfl⟩
  revert once
  decide

end Yazpp
