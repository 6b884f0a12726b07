import Yazpp.ZAssoc.Encode
import Yazpp.ZAssoc.Life

/-!
# What the calls of a `Z_Assoc` do to files

A call prints (`Printed`), or it closes a file and may open another one, or it is the end. What they
all keep is a balance: a file is opened once, and it is `APDU_file` or was closed once
(`Balance`). Over a whole life that leaves one way to close a file twice: the destructor closes what
`odr_print` prints to, and that need not be `APDU_file` (`countP_closes`).
-/

set_option autoImplicit false

namespace Yazpp

open Yazpp.Lib

variable {γ σ : Type}

namespace ZCall

/-- The stream was opened. -/
def opens (file : Nat) : ZCall γ → Bool
  | .fopen _ given => given = some (.opened file)
  | _ => false

/-- It was closed. -/
def closes (file : Nat) : ZCall γ → Bool
  | .fclose f => f = .opened file
  | _ => false

/-- Something was written to it. -/
def writes (file : Nat) : ZCall γ → Bool
  | .print dest _ => dest = some (.opened file)
  | .fprintf f _ => f = .opened file
  | .fflush f => f = .opened file
  | _ => false

/-- A piece of history with none of a kind does not count. -/
theorem countP_append_none {p : ZCall γ → Bool} {o : List (ZCall γ)} (none : ∀ c ∈ o, p c = false)
    (h : List (ZCall γ)) : (h ++ o).countP p = h.countP p := by
  have zero : o.countP p = 0 := List.countP_eq_zero.mpr fun c hc => Bool.eq_false_iff.mp (none c hc)
  rw [List.countP_append, zero, Nat.add_zero]

end ZCall

/-- The stream of a name, with what `fopen` gives for it. -/
def logStream (fname : String) (file : Option LogFile) : Option LogFile :=
  if fname = "-" then some .stderr else if fname = "" then none else file

/-! ## One call -/

/-- What is called where something is printed: nothing is opened or closed, and what is written goes
to the YAZ log, or to `file` and to where `odr_print` prints to when there is a file. -/
inductive Tame (file printTo : Option LogFile) : ZCall γ → Prop
  | yazLog (text : String) : Tame file printTo (.yazLog text)
  | setPrint (dest : Option LogFile) : Tame file printTo (.setPrint dest)
  | printYazLog (g : γ) : Tame file printTo (.print (some .yazLog) g)
  | dump (text : String) : Tame file printTo (.fprintf .yazLog text)
  | fprintf {f : LogFile} (text : String) : file = some f → Tame file printTo (.fprintf f text)
  | print (g : γ) : file ≠ none → Tame file printTo (.print printTo g)
  | fflush {f : LogFile} : file = some f → Tame file printTo (.fflush f)
  | sendPdu (buf : Buf) : Tame file printTo (.sendPdu buf)
  | encoded (ret : Int) (buf : Option Buf) : Tame file printTo (.encoded ret buf)

namespace Tame

variable {file printTo : Option LogFile} {c : ZCall γ}

theorem opens (tame : Tame file printTo c) (n : Nat) : c.opens n = false := by
  cases tame <;> rfl

theorem closes (tame : Tame file printTo c) (n : Nat) : c.closes n = false := by
  cases tame <;> rfl

/-- What is written is written to the file, when `odr_print` prints to it too. -/
theorem writes (tame : Tame file printTo c) (linked : file ≠ none → printTo = file) {n : Nat}
    (hwrites : c.writes n = true) : file = some (.opened n) := by
  cases tame with
  | yazLog => cases hwrites
  | setPrint => cases hwrites
  | printYazLog => cases hwrites
  | dump => cases hwrites
  | fprintf text hfile => exact hfile.trans (congrArg some (of_decide_eq_true hwrites))
  | print g hfile => exact (linked hfile).symm.trans (of_decide_eq_true hwrites)
  | fflush hfile => exact hfile.trans (congrArg some (of_decide_eq_true hwrites))
  | sendPdu => cases hwrites
  | encoded => cases hwrites

end Tame

/-- What a call that prints does to the log: `yaz` says whether it prints to the YAZ log. -/
structure Printed (yaz : Prop) (z z' : ZAssoc σ) (o : List (ZCall γ)) : Prop where
  file : z'.apduFile = z.apduFile
  yazlog : z'.apduYazlog = z.apduYazlog
  repointed : yaz → z'.printTo = z.apduFile
  kept : ¬ yaz → z'.printTo = z.printTo
  tame : ∀ c ∈ o, Tame z.apduFile z'.printTo c

namespace ZAssoc

/-- `encode_GDU` prints, to the YAZ log when it is on or the value did not encode. -/
theorem encodeGdu_printed (out : OdrEncode γ σ) (g : γ) (z : ZAssoc σ) :
    Printed (z.apduYazlog ≠ 0 ∨ (out.zGdu z.odrOut g).2 = false) z (z.encodeGdu out g).assoc
      (z.encodeGdu out g).calls := by
  have printTo : (z.encodeGdu out g).assoc.printTo =
      if z.apduYazlog ≠ 0 ∨ (out.zGdu z.odrOut g).2 = false then z.apduFile else z.printTo := by
    unfold encodeGdu
    cases (out.zGdu z.odrOut g).2 <;> rfl
  constructor
  · unfold encodeGdu
    cases (out.zGdu z.odrOut g).2 <;> rfl
  · unfold encodeGdu
    cases (out.zGdu z.odrOut g).2 <;> rfl
  · intro yaz
    rw [printTo, if_pos yaz]
  · intro yaz
    rw [printTo, if_neg yaz]
  · intro c hc
    rcases mem_encodeGdu_calls hc with ⟨_, rfl⟩ | ⟨_, rfl⟩ | rfl | ⟨f, hf, ⟨_, rfl⟩ | rfl | rfl⟩
    · exact .yazLog _
    · exact .setPrint _
    · exact .printYazLog g
    · exact .fprintf _ hf
    · exact .print g (hf ▸ Option.some_ne_none f)
    · exact .fflush hf

/-- So does `send_GDU`, which calls `send_PDU` besides. -/
theorem sendGdu_printed (out : OdrEncode γ σ) (g : γ) (res : Int) (z : ZAssoc σ) :
    Printed (z.apduYazlog ≠ 0 ∨ (out.zGdu z.odrOut g).2 = false) z (z.sendGdu out g res).assoc
      (z.sendGdu out g res).calls := by
  have printed := encodeGdu_printed out g z
  rw [sendGdu_assoc]
  refine { printed with tame := fun c hc => ?_ }
  simp only [sendGdu] at hc
  split at hc
  · split at hc
    · rcases List.mem_append.mp hc with hc | hc
      · exact printed.tame c hc
      · cases List.mem_singleton.mp hc
        exact .sendPdu _
    · exact printed.tame c hc
  · exact printed.tame c hc

/-- `decode_GDU` prints what it decoded, to the YAZ log when it is on. -/
theorem decodeGdu_printed (dec : OdrDecode γ) (buf : Buf) (z : ZAssoc σ) :
    Printed (z.apduYazlog ≠ 0 ∧ ∃ g, dec.zGdu buf = .ok g) z (z.decodeGdu dec buf).assoc
      (z.decodeGdu dec buf).calls := by
  unfold decodeGdu
  cases hdec : dec.zGdu buf with
  | error e =>
    refine
      { file := rfl
        yazlog := rfl
        repointed := fun ⟨_, g, hg⟩ => by cases hg
        kept := fun _ => rfl
        tame := fun c hc => ?_ }
    have report : (∃ text, c = .yazLog text) ∨ ∃ text, c = .fprintf .yazLog text := by
      unfold decodeReport at hc
      grind
    rcases report with ⟨text, rfl⟩ | ⟨text, rfl⟩
    · exact .yazLog text
    · exact .dump text
  | ok g =>
    refine
      { file := rfl
        yazlog := rfl
        repointed := fun yaz => if_pos yaz.1
        kept := fun yaz => if_neg fun on => yaz ⟨on, g, rfl⟩
        tame := fun c hc => ?_ }
    rcases List.mem_append.mp hc with hc | hc
    · split at hc
      · rcases List.mem_cons.mp hc with rfl | hc
        · exact .setPrint _
        · rcases List.mem_cons.mp hc with rfl | hc
          · exact .printYazLog g
          · cases List.mem_singleton.mp hc
            exact .setPrint _
      · cases hc
    · split at hc
      · cases hc
      · next f hf =>
        rcases List.mem_cons.mp hc with rfl | hc
        · exact .print g (hf ▸ Option.some_ne_none f)
        · cases List.mem_singleton.mp hc
          exact .fflush hf

/-- What is called to close a stream that `set_APDU_log` or `odr_destroy` finds. -/
def closing : Option LogFile → List (ZCall γ)
  | none => []
  | some .stderr => []
  | some f => [.fclose f]

theorem setApduLog_none (file : Option LogFile) (z : ZAssoc σ) :
    (z.setApduLog none file : ZAssoc σ × List (ZCall γ)) =
      ({ z with
          apduFile := if z.apduFile = some .stderr then some .stderr else none
          apduFname := none }, closing z.apduFile) := by
  unfold setApduLog closing
  rcases z.apduFile with _ | _ | _ | _ <;> rfl

theorem destroy_eq (z : ZAssoc σ) : (z.destroy : List (ZCall γ)) = closing z.printTo := by
  unfold destroy closing
  rcases z.printTo with _ | _ | _ | _ <;> rfl

/-- What is called to open one. -/
def opening (fname : String) (file : Option LogFile) : List (ZCall γ) :=
  if fname = "-" ∨ fname = "" then [] else [.fopen fname file]

theorem setApduLog_some (fname : String) (file : Option LogFile) (z : ZAssoc σ) :
    (z.setApduLog (some fname) file : ZAssoc σ × List (ZCall γ)) =
      ({ z with
          apduFile := logStream fname file
          apduFname := some fname
          printTo := logStream fname file },
        closing z.apduFile ++ opening fname file ++ [.setPrint (logStream fname file)]) := by
  unfold setApduLog closing logStream opening
  by_cases dash : fname = "-"
  · simp only [if_pos dash, if_pos (Or.inl dash)]
    rcases z.apduFile with _ | _ | _ | _ <;> rfl
  · by_cases empty : fname = ""
    · simp only [if_neg dash, if_pos empty, if_pos (Or.inr empty)]
      rcases z.apduFile with _ | _ | _ | _ <;> rfl
    · simp only [if_neg dash, if_neg empty, if_neg (not_or.mpr ⟨dash, empty⟩)]
      rcases z.apduFile with _ | _ | _ | _ <;> rfl

/-! ## What the calls do to files -/

theorem countP_closing (n : Nat) (file : Option LogFile) :
    (closing file : List (ZCall γ)).countP (ZCall.closes n) =
      if file = some (.opened n) then 1 else 0 := by
  rcases file with _ | _ | _ | m
  · rfl
  · rfl
  · rfl
  · simp only [closing, List.countP_singleton, ZCall.closes, Option.some.injEq, decide_eq_true_eq]

theorem countP_opening (n : Nat) (fname : String) (file : Option LogFile) :
    (opening fname file : List (ZCall γ)).countP (ZCall.opens n) =
      if logStream fname file = some (.opened n) then 1 else 0 := by
  unfold opening logStream
  by_cases dash : fname = "-"
  · simp only [if_pos dash, if_pos (Or.inl dash), List.countP_nil, Option.some.injEq, reduceCtorEq,
      if_false]
  · by_cases empty : fname = ""
    · simp only [if_neg dash, if_pos empty, if_pos (Or.inr empty), List.countP_nil, reduceCtorEq,
        if_false]
    · simp only [if_neg dash, if_neg empty, if_neg (not_or.mpr ⟨dash, empty⟩),
        List.countP_singleton, ZCall.opens, decide_eq_true_eq]

theorem opens_closing (n : Nat) {file : Option LogFile} {c : ZCall γ} (hc : c ∈ closing file) :
    c.opens n = false ∧ c.writes n = false := by
  rcases file with _ | _ | _ | m
  · cases hc
  · cases hc
  · cases List.mem_singleton.mp hc
    exact ⟨rfl, rfl⟩
  · cases List.mem_singleton.mp hc
    exact ⟨rfl, rfl⟩

theorem closes_opening (n : Nat) {fname : String} {file : Option LogFile} {c : ZCall γ}
    (hc : c ∈ opening fname file) : c.closes n = false ∧ c.writes n = false := by
  unfold opening at hc
  split at hc
  · cases hc
  · cases List.mem_singleton.mp hc
    exact ⟨rfl, rfl⟩

end ZAssoc

/-! ## The balance of a file -/

/-- **The balance**, kept by every call: a file is opened once, and it is `APDU_file` or was closed
once. `odr_print` prints to `APDU_file` when there is one, and to no file that was not opened. -/
structure Balance (z : ZAssoc σ) (files : List Nat) (h : List (ZCall γ)) : Prop where
  linked : z.apduFile ≠ none → z.printTo = z.apduFile
  given : ∀ n, (∃ c ∈ h, c.opens n = true) → n ∈ files
  balance : ∀ n, h.countP (ZCall.closes n) + (if z.apduFile = some (.opened n) then 1 else 0) =
    h.countP (ZCall.opens n)
  once : ∀ n, h.countP (ZCall.opens n) ≤ 1
  pointed : ∀ n, z.printTo = some (.opened n) → ∃ c ∈ h, c.opens n = true
  silent : ∀ n, h.Pairwise fun c d => c.closes n = true → d.writes n = false

namespace Balance

variable {z z' : ZAssoc σ} {files files' : List Nat} {h o : List (ZCall γ)}

theorem new (out : OdrEncode γ σ) : Balance (γ := γ) (ZAssoc.new out) [] [] where
  linked file := absurd rfl file
  given n := fun ⟨c, hc, _⟩ => absurd hc List.not_mem_nil
  balance _ := rfl
  once _ := Nat.zero_le 1
  pointed n hto := by cases hto
  silent _ := List.Pairwise.nil

/-- A file that is `APDU_file` has not been closed. -/
theorem open_of_file (old : Balance z files h) {n : Nat} (file : z.apduFile = some (.opened n)) :
    ∀ c ∈ h, c.closes n = false := by
  have balance := old.balance n
  have once := old.once n
  rw [if_pos file] at balance
  have none : h.countP (ZCall.closes n) = 0 := by omega
  intro c hc
  exact Bool.eq_false_iff.mpr (List.countP_eq_zero.mp none c hc)

/-- The balance behind a call that prints. -/
theorem printed (old : Balance z files h) {yaz : Prop} (prints : Printed yaz z z' o) :
    Balance z' files (h ++ o) := by
  have dest : z'.printTo = z.printTo ∨ z'.printTo = z.apduFile := by
    by_cases hyaz : yaz
    · exact .inr (prints.repointed hyaz)
    · exact .inl (prints.kept hyaz)
  have linked : z.apduFile ≠ none → z'.printTo = z.apduFile := by
    intro file
    rcases dest with dest | dest
    · exact dest.trans (old.linked file)
    · exact dest
  have opens : ∀ n, (h ++ o).countP (ZCall.opens n) = h.countP (ZCall.opens n) := fun n =>
    ZCall.countP_append_none (fun c hc => (prints.tame c hc).opens n) h
  have closes : ∀ n, (h ++ o).countP (ZCall.closes n) = h.countP (ZCall.closes n) := fun n =>
    ZCall.countP_append_none (fun c hc => (prints.tame c hc).closes n) h
  constructor
  · rw [prints.file]
    exact linked
  · rintro n ⟨c, hc, hopens⟩
    rcases List.mem_append.mp hc with hc | hc
    · exact old.given n ⟨c, hc, hopens⟩
    · cases ((prints.tame c hc).opens n).symm.trans hopens
  · intro n
    rw [opens, closes, prints.file]
    exact old.balance n
  · intro n
    rw [opens]
    exact old.once n
  · intro n hto
    have before : ∃ c ∈ h, c.opens n = true := by
      rcases dest with dest | dest
      · exact old.pointed n (dest.symm.trans hto)
      · have file : z.apduFile = some (.opened n) := dest.symm.trans hto
        exact old.pointed n ((old.linked (file ▸ Option.some_ne_none _)).trans file)
    obtain ⟨c, hc, hopens⟩ := before
    exact ⟨c, List.mem_append_left _ hc, hopens⟩
  · -- what is written now is written to `APDU_file`, which has not been closed
    intro n
    refine List.pairwise_append.mpr ⟨old.silent n, ?_, ?_⟩
    · apply List.pairwise_of_forall_mem_list
      intro c hc d _ closed
      cases ((prints.tame c hc).closes n).symm.trans closed
    · intro c hc d hd closed
      apply Bool.eq_false_iff.mpr
      intro hwrites
      have file := (prints.tame d hd).writes linked hwrites
      cases (old.open_of_file file c hc).symm.trans closed

/-- What was given before stays given. -/
theorem give_subset {file : Option LogFile} (give : ZLife.give files file = some files') :
    files ⊆ files' := by
  rcases file with _ | _ | _ | m
  · cases give
    exact List.Subset.refl files
  · cases give
  · cases give
  · simp only [ZLife.give] at give
    split at give
    · cases give
    · cases give
      exact List.subset_append_left files [m]

/-- What is given for a name was not given before. -/
theorem give_fresh {fname : String} {file : Option LogFile}
    (give : ZLife.give files file = some files') {n : Nat}
    (stream : logStream fname file = some (.opened n)) : n ∉ files ∧ n ∈ files' := by
  have hfile : file = some (.opened n) := by
    unfold logStream at stream
    grind
  subst hfile
  simp only [ZLife.give] at give
  split at give
  · cases give
  · next new =>
    cases give
    exact ⟨new, List.mem_append_right _ (List.mem_singleton_self n)⟩

/-- A piece of history that writes nothing. -/
theorem silent_append (old : Balance z files h) (n : Nat) (quiet : ∀ d ∈ o, d.writes n = false) :
    (h ++ o).Pairwise fun c d => c.closes n = true → d.writes n = false := by
  refine List.pairwise_append.mpr ⟨old.silent n, ?_, fun c _ d hd _ => quiet d hd⟩
  apply List.pairwise_of_forall_mem_list
  intro c _ d hd _
  exact quiet d hd

/-- The balance behind a null name: the file is closed, but for `stderr`; `odr_print` keeps it. -/
theorem setApduLog_none (old : Balance z files h) {file : Option LogFile}
    (give : ZLife.give files file = some files') :
    Balance (z.setApduLog (γ := γ) none file).1 files' (h ++ (z.setApduLog none file).2) := by
  rw [ZAssoc.setApduLog_none]
  have opens : ∀ n, (h ++ ZAssoc.closing z.apduFile).countP (ZCall.opens n) =
      h.countP (ZCall.opens n) := fun n =>
    ZCall.countP_append_none (fun c hc => (ZAssoc.opens_closing n hc).1) h
  constructor
  · intro left
    dsimp only at left ⊢
    by_cases err : z.apduFile = some .stderr
    · rw [if_pos err, old.linked (err ▸ Option.some_ne_none _), err]
    · rw [if_neg err] at left
      exact absurd rfl left
  · rintro n ⟨c, hc, hopens⟩
    rcases List.mem_append.mp hc with hc | hc
    · exact give_subset give (old.given n ⟨c, hc, hopens⟩)
    · cases (ZAssoc.opens_closing n hc).1.symm.trans hopens
  · intro n
    have balance := old.balance n
    have closed : ¬ (if z.apduFile = some .stderr then some LogFile.stderr else none) =
        some (.opened n) := by split <;> nofun
    rw [opens, List.countP_append, ZAssoc.countP_closing, if_neg closed]
    omega
  · intro n
    rw [opens]
    exact old.once n
  · intro n hto
    obtain ⟨c, hc, hopens⟩ := old.pointed n hto
    exact ⟨c, List.mem_append_left _ hc, hopens⟩
  · exact fun n => old.silent_append n fun d hd => (ZAssoc.opens_closing n hd).2

/-- The balance behind a name: the file before is closed, and the new one is opened for the first
time. -/
theorem setApduLog_some (old : Balance z files h) (fname : String) {file : Option LogFile}
    (give : ZLife.give files file = some files') :
    Balance (z.setApduLog (γ := γ) (some fname) file).1 files'
      (h ++ (z.setApduLog (some fname) file).2) := by
  rw [ZAssoc.setApduLog_some]
  have fresh : ∀ n, logStream fname file = some (.opened n) → n ∉ files ∧ n ∈ files' :=
    fun n => give_fresh give
  have opens : ∀ n, (h ++ (ZAssoc.closing z.apduFile ++ ZAssoc.opening fname file ++
      [ZCall.setPrint (logStream fname file)])).countP (ZCall.opens n) =
      h.countP (ZCall.opens n) + if logStream fname file = some (.opened n) then 1 else 0 := by
    intro n
    have before := ZCall.countP_append_none (fun c hc => (ZAssoc.opens_closing n hc).1) h
      (o := ZAssoc.closing z.apduFile)
    have print := ZCall.countP_append_none (p := ZCall.opens n)
      (o := [.setPrint (logStream fname file)]) (List.forall_mem_singleton.mpr rfl)
      (h ++ (ZAssoc.closing z.apduFile ++ ZAssoc.opening fname file))
    rw [← List.append_assoc, print, ← List.append_assoc, List.countP_append, before,
      ZAssoc.countP_opening]
  have unopened : ∀ n, logStream fname file = some (.opened n) → h.countP (ZCall.opens n) = 0 := by
    intro n stream
    refine List.countP_eq_zero.mpr fun c hc hopens => ?_
    exact (fresh n stream).1 (old.given n ⟨c, hc, hopens⟩)
  constructor
  · exact fun _ => rfl
  · rintro n ⟨c, hc, hopens⟩
    have counted : 0 < (h ++ _).countP (ZCall.opens n) := List.countP_pos_iff.mpr ⟨c, hc, hopens⟩
    rw [opens] at counted
    by_cases stream : logStream fname file = some (.opened n)
    · exact (fresh n stream).2
    · rw [if_neg stream] at counted
      exact give_subset give (old.given n (List.countP_pos_iff.mp counted))
  · intro n
    have balance := old.balance n
    have print := ZCall.countP_append_none (p := ZCall.closes n)
      (o := [.setPrint (logStream fname file)]) (List.forall_mem_singleton.mpr rfl)
      (h ++ (ZAssoc.closing z.apduFile ++ ZAssoc.opening fname file))
    have behind := ZCall.countP_append_none (fun c hc => (ZAssoc.closes_opening n hc).1)
      (h ++ ZAssoc.closing z.apduFile) (o := ZAssoc.opening fname file)
    rw [opens, ← List.append_assoc, print, ← List.append_assoc, behind, List.countP_append,
      ZAssoc.countP_closing]
    change _ + (if logStream fname file = some (.opened n) then 1 else 0) = _
    omega
  · intro n
    rw [opens]
    by_cases stream : logStream fname file = some (.opened n)
    · have none := unopened n stream
      rw [if_pos stream]
      omega
    · rw [if_neg stream]
      exact old.once n
  · intro n hto
    refine List.countP_pos_iff.mp ?_
    rw [opens, if_pos hto]
    exact Nat.succ_pos _
  · intro n
    apply old.silent_append n
    intro d hd
    rcases List.mem_append.mp hd with hd | hd
    · rcases List.mem_append.mp hd with hd | hd
      · exact (ZAssoc.opens_closing n hd).2
      · exact (ZAssoc.closes_opening n hd).2
    · cases List.mem_singleton.mp hd
      rfl

end Balance

/-- Over a whole life a file that was opened is closed once, and once more when it dangles. -/
theorem countP_closes {z : ZAssoc σ} {files : List Nat} {h : List (ZCall γ)}
    (balance : Balance z files h) {n : Nat} (opened : ∃ c ∈ h, c.opens n = true) :
    (h ++ ZAssoc.closing z.printTo).countP (ZCall.closes n) =
      if z.printTo = some (.opened n) ∧ z.apduFile ≠ some (.opened n) then 2 else 1 := by
  have total := balance.balance n
  have once := balance.once n
  have counted : 0 < h.countP (ZCall.opens n) := List.countP_pos_iff.mpr opened
  rw [List.countP_append, ZAssoc.countP_closing]
  by_cases file : z.apduFile = some (.opened n)
  · have dest := (balance.linked (file ▸ Option.some_ne_none _)).trans file
    rw [if_pos file] at total
    rw [if_pos dest, if_neg fun ⟨_, other⟩ => other file]
    omega
  · rw [if_neg file] at total
    by_cases dest : z.printTo = some (.opened n)
    · rw [if_pos dest, if_pos ⟨dest, file⟩]
      omega
    · rw [if_neg dest, if_neg fun ⟨same, _⟩ => dest same]
      omega

end Yazpp
