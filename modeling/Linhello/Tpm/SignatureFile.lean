import Linhello.Tpm.FileSteps
import Linhello.Tpm.Recovery
import Linhello.Tpm.Simulated
/-!
# The signature file among concurrent calls

`persist_host_signature` reads the signature file, writes the new one under one fixed
temporary name and renames it into place, without a lock. The log tells which calls are
between opening the temporary file and renaming it, and what each has missed since it
last read. Under a rule about these two no entry is lost.
-/

namespace Linhello.Tpm.Signing

open Common Effect Host

variable {ι : Type} [DecidableEq ι] {P : Platform}

/-! ## What the log says -/

def opensTmp : Op → Bool
  | .writeFile .signaturesTmp _ => true
  | _ => false

structure Watch (ι : Type) where
  /-- It has opened the temporary file and not renamed it. -/
  writing : ι → Prop
  /-- Since it last read the signature file, another call has replaced that. -/
  stale : ι → Prop

namespace Watch

def start : Watch ι := ⟨fun _ => False, fun _ => False⟩

def observe (s : Watch ι) (i : ι) (e : Event tpm) : Watch ι where
  writing j :=
    if j = i then opensTmp e.1 = true ∨ e.1 ≠ .renameSignatures ∧ s.writing i else s.writing j
  stale j :=
    if j = i then e.1 ≠ .readFile .signatures ∧ s.stale i
    else e.1 = .renameSignatures ∨ s.stale j

end Watch

def watch (log : Log tpm ι) : Watch ι :=
  log.foldl (fun s e => s.observe e.1 e.2) Watch.start

section Facts

variable {log : Log tpm ι} {i j : ι} {e : Event tpm}

theorem watch_snoc : watch (log ++ [(i, e)]) = (watch log).observe i e := by
  rw [watch, List.foldl_append]
  rfl

theorem writing_self : (watch (log ++ [(i, e)])).writing i ↔
    opensTmp e.1 = true ∨ e.1 ≠ .renameSignatures ∧ (watch log).writing i := by
  rw [watch_snoc]
  exact iff_of_eq (if_pos rfl)

theorem writing_other (h : j ≠ i) :
    (watch (log ++ [(i, e)])).writing j ↔ (watch log).writing j := by
  rw [watch_snoc]
  exact iff_of_eq (if_neg h)

theorem stale_self : (watch (log ++ [(i, e)])).stale i ↔
    e.1 ≠ .readFile .signatures ∧ (watch log).stale i := by
  rw [watch_snoc]
  exact iff_of_eq (if_pos rfl)

theorem stale_other (h : j ≠ i) : (watch (log ++ [(i, e)])).stale j ↔
    e.1 = .renameSignatures ∨ (watch log).stale j := by
  rw [watch_snoc]
  exact iff_of_eq (if_neg h)

end Facts

/-- A call opens the temporary file only while no other call is writing it and nobody
has replaced the signature file since the call last read that. -/
structure Exclusive (m : Machine) (log : Log tpm ι) (i : ι) (e : Event tpm) : Prop where
  opens : opensTmp e.1 = true → ¬ (watch log).writing i →
    (∀ j, j ≠ i → ¬ (watch log).writing j) ∧ ¬ (watch log).stale i

/-! ### Deciding the rule on a log -/

def renames : Op → Bool
  | .renameSignatures => true
  | _ => false

def readsSignatures : Op → Bool
  | .readFile .signatures => true
  | _ => false

theorem renames_iff {o : Op} : renames o = true ↔ o = .renameSignatures := by
  cases o <;> simp [renames]

theorem readsSignatures_iff {o : Op} : readsSignatures o = true ↔ o = .readFile .signatures := by
  cases o with
  | readFile a => cases a <;> simp [readsSignatures]
  | _ => simp [readsSignatures]

instance decidableRenames (o : Op) : Decidable (o = .renameSignatures) :=
  decidable_of_iff _ renames_iff

instance decidableReadsSignatures (o : Op) : Decidable (o = .readFile .signatures) :=
  decidable_of_iff _ readsSignatures_iff

/-- A watch of which every part can be evaluated. -/
abbrev Watch.Decided (s : Watch ι) := (j : ι) → Decidable (s.writing j) × Decidable (s.stale j)

def Watch.Decided.observe {s : Watch ι} (d : s.Decided) (i : ι) (e : Event tpm) :
    (s.observe i e).Decided := fun j =>
  haveI := (d i).1
  haveI := (d j).1
  haveI := (d i).2
  haveI := (d j).2
  haveI := decidableRenames e.1
  haveI := decidableReadsSignatures e.1
  (inferInstanceAs (Decidable (if j = i then
      opensTmp e.1 = true ∨ e.1 ≠ .renameSignatures ∧ s.writing i else s.writing j)),
    inferInstanceAs (Decidable (if j = i then e.1 ≠ .readFile .signatures ∧ s.stale i
      else e.1 = .renameSignatures ∨ s.stale j)))

def decidedFrom : (log : Log tpm ι) → {s : Watch ι} → s.Decided →
    (log.foldl (fun s e => s.observe e.1 e.2) s).Decided
  | [], _, d => d
  | e :: log, _, d => decidedFrom log (d.observe e.1 e.2)

def decidedWatch (log : Log tpm ι) : (watch log).Decided :=
  decidedFrom log fun _ => (instDecidableFalse, instDecidableFalse)

instance (m : Machine) (log : Log tpm Bool) (i : Bool) (e : Event tpm) :
    Decidable (Exclusive m log i e) :=
  haveI := fun j => (decidedWatch log j).1
  haveI := fun j => (decidedWatch log j).2
  decidable_of_iff (opensTmp e.1 = true → ¬ (watch log).writing i →
    (∀ j, j ≠ i → ¬ (watch log).writing j) ∧ ¬ (watch log).stale i)
    ⟨fun h => ⟨h⟩, fun h => h.opens⟩

/-! ## Entries -/

def Parses (file : Option (Json Banks)) : Prop :=
  file = none ∨ ∃ banks, file = some (.value banks)

/-- What a reader makes of the file when anything unreadable counts as empty. -/
def existingOf : Option (Json Banks) → Banks
  | some (.value banks) => banks
  | _ => ∅

def bankOf (file : Option (Json Banks)) (bank : String) : List RawEntry :=
  ((existingOf file).lookup bank).getD []

def HasEntry (file : Option (Json Banks)) (bank : String) (pcrs : List Nat) (pol : Bytes) : Prop :=
  ∃ e ∈ bankOf file bank, e.pcrs = pcrs ∧ fromHex e.pol = .ok pol

theorem mem_addEntry_of_mem {banks : Banks} {bank b : String} {entry e : RawEntry}
    (h : e ∈ (banks.lookup b).getD []) : e ∈ ((addEntry banks bank entry).lookup b).getD [] := by
  unfold addEntry
  dsimp only
  by_cases hb : b = bank
  · subst hb
    split
    · rw [AList.lookup_insert]
      exact h
    · rw [AList.lookup_insert]
      exact List.mem_append_left _ h
  · split
    · rwa [AList.lookup_insert_ne hb]
    · rwa [AList.lookup_insert_ne hb]

theorem addEntry_has (banks : Banks) (bank : String) (entry : RawEntry) :
    ∃ e ∈ ((addEntry banks bank entry).lookup bank).getD [],
      e.pol = entry.pol ∧ e.pcrs = entry.pcrs := by
  unfold addEntry
  dsimp only
  split
  · rename_i hany
    obtain ⟨e, he, hmatch⟩ := List.any_eq_true.1 hany
    rw [decide_eq_true_eq] at hmatch
    rw [AList.lookup_insert]
    exact ⟨e, he, hmatch⟩
  · rw [AList.lookup_insert]
    exact ⟨entry, List.mem_append_right _ List.mem_cons_self, rfl, rfl⟩

/-! ## What each call promises -/

abbrev signatures (x : Machine × Log tpm ι) : Option (Json Banks) := x.1.sys.file .signatures

abbrev temporary (x : Machine × Log tpm ι) : Option (Json Banks) := x.1.sys.file .signaturesTmp

structure Sound (x : Machine × Log tpm ι) : Prop where
  parses : Parses (signatures x)
  single : ∀ j k, (watch x.2).writing j → (watch x.2).writing k → j = k

structure SignPromise (i : ι) (x y : Machine × Log tpm ι) : Prop where
  event : ∃ e, y.2 = x.2 ++ [(i, e)]
  sound : Sound x → Sound y
  grows : Sound x → ∀ bank e, e ∈ bankOf (signatures x) bank → e ∈ bankOf (signatures y) bank
  /-- While another call writes the temporary file, both files are left alone. -/
  held : Sound x → (∃ j, j ≠ i ∧ (watch x.2).writing j) →
    signatures y = signatures x ∧ temporary y = temporary x
  /-- A call that has missed nothing sees the file as it was. -/
  fresh : Sound x → ∀ j, j ≠ i → ¬ (watch y.2).stale j →
    ¬ (watch x.2).stale j ∧ signatures y = signatures x

inductive Point
  | idle
  | hasRead (existing : Banks)
  | opened (existing : Banks)
  | wrote (existing banks : Banks)
  | recorded (bank : String) (pcrs : List Nat) (pol : Bytes)

def Point.Holds (i : ι) : Point → Machine × Log tpm ι → Prop
  | .idle, x => ¬ (watch x.2).writing i
  | .hasRead existing, x => ¬ (watch x.2).writing i ∧
      (¬ (watch x.2).stale i → existingOf (signatures x) = existing)
  | .opened existing, x => (watch x.2).writing i ∧ existingOf (signatures x) = existing
  | .wrote existing banks, x => (watch x.2).writing i ∧
      existingOf (signatures x) = existing ∧ temporary x = some (.value banks)
  | .recorded bank pcrs pol, x => ¬ (watch x.2).writing i ∧ HasEntry (signatures x) bank pcrs pol

structure Stands (i : ι) (p : Point) (x : Machine × Log tpm ι) : Prop where
  sound : Sound x
  holds : p.Holds i x

variable {i : ι} {p : Point} {x y : Machine × Log tpm ι}

theorem stable_stands : Stable SignPromise i (Stands i p) := by
  rintro x y hx ⟨j, hji, hG⟩
  obtain ⟨e, hlog⟩ := hG.event
  have hwriting : (watch y.2).writing i ↔ (watch x.2).writing i := by
    rw [hlog]
    exact writing_other hji.symm
  have hheld : (watch x.2).writing i →
      signatures y = signatures x ∧ temporary y = temporary x := fun h =>
    hG.held hx.sound ⟨i, hji.symm, h⟩
  have hholds := hx.holds
  refine ⟨hG.sound hx.sound, ?_⟩
  cases p with
  | idle => exact fun h => hholds (hwriting.1 h)
  | hasRead existing =>
      refine ⟨fun h => hholds.1 (hwriting.1 h), fun hfresh => ?_⟩
      obtain ⟨hfresh', hsame⟩ := hG.fresh hx.sound i hji.symm hfresh
      rw [hsame]
      exact hholds.2 hfresh'
  | opened existing =>
      refine ⟨hwriting.2 hholds.1, ?_⟩
      rw [(hheld hholds.1).1]
      exact hholds.2
  | wrote existing banks =>
      obtain ⟨hsigs, htmp⟩ := hheld hholds.1
      refine ⟨hwriting.2 hholds.1, ?_, ?_⟩
      · rw [hsigs]
        exact hholds.2.1
      · rw [htmp]
        exact hholds.2.2
  | recorded bank pcrs pol =>
      obtain ⟨e, he, hentry⟩ := hholds.2
      exact ⟨fun h => hholds.1 (hwriting.1 h), e, hG.grows hx.sound bank e he, hentry⟩

/-! ## Steps that leave the files alone -/

/-- The operation neither writes nor renames a signature file. -/
def leaves : Op → Bool
  | .writeFile .signatures _ | .writeFile .signaturesTmp _ | .renameSignatures => false
  | _ => true

structure Unmoved (i : ι) (x y : Machine × Log tpm ι) : Prop where
  event : ∃ e, y.2 = x.2 ++ [(i, e)]
  signatures : signatures y = signatures x
  temporary : temporary y = temporary x
  writing : ∀ j, (watch y.2).writing j ↔ (watch x.2).writing j
  stale : ∀ j, j ≠ i → ((watch y.2).stale j ↔ (watch x.2).stale j)

theorem Unmoved.promise (h : Unmoved i x y) : SignPromise i x y where
  event := h.event
  sound hx := by
    refine ⟨?_, fun j k hj hk => hx.single j k ((h.writing j).1 hj) ((h.writing k).1 hk)⟩
    rw [h.signatures]
    exact hx.parses
  grows _ bank e he := by rwa [h.signatures]
  held _ _ := ⟨h.signatures, h.temporary⟩
  fresh _ j hj hfresh := ⟨fun hstale => hfresh ((h.stale j hj).2 hstale), h.signatures⟩

/-- A step of one's own, which may also be a new look at the signature file. -/
theorem Stands.unmoved (hx : Stands i p x) (h : Unmoved i x y)
    (hstale : (watch x.2).stale i → (watch y.2).stale i) : Stands i p y := by
  have hholds := hx.holds
  refine ⟨h.promise.sound hx.sound, ?_⟩
  cases p with
  | idle => exact fun hw => hholds ((h.writing i).1 hw)
  | hasRead existing =>
      refine ⟨fun hw => hholds.1 ((h.writing i).1 hw), fun hfresh => ?_⟩
      rw [h.signatures]
      exact hholds.2 fun hs => hfresh (hstale hs)
  | opened existing =>
      refine ⟨(h.writing i).2 hholds.1, ?_⟩
      rw [h.signatures]
      exact hholds.2
  | wrote existing banks =>
      refine ⟨(h.writing i).2 hholds.1, ?_, ?_⟩
      · rw [h.signatures]
        exact hholds.2.1
      · rw [h.temporary]
        exact hholds.2.2
  | recorded bank pcrs pol =>
      refine ⟨fun hw => hholds.1 ((h.writing i).1 hw), ?_⟩
      rw [h.signatures]
      exact hholds.2

/-- The steps of calls under the rule, without faults. -/
abbrev signSteps (P : Platform) : ThreadSemantics tpm ι (Machine × Log tpm ι) :=
  logged (Step P False) Exclusive

theorem unmoved_step {o : Op} {r : o.Ans} (ho : leaves o = true) (hS : signSteps P i x o r y) :
    Unmoved i x y ∧ (o ≠ .readFile .signatures → (watch x.2).stale i → (watch y.2).stale i) := by
  obtain ⟨hstep, hlog, -⟩ := hS
  have hkeeps : o.mayWrite .signatures = false ∧ o.mayWrite .signaturesTmp = false ∧
      opensTmp o = false ∧ o ≠ .renameSignatures := by
    cases o with
    | writeFile a d =>
        cases a with
        | signatures => cases ho
        | signaturesTmp => cases ho
        | _ => exact ⟨rfl, rfl, rfl, fun h => by cases h⟩
    | renameSignatures => cases ho
    | _ => exact ⟨rfl, rfl, rfl, fun h => by cases h⟩
  obtain ⟨hsigs, htmp, hopens, hrename⟩ := hkeeps
  refine ⟨⟨⟨_, hlog⟩, step_file hstep hsigs, step_file hstep htmp, fun j => ?_, fun j hj => ?_⟩,
    fun hread hstale => ?_⟩
  · rw [hlog]
    by_cases hj : j = i
    · subst hj
      rw [writing_self]
      simp [hopens, hrename]
    · exact writing_other hj
  · rw [hlog, stale_other hj]
    simp [hrename]
  · rw [hlog, stale_self]
    exact ⟨hread, hstale⟩

theorem promises_unmoved {α : Type} {q : Proc α}
    (hq : q.Only fun o : Op => leaves o = true ∧ o ≠ .readFile .signatures) :
    Promises (signSteps P) SignPromise i (Stands i p) q fun _ => Stands i p := by
  refine Promises.only hq stable_stands fun x o r y ho hx hS => ?_
  obtain ⟨h, hstale⟩ := unmoved_step ho.1 hS
  exact ⟨h.promise, hx.unmoved h (hstale ho.2)⟩

/-- Before it has read the file to replace it, a call may read it for other ends. -/
theorem promises_idle {α : Type} {q : Proc α} (hq : q.Only fun o : Op => leaves o = true) :
    Promises (signSteps P) SignPromise i (Stands i .idle) q fun _ => Stands i .idle := by
  refine Promises.only hq stable_stands fun x o r y ho hx hS => ?_
  obtain ⟨h, -⟩ := unmoved_step ho hS
  exact ⟨h.promise, h.promise.sound hx.sound, fun hw => hx.holds ((h.writing i).1 hw)⟩

theorem leaves_of_quiet {o : Op} (h : o.Quiet) : leaves o = true := by
  cases o with
  | writeFile a d =>
      have hwrites := h.1 a
      simp [Op.mayWrite] at hwrites
  | renameSignatures =>
      have hwrites := h.1 .signatures
      simp [Op.mayWrite] at hwrites
  | _ => rfl

/-! ## Steps on the files -/

section Steps

variable {existing banks : Banks} {r : Except IoError Unit}

theorem read_signatures {r : Except IoError (Json Banks)} (hx : Stands i .idle x)
    (hS : signSteps P i x (.readFile .signatures) r y) :
    SignPromise i x y ∧ Stands i (.hasRead (existingOf r.toOption)) y := by
  obtain ⟨h, -⟩ := unmoved_step (o := .readFile .signatures) rfl hS
  obtain ⟨-, hr⟩ := step_readFile hS.1
  refine ⟨h.promise, h.promise.sound hx.sound, fun hw => hx.holds ((h.writing i).1 hw), fun _ => ?_⟩
  rw [h.signatures, hr]
  cases hfile : x.1.sys.file .signatures with
  | none =>
      rw [show signatures x = none from hfile]
      rfl
  | some d =>
      rw [show signatures x = some d from hfile]
      rfl

private theorem files_setTmp {m : Machine} {d : Json Banks} :
    (m.setFile .signaturesTmp (some d)).sys.file .signatures = m.sys.file .signatures :=
  setFile_file_of_ne (by decide)

theorem write_tmp {d : Json Banks} (hx : Sound x) (halone : ∀ j, j ≠ i → ¬ (watch x.2).writing j)
    (hS : signSteps P i x (.writeFile .signaturesTmp d) r y) :
    r = .ok () ∧ SignPromise i x y ∧ Sound y ∧ (watch y.2).writing i ∧
      signatures y = signatures x ∧ temporary y = some d := by
  obtain ⟨hr, hy⟩ := step_writeFile hS.1
  have hlog : y.2 = x.2 ++ [(i, ⟨.writeFile .signaturesTmp d, r⟩)] := hS.2.1
  have hsigs : signatures y = signatures x := by
    show y.1.sys.file .signatures = _
    rw [hy]
    exact files_setTmp
  have hwriting : (watch y.2).writing i := by
    rw [hlog]
    exact writing_self.2 (.inl rfl)
  have hothers : ∀ j, j ≠ i → ¬ (watch y.2).writing j := by
    intro j hj hw
    rw [hlog] at hw
    exact halone j hj ((writing_other hj).1 hw)
  have hone : ∀ j, (watch y.2).writing j → j = i := by
    intro j hw
    by_contra hj
    exact hothers j hj hw
  have hsound : Sound y := by
    refine ⟨?_, fun j k hj hk => (hone j hj).trans (hone k hk).symm⟩
    rw [hsigs]
    exact hx.parses
  refine ⟨hr, ⟨⟨_, hlog⟩, fun _ => hsound, fun _ bank e he => by rwa [hsigs], ?_, ?_⟩, hsound,
    hwriting, hsigs, ?_⟩
  · rintro - ⟨j, hj, hw⟩
    exact absurd hw (halone j hj)
  · intro _ j hj hfresh
    refine ⟨fun hstale => hfresh ?_, hsigs⟩
    rw [hlog]
    exact (stale_other hj).2 (.inr hstale)
  · show y.1.sys.file .signaturesTmp = _
    rw [hy]
    exact setFile_file_self

theorem open_tmp {d : Json Banks} (hx : Stands i (.hasRead existing) x)
    (hS : signSteps P i x (.writeFile .signaturesTmp d) r y) :
    r = .ok () ∧ SignPromise i x y ∧ Stands i (.opened existing) y := by
  obtain ⟨hidle, hread⟩ := hx.holds
  obtain ⟨halone, hfresh⟩ := hS.2.2.opens rfl hidle
  obtain ⟨hr, hG, hsound, hwriting, hsigs, -⟩ := write_tmp hx.sound halone hS
  refine ⟨hr, hG, hsound, hwriting, ?_⟩
  rw [hsigs]
  exact hread hfresh

theorem fill_tmp (hx : Stands i (.opened existing) x)
    (hS : signSteps P i x (.writeFile .signaturesTmp (.value banks)) r y) :
    r = .ok () ∧ SignPromise i x y ∧ Stands i (.wrote existing banks) y := by
  obtain ⟨hw, hread⟩ := hx.holds
  have halone : ∀ j, j ≠ i → ¬ (watch x.2).writing j := fun j hj hwj =>
    hj (hx.sound.single j i hwj hw)
  obtain ⟨hr, hG, hsound, hwriting, hsigs, htmp⟩ := write_tmp hx.sound halone hS
  refine ⟨hr, hG, hsound, hwriting, ?_, htmp⟩
  rw [hsigs]
  exact hread

theorem replace_signatures {bank : String} {entry : RawEntry} {pol : Bytes}
    (hx : Stands i (.wrote existing (addEntry existing bank entry)) x)
    (hS : signSteps P i x .renameSignatures r y) (hpol : fromHex entry.pol = .ok pol) :
    SignPromise i x y ∧ Stands i (.recorded bank entry.pcrs pol) y := by
  obtain ⟨hw, hread, htmp⟩ := hx.holds
  have hlog : y.2 = x.2 ++ [(i, ⟨.renameSignatures, r⟩)] := hS.2.1
  have hsigs : signatures y = some (.value (addEntry existing bank entry)) := by
    obtain ⟨ch, hr⟩ | ⟨hfalse, -⟩ := hS.1
    · rw [respond, show x.1.sys.file .signaturesTmp = _ from htmp] at hr
      show y.1.sys.file .signatures = _
      rw [(Prod.mk.inj hr).2]
      exact (setFile_file_of_ne (by decide)).trans setFile_file_self
    · exact hfalse.elim
  have halone : ∀ j, j ≠ i → ¬ (watch x.2).writing j := fun j hj hwj =>
    hj (hx.sound.single j i hwj hw)
  have hnone : ∀ j, ¬ (watch y.2).writing j := by
    intro j hwj
    rw [hlog] at hwj
    by_cases hj : j = i
    · subst hj
      rcases writing_self.1 hwj with h | h
      · cases h
      · exact h.1 rfl
    · exact halone j hj ((writing_other hj).1 hwj)
  have hsound : Sound y := by
    refine ⟨?_, fun j _ hj => absurd hj (hnone j)⟩
    rw [hsigs]
    exact .inr ⟨_, rfl⟩
  refine ⟨⟨⟨_, hlog⟩, fun _ => hsound, ?_, ?_, ?_⟩, hsound, hnone i, ?_⟩
  · intro _ b e he
    rw [hsigs]
    refine mem_addEntry_of_mem ?_
    rwa [← hread]
  · rintro - ⟨j, hj, hwj⟩
    exact absurd hwj (halone j hj)
  · intro _ j hj hfresh
    refine absurd ?_ hfresh
    rw [hlog]
    exact (stale_other hj).2 (.inl rfl)
  · obtain ⟨e, he, hepol, hepcrs⟩ := addEntry_has existing bank entry
    rw [hsigs]
    exact ⟨e, he, hepcrs, by rw [hepol]; exact hpol⟩

end Steps

/-! ## The calls -/

theorem readText_leaves {a : Artifact} {as : a.Data → Option String} (ha : a ≠ .signatures) :
    (readText a as).run.Only fun o : Op => leaves o = true ∧ o ≠ .readFile .signatures := by
  refine only_exceptT_bind (only_attempt (only_perform ⟨rfl, fun h => ha ?_⟩)) fun d => ?_
  · injection h
  · cases as d with
    | none => exact only_exceptT_throw
    | some text => exact only_exceptT_pure

/-- A function that leaves the files alone, where nothing is kept of a failure. -/
theorem attempts_unmoved {α : Type} {q : Fallible α}
    (hq : q.run.Only fun o : Op => leaves o = true ∧ o ≠ .readFile .signatures) :
    Attempts (signSteps P) SignPromise i (Stands i p) q (fun _ => Stands i p) fun _ => True := by
  refine (promises_unmoved hq).consequence (fun _ hx => hx) ?_
  rintro (e | a) x hx
  · trivial
  · exact hx

theorem attempts_idle {α : Type} {q : Fallible α} (hq : q.run.Only fun o : Op => leaves o = true) :
    Attempts (signSteps P) SignPromise i (Stands i .idle) q (fun _ => Stands i .idle)
      fun _ => True := by
  refine (promises_idle hq).consequence (fun _ hx => hx) ?_
  rintro (e | a) x hx
  · trivial
  · exact hx

theorem attempts_replace {existing : Banks} {bank : String} {pcrs : List Nat}
    {polDigest sig : Bytes} :
    Attempts (signSteps P) SignPromise i (Stands i (.hasRead existing))
      (expandT fileSteps (do
        let hostPem ← readText .signingPub id
        let pkfp ← settle (pubkeySpkiFingerprint P hostPem)
        let banks := addEntry existing bank
          { pcrs := pcrs, pkfp := pkfp, pol := hexLower polDigest, sig := P.encode sig }
        io (perform .createConfigRoot)
        io (perform (.writeFile .signaturesTmp (.value banks)))
        io (perform (.setPermissions .signaturesTmp 0o644))
        io (perform .renameSignatures) : Fallible Unit))
      (fun _ => Stands i (.recorded bank pcrs polDigest)) fun _ => True := by
  rw [expandT_bind, expandT_of_only quiet_readText fun o ho => fileSteps_single ho.single]
  refine (attempts_unmoved
    (readText_leaves fun h => by cases h)).bind Stable.const fun hostPem => ?_
  rw [expandT_bind, expandT_settle]
  refine Attempts.bind (Q := fun _ => Stands i (.hasRead existing))
    (Attempts.settle stable_stands (fun _ _ _ hx => hx) fun _ _ _ _ => trivial) Stable.const
    fun pkfp => ?_
  dsimp only
  rw [expandT_bind, expandT_attempt, expand_single fun _ _ h => by cases h]
  refine Attempts.bind (Q := fun _ => Stands i (.hasRead existing))
    (attempts_unmoved (only_attempt (only_perform ⟨rfl, fun h => by cases h⟩))) Stable.const
    fun _ => ?_
  rw [expandT_bind]
  refine (attempts_write stable_stands stable_stands stable_stands
    (fun x r y hx hS => open_tmp hx hS) fun x r y hx hS => fill_tmp hx hS).bind Stable.const
    fun _ => ?_
  rw [expandT_bind, expandT_attempt, expand_single fun _ _ h => by cases h]
  refine Attempts.bind (Q := fun _ => Stands i (.wrote existing _))
    (attempts_unmoved (only_attempt (only_perform ⟨rfl, fun h => by cases h⟩))) Stable.const
    fun _ => ?_
  rw [expandT_attempt, expand_single fun _ _ h => by cases h]
  refine Attempts.attempt (Promises.perform stable_stands ?_ fun x r y hx hS => ?_)
  · rintro (e | u)
    · exact Stable.const
    · exact stable_stands
  · obtain ⟨hG, hy⟩ := replace_signatures hx hS (fromHex_hexLower polDigest)
    refine ⟨hG, ?_⟩
    cases r with
    | error e => trivial
    | ok u => exact hy

theorem attempts_persistHostSignature {bank : String} {pcrs : List Nat} {polDigest sig : Bytes} :
    Attempts (signSteps P) SignPromise i (Stands i .idle)
      (expandT fileSteps (persistHostSignature P bank pcrs polDigest sig))
      (fun _ => Stands i (.recorded bank pcrs polDigest)) fun _ => True := by
  unfold persistHostSignature
  rw [expandT_bind, expandT_lift, expand_single fun _ _ h => by cases h]
  refine Attempts.bind (Q := fun r => Stands i (.hasRead (existingOf r.toOption)))
    (Attempts.lift (Promises.perform stable_stands (fun _ => stable_stands)
      fun x r y hx hS => read_signatures hx hS)) Stable.const fun r => ?_
  rcases r with e | (_ | msg | banks)
  · exact attempts_replace
  · exact attempts_replace
  · exact attempts_replace
  · exact attempts_replace

theorem hasEntry_of_find {banks : Banks} {bank : String} {sigs : List PcrSignature}
    {pcrs : List Nat} {pol : Bytes} (hparse : parseSignatures P banks bank = .ok sigs)
    (hfind : (findForPolicy sigs pcrs pol).isSome = true) :
    HasEntry (some (.value banks)) bank pcrs pol := by
  obtain ⟨s, hs⟩ := Option.isSome_iff_exists.1 hfind
  obtain ⟨hmem, rfl, rfl⟩ := findForPolicy_some hs
  unfold parseSignatures at hparse
  cases hlookup : banks.lookup bank with
  | none =>
      rw [hlookup] at hparse
      obtain rfl := Except.ok.inj hparse
      cases hmem
  | some es =>
      rw [hlookup] at hparse
      obtain ⟨e, he, hentry⟩ := exists_raw hparse hmem
      obtain ⟨hpol, -, hpcrs⟩ := parseEntry_ok hentry
      refine ⟨e, ?_, hpcrs.symm, hpol⟩
      show e ∈ (banks.lookup bank).getD []
      rw [hlookup]
      exact he

/-- What a list of signatures that was read promises. -/
def Listed (sigs : List PcrSignature) (bank : String) (x : Machine × Log tpm ι) : Prop :=
  ∀ pcrs pol, (findForPolicy sigs pcrs pol).isSome = true → HasEntry (signatures x) bank pcrs pol

theorem stable_listed {sigs : List PcrSignature} {bank : String} :
    Stable SignPromise i fun x => Listed sigs bank x ∧ Stands i p x := by
  rintro x y ⟨hlisted, hx⟩ hrely
  refine ⟨fun pcrs pol hfind => ?_, stable_stands hx hrely⟩
  obtain ⟨j, hji, hG⟩ := hrely
  obtain ⟨e, he, hentry⟩ := hlisted pcrs pol hfind
  exact ⟨e, hG.grows hx.sound bank e he, hentry⟩

theorem stable_within {f : String → List RawEntry} :
    Stable SignPromise i fun x => (∀ b e, e ∈ f b → e ∈ bankOf (signatures x) b) ∧
      Stands i p x := by
  rintro x y ⟨hwithin, hx⟩ hrely
  refine ⟨fun b e he => ?_, stable_stands hx hrely⟩
  obtain ⟨j, hji, hG⟩ := hrely
  exact hG.grows hx.sound b e (hwithin b e he)

theorem attempts_hostSignatures {bank : String} :
    Attempts (signSteps P) SignPromise i (Stands i .idle) (hostSignatures P bank)
      (fun sigs x => Listed sigs bank x ∧ Stands i .idle x) fun _ => True := by
  have hnothing : ∀ x : Machine × Log tpm ι, Listed [] bank x := by
    intro x pcrs pol hfind
    cases hfind
  unfold hostSignatures
  refine Attempts.bind (Q := fun _ => Stands i .idle)
    (attempts_idle (only_exceptT_lift (only_perform rfl))) Stable.const fun present => ?_
  cases present with
  | false => exact Attempts.pure stable_stands fun x hx => ⟨hnothing x, hx⟩
  | true =>
      show Attempts _ _ i (Stands i .idle) (do
        let raw ← readJson .signatures id
        settle (parseSignatures P raw bank) : Fallible (List PcrSignature)) _ _
      -- a run that got this far read the entries that are in the file
      refine Attempts.bind (Q := fun raw x =>
        (∀ b e, e ∈ (raw.lookup b).getD [] → e ∈ bankOf (signatures x) b) ∧ Stands i .idle x)
        ?_ Stable.const fun raw => ?_
      · unfold readJson
        refine Attempts.bind (Q := fun d x =>
          (∀ b e, e ∈ bankOf (some d) b → e ∈ bankOf (signatures x) b) ∧ Stands i .idle x)
          ?_ Stable.const fun d => ?_
        · refine Attempts.attempt (Promises.perform stable_stands ?_ fun x r y hx hS => ?_)
          · rintro (e | d)
            · exact Stable.const
            · exact stable_within
          · obtain ⟨hG, hy⟩ := read_signatures hx hS
            refine ⟨hG, ?_⟩
            cases r with
            | error e => trivial
            | ok d =>
                obtain ⟨h, -⟩ := unmoved_step (o := .readFile .signatures) rfl hS
                obtain ⟨-, hr⟩ := step_readFile hS.1
                refine ⟨fun b e he => ?_, hy.sound, hy.holds.1⟩
                rw [h.signatures]
                cases hfile : x.1.sys.file .signatures with
                | none =>
                    rw [hfile] at hr
                    cases hr
                | some d' =>
                    rw [hfile] at hr
                    rw [show signatures x = some d' from hfile, ← Except.ok.inj hr]
                    exact he
        · refine Attempts.settle stable_within (fun banks x hbanks hx => ?_) fun _ _ _ _ => trivial
          rcases d with _ | msg | banks'
          · cases hbanks
          · cases hbanks
          · obtain rfl := Except.ok.inj hbanks
            exact hx
      · refine Attempts.settle stable_within (fun sigs x hsigs hx => ?_) fun _ _ _ _ => trivial
        refine ⟨fun pcrs pol hfind => ?_, hx.2⟩
        obtain ⟨e, he, hentry⟩ := hasEntry_of_find hsigs hfind
        exact ⟨e, hx.1 bank e he, hentry⟩

private theorem quiet_hostSignatures {bank : String} :
    (hostSignatures P bank).run.Only fun o : Op => leaves o = true ∧ o.Single := by
  unfold hostSignatures
  refine only_exceptT_bind (only_exceptT_lift (only_perform ⟨rfl, fun _ _ h => by cases h⟩))
    fun present => ?_
  cases present with
  | false => exact only_exceptT_pure
  | true =>
      refine only_exceptT_bind ?_ fun raw => only_settle
      exact quiet_readJson.imp fun o ho => ⟨leaves_of_quiet ho, ho.single⟩

theorem attempts_ensureHostSignature {pcrs : List Nat} {policyRef : Bytes} :
    Attempts (signSteps P) SignPromise i (Stands i .idle)
      (expandT fileSteps (ensureHostSignature P pcrs policyRef))
      (fun pol => Stands i (.recorded DEFAULT_BANK pcrs pol)) fun _ => True := by
  have hquiet : ∀ {α : Type} {q : Fallible α}, q.run.Only Op.Quiet →
      expandT fileSteps q = q ∧ Attempts (signSteps P) SignPromise i (Stands i .idle) q
        (fun _ => Stands i .idle) fun _ => True := fun hq =>
    ⟨expandT_of_only hq fun o ho => fileSteps_single ho.single,
      attempts_idle (hq.imp fun _ ho => leaves_of_quiet ho)⟩
  unfold ensureHostSignature
  rw [expandT_bind, (hquiet quiet_openContext).1]
  refine (hquiet quiet_openContext).2.bind Stable.const fun _ => ?_
  rw [expandT_bind, expandT_settle]
  refine Attempts.bind (Q := fun sel x => sel = pcrs ∧ Stands i .idle x)
    (Attempts.settle stable_stands (fun sel x hsel hx => ⟨pcrSelection_ok hsel, hx⟩)
      fun _ _ _ _ => trivial) Stable.const fun sel => Promises.given fun hsel => ?_
  subst hsel
  rw [expandT_bind, (hquiet quiet_computePolicyDigest).1]
  refine (hquiet quiet_computePolicyDigest).2.bind Stable.const fun approved => ?_
  rw [expandT_bind, expandT_of_only quiet_hostSignatures fun o ho => fileSteps_single ho.2]
  refine attempts_hostSignatures.bind Stable.const fun existing => ?_
  by_cases hfind : (findForPolicy existing sel approved).isSome = true
  · rw [if_pos hfind]
    exact Attempts.pure stable_listed fun x hx => ⟨hx.2.sound, hx.2.holds, hx.1 _ _ hfind⟩
  · rw [if_neg hfind, expandT_bind, (hquiet quiet_signAhash).1]
    refine Attempts.bind (Q := fun _ => Stands i .idle)
      ((hquiet quiet_signAhash).2.consequence (fun _ hx => hx.2) (fun _ _ hx => hx)
        fun _ hx => hx) Stable.const fun sig => ?_
    rw [expandT_bind]
    refine attempts_persistHostSignature.bind Stable.const fun _ => ?_
    exact Attempts.pure stable_stands fun _ hx => hx

/-! ## Pools -/

inductive Call
  | persist (bank : String) (pcrs : List Nat) (polDigest sig : Bytes)
  | ensure (pcrs : List Nat) (policyRef : Bytes)

def Call.bank : Call → String
  | .persist bank _ _ _ => bank
  | .ensure _ _ => DEFAULT_BANK

def Call.pcrs : Call → List Nat
  | .persist _ pcrs _ _ | .ensure pcrs _ => pcrs

/-- A call, file operation by file operation, with the digest it is for. -/
def Call.program (P : Platform) : Call → Proc (Except LinuxHelloError Bytes)
  | .persist bank pcrs polDigest sig =>
      (expandT fileSteps do
        persistHostSignature P bank pcrs polDigest sig
        pure polDigest).run
  | .ensure pcrs policyRef => (expandT fileSteps (ensureHostSignature P pcrs policyRef)).run

def Outcome (c : Call) (i : ι) (r : Except LinuxHelloError Bytes)
    (x : Machine × Log tpm ι) : Prop :=
  ∀ pol, r = .ok pol → Stands i (.recorded c.bank c.pcrs pol) x

variable {calls : ι → Call} {v u : Machine} {log : Log tpm ι}
  {qs : ι → Proc (Except LinuxHelloError Bytes)}

theorem promises_call (c : Call) : Promises (signSteps P) SignPromise i (Stands i .idle)
    (c.program P) (Outcome c i) := by
  cases c with
  | persist bank pcrs polDigest sig =>
      have hcall : Attempts (signSteps P) SignPromise i (Stands i .idle)
          (expandT fileSteps do
            persistHostSignature P bank pcrs polDigest sig
            pure polDigest)
          (fun pol => Stands i (.recorded bank pcrs pol)) fun _ => True := by
        rw [expandT_bind]
        refine attempts_persistHostSignature.bind Stable.const fun _ => ?_
        exact Attempts.pure stable_stands fun _ hx => hx
      refine Promises.consequence hcall (fun _ hx => hx) fun r x hx pol hr => ?_
      subst hr
      exact hx
  | ensure pcrs policyRef =>
      refine Promises.consequence attempts_ensureHostSignature (fun _ hx => hx)
        fun r x hx pol hr => ?_
      subst hr
      exact hx

private theorem sound_nil (hfile : Parses (v.sys.file .signatures)) : Sound (v, ([] : Log tpm ι)) :=
  ⟨hfile, fun _ _ hj => hj.elim⟩

/-- Calls that open the temporary file one at a time, each on what it last read, lose
nothing. -/
theorem signing_loses_nothing (hfile : Parses (v.sys.file .signatures))
    (hrun : Interleaved (Step P False) (fun i => (calls i).program P) v log qs u)
    (hobeys : Obeys (Step P False) Exclusive (fun i => (calls i).program P) v log) :
    Parses (u.sys.file .signatures) ∧
    (∀ bank e, e ∈ bankOf (v.sys.file .signatures) bank →
      e ∈ bankOf (u.sys.file .signatures) bank) ∧
    ∀ i pol, qs i = .ret (.ok pol) →
      HasEntry (u.sys.file .signatures) (calls i).bank (calls i).pcrs pol := by
  have hv : Sound (v, ([] : Log tpm ι)) := sound_nil hfile
  have hstart : ∀ i, Guarded (signSteps P) SignPromise i (Outcome (calls i) i)
      ((calls i).program P) (v, []) := fun i => promises_call (calls i) ⟨hv, fun h => h.elim⟩
  have hend := hrun.invariant (I := fun x => Sound x ∧
      ∀ bank e, e ∈ bankOf (v.sys.file .signatures) bank → e ∈ bankOf (signatures x) bank)
    (fun i x y hG hx => ⟨hG.sound hx.1, fun bank e he => hG.grows hx.1 bank e (hx.2 bank e he)⟩)
    hobeys hstart ⟨hv, fun _ _ he => he⟩
  refine ⟨hend.1.parses, hend.2, fun i pol hret => ?_⟩
  have hguarded := hrun.guarded hobeys hstart i
  rw [hret] at hguarded
  exact (hguarded.result pol rfl).holds.2

/-- An entry for other registers that is in the file before the calls. -/
def earlier : RawEntry := { pcrs := [4], pkfp := "aa", pol := "bb", sig := "cc" }

def holding : Json Banks := .value (AList.insert DEFAULT_BANK [earlier] ∅)

/-- One call publishes its entry while the other is between its digest and its own
read of the file. -/
def twoWriters : Bool → Call
  | false => .persist DEFAULT_BANK [11] [3] []
  | true => .ensure [7] []

def takingTurns : List (Bool × Choices simulated) :=
  List.replicate 4 (false, simulatedChoices) ++ List.replicate 9 (true, simulatedChoices) ++
    List.replicate 3 (false, simulatedChoices) ++ List.replicate 7 (true, simulatedChoices)

theorem signing_loses_nothing_simulated : ∃ (log : Log tpm Bool)
    (qs : Bool → Proc (Except LinuxHelloError Bytes)) (u : Machine) (pol : Bytes),
    Interleaved (Step simulated False) (fun i => (twoWriters i).program simulated)
      (simulatedMachine true (some holding)) log qs u ∧
    log.map Prod.fst = takingTurns.map Prod.fst ∧
    earlier ∈ bankOf (u.sys.file .signatures) DEFAULT_BANK ∧
    HasEntry (u.sys.file .signatures) DEFAULT_BANK [11] [3] ∧
    HasEntry (u.sys.file .signatures) DEFAULT_BANK [7] pol := by
  have hrun : ((scheduleLog (fun c m o => some (respond c m o))
      (fun i => (twoWriters i).program simulated) (simulatedMachine true (some holding)) []
      takingTurns).map fun x => ((x.1 false).result?, (x.1 true).result?,
        checked (fun pre i e => Decidable.decide (Exclusive x.2.1 pre i e)) [] x.2.2,
        x.2.2.map Prod.fst)) =
      some (some (.ok [3]), some (.ok (pcrPolicy simulatedHash (fun _ => zeroDigest) [7])),
        true, takingTurns.map Prod.fst) := by
    decide +kernel
  obtain ⟨⟨qs, u, log⟩, hschedule, heq⟩ := Option.map_eq_some_iff.1 hrun
  simp only [Prod.mk.injEq] at heq
  obtain ⟨hfalse, htrue, hchecked, hturns⟩ := heq
  have hpool := Interleaved.scheduleLog (S := Step simulated False)
    (fun c m o r m' h => .inl ⟨c, (Option.some.inj h).symm⟩) (.nil _ _) hschedule
  have hobeys : Obeys (Step simulated False) Exclusive (fun i => (twoWriters i).program simulated)
      (simulatedMachine true (some holding)) log :=
    obeys_of_checked (fun pre i e _ _ _ h => ⟨(of_decide_eq_true h).opens⟩) hchecked
  obtain ⟨-, hkept, hentries⟩ := signing_loses_nothing (.inr ⟨_, rfl⟩) hpool hobeys
  exact ⟨log, qs, u, _, hpool, hturns, hkept DEFAULT_BANK earlier (by decide),
    hentries false _ (Program.eq_ret_of_result? hfalse),
    hentries true _ (Program.eq_ret_of_result? htrue)⟩

/-! ## Two writers -/

/-- The first call reads, the second runs to its end, the first goes on. -/
def overlappingCalls : List (Bool × Choices simulated) :=
  List.replicate 1 (false, simulatedChoices) ++ List.replicate 7 (true, simulatedChoices) ++
    List.replicate 6 (false, simulatedChoices)

theorem not_signing_loses_nothing :
    ¬ ∀ (P : Platform) (ι : Type) [DecidableEq ι] (calls : ι → Call) (v u : Machine)
      (log : Log tpm ι) (qs : ι → Proc (Except LinuxHelloError Bytes)),
      Parses (v.sys.file .signatures) →
      Interleaved (Step P False) (fun i => (calls i).program P) v log qs u →
      (∀ i, ∃ r, qs i = .ret r) →
      ∀ i pol, qs i = .ret (.ok pol) →
        HasEntry (u.sys.file .signatures) (calls i).bank (calls i).pcrs pol := by
  intro hall
  let calls : Bool → Call := fun i => .persist DEFAULT_BANK [7] [if i then 1 else 3] []
  have hrun : ((schedule (fun c m o => some (respond c m o))
      (fun i => (calls i).program simulated) (simulatedMachine true none) overlappingCalls).map
        fun x => ((x.1 false).result?.isSome, (x.1 true).result?,
          (bankOf (x.2.sys.file .signatures) DEFAULT_BANK).map fun e => e.pol)) =
      some (true, some (Except.ok [1]), ["03"]) := by
    decide +kernel
  obtain ⟨⟨qs, u⟩, hschedule, heq⟩ := Option.map_eq_some_iff.1 hrun
  simp only [Prod.mk.injEq] at heq
  obtain ⟨hfalse, htrue, hfile⟩ := heq
  obtain ⟨log, hpool⟩ := Interleaved.schedule (S := Step simulated False)
    (fun c m o r m' h => .inl ⟨c, (Option.some.inj h).symm⟩) (.nil _ _) hschedule
  have hdone : ∀ i, ∃ r, qs i = .ret r := by
    rintro (_ | _)
    · obtain ⟨r, hr⟩ := Option.isSome_iff_exists.1 hfalse
      exact ⟨r, Program.eq_ret_of_result? hr⟩
    · exact ⟨_, Program.eq_ret_of_result? htrue⟩
  obtain ⟨e, he, -, hpol⟩ := hall simulated Bool calls _ u log qs (.inl rfl) hpool hdone true _
    (Program.eq_ret_of_result? htrue)
  have hmem : e.pol ∈ ["03"] := by
    rw [← hfile]
    exact List.mem_map_of_mem he
  rw [List.mem_singleton.1 hmem] at hpol
  revert hpol
  decide

end Linhello.Tpm.Signing
