import Linhello.Tpm.FileSteps
import Linhello.Tpm.Simulated
/-!
# The host's key pair among concurrent calls

`ensure_host_signing_key` checks for the public key and then writes two files, without
a lock. The log tells how far each call has come. A rule keeps the calls out of each
other's way; under it there is one pair and every call returns its public half.
-/

namespace Linhello.Tpm

open Common Effect Host

variable {ι : Type} [DecidableEq ι] {P : Platform}

/-! ## What the log says -/

def Op.writesKeys : Op → Bool
  | .writeFile .signingKey _ | .writeFile .signingPub _ => true
  | _ => false

/-- How many writes to the key files a call has done, of four: opening and writing the
private half, opening and writing the public half. -/
def written (log : Log tpm ι) (i : ι) : Nat := (Log.of log i).countP fun e => e.1.writesKeys

/-- The call has opened the private half and not yet written the public one. -/
def Making (log : Log tpm ι) (i : ι) : Prop := 0 < written log i ∧ written log i < 4

theorem written_self (log : Log tpm ι) (i : ι) (e : Event tpm) :
    written (log ++ [(i, e)]) i = written log i + if e.1.writesKeys then 1 else 0 := by
  rw [written, Log.of_snoc_self, List.countP_append, List.countP_singleton]
  rfl

theorem written_other (log : Log tpm ι) {i j : ι} (e : Event tpm) (h : j ≠ i) :
    written (log ++ [(j, e)]) i = written log i := by
  rw [written, Log.of_snoc_ne log e h]
  rfl

/-- A call begins to write only while there is no public key and no other call is
making a pair, and it reads the public key only while no other has just opened it. -/
structure Undisturbed (m : Machine) (log : Log tpm ι) (i : ι) (e : Event tpm) : Prop where
  begins : e.1.mayWrite .signingKey = true → written log i = 0 →
    m.sys.file .signingPub = none ∧ ∀ j, j ≠ i → ¬ Making log j
  reads : e.1 = .readFile .signingPub → ∀ j, j ≠ i → written log j ≠ 3

/-- The generator failed a call, or made a key that does not encode. -/
def Unusable (P : Platform) (log : Log tpm ι) (i : ι) : Prop :=
  ∃ r, (i, (⟨.generateKey, r⟩ : Event tpm)) ∈ log ∧
    ¬ ∃ sk privPem pubPem, r = Except.ok sk ∧ P.rsa.privatePem sk = .ok privPem ∧
      P.rsa.publicPem sk.pub = .ok pubPem

/-! ## The pair -/

/-- The two files hold the halves of one pair, and this is the public one. -/
structure MatchingPair (P : Platform) (y : System) (pem : String) : Prop where
  public_half : y.file .signingPub = some (some pem)
  matching : ∃ sk keyPem, y.file .signingKey = some (some keyPem) ∧
    P.rsa.parsePrivate keyPem = .ok sk ∧ P.rsa.parsePublic pem = .ok sk.pub

/-- The files of the pair are the same. -/
structure SameKeys (y z : System) : Prop where
  key : z.file .signingKey = y.file .signingKey
  pub : z.file .signingPub = y.file .signingPub

theorem SameKeys.refl (y : System) : SameKeys y y := ⟨rfl, rfl⟩

theorem SameKeys.trans {x y z : System} (h₁ : SameKeys x y) (h₂ : SameKeys y z) : SameKeys x z :=
  ⟨h₂.key.trans h₁.key, h₂.pub.trans h₁.pub⟩

theorem MatchingPair.congr {y z : System} {pem : String} (h : MatchingPair P y pem)
    (hsame : SameKeys y z) : MatchingPair P z pem := by
  obtain ⟨sk, keyPem, hkey, hmatch⟩ := h.matching
  exact ⟨hsame.pub.trans h.public_half, sk, keyPem, hsame.key.trans hkey, hmatch⟩

/-- There is a public key and no call is about to write it. -/
def Settled (x : Machine × Log tpm ι) : Prop :=
  x.1.sys.file .signingPub ≠ none ∧ ∀ j, written x.2 j ≠ 3

/-- One call at a time makes a pair, it makes the public half last, and a pair that is
not being made matches. -/
structure Sound (P : Platform) (x : Machine × Log tpm ι) : Prop where
  single : ∀ j k, Making x.2 j → Making x.2 k → j = k
  early : ∀ j, written x.2 j = 1 ∨ written x.2 j = 2 → x.1.sys.file .signingPub = none
  paired : Settled x → ∃ pem, MatchingPair P x.1.sys pem

theorem sound_start {m : Machine}
    (h : m.sys.file .signingPub = none ∨ ∃ pem, MatchingPair P m.sys pem) :
    Sound P (m, ([] : Log tpm ι)) where
  single j k hj := absurd hj.1 (Nat.lt_irrefl 0)
  early j hj := by
    rcases hj with hj | hj
    · cases hj
    · cases hj
  paired hx := h.resolve_left hx.1

/-! ## What each call promises -/

structure PairPromise (P : Platform) (i : ι) (x y : Machine × Log tpm ι) : Prop where
  event : ∃ e, y.2 = x.2 ++ [(i, e)]
  sound : Sound P x → Sound P y
  /-- Another call's files are left alone while it makes a pair. -/
  held : Sound P x → (∃ j, j ≠ i ∧ Making x.2 j) → SameKeys x.1.sys y.1.sys
  settled : Sound P x → Settled x → SameKeys x.1.sys y.1.sys ∧ Settled y
  kept : Sound P x → x.1.sys.file .signingPub ≠ none → y.1.sys.file .signingPub ≠ none

/-- Nothing that concerns the pair has happened. -/
structure Unmoved (x y : Machine × Log tpm ι) : Prop where
  same : SameKeys x.1.sys y.1.sys
  written : ∀ j, written y.2 j = written x.2 j
  log : x.2 <+: y.2

theorem Unmoved.making {x y : Machine × Log tpm ι} (h : Unmoved x y) (j : ι) :
    Making y.2 j ↔ Making x.2 j := by
  rw [Making, Making, h.written j]

theorem Unmoved.settled {x y : Machine × Log tpm ι} (h : Unmoved x y) (hx : Settled x) :
    Settled y := by
  constructor
  · rw [h.same.pub]
    exact hx.1
  · intro j
    rw [h.written j]
    exact hx.2 j

theorem Unmoved.settled_iff {x y : Machine × Log tpm ι} (h : Unmoved x y) :
    Settled y ↔ Settled x := by
  rw [Settled, Settled, h.same.pub]
  simp only [h.written]

theorem Unmoved.sound {x y : Machine × Log tpm ι} (h : Unmoved x y) (hx : Sound P x) :
    Sound P y where
  single j k hj hk := hx.single j k ((h.making j).1 hj) ((h.making k).1 hk)
  early j hj := by
    rw [h.written j] at hj
    rw [h.same.pub]
    exact hx.early j hj
  paired hy := by
    obtain ⟨pem, hpem⟩ := hx.paired (h.settled_iff.1 hy)
    exact ⟨pem, hpem.congr h.same⟩

theorem Unmoved.promise {i : ι} {x y : Machine × Log tpm ι} (h : Unmoved x y)
    (hlog : ∃ e, y.2 = x.2 ++ [(i, e)]) : PairPromise P i x y where
  event := hlog
  sound := h.sound
  held _ _ := h.same
  settled _ hx := ⟨h.same, h.settled hx⟩
  kept _ hx := by rwa [h.same.pub]

/-- A step of a call that alone makes a pair, while there is no public key or after it
has opened that. -/
theorem PairPromise.of_alone {i : ι} {x y : Machine × Log tpm ι} (hlog : ∃ e, y.2 = x.2 ++ [(i, e)])
    (halone : Sound P x → ∀ j, j ≠ i → ¬ Making x.2 j)
    (hopen : Sound P x → x.1.sys.file .signingPub = none ∨ written x.2 i = 3)
    (hkept : x.1.sys.file .signingPub ≠ none → y.1.sys.file .signingPub ≠ none)
    (hsound : Sound P x → Sound P y) : PairPromise P i x y where
  event := hlog
  sound := hsound
  held hx := by
    rintro ⟨j, hj, hmaking⟩
    exact absurd hmaking (halone hx j hj)
  settled hx hsettled := by
    rcases hopen hx with hnone | hthree
    · exact absurd hnone hsettled.1
    · exact absurd hthree (hsettled.2 i)
  kept _ := hkept

/-! ## Where a call stands -/

inductive Point
  | start
  /-- It found a public key. -/
  | found
  /-- It has read the public key, or has written it. -/
  | has (pem : String)
  /-- It has opened the private half. -/
  | opened
  | wrote (keyPem : String)
  /-- It has opened the public half. -/
  | halfway (keyPem : String)
  | failed

def Point.Turn : Point → Nat → Prop
  | .start, n | .found, n | .failed, n => n = 0
  | .has _, n => n = 0 ∨ n = 4
  | .opened, n => n = 1
  | .wrote _, n => n = 2
  | .halfway _, n => n = 3

def Point.Holds (P : Platform) (i : ι) : Point → Machine × Log tpm ι → Prop
  | .start, _ | .opened, _ => True
  | .found, x => x.1.sys.file .signingPub ≠ none
  | .has pem, x => Settled x ∧ x.1.sys.file .signingPub = some (some pem)
  | .wrote keyPem, x | .halfway keyPem, x => x.1.sys.file .signingKey = some (some keyPem)
  | .failed, x => Unusable P x.2 i

structure Stands (P : Platform) (i : ι) (p : Point) (x : Machine × Log tpm ι) : Prop where
  sound : Sound P x
  turn : p.Turn (written x.2 i)
  holds : p.Holds P i x

omit [DecidableEq ι] in
theorem Unusable.mono {log log' : Log tpm ι} {i : ι} (h : Unusable P log i) (hlog : log <+: log') :
    Unusable P log' i := by
  obtain ⟨r, hmem, hno⟩ := h
  exact ⟨r, hlog.subset hmem, hno⟩

variable {i : ι} {p : Point} {x y : Machine × Log tpm ι}

theorem stable_stands : Stable (PairPromise P) i (Stands P i p) := by
  rintro x y hx ⟨j, hji, hG⟩
  obtain ⟨e, hlog⟩ := hG.event
  have hturn : written y.2 i = written x.2 i := by
    rw [hlog, written_other x.2 e hji]
  have hheld : Making x.2 i → SameKeys x.1.sys y.1.sys := fun hmaking =>
    hG.held hx.sound ⟨i, hji.symm, hmaking⟩
  have hxturn := hx.turn
  have hholds := hx.holds
  refine ⟨hG.sound hx.sound, by rw [hturn]; exact hxturn, ?_⟩
  cases p with
  | start => trivial
  | opened => trivial
  | found => exact hG.kept hx.sound hholds
  | has pem =>
      obtain ⟨hsame, hsettled⟩ := hG.settled hx.sound hholds.1
      exact ⟨hsettled, hsame.pub.trans hholds.2⟩
  | wrote keyPem =>
      have hmaking : Making x.2 i := by
        rw [Making, show written x.2 i = 2 from hxturn]
        omega
      exact (hheld hmaking).key.trans hholds
  | halfway keyPem =>
      have hmaking : Making x.2 i := by
        rw [Making, show written x.2 i = 3 from hxturn]
        omega
      exact (hheld hmaking).key.trans hholds
  | failed =>
      refine Unusable.mono hholds ?_
      rw [hlog]
      exact List.prefix_append _ _

theorem Stands.unmoved (hx : Stands P i p x) (h : Unmoved x y) : Stands P i p y := by
  have hholds := hx.holds
  refine ⟨h.sound hx.sound, by rw [h.written i]; exact hx.turn, ?_⟩
  cases p with
  | start => trivial
  | opened => trivial
  | found =>
      show y.1.sys.file .signingPub ≠ none
      rw [h.same.pub]
      exact hholds
  | has pem => exact ⟨h.settled hholds.1, h.same.pub.trans hholds.2⟩
  | wrote keyPem => exact h.same.key.trans hholds
  | halfway keyPem => exact h.same.key.trans hholds
  | failed => exact Unusable.mono hholds h.log

/-! ## Steps -/

/-- The steps of calls under the rule, without faults. -/
abbrev keySteps (P : Platform) : ThreadSemantics tpm ι (Machine × Log tpm ι) :=
  logged (Step P False) Undisturbed

theorem unmoved_step {o : Op} {r : o.Ans} (ho : o.writesKeys = false)
    (hS : keySteps P i x o r y) : Unmoved x y := by
  obtain ⟨hstep, hlog, -⟩ := hS
  have hkeeps : o.mayWrite .signingKey = false ∧ o.mayWrite .signingPub = false := by
    cases o with
    | writeFile a d =>
        cases a with
        | signingKey => cases ho
        | signingPub => cases ho
        | _ => exact ⟨rfl, rfl⟩
    | _ => exact ⟨rfl, rfl⟩
  refine ⟨⟨step_file hstep hkeeps.1, step_file hstep hkeeps.2⟩, fun j => ?_, ?_⟩
  · rw [hlog]
    by_cases hj : i = j
    · subst hj
      rw [written_self, show (Sigma.fst (⟨o, r⟩ : Event tpm)).writesKeys = false from ho]
      rfl
    · exact written_other x.2 _ hj
  · rw [hlog]
    exact List.prefix_append _ _

theorem promises_unmoved {α : Type} {q : Proc α} (hq : q.Only fun o : Op => o.writesKeys = false) :
    Promises (keySteps P) (PairPromise P) i (Stands P i p) q fun _ => Stands P i p := by
  refine Promises.only hq stable_stands fun x o r y ho hx hS => ?_
  have h := unmoved_step ho hS
  exact ⟨h.promise ⟨_, hS.2.1⟩, hx.unmoved h⟩

theorem written_step {o : Op} {r : o.Ans} (ho : o.writesKeys = true)
    (hS : keySteps P i x o r y) :
    written y.2 i = written x.2 i + 1 ∧ ∀ j, j ≠ i → written y.2 j = written x.2 j := by
  obtain ⟨-, hlog, -⟩ := hS
  constructor
  · rw [hlog, written_self, show (Sigma.fst (⟨o, r⟩ : Event tpm)).writesKeys = true from ho]
    rfl
  · intro j hj
    rw [hlog, written_other x.2 _ hj.symm]

theorem Sound.alone (hx : Sound P x) (hi : Making x.2 i) : ∀ j, j ≠ i → ¬ Making x.2 j :=
  fun j hj hmaking => hj (hx.single j i hmaking hi)

theorem Sound.of_alone {n : Nat} (halone : ∀ j, j ≠ i → ¬ Making y.2 j) (hn : written y.2 i = n)
    (hearly : n = 1 ∨ n = 2 → y.1.sys.file .signingPub = none)
    (hpaired : n ≠ 3 → y.1.sys.file .signingPub ≠ none → ∃ pem, MatchingPair P y.1.sys pem) :
    Sound P y where
  single j k hj hk := by
    have hji : j = i := by
      by_contra h
      exact halone j h hj
    have hki : k = i := by
      by_contra h
      exact halone k h hk
    rw [hji, hki]
  early j hj := by
    by_cases hji : j = i
    · rw [hji, hn] at hj
      exact hearly hj
    · refine absurd ?_ (halone j hji)
      rw [Making]
      omega
  paired hy := hpaired (by rw [← hn]; exact hy.2 i) hy.1

section Writing

variable {keyPem pem : String} {r : Except IoError Unit}

theorem open_privateKey (hx : Stands P i .start x)
    (hS : keySteps P i x (.writeFile .signingKey (some "")) r y) :
    r = .ok () ∧ PairPromise P i x y ∧ Stands P i .opened y := by
  obtain ⟨hr, hy⟩ := step_writeFile hS.1
  obtain ⟨hself, hothers⟩ := written_step (o := .writeFile .signingKey (some "")) rfl hS
  obtain ⟨hnone, halone⟩ := hS.2.2.begins rfl hx.turn
  have hturn : written y.2 i = 1 := by
    rw [hself, show written x.2 i = 0 from hx.turn]
  have hpub : y.1.sys.file .signingPub = none := by
    rw [hy]
    exact (setFile_file_of_ne (by decide)).trans hnone
  have hsound : Sound P y := by
    refine Sound.of_alone (i := i) (fun j hj hmaking => halone j hj ?_) hturn (fun _ => hpub)
      fun _ hy => absurd hpub hy
    rwa [Making, hothers j hj] at hmaking
  exact ⟨hr, .of_alone ⟨_, hS.2.1⟩ (fun _ => halone) (fun _ => .inl hnone)
    (fun h => absurd hnone h) fun _ => hsound, hsound, hturn, trivial⟩

theorem write_privateKey (hx : Stands P i .opened x)
    (hS : keySteps P i x (.writeFile .signingKey (some keyPem)) r y) :
    r = .ok () ∧ PairPromise P i x y ∧ Stands P i (.wrote keyPem) y := by
  obtain ⟨hr, hy⟩ := step_writeFile hS.1
  obtain ⟨hself, hothers⟩ := written_step (o := .writeFile .signingKey (some keyPem)) rfl hS
  have hone : written x.2 i = 1 := hx.turn
  have halone := hx.sound.alone (by rw [Making, hone]; omega)
  have hnone : x.1.sys.file .signingPub = none := hx.sound.early i (.inl hone)
  have hturn : written y.2 i = 2 := by rw [hself, hone]
  have hpub : y.1.sys.file .signingPub = none := by
    rw [hy]
    exact (setFile_file_of_ne (by decide)).trans hnone
  have hsound : Sound P y := by
    refine Sound.of_alone (i := i) (fun j hj hmaking => halone j hj ?_) hturn (fun _ => hpub)
      fun _ hy => absurd hpub hy
    rwa [Making, hothers j hj] at hmaking
  refine ⟨hr, .of_alone ⟨_, hS.2.1⟩ (fun _ => halone) (fun _ => .inl hnone)
    (fun h => absurd hnone h) fun _ => hsound, hsound, hturn, ?_⟩
  show y.1.sys.file .signingKey = some (some keyPem)
  rw [hy]
  exact setFile_file_self

theorem open_publicKey (hx : Stands P i (.wrote keyPem) x)
    (hS : keySteps P i x (.writeFile .signingPub (some "")) r y) :
    r = .ok () ∧ PairPromise P i x y ∧ Stands P i (.halfway keyPem) y := by
  obtain ⟨hr, hy⟩ := step_writeFile hS.1
  obtain ⟨hself, hothers⟩ := written_step (o := .writeFile .signingPub (some "")) rfl hS
  have htwo : written x.2 i = 2 := hx.turn
  have halone := hx.sound.alone (by rw [Making, htwo]; omega)
  have hnone : x.1.sys.file .signingPub = none := hx.sound.early i (.inr htwo)
  have hturn : written y.2 i = 3 := by rw [hself, htwo]
  have hsound : Sound P y := by
    refine Sound.of_alone (i := i) (fun j hj hmaking => halone j hj ?_) hturn (fun h => by omega)
      fun h _ => absurd rfl h
    rwa [Making, hothers j hj] at hmaking
  refine ⟨hr, .of_alone ⟨_, hS.2.1⟩ (fun _ => halone) (fun _ => .inl hnone)
    (fun h => absurd hnone h) fun _ => hsound, hsound, hturn, ?_⟩
  show y.1.sys.file .signingKey = some (some keyPem)
  rw [hy]
  exact (setFile_file_of_ne (by decide)).trans hx.holds

theorem write_publicKey {sk : PrivateKey} (hprivate : P.rsa.parsePrivate keyPem = .ok sk)
    (hpublic : P.rsa.parsePublic pem = .ok sk.pub) (hx : Stands P i (.halfway keyPem) x)
    (hS : keySteps P i x (.writeFile .signingPub (some pem)) r y) :
    r = .ok () ∧ PairPromise P i x y ∧ Stands P i (.has pem) y := by
  obtain ⟨hr, hy⟩ := step_writeFile hS.1
  obtain ⟨hself, hothers⟩ := written_step (o := .writeFile .signingPub (some pem)) rfl hS
  have hthree : written x.2 i = 3 := hx.turn
  have halone := hx.sound.alone (by rw [Making, hthree]; omega)
  have hturn : written y.2 i = 4 := by rw [hself, hthree]
  have hpub : y.1.sys.file .signingPub = some (some pem) := by
    rw [hy]
    exact setFile_file_self
  have hkey : y.1.sys.file .signingKey = some (some keyPem) := by
    rw [hy]
    exact (setFile_file_of_ne (by decide)).trans hx.holds
  have hsome : y.1.sys.file .signingPub ≠ none := by
    rw [hpub]
    exact Option.some_ne_none _
  have halone' : ∀ j, j ≠ i → ¬ Making y.2 j := by
    intro j hj hmaking
    apply halone j hj
    rwa [Making, hothers j hj] at hmaking
  have hsound : Sound P y := Sound.of_alone halone' hturn (fun h => by omega)
    fun _ _ => ⟨pem, hpub, sk, keyPem, hkey, hprivate, hpublic⟩
  refine ⟨hr, .of_alone ⟨_, hS.2.1⟩ (fun _ => halone) (fun _ => .inr hthree) (fun _ => hsome)
    fun _ => hsound, hsound, .inr hturn, ⟨hsome, fun j => ?_⟩, hpub⟩
  by_cases hj : j = i
  · rw [hj, hturn]
    decide
  · intro h
    apply halone' j hj
    rw [Making, h]
    omega

end Writing

/-! ## The call -/

variable (P) in
/-- One call, file operation by file operation. -/
def ensuring : Proc (Except LinuxHelloError String) :=
  (expandT fileSteps (ensureHostSigningKey P)).run

private theorem unmoved_readPublic {r : Except IoError (Option String)} (hx : Stands P i .found x)
    (hS : keySteps P i x (.readFile .signingPub) r y) :
    PairPromise P i x y ∧ ∃ pem, r = .ok (some pem) ∧ Stands P i (.has pem) y := by
  have h : Unmoved x y := unmoved_step rfl hS
  obtain ⟨-, hr⟩ := step_readFile hS.1
  have hzero : written x.2 i = 0 := hx.turn
  have hsettled : Settled x := by
    refine ⟨hx.holds, fun j => ?_⟩
    by_cases hj : j = i
    · rw [hj, hzero]
      decide
    · exact hS.2.2.reads rfl j hj
  obtain ⟨pem, hpem⟩ := hx.sound.paired hsettled
  rw [hpem.public_half] at hr
  refine ⟨h.promise ⟨_, hS.2.1⟩, pem, hr, ?_⟩
  have hhas : Stands P i (.has pem) x := ⟨hx.sound, .inl hzero, hsettled, hpem.public_half⟩
  exact hhas.unmoved h

theorem attempts_readPublic :
    Attempts (keySteps P) (PairPromise P) i (Stands P i .found) (readText .signingPub id)
      (fun pem => Stands P i (.has pem)) (Stands P i .failed) := by
  unfold readText
  refine Attempts.bind (Q := fun d x => ∃ pem, d = some pem ∧ Stands P i (.has pem) x) ?_
    stable_stands fun d => ?_
  · refine Attempts.attempt (Promises.perform stable_stands ?_ ?_)
    · rintro (e | d)
      · exact stable_stands
      · rintro x y ⟨pem, hd, hx⟩ hrely
        exact ⟨pem, hd, stable_stands hx hrely⟩
    · intro x r y hx hS
      obtain ⟨hG, pem, rfl, hy⟩ := unmoved_readPublic hx hS
      exact ⟨hG, pem, rfl, hy⟩
  · cases d with
    | none =>
        rintro x ⟨pem, hd, -⟩
        cases hd
    | some text =>
        refine Attempts.consequence (Attempts.pure stable_stands fun _ hx => hx) ?_
          (fun _ _ hx => hx) fun _ hx => hx
        rintro x ⟨pem, hd, hx⟩
        rwa [Option.some.inj hd]

/-- Where the public key is there, the private half is usable. -/
theorem attempts_hostPrivateKey {pem : String} :
    Attempts (keySteps P) (PairPromise P) i (Stands P i (.has pem)) (hostPrivateKey P)
      (fun _ => Stands P i (.has pem)) (Stands P i .failed) := by
  unfold hostPrivateKey readText
  refine Attempts.bind (Q := fun text x => (∃ sk, P.rsa.parsePrivate text = .ok sk) ∧
    Stands P i (.has pem) x) ?_ stable_stands fun text => ?_
  · refine Attempts.bind (Q := fun d x => (∃ text sk, d = some text ∧
      P.rsa.parsePrivate text = .ok sk) ∧ Stands P i (.has pem) x) ?_ stable_stands fun d => ?_
    · refine Attempts.attempt (Promises.perform stable_stands ?_ ?_)
      · rintro (e | d)
        · exact stable_stands
        · exact Stable.const.and stable_stands
      · intro x r y hx hS
        have h : Unmoved x y := unmoved_step rfl hS
        obtain ⟨-, hr⟩ := step_readFile hS.1
        obtain ⟨hsettled, hpub⟩ : Settled x ∧ _ := hx.holds
        obtain ⟨_, hpair⟩ := hx.sound.paired hsettled
        obtain ⟨sk, keyPem, hkey, hparse, -⟩ := hpair.matching
        rw [hkey] at hr
        subst hr
        exact ⟨h.promise ⟨_, hS.2.1⟩, ⟨keyPem, sk, rfl, hparse⟩, hx.unmoved h⟩
    · refine Promises.given fun hd => ?_
      obtain ⟨text, sk, rfl, hparse⟩ := hd
      exact Attempts.pure stable_stands fun _ hx => ⟨⟨sk, hparse⟩, hx⟩
  · refine Promises.given fun htext => ?_
    obtain ⟨sk, hparse⟩ := htext
    refine Attempts.settle stable_stands (fun _ _ _ hx => hx) fun e _ he => ?_
    rw [hparse] at he
    cases he

theorem attempts_generateKey {f : String → LinuxHelloError} :
    Attempts (keySteps P) (PairPromise P) i (Stands P i .start)
      (attempt f (perform .generateKey))
      (fun sk x => (i, (⟨.generateKey, .ok sk⟩ : Event tpm)) ∈ x.2 ∧ Stands P i .start x)
      (Stands P i .failed) := by
  refine Attempts.attempt (Promises.perform stable_stands ?_ ?_)
  · rintro (e | sk)
    · exact stable_stands
    · refine Stable.and ?_ stable_stands
      rintro x y hmem ⟨j, -, hG⟩
      obtain ⟨e, hlog⟩ := hG.event
      rw [hlog]
      exact List.mem_append_left _ hmem
  · intro x r y hx hS
    have h : Unmoved x y := unmoved_step rfl hS
    have hmem : (i, (⟨.generateKey, r⟩ : Event tpm)) ∈ y.2 := by
      rw [hS.2.1]
      exact List.mem_append_right _ List.mem_cons_self
    have hy := hx.unmoved h
    refine ⟨h.promise ⟨_, hS.2.1⟩, ?_⟩
    rcases r with e | sk
    · refine ⟨hy.sound, hy.turn, ⟨_, hmem, ?_⟩⟩
      rintro ⟨sk, _, _, hr, -⟩
      cases hr
    · exact ⟨hmem, hy⟩

theorem attempts_works {q : Proc (Except IoError Unit)}
    (hq : Promises (keySteps P) (PairPromise P) i (Stands P i p) q fun r x =>
      r = .ok () ∧ Stands P i p x) :
    Attempts (keySteps P) (PairPromise P) i (Stands P i p) (io q) (fun _ => Stands P i p)
      (Stands P i .failed) := by
  refine Attempts.attempt (hq.consequence (fun _ hx => hx) ?_)
  rintro (e | u) x ⟨hr, hx⟩
  · cases hr
  · exact hx

theorem attempts_setPermissions {a : Artifact} {mode : Nat} :
    Attempts (keySteps P) (PairPromise P) i (Stands P i p) (io (perform (.setPermissions a mode)))
      (fun _ => Stands P i p) (Stands P i .failed) := by
  refine attempts_works (Promises.perform stable_stands
    (fun _ => Stable.const.and stable_stands) fun x r y hx hS => ?_)
  have h : Unmoved x y := unmoved_step rfl hS
  exact ⟨h.promise ⟨_, hS.2.1⟩, step_setPermissions hS.1, hx.unmoved h⟩

private theorem attempts_createConfigRoot :
    Attempts (keySteps P) (PairPromise P) i (Stands P i p) (io (perform .createConfigRoot))
      (fun _ => Stands P i p) (Stands P i .failed) := by
  refine attempts_works (Promises.perform stable_stands
    (fun _ => Stable.const.and stable_stands) fun x r y hx hS => ?_)
  have h : Unmoved x y := unmoved_step rfl hS
  exact ⟨h.promise ⟨_, hS.2.1⟩, step_createConfigRoot hS.1, hx.unmoved h⟩

private theorem attempts_makePair {sk : PrivateKey} {privPem pubPem : String}
    (hpriv : P.rsa.privatePem sk = .ok privPem) (hpub : P.rsa.publicPem sk.pub = .ok pubPem) :
    Attempts (keySteps P) (PairPromise P) i (Stands P i .start)
      (expandT fileSteps (do
        io (perform .createConfigRoot)
        io (perform (.writeFile .signingKey (some privPem)))
        io (perform (.setPermissions .signingKey 0o600))
        io (perform (.writeFile .signingPub (some pubPem)))
        io (perform (.setPermissions .signingPub 0o644))
        pure pubPem : Fallible String))
      (fun pem => Stands P i (.has pem)) (Stands P i .failed) := by
  have hprivate := P.rsa.parse_privatePem sk privPem hpriv
  have hpublic := P.rsa.parse_publicPem sk.pub pubPem hpub
  have hroot :
      expandT fileSteps (io (perform .createConfigRoot)) = io (perform .createConfigRoot) := by
    rw [expandT_attempt, expand_single fun _ _ h => by cases h]
  have hchmod : ∀ a mode, expandT fileSteps (io (perform (.setPermissions a mode))) =
      io (perform (.setPermissions a mode)) := by
    intro a mode
    rw [expandT_attempt, expand_single fun _ _ h => by cases h]
  rw [expandT_bind, hroot]
  refine attempts_createConfigRoot.bind stable_stands fun _ => ?_
  rw [expandT_bind]
  refine (attempts_write stable_stands stable_stands stable_stands
    (fun x r y hx hS => open_privateKey hx hS)
    fun x r y hx hS => write_privateKey hx hS).bind stable_stands fun _ => ?_
  rw [expandT_bind, hchmod]
  refine attempts_setPermissions.bind stable_stands fun _ => ?_
  rw [expandT_bind]
  refine (attempts_write stable_stands stable_stands stable_stands
    (fun x r y hx hS => open_publicKey hx hS)
    fun x r y hx hS => write_publicKey hprivate hpublic hx hS).bind stable_stands fun _ => ?_
  rw [expandT_bind, hchmod]
  refine attempts_setPermissions.bind stable_stands fun _ => ?_
  exact Attempts.pure stable_stands fun _ hx => hx

theorem attempts_ensureHostSigningKey :
    Attempts (keySteps P) (PairPromise P) i (Stands P i .start)
      (expandT fileSteps (ensureHostSigningKey P)) (fun pem => Stands P i (.has pem))
      (Stands P i .failed) := by
  unfold ensureHostSigningKey
  rw [expandT_bind, expandT_lift, expand_single fun _ _ h => by cases h]
  refine Attempts.bind (Q := fun present => Stands P i (if present then .found else .start))
    (Attempts.lift (Promises.perform stable_stands (fun _ => stable_stands) ?_)) stable_stands
    fun present => ?_
  · intro x r y hx hS
    have h : Unmoved x y := unmoved_step rfl hS
    obtain ⟨-, hr⟩ := step_exists hS.1
    have hy := hx.unmoved h
    refine ⟨h.promise ⟨_, hS.2.1⟩, ?_⟩
    cases r with
    | false => exact hy
    | true =>
        refine ⟨hy.sound, hy.turn, ?_⟩
        show y.1.sys.file .signingPub ≠ none
        rw [h.same.pub]
        exact Option.isSome_iff_ne_none.1 hr.symm
  cases present with
  | true =>
      show Attempts _ _ i (Stands P i .found) (expandT fileSteps (do
        let pem ← readText .signingPub id
        let _ ← hostPrivateKey P
        pure pem : Fallible String)) _ _
      rw [expandT_bind, expandT_of_only quiet_readText fun o ho => fileSteps_single ho.single]
      refine attempts_readPublic.bind stable_stands fun pem => ?_
      rw [expandT_bind, expandT_of_only quiet_hostPrivateKey fun o ho => fileSteps_single ho.single]
      refine attempts_hostPrivateKey.bind stable_stands fun _ => ?_
      exact Attempts.pure stable_stands fun _ hx => hx
  | false =>
      show Attempts _ _ i (Stands P i .start) (expandT fileSteps (do
        let sk ← attempt (fun e => .policy ("generate host signing key: " ++ e))
          (perform .generateKey)
        let privPem ← settle ((P.rsa.privatePem sk).mapError fun e =>
          .policy ("encode host signing key: " ++ e))
        let pubPem ← settle ((P.rsa.publicPem sk.pub).mapError fun e =>
          .policy ("encode host signing pubkey: " ++ e))
        io (perform .createConfigRoot)
        io (perform (.writeFile .signingKey (some privPem)))
        io (perform (.setPermissions .signingKey 0o600))
        io (perform (.writeFile .signingPub (some pubPem)))
        io (perform (.setPermissions .signingPub 0o644))
        pure pubPem : Fallible String)) _ _
      rw [expandT_bind, expandT_attempt, expand_single fun _ _ h => by cases h]
      refine attempts_generateKey.bind stable_stands fun sk => ?_
      -- a key that does not encode fails the call before it writes anything
      have hfail : (¬ ∃ privPem pubPem, P.rsa.privatePem sk = .ok privPem ∧
          P.rsa.publicPem sk.pub = .ok pubPem) → ∀ x,
          (i, (⟨.generateKey, .ok sk⟩ : Event tpm)) ∈ x.2 ∧ Stands P i .start x →
          Stands P i .failed x := by
        rintro hno x ⟨hmem, hx⟩
        refine ⟨hx.sound, hx.turn, _, hmem, ?_⟩
        rintro ⟨_, privPem, pubPem, hsk, hpriv, hpub⟩
        obtain rfl := Except.ok.inj hsk
        exact hno ⟨privPem, pubPem, hpriv, hpub⟩
      have hstable : Stable (PairPromise P) i fun x =>
          (i, (⟨.generateKey, .ok sk⟩ : Event tpm)) ∈ x.2 ∧ Stands P i .start x := by
        refine Stable.and ?_ stable_stands
        rintro x y hmem ⟨j, -, hG⟩
        obtain ⟨e, hlog⟩ := hG.event
        rw [hlog]
        exact List.mem_append_left _ hmem
      cases hpriv : P.rsa.privatePem sk with
      | error e =>
          refine Attempts.throw hstable (hfail ?_)
          rintro ⟨_, _, hpriv', -⟩
          rw [hpriv] at hpriv'
          cases hpriv'
      | ok privPem =>
          cases hpub : P.rsa.publicPem sk.pub with
          | error e =>
              refine Attempts.throw hstable (hfail ?_)
              rintro ⟨_, _, -, hpub'⟩
              rw [hpub] at hpub'
              cases hpub'
          | ok pubPem =>
              exact (attempts_makePair hpriv hpub).consequence (fun _ hx => hx.2)
                (fun _ _ hx => hx) fun _ hx => hx

/-! ## Histories -/

/-- What calls leave that started on a host without a key: one batch after the other,
each cut short by a crash anywhere but between opening the public key and writing it. -/
inductive Reached (P : Platform) : Machine → Prop
  | fresh {m : Machine} (none_yet : m.sys.file .signingPub = none) : Reached P m
  | crash {κ : Type} [DecidableEq κ] {v u m : Machine} {log : Log tpm κ}
      {qs : κ → Proc (Except LinuxHelloError String)} (before : Reached P v)
      (run : Interleaved (Step P False) (fun _ => ensuring P) v log qs u)
      (undisturbed : Obeys (Step P False) Undisturbed (fun _ : κ => ensuring P) v log)
      (whole : ∀ j, written log j ≠ 3) (files : m.sys.file = u.sys.file) : Reached P m

variable {v u : Machine} {log : Log tpm ι} {qs : ι → Proc (Except LinuxHelloError String)}

def Outcome (P : Platform) (i : ι) (r : Except LinuxHelloError String)
    (x : Machine × Log tpm ι) : Prop :=
  match r with
  | .ok pem => Stands P i (.has pem) x
  | .error _ => Stands P i .failed x

theorem guarded_ensuring (hv : Sound P (v, ([] : Log tpm ι))) (i : ι) :
    Guarded (keySteps P) (PairPromise P) i (Outcome P i) (ensuring P) (v, []) := by
  refine (Promises.consequence attempts_ensureHostSigningKey (fun _ hx => hx) ?_) ⟨hv, rfl, trivial⟩
  rintro (e | pem) x hx
  · exact hx
  · exact hx

theorem sound_run (hv : Sound P (v, ([] : Log tpm ι)))
    (hrun : Interleaved (Step P False) (fun _ => ensuring P) v log qs u)
    (hobeys : Obeys (Step P False) Undisturbed (fun _ => ensuring P) v log) : Sound P (u, log) :=
  hrun.invariant (fun _ _ _ hG => hG.sound) hobeys (guarded_ensuring hv) hv

theorem Reached.pair (h : Reached P v) :
    v.sys.file .signingPub = none ∨ ∃ pem, MatchingPair P v.sys pem := by
  induction h with
  | fresh none_yet => exact .inl none_yet
  | @crash κ _ v u m log qs before run undisturbed whole files ih =>
      have hsound := sound_run (sound_start ih) run undisturbed
      have hsame : SameKeys u.sys m.sys := ⟨by rw [files], by rw [files]⟩
      by_cases hnone : u.sys.file .signingPub = none
      · exact .inl (hsame.pub.trans hnone)
      · obtain ⟨pem, hpair⟩ := hsound.paired ⟨hnone, whole⟩
        exact .inr ⟨pem, hpair.congr hsame⟩

/-- What is there of the pair at the start of a batch is never changed by it. -/
theorem sameKeys_run (hv : Sound P (v, ([] : Log tpm ι)))
    (hsome : v.sys.file .signingPub ≠ none)
    (hrun : Interleaved (Step P False) (fun _ => ensuring P) v log qs u)
    (hobeys : Obeys (Step P False) Undisturbed (fun _ => ensuring P) v log) :
    SameKeys v.sys u.sys := by
  have hstart : Sound P (v, ([] : Log tpm ι)) ∧ Settled (v, ([] : Log tpm ι)) ∧
      SameKeys v.sys v.sys := ⟨hv, ⟨hsome, fun _ h => by cases h⟩, .refl _⟩
  have hend := hrun.invariant (I := fun x => Sound P x ∧ Settled x ∧ SameKeys v.sys x.1.sys)
    (fun i x y hG => by
      rintro ⟨hx, hsettled, hsame⟩
      obtain ⟨hstep, hsettled'⟩ := hG.settled hx hsettled
      exact ⟨hG.sound hx, hsettled', hsame.trans hstep⟩) hobeys (guarded_ensuring hv) hstart
  exact hend.2.2

theorem answers_step (m : Machine) (o : Op) : ∃ r m', Step P False m o r m' :=
  ⟨_, _, .inl ⟨.fixed P, rfl⟩⟩

/-- Batches of calls from a host without a key, each call undisturbed and no crash
between opening the public key and writing it: the files hold one pair once the calls
have ended, a call that returns a key returns its public half, one fails only over a
key it could not use, a pair from before stays, and every call comes to its end. -/
theorem host_key_pair (hv : Reached P v)
    (hrun : Interleaved (Step P False) (fun _ => ensuring P) v log qs u)
    (hobeys : Obeys (Step P False) Undisturbed (fun _ => ensuring P) v log) :
    ((∀ i, ∃ r, qs i = .ret r) →
      u.sys.file .signingPub = none ∨ ∃ pem, MatchingPair P u.sys pem) ∧
    (∀ i pem, qs i = .ret (.ok pem) → MatchingPair P u.sys pem) ∧
    (∀ i e, qs i = .ret (.error e) → Unusable P log i) ∧
    (v.sys.file .signingPub ≠ none → SameKeys v.sys u.sys) ∧
    ∀ m, ∃ r m', Exec (Step P False) (ensuring P) m r m' := by
  have hstart : Sound P (v, ([] : Log tpm ι)) := sound_start hv.pair
  have hsound := sound_run hstart hrun hobeys
  have hends : ∀ i r, qs i = .ret r → Outcome P i r (u, log) := by
    intro i r hr
    have hguarded := hrun.guarded hobeys (guarded_ensuring hstart) i
    rw [hr] at hguarded
    exact hguarded.result
  refine ⟨fun hall => ?_, fun i pem hret => ?_, fun i e hret => (hends i _ hret).holds,
    fun hsome => sameKeys_run hstart hsome hrun hobeys, fun m => ?_⟩
  · by_cases hnone : u.sys.file .signingPub = none
    · exact .inl hnone
    · refine .inr (hsound.paired ⟨hnone, fun j hj => ?_⟩)
      obtain ⟨r, hr⟩ := hall j
      have hend := hends j r hr
      cases r with
      | error e =>
          have hzero : written log j = 0 := hend.turn
          rw [hzero] at hj
          cases hj
      | ok pem => exact hend.holds.1.2 j hj
  · have hhas := hends i _ hret
    obtain ⟨hsettled, hpub⟩ := hhas.holds
    obtain ⟨pem', hpair⟩ := hsound.paired hsettled
    rw [hpair.public_half] at hpub
    rwa [← Option.some.inj (Option.some.inj hpub)]
  · exact (ensuring P).only_true.answers (fun w o _ => answers_step w o) m

/-! ## A crash and two calls -/

theorem signingPub_unwritten {ps : ι → Proc (Except LinuxHelloError String)}
    (hrun : Interleaved (Step P False) ps v log qs u)
    (hlog : ∀ e ∈ log, e.2.1.mayWrite .signingPub = false) :
    u.sys.file .signingPub = v.sys.file .signingPub := by
  induction hrun with
  | nil => rfl
  | @snoc rs w w' u log j o k r _ _ hstep ih =>
      rw [step_file hstep (hlog (j, ⟨o, r⟩) (List.mem_append_right _ List.mem_cons_self))]
      exact ih fun e he => hlog e (List.mem_append_left _ he)

def Op.readsPub : Op → Bool
  | .readFile .signingPub => true
  | _ => false

theorem Op.readsPub_iff {o : Op} : o.readsPub = true ↔ o = .readFile .signingPub := by
  cases o with
  | readFile a => cases a <;> simp [Op.readsPub]
  | _ => simp [Op.readsPub]

/-- One of two calls is undisturbed as far as the log shows: nothing in it has touched
the public key when the call begins to write. -/
structure Clear (pre : Log tpm Bool) (i : Bool) (e : Event tpm) : Prop where
  begins : e.1.mayWrite .signingKey = true ∧ written pre i = 0 →
    pre.all (fun f => !f.2.1.mayWrite .signingPub) = true ∧ ¬ Making pre (!i)
  reads : e.1.readsPub = true → written pre (!i) ≠ 3

instance (log : Log tpm ι) (i : ι) : Decidable (Making log i) :=
  inferInstanceAs (Decidable (_ ∧ _))

instance (pre : Log tpm Bool) (i : Bool) (e : Event tpm) : Decidable (Clear pre i e) :=
  decidable_of_iff ((e.1.mayWrite .signingKey = true ∧ written pre i = 0 →
      pre.all (fun f => !f.2.1.mayWrite .signingPub) = true ∧ ¬ Making pre (!i)) ∧
      (e.1.readsPub = true → written pre (!i) ≠ 3))
    ⟨fun h => ⟨h.1, h.2⟩, fun h => ⟨h.begins, h.reads⟩⟩

theorem Clear.undisturbed {pre : Log tpm Bool} {i : Bool} {e : Event tpm} {v u : Machine}
    {qs : Bool → Proc (Except LinuxHelloError String)} (h : Clear pre i e)
    (hnone : v.sys.file .signingPub = none)
    (hrun : Interleaved (Step P False) (fun _ => ensuring P) v pre qs u) :
    Undisturbed u pre i e := by
  have hother : ∀ j, j ≠ i → j = !i := fun j hj => Bool.eq_not.2 hj
  constructor
  · intro hwrites hzero
    obtain ⟨hall, hmaking⟩ := h.begins ⟨hwrites, hzero⟩
    refine ⟨?_, fun j hj => hother j hj ▸ hmaking⟩
    rw [signingPub_unwritten hrun fun f hf => ?_]
    · exact hnone
    · simpa using List.all_eq_true.1 hall f hf
  · intro hread j hj
    exact hother j hj ▸ h.reads (Op.readsPub_iff.2 hread)

/-- A scheduled run of two calls with a clear log is undisturbed. -/
theorem obeys_of_clear {log : Log tpm Bool} {v : Machine} (hnone : v.sys.file .signingPub = none)
    (h : checked (fun pre i e => Decidable.decide (Clear pre i e)) [] log = true) :
    Obeys (Step P False) Undisturbed (fun _ : Bool => ensuring P) v log :=
  obeys_of_checked (fun _ _ _ _ _ hrun hclear =>
    Clear.undisturbed (of_decide_eq_true hclear) hnone hrun) h

/-- The simulated machine before it has a key. -/
def keylessMachine : Machine :=
  let m := simulatedMachine true none
  (m.setFile .signingKey none).setFile .signingPub none

def twoKeyRsa : RsaLib simulatedHash :=
  { simulatedRsa with
    parsePublic := fun text =>
      if text = "host.pem" then .ok hostKey
      else if text = "old.pem" then .ok oldKey else .error "not a key"
    publicPem := fun k =>
      if k = hostKey then .ok "host.pem" else if k = oldKey then .ok "old.pem"
        else .error "not a key"
    parsePrivate := fun text =>
      if text = "host.key" then .ok hostPair
      else if text = "old.key" then .ok { pub := oldKey, d := [] } else .error "not a key"
    privatePem := fun k =>
      if k = hostPair then .ok "host.key"
      else if k = { pub := oldKey, d := [] } then .ok "old.key" else .error "not a key"
    parse_publicPem := by
      intro k pem h
      split at h
      · rename_i hk
        rw [← Except.ok.inj h, hk, if_pos rfl]
      · split at h
        · rename_i hk
          rw [← Except.ok.inj h, hk, if_neg (by decide), if_pos rfl]
        · cases h
    parse_privatePem := by
      intro k pem h
      split at h
      · rename_i hk
        rw [← Except.ok.inj h, hk, if_pos rfl]
      · split at h
        · rename_i hk
          rw [← Except.ok.inj h, hk, if_neg (by decide), if_pos rfl]
        · cases h }

def twoKeys : Platform := { simulated with rsa := twoKeyRsa }

def choosing (k : PrivateKey) : Choices twoKeys where
  blobs _ _ _ := .error ""
  blobs_ok := by
    rintro _ _ _ _ _ h
    cases h
  key := .ok k

/-- The files after a crash, on a machine that has just started. -/
def restarted (m : Machine) : Machine :=
  { keylessMachine with sys := { keylessMachine.sys with file := m.sys.file } }

/-- Both calls find no key, and the first has written the private half. -/
def brokenOff : List (Bool × Choices twoKeys) :=
  List.replicate 1 (true, choosing { pub := oldKey, d := [] }) ++
    List.replicate 5 (false, choosing { pub := oldKey, d := [] })

/-- The second call finds the public key once the first has opened it, and reads it once
that is written. -/
def madeAnew : List (Bool × Choices twoKeys) :=
  List.replicate 7 (false, choosing hostPair) ++ List.replicate 1 (true, choosing hostPair) ++
    List.replicate 1 (false, choosing hostPair) ++ List.replicate 2 (true, choosing hostPair) ++
    List.replicate 1 (false, choosing hostPair)

theorem host_key_pair_keyless : ∃ (v u : Machine) (log : Log tpm Bool)
    (qs : Bool → Proc (Except LinuxHelloError String)), Reached twoKeys v ∧
    (v.sys.file .signingKey : Option (Option String)) = some (some "old.key") ∧
    Interleaved (Step twoKeys False) (fun _ => ensuring twoKeys) v log qs u ∧
    log.map Prod.fst = madeAnew.map Prod.fst ∧
    (∀ i, qs i = .ret (.ok "host.pem")) ∧ MatchingPair twoKeys u.sys "host.pem" := by
  have hrun : ((scheduleLog (fun c m o => some (respond c m o)) (fun _ => ensuring twoKeys)
      keylessMachine [] brokenOff).bind fun x =>
        (scheduleLog (fun c m o => some (respond c m o)) (fun _ => ensuring twoKeys)
          (restarted x.2.1) [] madeAnew).map fun y => Decidable.decide
            (checked (fun pre i e => Decidable.decide (Clear pre i e)) [] x.2.2 = true ∧
              (∀ i, written x.2.2 i = if i then 0 else 2) ∧
              (x.2.1.sys.file .signingKey : Option (Option String)) = some (some "old.key") ∧
              (x.2.1.sys.file .signingPub).isNone = true ∧
              checked (fun pre i e => Decidable.decide (Clear pre i e)) [] y.2.2 = true ∧
              y.2.2.map Prod.fst = madeAnew.map Prod.fst ∧
              ∀ i, (y.1 i).result? = some (.ok "host.pem"))) = some true := by
    decide +kernel
  obtain ⟨⟨ps, w, log₁⟩, hbroken, hrest⟩ := Option.bind_eq_some_iff.1 hrun
  obtain ⟨⟨qs, u, log₂⟩, hanew, htests⟩ := Option.map_eq_some_iff.1 hrest
  obtain ⟨hclear₁, hwritten, hkey, hpub, hclear₂, hturns, hcalls⟩ := of_decide_eq_true htests
  have hstep : ∀ (c : Choices twoKeys) m o r m', some (respond c m o) = some (r, m') →
      Step twoKeys False m o r m' := fun c m o r m' h => .inl ⟨c, (Option.some.inj h).symm⟩
  have hpool₁ := Interleaved.scheduleLog hstep (.nil _ _) hbroken
  have hpool₂ := Interleaved.scheduleLog hstep (.nil _ _) hanew
  have hwhole : ∀ j, written log₁ j ≠ 3 := by
    intro j
    rw [hwritten]
    split <;> decide
  have hreached : Reached twoKeys (restarted w) :=
    .crash (.fresh rfl) hpool₁ (obeys_of_clear rfl hclear₁) hwhole rfl
  have hdone : ∀ i, qs i = .ret (.ok "host.pem") := fun i =>
    Program.eq_ret_of_result? (hcalls i)
  have hnone : (restarted w).sys.file .signingPub = none := Option.isNone_iff_eq_none.1 hpub
  obtain ⟨-, hpair, -⟩ := host_key_pair hreached hpool₂ (obeys_of_clear hnone hclear₂)
  exact ⟨restarted w, u, log₂, qs, hreached, hkey, hpool₂, hturns, hdone,
    hpair true _ (hdone true)⟩

/-! ## Crossed writes -/

/-- Both calls find no key; the second writes both halves while the first is between
its own two writes. -/
def crossedWrites : List (Bool × Choices twoKeys) :=
  List.replicate 6 (false, choosing hostPair) ++
    List.replicate 9 (true, choosing { pub := oldKey, d := [] }) ++
    List.replicate 3 (false, choosing hostPair)

theorem not_host_key_pair_of_crossed :
    ¬ ∀ (P : Platform) (ι : Type) [DecidableEq ι] (v u : Machine) (log : Log tpm ι)
      (qs : ι → Proc (Except LinuxHelloError String)), v.sys.file .signingKey = none →
      v.sys.file .signingPub = none →
      Interleaved (Step P False) (fun _ => ensuring P) v log qs u →
      (∀ i, ∃ r, qs i = .ret r) →
      (∀ i pem, qs i = .ret (.ok pem) → u.sys.file .signingPub = some (some pem)) ∧
      ∀ pem, u.sys.file .signingPub = some (some pem) → MatchingPair P u.sys pem := by
  intro hall
  have hrun : ((schedule (fun c m o => some (respond c m o))
      (fun _ : Bool => ensuring twoKeys) keylessMachine crossedWrites).map fun x =>
        ((x.1 false).result?.isSome, (x.1 true).result?.isSome,
          (x.2.sys.file .signingKey : Option (Option String)),
          (x.2.sys.file .signingPub : Option (Option String)))) =
      some (true, true, some (some "old.key"), some (some "host.pem")) := by
    decide +kernel
  obtain ⟨⟨qs, u⟩, hschedule, heq⟩ := Option.map_eq_some_iff.1 hrun
  simp only [Prod.mk.injEq] at heq
  obtain ⟨hfalse, htrue, hkey, hpub⟩ := heq
  obtain ⟨log, hpool⟩ := Interleaved.schedule (S := Step twoKeys False)
    (fun c m o r m' h => .inl ⟨c, (Option.some.inj h).symm⟩) (.nil _ _) hschedule
  have hdone : ∀ i, ∃ r, qs i = .ret r := by
    rintro (_ | _)
    · obtain ⟨r, hr⟩ := Option.isSome_iff_exists.1 hfalse
      exact ⟨r, Program.eq_ret_of_result? hr⟩
    · obtain ⟨r, hr⟩ := Option.isSome_iff_exists.1 htrue
      exact ⟨r, Program.eq_ret_of_result? hr⟩
  obtain ⟨-, hmatch⟩ := hall twoKeys Bool _ _ _ _ rfl rfl hpool hdone
  obtain ⟨sk, keyPem, hfile, hprivate, hpublic⟩ := (hmatch "host.pem" hpub).matching
  rw [hkey] at hfile
  obtain rfl := Option.some.inj (Option.some.inj hfile)
  have hsk : twoKeys.rsa.parsePrivate "old.key" = .ok { pub := oldKey, d := [] } := rfl
  rw [hsk] at hprivate
  obtain rfl := Except.ok.inj hprivate
  have hkeys : oldKey = hostKey := (Except.ok.inj hpublic).symm
  have hheads : (modulus 2).head? = (modulus 1).head? :=
    congrArg (fun k : PublicKey => k.n.head?) hkeys
  rw [modulus_head 2, modulus_head 1] at hheads
  cases hheads

end Linhello.Tpm
