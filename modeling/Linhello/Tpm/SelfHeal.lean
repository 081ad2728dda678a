import Linhello.Tpm.Tampering
/-!
# Who signs, and when

The host's signature file changes only where a signature over the current registers
is added, and the two ways there both pass a Secure Boot reading: the plan of a seal,
and the check before self-healing.
-/

namespace Linhello.Tpm

open Common Effect Host
open Linhello.Core (SealedEnvelope)

variable {P : Platform} {faulty : Prop} {m m' : Machine} {α : Type}

/-! ## Signing -/

/-- An entry that the host's key signed for the registers of a system. -/
structure SignedEntry (P : Platform) (y : System) (e : RawEntry) : Prop where
  made : ∃ sk sig policyRef, e.pol = hexLower (pcrPolicy P.H y.pcr e.pcrs) ∧
    e.sig = P.encode sig ∧
    P.rsa.sign sk (authorizationHash P.H (pcrPolicy P.H y.pcr e.pcrs) policyRef) = .ok sig

/-- The entries of all banks of a signature file. -/
def entriesOf : Option (Json Banks) → List RawEntry
  | some (.value banks) => banks.entries.flatMap fun x => x.2
  | _ => []

theorem mem_entriesOf {banks : Banks} {e : RawEntry} :
    e ∈ entriesOf (some (.value banks)) ↔ ∃ bank es, banks.lookup bank = some es ∧ e ∈ es := by
  simp only [entriesOf, List.mem_flatMap]
  constructor
  · rintro ⟨⟨bank, es⟩, hmem, he⟩
    exact ⟨bank, es, AList.mem_lookup_iff.2 hmem, he⟩
  · rintro ⟨bank, es, hlookup, he⟩
    exact ⟨⟨bank, es⟩, AList.mem_lookup_iff.1 hlookup, he⟩

theorem mem_addEntry {banks : Banks} {bank : String} {entry e : RawEntry}
    (h : e ∈ entriesOf (some (.value (addEntry banks bank entry)))) :
    e ∈ entriesOf (some (.value banks)) ∨ e = entry := by
  obtain ⟨b, es, hlookup, he⟩ := mem_entriesOf.1 h
  have hlist : ∀ e' ∈ (banks.lookup bank).getD [], e' ∈ entriesOf (some (.value banks)) := by
    intro e' he'
    cases hbank : banks.lookup bank with
    | none =>
        rw [hbank] at he'
        cases he'
    | some es' =>
        rw [hbank] at he'
        exact mem_entriesOf.2 ⟨bank, es', hbank, he'⟩
  unfold addEntry at hlookup
  dsimp only at hlookup
  split at hlookup
  · by_cases hb : b = bank
    · subst hb
      rw [AList.lookup_insert] at hlookup
      obtain rfl := Option.some.inj hlookup
      exact .inl (hlist e he)
    · rw [AList.lookup_insert_ne hb] at hlookup
      exact .inl (mem_entriesOf.2 ⟨b, es, hlookup, he⟩)
  · by_cases hb : b = bank
    · subst hb
      rw [AList.lookup_insert] at hlookup
      obtain rfl := Option.some.inj hlookup
      rcases List.mem_append.1 he with he | he
      · exact .inl (hlist e he)
      · exact .inr (List.mem_singleton.1 he)
    · rw [AList.lookup_insert_ne hb] at hlookup
      exact .inl (mem_entriesOf.2 ⟨b, es, hlookup, he⟩)

/-! ## What a function adds to the file -/

/-- The registers and the firmware are as before, and what came into the signature file
is signed for these registers. -/
structure Signs (P : Platform) (m m' : Machine) : Prop where
  pcr : m'.sys.pcr = m.sys.pcr
  efivar : m'.sys.efivar = m.sys.efivar
  added : ∀ e ∈ entriesOf (m'.sys.file .signatures),
    e ∈ entriesOf (m.sys.file .signatures) ∨ SignedEntry P m.sys e

theorem signedEntry_congr {y y' : System} (h : y'.pcr = y.pcr) {e : RawEntry}
    (he : SignedEntry P y' e) : SignedEntry P y e := by
  obtain ⟨sk, sig, policyRef, hpol, hsig, hsign⟩ := he
  rw [h] at hpol hsign
  exact ⟨sk, sig, policyRef, hpol, hsig, hsign⟩

theorem Signs.refl (m : Machine) : Signs P m m := ⟨rfl, rfl, fun _ he => .inl he⟩

theorem Signs.trans {u v w : Machine} (h₁ : Signs P u v) (h₂ : Signs P v w) : Signs P u w := by
  refine ⟨h₂.pcr.trans h₁.pcr, h₂.efivar.trans h₁.efivar, fun e he => ?_⟩
  rcases h₂.added e he with hv | hsigned
  · exact h₁.added e hv
  · exact .inr (signedEntry_congr h₁.pcr hsigned)

/-- The signature file is as before, or Secure Boot is on and what came in is signed. -/
structure Heals (P : Platform) (m m' : Machine) : Prop extends Signs P m m' where
  gate : m'.sys.file .signatures = m.sys.file .signatures ∨ secureBootOf m.sys.efivar = true

theorem Heals.refl (m : Machine) : Heals P m m := ⟨.refl m, .inl rfl⟩

theorem Heals.trans {u v w : Machine} (h₁ : Heals P u v) (h₂ : Heals P v w) : Heals P u w := by
  refine ⟨h₁.toSigns.trans h₂.toSigns, ?_⟩
  rcases h₂.gate with hw | hon
  · rcases h₁.gate with hv | hon
    · exact .inl (hw.trans hv)
    · exact .inr hon
  · rw [h₁.efivar] at hon
    exact .inr hon

theorem heals_of_file {p : Program tpm α}
    (hp : p.Only fun o : Op => o.mayWrite .signatures = false) :
    Moves (Step P faulty) (Heals P) p := by
  intro m a m' h
  obtain ⟨hpcr, hefivar, -⟩ := exec_surroundings h
  have hfile := exec_file hp h
  refine ⟨⟨hpcr, hefivar, fun e he => .inl ?_⟩, .inl hfile⟩
  rwa [hfile] at he

theorem heals_of_quiet {p : Program tpm α} (hp : p.Only Op.Quiet) :
    Moves (Step P faulty) (Heals P) p :=
  heals_of_file (hp.imp fun _ ho => ho.1 _)

theorem signs_of_quiet {p : Program tpm α} (hp : p.Only Op.Quiet) :
    Moves (Step P faulty) (Signs P) p :=
  (heals_of_quiet hp).consequence fun _ _ h => h.toSigns

theorem keeps_perform {o : Op} (h : o.mayWrite .signatures = false) :
    (perform o).Only fun o : Op => o.mayWrite .signatures = false :=
  only_perform h

/-- Behind a part that does not write the signature file, that part has failed or the
file is still as it was. -/
theorem exec_after {β : Type} {x : Fallible α} {f : α → Fallible β} {r : Except LinuxHelloError β}
    (hx : x.run.Only fun o : Op => o.mayWrite .signatures = false)
    (h : Exec (Step P faulty) (x >>= f).run m r m') :
    m'.sys.file .signatures = m.sys.file .signatures ∨
      ∃ a v, Exec (Step P faulty) x.run m (.ok a) v ∧
        v.sys.file .signatures = m.sys.file .signatures ∧
          Exec (Step P faulty) (f a).run v r m' := by
  obtain ⟨a, v, hxa, hfa⟩ | ⟨e, hxe, -⟩ := exec_exceptT_bind.1 h
  · exact .inr ⟨a, v, hxa, exec_file hx hxa, hfa⟩
  · exact .inl (exec_file hx hxe)

private theorem step_renameSignatures {r : Except IoError Unit}
    (hs : Step P faulty m .renameSignatures r m') :
    m'.sys.file .signatures = m.sys.file .signatures ∨
      m'.sys.file .signatures = m.sys.file .signaturesTmp := by
  obtain ⟨ch, hr⟩ | ⟨-, -, rfl⟩ := hs
  · rw [respond] at hr
    split at hr
    · rw [(Prod.mk.inj hr).2]
      exact .inl rfl
    · rename_i d hfile
      rw [(Prod.mk.inj hr).2, hfile]
      exact .inr rfl
  · exact .inl rfl

private theorem exec_replaceSignatures {banks : Banks} {r : Except LinuxHelloError Unit}
    (h : Exec (Step P faulty) (do
      io (perform .createConfigRoot)
      io (perform (.writeFile .signaturesTmp (.value banks)))
      io (perform (.setPermissions .signaturesTmp 0o644))
      io (perform .renameSignatures) : Fallible Unit).run m r m') :
    m'.sys.file .signatures = m.sys.file .signatures ∨
      m'.sys.file .signatures = some (.value banks) := by
  rcases exec_after (only_attempt (keeps_perform rfl)) h with hsame | ⟨_, v₁, -, hv₁, h₁⟩
  · exact .inl hsame
  rcases exec_after (only_attempt (keeps_perform rfl)) h₁ with hsame | ⟨_, v₂, hwrite, hv₂, h₂⟩
  · exact .inl (hsame.trans hv₁)
  rcases exec_after (only_attempt (keeps_perform rfl)) h₂ with hsame | ⟨_, v₃, hchmod, hv₃, h₃⟩
  · exact .inl (hsame.trans (hv₂.trans hv₁))
  rw [exec_attempt_ok, exec_perform] at hwrite hchmod
  have htmp : v₃.sys.file .signaturesTmp = some (.value banks) := by
    rw [step_file hchmod rfl, step_writeFile_ok hwrite]
    exact setFile_file_self
  obtain ⟨_, hrename, -⟩ := exec_map.1 h₃
  rcases step_renameSignatures (exec_perform.1 hrename) with hsame | hnew
  · exact .inl (hsame.trans (hv₃.trans (hv₂.trans hv₁)))
  · exact .inr (hnew.trans htmp)

/-- Persisting adds at most the one entry, to what was read of the file or to nothing. -/
theorem exec_persistHostSignature {bank : String} {pcrs : List Nat} {polDigest sig : Bytes}
    {r : Except LinuxHelloError Unit}
    (h : Exec (Step P faulty) (persistHostSignature P bank pcrs polDigest sig).run m r m') :
    ∀ e ∈ entriesOf (m'.sys.file .signatures), e ∈ entriesOf (m.sys.file .signatures) ∨
      e.pcrs = pcrs ∧ e.pol = hexLower polDigest ∧ e.sig = P.encode sig := by
  have hkeep : m'.sys.file .signatures = m.sys.file .signatures →
      ∀ e ∈ entriesOf (m'.sys.file .signatures), e ∈ entriesOf (m.sys.file .signatures) ∨
        e.pcrs = pcrs ∧ e.pol = hexLower polDigest ∧ e.sig = P.encode sig := by
    intro hsame e he
    rw [hsame] at he
    exact .inl he
  unfold persistHostSignature at h
  rcases exec_after (only_exceptT_lift (keeps_perform rfl))
    h with hsame | ⟨read, v₁, hread, hv₁, h₁⟩
  · exact hkeep hsame
  have hquiet : ∀ {f : Artifact} {as : f.Data → Option String},
      (readText f as).run.Only fun o : Op => o.mayWrite .signatures = false :=
    quiet_readText.imp fun _ ho => ho.1 _
  rcases exec_after hquiet h₁ with hsame | ⟨hostPem, v₂, -, hv₂, h₂⟩
  · exact hkeep (hsame.trans hv₁)
  rcases exec_after only_settle h₂ with hsame | ⟨pkfp, v₃, -, hv₃, h₃⟩
  · exact hkeep (hsame.trans (hv₂.trans hv₁))
  rcases exec_replaceSignatures h₃ with hsame | hnew
  · exact hkeep (hsame.trans (hv₃.trans (hv₂.trans hv₁)))
  intro e he
  rw [hnew] at he
  rcases mem_addEntry he with hold | rfl
  · refine .inl ?_
    rw [exec_exceptT_lift_ok, exec_perform] at hread
    cases read with
    | error err => cases hold
    | ok json =>
        obtain ⟨hfile, -⟩ := step_readFile_ok hread
        cases json with
        | value banks =>
            rw [hfile]
            exact hold
        | invalidUtf8 => cases hold
        | malformed msg => cases hold
  · exact .inr ⟨rfl, rfl, rfl⟩

theorem signs_ensureHostSignature {pcrs : List Nat} {policyRef : Bytes} :
    Moves (Step P faulty) (Signs P) (ensureHostSignature P pcrs policyRef).run := by
  intro m r m' h
  obtain ⟨hpcr, hefivar, -⟩ := exec_surroundings h
  refine ⟨hpcr, hefivar, ?_⟩
  have hkeep : m'.sys.file .signatures = m.sys.file .signatures →
      ∀ e ∈ entriesOf (m'.sys.file .signatures), e ∈ entriesOf (m.sys.file .signatures) ∨
        SignedEntry P m.sys e := by
    intro hsame e he
    rw [hsame] at he
    exact .inl he
  have hkeeps : ∀ {β : Type} {p : Program tpm β}, p.Only Op.Quiet →
      p.Only fun o : Op => o.mayWrite .signatures = false :=
    fun hp => hp.imp fun _ ho => ho.1 _
  unfold ensureHostSignature at h
  rcases exec_after (hkeeps quiet_openContext) h with hsame | ⟨_, v₁, hopen, hv₁, h₁⟩
  · exact hkeep hsame
  obtain rfl := exec_openContext_ok hopen
  rcases exec_after only_settle h₁ with hsame | ⟨sel, v₂, ⟨hsel, rfl⟩, -, h₂⟩
  · exact hkeep hsame
  obtain rfl := pcrSelection_ok hsel.symm
  rcases exec_after (hkeeps quiet_computePolicyDigest)
    h₂ with hsame | ⟨approved, v₃, hdigest, hv₃, h₃⟩
  · exact hkeep hsame
  obtain ⟨rfl, -, -⟩ := exec_computePolicyDigest_ok hdigest
  rcases exec_after (hkeeps (@quiet_signaturesFor P .linhelloHost)) h₃ with
    hsame | ⟨existing, v₄, -, hv₄, h₄⟩
  · exact hkeep (hsame.trans hv₃)
  split at h₄
  · obtain ⟨-, rfl⟩ := h₄
    exact hkeep (hv₄.trans hv₃)
  · rcases exec_after (hkeeps quiet_signAhash) h₄ with hsame | ⟨sig, v₅, hsign, hv₅, h₅⟩
    · exact hkeep (hsame.trans (hv₄.trans hv₃))
    obtain ⟨pem, sk, -, -, hsig, -⟩ := exec_signAhash_ok hsign
    have hpersist : ∃ r', Exec (Step P faulty)
        (persistHostSignature P DEFAULT_BANK sel (policyOver P v₂.sys (some sel))
          sig).run v₅ r' m' := by
      obtain ⟨_, v₆, hok, -, rfl⟩ | ⟨e, herror, -⟩ := exec_exceptT_bind.1 h₅
      · exact ⟨_, hok⟩
      · exact ⟨_, herror⟩
    obtain ⟨r', hpersist⟩ := hpersist
    intro e he
    rcases exec_persistHostSignature hpersist e he with hold | ⟨rfl, hpol, hencode⟩
    · rw [hv₅, hv₄, hv₃] at hold
      exact .inl hold
    · exact .inr ⟨sk, sig, policyRef, hpol, hencode, hsig⟩

/-! ## The two ways to a signature -/

private theorem heals_selfHeal {signer : SignerKind} {pcrs : List Nat} {policyRef : Bytes} :
    Moves (Step P faulty) (Heals P) (selfHeal P signer pcrs policyRef).run := by
  intro m r m' h
  unfold selfHeal at h
  split at h
  · obtain ⟨on, v, hread, h₁⟩ | ⟨e, herror, -⟩ := exec_exceptT_bind.1 h
    · rw [exec_exceptT_lift_ok] at hread
      obtain ⟨rfl, rfl⟩ := exec_isSecureBootEnabled hread
      split at h₁
      · rename_i hon
        obtain ⟨a, u, hcaught, -, rfl⟩ | ⟨e, herror, -⟩ := exec_exceptT_bind.1 h₁
        · obtain ⟨_, hensure, -⟩ := exec_caught.1 hcaught
          exact ⟨signs_ensureHostSignature hensure, .inr hon⟩
        · obtain ⟨_, hensure, -⟩ := exec_caught.1 herror
          exact ⟨signs_ensureHostSignature hensure, .inr hon⟩
      · obtain ⟨-, rfl⟩ := h₁
        exact .refl _
    · obtain ⟨_, -, hr⟩ := exec_exceptT_lift.1 herror
      cases hr
  · obtain ⟨-, rfl⟩ := h
    exact .refl _

theorem heals_unseal {env : SealedEnvelope} :
    Moves (Step P faulty) (Heals P) («unseal» P env).run := by
  unfold «unseal»
  split
  · exact heals_of_quiet quiet_unsealLiteral
  · refine Moves.exceptT_bind (R := Heals P) Heals.trans (heals_of_quiet quiet_classifySigner)
      fun signer => ?_
    split
    · exact heals_of_quiet only_exceptT_throw
    · refine Moves.exceptT_bind (R := Heals P) Heals.trans heals_selfHeal fun _ => ?_
      refine Moves.exceptT_bind (R := Heals P) Heals.trans
        (heals_of_quiet quiet_openContext) fun _ => ?_
      exact heals_of_quiet quiet_unsealSigned

theorem sealLiteral_keeps {secret : Bytes} {pcrs : List Nat} :
    (sealLiteral P secret pcrs).run.Only fun o : Op => o.mayWrite .signatures = false := by
  have hQ : ∀ o : Op, o.Quiet → o.mayWrite .signatures = false := fun _ ho => ho.1 _
  refine only_exceptT_bind (quiet_openContext.imp hQ) fun _ => ?_
  refine only_exceptT_bind (quiet_readPcrValues.imp hQ) fun values => ?_
  refine only_withSrk hQ fun srk => ?_
  refine only_exceptT_bind only_settle fun selection => ?_
  refine only_exceptT_bind (quiet_computePolicyDigest.imp hQ) fun digest => ?_
  refine only_exceptT_bind only_settle fun sensitive => ?_
  exact only_exceptT_bind (only_attempt (keeps_perform rfl)) fun _ => only_exceptT_pure

theorem signs_sealAuthorized {secret policyRef : Bytes} {pcrs : List Nat} {pubkeyPem : String} :
    Moves (Step P faulty) (Signs P) (sealAuthorized P secret pcrs pubkeyPem policyRef).run := by
  have hQ : ∀ o : Op, o.Quiet → o.mayWrite .signatures = false := fun _ ho => ho.1 _
  refine Moves.exceptT_bind (R := Signs P) Signs.trans (signs_of_quiet quiet_classifySigner)
    fun signer => ?_
  refine Moves.exceptT_bind (R := Signs P) Signs.trans (signs_of_quiet quiet_openContext)
    fun _ => ?_
  refine Moves.exceptT_bind (R := Signs P) Signs.trans (signs_of_quiet quiet_readPcrValues)
    fun values => ?_
  refine Moves.exceptT_bind (R := Signs P) Signs.trans (signs_of_quiet ?_) fun name => ?_
  · exact only_withHandle (fun _ h _ => h) quiet_loadExternalPubkey fun kh =>
      only_attempt (only_perform ⟨fun _ => rfl, rfl⟩)
  refine Moves.exceptT_bind (R := Signs P) Signs.trans ?_ fun env => ?_
  · refine (heals_of_file ?_).consequence fun _ _ h => h.toSigns
    refine only_withSrk hQ fun srk => only_exceptT_bind only_settle fun sensitive => ?_
    exact only_exceptT_bind (only_attempt (keeps_perform rfl)) fun _ => only_exceptT_pure
  · split
    · exact Moves.exceptT_bind (R := Signs P) Signs.trans signs_ensureHostSignature fun _ =>
        signs_of_quiet only_exceptT_pure
    · exact signs_of_quiet only_exceptT_pure

theorem exec_plan_off {p : PolicyPlan} (hoff : secureBootOf m.sys.efivar = false)
    (h : Exec (Step P faulty) (plan P) m p m') : p = .none := by
  unfold plan at h
  obtain ⟨sb, v, hsb, h₁⟩ := exec_bind.1 h
  obtain ⟨rfl, rfl⟩ := exec_isSecureBootEnabled hsb
  obtain ⟨boot, u, -, h₂⟩ := exec_bind.1 h₁
  obtain ⟨available, t, -, h₃⟩ := exec_bind.1 h₂
  rw [hoff] at h₃
  exact h₃.1

private theorem plan_keeps : (plan P).Only fun o : Op => o.mayWrite .signatures = false :=
  plan_only (fun _ ho => ho.1 _) rfl (fun _ => rfl) fun _ => rfl

theorem heals_sealSecret {secret : Bytes} :
    Moves (Step P faulty) (Heals P) (sealSecret P secret).run := by
  intro m r m' h
  unfold sealSecret at h
  have hseal : ∃ p v, Exec (Step P faulty) (plan P) m p v ∧
      Exec (Step P faulty) (sealWithPlan P secret p).run v r m' := by
    obtain ⟨p, v, hplan, hseal⟩ | ⟨e, herror, -⟩ := exec_exceptT_bind.1 h
    · exact ⟨p, v, exec_exceptT_lift_ok.1 hplan, hseal⟩
    · obtain ⟨_, -, hr⟩ := exec_exceptT_lift.1 herror
      cases hr
  obtain ⟨p, v, hplan, hseal⟩ := hseal
  have hv : Heals P m v := heals_of_file plan_keeps hplan
  cases hon : secureBootOf m.sys.efivar with
  | false =>
      obtain rfl := exec_plan_off hon hplan
      exact hv.trans (heals_of_file sealLiteral_keeps hseal)
  | true =>
      refine ⟨hv.toSigns.trans ?_, .inr hon⟩
      cases p with
      | none => exact (heals_of_file sealLiteral_keeps hseal).toSigns
      | literal pcrs => exact (heals_of_file sealLiteral_keeps hseal).toSigns
      | authorized pcrs pubkeyPem policyRef => exact signs_sealAuthorized hseal

/-! ## Runs -/

/-- Reseal: what was sealed under an old plan goes under the plan of the moment. -/
def resealEnvelope (P : Platform) (env : SealedEnvelope) : Fallible SealedEnvelope := do
  let secret ← «unseal» P env
  sealSecret P secret

inductive Action
  | sealing (secret : Bytes) (answer : Except LinuxHelloError SealedEnvelope)
  | opening (env : SealedEnvelope) (answer : Except LinuxHelloError Bytes)
  | resealing (env : SealedEnvelope) (answer : Except LinuxHelloError SealedEnvelope)
  /-- Registers, Secure Boot and any file but the signature file may change. -/
  | environment

def Action.Step (P : Platform) (faulty : Prop) : Action → Machine → Machine → Prop
  | .sealing secret answer, m, m' => Exec (Tpm.Step P faulty) (sealSecret P secret).run m answer m'
  | .opening env answer, m, m' => Exec (Tpm.Step P faulty) («unseal» P env).run m answer m'
  | .resealing env answer, m, m' => Exec (Tpm.Step P faulty) (resealEnvelope P env).run m answer m'
  | .environment, m, m' => m'.sys.file .signatures = m.sys.file .signatures

structure Transition where
  before : Machine
  action : Action
  after : Machine

inductive Run (P : Platform) (faulty : Prop) (m : Machine) : List Transition → Machine → Prop
  | nil : Run P faulty m [] m
  | snoc {v u : Machine} {steps : List Transition} {a : Action} (run : Run P faulty m steps v)
      (step : a.Step P faulty v u) :
      Run P faulty m (steps ++ [{ before := v, action := a, after := u }]) u

theorem Run.step {steps : List Transition} (hrun : Run P faulty m steps m') :
    ∀ t ∈ steps, t.action.Step P faulty t.before t.after := by
  induction hrun with
  | nil =>
      intro t ht
      cases ht
  | snoc run step ih =>
      intro t ht
      rcases List.mem_append.1 ht with ht | ht
      · exact ih t ht
      · rw [List.mem_singleton.1 ht]
        exact step

theorem heals_of_action {a : Action} (ha : a ≠ .environment) (h : a.Step P faulty m m') :
    Heals P m m' := by
  cases a with
  | sealing secret answer => exact heals_sealSecret h
  | opening env answer => exact heals_unseal h
  | resealing env answer =>
      exact Moves.exceptT_bind (R := Heals P) Heals.trans heals_unseal (fun _ => heals_sealSecret) h
  | environment => exact absurd rfl ha

/-- The transition brought the entry in: with Secure Boot on, for its own registers. -/
structure Transition.Adds (P : Platform) (t : Transition) (e : RawEntry) : Prop where
  action : t.action ≠ .environment
  new : e ∉ entriesOf (t.before.sys.file .signatures)
  onFile : e ∈ entriesOf (t.after.sys.file .signatures)
  secureBoot : secureBootOf t.before.sys.efivar = true
  signed : SignedEntry P t.before.sys e

/-- An entry on file after a run was there before, or some step of it added it. -/
theorem Run.provenance {steps : List Transition} (hrun : Run P faulty m steps m') :
    ∀ e ∈ entriesOf (m'.sys.file .signatures), e ∈ entriesOf (m.sys.file .signatures) ∨
      ∃ t ∈ steps, t.Adds P e := by
  induction hrun with
  | nil => exact fun e he => .inl he
  | @snoc v u steps a run step ih =>
      intro e he
      by_cases hold : e ∈ entriesOf (v.sys.file .signatures)
      · rcases ih e hold with hinit | ⟨t, ht, hadds⟩
        · exact .inl hinit
        · exact .inr ⟨t, List.mem_append_left _ ht, hadds⟩
      · have hne : a ≠ .environment := by
          rintro rfl
          rw [show u.sys.file .signatures = v.sys.file .signatures from step] at he
          exact hold he
        have hheals := heals_of_action hne step
        have hsigned := (hheals.added e he).resolve_left hold
        have hon : secureBootOf v.sys.efivar = true := by
          refine hheals.gate.resolve_left fun hsame => ?_
          rw [hsame] at he
          exact hold he
        exact .inr
          ⟨_, List.mem_append_right _ (List.mem_singleton_self _), hne, hold, he, hon, hsigned⟩

/-- The blobs of an envelope that the host's signer authorizes. -/
structure HostSigned (P : Platform) (env : SealedEnvelope) : Prop where
  commits : ∃ o pubkeyPem policyRef area fp, P.sealedIn env = some o ∧
    rsaPemToPublic P pubkeyPem = .ok area ∧ pubkeySpkiFingerprint P pubkeyPem = .ok fp ∧
    fp ≠ TRUSTED_PUBKEY_SPKI_SHA256 ∧ o.authPolicy = authorizeDigest P.H (P.name area) policyRef

/-- The transition got the secret of an envelope. -/
def Transition.Opens (t : Transition) (env : SealedEnvelope) : Prop :=
  (∃ secret, t.action = .opening env (.ok secret)) ∨ ∃ env', t.action = .resealing env (.ok env')

/-- A host-signed secret comes out only over a signature for the registers of the moment. -/
theorem onFile_of_unseal {env : SealedEnvelope} {secret : Bytes} (hhost : HostSigned P env)
    (h : Exec (Step P faulty) («unseal» P env).run m (.ok secret) m') :
    ∃ s, OnFile P m'.sys .linhelloHost s ∧ s.pcrs = LINHELLO_SIGNED_PCRS ∧
      s.pol = pcrPolicy P.H m.sys.pcr LINHELLO_SIGNED_PCRS := by
  obtain ⟨o, pubkeyPem, policyRef, area, fp, hsealed, harea, hfp, hne, hpolicy⟩ := hhost
  obtain ⟨o', hsealed', -, hreaches⟩ := reaches_of_unseal h
  rw [hsealed] at hsealed'
  obtain rfl := Option.some.inj hsealed'
  rcases hreaches with hzero | ⟨pcrs, hpcr⟩ | ⟨pem', ref', signer, area', hsigner, harea',
    hauthorize, hsigned⟩
  · exact absurd (hpolicy.symm.trans hzero) authorizeDigest_ne_zero
  · exact absurd (hpcr.symm.trans hpolicy) pcrPolicy_ne_authorizeDigest
  · have hname := (authorizeDigest_inj (hpolicy.symm.trans hauthorize)).1
    have hkey := parsePublic_of_name harea harea' hname
    obtain ⟨key, s, -, honfile, hpcrs, hpol, -⟩ := hsigned
    rw [(exec_surroundings h).1] at hpol
    cases signer with
    | linhelloHost => exact ⟨s, honfile, hpcrs, hpol⟩
    | systemd =>
        have hsame : pubkeySpkiFingerprint P pubkeyPem = pubkeySpkiFingerprint P pem' := by
          rw [pubkeySpkiFingerprint, pubkeySpkiFingerprint, parsePcrPublicKey,
            parsePcrPublicKey, hkey]
        rw [hsame, hsigner] at hfp
        exact absurd (Except.ok.inj hfp).symm hne

/-- Linhello signs only with Secure Boot on: so every entry that came in during a run was
signed, for the registers of its step, in a step that read Secure Boot as on; a step that
reads it as off leaves the file, and opens a host-signed envelope only over an entry that
is on file for the registers of the moment. -/
theorem signing_gated {steps : List Transition} (hrun : Run P faulty m steps m') :
    (∀ e ∈ entriesOf (m'.sys.file .signatures), e ∈ entriesOf (m.sys.file .signatures) ∨
      ∃ t ∈ steps, t.Adds P e) ∧
    (∀ t ∈ steps, secureBootOf t.before.sys.efivar = false →
      t.after.sys.file .signatures = t.before.sys.file .signatures) ∧
    ∀ t ∈ steps, secureBootOf t.before.sys.efivar = false → ∀ env, HostSigned P env →
      t.Opens env → ∃ s, OnFile P t.before.sys .linhelloHost s ∧ s.pcrs = LINHELLO_SIGNED_PCRS ∧
        s.pol = pcrPolicy P.H t.before.sys.pcr LINHELLO_SIGNED_PCRS := by
  have hoff : ∀ {v u : Machine}, Heals P v u → secureBootOf v.sys.efivar = false →
      u.sys.file .signatures = v.sys.file .signatures := by
    intro v u hheals hsb
    refine hheals.gate.resolve_right ?_
    rw [hsb]
    exact Bool.false_ne_true
  refine ⟨hrun.provenance, ?_, ?_⟩
  · intro t ht hsb
    have hstep := hrun.step t ht
    by_cases henv : t.action = .environment
    · rw [henv] at hstep
      exact hstep
    · exact hoff (heals_of_action henv hstep) hsb
  · intro t ht hsb env hhost hopens
    have hstep := hrun.step t ht
    have hunseal :
        ∃ secret v, Exec (Step P faulty) («unseal» P env).run t.before (.ok secret) v := by
      rcases hopens with ⟨secret, haction⟩ | ⟨env', haction⟩
      · rw [haction] at hstep
        exact ⟨secret, _, hstep⟩
      · rw [haction] at hstep
        obtain ⟨secret, v, hunseal, -⟩ := exec_exceptT_bind_ok.1 hstep
        exact ⟨secret, v, hunseal⟩
    obtain ⟨secret, v, hunseal⟩ := hunseal
    obtain ⟨s, honfile, hpcrs, hpol⟩ := onFile_of_unseal hhost hunseal
    refine ⟨s, ?_, hpcrs, hpol⟩
    rw [OnFile, hoff (heals_unseal hunseal) hsb] at honfile
    exact honfile

def firstSeal : Except LinuxHelloError SealedEnvelope × Machine :=
  eval (respond simulatedChoices) (sealSecret simulated [1, 2, 3]).run (simulatedMachine true none)

/-- Secure Boot is turned on and a first secret is sealed. -/
def firstSteps : List Transition :=
  [{ before := simulatedMachine false none, action := .environment,
     after := simulatedMachine true none },
   { before := simulatedMachine true none, action := .sealing [1, 2, 3] firstSeal.1,
     after := firstSeal.2 }]

private theorem firstSeal_entries : (entriesOf (firstSeal.2.sys.file .signatures)).length = 1 := by
  have hplan : eval (respond simulatedChoices) (liftM (plan simulated) : Fallible PolicyPlan).run
      (simulatedMachine true none) = (.ok (.authorized LINHELLO_SIGNED_PCRS "host.pem" []),
        simulatedMachine true none) := by
    rw [eval_exceptT_lift, eval_plan_simulated]
  have hopen : eval (respond simulatedChoices) (openContext simulated).run
      (simulatedMachine true none) = (.ok (), simulatedMachine true none) := rfl
  have hread : eval (respond simulatedChoices) (readPcrValues LINHELLO_SIGNED_PCRS).run
      (simulatedMachine true none) = (.ok [{ pcr := 7, value := zeroDigest }],
        simulatedMachine true none) := rfl
  rw [firstSeal, sealSecret, eval_exceptT_bind_ok hplan, sealWithPlan, sealAuthorized,
    eval_exceptT_bind_ok (eval_classifySigner simulated_signer), eval_exceptT_bind_ok hopen,
    eval_exceptT_bind_ok hread]
  decide +kernel

/-- The seal leaves one entry on file, which it has signed itself. -/
theorem signing_gated_first_seal :
    Run simulated False (simulatedMachine false none) firstSteps firstSeal.2 ∧
    ∃ e, entriesOf (firstSeal.2.sys.file .signatures) = [e] ∧
      ∃ t ∈ firstSteps, t.Adds simulated e := by
  have hseal : Exec (Step simulated False) (sealSecret simulated [1, 2, 3]).run
      (simulatedMachine true none) firstSeal.1 firstSeal.2 := exec_of_respond simulatedChoices _ _
  have henv : Action.Step simulated False .environment (simulatedMachine false none)
      (simulatedMachine true none) := rfl
  have hrun : Run simulated False (simulatedMachine false none) firstSteps firstSeal.2 :=
    Run.snoc (Run.snoc Run.nil henv) hseal
  obtain ⟨e, he⟩ := List.length_eq_one_iff.1 firstSeal_entries
  refine ⟨hrun, e, he, ?_⟩
  rcases (signing_gated hrun).1 e (by rw [he]; exact List.mem_singleton_self e) with hold | hadds
  · cases hold
  · exact hadds

end Linhello.Tpm
