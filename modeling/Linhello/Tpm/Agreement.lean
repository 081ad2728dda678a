import Linhello.Tpm.Selection
/-!
# What a plan seals, an unseal opens

Sealing leaves an object of this TPM's storage key (`Sealed`) and, for the host's own
signer, a signature over the current registers; an unseal needs just these. Whether
the signature that is found verifies, sealing does not ask.
-/

namespace Linhello.Tpm

open Common Effect Host
open Linhello.Core (SealedEnvelope)

variable {P : Platform} {m m' : Machine} {secret : Bytes} {env : SealedEnvelope}

/-! ## The object that is sealed -/

theorem exec_loadOrCreateSrk_key {srk : Nat} {persistent : Bool}
    (h : Exec (Step P False) (loadOrCreateSrk P).run m (.ok (srk, persistent)) m') :
    ∃ k, m.sys.storageKey P = some k ∧ m'.sys.storageKey P = some k ∧
      m'.object srk = some (.storage k (some [])) := by
  have heval := exec_eval (Choices.fixed P) (quiet_loadOrCreateSrk.imp fun _ ho => ho.2) h
  cases hk : m.sys.storageKey P with
  | some k =>
      obtain ⟨srk', persistent', v, hv, hobject, hkey⟩ :=
        eval_loadOrCreateSrk (c := Choices.fixed P) hk
      rw [hv] at heval
      obtain ⟨hsrk, rfl⟩ := Prod.mk.inj heval
      obtain ⟨rfl, -⟩ := Prod.mk.inj (Except.ok.inj hsrk)
      exact ⟨k, rfl, hkey, hobject⟩
  | none =>
      -- only the handle can be refused
      unfold loadOrCreateSrk at h
      obtain ⟨handle, u, ⟨hhandle, -⟩, -⟩ := exec_exceptT_bind_ok.1 h
      unfold System.storageKey at hk
      rw [← hhandle] at hk
      dsimp only at hk
      split at hk
      · cases hk
      · cases hk

theorem sealed_of_created {srk : Nat} {persistent : Bool} {u : Machine} {k : StorageKey}
    {policy : Bytes}
    (hsrk : Exec (Step P False) (loadOrCreateSrk P).run m (.ok (srk, persistent)) u)
    (hk : u.object srk = some (.storage k (some k.auth)))
    (hobject : P.sealedIn env = some { parent := k.seed, authPolicy := policy, secret := secret })
    (hfits : env.priv.length ≤ P.maxPrivate) :
    Sealed P u.sys env { parent := k.seed, authPolicy := policy, secret := secret } := by
  obtain ⟨k', -, hkey, hk'⟩ := exec_loadOrCreateSrk_key hsrk
  obtain ⟨rfl, hauth⟩ := Loaded.storage.inj (Option.some.inj (hk.symm.trans hk'))
  exact ⟨hobject, hfits, k, hkey, Option.some.inj hauth, rfl⟩

theorem Sealed.congr {y y' : System} {o : SealedObject} (ho : Sealed P y env o)
    (h : y'.persistent = y.persistent) : Sealed P y' env o := by
  refine ⟨ho.object, ho.fits, ?_⟩
  rw [System.storageKey, h]
  exact ho.key

/-! ## The signature that is made -/

/-- The host's signature file answers for the current registers afterwards: with the
entry it had before, or with one the private key made. -/
def HasSignature (P : Platform) (y y' : System) (pcrs : List Nat) (policyRef : Bytes) : Prop :=
  ∃ sigs sigs' s, y.hostSignatures P DEFAULT_BANK = .ok sigs ∧
    y'.hostSignatures P DEFAULT_BANK = .ok sigs' ∧
    findForPolicy sigs' pcrs (pcrPolicy P.H y.pcr pcrs) = some s ∧
    (findForPolicy sigs pcrs (pcrPolicy P.H y.pcr pcrs) = some s ∨
      findForPolicy sigs pcrs (pcrPolicy P.H y.pcr pcrs) = none ∧
      ∃ keyPem sk, y.file .signingKey = some (some keyPem) ∧ P.rsa.parsePrivate keyPem = .ok sk ∧
        P.rsa.sign sk (authorizationHash P.H (pcrPolicy P.H y.pcr pcrs) policyRef) = .ok s.sig)

theorem HasSignature.congr {y₀ y y' : System} {pcrs : List Nat} {policyRef : Bytes}
    (h : HasSignature P y y' pcrs policyRef) (hpcr : y.pcr = y₀.pcr) (hfile : y.file = y₀.file) :
    HasSignature P y₀ y' pcrs policyRef := by
  obtain ⟨sigs, sigs', s, hsigs, hrest⟩ := h
  have hhost : y₀.hostSignatures P DEFAULT_BANK = y.hostSignatures P DEFAULT_BANK :=
    signaturesFor_congr hfile.symm .linhelloHost
  rw [hpcr, hfile] at hrest
  exact ⟨sigs, sigs', s, hhost.trans hsigs, hrest⟩

theorem exec_ensureHostSignature_ok {pcrs : List Nat} {policyRef digest : Bytes} {pem fp : String}
    (hpub : m.sys.file .signingPub = some (some pem)) (hfp : pubkeySpkiFingerprint P pem = .ok fp)
    (h : Exec (Step P False) (ensureHostSignature P pcrs policyRef).run m (.ok digest) m') :
    HasSignature P m.sys m'.sys pcrs policyRef ∧
      m'.sys.persistent = m.sys.persistent ∧ m'.sys.file .signingPub = m.sys.file .signingPub := by
  have hpcrs : pcrSelection pcrs = .ok pcrs := by
    obtain ⟨_, _, -, h₁⟩ := exec_exceptT_bind_ok.1 h
    obtain ⟨sel, _, ⟨hsel, -⟩, -⟩ := exec_exceptT_bind_ok.1 h₁
    rw [← hsel, pcrSelection_ok hsel.symm]
  obtain ⟨v, hv, hensure⟩ := eval_ensureHostSignature (c := Choices.fixed P) (m := m)
    policyRef hpcrs
  have hm' := exec_eval (Choices.fixed P) calm_ensureHostSignature h
  rw [hensure] at hm'
  cases hsigs : m.sys.hostSignatures P DEFAULT_BANK with
  | error e =>
      rw [hsigs] at hm'
      cases hm'
  | ok sigs =>
      rw [hsigs] at hm'
      dsimp only at hm'
      cases hfind : findForPolicy sigs pcrs (pcrPolicy P.H m.sys.pcr pcrs) with
      | some s =>
          rw [hfind] at hm'
          obtain ⟨-, rfl⟩ := Prod.mk.inj hm'
          exact ⟨⟨sigs, sigs, s, hsigs, by rw [hv, hsigs], hfind, .inl hfind⟩, by
            rw [hv], by rw [hv]⟩
      | none =>
          rw [hfind, if_neg (by decide)] at hm'
          have hmade := exec_of_respond (F := False) (Choices.fixed P) (do
            let sig ← signAhash P (authorizationHash P.H (pcrPolicy P.H m.sys.pcr pcrs) policyRef)
            persistHostSignature P DEFAULT_BANK pcrs (pcrPolicy P.H m.sys.pcr pcrs) sig
            pure (pcrPolicy P.H m.sys.pcr pcrs) : Fallible Bytes).run v
          rw [← hm'] at hmade
          obtain ⟨sig, u, hsign, h₁⟩ := exec_exceptT_bind_ok.1 hmade
          obtain ⟨keyPem, sk, hkeyFile, hkey, hsig, rfl⟩ := exec_signAhash_ok hsign
          obtain ⟨_, w, hpersist, -, rfl⟩ := exec_exceptT_bind_ok.1 h₁
          obtain ⟨w', heval, hw'⟩ := eval_persistHostSignature (c := Choices.fixed P) (m := u)
            DEFAULT_BANK pcrs (pcrPolicy P.H m.sys.pcr pcrs) sig (hv ▸ hpub) hfp
          have hw := exec_eval (Choices.fixed P) calm_persistHostSignature hpersist
          rw [heval] at hw
          obtain ⟨-, rfl⟩ := Prod.mk.inj hw
          rw [hv] at hw' hkeyFile
          refine ⟨⟨sigs, _,
            { pcrs := pcrs, pkfp := fp, pol := pcrPolicy P.H m.sys.pcr pcrs, sig := sig },
            hsigs, ?_, findForPolicy_append hfind rfl rfl,
            .inr ⟨hfind, keyPem, sk, hkeyFile, hkey, hsig⟩⟩, ?_, ?_⟩
          · rw [hw', hostSignatures_replaceSignatures]
            exact parseSignatures_addEntry (parseSignatures_existing hsigs) hfind
          · rw [hw']
            rfl
          · rw [hw', System.replaceSignatures, setFile_file_of_ne (by decide),
              setFile_file_of_ne (by decide), setFile_file_of_ne (by decide)]

/-! ## Seal and unseal -/

theorem exec_plan_cases {faulty : Prop} {p : PolicyPlan}
    (h : Exec (Step P faulty) (plan P) m p m') :
    p = .none ∨ p = .literal LITERAL_PCRS ∨
      ∃ pcrs pubkeyPem, p = .authorized pcrs pubkeyPem [] := by
  unfold plan at h
  obtain ⟨sb, _, -, h₁⟩ := exec_bind.1 h
  obtain ⟨boot, _, -, h₂⟩ := exec_bind.1 h₁
  obtain ⟨available, _, -, h₃⟩ := exec_bind.1 h₂
  unfold decide at h₃
  split at h₃
  · exact .inl h₃.1
  · obtain ⟨systemd, _, -, h₄⟩ := exec_bind.1 h₃
    cases systemd with
    | some pubkeyPem => exact .inr (.inr ⟨_, _, h₄.1⟩)
    | none =>
        obtain ⟨host, _, -, h₅⟩ := exec_bind.1 h₄
        cases host with
        | some pubkeyPem => exact .inr (.inr ⟨_, _, h₅.1⟩)
        | none => exact .inr (.inl h₅.1)

/-- The signature an unseal finds first after a seal in this state verifies: the one
that is on file, or for the host's signer the one its private key makes. -/
def Presentable (P : Platform) (y : System) : PolicyPlan → Prop
  | .none | .literal _ => True
  | .authorized pcrs pubkeyPem policyRef =>
      ∃ signer key sigs, SignerOf P y pubkeyPem signer ∧ pcrs = expectedPcrs signer ∧
        P.rsa.parsePublic pubkeyPem = .ok key ∧ y.signaturesFor P signer = .ok sigs ∧
        match findForPolicy sigs pcrs (pcrPolicy P.H y.pcr pcrs) with
        | some s => P.rsa.verify key
            (authorizationHash P.H (pcrPolicy P.H y.pcr pcrs) policyRef) s.sig = true
        | none => signer = .linhelloHost ∧ ∃ keyPem sk sig,
            y.file .signingKey = some (some keyPem) ∧ P.rsa.parsePrivate keyPem = .ok sk ∧
            P.rsa.sign sk (authorizationHash P.H (pcrPolicy P.H y.pcr pcrs) policyRef) = .ok sig ∧
            P.rsa.verify key (authorizationHash P.H (pcrPolicy P.H y.pcr pcrs) policyRef) sig = true

/-- Registers, files and persistent keys are as before; firmware may have changed. -/
structure Unchanged (m m' : Machine) : Prop where
  pcr : m'.sys.pcr = m.sys.pcr
  file : m'.sys.file = m.sys.file
  persistent : m'.sys.persistent = m.sys.persistent

theorem Unchanged.refl (m : Machine) : Unchanged m m := ⟨rfl, rfl, rfl⟩

theorem SignerOf.congr {y y' : System} {pubkeyPem : String} {signer : SignerKind}
    (hsigner : SignerOf P y pubkeyPem signer) (h : y'.file .signingPub = y.file .signingPub) :
    SignerOf P y' pubkeyPem signer := by
  cases signer with
  | systemd => exact hsigner
  | linhelloHost =>
      obtain ⟨fp, hostPem, hfp, hne, hfile, hhost⟩ := hsigner
      exact ⟨fp, hostPem, hfp, hne, h.trans hfile, hhost⟩

theorem opens_of_sealLiteral {pcrs : List Nat} {m₃ : Machine}
    (hseal : Exec (Step P False) (sealLiteral P secret pcrs).run m (.ok env) m')
    (hsame : Unchanged m' m₃) {r : Except LinuxHelloError Bytes} {m₄ : Machine}
    (h : Exec (Step P False) («unseal» P env).run m₃ r m₄) : r = .ok secret := by
  obtain ⟨srk, persistent, u, k, hsrk, hk, hobject, hfits, hpcrs, hpolicy, hsupported, hm'⟩ :=
    exec_sealLiteral_ok hseal
  have ho := sealed_of_created hsrk hk hobject hfits
  have hpcr : m₃.sys.pcr = m.sys.pcr := hsame.pcr.trans (exec_surroundings hseal).1
  have hvalue : (eval (respond (Choices.fixed P)) (unsealLiteral P env).run m₃).1 = .ok secret := by
    refine eval_unsealLiteral (ho.congr (hsame.persistent.trans (by rw [hm']))) ?_ ?_
    · rw [hpcrs]
      exact hsupported
    · rw [hpcrs]
      by_cases hnone : pcrs = []
      · simp only [if_pos hnone, policyOver]
      · simp only [if_neg hnone, policyOver, hpcr]
  have hr := exec_eval (Choices.fixed P) calm_unseal h
  rw [«unseal», hpolicy] at hr
  rw [← hvalue, ← hr]

/-- What sealing for a signer leaves: an accepted envelope, and for the host's signer a
signature. -/
theorem exec_sealAuthorized_accepted {pcrs : List Nat} {pubkeyPem : String} {policyRef : Bytes}
    (h : Exec (Step P False)
      (sealAuthorized P secret pcrs pubkeyPem policyRef).run m (.ok env) m') :
    ∃ signer key, SignerOf P m.sys pubkeyPem signer ∧ P.rsa.parsePublic pubkeyPem = .ok key ∧
      env.pcrs = pcrs ∧ env.policy = .authorized pubkeyPem policyRef ∧
      (∀ m₃, Unchanged m' m₃ → SignerOf P m₃.sys pubkeyPem signer ∧
        (pcrs = expectedPcrs signer →
          Accepted P m₃.sys env pubkeyPem policyRef signer key secret)) ∧
      (signer = .systemd ∧ m'.sys.file = m.sys.file ∨ signer = .linhelloHost ∧
        HasSignature P m.sys m'.sys pcrs policyRef) := by
  obtain ⟨signer, area, srk, persistent, u, v, k, t, hsigner, harea, ht, hsrk, hk, hobject, hfits,
    hpcrs, hpolicy, hv, hrest⟩ := exec_sealAuthorized_ok h
  obtain ⟨key, hkey, -⟩ := rsaPemToPublic_ok harea
  have ho := sealed_of_created hsrk hk hobject hfits
  have hfile : v.sys.file = m.sys.file := by
    rw [hv, exec_files quiet_loadOrCreateSrk hsrk, ht]
  have hvpcr : v.sys.pcr = m.sys.pcr := by
    rw [hv, (exec_surroundings hsrk).1, ht]
  have hleft : m'.sys.persistent = v.sys.persistent ∧
      m'.sys.file .signingPub = m.sys.file .signingPub ∧
      (signer = .systemd ∧ m'.sys.file = m.sys.file ∨ signer = .linhelloHost ∧
        HasSignature P m.sys m'.sys pcrs policyRef) := by
    rcases hrest with ⟨rfl, rfl⟩ | ⟨rfl, d, hensure⟩
    · exact ⟨rfl, by rw [hfile], .inl ⟨rfl, hfile⟩⟩
    · obtain ⟨fp, hostPem, -, -, hpub, hfp⟩ := hsigner
      obtain ⟨hsigned, hkept, hpub'⟩ := exec_ensureHostSignature_ok (hfile ▸ hpub) hfp hensure
      exact ⟨hkept, hfile ▸ hpub', .inr ⟨rfl, hsigned.congr hvpcr hfile⟩⟩
  obtain ⟨hkept, hpub, hsigned⟩ := hleft
  refine ⟨signer, key, hsigner, hkey, hpcrs, hpolicy, fun m₃ hsame => ?_, hsigned⟩
  have hsigner₃ : SignerOf P m₃.sys pubkeyPem signer :=
    hsigner.congr ((congrFun hsame.file _).trans hpub)
  have ho₃ := ho.congr ((hsame.persistent.trans hkept).trans (by rw [hv]))
  exact ⟨hsigner₃, fun hexpected =>
    ⟨hsigner₃, hpcrs.trans hexpected, hkey, _, area, ho₃, harea, rfl, rfl⟩⟩

theorem Presentable.congr {y y' : System} {p : PolicyPlan} (h : Presentable P y p)
    (hpcr : y'.pcr = y.pcr) (hfile : y'.file = y.file) : Presentable P y' p := by
  cases p with
  | none => trivial
  | literal pcrs => trivial
  | authorized pcrs pubkeyPem policyRef =>
      obtain ⟨signer, key, sigs, hsigner, hexpected, hkey, hsigs, hfirst⟩ := h
      refine ⟨signer, key, sigs, hsigner.congr (congrFun hfile _), hexpected, hkey,
        (signaturesFor_congr hfile signer).trans hsigs, ?_⟩
      rw [hpcr, hfile]
      exact hfirst

/-- What opens right after the seal was sealed under a plan an unseal can follow. -/
theorem presentable_of_opens {pcrs : List Nat} {pubkeyPem : String}
    (hseal : Exec (Step P False) (sealAuthorized P secret pcrs pubkeyPem []).run m (.ok env) m')
    (h : ∀ r m₄, Exec (Step P False) («unseal» P env).run m' r m₄ → r = .ok secret) :
    Presentable P m.sys (.authorized pcrs pubkeyPem []) := by
  obtain ⟨signer, key, hsigner, hkey, hpcrs, hpolicy, haccepted, hsigned⟩ :=
    exec_sealAuthorized_accepted hseal
  have hpcr := (exec_surroundings hseal).1
  rw [«unseal», hpolicy] at h
  dsimp only at h
  have hexec := exec_of_respond (F := False) (Choices.fixed P)
    (unsealAuthorized P env pubkeyPem []).run m'
  rw [h _ _ hexec] at hexec
  obtain ⟨hsigner', haccepted'⟩ := haccepted m' (.refl m')
  obtain ⟨signer₂, -, hsigner₂, hexpected, -⟩ := exec_unsealAuthorized_ok hexec
  obtain rfl := signer_unique rfl hsigner' hsigner₂
  rw [hpcrs] at hexpected
  rcases hsigned with ⟨rfl, hfile⟩ | ⟨rfl, sigs, sigs', s, hsigs, hsigs', hfind, hmade⟩
  · have hheal : ∀ v, Exec (Step P False) (selfHeal P .systemd env.pcrs []).run m' (.ok ()) v →
        v.sys = m'.sys := by
      rintro v ⟨-, rfl⟩
      rfl
    obtain ⟨sigs, s, key', hsigs, hfind, hkey', -, hverify, -⟩ :=
      exec_unsealAuthorized_found hsigner' hheal hexec
    obtain rfl := Except.ok.inj (hkey.symm.trans hkey')
    rw [signaturesFor_congr hfile] at hsigs
    rw [hpcrs, hpcr] at hfind hverify
    refine ⟨.systemd, key, sigs, hsigner, hexpected, hkey, hsigs, ?_⟩
    rw [hfind]
    exact hverify
  · have hverify := ((opens_iff (haccepted' hexpected) hsigs' (by rwa [hpcrs, hpcr])).1 h).1
    rw [hpcrs, hpcr] at hverify
    refine ⟨.linhelloHost, key, sigs, hsigner, hexpected, hkey, hsigs, ?_⟩
    rcases hmade with hfound | ⟨hnone, keyPem, sk, hkeyFile, hsk, hsig⟩
    · rw [hfound]
      exact hverify
    · rw [hnone]
      exact ⟨rfl, keyPem, sk, s.sig, hkeyFile, hsk, hsig, hverify⟩

theorem opens_of_sealAuthorized {pcrs : List Nat} {pubkeyPem : String}
    (hseal : Exec (Step P False) (sealAuthorized P secret pcrs pubkeyPem []).run m (.ok env) m') :
    (∀ m₃, Unchanged m' m₃ → ∀ r m₄, Exec (Step P False) («unseal» P env).run m₃ r m₄ →
      r = .ok secret) ↔ Presentable P m.sys (.authorized pcrs pubkeyPem []) := by
  refine ⟨fun h => presentable_of_opens hseal (h m' (.refl m')), ?_⟩
  obtain ⟨signer, key, hsigner, hkey, hpcrs, hpolicy, haccepted, hsigned⟩ :=
    exec_sealAuthorized_accepted hseal
  have hpcr := (exec_surroundings hseal).1
  rw [«unseal», hpolicy]
  dsimp only
  rintro ⟨signer', key', sigs, hsigner', hexpected, hkey', hsigs, hpresented⟩ m₃ hsame
  obtain rfl := signer_unique rfl hsigner hsigner'
  obtain rfl := Except.ok.inj (hkey.symm.trans hkey')
  have haccepted₃ := (haccepted m₃ hsame).2 hexpected
  have hpcr₃ : m₃.sys.pcr = m.sys.pcr := hsame.pcr.trans hpcr
  have hopens : ∀ {l : List PcrSignature} {s : PcrSignature},
      m₃.sys.signaturesFor P signer = .ok l →
      findForPolicy l pcrs (pcrPolicy P.H m.sys.pcr pcrs) = some s →
      P.rsa.verify key (authorizationHash P.H (pcrPolicy P.H m.sys.pcr pcrs) []) s.sig = true →
      ∀ r m₄, Exec (Step P False) (unsealAuthorized P env pubkeyPem []).run m₃ r m₄ →
        r = .ok secret := by
    intro l s hl hfind hverify
    refine (opens_iff haccepted₃ hl (s := s) ?_).2 ⟨?_, Nat.zero_le _⟩
    · rwa [hpcrs, hpcr₃]
    · rwa [hpcrs, hpcr₃]
  rcases hsigned with ⟨rfl, hfile⟩ | ⟨rfl, sigs₁, sigs', s, hsigs₁, hsigs', hfind, hmade⟩
  · have hsigs₃ : m₃.sys.signaturesFor P .systemd = .ok sigs := by
      rw [signaturesFor_congr (hsame.file.trans hfile), hsigs]
    cases hfind : findForPolicy sigs pcrs (pcrPolicy P.H m.sys.pcr pcrs) with
    | none =>
        rw [hfind] at hpresented
        cases hpresented.1
    | some s =>
        rw [hfind] at hpresented
        exact hopens hsigs₃ hfind hpresented
  · have hsigs₃ : m₃.sys.signaturesFor P .linhelloHost = .ok sigs' := by
      rw [signaturesFor_congr hsame.file]
      exact hsigs'
    obtain rfl := Except.ok.inj (hsigs₁.symm.trans hsigs)
    refine hopens hsigs₃ hfind ?_
    rcases hmade with hfound | ⟨hnone, keyPem, sk, hkeyFile, hsk, hsig⟩
    · rw [hfound] at hpresented
      exact hpresented
    · rw [hnone] at hpresented
      obtain ⟨-, keyPem', sk', sig', hkeyFile', hsk', hsig', hverify⟩ := hpresented
      obtain rfl := Option.some.inj (Option.some.inj (hkeyFile.symm.trans hkeyFile'))
      obtain rfl := Except.ok.inj (hsk.symm.trans hsk')
      rwa [Except.ok.inj (hsig.symm.trans hsig')]

/-- What a plan seals opens again in the same state, exactly if the first signature an
unseal finds then verifies. -/
theorem plan_seal_unseal {faulty : Prop} {m₁ m₂ : Machine} {p : PolicyPlan}
    (hplan : Exec (Step P faulty) (plan P) m p m₁)
    (hseal : Exec (Step P False) (sealWithPlan P secret p).run m₁ (.ok env) m₂) :
    (∀ m₃, Unchanged m₂ m₃ → ∀ r m₄, Exec (Step P False) («unseal» P env).run m₃ r m₄ →
      r = .ok secret) ↔ Presentable P m₁.sys p := by
  rcases exec_plan_cases hplan with rfl | rfl | ⟨pcrs, pubkeyPem, rfl⟩
  · exact iff_of_true (fun m₃ hsame r m₄ h => opens_of_sealLiteral hseal hsame h) trivial
  · exact iff_of_true (fun m₃ hsame r m₄ h => opens_of_sealLiteral hseal hsame h) trivial
  · exact opens_of_sealAuthorized hseal

/-! ## Sealing succeeds -/

/-- With its key pair and a readable signature file a host seals for its own signer. -/
theorem eval_sealAuthorized {c : Choices P} {pcrs : List Nat} {pubkeyPem : String}
    {policyRef : Bytes}
    {values : List Core.PcrValue} {area created : Public} {k : StorageKey} {priv : Bytes}
    {sk : PrivateKey} {sigs : List PcrSignature}
    (hsigner : SignerOf P m.sys pubkeyPem .linhelloHost)
    (hvalues : eval (respond c) (readPcrValues pcrs).run m = (.ok values, m))
    (harea : rsaPemToPublic P pubkeyPem = .ok area) (hk : m.sys.storageKey P = some k)
    (hauth : k.auth = []) (hsecret : secret.length ≤ P.maxSensitive)
    (hcreated : c.blobs k.seed (authorizeDigest P.H (P.name area) policyRef) secret =
      .ok (created, priv))
    (hpcrs : pcrSelection pcrs = .ok pcrs) (hpair : HostPair P m.sys sk)
    (hsize : 62 ≤ sk.pub.n.length) (hsigs : m.sys.hostSignatures P DEFAULT_BANK = .ok sigs) :
    ∃ env v, eval (respond c) (sealAuthorized P secret pcrs pubkeyPem policyRef).run m =
      (.ok env, v) := by
  have hopen : eval (respond c) (openContext P).run m = (.ok (), m) := rfl
  have hname : eval (respond c) (withHandle (loadExternalPubkey P pubkeyPem) fun kh =>
      tpmErr (perform (.trGetName kh))).run m =
      (.ok (P.name area), (m.give (.external area)).flush m.next) := by
    have hread : eval (respond c) (settle (rsaPemToPublic P pubkeyPem) : Fallible Public).run m =
        (.ok area, m) := by
      rw [eval_settle, harea]
    have hspawn : eval (respond c) (loadExternalPubkey P pubkeyPem).run m =
        (.ok m.next, m.give (.external area)) := by
      rw [loadExternalPubkey, eval_exceptT_bind_ok hread]
      rfl
    refine eval_withHandle hspawn ?_
    rw [eval_attempt, eval_perform, respond, Machine.give_object, Function.update_self]
    rfl
  obtain ⟨srk, persistent, u, hsrk, hu, -⟩ := eval_loadOrCreateSrk (P := P) (c := c)
    (m := (m.give (.external area)).flush m.next) hk
  have hexec := exec_of_respond (F := False) c (loadOrCreateSrk P).run
    ((m.give (.external area)).flush m.next)
  rw [hsrk] at hexec
  have hsensitive :
      eval (respond c) (settle (fits P P.maxSensitive secret) : Fallible Bytes).run u =
      (.ok secret, u) := by
    rw [eval_settle, fits_of_le hsecret]
  have hcreate : eval (respond c) (tpmErr (perform (.create srk
      (sealedTemplate (authorizeDigest P.H (P.name area) policyRef)) secret))).run u =
      (.ok (created, priv), u) := by
    rw [eval_attempt, eval_perform, respond, hu]
    dsimp only
    rw [if_pos (by rw [hauth])]
    exact Prod.ext (congrArg (Except.mapError LinuxHelloError.tpm) hcreated) rfl
  let env : SealedEnvelope :=
    { version := Core.CURRENT_VERSION,
      mode := (PolicyPlan.authorized pcrs pubkeyPem policyRef).securityLevel,
      pcrs := pcrs, policy := .authorized pubkeyPem policyRef, pub := P.marshall created,
      priv := priv, pcrValues := values }
  let body : Nat → Fallible SealedEnvelope := fun srk => do
    let sensitive ← settle (fits P P.maxSensitive secret)
    let parts ← tpmErr (perform (.create srk
      (sealedTemplate (authorizeDigest P.H (P.name area) policyRef)) sensitive))
    pure { version := Core.CURRENT_VERSION,
           mode := (PolicyPlan.authorized pcrs pubkeyPem policyRef).securityLevel,
           pcrs := pcrs, policy := .authorized pubkeyPem policyRef, pub := P.marshall parts.1,
           priv := parts.2, pcrValues := values }
  have hbody : eval (respond c) (body srk).run u = (.ok env, u) := by
    dsimp only [body]
    rw [eval_exceptT_bind_ok hsensitive, eval_exceptT_bind_ok hcreate]
    rfl
  obtain ⟨w, hw, hwsys⟩ := eval_withSrk body hsrk hbody
  have hfile : w.sys.file = m.sys.file := by
    rw [hwsys]
    exact (exec_files quiet_loadOrCreateSrk hexec).trans rfl
  have hhost : w.sys.hostSignatures P DEFAULT_BANK = .ok sigs :=
    (signaturesFor_congr hfile .linhelloHost).trans hsigs
  have hpair' : HostPair P w.sys sk := by
    obtain ⟨hkey, hpub⟩ := hpair
    exact ⟨hfile ▸ hkey, hfile ▸ hpub⟩
  obtain ⟨v, hv⟩ := eval_ensureHostSignature_ok (c := c) policyRef hpcrs hpair'
    hsize hhost
  refine ⟨env, v, ?_⟩
  rw [sealAuthorized, eval_exceptT_bind_ok (eval_classifySigner hsigner),
    eval_exceptT_bind_ok hopen, eval_exceptT_bind_ok hvalues, eval_exceptT_bind_ok hname]
  rw [eval_exceptT_bind_ok hw, if_pos rfl, eval_exceptT_bind_ok hv]
  rfl

/-! ## A simulated host -/

theorem hostPair_size : 62 ≤ hostPair.pub.n.length := by
  change 62 ≤ hostKey.n.length
  rw [hostKey_length]
  decide

/-- A machine that goes on as the simulated one was started. -/
structure Started (signatures : Option (Json Banks)) (v : Machine) : Prop where
  firmware : v.sys.firmware = (simulatedMachine true signatures).sys.firmware
  efivar : v.sys.efivar = (simulatedMachine true signatures).sys.efivar
  pcr : v.sys.pcr = (simulatedMachine true signatures).sys.pcr
  file : v.sys.file = (simulatedMachine true signatures).sys.file
  key : v.sys.storageKey simulated = some ⟨srkTemplate, [], [7]⟩

theorem started_simulated {signatures : Option (Json Banks)} :
    Started signatures (simulatedMachine true signatures) := ⟨rfl, rfl, rfl, rfl, rfl⟩

theorem Started.readPcrValues {signatures : Option (Json Banks)} {v : Machine}
    (h : Started signatures v) : eval (respond simulatedChoices)
      (readPcrValues LINHELLO_SIGNED_PCRS).run v =
        (.ok [{ pcr := 7, value := zeroDigest }], v) := by
  obtain ⟨⟨firmware, efivar, pcr, hlength, file, persistent⟩, next, object, session⟩ := v
  obtain rfl : pcr = fun _ => zeroDigest := h.pcr
  rfl

/-- The simulated host seals under its plan whenever its signature file can be read. -/
theorem Started.seals {signatures : Option (Json Banks)} {sigs : List PcrSignature} {v : Machine}
    (h : Started signatures v) (hsecret : secret.length ≤ simulated.maxSensitive)
    (hsigs : (simulatedMachine true signatures).sys.hostSignatures simulated
      DEFAULT_BANK = .ok sigs) :
    ∃ env m', Exec (Step simulated False) (sealAuthorized simulated secret LINHELLO_SIGNED_PCRS
      "host.pem" []).run v (.ok env) m' := by
  have hsigner : SignerOf simulated v.sys "host.pem" .linhelloHost :=
    simulated_signer.congr (congrFun h.file _)
  have hpair : HostPair simulated v.sys hostPair := by
    obtain ⟨hkey, hpub⟩ := @simulated_hostPair true signatures
    exact ⟨h.file ▸ hkey, h.file ▸ hpub⟩
  have hlist : v.sys.hostSignatures simulated DEFAULT_BANK = .ok sigs :=
    (signaturesFor_congr h.file .linhelloHost).trans hsigs
  have hblobs : secret.length ≤ 1558 := hsecret.trans (by decide)
  obtain ⟨env, w, heval⟩ :=
    @eval_sealAuthorized simulated v secret simulatedChoices _ _ _ _ _ _ _
    _ _ _ hsigner h.readPcrValues simulatedArea_ok h.key rfl hsecret (if_pos hblobs) rfl hpair
    hostPair_size hlist
  have hexec := exec_of_respond (F := False) simulatedChoices (sealAuthorized simulated secret
    LINHELLO_SIGNED_PCRS "host.pem" []).run v
  rw [heval] at hexec
  exact ⟨env, w, hexec⟩

theorem simulated_plans (signatures : Option (Json Banks)) :
    Exec (Step simulated False) (plan simulated) (simulatedMachine true signatures)
      (.authorized LINHELLO_SIGNED_PCRS "host.pem" []) (simulatedMachine true signatures) := by
  have hexec := exec_of_respond (F := False) simulatedChoices (plan simulated)
    (simulatedMachine true signatures)
  rwa [eval_plan_simulated] at hexec

theorem presentable_fresh : Presentable simulated (simulatedMachine true none).sys
    (.authorized LINHELLO_SIGNED_PCRS "host.pem" []) := by
  obtain ⟨sig, hsig⟩ := (simulated.rsa.sign_hash hostPair (pcrPolicy simulated.H
    (simulatedMachine true none).sys.pcr LINHELLO_SIGNED_PCRS ++ [])).2 hostPair_size
  exact ⟨.linhelloHost, hostKey, [], simulated_signer, rfl, rfl, rfl, rfl,
    "host.key", hostPair, sig, rfl, rfl, hsig, simulated.rsa.verify_sign _ _ _ hsig⟩

/-- On a host that has signed nothing yet, what is sealed opens again. -/
theorem plan_seal_unseal_fresh : ∃ env m₂, Exec (Step simulated False)
    (sealWithPlan simulated [1, 2, 3] (.authorized LINHELLO_SIGNED_PCRS "host.pem" [])).run
      (simulatedMachine true none) (.ok env) m₂ ∧
    ∀ m₃, Unchanged m₂ m₃ →
    ∀ r m₄, Exec (Step simulated False) («unseal» simulated env).run m₃ r m₄ →
      r = .ok [1, 2, 3] := by
  obtain ⟨env, m₂, hseal⟩ := @Started.seals [1, 2, 3] none [] _ started_simulated (by decide) rfl
  exact ⟨env, m₂, hseal, (plan_seal_unseal (simulated_plans none) hseal).2 presentable_fresh⟩

/-- With an entry of an earlier key for the registers no plan is presentable. -/
theorem not_presentable_stale : ¬ Presentable simulated
    (simulatedMachine true (some (.value (simulatedBanks [oldKey])))).sys
    (.authorized LINHELLO_SIGNED_PCRS "host.pem" []) := by
  rintro ⟨signer, key, sigs, hsigner, -, hkey, hsigs, hfirst⟩
  obtain rfl := signer_unique rfl hsigner (@simulated_signer none true)
  obtain rfl : key = hostKey := (Except.ok.inj hkey).symm
  rw [System.signaturesFor, simulatedBanks_signatures] at hsigs
  obtain rfl := Except.ok.inj hsigs
  rw [pcrPolicy_simulated, find_simulatedSignature] at hfirst
  dsimp only at hfirst
  rw [verify_simulated, simulated_H, simulatedSignature] at hfirst
  dsimp only at hfirst
  exact oldKey_signature_ne _ hfirst

/-- An entry of an earlier key for the same registers: the seal succeeds, and what it
sealed does not open. -/
theorem sealed_under_stale_entry :
    let m := simulatedMachine true (some (.value (simulatedBanks [oldKey])))
    ∃ p env m₂, Exec (Step simulated False) (plan simulated) m p m ∧
      Exec (Step simulated False) (sealWithPlan simulated [1, 2, 3] p).run m (.ok env) m₂ ∧
      ¬ ∀ m₃, Unchanged m₂ m₃ → ∀ r m₄, Exec (Step simulated False) («unseal» simulated env).run
        m₃ r m₄ → r = .ok [1, 2, 3] := by
  intro m
  obtain ⟨env, m₂, hseal⟩ :=
    @Started.seals [1, 2, 3] _ _ _ started_simulated (by decide)
      (@simulatedBanks_signatures [oldKey])
  refine ⟨_, env, m₂, simulated_plans _, hseal, fun h => ?_⟩
  exact not_presentable_stale ((opens_of_sealAuthorized hseal).1 h)

end Linhello.Tpm
