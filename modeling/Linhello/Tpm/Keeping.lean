import Linhello.Tpm.CachedKey
import Linhello.Tpm.DiskTraces
/-!
# What opens keeps opening

`Opened` says why an envelope opens on a system; `yields_iff` that it does just then.
Later seals and unseals leave these reasons in place: a signature file only grows, and
by what the host's own key signs.
-/

namespace Linhello.Tpm

open Common Effect Host
open Linhello.Core (SealedEnvelope)

variable {P : Platform} {m m' : Machine} {secret : Bytes} {env : SealedEnvelope} {α β : Type}

/-! ## Why an envelope opens -/

/-- The first signature for the current registers verifies; where there is none, Secure
Boot is on and the host makes one that does. -/
def System.Presents (P : Platform) (y : System) (signer : SignerKind) (pcrs : List Nat)
    (policyRef : Bytes) (key : PublicKey) : Prop :=
  ∃ sigs, y.signaturesFor P signer = .ok sigs ∧
    match findForPolicy sigs pcrs (pcrPolicy P.H y.pcr pcrs) with
    | some s => P.rsa.verify key
        (authorizationHash P.H (pcrPolicy P.H y.pcr pcrs) policyRef) s.sig = true
    | none => signer = .linhelloHost ∧ secureBootOf y.efivar = true ∧ ∃ sig,
        y.Signs P (pcrPolicy P.H y.pcr pcrs) policyRef sig ∧ P.rsa.verify key
          (authorizationHash P.H (pcrPolicy P.H y.pcr pcrs) policyRef) sig = true

/-- The reasons for which an envelope opens to a secret. -/
def Opened (P : Platform) (y : System) (env : SealedEnvelope) (secret : Bytes) : Prop :=
  match env.policy with
  | .pcrLiteral => (env.pcrs ≠ [] → pcrSelection env.pcrs = .ok env.pcrs) ∧
      ∃ o, Sealed P y env o ∧ o.secret = secret ∧
        o.authPolicy = policyOver P y (if env.pcrs = [] then none else some env.pcrs)
  | .authorized pubkeyPem policyRef => policyRef.length ≤ MAX_NONCE ∧
      ∃ signer key, Accepted P y env pubkeyPem policyRef signer key secret ∧
        y.Presents P signer env.pcrs policyRef key

theorem exec_withSealed {body : Nat → Fallible α} {a : α}
    (h : Exec (Step P False) (withSrk P fun srk => withHandle (loadSealed P srk env) body).run m
      (.ok a) m') : ∃ o, Sealed P m.sys env o := by
  obtain ⟨srk, persistent, u, v, hsrk, hbody, -⟩ := exec_withSrk_ok h
  obtain ⟨handle, t, x, hload, -, -⟩ := exec_withHandle_ok hbody
  obtain ⟨k, o, hk, hobject, hparent, -⟩ := exec_loadSealed_ok hload
  obtain ⟨key, hkey, -, hk'⟩ := exec_loadOrCreateSrk_key hsrk
  obtain ⟨rfl, hauth⟩ := Loaded.storage.inj (Option.some.inj (hk.symm.trans hk'))
  obtain ⟨area, _, -, hread⟩ := exec_exceptT_bind_ok.1 hload
  obtain ⟨priv, _, ⟨hpriv, -⟩, -⟩ := exec_exceptT_bind_ok.1 hread
  exact ⟨o, hobject, (fits_ok hpriv.symm).2, k, hkey, Option.some.inj hauth, hparent⟩

theorem opened_of_unsealLiteral (hpolicy : env.policy = .pcrLiteral)
    (h : Exec (Step P False) (unsealLiteral P env).run m (.ok secret) m') :
    Opened P m.sys env secret := by
  obtain ⟨o, hobject, hsecret, hdigest⟩ := exec_unsealLiteral_ok h
  unfold unsealLiteral at h
  obtain ⟨_, u, hopen, hsealed⟩ := exec_exceptT_bind_ok.1 h
  obtain rfl := exec_openContext_ok hopen
  obtain ⟨o', ho⟩ := exec_withSealed hsealed
  obtain rfl := Option.some.inj (hobject.symm.trans ho.object)
  rw [Opened, hpolicy]
  refine ⟨fun hsome => ?_, o, ho, hsecret, hdigest⟩
  -- the registers were selected in the session
  obtain ⟨srk, persistent, v, w, -, hbody, -⟩ := exec_withSrk_ok hsealed
  obtain ⟨handle, t, x, -, hloaded, -⟩ := exec_withHandle_ok hbody
  obtain ⟨z, hsession, -⟩ := exec_withSession_ok hloaded
  rw [if_pos hsome] at hsession
  obtain ⟨sel, _, ⟨hsel, -⟩, -⟩ := exec_exceptT_bind_ok.1 hsession
  rw [← hsel, pcrSelection_ok hsel.symm]

private theorem step_stays {o : Op} {r : o.Ans} {faulty : Prop} (ho : o.Stays)
    (hs : Step P faulty m o r m') : m'.sys.persistent = m.sys.persistent := by
  obtain ⟨ch, hr⟩ | ⟨-, hfails⟩ := hs
  · have hm : m' = (respond ch m o).2 := congrArg Prod.snd hr
    rw [hm]
    unfold respond
    split
    case h_16 => exact ho.elim
    all_goals
      repeat' split
      all_goals rfl
  · cases o with
    | writeFile a d =>
        obtain ⟨-, rfl | ⟨d', rfl⟩⟩ := hfails
        · rfl
        · rfl
    | firmwarePath _ => exact hfails.elim
    | readEfivar _ => exact hfails.elim
    | _ =>
        obtain ⟨-, rfl⟩ := hfails
        rfl

theorem exec_stays {p : Program tpm α} {a : α} {faulty : Prop} (hp : p.Only Op.Stays)
    (h : Exec (Step P faulty) p m a m') : m'.sys.persistent = m.sys.persistent :=
  hp.exec (R := fun m m' : Machine => m'.sys.persistent = m.sys.persistent) (fun _ => rfl)
    (fun h₁ h₂ => h₂.trans h₁) (fun ho hs => step_stays ho hs) h

theorem stays_of_idle {p : Program tpm α} (hp : p.Only Op.Idle) : p.Only Op.Stays := by
  refine hp.imp fun o ho => ?_
  cases o <;> first | trivial | cases ho.2

theorem stays_computePolicyDigest {sel : Option (List Nat)} :
    (computePolicyDigest sel).run.Only Op.Stays := by
  refine only_withSession (fun _ _ h => h) fun session => ?_
  cases sel with
  | none => exact only_attempt (only_perform trivial)
  | some l =>
      refine only_exceptT_bind (only_attempt (only_perform trivial)) fun _ => ?_
      exact only_attempt (only_perform trivial)

private theorem stays_persistHostSignature {bank : String} {pcrs : List Nat} {polDigest sig :
      Bytes} :
    (persistHostSignature P bank pcrs polDigest sig).run.Only Op.Stays := by
  refine only_exceptT_bind (only_exceptT_lift (only_perform trivial)) fun read => ?_
  refine only_exceptT_bind (stays_of_idle idle_readText) fun pem => ?_
  refine only_exceptT_bind only_settle fun pkfp => ?_
  refine only_exceptT_bind (only_attempt (only_perform trivial)) fun _ => ?_
  refine only_exceptT_bind (only_attempt (only_perform trivial)) fun _ => ?_
  refine only_exceptT_bind (only_attempt (only_perform trivial)) fun _ => ?_
  exact only_attempt (only_perform trivial)

theorem stays_ensureHostSignature {pcrs : List Nat} {policyRef : Bytes} :
    (ensureHostSignature P pcrs policyRef).run.Only Op.Stays := by
  refine only_exceptT_bind (stays_of_idle idle_openContext) fun _ => ?_
  refine only_exceptT_bind only_settle fun sel => ?_
  refine only_exceptT_bind stays_computePolicyDigest fun approved => ?_
  refine only_exceptT_bind (stays_of_idle (@idle_signaturesFor P .linhelloHost)) fun existing => ?_
  split
  · exact only_exceptT_pure
  · refine only_exceptT_bind (stays_of_idle idle_signAhash) fun sig => ?_
    exact only_exceptT_bind stays_persistHostSignature fun _ => only_exceptT_pure

theorem stays_selfHeal {signer : SignerKind} {pcrs : List Nat} {policyRef : Bytes} :
    (selfHeal P signer pcrs policyRef).run.Only Op.Stays := by
  unfold selfHeal
  split
  · refine only_exceptT_bind (only_exceptT_lift (stays_of_idle idle_isSecureBootEnabled)) fun on =>
      ?_
    split
    · exact only_exceptT_bind (only_caught stays_ensureHostSignature) fun _ => only_exceptT_pure
    · exact only_exceptT_pure
  · exact only_exceptT_pure

/-- An authorized unseal has found its reasons, or healing has made them. -/
theorem opened_of_unsealAuthorized {pubkeyPem : String} {policyRef : Bytes}
    (hpolicy : env.policy = .authorized pubkeyPem policyRef)
    (h : Exec (Step P False) (unsealAuthorized P env pubkeyPem policyRef).run m (.ok secret) m') :
    Opened P m.sys env secret := by
  obtain ⟨signer, v, hsigner, hpcrs, hheal, hopened⟩ := exec_unsealAuthorized_ok h
  obtain ⟨o, area, key, u, sigs, s, hobject, hsecret, harea, hkey, hauth, hlen, hread, hfile, hfind,
    hverify⟩ := exec_unsealSigned_ok hopened
  have hpcr : v.sys.pcr = m.sys.pcr := (exec_surroundings hheal).1
  have hlist := exec_eval (Choices.fixed P) (quiet_signaturesFor.imp fun _ ho => ho.2) hread
  rw [eval_signaturesFor, signaturesFor_congr hfile] at hlist
  have hsigs : v.sys.signaturesFor P signer = .ok sigs := (Prod.mk.inj hlist).1.symm
  rw [hpcr] at hfind hverify
  obtain ⟨o', ho'⟩ := exec_withSealed hopened
  obtain rfl := Option.some.inj (hobject.symm.trans ho'.object)
  have ho : Sealed P m.sys env o := ho'.congr (exec_stays stays_selfHeal hheal).symm
  rw [Opened, hpolicy]
  refine ⟨hlen, signer, key, ⟨hsigner, hpcrs, hkey, o, area, ho, harea, hauth, hsecret⟩, ?_⟩
  rcases exec_selfHeal hheal with hsame | ⟨rfl, hboot, -, ⟨sigs₀, s₀, hsigs₀, hnone, hadded, hspcrs,
    hspol, hsigned⟩, -⟩
  · refine ⟨sigs, (signaturesFor_congr hsame signer).symm.trans hsigs, ?_⟩
    rw [hfind]
    exact hverify
  · refine ⟨sigs₀, hsigs₀, ?_⟩
    rw [hnone]
    refine ⟨rfl, hboot, s₀.sig, hsigned, ?_⟩
    obtain rfl := Except.ok.inj (hsigs.symm.trans hadded)
    rw [findForPolicy_append hnone hspol hspcrs] at hfind
    obtain rfl := Option.some.inj hfind
    exact hverify

theorem opened_of_unseal (h : Exec (Step P False) («unseal» P env).run m (.ok secret) m') :
    Opened P m.sys env secret := by
  unfold «unseal» at h
  cases hpolicy : env.policy with
  | pcrLiteral =>
      rw [hpolicy] at h
      exact opened_of_unsealLiteral hpolicy h
  | authorized pubkeyPem policyRef =>
      rw [hpolicy] at h
      exact opened_of_unsealAuthorized hpolicy h

/-! ## What opens -/

theorem yields_literal (hpolicy : env.policy = .pcrLiteral) (h : Opened P m.sys env secret) :
    Yields P m env secret := by
  rw [Opened, hpolicy] at h
  obtain ⟨hsupported, o, ho, rfl, hdigest⟩ := h
  intro r m' hexec
  have hr := exec_eval (Choices.fixed P) calm_unseal hexec
  rw [«unseal», hpolicy] at hr
  rw [← eval_unsealLiteral (c := Choices.fixed P) ho hsupported hdigest, ← hr]

/-- Where no signature is found, healing makes the one the host's key signs. -/
theorem eval_selfHeal_made {policyRef sig : Bytes} {sigs : List PcrSignature} {pcrs : List Nat}
    {pem fp : String} {c : Choices P} (hpcrs : pcrSelection pcrs = .ok pcrs)
    (hboot : secureBootOf m.sys.efivar = true)
    (hpub : m.sys.file .signingPub = some (some pem)) (hfp : pubkeySpkiFingerprint P pem = .ok fp)
    (hsigs : m.sys.hostSignatures P DEFAULT_BANK = .ok sigs)
    (hnone : findForPolicy sigs pcrs (pcrPolicy P.H m.sys.pcr pcrs) = none)
    (hsigned : m.sys.Signs P (pcrPolicy P.H m.sys.pcr pcrs) policyRef sig) :
    ∃ v banks s, eval (respond c) (selfHeal P .linhelloHost pcrs policyRef).run m = (.ok (), v) ∧
      v.sys = m.sys.replaceSignatures banks ∧
      v.sys.hostSignatures P DEFAULT_BANK = .ok (sigs ++ [s]) ∧ s.pcrs = pcrs ∧
      s.pol = pcrPolicy P.H m.sys.pcr pcrs ∧ s.sig = sig := by
  obtain ⟨keyPem, sk, hkeyFile, hsk, hsig⟩ := hsigned
  obtain ⟨u, hu, hensure⟩ := eval_ensureHostSignature (c := c) (m := m) policyRef hpcrs
  rw [hsigs] at hensure
  dsimp only at hensure
  rw [hnone, if_neg (by decide)] at hensure
  have hsign := @eval_signAhash P u c sk keyPem
    (authorizationHash P.H (pcrPolicy P.H m.sys.pcr pcrs) policyRef) (hu ▸ hkeyFile) hsk
  rw [hsig] at hsign
  obtain ⟨v, hpersist, hv⟩ := eval_persistHostSignature (c := c) (m := u) DEFAULT_BANK pcrs
    (pcrPolicy P.H m.sys.pcr pcrs) sig (hu ▸ hpub) hfp
  rw [eval_exceptT_bind_ok hsign, eval_exceptT_bind_ok hpersist] at hensure
  have hcaught : eval (respond c) (caught (ensureHostSignature P pcrs policyRef)).run m =
      (.ok (.ok (pcrPolicy P.H m.sys.pcr pcrs)), v) := by
    rw [eval_caught, hensure]
    rfl
  have hon : eval (respond c) (liftM isSecureBootEnabled : Fallible Bool).run m =
      (.ok true, m) := by
    rw [eval_exceptT_lift, eval_isSecureBootEnabled, hboot]
  rw [hu] at hv
  refine ⟨v, _,
    { pcrs := pcrs, pkfp := fp, pol := pcrPolicy P.H m.sys.pcr pcrs, sig := sig }, ?_, hv,
    ?_, rfl, rfl, rfl⟩
  · rw [selfHeal, if_pos rfl, eval_exceptT_bind_ok hon, if_pos rfl, eval_exceptT_bind_ok hcaught]
    rfl
  · rw [hv, hostSignatures_replaceSignatures]
    exact parseSignatures_addEntry (parseSignatures_existing hsigs) hnone

private theorem yields_authorized {pubkeyPem : String} {policyRef : Bytes}
    (hpolicy : env.policy = .authorized pubkeyPem policyRef) (h : Opened P m.sys env secret) :
    Yields P m env secret := by
  rw [Opened, hpolicy] at h
  obtain ⟨hlen, signer, key, haccepted, sigs, hsigs, hpresented⟩ := h
  cases hfind : findForPolicy sigs env.pcrs (pcrPolicy P.H m.sys.pcr env.pcrs) with
  | some s =>
      rw [hfind] at hpresented
      intro r m' hexec
      rw [«unseal», hpolicy] at hexec
      exact (opens_iff haccepted hsigs hfind).2 ⟨hpresented, hlen⟩ r m' hexec
  | none =>
      rw [hfind] at hpresented
      obtain ⟨rfl, hboot, sig, hsigned, hverify⟩ := hpresented
      obtain ⟨hsigner, hpcrs, hkey, o, area, ho, harea, hdigest, rfl⟩ := haccepted
      obtain ⟨fp, hostPem, hfp, hne, hpub, hhost⟩ := hsigner
      have hsupported : pcrSelection env.pcrs = .ok env.pcrs := hpcrs ▸ pcrSelection_expected _
      obtain ⟨v, banks, s, hheal, hv, hlist, hspcrs, hspol, rfl⟩ := eval_selfHeal_made
        (c := Choices.fixed P) hsupported hboot hpub hhost hsigs hfind hsigned
      intro r m' hexec
      have hr := exec_eval (Choices.fixed P) calm_unseal hexec
      rw [«unseal», hpolicy] at hr
      dsimp only at hr
      have hopen : eval (respond (Choices.fixed P)) (openContext P).run v = (.ok (), v) := rfl
      rw [unsealAuthorized, eval_exceptT_bind_ok (eval_classifySigner
        (show SignerOf P m.sys pubkeyPem .linhelloHost from ⟨fp, hostPem, hfp, hne, hpub, hhost⟩)),
        if_neg (not_not.2 hpcrs), eval_exceptT_bind_ok hheal, eval_exceptT_bind_ok hopen] at hr
      have hpcr : v.sys.pcr = m.sys.pcr := by rw [hv]; rfl
      have hmade :
          findForPolicy (sigs ++ [s]) env.pcrs (pcrPolicy P.H v.sys.pcr env.pcrs) = some s := by
        rw [hpcr]
        exact findForPolicy_append hfind hspol hspcrs
      have hsealed : Sealed P v.sys env o := ho.congr (by rw [hv]; rfl)
      have hread : v.sys.signaturesFor P .linhelloHost = .ok (sigs ++ [s]) := hlist
      have hvalue := eval_unsealSigned (c := Choices.fixed P) hsealed harea hkey hdigest hsupported
        hread hmade (by rw [hpcr]; exact hverify) hlen
      rw [← hvalue, ← hr]

theorem yields_iff : Yields P m env secret ↔ Opened P m.sys env secret := by
  constructor
  · intro h
    have hexec := exec_of_respond (F := False) (Choices.fixed P) («unseal» P env).run m
    rw [h _ _ hexec] at hexec
    exact opened_of_unseal hexec
  · intro h
    cases hpolicy : env.policy with
    | pcrLiteral => exact yields_literal hpolicy h
    | authorized pubkeyPem policyRef => exact yields_authorized hpolicy h

/-! ## What later calls leave in place -/

/-- What seals and unseals leave of a system: the registers and the storage key are the
same, a key pair is replaced only where there was no public half, and the host's list is
the same or has an entry more, under the given policy reference. -/
structure System.Grown (P : Platform) (policyRef : Bytes) (y y' : System) : Prop where
  pcr : y'.pcr = y.pcr
  efivar : y'.efivar = y.efivar
  key : ∀ k, y.storageKey P = some k → y'.storageKey P = some k
  systemd : y'.systemdSignatures P DEFAULT_BANK = y.systemdSignatures P DEFAULT_BANK
  pair : y.file .signingPub = none ∨
    y'.file .signingPub = y.file .signingPub ∧ y'.file .signingKey = y.file .signingKey
  host : y'.hostSignatures P DEFAULT_BANK = y.hostSignatures P DEFAULT_BANK ∨
    ∃ pcrs, y.Extends P y' pcrs policyRef

theorem findForPolicy_append_found {sigs sigs' : List PcrSignature} {pcrs : List Nat}
    {digest : Bytes}
    {s : PcrSignature} (h : findForPolicy sigs pcrs digest = some s) :
    findForPolicy (sigs ++ sigs') pcrs digest = some s := by
  rw [findForPolicy, List.find?_append]
  rw [findForPolicy] at h
  rw [h]
  rfl

private theorem findForPolicy_append_none {sigs : List PcrSignature} {pcrs : List Nat}
    {digest : Bytes}
    {s : PcrSignature} (h : findForPolicy sigs pcrs digest = none)
    (hs : ¬ (s.pol = digest ∧ s.pcrs = pcrs)) : findForPolicy (sigs ++ [s]) pcrs digest = none := by
  rw [findForPolicy_eq_none] at h ⊢
  intro x hx
  rcases List.mem_append.1 hx with hold | hnew
  · exact h x hold
  · rwa [List.mem_singleton.1 hnew]

variable {y y' : System} {policyRef : Bytes}

theorem Presents.grown {signer : SignerKind} {pcrs : List Nat} {key : PublicKey}
    {pubkeyPem : String}
    (h : y.Presents P signer pcrs policyRef key) (hsigner : SignerOf P y pubkeyPem signer)
    (hgrown : y.Grown P policyRef y') : y'.Presents P signer pcrs policyRef key := by
  obtain ⟨sigs, hsigs, hpresented⟩ := h
  unfold System.Presents
  rw [hgrown.pcr, hgrown.efivar]
  cases signer with
  | systemd =>
      refine ⟨sigs, hgrown.systemd.trans hsigs, ?_⟩
      cases hfind : findForPolicy sigs pcrs (pcrPolicy P.H y.pcr pcrs) with
      | some s => rwa [hfind] at hpresented
      | none =>
          rw [hfind] at hpresented
          cases hpresented.1
  | linhelloHost =>
      obtain ⟨fp, hostPem, -, -, hpub, -⟩ := hsigner
      have hkey : y'.file .signingKey = y.file .signingKey := by
        rcases hgrown.pair with hnone | ⟨-, hsame⟩
        · cases hnone.symm.trans hpub
        · exact hsame
      have hmade : ∀ {digest : Bytes}, (SignerKind.linhelloHost = .linhelloHost ∧
          secureBootOf y.efivar = true ∧ ∃ sig, y.Signs P digest policyRef sig ∧
            P.rsa.verify key (authorizationHash P.H digest policyRef) sig = true) →
          SignerKind.linhelloHost = .linhelloHost ∧ secureBootOf y.efivar = true ∧
            ∃ sig, y'.Signs P digest policyRef sig ∧
              P.rsa.verify key (authorizationHash P.H digest policyRef) sig = true := by
        rintro digest ⟨hhost, hboot, sig, hsigned, hverify⟩
        exact ⟨hhost, hboot, sig, hsigned.congr hkey, hverify⟩
      rcases hgrown.host with hsame | ⟨pcrs',
        ⟨sigs', s, hsigs', hnone, hlist, hspcrs, hspol, hsigned⟩, -⟩
      · refine ⟨sigs, hsame.trans hsigs, ?_⟩
        cases hfind : findForPolicy sigs pcrs (pcrPolicy P.H y.pcr pcrs) with
        | some s => rwa [hfind] at hpresented
        | none =>
            rw [hfind] at hpresented
            exact hmade hpresented
      · obtain rfl := Except.ok.inj (hsigs'.symm.trans hsigs)
        refine ⟨sigs' ++ [s], hlist, ?_⟩
        cases hfind : findForPolicy sigs' pcrs (pcrPolicy P.H y.pcr pcrs) with
        | some s' =>
            rw [hfind] at hpresented
            rw [findForPolicy_append_found hfind]
            exact hpresented
        | none =>
            rw [hfind] at hpresented
            by_cases hthis : s.pol = pcrPolicy P.H y.pcr pcrs ∧ s.pcrs = pcrs
            · -- the entry is the one an unseal would have made
              rw [findForPolicy_append hfind hthis.1 hthis.2]
              obtain ⟨-, -, sig, ⟨pem, sk, hfile, hsk, hsig⟩, hverify⟩ := hpresented
              obtain ⟨pem', sk', hfile', hsk', hsig'⟩ := hsigned
              obtain rfl := Option.some.inj (Option.some.inj (hfile.symm.trans hfile'))
              obtain rfl := Except.ok.inj (hsk.symm.trans hsk')
              rw [← hspol, hthis.1] at hsig'
              obtain rfl := Except.ok.inj (hsig.symm.trans hsig')
              exact hverify
            · rw [findForPolicy_append_none hfind hthis]
              exact hmade hpresented

/-- The envelope's policy reference, if it has one, is this one. -/
def Refers (policyRef : Bytes) (env : SealedEnvelope) : Prop :=
  ∀ pubkeyPem r, env.policy = .authorized pubkeyPem r → r = policyRef

theorem Opened.grown (h : Opened P y env secret) (hrefers : Refers policyRef env)
    (hgrown : y.Grown P policyRef y') : Opened P y' env secret := by
  have hsealed : ∀ {o}, Sealed P y env o → Sealed P y' env o := by
    rintro o ⟨hobject, hfits, k, hk, hauth, hparent⟩
    exact ⟨hobject, hfits, k, hgrown.key k hk, hauth, hparent⟩
  unfold Opened at h ⊢
  cases hpolicy : env.policy with
  | pcrLiteral =>
      rw [hpolicy] at h
      obtain ⟨hsupported, o, ho, hsecret, hdigest⟩ := h
      refine ⟨hsupported, o, hsealed ho, hsecret, hdigest.trans ?_⟩
      split <;> simp only [policyOver, hgrown.pcr]
  | authorized pubkeyPem r =>
      rw [hpolicy] at h
      obtain rfl := hrefers _ _ hpolicy
      obtain ⟨hlen, signer, key, ⟨hsigner, hpcrs, hkey, o, area, ho, hrest⟩, hpresents⟩ := h
      have hsigner' : SignerOf P y' pubkeyPem signer := by
        rcases hgrown.pair with hnone | ⟨hpub, -⟩
        · cases signer with
          | systemd => exact hsigner
          | linhelloHost =>
              obtain ⟨fp, hostPem, -, -, hpub, -⟩ := hsigner
              cases hnone.symm.trans hpub
        · exact hsigner.congr hpub
      exact ⟨hlen, signer, key, ⟨hsigner', hpcrs, hkey, o, area, hsealed ho, hrest⟩,
        Presents.grown hpresents hsigner hgrown⟩

/-! ### Parts of a call -/

/-- Writes no file and leaves the persistent handles. -/
def Op.Framed (o : Op) : Prop := (∀ f, o.mayWrite f = false) ∧ o.Stays

theorem framed_of_idle {p : Program tpm α} (hp : p.Only Op.Idle) : p.Only Op.Framed := by
  refine hp.imp fun o ho => ⟨ho.1.1, ?_⟩
  cases o <;> first | trivial | cases ho.2

theorem framed_detectBootMode : detectBootMode.Only Op.Framed :=
  detectBootMode_only fun _ => ⟨fun _ => rfl, trivial⟩

theorem framed_computePolicyDigest {sel : Option (List Nat)} :
    (computePolicyDigest sel).run.Only Op.Framed := by
  refine only_withSession (fun _ h hs => ⟨h.1, hs⟩) fun session => ?_
  cases sel with
  | none => exact only_attempt (only_perform ⟨fun _ => rfl, trivial⟩)
  | some l =>
      refine only_exceptT_bind (only_attempt (only_perform ⟨fun _ => rfl, trivial⟩)) fun _ => ?_
      exact only_attempt (only_perform ⟨fun _ => rfl, trivial⟩)

theorem framed_loadExternalPubkey {pubkeyPem : String} :
    (loadExternalPubkey P pubkeyPem).run.Only Op.Framed :=
  only_exceptT_bind only_settle fun _ => only_attempt (only_perform ⟨fun _ => rfl, trivial⟩)

theorem framed_loadSealed {srk : Nat} : (loadSealed P srk env).run.Only Op.Framed := by
  refine only_exceptT_bind only_settle fun area => ?_
  exact only_exceptT_bind only_settle fun priv =>
    only_attempt (only_perform ⟨fun _ => rfl, trivial⟩)

theorem framed_unsealLoaded {handle session : Nat} :
    (unsealLoaded P handle session env).run.Only Op.Framed := by
  refine only_exceptT_bind (only_exceptT_lift (only_perform ⟨fun _ => rfl, trivial⟩)) fun answer =>
    ?_
  cases answer with
  | ok data => exact only_exceptT_pure
  | error e =>
      exact only_exceptT_bind (framed_of_idle idle_policyAwareErr) fun err => only_exceptT_throw

theorem framed_authorizeSession {session : Nat} {pubkeyPem : String} {approved sig : Bytes}
    {body : Fallible α} (hbody : body.run.Only Op.Framed) :
    (authorizeSession P session pubkeyPem approved policyRef sig body).run.Only Op.Framed := by
  refine only_withHandle (fun _ h hs => ⟨h.1, hs⟩) framed_loadExternalPubkey fun keyHandle => ?_
  refine only_exceptT_bind (only_attempt (only_perform ⟨fun _ => rfl, trivial⟩)) fun keyName => ?_
  refine only_exceptT_bind only_settle fun signature => ?_
  refine only_exceptT_bind (only_attempt (only_perform ⟨fun _ => rfl, trivial⟩)) fun ticket => ?_
  refine only_exceptT_bind only_settle fun refNonce => ?_
  exact only_exceptT_bind (only_attempt (only_perform ⟨fun _ => rfl, trivial⟩)) fun _ => hbody

theorem systemdSignatures_congr {bank : String}
    (h : ∀ path, y'.file (.systemdSignatures path) = y.file (.systemdSignatures path)) :
    y'.systemdSignatures P bank = y.systemdSignatures P bank := by
  simp only [System.systemdSignatures, System.discover, h]

theorem storageKey_congr (h : y'.persistent = y.persistent) : y'.storageKey P = y.storageKey P := by
  rw [System.storageKey, System.storageKey, h]

/-- Every envelope under the policy reference that opens here opens there. -/
def StillOpens (P : Platform) (policyRef : Bytes) (m m' : Machine) : Prop :=
  ∀ env secret, Refers policyRef env → Opened P m.sys env secret → Opened P m'.sys env secret

theorem StillOpens.trans {u v w : Machine} (h₁ : StillOpens P policyRef u v)
    (h₂ : StillOpens P policyRef v w) : StillOpens P policyRef u w :=
  fun _ _ hrefers hopened => h₂ _ _ hrefers (h₁ _ _ hrefers hopened)

theorem StillOpens.of_grown (h : m.sys.Grown P policyRef m'.sys) : StillOpens P policyRef m m' :=
  fun _ _ hrefers hopened => hopened.grown hrefers h

theorem StillOpens.refl (m : Machine) : StillOpens P policyRef m m := fun _ _ _ h => h

/-- A program after which everything still opens. -/
abbrev KeepsOpen (P : Platform) (policyRef : Bytes) (p : Program tpm α) : Prop :=
  Moves (Step P False) (StillOpens P policyRef) p

theorem keepsOpen_bind {x : Fallible α} {f : α → Fallible β} (hx : KeepsOpen P policyRef x.run)
    (hf : ∀ a, KeepsOpen P policyRef (f a).run) : KeepsOpen P policyRef (x >>= f).run :=
  Moves.exceptT_bind (R := StillOpens P policyRef) (fun h₁ h₂ => h₁.trans h₂) hx hf

/-- What changes no file leaves everything open that has the storage key. -/
theorem grown_of_files {p : Program tpm α} {a : α} (h : Exec (Step P False) p m a m')
    (hfile : m'.sys.file = m.sys.file)
    (hkey : ∀ k, m.sys.storageKey P = some k → m'.sys.storageKey P = some k) :
    m.sys.Grown P policyRef m'.sys where
  pcr := (exec_surroundings h).1
  efivar := (exec_surroundings h).2.1
  key := hkey
  systemd := systemdSignatures_congr fun _ => congrFun hfile _
  pair := .inr ⟨congrFun hfile _, congrFun hfile _⟩
  host := .inl (signaturesFor_congr hfile .linhelloHost)

theorem keepsOpen_framed {p : Program tpm α} (hp : p.Only Op.Framed) : KeepsOpen P policyRef p := by
  intro m a m' h
  refine .of_grown (grown_of_files h ?_ fun k hk => ?_)
  · exact exec_silent (hp.imp fun _ ho => ho.1) h
  · rw [storageKey_congr (exec_stays (hp.imp fun _ ho => ho.2) h), hk]

/-- The storage key of the system is what it was. -/
def SameKey (P : Platform) (m m' : Machine) : Prop :=
  ∀ k, m.sys.storageKey P = some k → m'.sys.storageKey P = some k

theorem sameKey_loadOrCreateSrk : Moves (Step P False) (SameKey P) (loadOrCreateSrk P).run := by
  intro m r m' h k hk
  have heval := exec_eval (Choices.fixed P) (quiet_loadOrCreateSrk.imp fun _ ho => ho.2) h
  obtain ⟨srk, persistent, v, hv, -, hkey⟩ := eval_loadOrCreateSrk (c := Choices.fixed P) hk
  rw [hv] at heval
  obtain ⟨-, rfl⟩ := Prod.mk.inj heval
  exact hkey

theorem keepsOpen_loadOrCreateSrk : KeepsOpen P policyRef (loadOrCreateSrk P).run := by
  intro m r m' h
  exact .of_grown
    (grown_of_files h (exec_files quiet_loadOrCreateSrk h) (sameKey_loadOrCreateSrk h))

/-- A relation that is kept by what writes nothing and by opening the storage key. -/
structure Kept (P : Platform) (R : Machine → Machine → Prop) : Prop where
  trans : ∀ {u v w}, R u v → R v w → R u w
  framed : ∀ {β : Type} {p : Program tpm β}, p.Only Op.Framed → Moves (Step P False) R p
  srk : Moves (Step P False) R (loadOrCreateSrk P).run

theorem kept_stillOpens : Kept P (StillOpens P policyRef) :=
  ⟨fun h₁ h₂ => h₁.trans h₂, keepsOpen_framed, keepsOpen_loadOrCreateSrk⟩

theorem kept_sameKey : Kept P (SameKey P) where
  trans h₁ h₂ := fun k hk => h₂ k (h₁ k hk)
  framed hp := fun _ _ _ h _ hk =>
    (storageKey_congr (exec_stays (hp.imp fun _ ho => ho.2) h)).trans hk
  srk := sameKey_loadOrCreateSrk

theorem Kept.withSrk {R : Machine → Machine → Prop} (hR : Kept P R) {body : Nat → Fallible α}
    (hbody : ∀ srk, (body srk).run.Only Op.Framed) :
    Moves (Step P False) R (withSrk P body).run := by
  refine Moves.exceptT_bind (R := R) hR.trans hR.srk fun x => hR.framed ?_
  obtain ⟨srk, persistent⟩ := x
  refine only_exceptT_bind (only_caught (hbody srk)) fun result => ?_
  cases persistent with
  | false =>
      exact only_exceptT_bind (only_exceptT_lift (only_perform ⟨fun _ => rfl, trivial⟩)) fun _ =>
        only_settle
  | true => exact only_settle

theorem Kept.unsealLiteral {R : Machine → Machine → Prop} (hR : Kept P R) :
    Moves (Step P False) R (unsealLiteral P env).run := by
  refine Moves.exceptT_bind (R := R) hR.trans (hR.framed (framed_of_idle idle_openContext)) fun _ =>
    ?_
  refine hR.withSrk fun srk => ?_
  refine only_withHandle (fun _ h hs => ⟨h.1, hs⟩) framed_loadSealed fun sealed => ?_
  refine only_withSession (fun _ h hs => ⟨h.1, hs⟩) fun session => ?_
  split
  · refine only_exceptT_bind only_settle fun sel => ?_
    exact only_exceptT_bind (only_attempt (only_perform ⟨fun _ => rfl, trivial⟩)) fun _ =>
      framed_unsealLoaded
  · exact framed_unsealLoaded

theorem System.Extends.grown {pcrs : List Nat} (h : y.Extends P y' pcrs policyRef)
    (hpcr : y'.pcr = y.pcr) (hefivar : y'.efivar = y.efivar)
    (hpersistent : y'.persistent = y.persistent) :
    y.Grown P policyRef y' where
  pcr := hpcr
  efivar := hefivar
  key := fun _ hk => (storageKey_congr hpersistent).trans hk
  systemd := systemdSignatures_congr fun _ => h.rest _ nofun nofun
  pair := .inr ⟨h.rest _ nofun nofun, h.rest _ nofun nofun⟩
  host := .inr ⟨pcrs, h⟩

theorem keepsOpen_ensureHostSignature {pcrs : List Nat} :
    KeepsOpen P policyRef (ensureHostSignature P pcrs policyRef).run := by
  intro m r m' h
  have hpersistent := exec_stays stays_ensureHostSignature h
  obtain ⟨hpcr, hefivar, -⟩ := exec_surroundings h
  rcases exec_ensureHostSignature h with hsame | ⟨-, -, hextends⟩
  · exact .of_grown (grown_of_files h hsame fun k hk => (storageKey_congr hpersistent).trans hk)
  · exact .of_grown (hextends.grown hpcr hefivar hpersistent)

private theorem keepsOpen_selfHeal {signer : SignerKind} {pcrs : List Nat} :
    KeepsOpen P policyRef (selfHeal P signer pcrs policyRef).run := by
  intro m r m' h
  have hpersistent := exec_stays stays_selfHeal h
  obtain ⟨hpcr, hefivar, -⟩ := exec_surroundings h
  rcases exec_selfHeal h with hsame | ⟨-, -, -, hextends⟩
  · exact .of_grown (grown_of_files h hsame fun k hk => (storageKey_congr hpersistent).trans hk)
  · exact .of_grown (hextends.grown hpcr hefivar hpersistent)

/-! ### Whole calls -/

theorem keepsOpen_unseal (hrefers : Refers policyRef env) :
    KeepsOpen P policyRef («unseal» P env).run := by
  unfold «unseal»
  split
  · exact kept_stillOpens.unsealLiteral
  next pubkeyPem r hpolicy =>
    obtain rfl := hrefers _ _ hpolicy
    refine keepsOpen_bind (keepsOpen_framed (framed_of_idle idle_classifySigner)) fun signer => ?_
    split
    · exact keepsOpen_framed only_exceptT_throw
    · refine keepsOpen_bind keepsOpen_selfHeal fun _ => ?_
      refine keepsOpen_bind (keepsOpen_framed (framed_of_idle idle_openContext)) fun _ => ?_
      refine kept_stillOpens.withSrk fun srk => ?_
      refine only_withHandle (fun _ h hs => ⟨h.1, hs⟩) framed_loadSealed fun sealed => ?_
      refine only_withSession (fun _ h hs => ⟨h.1, hs⟩) fun session => ?_
      refine only_exceptT_bind only_settle fun sel => ?_
      refine only_exceptT_bind (only_attempt (only_perform ⟨fun _ => rfl, trivial⟩)) fun _ => ?_
      refine only_exceptT_bind (only_attempt (only_perform ⟨fun _ => rfl, trivial⟩)) fun approved =>
        ?_
      refine only_exceptT_bind (framed_of_idle idle_signaturesFor) fun sigs => ?_
      cases findForPolicy sigs env.pcrs approved with
      | none => exact only_exceptT_throw
      | some s => exact framed_authorizeSession framed_unsealLoaded

theorem keepsOpen_sealLiteral {pcrs : List Nat} :
    KeepsOpen P policyRef (sealLiteral P secret pcrs).run := by
  refine keepsOpen_bind (keepsOpen_framed (framed_of_idle idle_openContext))
    fun _ => ?_
  refine keepsOpen_bind (keepsOpen_framed (framed_of_idle idle_readPcrValues))
    fun values => ?_
  refine kept_stillOpens.withSrk fun srk => ?_
  refine only_exceptT_bind only_settle fun selection => ?_
  refine only_exceptT_bind framed_computePolicyDigest fun digest => ?_
  refine only_exceptT_bind only_settle fun sensitive => ?_
  exact only_exceptT_bind (only_attempt (only_perform ⟨fun _ => rfl, trivial⟩)) fun _ =>
    only_exceptT_pure

theorem keepsOpen_sealAuthorized {pcrs : List Nat} {pubkeyPem : String} :
    KeepsOpen P policyRef (sealAuthorized P secret pcrs pubkeyPem policyRef).run := by
  refine keepsOpen_bind (keepsOpen_framed (framed_of_idle idle_classifySigner)) fun signer => ?_
  refine keepsOpen_bind (keepsOpen_framed (framed_of_idle idle_openContext)) fun _ => ?_
  refine keepsOpen_bind (keepsOpen_framed (framed_of_idle idle_readPcrValues)) fun values => ?_
  refine keepsOpen_bind (keepsOpen_framed ?_) fun keyName => ?_
  · exact only_withHandle (fun _ h hs => ⟨h.1, hs⟩) framed_loadExternalPubkey fun kh =>
      only_attempt (only_perform ⟨fun _ => rfl, trivial⟩)
  · refine keepsOpen_bind (kept_stillOpens.withSrk fun srk => ?_) fun env => ?_
    · refine only_exceptT_bind only_settle fun sensitive => ?_
      exact only_exceptT_bind (only_attempt (only_perform ⟨fun _ => rfl, trivial⟩)) fun _ =>
        only_exceptT_pure
    · split
      · exact keepsOpen_bind keepsOpen_ensureHostSignature fun _ =>
          keepsOpen_framed only_exceptT_pure
      · exact keepsOpen_framed only_exceptT_pure

private theorem stays_ensureHostSigningKey : (ensureHostSigningKey P).run.Only Op.Stays := by
  refine ensureHostSigningKey_only (fun o ho => ?_) trivial (fun _ => trivial) fun _ => trivial
  cases o <;> first | trivial | cases ho.2

/-- A key pair is made only where no envelope of the host's signer opened. -/
theorem keepsOpen_ensureHostSigningKey : KeepsOpen P policyRef (ensureHostSigningKey P).run := by
  intro m r m' h
  have hpersistent := exec_stays stays_ensureHostSigningKey h
  obtain ⟨hpcr, hefivar, -⟩ := exec_surroundings h
  rcases exec_ensureHostSigningKey h with hsame | ⟨hpub, -⟩
  · exact .of_grown (grown_of_files h hsame fun k hk => (storageKey_congr hpersistent).trans hk)
  · have hother : ∀ f, f ≠ .signingKey → f ≠ .signingPub → m'.sys.file f = m.sys.file f := by
      intro f hf hf'
      refine exec_file (ensureHostSigningKey_only (fun o ho => ho.1.1 f) rfl (fun d => ?_) fun d =>
        ?_) h
      · exact decide_eq_false hf
      · exact decide_eq_false hf'
    refine .of_grown ⟨hpcr, hefivar, fun k hk =>
      (storageKey_congr hpersistent).trans hk, ?_, .inl hpub,
      .inl ?_⟩
    · exact systemdSignatures_congr fun _ => hother _ (fun heq => by cases heq) fun heq => by
        cases heq
    · rw [System.hostSignatures, hother .signatures (by decide) (by decide)]
      rfl

theorem keepsOpen_plan : KeepsOpen P policyRef (plan P) := by
  intro m p m' h
  rcases exec_plan_front h with ⟨-, rfl⟩ | ⟨-, -, r, hmake, -⟩
  · exact .refl _
  · exact keepsOpen_ensureHostSigningKey hmake

theorem keepsOpen_detect : KeepsOpen P policyRef (detect P) := by
  intro m level m' h
  obtain ⟨p, hplan, -⟩ := exec_map.1 h
  exact keepsOpen_plan hplan

theorem keepsOpen_sealSecret : KeepsOpen P [] (sealSecret P secret).run := by
  intro m r m' h
  unfold sealSecret at h
  obtain ⟨p, v, hplan, hseal⟩ | ⟨e, herror, -⟩ := exec_exceptT_bind.1 h
  · have hplan := exec_exceptT_lift_ok.1 hplan
    refine (keepsOpen_plan hplan).trans ?_
    rcases exec_plan_cases hplan with rfl | rfl | ⟨pcrs, pubkeyPem, rfl⟩
    · exact keepsOpen_sealLiteral hseal
    · exact keepsOpen_sealLiteral hseal
    · exact keepsOpen_sealAuthorized hseal
  · obtain ⟨_, -, hr⟩ := exec_exceptT_lift.1 herror
    cases hr

/-! ## What a seal under a good plan leaves -/

/-- Whatever plan is made here, the first signature an unseal finds after a seal under it
verifies. -/
def PlansPresentable (P : Platform) (m : Machine) : Prop :=
  ∀ p v, Exec (Step P False) (plan P) m p v → Presentable P v.sys p

private theorem refers_of_seal {p : PolicyPlan} (hplan : p = .none ∨ p = .literal LITERAL_PCRS ∨
    ∃ pcrs pubkeyPem, p = .authorized pcrs pubkeyPem [])
    (hseal : Exec (Step P False) (sealWithPlan P secret p).run m (.ok env) m') : Refers [] env := by
  have hliteral : ∀ {pcrs}, Exec (Step P False) (sealLiteral P secret pcrs).run m (.ok env) m' →
      Refers [] env := by
    intro pcrs hseal pubkeyPem r hpolicy
    obtain ⟨srk, persistent, u, k, -, -, -, -, -, hliteral, -⟩ := exec_sealLiteral_ok hseal
    cases hliteral.symm.trans hpolicy
  rcases hplan with rfl | rfl | ⟨pcrs, pubkeyPem, rfl⟩
  · exact hliteral hseal
  · exact hliteral hseal
  · intro pem r hpolicy
    obtain ⟨signer, area, srk, persistent, u, v, k, t, -, -, -, -, -, -, -, -, hauthorized, -⟩ :=
      exec_sealAuthorized_ok hseal
    cases hauthorized.symm.trans hpolicy
    rfl

theorem opened_of_sealSecret (hplans : PlansPresentable P m)
    (hseal : Exec (Step P False) (sealSecret P secret).run m (.ok env) m') :
    Opened P m'.sys env secret ∧ Refers [] env := by
  unfold sealSecret at hseal
  obtain ⟨p, v, hplan, hseal⟩ := exec_exceptT_bind_ok.1 hseal
  have hplan := exec_exceptT_lift_ok.1 hplan
  refine ⟨yields_iff.1 fun r m₄ h => ?_, refers_of_seal (exec_plan_cases hplan) hseal⟩
  have hopens : ∀ m₃, Unchanged m' m₃ → ∀ r m₄, Exec (Step P False) («unseal» P env).run m₃ r m₄ →
      r = .ok secret := by
    rcases exec_plan_cases hplan with rfl | rfl | ⟨pcrs, pubkeyPem, rfl⟩
    · exact fun m₃ hsame r m₄ h => opens_of_sealLiteral hseal hsame h
    · exact fun m₃ hsame r m₄ h => opens_of_sealLiteral hseal hsame h
    · exact (opens_of_sealAuthorized hseal).2 (hplans _ _ hplan)
  exact hopens m' (.refl m') r m₄ h

/-! ## A simulated host -/

variable {signatures : Option (Json Banks)} {v w : Machine}

theorem Started.made {r : Except LinuxHelloError String} (h : Started signatures v)
    (hmake : Exec (Step simulated False) (ensureHostSigningKey simulated).run v r w) :
    r = .ok "host.pem" ∧ w = v := by
  unfold ensureHostSigningKey at hmake
  obtain ⟨present, u, hexists, hrest⟩ | ⟨e, herror, -⟩ := exec_exceptT_bind.1 hmake
  · rw [exec_exceptT_lift_ok, exec_perform] at hexists
    obtain ⟨rfl, -⟩ := step_pathExists hexists
    have hpresent : present = (u.sys.file .signingPub).isSome := by
      obtain ⟨ch, hr⟩ | ⟨hfalse, -⟩ := hexists
      · exact (Prod.mk.inj hr).1
      · exact hfalse.elim
    rw [h.file] at hpresent
    obtain rfl : present = true := hpresent
    have hone := exec_eval (Choices.fixed simulated) (only_exceptT_bind
      (quiet_readText.imp fun _ ho => ho.2) fun pem => only_exceptT_bind
        (quiet_hostPrivateKey.imp fun _ ho => ho.2) fun _ => only_exceptT_pure) hrest
    obtain ⟨⟨firmware, efivar, pcr, hlength, file, persistent⟩, next, object, session⟩ := u
    obtain rfl : file = simulatedFile signatures := h.file
    exact Prod.mk.inj hone
  · obtain ⟨_, -, hr⟩ := exec_exceptT_lift.1 herror
    cases hr

theorem Started.plans {p : PolicyPlan} (h : Started signatures v)
    (hplan : Exec (Step simulated False) (plan simulated) v p w) :
    p = .authorized LINHELLO_SIGNED_PCRS "host.pem" [] ∧ w = v := by
  rcases exec_plan_front hplan with ⟨hfront, -⟩ | ⟨-, -, r, hmake, rfl⟩
  · have hboot : secureBootOf v.sys.efivar = true := by
      rw [h.efivar]
      rfl
    have hkey : v.sys.planKey simulated = none := by
      rw [System.planKey, h.firmware]
      rfl
    rw [hboot, hkey] at hfront
    simp at hfront
  · obtain ⟨rfl, rfl⟩ := h.made hmake
    exact ⟨rfl, rfl⟩

/-- Before the host has signed anything its plan is presentable. -/
theorem Started.presentable (h : Started none v) : PlansPresentable simulated v := by
  intro p w hplan
  obtain ⟨rfl, rfl⟩ := h.plans hplan
  exact presentable_fresh.congr h.pcr h.file

theorem Started.sealSecret {sigs : List PcrSignature} (h : Started signatures v)
    (hsecret : secret.length ≤ simulated.maxSensitive)
    (hsigs : (simulatedMachine true signatures).sys.hostSignatures simulated
      DEFAULT_BANK = .ok sigs) :
    ∃ env w, Exec (Step simulated False) (sealSecret simulated secret).run v (.ok env) w ∧
      Exec (Step simulated False) (sealAuthorized simulated secret LINHELLO_SIGNED_PCRS "host.pem"
        []).run v (.ok env) w := by
  obtain ⟨env, w, hseal⟩ := h.seals hsecret hsigs
  have hplan := exec_of_respond (F := False) simulatedChoices (plan simulated) v
  obtain ⟨hp, hv⟩ := h.plans hplan
  rw [hp, hv] at hplan
  exact ⟨env, w, exec_exceptT_bind_ok.2 ⟨_, v, exec_exceptT_lift_ok.2 hplan, hseal⟩, hseal⟩

/-- Whatever has happened on the simulated host, the envelope opens to the secret there, and
opening it changes nothing the host relies on. -/
structure HeldBy (signatures : Option (Json Banks)) (env : SealedEnvelope)
    (secret : Bytes) : Prop where
  refers : Refers [] env
  yields : ∀ {v}, Started signatures v → Yields simulated v env secret
  started : ∀ {v r w}, Started signatures v →
    Exec (Step simulated False) («unseal» simulated env).run v r w → Started signatures w

theorem HeldBy.unseals (h : HeldBy signatures env secret) (hv : Started signatures v) :
    ∃ w, Exec (Step simulated False) («unseal» simulated env).run v (.ok secret) w ∧
      Started signatures w := by
  have hexec := exec_of_respond (F := False) simulatedChoices («unseal» simulated env).run v
  have hw := h.started hv hexec
  rw [h.yields hv _ _ hexec] at hexec
  exact ⟨_, hexec, hw⟩

private theorem yields_locked (h : Started signatures v) :
    Yields simulated v lockedEnvelope [1, 2, 3] := by
  let o : SealedObject :=
    { parent := [7], authPolicy := pcrPolicy simulatedHash (fun _ => zeroDigest) [7],
      secret := [1, 2, 3] }
  refine yields_iff.2 ⟨fun _ => rfl, o, ?_, rfl, ?_⟩
  · exact ⟨(sealedIn_marshall rfl).trans rfl, Nat.le_of_ble_eq_true rfl, ⟨srkTemplate, [], [7]⟩,
      h.key, rfl, rfl⟩
  · change o.authPolicy = pcrPolicy simulated.H v.sys.pcr [7]
    rw [h.pcr]
    rfl

theorem exists_heldBy (signatures : Option (Json Banks)) :
    ∃ env, HeldBy signatures env [1, 2, 3] := by
  refine ⟨lockedEnvelope, nofun, yields_locked, fun h hunseal => ?_⟩
  have hliteral : «unseal» simulated lockedEnvelope = unsealLiteral simulated lockedEnvelope := rfl
  obtain ⟨hpcr, hefivar, hfirmware⟩ := exec_surroundings hunseal
  rw [hliteral] at hunseal
  exact ⟨hfirmware.trans h.firmware, hefivar.trans h.efivar, hpcr.trans h.pcr,
    (exec_files quiet_unsealLiteral hunseal).trans h.file,
      kept_sameKey.unsealLiteral hunseal _ h.key⟩

end Linhello.Tpm
