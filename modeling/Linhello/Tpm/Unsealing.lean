import Linhello.Tpm.Calm
/-!
# What unseals

Where the TPM holds a secret in an envelope's blobs and its policy can be met, an
unseal without faults returns the secret.
-/

namespace Linhello.Tpm

open Common Effect Host
open Linhello.Core (SealedEnvelope)

variable {P : Platform} {m m' : Machine} {α : Type} {c : Choices P}

/-! ## The storage root key -/

/-- The storage key a system uses: the one at its persistent handle if it is ours. -/
def System.storageKey (P : Platform) (y : System) : Option StorageKey :=
  match persistentSrkHandle P with
  | .error _ => none
  | .ok h =>
      match y.persistent h with
      | none => some (P.primary srkTemplate)
      | some k => some (if isLinhelloSrk k.area then k else P.primary srkTemplate)

theorem eval_openSrk (isOurs : Bool) {object : Nat} {k : StorageKey} {auth : Option Bytes}
    (hobject : m.object object = some (.storage k auth)) :
    ∃ srk persistent v, eval (respond c) (openSrk object isOurs).run m =
      (.ok (srk, persistent), v) ∧
      v.object srk = some (.storage (if isOurs then k else P.primary srkTemplate) (some [])) ∧
      v.sys = m.sys := by
  cases isOurs with
  | true =>
      have hauth : eval (respond c) (tpmErr (perform (.trSetAuth object []))).run m =
          (.ok (), m.setObject object (.storage k (some []))) := by
        rw [eval_attempt, eval_perform, respond, hobject]
        rfl
      refine ⟨object, true, m.setObject object (.storage k (some [])), ?_, ?_, rfl⟩
      · rw [openSrk, if_pos rfl, eval_exceptT_bind_ok hauth]
        rfl
      · exact Function.update_self _ _ _
  | false =>
      refine ⟨m.next, false, m.give (.storage (P.primary srkTemplate) (some [])), rfl, ?_, rfl⟩
      rw [Machine.give_object, Function.update_self]
      rfl

private theorem eval_persistSrk {h : Nat} (hfree : m.sys.persistent h = none) :
    ∃ srk v, eval (respond c) (do
      let transient ← createSrk
      let persisted ← tpmErr (perform (.evictControl transient h))
      let _ ← perform (.flushContext transient)
      tpmErr (perform (.trSetAuth persisted []))
      pure (persisted, true) : Fallible (Nat × Bool)).run m = (.ok (srk, true), v) ∧
      v.object srk = some (.storage (P.primary srkTemplate) (some [])) ∧
      v.sys = m.sys.setPersistent h (P.primary srkTemplate) := by
  let k := P.primary srkTemplate
  let made := m.give (.storage k (some []))
  let kept := (made.setPersistent h k).give (.storage k none)
  have hcreate : eval (respond c) createSrk.run m = (.ok m.next, made) := rfl
  have hevict : eval (respond c) (tpmErr (perform (.evictControl m.next h))).run made =
      (.ok (m.next + 1), kept) := by
    rw [eval_attempt, eval_perform, respond, Machine.give_object, Function.update_self,
      Machine.give_sys, hfree]
    rfl
  have hflush : eval (respond c)
      (liftM (perform (.flushContext m.next)) : Fallible (Except String Unit)).run kept =
      (.ok (.ok ()), kept.flush m.next) := rfl
  have hobject : (kept.flush m.next).object (m.next + 1) = some (.storage k none) := by
    rw [Machine.flush_object, Function.update_of_ne (Nat.succ_ne_self _)]
    exact Function.update_self _ _ _
  have hauth : eval (respond c) (tpmErr (perform (.trSetAuth (m.next + 1) []))).run
      (kept.flush m.next) =
      (.ok (), (kept.flush m.next).setObject (m.next + 1) (.storage k (some []))) := by
    rw [eval_attempt, eval_perform, respond, hobject]
    rfl
  refine ⟨m.next + 1, (kept.flush m.next).setObject (m.next + 1) (.storage k (some [])), ?_,
    Function.update_self _ _ _, rfl⟩
  rw [eval_exceptT_bind_ok hcreate, eval_exceptT_bind_ok hevict, eval_exceptT_bind_ok hflush,
    eval_exceptT_bind_ok hauth]
  rfl

theorem eval_loadOrCreateSrk {k : StorageKey} (hk : m.sys.storageKey P = some k) :
    ∃ srk persistent v, eval (respond c) (loadOrCreateSrk P).run m = (.ok (srk, persistent), v) ∧
      v.object srk = some (.storage k (some [])) ∧ v.sys.storageKey P = some k := by
  unfold System.storageKey at hk
  cases hhandle : persistentSrkHandle P with
  | error e =>
      rw [hhandle] at hk
      cases hk
  | ok h =>
      rw [hhandle] at hk
      dsimp only at hk
      have hsettle : eval (respond c) (settle (persistentSrkHandle P) : Fallible Nat).run m =
          (.ok h, m) := by
        rw [eval_settle, hhandle]
      cases hpersistent : m.sys.persistent h with
      | none =>
          rw [hpersistent] at hk
          obtain rfl := Option.some.inj hk
          have hfound : eval (respond c)
              (liftM (perform (.trFromTpmPublic h)) : Fallible (Except String Nat)).run m =
              (.ok (.error "TPM_RC_HANDLE"), m) := by
            rw [eval_exceptT_lift, eval_perform, respond, hpersistent]
          obtain ⟨srk, v, hpersist, hv, hsys⟩ := eval_persistSrk (P := P) (c := c) hpersistent
          refine ⟨srk, true, v, ?_, hv, ?_⟩
          · rw [loadOrCreateSrk, eval_exceptT_bind_ok hsettle, eval_exceptT_bind_ok hfound]
            exact hpersist
          · rw [System.storageKey, hhandle, hsys]
            dsimp only [System.setPersistent]
            rw [Function.update_self]
            dsimp only
            rw [ite_self]
      | some k' =>
          rw [hpersistent] at hk
          obtain rfl := Option.some.inj hk
          have hfound : eval (respond c)
              (liftM (perform (.trFromTpmPublic h)) : Fallible (Except String Nat)).run m =
              (.ok (.ok m.next), m.give (.storage k' none)) := by
            rw [eval_exceptT_lift, eval_perform, respond, hpersistent]
          have hread : eval (respond c)
              (liftM (perform (.readPublic m.next)) : Fallible (Except String Public)).run
              (m.give (.storage k' none)) = (.ok (.ok k'.area), m.give (.storage k' none)) := by
            rw [eval_exceptT_lift, eval_perform, respond, Machine.give_object, Function.update_self]
          have hgiven : (m.give (.storage k' none)).object m.next = some (.storage k' none) := by
            rw [Machine.give_object, Function.update_self]
          obtain ⟨srk, persistent, v, hopen, hv, hsys⟩ :=
            eval_openSrk (P := P) (c := c) (isLinhelloSrk k'.area) hgiven
          refine ⟨srk, persistent, v, ?_, hv, ?_⟩
          · rw [loadOrCreateSrk, eval_exceptT_bind_ok hsettle, eval_exceptT_bind_ok hfound]
            dsimp only
            rw [eval_exceptT_bind_ok hread]
            exact hopen
          · rw [System.storageKey, hhandle]
            dsimp only
            rw [hsys, Machine.give_sys, hpersistent]

theorem eval_withSrk (body : Nat → Fallible α) {srk : Nat} {persistent : Bool} {u v : Machine}
    {r : Except LinuxHelloError α}
    (hsrk : eval (respond c) (loadOrCreateSrk P).run m = (.ok (srk, persistent), u))
    (hbody : eval (respond c) (body srk).run u = (r, v)) :
    ∃ w, eval (respond c) (withSrk P body).run m = (r, w) ∧ w.sys = v.sys := by
  have hcaught : eval (respond c) (caught (body srk)).run u = (.ok r, v) := by
    rw [eval_caught, hbody]
  cases persistent with
  | false =>
      refine ⟨v.flush srk, ?_, rfl⟩
      rw [withSrk, eval_exceptT_bind_ok hsrk]
      dsimp only
      rw [eval_exceptT_bind_ok hcaught]
      rfl
  | true =>
      refine ⟨v, ?_, rfl⟩
      rw [withSrk, eval_exceptT_bind_ok hsrk]
      dsimp only
      rw [eval_exceptT_bind_ok hcaught]
      rfl

/-! ## Envelopes the TPM can open -/

/-- The blobs of an envelope hold an object of this system's storage key. -/
structure Sealed (P : Platform) (y : System) (env : SealedEnvelope) (o : SealedObject) : Prop where
  object : P.sealedIn env = some o
  fits : env.priv.length ≤ P.maxPrivate
  key : ∃ k, y.storageKey P = some k ∧ k.auth = [] ∧ o.parent = k.seed

theorem fits_of_le {max : Nat} {b : Bytes} (h : b.length ≤ max) : fits P max b = .ok b := by
  rw [fits, if_pos h]

theorem eval_loadSealed {srk : Nat} {env : SealedEnvelope} {o : SealedObject} {k : StorageKey}
    (hobject : P.sealedIn env = some o) (hfits : env.priv.length ≤ P.maxPrivate)
    (hsrk : m.object srk = some (.storage k (some k.auth))) (hparent : o.parent = k.seed) :
    eval (respond c) (loadSealed P srk env).run m = (.ok m.next, m.give (.sealed o)) := by
  unfold Platform.sealedIn at hobject
  cases harea : P.unmarshall env.pub with
  | error e =>
      rw [harea] at hobject
      cases hobject
  | ok area =>
      rw [harea] at hobject
      dsimp only at hobject
      have hread : eval (respond c) (settle ((P.unmarshall env.pub).mapError .tpm) :
          Fallible Public).run m = (.ok area, m) := by
        rw [eval_settle, harea]
        rfl
      have hpriv : eval (respond c) (settle (fits P P.maxPrivate env.priv) : Fallible Bytes).run m =
          (.ok env.priv, m) := by
        rw [eval_settle, fits_of_le hfits]
      rw [loadSealed, eval_exceptT_bind_ok hread, eval_exceptT_bind_ok hpriv, eval_attempt,
        eval_perform, respond, hsrk, hobject]
      dsimp only
      rw [if_pos ⟨rfl, hparent⟩]
      rfl

theorem eval_unsealLoaded {handle session : Nat} {env : SealedEnvelope} {o : SealedObject}
    {x : Session} (hobject : m.object handle = some (.sealed o))
    (hsession : m.session session = some x) (htrial : x.trial = false)
    (hdigest : x.digest = o.authPolicy) :
    eval (respond c) (unsealLoaded P handle session env).run m = (.ok o.secret, m) := by
  have hunseal : eval (respond c)
      (liftM (perform (.unsealObject handle session)) : Fallible (Except String Bytes)).run m =
      (.ok (.ok o.secret), m) := by
    rw [eval_exceptT_lift, eval_perform, respond, hobject, hsession]
    dsimp only
    rw [if_pos ⟨htrial, hdigest⟩]
  rw [unsealLoaded, eval_exceptT_bind_ok hunseal]
  rfl

theorem eval_policyPcr {session : Nat} {pcrs : List Nat} {x : Session}
    (hsession : m.session session = some x) :
    eval (respond c) (tpmErr (perform (.policyPcr session pcrs))).run m =
      (.ok (), m.setDigest session x (extendPcr P.H x.digest m.sys.pcr pcrs)) := by
  rw [eval_attempt, eval_perform, respond, hsession]
  rfl

theorem eval_withSealed {env : SealedEnvelope} {o : SealedObject} (ho : Sealed P m.sys env o)
    {body : Nat → Fallible α} {r : Except LinuxHelloError α}
    (hbody : ∀ u : Machine, u.sys.pcr = m.sys.pcr → u.sys.file = m.sys.file →
      (eval (respond c) (body u.next).run (u.give (.sealed o))).1 = r) :
    (eval (respond c)
      (withSrk P fun srk => withHandle (loadSealed P srk env) body).run m).1 = r := by
  obtain ⟨k, hk, hauth, hparent⟩ := ho.key
  obtain ⟨srk, persistent, u, hsrk, hu, -⟩ := eval_loadOrCreateSrk (c := c) hk
  have hexec := exec_of_respond (F := False) c (loadOrCreateSrk P).run m
  rw [hsrk] at hexec
  have hload := eval_loadSealed (c := c) ho.object ho.fits (by rw [hu, hauth]) hparent
  have hused := hbody u (exec_surroundings hexec).1 (exec_files quiet_loadOrCreateSrk hexec)
  obtain ⟨w, hw, -⟩ := eval_withSrk (fun srk => withHandle (loadSealed P srk env) body) hsrk
    (eval_withHandle hload (Prod.ext hused rfl))
  rw [hw]

theorem eval_onHandle {spawn : Fallible Nat} {body : Nat → Fallible α} {handle : Nat} {u : Machine}
    {r : Except LinuxHelloError α} (hspawn : eval (respond c) spawn.run m = (.ok handle, u))
    (h : (eval (respond c) (body handle).run u).1 = r) :
    (eval (respond c) (withHandle spawn body).run m).1 = r := by
  rw [eval_withHandle hspawn (Prod.ext h rfl)]

theorem eval_inSession {trial : Bool} {body : Nat → Fallible α} {r : Except LinuxHelloError α}
    (h : (eval (respond c) (body m.next).run (m.openSession trial)).1 = r) :
    (eval (respond c) (withSession trial body).run m).1 = r := by
  rw [eval_withSession body (Prod.ext h rfl)]

/-- A literal envelope opens while the registers are what its policy says. -/
theorem eval_unsealLiteral {env : SealedEnvelope} {o : SealedObject} (ho : Sealed P m.sys env o)
    (hpcrs : env.pcrs ≠ [] → pcrSelection env.pcrs = .ok env.pcrs)
    (hpolicy : o.authPolicy = policyOver P m.sys (if env.pcrs = [] then none else some env.pcrs)) :
    (eval (respond c) (unsealLiteral P env).run m).1 = .ok o.secret := by
  have hopen : eval (respond c) (openContext P).run m = (.ok (), m) := rfl
  rw [unsealLiteral, eval_exceptT_bind_ok hopen]
  refine eval_withSealed ho fun u hpcr _ => eval_inSession ?_
  have hobject : ((u.give (.sealed o)).openSession false).object u.next = some (.sealed o) :=
    Function.update_self _ _ _
  have hregisters : ((u.give (.sealed o)).openSession false).sys.pcr = m.sys.pcr := hpcr
  have hsession : ((u.give (.sealed o)).openSession false).session (u.give (.sealed o)).next =
      some { trial := false, digest := zeroDigest } := Function.update_self _ _ _
  generalize (u.give (.sealed o)).openSession false = w at hobject hregisters hsession ⊢
  by_cases hnone : env.pcrs = []
  · rw [if_pos hnone] at hpolicy
    rw [if_neg (not_not.2 hnone), eval_unsealLoaded hobject hsession rfl hpolicy.symm]
  · rw [if_neg hnone, policyOver, ← hregisters] at hpolicy
    have hsel : eval (respond c) (settle (pcrSelection env.pcrs) : Fallible (List Nat)).run
        w = (.ok env.pcrs, w) := by
      rw [eval_settle, hpcrs hnone]
    rw [if_pos hnone, eval_exceptT_bind_ok hsel, eval_exceptT_bind_ok (eval_policyPcr hsession)]
    refine congrArg Prod.fst (eval_unsealLoaded ?_ (Function.update_self _ _ _) ?_ ?_)
    · exact hobject
    · rfl
    · exact hpolicy.symm

/-! ## Signed policies -/

/-- The session stands for the key once the signature has verified. -/
theorem eval_authorizeSession {session : Nat} {pubkeyPem : String} {area : Public} {key : PublicKey}
    {approved policyRef sig : Bytes} {x : Session} {body : Fallible α}
    {r : Except LinuxHelloError α} (harea : rsaPemToPublic P pubkeyPem = .ok area)
    (hkey : P.rsa.parsePublic pubkeyPem = .ok key) (hsession : m.session session = some x)
    (hdigest : x.digest = approved)
    (hverify : P.rsa.verify key (authorizationHash P.H approved policyRef) sig = true)
    (hlen : policyRef.length ≤ MAX_NONCE)
    (hbody : (eval (respond c) body.run ((m.give (.external area)).setDigest session x
      (authorizeDigest P.H (P.name area) policyRef))).1 = r) :
    (eval (respond c) (authorizeSession P session pubkeyPem approved policyRef sig body).run m).1 =
      r := by
  obtain ⟨key', hkey', hsize, hrsa⟩ := rsaPemToPublic_ok harea
  obtain rfl : key' = key := Except.ok.inj (hkey'.symm.trans hkey)
  have hspawn : eval (respond c) (loadExternalPubkey P pubkeyPem).run m =
      (.ok m.next, m.give (.external area)) := by
    have hread : eval (respond c) (settle (rsaPemToPublic P pubkeyPem) : Fallible Public).run m =
        (.ok area, m) := by
      rw [eval_settle, harea]
    rw [loadExternalPubkey, eval_exceptT_bind_ok hread]
    rfl
  have hobject : (m.give (.external area)).object m.next = some (.external area) :=
    Function.update_self _ _ _
  have hopen : (m.give (.external area)).session session = some x := hsession
  have hused : (eval (respond c) (do
      let keyName ← tpmErr (perform (.trGetName m.next))
      let signature ← settle (fits P MAX_RSA_KEY_BYTES sig)
      let ticket ← tpmErr (perform (.verifySignature m.next
        (authorizationHash P.H approved policyRef) signature))
      let refNonce ← settle (fits P MAX_NONCE policyRef)
      tpmErr (perform (.policyAuthorize session approved refNonce keyName ticket))
      body : Fallible α).run (m.give (.external area))).1 = r := by
    generalize m.give (.external area) = w at hobject hopen hbody ⊢
    have hname : eval (respond c) (tpmErr (perform (.trGetName m.next))).run w =
        (.ok (P.name area), w) := by
      rw [eval_attempt, eval_perform, respond, hobject]
      rfl
    have hsig : eval (respond c) (settle (fits P MAX_RSA_KEY_BYTES sig) : Fallible Bytes).run w =
        (.ok sig, w) := by
      have hfits : sig.length ≤ MAX_RSA_KEY_BYTES := P.rsa.verify_length _ _ _ hverify ▸ hsize
      rw [eval_settle, fits_of_le hfits]
    have hticket : eval (respond c) (tpmErr (perform (.verifySignature m.next
        (authorizationHash P.H approved policyRef) sig))).run w =
        (.ok { keyName := P.name area, digest := authorizationHash P.H approved policyRef },
          w) := by
      rw [eval_attempt, eval_perform, respond, hobject, hrsa]
      dsimp only
      rw [if_pos hverify]
      rfl
    have hnonce : eval (respond c) (settle (fits P MAX_NONCE policyRef) : Fallible Bytes).run w =
        (.ok policyRef, w) := by
      rw [eval_settle, fits_of_le hlen]
    have hauthorize : eval (respond c) (tpmErr (perform (.policyAuthorize session approved policyRef
        (P.name area)
          { keyName := P.name area, digest := authorizationHash P.H approved policyRef }))).run
        w = (.ok (), w.setDigest session x (authorizeDigest P.H (P.name area) policyRef)) := by
      rw [eval_attempt, eval_perform, respond, hopen]
      dsimp only
      rw [if_pos ⟨hdigest, rfl, rfl⟩]
      rfl
    rw [eval_exceptT_bind_ok hname, eval_exceptT_bind_ok hsig, eval_exceptT_bind_ok hticket,
      eval_exceptT_bind_ok hnonce, eval_exceptT_bind_ok hauthorize]
    exact hbody
  exact eval_onHandle hspawn hused

theorem signaturesFor_congr {y y' : System} (h : y'.file = y.file) (signer : SignerKind) :
    y'.signaturesFor P signer = y.signaturesFor P signer := by
  cases signer with
  | systemd =>
      simp only [System.signaturesFor, System.systemdSignatures, System.discover, h]
  | linhelloHost =>
      simp only [System.signaturesFor, System.hostSignatures, h]

/-- An envelope opens whose object commits to the key and whose first signature over
the current registers verifies. -/
theorem eval_unsealSigned {env : SealedEnvelope} {o : SealedObject} {pubkeyPem : String}
    {policyRef : Bytes} {signer : SignerKind} {area : Public} {key : PublicKey}
    {sigs : List PcrSignature} {s : PcrSignature} (ho : Sealed P m.sys env o)
    (harea : rsaPemToPublic P pubkeyPem = .ok area) (hkey : P.rsa.parsePublic pubkeyPem = .ok key)
    (hpolicy : o.authPolicy = authorizeDigest P.H (P.name area) policyRef)
    (hpcrs : pcrSelection env.pcrs = .ok env.pcrs)
    (hsigs : m.sys.signaturesFor P signer = .ok sigs)
    (hfind : findForPolicy sigs env.pcrs (pcrPolicy P.H m.sys.pcr env.pcrs) = some s)
    (hverify : P.rsa.verify key (authorizationHash P.H (pcrPolicy P.H m.sys.pcr env.pcrs) policyRef)
      s.sig = true)
    (hlen : policyRef.length ≤ MAX_NONCE) :
    (eval (respond c) (unsealSigned P env pubkeyPem policyRef signer).run m).1 = .ok o.secret := by
  refine eval_withSealed ho fun u hpcr hfile => eval_inSession ?_
  have hobject : ((u.give (.sealed o)).openSession false).object u.next = some (.sealed o) :=
    Function.update_self _ _ _
  have hregisters : ((u.give (.sealed o)).openSession false).sys.pcr = m.sys.pcr := hpcr
  have hfiles : ((u.give (.sealed o)).openSession false).sys.file = m.sys.file := hfile
  have hsession : ((u.give (.sealed o)).openSession false).session (u.give (.sealed o)).next =
      some { trial := false, digest := zeroDigest } := Function.update_self _ _ _
  have hnext : ((u.give (.sealed o)).openSession false).next ≠ u.next := by
    rw [Machine.openSession_next, Machine.give_next]
    omega
  generalize (u.give (.sealed o)).openSession false = w
    at hobject hregisters hfiles hsession hnext ⊢
  generalize (u.give (.sealed o)).next = session at hsession ⊢
  have hsel : eval (respond c) (settle (pcrSelection env.pcrs) : Fallible (List Nat)).run w =
      (.ok env.pcrs, w) := by
    rw [eval_settle, hpcrs]
  rw [eval_exceptT_bind_ok hsel, eval_exceptT_bind_ok (eval_policyPcr hsession)]
  have hdigest :
      extendPcr P.H zeroDigest w.sys.pcr env.pcrs = pcrPolicy P.H m.sys.pcr env.pcrs := by
    rw [hregisters]
    rfl
  dsimp only
  rw [hdigest]
  have hreplayed : (w.setDigest session { trial := false, digest := zeroDigest }
      (pcrPolicy P.H m.sys.pcr env.pcrs)).session session =
      some { trial := false, digest := pcrPolicy P.H m.sys.pcr env.pcrs } :=
    Function.update_self _ _ _
  have hheld : (w.setDigest session { trial := false, digest := zeroDigest }
      (pcrPolicy P.H m.sys.pcr env.pcrs)).object u.next = some (.sealed o) := hobject
  have hfiles' : (w.setDigest session { trial := false, digest := zeroDigest }
      (pcrPolicy P.H m.sys.pcr env.pcrs)).sys.file = m.sys.file := hfiles
  have hnext' : (w.setDigest session { trial := false, digest := zeroDigest }
      (pcrPolicy P.H m.sys.pcr env.pcrs)).next ≠ u.next := hnext
  generalize w.setDigest session { trial := false, digest := zeroDigest }
    (pcrPolicy P.H m.sys.pcr env.pcrs) = v at hreplayed hheld hfiles' hnext' ⊢
  have hget : eval (respond c) (tpmErr (perform (.policyGetDigest session))).run v =
      (.ok (pcrPolicy P.H m.sys.pcr env.pcrs), v) := by
    rw [eval_attempt, eval_perform, respond, hreplayed]
    rfl
  have hlist : eval (respond c) (signaturesFor P signer).run v = (.ok sigs, v) := by
    rw [eval_signaturesFor, signaturesFor_congr hfiles', hsigs]
  rw [eval_exceptT_bind_ok hget, eval_exceptT_bind_ok hlist, hfind]
  refine eval_authorizeSession harea hkey hreplayed rfl hverify hlen ?_
  refine congrArg Prod.fst (eval_unsealLoaded ?_ (Function.update_self _ _ _) ?_ ?_)
  · rw [Machine.setDigest_object, Machine.give_object, Function.update_of_ne hnext'.symm]
    exact hheld
  · rfl
  · exact hpolicy.symm

end Linhello.Tpm
