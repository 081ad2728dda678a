import Linhello.Tpm.Simulated
import Linhello.Tpm.Unsealing
/-!
# What a rewritten envelope can reach

The sealed blobs fix the policy and the secret; every other field of an envelope is
only a proposal how to satisfy that policy. The policy an object was sealed with and
the ways a session can reach a policy together say in which states the secret comes
out, whatever the fields are.
-/

namespace Linhello.Tpm

open Common Effect Host
open Linhello.Core (SealedEnvelope)

variable {P : Platform} {faulty : Prop} {m m' w w' : Machine} {secret : Bytes}
  {env env' : SealedEnvelope} {p : PolicyPlan}

/-! ## The policy of a sealed object -/

/-- The policy an object sealed under a plan commits to. -/
def Commits (P : Platform) (y : System) : PolicyPlan → Bytes → Prop
  | .none, policy => policy = zeroDigest
  | .literal pcrs, policy => policy = policyOver P y (if pcrs = [] then none else some pcrs) ∧
      (pcrs ≠ [] → pcrSelection pcrs = .ok pcrs)
  | .authorized _ pubkeyPem policyRef, policy => ∃ signer area, SignerOf P y pubkeyPem signer ∧
      rsaPemToPublic P pubkeyPem = .ok area ∧ policy = authorizeDigest P.H (P.name area) policyRef

theorem commits_of_seal (h : Exec (Step P faulty) (sealWithPlan P secret p).run w (.ok env) w') :
    ∃ o, P.sealedIn env = some o ∧ o.secret = secret ∧ Commits P w.sys p o.authPolicy := by
  cases p with
  | none =>
      obtain ⟨_, _, _, k, -, -, hsealed, -⟩ := exec_sealLiteral_ok h
      exact ⟨_, hsealed, rfl, rfl⟩
  | literal pcrs =>
      obtain ⟨_, _, _, k, -, -, hsealed, -, -, -, hsupported, -⟩ := exec_sealLiteral_ok h
      exact ⟨_, hsealed, rfl, rfl, hsupported⟩
  | authorized pcrs pubkeyPem policyRef =>
      obtain ⟨signer, area, _, _, _, _, k, _, hsigner, harea, -, -, -, hsealed, -⟩ :=
        exec_sealAuthorized_ok h
      exact ⟨_, hsealed, rfl, signer, area, hsigner, harea, rfl⟩

/-! ## The policies a session reaches -/

/-- A valid signature over the current registers, on file with the signer of a key. -/
structure Signed (P : Platform) (y : System) (pubkeyPem : String) (policyRef : Bytes)
    (signer : SignerKind) : Prop where
  key : ∃ key s, P.rsa.parsePublic pubkeyPem = .ok key ∧ OnFile P y signer s ∧
    s.pcrs = expectedPcrs signer ∧ s.pol = pcrPolicy P.H y.pcr (expectedPcrs signer) ∧
    P.rsa.verify key (authorizationHash P.H s.pol policyRef) s.sig = true

/-- The policies some session reaches between two states of a machine. -/
def Reaches (P : Platform) (y y' : System) (policy : Bytes) : Prop :=
  policy = zeroDigest ∨ (∃ pcrs, policy = pcrPolicy P.H y'.pcr pcrs) ∨
    ∃ pubkeyPem policyRef signer area, SignerOf P y pubkeyPem signer ∧
      rsaPemToPublic P pubkeyPem = .ok area ∧
      policy = authorizeDigest P.H (P.name area) policyRef ∧ Signed P y' pubkeyPem policyRef signer

theorem findForPolicy_some {sigs : List PcrSignature} {pcrs : List Nat} {digest : Bytes}
    {s : PcrSignature} (h : findForPolicy sigs pcrs digest = some s) :
    s ∈ sigs ∧ s.pol = digest ∧ s.pcrs = pcrs := by
  have hmatch := List.find?_some h
  rw [decide_eq_true_eq] at hmatch
  exact ⟨List.mem_of_find?_eq_some h, hmatch⟩

private theorem onFile_congr {y y' : System} (h : y.file = y'.file) {signer : SignerKind}
    {s : PcrSignature} (hs : OnFile P y signer s) : OnFile P y' signer s := by
  cases signer with
  | systemd => rwa [OnFile, h] at hs
  | linhelloHost => rwa [OnFile, h] at hs

theorem reaches_of_unseal (h : Exec (Step P faulty) («unseal» P env).run m (.ok secret) m') :
    ∃ o, P.sealedIn env = some o ∧ o.secret = secret ∧ Reaches P m.sys m'.sys o.authPolicy := by
  have hpcr := (exec_surroundings h).1
  unfold «unseal» at h
  split at h
  · obtain ⟨o, hsealed, hsecret, hpolicy⟩ := exec_unsealLiteral_ok h
    refine ⟨o, hsealed, hsecret, ?_⟩
    rw [hpolicy]
    split
    · exact .inl rfl
    · exact .inr (.inl ⟨env.pcrs, by rw [hpcr]; rfl⟩)
  · obtain ⟨signer, v, hsigner, hpcrs, hheal, hbody⟩ := exec_unsealAuthorized_ok h
    have hvpcr := (exec_surroundings hheal).1
    have hfile' := exec_files quiet_unsealSigned hbody
    obtain ⟨o, area, key, u, sigs, s, hsealed, hsecret, harea, hkey, hpolicy, -,
      hsigs, hfile, hfind, hverify⟩ := exec_unsealSigned_ok hbody
    refine ⟨o, hsealed, hsecret, .inr (.inr ⟨_, _, signer, area, hsigner, harea, hpolicy, ?_⟩)⟩
    obtain ⟨hmem, hpol, hspcrs⟩ := findForPolicy_some hfind
    have honfile := (exec_signaturesFor_ok hsigs).2 s hmem
    rw [hvpcr, ← hpcr, hpcrs] at hpol
    rw [hvpcr, ← hpcr, hpcrs, ← hpol] at hverify
    exact ⟨key, s, hkey, onFile_congr (hfile.trans hfile'.symm) honfile, hspcrs.trans hpcrs, hpol,
      hverify⟩

/-! ## Approval -/

/-- The states in which a plan, followed in the state `sealing`, lets its secret go. -/
def Approves (P : Platform) (sealing now : System) : PolicyPlan → Prop
  | .none => True
  | .literal pcrs => ∀ i ∈ pcrs, now.pcr i = sealing.pcr i
  | .authorized _ pubkeyPem policyRef => ∃ signer, SignerOf P sealing pubkeyPem signer ∧
      Signed P now pubkeyPem policyRef signer

theorem mem_selected_of_supported {pcrs : List Nat} (h : pcrSelection pcrs = .ok pcrs) {i : Nat}
    (hi : i ∈ pcrs) : i ∈ selected pcrs := by
  unfold pcrSelection at h
  split at h
  · cases h
  · rename_i hfind
    have hslot := List.find?_eq_none.1 hfind i hi
    simp only [pcrSlotSupported, Bool.not_eq_true', Bool.not_eq_false, Bool.or_eq_true,
      decide_eq_true_eq, beq_iff_eq] at hslot
    rw [mem_selected]
    exact ⟨by omega, hi⟩

/-- A key is the pinned one or not, wherever it is looked at. -/
theorem signer_unique {y y' : System} {pem pem' : String} {a b : SignerKind}
    (hkey : P.rsa.parsePublic pem = P.rsa.parsePublic pem') (ha : SignerOf P y pem a)
    (hb : SignerOf P y' pem' b) : a = b := by
  have hfp : pubkeySpkiFingerprint P pem = pubkeySpkiFingerprint P pem' := by
    rw [pubkeySpkiFingerprint, pubkeySpkiFingerprint, parsePcrPublicKey, parsePcrPublicKey, hkey]
  cases a with
  | systemd =>
      cases b with
      | systemd => rfl
      | linhelloHost =>
          obtain ⟨fp, _, hother, hne, -⟩ := hb
          rw [← hfp, ha] at hother
          exact absurd (Except.ok.inj hother).symm hne
  | linhelloHost =>
      cases b with
      | linhelloHost => rfl
      | systemd =>
          obtain ⟨fp, _, hother, hne, -⟩ := ha
          rw [hfp, hb] at hother
          exact absurd (Except.ok.inj hother).symm hne

theorem parsePublic_of_name {pem pem' : String} {area area' : Public}
    (h : rsaPemToPublic P pem = .ok area) (h' : rsaPemToPublic P pem' = .ok area')
    (hname : P.name area = P.name area') : P.rsa.parsePublic pem = P.rsa.parsePublic pem' := by
  obtain ⟨⟨n, e⟩, hkey, -, harea⟩ := rsaPemToPublic_ok h
  obtain ⟨⟨n', e'⟩, hkey', -, harea'⟩ := rsaPemToPublic_ok h'
  rw [name_inj hname, harea', Public.rsa.injEq, RsaParameters.mk.injEq] at harea
  obtain ⟨-, -, -, ⟨-, -, -, rfl⟩, rfl⟩ := harea
  rw [hkey, hkey']

private theorem approves_of_reaches {sealing y now : System} {policy : Bytes}
    (hcommits : Commits P sealing p policy) (hreaches : Reaches P y now policy) :
    Approves P sealing now p := by
  cases p with
  | none => trivial
  | literal pcrs =>
      obtain ⟨hpolicy, hsupported⟩ := hcommits
      intro i hi
      have hne : pcrs ≠ [] := List.ne_nil_of_mem hi
      rw [if_neg hne] at hpolicy
      rcases hreaches with hzero | ⟨pcrs', hpcr⟩ | ⟨_, _, _, _, -, -, hauthorize, -⟩
      · exact absurd (hpolicy.symm.trans hzero) pcrPolicy_ne_zero
      · obtain ⟨-, hvalues⟩ := pcrPolicy_inj sealing.pcr_length now.pcr_length
          (hpolicy.symm.trans hpcr)
        exact (hvalues i (mem_selected_of_supported (hsupported hne) hi)).symm
      · exact absurd (hpolicy.symm.trans hauthorize) pcrPolicy_ne_authorizeDigest
  | authorized pcrs pubkeyPem policyRef =>
      obtain ⟨signer, area, hsigner, harea, hpolicy⟩ := hcommits
      refine ⟨signer, hsigner, ?_⟩
      rcases hreaches with hzero | ⟨pcrs', hpcr⟩ | ⟨pem', ref', signer', area', hsigner', harea',
        hauthorize, hsigned⟩
      · exact absurd (hpolicy.symm.trans hzero) authorizeDigest_ne_zero
      · exact absurd (hpcr.symm.trans hpolicy) pcrPolicy_ne_authorizeDigest
      · obtain ⟨hname, rfl⟩ := authorizeDigest_inj (hpolicy.symm.trans hauthorize)
        have hkey := parsePublic_of_name harea harea' hname
        obtain rfl := signer_unique hkey hsigner hsigner'
        obtain ⟨key, s, hparse, hrest⟩ := hsigned
        exact ⟨key, s, hkey.trans hparse, hrest⟩

/-- An envelope lets its own secret go, and only where the plan it was sealed under
approves, however its fields were rewritten. -/
theorem unseal_approved
    (_hplan : Exec (Step P faulty) (plan P) w p w')
    {w'' : Machine} (hseal : Exec (Step P faulty) (sealWithPlan P secret p).run w' (.ok env) w'')
    (hpub : env'.pub = env.pub) (hpriv : env'.priv = env.priv) {s : Bytes}
    (hunseal : Exec (Step P faulty) («unseal» P env').run m (.ok s) m') :
    s = secret ∧ Approves P w'.sys m'.sys p := by
  obtain ⟨o, hsealed, hsecret, hcommits⟩ := commits_of_seal hseal
  obtain ⟨o', hsealed', hsecret', hreaches⟩ := reaches_of_unseal hunseal
  rw [sealedIn_congr hpub hpriv, hsealed] at hsealed'
  obtain rfl := Option.some.inj hsealed'
  exact ⟨hsecret'.symm.trans hsecret, approves_of_reaches hcommits hreaches⟩

/-- What the simulated machine seals without Secure Boot. -/
def simulatedEnvelope : SealedEnvelope :=
  { version := Core.CURRENT_VERSION, mode := (PolicyPlan.literal []).securityLevel, pcrs := [],
    policy := .pcrLiteral, priv := [1, 2, 3], pcrValues := [],
    pub := simulated.marshall (.keyedHash { fixedTpm := true, fixedParent := true, noDa := true }
      .sha256 zeroDigest [7]) }

/-- A host whose key generator fails, so that its plan is a literal one. -/
def brokenGenerator : Choices simulated := { simulatedChoices with key := .error "no entropy" }

def keyless : Machine := (simulatedMachine true none).setFile .signingPub none

def lockedEnvelope : SealedEnvelope :=
  { version := Core.CURRENT_VERSION, mode := (PolicyPlan.literal [7]).securityLevel, pcrs := [7],
    policy := .pcrLiteral, priv := [1, 2, 3], pcrValues := [⟨7, zeroDigest⟩],
    pub := simulated.marshall (.keyedHash { fixedTpm := true, fixedParent := true, noDa := true }
      .sha256 (pcrPolicy simulatedHash (fun _ => zeroDigest) [7]) [7]) }

/-- The same blobs, with every other field but the kind of the policy rewritten. -/
def rewrittenEnvelope : SealedEnvelope :=
  { lockedEnvelope with version := 9, mode := .full, pcrs := [7, 7], pcrValues := [] }

/-- The host after an update that changed a register outside the plan. -/
def updated : Machine :=
  { keyless with sys :=
      { keyless.sys with
        pcr := fun i => if i = 4 then List.replicate 32 5 else zeroDigest
        pcr_length := fun i => by split <;> rfl } }

theorem unseal_approved_rewritten : ∃ w w' m',
    Exec (Step simulated False) (plan simulated) keyless (.literal [7]) w ∧
      Exec (Step simulated False) (sealWithPlan simulated [1, 2, 3] (.literal [7])).run w
        (.ok lockedEnvelope) w' ∧
      Exec (Step simulated False) («unseal» simulated rewrittenEnvelope).run updated
        (.ok [1, 2, 3]) m' ∧
      Approves simulated w.sys m'.sys (.literal [7]) := by
  have hplan : Exec (Step simulated False) (plan simulated) keyless (.literal [7])
      (eval (respond brokenGenerator) (plan simulated) keyless).2 :=
    exec_of_respond brokenGenerator _ _
  have hseal : Exec (Step simulated False) (sealWithPlan simulated [1, 2, 3] (.literal [7])).run
      (eval (respond brokenGenerator) (plan simulated) keyless).2 (.ok lockedEnvelope)
      (eval (respond brokenGenerator) (sealWithPlan simulated [1, 2, 3] (.literal [7])).run
        (eval (respond brokenGenerator) (plan simulated) keyless).2).2 :=
    exec_of_respond brokenGenerator _ _
  have hsealed : Sealed simulated updated.sys rewrittenEnvelope
      { parent := [7], authPolicy := pcrPolicy simulatedHash (fun _ => zeroDigest) [7],
        secret := [1, 2, 3] } :=
    ⟨(sealedIn_marshall rfl).trans rfl, Nat.le_of_ble_eq_true rfl, ⟨srkTemplate, [], [7]⟩, rfl, rfl,
      rfl⟩
  have hvalue := eval_unsealLiteral (c := brokenGenerator) (m := updated) hsealed (fun _ => rfl)
    rfl
  have hunseal := exec_of_respond (F := False) brokenGenerator
    (unsealLiteral simulated rewrittenEnvelope).run updated
  have hliteral :
      «unseal» simulated rewrittenEnvelope = unsealLiteral simulated rewrittenEnvelope := rfl
  rw [hvalue, ← hliteral] at hunseal
  have hpub : rewrittenEnvelope.pub = lockedEnvelope.pub := by rw [rewrittenEnvelope]
  have hpriv : rewrittenEnvelope.priv = lockedEnvelope.priv := by rw [rewrittenEnvelope]
  obtain ⟨-, happroved⟩ := unseal_approved hplan hseal hpub hpriv hunseal
  exact ⟨_, _, _, hplan, hseal, hunseal, happroved⟩

end Linhello.Tpm
