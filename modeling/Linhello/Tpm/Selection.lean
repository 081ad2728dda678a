import Linhello.Tpm.Recovery
/-!
# Which signature is presented

The lookup takes the first entry with the right registers and digest. One that does
not verify stands in front of every entry behind it.
-/

namespace Linhello.Tpm

open Common Effect Host
open Linhello.Core (SealedEnvelope)

variable {P : Platform} {m m' : Machine} {c : Choices P}

theorem calm_selfHeal {signer : SignerKind} {pcrs : List Nat} {policyRef : Bytes} :
    (selfHeal P signer pcrs policyRef).run.Only fun o : Op => o.chooses = false := by
  unfold selfHeal
  split
  · refine only_exceptT_bind (only_exceptT_lift (quiet_isSecureBootEnabled.imp fun _ ho => ho.2))
      fun on => ?_
    split
    · exact only_exceptT_bind (only_caught calm_ensureHostSignature) fun _ => only_exceptT_pure
    · exact only_exceptT_pure
  · exact only_exceptT_pure

theorem calm_unsealAuthorized {env : SealedEnvelope} {pubkeyPem : String} {policyRef : Bytes} :
    (unsealAuthorized P env pubkeyPem policyRef).run.Only fun o : Op => o.chooses = false := by
  refine only_exceptT_bind (quiet_classifySigner.imp fun _ ho => ho.2) fun signer => ?_
  split
  · exact only_exceptT_throw
  · refine only_exceptT_bind calm_selfHeal fun _ => ?_
    refine only_exceptT_bind (quiet_openContext.imp fun _ ho => ho.2) fun _ => ?_
    exact quiet_unsealSigned.imp fun _ ho => ho.2

theorem calm_unseal {env : SealedEnvelope} :
    («unseal» P env).run.Only fun o : Op => o.chooses = false := by
  unfold «unseal»
  split
  · exact quiet_unsealLiteral.imp fun _ ho => ho.2
  · exact calm_unsealAuthorized

/-- Where there is a signature for the current registers, nothing is healed. -/
theorem eval_selfHeal (policyRef : Bytes) {signer : SignerKind} {pcrs : List Nat}
    {sigs : List PcrSignature} {s : PcrSignature} (hpcrs : pcrSelection pcrs = .ok pcrs)
    (hsigs : m.sys.signaturesFor P signer = .ok sigs)
    (hfind : findForPolicy sigs pcrs (pcrPolicy P.H m.sys.pcr pcrs) = some s) :
    ∃ v, eval (respond c) (selfHeal P signer pcrs policyRef).run m = (.ok (), v) ∧
      v.sys = m.sys := by
  cases signer with
  | systemd => exact ⟨m, rfl, rfl⟩
  | linhelloHost =>
      have hboot : eval (respond c) (liftM isSecureBootEnabled : Fallible Bool).run m =
          (.ok (secureBootOf m.sys.efivar), m) := by
        rw [eval_exceptT_lift, eval_isSecureBootEnabled]
      rw [selfHeal, if_pos rfl, eval_exceptT_bind_ok hboot]
      cases secureBootOf m.sys.efivar with
      | false => exact ⟨m, rfl, rfl⟩
      | true =>
          obtain ⟨v, hv, hensure⟩ := eval_ensureHostSignature (c := c) (m := m)
            policyRef hpcrs
          rw [System.signaturesFor] at hsigs
          rw [hsigs] at hensure
          dsimp only at hensure
          rw [hfind] at hensure
          have hcaught : eval (respond c) (caught (ensureHostSignature P pcrs policyRef)).run m =
              (.ok (.ok (pcrPolicy P.H m.sys.pcr pcrs)), v) := by
            rw [eval_caught, hensure]
            rfl
          refine ⟨v, ?_, hv⟩
          rw [if_pos rfl, eval_exceptT_bind_ok hcaught]
          rfl

theorem pcrSelection_expected (signer : SignerKind) :
    pcrSelection (expectedPcrs signer) = .ok (expectedPcrs signer) := by
  cases signer <;> rfl

theorem eval_unsealAuthorized {env : SealedEnvelope} {o : SealedObject} {pubkeyPem : String}
    {policyRef : Bytes} {signer : SignerKind} {area : Public} {key : PublicKey}
    {sigs : List PcrSignature} {s : PcrSignature} (ho : Sealed P m.sys env o)
    (hsigner : SignerOf P m.sys pubkeyPem signer) (hpcrs : env.pcrs = expectedPcrs signer)
    (harea : rsaPemToPublic P pubkeyPem = .ok area) (hkey : P.rsa.parsePublic pubkeyPem = .ok key)
    (hpolicy : o.authPolicy = authorizeDigest P.H (P.name area) policyRef)
    (hsigs : m.sys.signaturesFor P signer = .ok sigs)
    (hfind : findForPolicy sigs env.pcrs (pcrPolicy P.H m.sys.pcr env.pcrs) = some s)
    (hverify : P.rsa.verify key (authorizationHash P.H (pcrPolicy P.H m.sys.pcr env.pcrs) policyRef)
      s.sig = true)
    (hlen : policyRef.length ≤ MAX_NONCE) :
    (eval (respond c) (unsealAuthorized P env pubkeyPem policyRef).run m).1 = .ok o.secret := by
  have hsupported : pcrSelection env.pcrs = .ok env.pcrs := hpcrs ▸ pcrSelection_expected signer
  obtain ⟨v, hheal, hv⟩ := eval_selfHeal (c := c) policyRef hsupported hsigs hfind
  have hopen : eval (respond c) (openContext P).run v = (.ok (), v) := rfl
  rw [unsealAuthorized, eval_exceptT_bind_ok (eval_classifySigner hsigner),
    if_neg (not_not.2 hpcrs), eval_exceptT_bind_ok hheal, eval_exceptT_bind_ok hopen]
  rw [← hv] at ho hsigs hfind hverify
  exact eval_unsealSigned ho harea hkey hpolicy hsupported hsigs hfind hverify hlen

/-- A signature over the current registers that verifies under the key. -/
structure Authorizes (P : Platform) (y : System) (pcrs : List Nat) (policyRef : Bytes)
    (key : PublicKey) (s : PcrSignature) : Prop where
  registers : s.pcrs = pcrs
  digest : s.pol = pcrPolicy P.H y.pcr pcrs
  verifies :
    P.rsa.verify key (authorizationHash P.H (pcrPolicy P.H y.pcr pcrs) policyRef) s.sig = true

/-- An envelope the checks of an authorized unseal accept: a genuine object under the
policy of the key it names, with the registers of that key's signer. -/
structure Accepted (P : Platform) (y : System) (env : SealedEnvelope) (pubkeyPem : String)
    (policyRef : Bytes) (signer : SignerKind) (key : PublicKey) (secret : Bytes) : Prop where
  classified : SignerOf P y pubkeyPem signer
  registers : env.pcrs = expectedPcrs signer
  parses : P.rsa.parsePublic pubkeyPem = .ok key
  genuine : ∃ o area, Sealed P y env o ∧ rsaPemToPublic P pubkeyPem = .ok area ∧
    o.authPolicy = authorizeDigest P.H (P.name area) policyRef ∧ o.secret = secret

/-- What opened an envelope, where nothing was healed before: the first match, which
verifies. -/
theorem exec_unsealAuthorized_found {env : SealedEnvelope} {pubkeyPem : String}
    {policyRef secret : Bytes} {signer : SignerKind} (hsigner : SignerOf P m.sys pubkeyPem signer)
    (hheal : ∀ v, Exec (Step P False) (selfHeal P signer env.pcrs policyRef).run m (.ok ()) v →
      v.sys = m.sys)
    (h : Exec (Step P False) (unsealAuthorized P env pubkeyPem policyRef).run m (.ok secret) m') :
    ∃ sigs s key, m.sys.signaturesFor P signer = .ok sigs ∧
      findForPolicy sigs env.pcrs (pcrPolicy P.H m.sys.pcr env.pcrs) = some s ∧
      P.rsa.parsePublic pubkeyPem = .ok key ∧ env.pcrs = expectedPcrs signer ∧
      P.rsa.verify key (authorizationHash P.H (pcrPolicy P.H m.sys.pcr env.pcrs) policyRef) s.sig =
        true ∧ policyRef.length ≤ MAX_NONCE := by
  obtain ⟨signer', v, hsigner', hpcrs, hhealed, hopened⟩ := exec_unsealAuthorized_ok h
  obtain rfl := signer_unique rfl hsigner hsigner'
  have hv := hheal v hhealed
  obtain ⟨_, _, key, u, sigs, s, -, -, -, hkey, -, hlen, hread, hfile, hfind, hverify⟩ :=
    exec_unsealSigned_ok hopened
  have hlist := exec_eval (Choices.fixed P) (quiet_signaturesFor.imp fun _ ho => ho.2) hread
  rw [eval_signaturesFor, signaturesFor_congr hfile, hv] at hlist
  rw [hv] at hfind hverify
  exact ⟨sigs, s, key, (Prod.mk.inj hlist).1.symm, hfind, hkey, hpcrs, hverify, hlen⟩

private theorem exec_selfHeal_found {signer : SignerKind} {pcrs : List Nat} {policyRef : Bytes}
    {sigs : List PcrSignature} {s : PcrSignature} {r : Except LinuxHelloError Unit}
    (hpcrs : pcrs = expectedPcrs signer) (hsigs : m.sys.signaturesFor P signer = .ok sigs)
    (hfind : findForPolicy sigs pcrs (pcrPolicy P.H m.sys.pcr pcrs) = some s)
    (h : Exec (Step P False) (selfHeal P signer pcrs policyRef).run m r m') : m'.sys = m.sys := by
  obtain ⟨w, hw, hwsys⟩ := eval_selfHeal (c := Choices.fixed P) policyRef
    (hpcrs ▸ pcrSelection_expected signer) hsigs hfind
  have hv := exec_eval (Choices.fixed P) calm_selfHeal h
  rw [hw] at hv
  obtain ⟨-, rfl⟩ := Prod.mk.inj hv
  exact hwsys

/-- An accepted envelope opens exactly if the first match verifies. -/
theorem opens_iff {env : SealedEnvelope} {pubkeyPem : String} {policyRef secret : Bytes}
    {signer : SignerKind} {key : PublicKey} {sigs : List PcrSignature} {s : PcrSignature}
    (haccepted : Accepted P m.sys env pubkeyPem policyRef signer key secret)
    (hsigs : m.sys.signaturesFor P signer = .ok sigs)
    (hfind : findForPolicy sigs env.pcrs (pcrPolicy P.H m.sys.pcr env.pcrs) = some s) :
    (∀ r m', Exec (Step P False) (unsealAuthorized P env pubkeyPem policyRef).run m r m' →
      r = .ok secret) ↔
      P.rsa.verify key (authorizationHash P.H (pcrPolicy P.H m.sys.pcr env.pcrs) policyRef) s.sig =
        true ∧ policyRef.length ≤ MAX_NONCE := by
  obtain ⟨hsigner, hpcrs, hkey, o, area, ho, harea, hpolicy, rfl⟩ := haccepted
  constructor
  · intro h
    have hexec := exec_of_respond (F := False) (Choices.fixed P)
      (unsealAuthorized P env pubkeyPem policyRef).run m
    rw [h _ _ hexec] at hexec
    obtain ⟨sigs', s', key', hsigs', hfind', hkey', -, hverify, hlen⟩ := exec_unsealAuthorized_found
      hsigner (fun v => exec_selfHeal_found hpcrs hsigs hfind) hexec
    obtain rfl := Except.ok.inj (hsigs.symm.trans hsigs')
    obtain rfl := Option.some.inj (hfind.symm.trans hfind')
    obtain rfl := Except.ok.inj (hkey.symm.trans hkey')
    exact ⟨hverify, hlen⟩
  · rintro ⟨hverify, hlen⟩ r m' h
    have hr := exec_eval (Choices.fixed P) calm_unsealAuthorized h
    rw [← eval_unsealAuthorized ho hsigner hpcrs harea hkey hpolicy hsigs hfind hverify hlen, ← hr]

/-- With a valid entry on file an accepted envelope opens, exactly if no entry that does
not verify comes first. -/
theorem selection_complete {env : SealedEnvelope} {pubkeyPem : String} {policyRef secret : Bytes}
    {signer : SignerKind} {key : PublicKey} {sigs : List PcrSignature}
    (haccepted : Accepted P m.sys env pubkeyPem policyRef signer key secret)
    (hsigs : m.sys.signaturesFor P signer = .ok sigs)
    (hvalid : ∃ s ∈ sigs, Authorizes P m.sys env.pcrs policyRef key s) :
    (∀ r m', Exec (Step P False) (unsealAuthorized P env pubkeyPem policyRef).run m r m' →
      r = .ok secret) ↔
    policyRef.length ≤ MAX_NONCE ∧
      ∀ s, findForPolicy sigs env.pcrs (pcrPolicy P.H m.sys.pcr env.pcrs) = some s →
        Authorizes P m.sys env.pcrs policyRef key s := by
  obtain ⟨s₀, hs₀, hauth₀⟩ := hvalid
  cases hfind : findForPolicy sigs env.pcrs (pcrPolicy P.H m.sys.pcr env.pcrs) with
  | none => exact absurd ⟨hauth₀.digest, hauth₀.registers⟩ (findForPolicy_eq_none.1 hfind s₀ hs₀)
  | some s =>
      obtain ⟨-, hpol, hspcrs⟩ := findForPolicy_some hfind
      rw [opens_iff haccepted hsigs hfind]
      constructor
      · rintro ⟨hverify, hlen⟩
        refine ⟨hlen, ?_⟩
        rintro s' hs'
        obtain rfl := Option.some.inj hs'
        exact ⟨hspcrs, hpol, hverify⟩
      · rintro ⟨hlen, hfirst⟩
        exact ⟨(hfirst s rfl).verifies, hlen⟩

/-! ## Two entries for one digest -/

def simulatedDigest : Bytes := pcrPolicy simulatedHash (fun _ => zeroDigest) LINHELLO_SIGNED_PCRS

def simulatedSignature (k : PublicKey) : PcrSignature :=
  { pcrs := LINHELLO_SIGNED_PCRS, pkfp := "", pol := simulatedDigest,
    sig := spelledSignature k (authorizationHash simulatedHash simulatedDigest []) }

/-- The signature file with the signatures of these keys. -/
def simulatedBanks (keys : List PublicKey) : Banks :=
  AList.insert DEFAULT_BANK (keys.map fun k =>
    { pcrs := LINHELLO_SIGNED_PCRS, pkfp := "", pol := hexLower simulatedDigest,
      sig := hexLower (spelledSignature k (authorizationHash simulatedHash simulatedDigest [])) }) ∅

theorem simulatedBanks_signatures {keys : List PublicKey} :
    (simulatedMachine true (some (.value (simulatedBanks keys)))).sys.hostSignatures simulated
      DEFAULT_BANK = .ok (keys.map simulatedSignature) := by
  have hentries : ∀ l : List PublicKey, parseEntries simulated (l.map fun k =>
      { pcrs := LINHELLO_SIGNED_PCRS, pkfp := "", pol := hexLower simulatedDigest,
        sig := hexLower
          (spelledSignature k (authorizationHash simulatedHash simulatedDigest [])) }) =
      .ok (l.map simulatedSignature) := by
    intro l
    induction l with
    | nil => rfl
    | cons k l ih =>
        rw [List.map_cons, parseEntries, ih]
        exact congrArg (fun r : Except LinuxHelloError PcrSignature => do
          let s ← r
          .ok (s :: l.map simulatedSignature)) (parseEntry_written (P := simulated))
  change parseSignatures simulated (simulatedBanks keys) DEFAULT_BANK = _
  rw [parseSignatures, simulatedBanks, AList.lookup_insert]
  exact hentries keys

theorem head_spelledSignature {k : PublicKey} {b : UInt8} {l m : Bytes} (h : k.n = b :: l) :
    (spelledSignature k m).head? = some b := by
  rw [spelledSignature, h]
  rfl

theorem oldKey_signature_ne (m : Bytes) :
    spelledSignature oldKey m ≠ spelledSignature hostKey m := by
  intro h
  have hold : oldKey.n = 2 :: List.replicate 255 2 := modulus_head 2
  have hnew : hostKey.n = 1 :: List.replicate 255 1 := modulus_head 1
  have hhead := congrArg List.head? h
  rw [head_spelledSignature hold, head_spelledSignature hnew] at hhead
  exact absurd (Option.some.inj hhead) (by decide)

/-- What the simulated machine seals for its own signer. -/
def hostSealed : SealedEnvelope :=
  { version := Core.CURRENT_VERSION, mode := .medium, pcrs := LINHELLO_SIGNED_PCRS,
    policy := .authorized "host.pem" [], priv := [1, 2, 3], pcrValues := [],
    pub := simulated.marshall (.keyedHash { fixedTpm := true, fixedParent := true, noDa := true }
      .sha256 (authorizeDigest simulatedHash (simulated.name simulatedArea) []) [7]) }

theorem hostSealed_accepted {signatures : Option (Json Banks)} :
    Accepted simulated (simulatedMachine true signatures).sys hostSealed "host.pem" []
      .linhelloHost hostKey [1, 2, 3] := by
  have hsealed : Sealed simulated (simulatedMachine true signatures).sys hostSealed
      { parent := [7], secret := [1, 2, 3],
        authPolicy := authorizeDigest simulatedHash (simulated.name simulatedArea) [] } := by
    refine ⟨?_, Nat.le_of_ble_eq_true rfl, ⟨srkTemplate, [], [7]⟩, rfl, rfl, rfl⟩
    rw [sealedIn_marshall (by rw [hostSealed])]
    rfl
  refine ⟨simulated_signer, rfl, rfl, ⟨_, simulatedArea, hsealed, simulatedArea_ok, ?_, ?_⟩⟩
  · rfl
  · rfl

theorem simulated_H : simulated.H = simulatedHash := rfl

theorem pcrPolicy_simulated {signatures : Option (Json Banks)} :
    pcrPolicy simulated.H (simulatedMachine true signatures).sys.pcr LINHELLO_SIGNED_PCRS =
      simulatedDigest := by
  rw [simulatedDigest]
  rfl

theorem simulatedSignature_authorizes {signatures : Option (Json Banks)} :
    Authorizes simulated (simulatedMachine true signatures).sys LINHELLO_SIGNED_PCRS [] hostKey
      (simulatedSignature hostKey) := by
  refine ⟨rfl, ?_, ?_⟩
  · rw [pcrPolicy_simulated, simulatedSignature]
  · rw [pcrPolicy_simulated, verify_simulated, simulated_H, simulatedSignature]

theorem find_simulatedSignature {k : PublicKey} {l : List PublicKey} :
    findForPolicy ((k :: l).map simulatedSignature) LINHELLO_SIGNED_PCRS simulatedDigest =
      some (simulatedSignature k) := by
  rw [findForPolicy, List.map_cons, List.find?_cons_of_pos]
  rw [decide_eq_true_eq]
  exact ⟨rfl, rfl⟩

/-- With the host's own entry first, the envelope opens. -/
theorem selection_complete_own :
    (∃ s ∈ [hostKey, oldKey].map simulatedSignature, Authorizes simulated
      (simulatedMachine true (some (.value (simulatedBanks [hostKey, oldKey])))).sys
      LINHELLO_SIGNED_PCRS [] hostKey s) ∧
    ∀ r m', Exec (Step simulated False) (unsealAuthorized simulated hostSealed "host.pem" []).run
      (simulatedMachine true (some (.value (simulatedBanks [hostKey, oldKey])))) r m' →
      r = .ok [1, 2, 3] := by
  have hsigs : (simulatedMachine true (some (.value
      (simulatedBanks [hostKey, oldKey])))).sys.signaturesFor simulated .linhelloHost =
      .ok ([hostKey, oldKey].map simulatedSignature) := simulatedBanks_signatures
  have hvalid : ∃ s ∈ [hostKey, oldKey].map simulatedSignature, Authorizes simulated
      (simulatedMachine true (some (.value (simulatedBanks [hostKey, oldKey])))).sys
      LINHELLO_SIGNED_PCRS [] hostKey s :=
    ⟨simulatedSignature hostKey, List.mem_cons_self, simulatedSignature_authorizes⟩
  refine ⟨hvalid, (selection_complete hostSealed_accepted hsigs hvalid).2
    ⟨Nat.zero_le _, fun s hs => ?_⟩⟩
  have hpcrs : hostSealed.pcrs = LINHELLO_SIGNED_PCRS := rfl
  rw [hpcrs, pcrPolicy_simulated, find_simulatedSignature] at hs
  rw [← Option.some.inj hs]
  exact simulatedSignature_authorizes

/-- With the entry of an earlier key first, the host's own valid entry is never presented. -/
theorem shadowed_entry :
    let m := simulatedMachine true (some (.value (simulatedBanks [oldKey, hostKey])))
    ∃ sigs, m.sys.signaturesFor simulated .linhelloHost = .ok sigs ∧
      Accepted simulated m.sys hostSealed "host.pem" [] .linhelloHost hostKey [1, 2, 3] ∧
      (∃ s ∈ sigs, Authorizes simulated m.sys LINHELLO_SIGNED_PCRS [] hostKey s) ∧
      ¬ ∀ r m', Exec (Step simulated False)
        (unsealAuthorized simulated hostSealed "host.pem" []).run
        m r m' → r = .ok [1, 2, 3] := by
  intro m
  have hsigs : m.sys.signaturesFor simulated .linhelloHost =
      .ok ([oldKey, hostKey].map simulatedSignature) := simulatedBanks_signatures
  refine ⟨_, hsigs, hostSealed_accepted, ⟨simulatedSignature hostKey,
    List.mem_cons_of_mem _ List.mem_cons_self, simulatedSignature_authorizes⟩, ?_⟩
  have hfind : findForPolicy ([oldKey, hostKey].map simulatedSignature) hostSealed.pcrs
      (pcrPolicy simulated.H m.sys.pcr hostSealed.pcrs) = some (simulatedSignature oldKey) := by
    have hpcrs : hostSealed.pcrs = LINHELLO_SIGNED_PCRS := rfl
    rw [hpcrs, pcrPolicy_simulated, find_simulatedSignature]
  rw [opens_iff hostSealed_accepted hsigs hfind]
  rintro ⟨hverify, -⟩
  have hpcrs : hostSealed.pcrs = LINHELLO_SIGNED_PCRS := rfl
  rw [hpcrs, pcrPolicy_simulated, verify_simulated, simulated_H, simulatedSignature] at hverify
  dsimp only at hverify
  exact oldKey_signature_ne _ hverify

end Linhello.Tpm
