import Linhello.Tpm.Footprint
import Linhello.Tpm.Machine
/-!
# What the TPM functions did when they succeed

One lemma for each function, under any faults: the state a successful call has
seen and what it left.
-/

namespace Linhello.Tpm

open Common Effect Host
open Linhello.Core (PcrValue SealedEnvelope)

variable {P : Platform} {faulty : Prop} {m m' : Machine} {α : Type}

/-! ## Surroundings and files -/

theorem exec_surroundings {p : Program tpm α} {a : α} (h : Exec (Step P faulty) p m a m') :
    m'.sys.pcr = m.sys.pcr ∧ m'.sys.efivar = m.sys.efivar ∧ m'.sys.firmware = m.sys.firmware := by
  induction p generalizing m with
  | ret b =>
      obtain ⟨-, rfl⟩ := h
      exact ⟨rfl, rfl, rfl⟩
  | call o k ih =>
      obtain ⟨r, v, hstep, hrest⟩ := h
      obtain ⟨hpcr, hefivar, hfirmware⟩ := ih r hrest
      obtain ⟨hpcr', hefivar', hfirmware'⟩ := step_surroundings hstep
      exact ⟨hpcr.trans hpcr', hefivar.trans hefivar', hfirmware.trans hfirmware'⟩

/-- A program none of whose operations may write a file leaves it. -/
theorem exec_file {p : Program tpm α} {a : α} {f : Artifact}
    (hp : p.Only fun o : Op => o.mayWrite f = false) (h : Exec (Step P faulty) p m a m') :
    m'.sys.file f = m.sys.file f :=
  hp.exec (S := Step P faulty) (R := fun x y : Machine => y.sys.file f = x.sys.file f)
    (fun _ => rfl) (fun h₁ h₂ => h₂.trans h₁) (fun ho hs => step_file hs ho) h

theorem exec_files {p : Program tpm α} {a : α} (hp : p.Only Op.Quiet)
    (h : Exec (Step P faulty) p m a m') : m'.sys.file = m.sys.file :=
  funext fun f => exec_file (hp.imp fun _ ho => ho.1 f) h

theorem exec_readJson_ok {β : Type} {f : Artifact} {as : f.Data → Json β} {b : β}
    (h : Exec (Step P faulty) (readJson f as).run m (.ok b) m') :
    (m.sys.file f).map as = some (.value b) ∧ m' = m := by
  unfold readJson at h
  simp only [exec_exceptT_bind_ok, exec_attempt_ok, exec_perform, exec_settle] at h
  obtain ⟨d, v, hread, hparse, rfl⟩ := h
  obtain ⟨hfile, rfl⟩ := step_readFile_ok hread
  rw [hfile, Option.map_some, parse_eq_ok.1 hparse.symm]
  exact ⟨rfl, rfl⟩

theorem exec_readText_ok {f : Artifact} {as : f.Data → Option String} {text : String}
    (h : Exec (Step P faulty) (readText f as).run m (.ok text) m') :
    (m.sys.file f).map as = some (some text) ∧ m' = m := by
  unfold readText at h
  simp only [exec_exceptT_bind_ok, exec_attempt_ok, exec_perform] at h
  obtain ⟨d, v, hread, h⟩ := h
  obtain ⟨hfile, rfl⟩ := step_readFile_ok hread
  rw [hfile, Option.map_some]
  cases htext : as d with
  | none =>
      rw [htext] at h
      cases h.1
  | some t =>
      rw [htext] at h
      obtain ⟨ht, rfl⟩ := h
      exact ⟨by rw [Except.ok.inj ht], rfl⟩

theorem exec_discover {override : Option String} {file : String} {as : String → Artifact}
    {r : Option String} (h : Exec (Step P faulty) (discover override file as) m r m') : m' = m := by
  refine discover_only.exec (R := fun x y : Machine => y = x) (fun _ => rfl)
    (fun h₁ h₂ => h₂.trans h₁) ?_ h
  rintro w o r v ⟨a, rfl⟩ hs
  exact (step_pathExists hs).1

/-! ## Signatures -/

/-- A signature a reader of the signer's file finds there. -/
def OnFile (P : Platform) (y : System) : SignerKind → PcrSignature → Prop
  | .systemd, s => ∃ path raw sigs, y.file (.systemdSignatures path) = some (.value raw) ∧
      parseSignatures P raw DEFAULT_BANK = .ok sigs ∧ s ∈ sigs
  | .linhelloHost, s => ∃ raw sigs, y.file .signatures = some (.value raw) ∧
      parseSignatures P raw DEFAULT_BANK = .ok sigs ∧ s ∈ sigs

theorem exec_hostSignatures_ok {bank : String} {sigs : List PcrSignature}
    (h : Exec (Step P faulty) (hostSignatures P bank).run m (.ok sigs) m') :
    m' = m ∧ (sigs = [] ∨ ∃ raw, m.sys.file .signatures = some (.value raw) ∧
      parseSignatures P raw bank = .ok sigs) := by
  unfold hostSignatures at h
  obtain ⟨present, v, hexists, h⟩ := exec_exceptT_bind_ok.1 h
  rw [exec_exceptT_lift_ok, exec_perform] at hexists
  obtain ⟨rfl, -⟩ := step_pathExists hexists
  cases present with
  | false =>
      obtain ⟨hsigs, rfl⟩ := h
      exact ⟨rfl, .inl (Except.ok.inj hsigs)⟩
  | true =>
      obtain ⟨raw, u, hread, hparse, rfl⟩ := exec_exceptT_bind_ok.1 h
      obtain ⟨hfile, rfl⟩ := exec_readJson_ok hread
      rw [Option.map_id_fun, id] at hfile
      exact ⟨rfl, .inr ⟨raw, hfile, hparse.symm⟩⟩

private theorem exec_loadSignatures_ok {bank : String} {sigs : List PcrSignature}
    (h : Exec (Step P faulty) (loadSignatures P bank).run m (.ok sigs) m') :
    m' = m ∧ ∃ path raw, m.sys.file (.systemdSignatures path) = some (.value raw) ∧
      parseSignatures P raw bank = .ok sigs := by
  unfold loadSignatures at h
  obtain ⟨found, v, hfound, h⟩ := exec_exceptT_bind_ok.1 h
  rw [exec_exceptT_lift_ok] at hfound
  obtain rfl := exec_discover hfound
  cases found with
  | none => cases h.1
  | some path =>
      obtain ⟨raw, u, hread, hparse, rfl⟩ := exec_exceptT_bind_ok.1 h
      obtain ⟨hfile, rfl⟩ := exec_readJson_ok hread
      rw [Option.map_id_fun, id] at hfile
      exact ⟨rfl, path, raw, hfile, hparse.symm⟩

theorem exec_signaturesFor_ok {signer : SignerKind} {sigs : List PcrSignature}
    (h : Exec (Step P faulty) (signaturesFor P signer).run m (.ok sigs) m') :
    m' = m ∧ ∀ s ∈ sigs, OnFile P m.sys signer s := by
  cases signer with
  | systemd =>
      obtain ⟨rfl, path, raw, hfile, hparse⟩ := exec_loadSignatures_ok h
      exact ⟨rfl, fun s hs => ⟨path, raw, sigs, hfile, hparse, hs⟩⟩
  | linhelloHost =>
      obtain ⟨rfl, rfl | ⟨raw, hfile, hparse⟩⟩ := exec_hostSignatures_ok h
      · refine ⟨rfl, fun s hs => ?_⟩
        cases hs
      · exact ⟨rfl, fun s hs => ⟨raw, sigs, hfile, hparse, hs⟩⟩

/-- The signer a key's fingerprint stands for on a system. -/
def SignerOf (P : Platform) (y : System) (pubkeyPem : String) : SignerKind → Prop
  | .systemd => pubkeySpkiFingerprint P pubkeyPem = .ok TRUSTED_PUBKEY_SPKI_SHA256
  | .linhelloHost => ∃ fp hostPem, pubkeySpkiFingerprint P pubkeyPem = .ok fp ∧
      fp ≠ TRUSTED_PUBKEY_SPKI_SHA256 ∧ y.file .signingPub = some (some hostPem) ∧
      pubkeySpkiFingerprint P hostPem = .ok fp

theorem exec_classifySigner_ok {pubkeyPem : String} {signer : SignerKind}
    (h : Exec (Step P faulty) (classifySigner P pubkeyPem).run m (.ok signer) m') :
    m' = m ∧ SignerOf P m.sys pubkeyPem signer := by
  unfold classifySigner at h
  obtain ⟨fp, v, ⟨hfp, rfl⟩, h₁⟩ := exec_exceptT_bind_ok.1 h
  split at h₁
  · rename_i htrusted
    obtain ⟨hsigner, rfl⟩ := h₁
    obtain rfl := Except.ok.inj hsigner
    exact ⟨rfl, by rw [SignerOf, ← hfp, htrusted]⟩
  · rename_i hother
    obtain ⟨read, u, hread, h₂⟩ := exec_exceptT_bind_ok.1 h₁
    obtain ⟨text, hread, htext⟩ := exec_caught.1 hread
    obtain rfl := Except.ok.inj htext
    cases read with
    | error e => cases h₂.1
    | ok hostPem =>
        obtain ⟨hfile, rfl⟩ := exec_readText_ok hread
        rw [Option.map_id_fun, id] at hfile
        obtain ⟨hostFp, t, ⟨hhost, rfl⟩, h₃⟩ := exec_exceptT_bind_ok.1 h₂
        split at h₃
        · rename_i hsame
          obtain ⟨hsigner, rfl⟩ := h₃
          obtain rfl := Except.ok.inj hsigner
          exact ⟨rfl, fp, hostPem, hfp.symm, hother, hfile, by rw [← hsame, ← hhost]⟩
        · cases h₃.1

theorem exec_signAhash_ok {ahash sig : Bytes}
    (h : Exec (Step P faulty) (signAhash P ahash).run m (.ok sig) m') :
    ∃ pem sk, m.sys.file .signingKey = some (some pem) ∧ P.rsa.parsePrivate pem = .ok sk ∧
      P.rsa.sign sk ahash = .ok sig ∧ m' = m := by
  unfold signAhash hostPrivateKey at h
  obtain ⟨sk, v, hkey, hsign, rfl⟩ := exec_exceptT_bind_ok.1 h
  obtain ⟨pem, u, hread, hparse, rfl⟩ := exec_exceptT_bind_ok.1 hkey
  obtain ⟨hfile, rfl⟩ := exec_readText_ok hread
  rw [Option.map_id_fun, id] at hfile
  exact ⟨pem, sk, hfile, mapError_eq_ok.1 hparse.symm, mapError_eq_ok.1 hsign.symm, rfl⟩

/-! ## Firmware -/

theorem exec_isSecureBootEnabled {r : Bool}
    (h : Exec (Step P faulty) isSecureBootEnabled m r m') :
    r = secureBootOf m.sys.efivar ∧ m' = m := by
  unfold isSecureBootEnabled at h
  obtain ⟨secure, v, hsecure, h⟩ := exec_bind.1 h
  obtain ⟨rfl, rfl⟩ := step_readEfivar (exec_perform.1 hsecure)
  unfold secureBootOf
  split at h
  · exact h
  · obtain ⟨setup, u, hsetup, h⟩ := exec_bind.1 h
    obtain ⟨rfl, rfl⟩ := step_readEfivar (exec_perform.1 hsetup)
    exact h

/-! ## Sessions and handles -/

theorem pcrSelection_ok {pcrs sel : List Nat} (h : pcrSelection pcrs = .ok sel) : sel = pcrs := by
  unfold pcrSelection at h
  split at h
  · cases h
  · exact (Except.ok.inj h).symm

theorem fits_ok {max : Nat} {b r : Bytes} (h : fits P max b = .ok r) : r = b ∧ b.length ≤ max := by
  unfold fits at h
  split at h
  · rename_i hlen
    exact ⟨(Except.ok.inj h).symm, hlen⟩
  · cases h

theorem exec_openContext_ok (h : Exec (Step P faulty) (openContext P).run m (.ok ()) m') :
    m' = m := by
  unfold openContext at h
  rw [exec_attempt_ok, exec_perform] at h
  exact step_openContext h

/-- The body ran in a new session, which is flushed if the TPM lets it. -/
theorem exec_withSession_ok {trial : Bool} {body : Nat → Fallible α} {a : α}
    (h : Exec (Step P faulty) (withSession trial body).run m (.ok a) m') :
    ∃ v, Exec (Step P faulty) (body m.next).run (m.openSession trial) (.ok a) v ∧
      (m' = v ∨ m' = v.flush m.next) := by
  unfold withSession at h
  obtain ⟨started, u, hstart, h₁⟩ := exec_exceptT_bind_ok.1 h
  rw [exec_attempt_ok, exec_perform] at hstart
  cases started with
  | none => cases h₁.1
  | some session =>
      obtain ⟨rfl, rfl⟩ := step_startAuthSession_ok hstart
      obtain ⟨attributes, t, hattributes, h₂⟩ := exec_exceptT_bind_ok.1 h₁
      rw [exec_exceptT_lift_ok, exec_perform] at hattributes
      obtain rfl := step_trSessSetAttributes hattributes
      cases attributes with
      | error e =>
          obtain ⟨_, _, -, h₃⟩ := exec_exceptT_bind_ok.1 h₂
          cases h₃.1
      | ok x =>
          obtain ⟨result, v, hbody, h₃⟩ := exec_exceptT_bind_ok.1 h₂
          obtain ⟨_, hbody, hresult⟩ := exec_caught.1 hbody
          obtain rfl := Except.ok.inj hresult
          obtain ⟨_, w, hflush, hresult, rfl⟩ := exec_exceptT_bind_ok.1 h₃
          rw [exec_exceptT_lift_ok, exec_perform] at hflush
          obtain rfl := hresult
          exact ⟨v, hbody, step_flushContext hflush⟩

theorem exec_withHandle_ok {spawn : Fallible Nat} {body : Nat → Fallible α} {a : α}
    (h : Exec (Step P faulty) (withHandle spawn body).run m (.ok a) m') :
    ∃ handle u v, Exec (Step P faulty) spawn.run m (.ok handle) u ∧
      Exec (Step P faulty) (body handle).run u (.ok a) v ∧ (m' = v ∨ m' = v.flush handle) := by
  unfold withHandle at h
  obtain ⟨handle, u, hspawn, h₁⟩ := exec_exceptT_bind_ok.1 h
  obtain ⟨result, v, hbody, h₂⟩ := exec_exceptT_bind_ok.1 h₁
  obtain ⟨_, hbody, hresult⟩ := exec_caught.1 hbody
  obtain rfl := Except.ok.inj hresult
  obtain ⟨_, w, hflush, hresult, rfl⟩ := exec_exceptT_bind_ok.1 h₂
  rw [exec_exceptT_lift_ok, exec_perform] at hflush
  obtain rfl := hresult
  exact ⟨handle, u, v, hspawn, hbody, step_flushContext hflush⟩

theorem exec_withSrk_ok {body : Nat → Fallible α} {a : α}
    (h : Exec (Step P faulty) (withSrk P body).run m (.ok a) m') :
    ∃ srk persistent u v, Exec (Step P faulty) (loadOrCreateSrk P).run m (.ok (srk, persistent)) u ∧
      Exec (Step P faulty) (body srk).run u (.ok a) v ∧ (m' = v ∨ m' = v.flush srk) := by
  unfold withSrk at h
  obtain ⟨⟨srk, persistent⟩, u, hsrk, h₁⟩ := exec_exceptT_bind_ok.1 h
  obtain ⟨result, v, hbody, h₂⟩ := exec_exceptT_bind_ok.1 h₁
  obtain ⟨_, hbody, hresult⟩ := exec_caught.1 hbody
  obtain rfl := Except.ok.inj hresult
  refine ⟨srk, persistent, u, v, hsrk, ?_⟩
  cases persistent with
  | false =>
      obtain ⟨_, w, hflush, hresult, rfl⟩ := exec_exceptT_bind_ok.1 h₂
      rw [exec_exceptT_lift_ok, exec_perform] at hflush
      obtain rfl := hresult
      exact ⟨hbody, step_flushContext hflush⟩
  | true =>
      obtain ⟨hresult, rfl⟩ := h₂
      obtain rfl := hresult
      exact ⟨hbody, .inl rfl⟩

theorem step_pcrRead {pcrs : List Nat} {r : Except String (List Bytes)}
    (hs : Step P faulty m (.pcrRead pcrs) r m') : m' = m := by
  obtain ⟨ch, hr⟩ | ⟨-, -, rfl⟩ := hs
  · exact (Prod.mk.inj hr).2
  · rfl

theorem exec_readPcrValues {pcrs : List Nat} {r : Except LinuxHelloError (List PcrValue)}
    (h : Exec (Step P faulty) (readPcrValues pcrs).run m r m') : m' = m := by
  refine readPcrValues_only.exec (S := Step P faulty) (R := fun x y : Machine => y = x)
    (fun _ => rfl) (fun h₁ h₂ => h₂.trans h₁) ?_ h
  rintro w o r v ⟨l, rfl⟩ hs
  exact step_pcrRead hs

/-- The policy a trial session stands for, over the selected registers if any. -/
def policyOver (P : Platform) (y : System) : Option (List Nat) → Bytes
  | none => zeroDigest
  | some pcrs => pcrPolicy P.H y.pcr pcrs

theorem exec_computePolicyDigest_ok {sel : Option (List Nat)} {digest : Bytes}
    (h : Exec (Step P faulty) (computePolicyDigest sel).run m (.ok digest) m') :
    digest = policyOver P m.sys sel ∧ m'.sys = m.sys ∧ ∀ i < m.next, m'.object i = m.object i := by
  obtain ⟨v, hbody, hm'⟩ := exec_withSession_ok h
  have hdigest : digest = policyOver P m.sys sel ∧ v.sys = m.sys ∧ v.object = m.object := by
    cases sel with
    | none =>
        rw [exec_attempt_ok, exec_perform] at hbody
        obtain ⟨x, hx, rfl, rfl⟩ := step_policyGetDigest_ok hbody
        rw [Machine.openSession_session, Function.update_self] at hx
        obtain rfl := Option.some.inj hx
        exact ⟨rfl, rfl, rfl⟩
    | some pcrs =>
        obtain ⟨_, u, hpcr, hget⟩ := exec_exceptT_bind_ok.1 hbody
        rw [exec_attempt_ok, exec_perform] at hpcr hget
        obtain ⟨x, hx, rfl⟩ := step_policyPcr_ok hpcr
        rw [Machine.openSession_session, Function.update_self] at hx
        obtain rfl := Option.some.inj hx
        obtain ⟨y, hy, rfl, rfl⟩ := step_policyGetDigest_ok hget
        rw [Machine.setDigest_session, Function.update_self] at hy
        obtain rfl := Option.some.inj hy
        exact ⟨rfl, rfl, rfl⟩
  obtain ⟨hd, hsys, hobject⟩ := hdigest
  refine ⟨hd, ?_, ?_⟩
  · rcases hm' with rfl | rfl
    · exact hsys
    · exact hsys
  · intro i hi
    rcases hm' with rfl | rfl
    · rw [hobject]
    · rw [Machine.flush_object, Function.update_of_ne (Nat.ne_of_lt hi), hobject]

/-! ## Loading and unsealing -/

/-- The object a machine's TPM made of an envelope's blobs. -/
def Platform.sealedIn (P : Platform) (env : SealedEnvelope) : Option SealedObject :=
  match P.unmarshall env.pub with
  | .error _ => none
  | .ok area => P.object area env.priv

theorem sealedIn_marshall {env : SealedEnvelope} {area : Public} (h : env.pub = P.marshall area) :
    P.sealedIn env = P.object area env.priv := by
  rw [Platform.sealedIn, h, P.unmarshall_marshall]

theorem sealedIn_congr {env env' : SealedEnvelope} (hpub : env'.pub = env.pub)
    (hpriv : env'.priv = env.priv) : P.sealedIn env' = P.sealedIn env := by
  rw [Platform.sealedIn, Platform.sealedIn, hpub, hpriv]

theorem exec_loadSealed_ok {srk handle : Nat} {env : SealedEnvelope}
    (h : Exec (Step P faulty) (loadSealed P srk env).run m (.ok handle) m') :
    ∃ k o, m.object srk = some (.storage k (some k.auth)) ∧ P.sealedIn env = some o ∧
      o.parent = k.seed ∧ handle = m.next ∧ m' = m.give (.sealed o) := by
  unfold loadSealed at h
  obtain ⟨area, v, ⟨harea, rfl⟩, h₁⟩ := exec_exceptT_bind_ok.1 h
  obtain ⟨priv, u, ⟨hpriv, rfl⟩, h₂⟩ := exec_exceptT_bind_ok.1 h₁
  rw [exec_attempt_ok, exec_perform] at h₂
  obtain ⟨k, o, hparent, hobject, hseed, hhandle, hm'⟩ := step_load_ok h₂
  refine ⟨k, o, hparent, ?_, hseed, hhandle, hm'⟩
  rw [(fits_ok hpriv.symm).1] at hobject
  rw [Platform.sealedIn, mapError_eq_ok.1 harea.symm]
  exact hobject

theorem exec_unsealLoaded_ok {handle session : Nat} {env : SealedEnvelope} {secret : Bytes}
    (h : Exec (Step P faulty) (unsealLoaded P handle session env).run m (.ok secret) m') :
    ∃ o x, m.object handle = some (.sealed o) ∧ m.session session = some x ∧
      x.digest = o.authPolicy ∧ secret = o.secret ∧ m' = m := by
  unfold unsealLoaded at h
  obtain ⟨answer, v, hunseal, h₁⟩ := exec_exceptT_bind_ok.1 h
  rw [exec_exceptT_lift_ok, exec_perform] at hunseal
  cases answer with
  | error e =>
      obtain ⟨_, _, -, h₂⟩ := exec_exceptT_bind_ok.1 h₁
      cases h₂.1
  | ok data =>
      obtain ⟨hdata, rfl⟩ := h₁
      obtain rfl := Except.ok.inj hdata
      exact step_unsealObject_ok hunseal

theorem exec_unsealLiteral_ok {env : SealedEnvelope} {secret : Bytes}
    (h : Exec (Step P faulty) (unsealLiteral P env).run m (.ok secret) m') :
    ∃ o, P.sealedIn env = some o ∧ o.secret = secret ∧
      o.authPolicy = policyOver P m.sys (if env.pcrs = [] then none else some env.pcrs) := by
  unfold unsealLiteral at h
  obtain ⟨_, u, hopen, h₁⟩ := exec_exceptT_bind_ok.1 h
  obtain rfl := exec_openContext_ok hopen
  obtain ⟨srk, persistent, v, w, hsrk, h₂, -⟩ := exec_withSrk_ok h₁
  have hpcr := (exec_surroundings hsrk).1
  obtain ⟨handle, t, x, hload, h₃, -⟩ := exec_withHandle_ok h₂
  obtain ⟨k, o, -, hobject, -, rfl, rfl⟩ := exec_loadSealed_ok hload
  obtain ⟨y, h₄, -⟩ := exec_withSession_ok h₃
  refine ⟨o, hobject, ?_⟩
  by_cases hpcrs : env.pcrs = []
  · rw [if_neg (not_not.2 hpcrs)] at h₄
    obtain ⟨o', s, ho', hs, hdigest, rfl, -⟩ := exec_unsealLoaded_ok h₄
    simp only [Machine.openSession_object, Machine.give_object, Function.update_self] at ho'
    simp only [Machine.openSession_session, Function.update_self] at hs
    obtain rfl := Loaded.sealed.inj (Option.some.inj ho')
    obtain rfl := Option.some.inj hs
    rw [if_pos hpcrs]
    exact ⟨rfl, hdigest.symm⟩
  · rw [if_pos hpcrs] at h₄
    obtain ⟨sel, z, ⟨hsel, rfl⟩, h₅⟩ := exec_exceptT_bind_ok.1 h₄
    obtain rfl := pcrSelection_ok hsel.symm
    obtain ⟨_, t, hpolicy, h₆⟩ := exec_exceptT_bind_ok.1 h₅
    rw [exec_attempt_ok, exec_perform] at hpolicy
    obtain ⟨s, hs, rfl⟩ := step_policyPcr_ok hpolicy
    obtain ⟨o', s', ho', hs', hdigest, rfl, -⟩ := exec_unsealLoaded_ok h₆
    simp only [Machine.setDigest_object, Machine.openSession_object, Machine.give_object,
      Function.update_self] at ho'
    simp only [Machine.openSession_session, Function.update_self] at hs
    simp only [Machine.setDigest_session, Function.update_self] at hs'
    obtain rfl := Loaded.sealed.inj (Option.some.inj ho')
    obtain rfl := Option.some.inj hs
    obtain rfl := Option.some.inj hs'
    rw [if_neg hpcrs]
    refine ⟨rfl, hdigest.symm.trans ?_⟩
    change pcrPolicy P.H v.sys.pcr env.pcrs = _
    rw [hpcr]
    rfl

/-- The session stands for the key once a signature over its digest has verified. -/
theorem exec_authorizeSession_ok {session : Nat} {pubkeyPem : String}
    {approved policyRef sig : Bytes} {body : Fallible α} {a : α}
    (h : Exec (Step P faulty) (authorizeSession P session pubkeyPem approved policyRef sig body).run
      m (.ok a) m') :
    ∃ area key x v, rsaPemToPublic P pubkeyPem = .ok area ∧
      P.rsa.parsePublic pubkeyPem = .ok key ∧ m.session session = some x ∧ x.digest = approved ∧
      P.rsa.verify key (authorizationHash P.H approved policyRef) sig = true ∧
      policyRef.length ≤ MAX_NONCE ∧
      Exec (Step P faulty) body.run ((m.give (.external area)).setDigest session x
        (authorizeDigest P.H (P.name area) policyRef)) (.ok a) v := by
  unfold authorizeSession at h
  obtain ⟨handle, u, v, hspawn, h₁, -⟩ := exec_withHandle_ok h
  obtain ⟨area, t, ⟨harea, rfl⟩, h₂⟩ := exec_exceptT_bind_ok.1 hspawn
  rw [exec_attempt_ok, exec_perform] at h₂
  obtain ⟨rfl, rfl⟩ := step_loadExternalPublic_ok h₂
  obtain ⟨name, w, hname, h₃⟩ := exec_exceptT_bind_ok.1 h₁
  rw [exec_attempt_ok, exec_perform] at hname
  obtain ⟨area', harea', rfl, rfl⟩ := step_trGetName_ok hname
  rw [Machine.give_object, Function.update_self] at harea'
  obtain rfl := Loaded.external.inj (Option.some.inj harea')
  obtain ⟨signature, z, ⟨hfits, rfl⟩, h₄⟩ := exec_exceptT_bind_ok.1 h₃
  obtain rfl := (fits_ok hfits.symm).1
  obtain ⟨ticket, y, hverify, h₅⟩ := exec_exceptT_bind_ok.1 h₄
  rw [exec_attempt_ok, exec_perform] at hverify
  obtain ⟨attributes, nameHash, policy, parameters, unique, hobject, hsig, rfl, rfl⟩ :=
    step_verifySignature_ok hverify
  rw [Machine.give_object, Function.update_self] at hobject
  have hrsa := Loaded.external.inj (Option.some.inj hobject)
  obtain ⟨nonce, z, ⟨hnonce, rfl⟩, h₆⟩ := exec_exceptT_bind_ok.1 h₅
  obtain ⟨rfl, hlen⟩ := fits_ok hnonce.symm
  obtain ⟨_, s, hauthorize, h₇⟩ := exec_exceptT_bind_ok.1 h₆
  rw [exec_attempt_ok, exec_perform] at hauthorize
  obtain ⟨x, hx, hdigest, -, -, rfl⟩ := step_policyAuthorize_ok hauthorize
  obtain ⟨key, hkey, -, hkeyArea⟩ := rsaPemToPublic_ok harea.symm
  rw [hrsa] at hkeyArea
  obtain ⟨-, -, -, rfl, rfl⟩ := Public.rsa.inj hkeyArea
  exact ⟨area, key, x, v, harea.symm, hkey, hx, hdigest, hsig, hlen, h₇⟩

/-- What let the secret go: a signature on file over the current registers that
verifies under the key the object commits to. -/
theorem exec_unsealSigned_ok {env : SealedEnvelope} {pubkeyPem : String} {policyRef secret : Bytes}
    {signer : SignerKind}
    (h : Exec (Step P faulty) (unsealSigned P env pubkeyPem policyRef signer).run
      m (.ok secret) m') :
    ∃ o area key u sigs s, P.sealedIn env = some o ∧ o.secret = secret ∧
      rsaPemToPublic P pubkeyPem = .ok area ∧ P.rsa.parsePublic pubkeyPem = .ok key ∧
      o.authPolicy = authorizeDigest P.H (P.name area) policyRef ∧ policyRef.length ≤ MAX_NONCE ∧
      Exec (Step P faulty) (signaturesFor P signer).run u (.ok sigs) u ∧
      u.sys.file = m.sys.file ∧
      findForPolicy sigs env.pcrs (pcrPolicy P.H m.sys.pcr env.pcrs) = some s ∧
      P.rsa.verify key (authorizationHash P.H (pcrPolicy P.H m.sys.pcr env.pcrs) policyRef) s.sig =
        true := by
  obtain ⟨srk, persistent, w, x, hsrk, h₄, -⟩ := exec_withSrk_ok h
  have hpcr : w.sys.pcr = m.sys.pcr := (exec_surroundings hsrk).1
  have hfile : w.sys.file = m.sys.file := exec_files quiet_loadOrCreateSrk hsrk
  obtain ⟨handle, _, y, hload, h₅, -⟩ := exec_withHandle_ok h₄
  obtain ⟨k, o, -, hobject, -, rfl, rfl⟩ := exec_loadSealed_ok hload
  obtain ⟨z, h₆, -⟩ := exec_withSession_ok h₅
  obtain ⟨sel, _, ⟨hsel, rfl⟩, h₇⟩ := exec_exceptT_bind_ok.1 h₆
  obtain rfl := pcrSelection_ok hsel.symm
  obtain ⟨_, t, hpolicy, h₈⟩ := exec_exceptT_bind_ok.1 h₇
  rw [exec_attempt_ok, exec_perform] at hpolicy
  obtain ⟨s₀, hs₀, rfl⟩ := step_policyPcr_ok hpolicy
  simp only [Machine.openSession_session, Function.update_self] at hs₀
  obtain rfl := Option.some.inj hs₀
  obtain ⟨approved, t, hget, h₉⟩ := exec_exceptT_bind_ok.1 h₈
  rw [exec_attempt_ok, exec_perform] at hget
  obtain ⟨s₁, hs₁, rfl, rfl⟩ := step_policyGetDigest_ok hget
  simp only [Machine.setDigest_session, Function.update_self] at hs₁
  obtain rfl := Option.some.inj hs₁
  obtain ⟨sigs, q, hsigs, h₁₀⟩ := exec_exceptT_bind_ok.1 h₉
  obtain ⟨rfl, -⟩ := exec_signaturesFor_ok hsigs
  have happroved : extendPcr P.H zeroDigest w.sys.pcr env.pcrs =
      pcrPolicy P.H m.sys.pcr env.pcrs := by
    rw [hpcr]
    rfl
  simp only [Machine.openSession_sys, Machine.give_sys, happroved] at h₁₀ hsigs
  cases hfind : findForPolicy sigs env.pcrs (pcrPolicy P.H m.sys.pcr env.pcrs) with
  | none =>
      rw [hfind] at h₁₀
      cases h₁₀.1
  | some s =>
      rw [hfind] at h₁₀
      obtain ⟨area, key, x', t, harea, hkey, hx', -, hverify, hlen, hbody⟩ :=
        exec_authorizeSession_ok h₁₀
      simp only [Machine.setDigest_session, Function.update_self] at hx'
      obtain rfl := Option.some.inj hx'
      obtain ⟨o', s', ho', hs', hdigest, rfl, -⟩ := exec_unsealLoaded_ok hbody
      have hne : w.next ≠ w.next + 1 + 1 := by omega
      simp only [Machine.setDigest_object, Machine.give_object, Machine.openSession_object,
        Machine.setDigest_next, Machine.openSession_next, Machine.give_next,
        Function.update_of_ne hne, Function.update_self] at ho'
      obtain rfl := Loaded.sealed.inj (Option.some.inj ho')
      simp only [Machine.setDigest_session, Function.update_self] at hs'
      obtain rfl := Option.some.inj hs'
      exact ⟨o, area, key, _, sigs, s, hobject, rfl, harea, hkey, hdigest.symm, hlen, hsigs, hfile,
        hfind, hverify⟩

/-- An authorized unseal has checked the signer and the PCR set before. -/
theorem exec_unsealAuthorized_ok {env : SealedEnvelope} {pubkeyPem : String}
      {policyRef secret : Bytes}
    (h : Exec (Step P faulty) (unsealAuthorized P env pubkeyPem policyRef).run m (.ok secret) m') :
    ∃ signer v, SignerOf P m.sys pubkeyPem signer ∧ env.pcrs = expectedPcrs signer ∧
      Exec (Step P faulty) (selfHeal P signer env.pcrs policyRef).run m (.ok ()) v ∧
      Exec (Step P faulty) (unsealSigned P env pubkeyPem policyRef signer).run v
        (.ok secret) m' := by
  unfold unsealAuthorized at h
  obtain ⟨signer, u₀, hsigner, h₁⟩ := exec_exceptT_bind_ok.1 h
  obtain ⟨rfl, hsigner⟩ := exec_classifySigner_ok hsigner
  by_cases hpcrs : env.pcrs = expectedPcrs signer
  · rw [if_neg (not_not.2 hpcrs)] at h₁
    obtain ⟨_, v, hheal, h₂⟩ := exec_exceptT_bind_ok.1 h₁
    obtain ⟨_, v', hopen, h₃⟩ := exec_exceptT_bind_ok.1 h₂
    obtain rfl := exec_openContext_ok hopen
    exact ⟨signer, v', hsigner, hpcrs, hheal, h₃⟩
  · rw [if_pos hpcrs] at h₁
    cases h₁.1

/-! ## Sealing -/

theorem step_trFromTpmPublic_ok {persistent h : Nat}
    (hs : Step P faulty m (.trFromTpmPublic persistent) (.ok h) m') :
    ∃ k, m.sys.persistent persistent = some k ∧ h = m.next ∧ m' = m.give (.storage k none) := by
  obtain ⟨ch, hr⟩ | ⟨-, ⟨e, he⟩, -⟩ := hs
  · rw [respond] at hr
    split at hr
    · cases hr
    · rename_i k hk
      obtain ⟨hh, rfl⟩ := Prod.mk.inj hr
      exact ⟨k, hk, Except.ok.inj hh, rfl⟩
  · cases he

theorem step_next {o : Op} {r : o.Ans} (hs : Step P faulty m o r m') : m.next ≤ m'.next := by
  obtain ⟨ch, hr⟩ | ⟨-, hfails⟩ := hs
  · have hm : m' = (respond ch m o).2 := congrArg Prod.snd hr
    rw [hm]
    unfold respond
    repeat' split
    all_goals first
      | exact Nat.le_refl _
      | exact Nat.le_succ _
  · cases o with
    | writeFile a d =>
        obtain ⟨-, rfl | ⟨d', rfl⟩⟩ := hfails
        · exact Nat.le_refl _
        · exact Nat.le_refl _
    | firmwarePath _ => exact hfails.elim
    | readEfivar _ => exact hfails.elim
    | _ =>
        obtain ⟨-, rfl⟩ := hfails
        exact Nat.le_refl _

theorem step_createPrimary_ok {template : Public} {h : Nat}
    (hs : Step P faulty m (.createPrimary template) (.ok h) m') : h < m'.next := by
  obtain ⟨ch, hr⟩ | ⟨-, ⟨e, he⟩, -⟩ := hs
  · obtain ⟨hh, rfl⟩ := Prod.mk.inj hr
    obtain rfl := Except.ok.inj hh
    exact Nat.lt_succ_self _
  · cases he

theorem step_evictControl_ok {h persistent h' : Nat}
    (hs : Step P faulty m (.evictControl h persistent) (.ok h') m') : h' < m'.next := by
  obtain ⟨ch, hr⟩ | ⟨-, ⟨e, he⟩, -⟩ := hs
  · rw [respond] at hr
    split at hr
    · obtain ⟨hh, rfl⟩ := Prod.mk.inj hr
      obtain rfl := Except.ok.inj hh
      exact Nat.lt_succ_self _
    · cases hr
  · cases he

theorem exec_openSrk_lt {object srk : Nat} {isOurs persistent : Bool} (hobject : object < m.next)
    (h : Exec (Step P faulty) (openSrk object isOurs).run m (.ok (srk, persistent)) m') :
    srk < m'.next := by
  cases isOurs with
  | true =>
      obtain ⟨_, x, hauth, hsrk, rfl⟩ := exec_exceptT_bind_ok.1 h
      rw [exec_attempt_ok, exec_perform] at hauth
      obtain ⟨rfl, -⟩ := Prod.mk.inj (Except.ok.inj hsrk)
      exact hobject.trans_le (step_next hauth)
  | false =>
      obtain ⟨t, x, hcreate, hsrk, rfl⟩ := exec_exceptT_bind_ok.1 h
      rw [createSrk, exec_attempt_ok, exec_perform] at hcreate
      obtain ⟨rfl, -⟩ := Prod.mk.inj (Except.ok.inj hsrk)
      exact step_createPrimary_ok hcreate

private theorem exec_loadOrCreateSrk_lt {srk : Nat} {persistent : Bool}
    (h : Exec (Step P faulty) (loadOrCreateSrk P).run m (.ok (srk, persistent)) m') :
    srk < m'.next := by
  unfold loadOrCreateSrk at h
  obtain ⟨h₀, u, ⟨-, rfl⟩, h₁⟩ := exec_exceptT_bind_ok.1 h
  obtain ⟨found, v, hfound, h₂⟩ := exec_exceptT_bind_ok.1 h₁
  rw [exec_exceptT_lift_ok, exec_perform] at hfound
  cases found with
  | error e =>
      obtain ⟨t, w, -, h₃⟩ := exec_exceptT_bind_ok.1 h₂
      obtain ⟨persisted, x, hevict, h₄⟩ := exec_exceptT_bind_ok.1 h₃
      rw [exec_attempt_ok, exec_perform] at hevict
      obtain ⟨_, y, hflush, h₅⟩ := exec_exceptT_bind_ok.1 h₄
      rw [exec_exceptT_lift_ok, exec_perform] at hflush
      obtain ⟨_, z, hauth, hsrk, rfl⟩ := exec_exceptT_bind_ok.1 h₅
      rw [exec_attempt_ok, exec_perform] at hauth
      obtain ⟨rfl, -⟩ := Prod.mk.inj (Except.ok.inj hsrk)
      exact (step_evictControl_ok hevict).trans_le ((step_next hflush).trans (step_next hauth))
  | ok object =>
      obtain ⟨k, -, rfl, rfl⟩ := step_trFromTpmPublic_ok hfound
      obtain ⟨area, w, harea, h₃⟩ := exec_exceptT_bind_ok.1 h₂
      rw [exec_exceptT_lift_ok, exec_perform] at harea
      have hlt : u.next < w.next := (Nat.lt_succ_self _).trans_le (step_next harea)
      cases area with
      | error e => exact exec_openSrk_lt hlt h₃
      | ok area => exact exec_openSrk_lt hlt h₃

theorem exec_sealLiteral_ok {secret : Bytes} {pcrs : List Nat} {env : SealedEnvelope}
    (h : Exec (Step P faulty) (sealLiteral P secret pcrs).run m (.ok env) m') :
    ∃ srk persistent u k,
      Exec (Step P faulty) (loadOrCreateSrk P).run m (.ok (srk, persistent)) u ∧
      u.object srk = some (.storage k (some k.auth)) ∧
      P.sealedIn env = some
        { parent := k.seed, secret := secret,
          authPolicy := policyOver P m.sys (if pcrs = [] then none else some pcrs) } ∧
      env.priv.length ≤ P.maxPrivate ∧ env.pcrs = pcrs ∧ env.policy = .pcrLiteral ∧
      (pcrs ≠ [] → pcrSelection pcrs = .ok pcrs) ∧ m'.sys = u.sys := by
  unfold sealLiteral at h
  obtain ⟨_, u₀, hopen, h₁⟩ := exec_exceptT_bind_ok.1 h
  obtain rfl := exec_openContext_ok hopen
  obtain ⟨values, u₁, hvalues, h₂⟩ := exec_exceptT_bind_ok.1 h₁
  obtain rfl := exec_readPcrValues hvalues
  obtain ⟨srk, persistent, u, v, hsrk, hbody, hm'⟩ := exec_withSrk_ok h₂
  have hlt := exec_loadOrCreateSrk_lt hsrk
  have hpcr := (exec_surroundings hsrk).1
  obtain ⟨selection, u₂, ⟨hselection, rfl⟩, h₃⟩ := exec_exceptT_bind_ok.1 hbody
  obtain ⟨digest, w, hdigest, h₄⟩ := exec_exceptT_bind_ok.1 h₃
  obtain ⟨rfl, hwsys, hwobject⟩ := exec_computePolicyDigest_ok hdigest
  obtain ⟨sensitive, w₁, ⟨hsensitive, rfl⟩, h₅⟩ := exec_exceptT_bind_ok.1 h₄
  obtain rfl := (fits_ok hsensitive.symm).1
  obtain ⟨⟨area, priv⟩, w₂, hcreate, henv, rfl⟩ := exec_exceptT_bind_ok.1 h₅
  rw [exec_attempt_ok, exec_perform] at hcreate
  obtain ⟨k, hk, hobject, hlen, rfl⟩ := step_create_ok hcreate
  obtain rfl := Except.ok.inj henv
  have hsel : selection = (if pcrs = [] then none else some pcrs) ∧
      (pcrs ≠ [] → pcrSelection pcrs = .ok pcrs) := by
    by_cases hpcrs : pcrs = []
    · rw [if_pos hpcrs] at hselection ⊢
      exact ⟨Except.ok.inj hselection, fun hne => absurd hpcrs hne⟩
    · rw [if_neg hpcrs] at hselection ⊢
      cases hs : pcrSelection pcrs with
      | error e =>
          rw [hs] at hselection
          cases hselection
      | ok l =>
          obtain rfl := pcrSelection_ok hs
          rw [hs] at hselection
          exact ⟨Except.ok.inj hselection, fun _ => rfl⟩
  obtain ⟨rfl, hsupported⟩ := hsel
  refine ⟨srk, persistent, u₂, k, hsrk, ?_, ?_, hlen, rfl, rfl, hsupported, ?_⟩
  · rw [← hwobject srk hlt]
    exact hk
  · rw [sealedIn_marshall rfl, hobject]
    have hpolicy : ∀ sel, policyOver P u₂.sys sel = policyOver P u₁.sys sel := by
      intro sel
      cases sel with
      | none => rfl
      | some l => simp only [policyOver, hpcr]
    rw [hpolicy]
  · rcases hm' with rfl | rfl
    · exact hwsys
    · exact hwsys

private theorem exec_keyName_ok {pubkeyPem : String} {name : Bytes}
    (h : Exec (Step P faulty) (withHandle (loadExternalPubkey P pubkeyPem) fun kh =>
      tpmErr (perform (.trGetName kh))).run m (.ok name) m') :
    ∃ area, rsaPemToPublic P pubkeyPem = .ok area ∧ name = P.name area ∧ m'.sys = m.sys := by
  obtain ⟨handle, u, v, hspawn, hname, hm'⟩ := exec_withHandle_ok h
  obtain ⟨area, t, ⟨harea, rfl⟩, hload⟩ := exec_exceptT_bind_ok.1 hspawn
  rw [exec_attempt_ok, exec_perform] at hload hname
  obtain ⟨rfl, rfl⟩ := step_loadExternalPublic_ok hload
  obtain ⟨area', harea', rfl, rfl⟩ := step_trGetName_ok hname
  rw [Machine.give_object, Function.update_self] at harea'
  obtain rfl := Loaded.external.inj (Option.some.inj harea')
  refine ⟨area, harea.symm, rfl, ?_⟩
  rcases hm' with rfl | rfl
  · rfl
  · rfl

/-- The object commits to the key alone; for the host's signer the current registers
are signed afterwards. -/
theorem exec_sealAuthorized_ok {secret policyRef : Bytes} {pcrs : List Nat} {pubkeyPem : String}
    {env : SealedEnvelope}
    (h : Exec (Step P faulty)
      (sealAuthorized P secret pcrs pubkeyPem policyRef).run m (.ok env) m') :
    ∃ signer area srk persistent u v k t, SignerOf P m.sys pubkeyPem signer ∧
      rsaPemToPublic P pubkeyPem = .ok area ∧ t.sys = m.sys ∧
      Exec (Step P faulty) (loadOrCreateSrk P).run t (.ok (srk, persistent)) u ∧
      u.object srk = some (.storage k (some k.auth)) ∧
      P.sealedIn env = some
        { parent := k.seed, secret := secret,
          authPolicy := authorizeDigest P.H (P.name area) policyRef } ∧
      env.priv.length ≤ P.maxPrivate ∧ env.pcrs = pcrs ∧
      env.policy = .authorized pubkeyPem policyRef ∧ v.sys = u.sys ∧
      (signer = .systemd ∧ m' = v ∨ signer = .linhelloHost ∧
        ∃ d, Exec (Step P faulty) (ensureHostSignature P pcrs policyRef).run v (.ok d) m') := by
  unfold sealAuthorized at h
  obtain ⟨signer, u₀, hsigner, h₁⟩ := exec_exceptT_bind_ok.1 h
  obtain ⟨rfl, hsigner⟩ := exec_classifySigner_ok hsigner
  obtain ⟨_, u₁, hopen, h₂⟩ := exec_exceptT_bind_ok.1 h₁
  obtain rfl := exec_openContext_ok hopen
  obtain ⟨values, u₂, hvalues, h₃⟩ := exec_exceptT_bind_ok.1 h₂
  obtain rfl := exec_readPcrValues hvalues
  obtain ⟨name, t, hname, h₄⟩ := exec_exceptT_bind_ok.1 h₃
  obtain ⟨area, harea, rfl, ht⟩ := exec_keyName_ok hname
  obtain ⟨sealed, v, hsealed, h₅⟩ := exec_exceptT_bind_ok.1 h₄
  obtain ⟨srk, persistent, u, w, hsrk, hbody, hv⟩ := exec_withSrk_ok hsealed
  obtain ⟨sensitive, w₁, ⟨hsensitive, rfl⟩, h₆⟩ := exec_exceptT_bind_ok.1 hbody
  obtain rfl := (fits_ok hsensitive.symm).1
  obtain ⟨⟨created, priv⟩, w₂, hcreate, henv, rfl⟩ := exec_exceptT_bind_ok.1 h₆
  rw [exec_attempt_ok, exec_perform] at hcreate
  obtain ⟨k, hk, hobject, hlen, rfl⟩ := step_create_ok hcreate
  have hvsys : v.sys = w.sys := by
    rcases hv with rfl | rfl
    · rfl
    · rfl
  have hrest : env = sealed ∧ (signer = .systemd ∧ m' = v ∨ signer = .linhelloHost ∧
      ∃ d, Exec (Step P faulty) (ensureHostSignature P pcrs policyRef).run v (.ok d) m') := by
    cases signer with
    | systemd =>
        obtain ⟨henv, rfl⟩ := h₅
        exact ⟨Except.ok.inj henv, .inl ⟨rfl, rfl⟩⟩
    | linhelloHost =>
        obtain ⟨d, x, hensure, henv, rfl⟩ := exec_exceptT_bind_ok.1 h₅
        exact ⟨Except.ok.inj henv, .inr ⟨rfl, d, hensure⟩⟩
  obtain ⟨rfl, hsigned⟩ := hrest
  obtain rfl := Except.ok.inj henv
  exact ⟨signer, area, srk, persistent, w, v, k, t, hsigner, harea, ht, hsrk, hk,
    (sealedIn_marshall rfl).trans hobject, hlen, rfl, rfl, hvsys, hsigned⟩

end Linhello.Tpm
