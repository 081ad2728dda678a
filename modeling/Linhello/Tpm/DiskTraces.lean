import Linhello.Tpm.Recovery
/-!
# What planning, sealing and unsealing leave on disk

A plan makes the host's key pair only where the host-signed policy is selected and there is
no public key. Unsealing changes no file but the signature file, and there it adds an entry.
-/

namespace Linhello.Tpm

open Common Effect Host
open Linhello.Core (SealedEnvelope)

variable {P : Platform} {m m' : Machine} {α : Type} {c : Choices P}

/-! ## The key a plan is made for -/

def bootModeOf (firmware : String → Bool) : BootMode :=
  if !firmware EFI_ROOT then .grub
  else if firmware (EFIVARS ++ "/" ++ STUB_INFO_VAR) then .uki
  else if firmware (EFIVARS ++ "/" ++ LOADER_INFO_VAR) then .grub
  else if (GRUB_ARTIFACTS.find? firmware).isSome then .grub
  else .unknown

theorem eval_detectBootMode :
    eval (respond c) detectBootMode m = (bootModeOf m.sys.firmware, m) := by
  have hgrub : eval (respond c) grubArtifactsPresent m =
      ((GRUB_ARTIFACTS.find? m.sys.firmware).isSome, m) := by
    rw [grubArtifactsPresent, eval_bind, eval_findM? (g := m.sys.firmware) (fun _ => rfl)]
    rfl
  have hperform : ∀ path, eval (respond c) (perform (.firmwarePath path)) m =
      (m.sys.firmware path, m) := fun _ => rfl
  unfold detectBootMode bootModeOf efivarExists
  rw [eval_bind, hperform]
  cases m.sys.firmware EFI_ROOT with
  | false => rfl
  | true =>
      simp only [Bool.not_true, Bool.false_eq_true, if_false]
      rw [eval_bind, hperform]
      cases m.sys.firmware (EFIVARS ++ "/" ++ STUB_INFO_VAR) with
      | true => rfl
      | false =>
          simp only [Bool.false_eq_true, if_false]
          rw [eval_bind, hperform]
          cases m.sys.firmware (EFIVARS ++ "/" ++ LOADER_INFO_VAR) with
          | true => rfl
          | false =>
              simp only [Bool.false_eq_true, if_false]
              rw [eval_bind, hgrub]
              cases (GRUB_ARTIFACTS.find? m.sys.firmware).isSome <;> rfl

/-- The pinned key of systemd where it is discovered. -/
def System.systemdPubkey (P : Platform) (y : System) : Option String :=
  match y.discover (P.env "LINHELLO_PCR_PUBKEY") PUBKEY_FILE .systemdPub with
  | none => none
  | some path => (y.file (.systemdPub path)).join.filter fun pem => (ensureTrustedPubkey P pem).isOk

private theorem exists_error {x : Except LinuxHelloError Unit} (h : x ≠ .ok ()) :
    ∃ e, x = .error e := by
  cases x with
  | error e => exact ⟨e, rfl⟩
  | ok u => exact absurd rfl h

theorem eval_loadPubkeyPem :
    eval (respond c) (Except.toOption <$> (loadPubkeyPem P).run) m =
      (m.sys.systemdPubkey P, m) := by
  have hfound : eval (respond c) (liftM (discoverPubkeyPath P) : Fallible (Option String)).run m =
      (.ok (m.sys.discover (P.env "LINHELLO_PCR_PUBKEY") PUBKEY_FILE .systemdPub), m) := by
    rw [eval_exceptT_lift, discoverPubkeyPath, eval_discover]
  rw [eval_map, loadPubkeyPem, eval_exceptT_bind_ok hfound]
  unfold System.systemdPubkey
  cases m.sys.discover (P.env "LINHELLO_PCR_PUBKEY") PUBKEY_FILE .systemdPub with
  | none => rfl
  | some path =>
      dsimp only
      cases hfile : m.sys.file (.systemdPub path) with
      | none =>
          have hread : eval (respond c) (io (perform (.readFile (.systemdPub path)))).run m =
              (.error (.io .notFound), m) := by
            rw [eval_attempt, eval_perform, respond, hfile]
            rfl
          have htext : eval (respond c) (readText (.systemdPub path) id).run m =
              (.error (.io .notFound), m) := eval_exceptT_bind_error hread
          rw [eval_exceptT_bind_error htext]
          rfl
      | some text =>
          have hread : eval (respond c) (io (perform (.readFile (.systemdPub path)))).run m =
              (.ok text, m) := by
            rw [eval_attempt, eval_perform, respond, hfile]
            rfl
          cases text with
          | none =>
              have htext : eval (respond c) (readText (.systemdPub path) id).run m =
                  (.error (.io (.other "stream did not contain valid UTF-8")), m) :=
                eval_exceptT_bind_ok hread
              rw [eval_exceptT_bind_error htext]
              rfl
          | some pem =>
              rw [eval_exceptT_bind_ok (eval_readText id hfile rfl)]
              have hsettle :
                  eval (respond c) (settle (ensureTrustedPubkey P pem) : Fallible Unit).run m =
                  (ensureTrustedPubkey P pem, m) := rfl
              rw [Option.join_some, Option.filter]
              by_cases htrusted : ensureTrustedPubkey P pem = .ok ()
              · rw [eval_exceptT_bind_ok (hsettle.trans (by rw [htrusted])), htrusted]
                rfl
              · obtain ⟨e, he⟩ := exists_error htrusted
                rw [eval_exceptT_bind_error (hsettle.trans (by rw [he])), he]
                rfl

def System.signedAvailable (P : Platform) (y : System) : Bool :=
  (y.discover (P.env "LINHELLO_PCR_SIGNATURE") SIGNATURE_FILE .systemdSignatures).isSome &&
    (y.discover (P.env "LINHELLO_PCR_PUBKEY") PUBKEY_FILE .systemdPub).isSome

/-- The key of systemd that a plan takes, if it takes one. -/
def System.planKey (P : Platform) (y : System) : Option String :=
  if bootModeOf y.firmware = .uki ∧ y.signedAvailable P then y.systemdPubkey P else none

/-- Secure Boot is on, systemd's key is not usable, and the host has no public key: the
path on which the host's pair is made. -/
def System.lacksHostKey (P : Platform) (y : System) : Prop :=
  secureBootOf y.efivar = true ∧ y.planKey P = none ∧ y.file .signingPub = none

def System.MakesHostKey (P : Platform) (y : System) : Prop :=
  y.lacksHostKey P ∧ ∃ sk privPem pubPem, P.rsa.privatePem sk = .ok privPem ∧
    P.rsa.publicPem sk.pub = .ok pubPem

theorem eval_signedPolicyAvailable :
    eval (respond c) (signedPolicyAvailable P) m = (m.sys.signedAvailable P, m) := by
  rw [signedPolicyAvailable, eval_bind, discoverSignaturePath, eval_discover,
    System.signedAvailable]
  dsimp only
  cases m.sys.discover (P.env "LINHELLO_PCR_SIGNATURE") SIGNATURE_FILE .systemdSignatures with
  | none => rfl
  | some path =>
      simp only [Option.isSome_some, if_true, Bool.true_and]
      rw [eval_bind, discoverPubkeyPath, eval_discover]
      rfl

/-! ## Parts that write nothing -/

def Op.Silent (o : Op) : Prop := ∀ f, o.mayWrite f = false

theorem silent_of_quiet {p : Program tpm α} (hp : p.Only Op.Quiet) : p.Only Op.Silent :=
  hp.imp fun _ ho => ho.1

theorem exec_silent {F : Prop} {p : Program tpm α} {a : α} (hp : p.Only Op.Silent)
    (h : Exec (Step P F) p m a m') : m'.sys.file = m.sys.file :=
  funext fun f => exec_file (hp.imp fun _ ho => ho f) h

/-- Behind a part that writes nothing, it has failed or the files are still as they were. -/
theorem exec_past {F : Prop} {β : Type} {x : Fallible α} {f : α → Fallible β}
    {r : Except LinuxHelloError β} (hx : x.run.Only Op.Silent)
    (h : Exec (Step P F) (x >>= f).run m r m') :
    (∃ e, r = .error e) ∧ m'.sys.file = m.sys.file ∨
      ∃ a v, Exec (Step P F) x.run m (.ok a) v ∧ v.sys.file = m.sys.file ∧
        Exec (Step P F) (f a).run v r m' := by
  obtain ⟨a, v, hxa, hfa⟩ | ⟨e, hxe, hr⟩ := exec_exceptT_bind.1 h
  · exact .inr ⟨a, v, hxa, exec_silent hx hxa, hfa⟩
  · exact .inl ⟨⟨e, hr⟩, exec_silent hx hxe⟩

/-! ## Making the pair -/

theorem exec_ensureHostSigningKey {r : Except LinuxHelloError String}
    (h : Exec (Step P False) (ensureHostSigningKey P).run m r m') :
    m'.sys.file = m.sys.file ∨ m.sys.file .signingPub = none ∧
      ∃ sk privPem pubPem, P.rsa.privatePem sk = .ok privPem ∧
        P.rsa.publicPem sk.pub = .ok pubPem := by
  unfold ensureHostSigningKey at h
  obtain ⟨present, v, hexists, h₁⟩ | ⟨e, herror, -⟩ := exec_exceptT_bind.1 h
  · rw [exec_exceptT_lift_ok, exec_perform] at hexists
    obtain ⟨rfl, -⟩ := step_pathExists hexists
    have hpresent : present = (v.sys.file .signingPub).isSome := by
      obtain ⟨ch, hr⟩ | ⟨hfalse, -⟩ := hexists
      · exact (Prod.mk.inj hr).1
      · exact hfalse.elim
    cases hpub : v.sys.file .signingPub with
    | some pem =>
        rw [hpub] at hpresent
        subst hpresent
        refine .inl (exec_files ?_ h₁)
        exact only_exceptT_bind quiet_readText fun pem =>
          only_exceptT_bind quiet_hostPrivateKey fun _ => only_exceptT_pure
    | none =>
        rw [hpub] at hpresent
        subst hpresent
        rcases exec_past (only_attempt (only_perform fun _ => rfl)) h₁ with
          ⟨-, hsame⟩ | ⟨sk, u, -, hu, h₂⟩
        · exact .inl hsame
        rcases exec_past only_settle h₂ with ⟨-, hsame⟩ | ⟨privPem, t, ⟨hpriv, -⟩, ht, h₃⟩
        · exact .inl (hsame.trans hu)
        rcases exec_past only_settle h₃ with ⟨-, hsame⟩ | ⟨pubPem, s, ⟨hpub', -⟩, -, -⟩
        · exact .inl (hsame.trans (ht.trans hu))
        exact .inr ⟨rfl, sk, privPem, pubPem, mapError_eq_ok.1 hpriv.symm,
          mapError_eq_ok.1 hpub'.symm⟩
  · obtain ⟨_, -, hr⟩ := exec_exceptT_lift.1 herror
    cases hr

/-- What a plan is once the host's key has been asked for. -/
def hostPlan : Except LinuxHelloError String → PolicyPlan
  | .ok pubkeyPem => .authorized LINHELLO_SIGNED_PCRS pubkeyPem []
  | .error _ => .literal LITERAL_PCRS

/-- The parts of a plan in front of the host's key have one result and change nothing. -/
theorem exec_plan_front {p : PolicyPlan} (h : Exec (Step P False) (plan P) m p m') :
    (secureBootOf m.sys.efivar = false ∨ (m.sys.planKey P).isSome = true) ∧ m' = m ∨
      m.sys.planKey P = none ∧ secureBootOf m.sys.efivar = true ∧
        ∃ r, Exec (Step P False) (ensureHostSigningKey P).run m r m' ∧ p = hostPlan r := by
  have hone : ∀ {β : Type} {q : Program tpm β} {b : β} {v : Machine}, q.Only Op.Quiet →
      Exec (Step P False) q m b v → (b, v) = eval (respond (Choices.fixed P)) q m :=
    fun hq hexec => exec_eval _ (hq.imp fun _ ho => ho.2) hexec
  unfold plan at h
  obtain ⟨sb, v, hsb, h₁⟩ := exec_bind.1 h
  obtain ⟨rfl, rfl⟩ := exec_isSecureBootEnabled hsb
  obtain ⟨boot, u, hboot, h₂⟩ := exec_bind.1 h₁
  have hboot := hone quiet_detectBootMode hboot
  rw [eval_detectBootMode] at hboot
  obtain ⟨rfl, rfl⟩ := Prod.mk.inj hboot
  obtain ⟨available, t, havailable, h₃⟩ := exec_bind.1 h₂
  have havailable := hone quiet_signedPolicyAvailable havailable
  rw [eval_signedPolicyAvailable] at havailable
  obtain ⟨rfl, rfl⟩ := Prod.mk.inj havailable
  unfold decide at h₃
  cases hon : secureBootOf t.sys.efivar with
  | false =>
      rw [hon] at h₃
      exact .inl ⟨.inl rfl, h₃.2⟩
  | true =>
      rw [hon, Bool.not_true, if_neg Bool.false_ne_true] at h₃
      obtain ⟨systemd, w, hsystemd, h₄⟩ := exec_bind.1 h₃
      have hkey : systemd = t.sys.planKey P ∧ w = t := by
        unfold System.planKey
        split at hsystemd
        · rename_i huki
          have hload := hone (only_map quiet_loadPubkeyPem) hsystemd
          rw [eval_loadPubkeyPem] at hload
          rw [if_pos huki]
          exact Prod.mk.inj hload
        · rename_i huki
          rw [if_neg huki]
          exact hsystemd
      obtain ⟨rfl, rfl⟩ := hkey
      cases hkey : w.sys.planKey P with
      | some pem =>
          rw [hkey] at h₄
          exact .inl ⟨.inr rfl, h₄.2⟩
      | none =>
          rw [hkey] at h₄
          obtain ⟨host, z, hhost, h₅⟩ := exec_bind.1 h₄
          obtain ⟨r, hr, rfl⟩ := exec_map.1 hhost
          have hz : p = hostPlan r ∧ m' = z := by
            cases r with
            | ok pem => exact h₅
            | error e => exact h₅
          rw [hz.2]
          exact .inr ⟨rfl, rfl, r, hr, hz.1⟩

/-- Only where the pair can be made does a plan write anything. -/
theorem exec_plan {p : PolicyPlan} (h : Exec (Step P False) (plan P) m p m') :
    m'.sys.file = m.sys.file ∨ m.sys.MakesHostKey P := by
  rcases exec_plan_front h with ⟨-, rfl⟩ | ⟨hkey, hon, r, hmake, -⟩
  · exact .inl rfl
  · rcases exec_ensureHostSigningKey hmake with hsame | ⟨hpub, hpair⟩
    · exact .inl hsame
    · exact .inr ⟨⟨hon, hkey, hpub⟩, hpair⟩

/-- With Secure Boot on and no key of systemd, a plan goes the way of a host without one. -/
theorem plan_of_hostPath {F : Prop} {p : PolicyPlan} (hon : secureBootOf m.sys.efivar = true)
    (hkey : m.sys.planKey P = none) (h : Exec (Step P F) (decide true .grub false (pure none)
      (Except.toOption <$> (ensureHostSigningKey P).run)) m p m') :
    Exec (Step P F) (plan P) m p m' := by
  have hpart : ∀ {β : Type} {q : Program tpm β} {b : β},
      eval (respond (Choices.fixed P)) q m = (b, m) → Exec (Step P F) q m b m := by
    intro β q b heval
    have hexec := exec_of_respond (F := F) (Choices.fixed P) q m
    rw [heval] at hexec
    exact hexec
  refine exec_bind.2 ⟨_, m, hpart eval_isSecureBootEnabled, exec_bind.2 ⟨_, m,
    hpart eval_detectBootMode, exec_bind.2 ⟨_, m, hpart eval_signedPolicyAvailable, ?_⟩⟩⟩
  rw [hon]
  obtain ⟨systemd, v, hsystemd, hrest⟩ := exec_bind.1 h
  rw [if_neg (by decide)] at hsystemd
  obtain ⟨rfl, rfl⟩ := hsystemd
  refine exec_bind.2 ⟨none, v, ?_, hrest⟩
  rw [System.planKey] at hkey
  split
  · rename_i huki
    rw [if_pos huki] at hkey
    exact hpart (hkey ▸ eval_loadPubkeyPem)
  · exact ⟨rfl, rfl⟩

theorem plan_of_ensureHostSigningKey {F : Prop} {r : Except LinuxHelloError String}
    (hlacks : m.sys.lacksHostKey P) (h : Exec (Step P F) (ensureHostSigningKey P).run m r m') :
    ∃ p, Exec (Step P F) (plan P) m p m' := by
  have hhost : ∀ {p : PolicyPlan}, _ → Exec (Step P F) (plan P) m p m' :=
    fun hrest => plan_of_hostPath hlacks.1 hlacks.2.1 (exec_bind.2 ⟨none, m, ⟨rfl, rfl⟩, hrest⟩)
  cases r with
  | ok pem => exact ⟨_, hhost (exec_bind.2 ⟨some pem, m', exec_map.2 ⟨_, h, rfl⟩, rfl, rfl⟩)⟩
  | error e => exact ⟨_, hhost (exec_bind.2 ⟨none, m', exec_map.2 ⟨_, h, rfl⟩, rfl, rfl⟩)⟩

/-- The choices of a generator that makes this key. -/
def Choices.making (P : Platform) (sk : PrivateKey) : Choices P :=
  { Choices.fixed P with key := .ok sk }

private theorem eval_ensureHostSigningKey {sk : PrivateKey} {privPem pubPem : String}
    (hpub : m.sys.file .signingPub = none) (hpriv : P.rsa.privatePem sk = .ok privPem)
    (hpem : P.rsa.publicPem sk.pub = .ok pubPem) :
    eval (respond (Choices.making P sk)) (ensureHostSigningKey P).run m =
      (.ok pubPem, (m.setFile .signingKey (some (some privPem))).setFile .signingPub
        (some (some pubPem))) := by
  have hexists : eval (respond (Choices.making P sk))
      (liftM (perform (.pathExists .signingPub)) : Fallible Bool).run m = (.ok false, m) := by
    rw [eval_exceptT_lift, eval_perform, respond, hpub]
    rfl
  have hsettle : ∀ {x : Except LinuxHelloError String} {s : String}, x = .ok s →
      eval (respond (Choices.making P sk)) (settle x : Fallible String).run m = (.ok s, m) := by
    rintro x s rfl
    rfl
  have hgenerate : eval (respond (Choices.making P sk)) (attempt (fun e =>
      LinuxHelloError.policy ("generate host signing key: " ++ e)) (perform .generateKey)).run m =
      (.ok sk, m) := rfl
  rw [ensureHostSigningKey, eval_exceptT_bind_ok hexists, if_neg Bool.false_ne_true,
    eval_exceptT_bind_ok hgenerate, eval_exceptT_bind_ok (hsettle (by rw [hpriv]; rfl)),
    eval_exceptT_bind_ok (hsettle (by rw [hpem]; rfl))]
  rfl

theorem exists_plan_makes {F : Prop} (h : m.sys.MakesHostKey P) : ∃ p m',
    Exec (Step P F) (plan P) m p m' ∧ m'.sys.file .signingPub ≠ m.sys.file .signingPub := by
  obtain ⟨hlacks, sk, privPem, pubPem, hpriv, hpem⟩ := h
  have hexec := exec_of_respond (F := F) (Choices.making P sk) (ensureHostSigningKey P).run m
  rw [eval_ensureHostSigningKey hlacks.2.2 hpriv hpem] at hexec
  dsimp only at hexec
  obtain ⟨p, hplan⟩ := plan_of_ensureHostSigningKey hlacks hexec
  refine ⟨p, _, hplan, ?_⟩
  have hmade : ((m.setFile .signingKey (some (some privPem))).setFile .signingPub
      (some (some pubPem))).sys.file .signingPub = some (some pubPem) := setFile_file_self
  rw [hlacks.2.2, hmade]
  exact Option.some_ne_none _

/-! ## Signing -/

/-- One entry came into the signature file, by way of the staging file. -/
structure System.Mended (y y' : System) : Prop where
  entry : ∃ banks entry, (y.file .signatures = none ∧ banks = ∅ ∨
    y.file .signatures = some (.value banks)) ∧
      y'.file .signatures = some (.value (addEntry banks DEFAULT_BANK entry))
  staging : y'.file .signaturesTmp = none
  rest : ∀ f, f ≠ .signatures → f ≠ .signaturesTmp → y'.file f = y.file f

theorem mended_congr {y z y' z' : System} (h : y.Mended y') (hz : z.file = y.file)
    (hz' : z'.file = y'.file) : z.Mended z' := by
  obtain ⟨hentry, hstaging, hrest⟩ := h
  rw [← hz, ← hz'] at hentry
  exact ⟨hentry, hz' ▸ hstaging, fun f h₁ h₂ => by rw [hz, hz', hrest f h₁ h₂]⟩

theorem mended_replaceSignatures {y : System} {sigs : List PcrSignature} {entry : RawEntry}
    (h : y.hostSignatures P DEFAULT_BANK = .ok sigs) :
    y.Mended (y.replaceSignatures (addEntry y.existingBanks DEFAULT_BANK entry)) := by
  constructor
  · refine ⟨y.existingBanks, entry, ?_, ?_⟩
    · unfold System.hostSignatures at h
      unfold System.existingBanks
      cases hfile : y.file .signatures with
      | none => exact .inl ⟨rfl, rfl⟩
      | some json =>
          rw [hfile] at h
          obtain ⟨banks, hbanks, -⟩ := bind_eq_ok.1 h
          rw [parse_eq_ok.1 hbanks]
          exact .inr rfl
    · rw [System.replaceSignatures, setFile_file_of_ne (by decide), setFile_file_self]
  · exact setFile_file_self
  · intro f h₁ h₂
    rw [System.replaceSignatures, setFile_file_of_ne h₂, setFile_file_of_ne h₁,
      setFile_file_of_ne h₂]

/-- What the private half on disk signs for a digest. -/
def System.Signs (P : Platform) (y : System) (digest policyRef sig : Bytes) : Prop :=
  ∃ pem sk, y.file .signingKey = some (some pem) ∧ P.rsa.parsePrivate pem = .ok sk ∧
    P.rsa.sign sk (authorizationHash P.H digest policyRef) = .ok sig

/-- The host's key has signed for the registers, which its list had nothing for. -/
structure System.Extends (P : Platform) (y y' : System) (pcrs : List Nat) (policyRef : Bytes) :
    Prop where
  list : ∃ sigs s, y.hostSignatures P DEFAULT_BANK = .ok sigs ∧
    findForPolicy sigs pcrs (pcrPolicy P.H y.pcr pcrs) = none ∧
    y'.hostSignatures P DEFAULT_BANK = .ok (sigs ++ [s]) ∧ s.pcrs = pcrs ∧
    s.pol = pcrPolicy P.H y.pcr pcrs ∧ y.Signs P (pcrPolicy P.H y.pcr pcrs) policyRef s.sig
  rest : ∀ f, f ≠ .signatures → f ≠ .signaturesTmp → y'.file f = y.file f

theorem System.Signs.congr {y y' : System} {digest policyRef sig : Bytes}
    (h : y.Signs P digest policyRef sig) (hfile : y'.file .signingKey = y.file .signingKey) :
    y'.Signs P digest policyRef sig := by
  obtain ⟨pem, sk, hkey, hrest⟩ := h
  exact ⟨pem, sk, hfile.trans hkey, hrest⟩

theorem System.Extends.congr {y z y' z' : System} {pcrs : List Nat} {policyRef : Bytes}
    (h : y.Extends P y' pcrs policyRef) (hpcr : z.pcr = y.pcr) (hz : z.file = y.file)
    (hz' : z'.file = y'.file) : z.Extends P z' pcrs policyRef := by
  obtain ⟨⟨sigs, s, hsigs, hnone, hlist, hpcrs, hpol, hsigned⟩, hrest⟩ := h
  refine ⟨⟨sigs, s, ?_, hpcr ▸ hnone, ?_, hpcrs, hpcr ▸ hpol, ?_⟩, fun f h₁ h₂ => ?_⟩
  · exact (signaturesFor_congr hz .linhelloHost).trans hsigs
  · exact (signaturesFor_congr hz' .linhelloHost).trans hlist
  · rw [hpcr]
    exact hsigned.congr (congrFun hz _)
  · rw [hz, hz', hrest f h₁ h₂]

theorem persisted {bank : String} {pcrs : List Nat} {polDigest sig : Bytes}
    {r : Except LinuxHelloError Unit}
    (h : Exec (Step P False) (persistHostSignature P bank pcrs polDigest sig).run m r m') :
    m'.sys.file = m.sys.file ∨ r = .ok () ∧
      ∃ pkfp, m'.sys = m.sys.replaceSignatures (addEntry m.sys.existingBanks bank
        { pcrs := pcrs, pkfp := pkfp, pol := hexLower polDigest, sig := P.encode sig }) := by
  have hall := h
  unfold persistHostSignature at h
  rcases exec_past (only_exceptT_lift (only_perform fun _ => rfl)) h with
    ⟨-, hsame⟩ | ⟨read, v, hread, hv, h₁⟩
  · exact .inl hsame
  rcases exec_past (silent_of_quiet quiet_readText) h₁ with ⟨-, hsame⟩ | ⟨pem, u, hpem, hu, h₂⟩
  · exact .inl (hsame.trans hv)
  rcases exec_past only_settle h₂ with ⟨-, hsame⟩ | ⟨pkfp, t, ⟨hfp, -⟩, -, -⟩
  · exact .inl (hsame.trans (hu.trans hv))
  -- from here on nothing fails
  have hpub : m.sys.file .signingPub = some (some pem) := by
    have hfile := (exec_readText_ok hpem).1
    rwa [hv, Option.map_id_fun, id] at hfile
  obtain ⟨w, heval, hw⟩ := eval_persistHostSignature (c := Choices.fixed P) bank pcrs polDigest sig
    hpub hfp.symm
  have hone := exec_eval (Choices.fixed P) calm_persistHostSignature hall
  rw [heval] at hone
  obtain ⟨rfl, rfl⟩ := Prod.mk.inj hone
  exact .inr ⟨rfl, _, hw⟩

/-- Looking for the host's signature changes nothing, or makes it and succeeds. -/
theorem exec_ensureHostSignature {pcrs : List Nat} {policyRef : Bytes}
    {r : Except LinuxHelloError Bytes}
    (h : Exec (Step P False) (ensureHostSignature P pcrs policyRef).run m r m') :
    m'.sys.file = m.sys.file ∨ (∃ digest, r = .ok digest) ∧ m.sys.Mended m'.sys ∧
      m.sys.Extends P m'.sys pcrs policyRef := by
  unfold ensureHostSignature at h
  rcases exec_past (silent_of_quiet quiet_openContext) h with ⟨-, hsame⟩ | ⟨_, v₁, hopen, hv₁, h₁⟩
  · exact .inl hsame
  obtain rfl := exec_openContext_ok hopen
  rcases exec_past only_settle h₁ with ⟨-, hsame⟩ | ⟨sel, v₂, ⟨hsel, rfl⟩, hv₂, h₂⟩
  · exact .inl hsame
  obtain rfl := pcrSelection_ok hsel.symm
  rcases exec_past (silent_of_quiet quiet_computePolicyDigest) h₂ with
    ⟨-, hsame⟩ | ⟨approved, v₃, hcompute, hv₃, h₃⟩
  · exact .inl hsame
  obtain ⟨happroved, hsys₃, -⟩ := exec_computePolicyDigest_ok hcompute
  rcases exec_past (silent_of_quiet (@quiet_signaturesFor P .linhelloHost)) h₃ with
    ⟨-, hsame⟩ | ⟨existing, v₄, hexisting, hv₄, h₄⟩
  · exact .inl (hsame.trans hv₃)
  obtain ⟨hsigs, rfl⟩ := exec_hostSignatures.1 hexisting
  split at h₄
  · exact .inl ((congrArg (fun m : Machine => m.sys.file) h₄.2).trans hv₃)
  next hmissing =>
    rcases exec_past (silent_of_quiet quiet_signAhash)
      h₄ with ⟨-, hsame⟩ | ⟨sig, v₅, hsign, hv₅, h₅⟩
    · exact .inl (hsame.trans hv₃)
    obtain ⟨keyPem, sk, hkeyFile, hsk, hsig, rfl⟩ := exec_signAhash_ok hsign
    obtain ⟨_, v₆, hpersist, hr, rfl⟩ | ⟨e, herror, -⟩ := exec_exceptT_bind.1 h₅
    · rcases persisted hpersist with hsame | ⟨-, pkfp, hw⟩
      · exact .inl (hsame.trans hv₃)
      · have hnone : findForPolicy existing sel approved = none :=
          Option.not_isSome_iff_eq_none.1 hmissing
        have hdigest : approved = pcrPolicy P.H v₅.sys.pcr sel := by rw [happroved, hsys₃]; rfl
        rw [hdigest] at hnone hsig hw
        refine .inr ⟨⟨_, hr⟩, ?_, ?_⟩
        · exact mended_congr (mended_replaceSignatures hsigs.symm) hv₃.symm
            (congrArg System.file hw)
        · have hextends : v₅.sys.Extends P m'.sys sel policyRef := by
            refine ⟨⟨existing,
              { pcrs := sel, pkfp := pkfp, pol := pcrPolicy P.H v₅.sys.pcr sel, sig := sig },
              hsigs.symm, hnone, ?_, rfl, rfl, keyPem, sk, hkeyFile, hsk, hsig⟩, ?_⟩
            · rw [hw, hostSignatures_replaceSignatures]
              exact parseSignatures_addEntry (parseSignatures_existing hsigs.symm) hnone
            · intro f h₁ h₂
              rw [hw, System.replaceSignatures, setFile_file_of_ne h₂, setFile_file_of_ne h₁,
                setFile_file_of_ne h₂]
          exact hextends.congr (by rw [hsys₃]) hv₃.symm rfl
    · rcases persisted herror with hsame | ⟨hok, -⟩
      · exact .inl (hsame.trans hv₃)
      · cases hok

theorem exec_selfHeal {signer : SignerKind} {pcrs : List Nat} {policyRef : Bytes}
    {r : Except LinuxHelloError Unit}
    (h : Exec (Step P False) (selfHeal P signer pcrs policyRef).run m r m') :
    m'.sys.file = m.sys.file ∨ signer = .linhelloHost ∧ secureBootOf m.sys.efivar = true ∧
      m.sys.Mended m'.sys ∧ m.sys.Extends P m'.sys pcrs policyRef := by
  unfold selfHeal at h
  split at h
  next hsigner =>
    rcases exec_past (only_exceptT_lift (quiet_isSecureBootEnabled.imp fun _ ho => ho.1)) h with
      ⟨-, hsame⟩ | ⟨on, v, hon, hv, h₁⟩
    · exact .inl hsame
    · obtain ⟨rfl, rfl⟩ := exec_isSecureBootEnabled (exec_exceptT_lift_ok.1 hon)
      split at h₁
      next hboot =>
        have hensure :
            ∃ a, Exec (Step P False) (ensureHostSignature P pcrs policyRef).run v a m' := by
          obtain ⟨a, u, hcaught, -, rfl⟩ | ⟨e, herror, -⟩ := exec_exceptT_bind.1 h₁
          · obtain ⟨a, hensure, -⟩ := exec_caught.1 hcaught
            exact ⟨a, hensure⟩
          · obtain ⟨a, hensure, -⟩ := exec_caught.1 herror
            exact ⟨a, hensure⟩
        obtain ⟨a, hensure⟩ := hensure
        rcases exec_ensureHostSignature hensure with hsame | ⟨-, hmended, hextends⟩
        · exact .inl hsame
        · exact .inr ⟨hsigner, hboot, hmended, hextends⟩
      · exact .inl (congrArg (fun m : Machine => m.sys.file) h₁.2)
  · exact .inl (congrArg (fun m : Machine => m.sys.file) h.2)

theorem exec_unseal {env : SealedEnvelope} {r : Except LinuxHelloError Bytes}
    (h : Exec (Step P False) («unseal» P env).run m r m') :
    m'.sys.file = m.sys.file ∨ m.sys.Mended m'.sys := by
  unfold «unseal» at h
  split at h
  · exact .inl (exec_files quiet_unsealLiteral h)
  · rename_i pubkeyPem policyRef hpolicy
    rcases exec_past (silent_of_quiet quiet_classifySigner)
      h with ⟨-, hsame⟩ | ⟨signer, v, -, hv, h₁⟩
    · exact .inl hsame
    · split at h₁
      · exact .inl ((congrArg (fun m : Machine => m.sys.file) h₁.2).trans hv)
      · have hheal : ∃ r u, Exec (Step P False) (selfHeal P signer env.pcrs policyRef).run v r u ∧
            m'.sys.file = u.sys.file := by
          obtain ⟨_, u, hheal, h₂⟩ | ⟨e, herror, -⟩ := exec_exceptT_bind.1 h₁
          · have hrest :=
              exec_files (only_exceptT_bind quiet_openContext fun _ => quiet_unsealSigned) h₂
            exact ⟨_, u, hheal, hrest⟩
          · exact ⟨_, m', herror, rfl⟩
        obtain ⟨_, u, hheal, hu⟩ := hheal
        rcases exec_selfHeal hheal with hsame | ⟨-, -, hmended, -⟩
        · exact .inl (hu.trans (hsame.trans hv))
        · exact .inr (mended_congr hmended hv.symm hu)

/-! ## Sealing -/

theorem silent_sealLiteral {secret : Bytes} {pcrs : List Nat} :
    (sealLiteral P secret pcrs).run.Only Op.Silent := by
  have hQ : ∀ o : Op, o.Quiet → o.Silent := fun _ ho => ho.1
  refine only_exceptT_bind (quiet_openContext.imp hQ) fun _ => ?_
  refine only_exceptT_bind (quiet_readPcrValues.imp hQ) fun values => ?_
  refine only_withSrk hQ fun srk => ?_
  refine only_exceptT_bind only_settle fun selection => ?_
  refine only_exceptT_bind (quiet_computePolicyDigest.imp hQ) fun digest => ?_
  refine only_exceptT_bind only_settle fun sensitive => ?_
  exact only_exceptT_bind (only_attempt (only_perform fun _ => rfl)) fun _ => only_exceptT_pure

/-- A seal changes no file but the signature file, and not even that if it fails. -/
theorem exec_sealWithPlan {secret : Bytes} {p : PolicyPlan}
    {r : Except LinuxHelloError SealedEnvelope}
    (h : Exec (Step P False) (sealWithPlan P secret p).run m r m') :
    m'.sys.file = m.sys.file ∨ (∃ env, r = .ok env) ∧ m.sys.Mended m'.sys := by
  have hQ : ∀ o : Op, o.Quiet → o.Silent := fun _ ho => ho.1
  cases p with
  | none => exact .inl (exec_silent silent_sealLiteral h)
  | literal pcrs => exact .inl (exec_silent silent_sealLiteral h)
  | authorized pcrs pubkeyPem policyRef =>
      simp only [sealWithPlan] at h
      unfold sealAuthorized at h
      rcases exec_past (silent_of_quiet quiet_classifySigner) h with
        ⟨-, hsame⟩ | ⟨signer, v₁, -, hv₁, h₁⟩
      · exact .inl hsame
      rcases exec_past (silent_of_quiet quiet_openContext) h₁ with ⟨-, hsame⟩ | ⟨_, v₂, -, hv₂, h₂⟩
      · exact .inl (hsame.trans hv₁)
      rcases exec_past (silent_of_quiet quiet_readPcrValues) h₂ with
        ⟨-, hsame⟩ | ⟨values, v₃, -, hv₃, h₃⟩
      · exact .inl (hsame.trans (hv₂.trans hv₁))
      have hname : (withHandle (loadExternalPubkey P pubkeyPem) fun kh =>
          tpmErr (perform (.trGetName kh))).run.Only Op.Silent :=
        only_withHandle (fun o ho _ => hQ o ho) (silent_of_quiet quiet_loadExternalPubkey) fun kh =>
          only_attempt (only_perform fun _ => rfl)
      rcases exec_past hname h₃ with ⟨-, hsame⟩ | ⟨keyName, v₄, -, hv₄, h₄⟩
      · exact .inl (hsame.trans (hv₃.trans (hv₂.trans hv₁)))
      have hfiles₄ := hv₄.trans (hv₃.trans (hv₂.trans hv₁))
      rcases exec_past (only_withSrk hQ fun srk => only_exceptT_bind only_settle fun sensitive =>
          only_exceptT_bind (only_attempt (only_perform fun _ => rfl)) fun _ =>
            only_exceptT_pure) h₄ with
        ⟨-, hsame⟩ | ⟨env, v₅, -, hv₅, h₅⟩
      · exact .inl (hsame.trans hfiles₄)
      have hfiles₅ := hv₅.trans hfiles₄
      split at h₅
      · obtain ⟨_, v₆, hensure, hr, rfl⟩ | ⟨e, herror, hr⟩ := exec_exceptT_bind.1 h₅
        · rcases exec_ensureHostSignature hensure with hsame | ⟨-, hmended, -⟩
          · exact .inl (hsame.trans hfiles₅)
          · exact .inr ⟨⟨env, hr⟩, mended_congr hmended hfiles₅.symm rfl⟩
        · rcases exec_ensureHostSignature herror with hsame | ⟨⟨digest, hok⟩, -⟩
          · exact .inl (hsame.trans hfiles₅)
          · cases hok
      · exact .inl ((congrArg (fun m : Machine => m.sys.file) h₅.2).trans hfiles₅)

/-- A seal that fails leaves the files, or makes the host's pair on the way. -/
theorem exec_sealSecret_error {secret : Bytes} {e : LinuxHelloError}
    (h : Exec (Step P False) (sealSecret P secret).run m (.error e) m') :
    m'.sys.file = m.sys.file ∨ m.sys.MakesHostKey P := by
  unfold sealSecret at h
  obtain ⟨p, v, hplan, h₁⟩ | ⟨e', herror, -⟩ := exec_exceptT_bind.1 h
  · rcases exec_plan (exec_exceptT_lift_ok.1 hplan) with hv | hmakes
    · rcases exec_sealWithPlan h₁ with hsame | ⟨⟨env, hok⟩, -⟩
      · exact .inl (hsame.trans hv)
      · cases hok
    · exact .inr hmakes
  · obtain ⟨_, -, hr⟩ := exec_exceptT_lift.1 herror
    cases hr

/-- Where the pair can be made, a seal may make it, however the seal ends. -/
theorem exists_seal_makes (secret : Bytes) (h : m.sys.MakesHostKey P) : ∃ r m',
    Exec (Step P False) (sealSecret P secret).run m r m' ∧
      m'.sys.file .signingPub ≠ m.sys.file .signingPub := by
  obtain ⟨p, v, hplan, hmade⟩ := exists_plan_makes (F := False) h
  have hrest := exec_of_respond (F := False) (Choices.fixed P) (sealWithPlan P secret p).run v
  refine ⟨_, _, exec_exceptT_bind.2 (.inl ⟨p, v, exec_exceptT_lift_ok.2 hplan, hrest⟩), ?_⟩
  have hkept :
      (eval (respond (Choices.fixed P)) (sealWithPlan P secret p).run v).2.sys.file .signingPub =
      v.sys.file .signingPub := by
    rcases exec_sealWithPlan hrest with hsame | ⟨-, hmended⟩
    · rw [hsame]
    · exact hmended.rest .signingPub (by decide) (by decide)
  rw [hkept]
  exact hmade

end Linhello.Tpm
