import Linhello.Core.Outcomes
/-!
# The recovery envelope

What a recovery envelope binds. A `Wrapping` is one successful call of `wrap`. With
an injective key derivation and a blob nobody forged, a passphrase opens an
envelope only if it is, up to its version, one that was made with it
(`wrapping_of_unwrap`).
-/

namespace Linhello.Core

open Common Effect Host Host.World

variable {sealed : SealedEnvelope → Option Bytes} {flt : Faults} {w w' : World} {cl : CryptoLib}
  {passphrase templateKey : Bytes} {env : RecoveryEnvelope}

/-- What a successful call of `wrap` drew and computed. -/
structure Wrapping (cl : CryptoLib) where
  passphrase : Bytes
  templateKey : Bytes
  salt : Bytes
  nonce : Bytes
  derived : Bytes
  ciphertext : Bytes
  length_salt : salt.length = SALT_LEN
  length_nonce : nonce.length = NONCE_LEN
  length_derived : derived.length = KEY_LEN
  derives : cl.argon2 passphrase salt M_COST T_COST P_COST = .ok derived
  seals : cl.aeadSeal derived nonce templateKey = some ciphertext

namespace Wrapping

def blob (x : Wrapping cl) : Bytes := x.nonce ++ x.ciphertext

def envelope (x : Wrapping cl) : RecoveryEnvelope where
  version := 1
  kdf := "argon2id"
  salt := cl.encode x.salt
  mCost := M_COST
  tCost := T_COST
  pCost := P_COST
  wrapped := cl.encode x.blob

theorem encryptWith_eq (x : Wrapping cl) :
    encryptWith cl x.derived x.nonce x.templateKey = .ok x.blob := by
  rw [encryptWith, x.seals]
  rfl

theorem decrypt_blob (x : Wrapping cl) : decrypt cl x.derived x.blob = .ok x.templateKey :=
  decrypt_encryptWith x.length_derived x.length_nonce x.encryptWith_eq

end Wrapping

/-! ## Wrapping and unwrapping -/

/-- What `unwrap` found on its way to a key. -/
theorem unwrap_eq_ok {key : Bytes} :
    unwrap cl passphrase env = .ok key ↔
      env.kdf = "argon2id" ∧ ∃ salt blob dk, cl.decode env.salt = .ok salt ∧
        cl.decode env.wrapped = .ok blob ∧
        cl.argon2 passphrase salt env.mCost env.tCost env.pCost = .ok dk ∧
        decrypt cl dk blob = .ok key := by
  unfold unwrap
  by_cases hkdf : env.kdf = "argon2id"
  · simp only [hkdf, ne_eq, not_true_eq_false, if_false, bind_eq_ok, mapError_eq_ok,
      true_and]
    constructor
    · rintro ⟨salt, hsalt, blob, hblob, dk, hdk, hkey⟩
      exact ⟨salt, blob, dk, hsalt, hblob, hdk, hkey⟩
    · rintro ⟨salt, blob, dk, hsalt, hblob, hdk, hkey⟩
      exact ⟨salt, hsalt, blob, hblob, dk, hdk, hkey⟩
  · simp only [ne_eq, hkdf, not_false_eq_true, if_true, false_and, iff_false]
    intro h
    cases h

/-- The passphrase a key was wrapped with gives the key back. -/
theorem Wrapping.unwrap_envelope (x : Wrapping cl) :
    unwrap cl x.passphrase x.envelope = .ok x.templateKey :=
  unwrap_eq_ok.2 ⟨rfl, x.salt, x.blob, x.derived, cl.decode_encode _, cl.decode_encode _,
    x.derives, x.decrypt_blob⟩

/-- Argon2id accepts the passphrase, and AES-GCM the key, for whatever salt and
nonce are drawn. -/
structure Wrappable (cl : CryptoLib) (passphrase templateKey : Bytes) : Prop where
  derives : ∀ salt, salt.length = SALT_LEN →
    ∃ dk, cl.argon2 passphrase salt M_COST T_COST P_COST = .ok dk ∧ dk.length = KEY_LEN
  seals : ∀ dk nonce, dk.length = KEY_LEN → nonce.length = NONCE_LEN →
    ∃ ct, cl.aeadSeal dk nonce templateKey = some ct

theorem exec_wrap (hwrap : Wrappable cl passphrase templateKey) (hp : passphrase ≠ [])
    {r : Except LinuxHelloError RecoveryEnvelope}
    (h : Exec (Step sealed flt) (wrap cl passphrase templateKey).run w r w') :
    w' = w ∧ ∃ x : Wrapping cl, x.passphrase = passphrase ∧ x.templateKey = templateKey ∧
      r = .ok x.envelope := by
  have hrandom : ∀ {n : Nat} {b : Bytes} {v v' : World},
      Step sealed flt v (.randomBytes n) b v' → b.length = n ∧ v' = v := by
    intro n b v v' hstep
    obtain ⟨hallows, rfl⟩ := hstep
    exact ⟨of_decide_eq_true hallows, rfl⟩
  unfold wrap at h
  rw [if_neg hp] at h
  obtain ⟨salt, w₁, hsalt, h₁⟩ := h
  obtain ⟨hlen, rfl⟩ := hrandom hsalt
  obtain ⟨dk, hdk, hdklen⟩ := hwrap.derives salt hlen
  rcases exec_exceptT_bind.1 h₁ with ⟨dk', w₂, hderive, h₂⟩ | ⟨e, hderive, -⟩
  · obtain ⟨hdk', rfl⟩ := exec_orFail.1 hderive
    obtain rfl : dk' = dk := Except.ok.inj (hdk'.trans hdk)
    have hencrypt : ∀ {r v}, Exec (Step sealed flt) (encrypt cl dk' templateKey).run w₂ r v →
        v = w₂ ∧ ∃ nonce ct, nonce.length = NONCE_LEN ∧
          cl.aeadSeal dk' nonce templateKey = some ct ∧ r = .ok (nonce ++ ct) := by
      intro r v hr
      unfold encrypt at hr
      rw [if_neg (not_not.2 hdklen)] at hr
      obtain ⟨nonce, u, hnonce, hret⟩ := hr
      obtain ⟨hnlen, rfl⟩ := hrandom hnonce
      obtain ⟨ct, hct⟩ := hwrap.seals dk' nonce hdklen hnlen
      obtain ⟨rfl, rfl⟩ := hret
      refine ⟨rfl, nonce, ct, hnlen, hct, ?_⟩
      rw [encryptWith, hct]
    rcases exec_exceptT_bind.1 h₂ with ⟨blob, w₃, hblob, h₃⟩ | ⟨e, hblob, -⟩
    · obtain ⟨rfl, nonce, ct, hnlen, hct, heq⟩ := hencrypt hblob
      obtain rfl := Except.ok.inj heq
      obtain ⟨rfl, rfl⟩ := h₃
      exact ⟨rfl, ⟨passphrase, templateKey, salt, nonce, dk', ct, hlen, hnlen, hdklen, hdk, hct⟩,
        rfl, rfl, rfl⟩
    · obtain ⟨-, _, _, -, -, heq⟩ := hencrypt hblob
      cases heq
  · have hfailed := (exec_orFail.1 hderive).1
    rw [hdk] at hfailed
    cases hfailed

/-! ## Ideal primitives -/

/-- Argon2id as an ideal function: one derived key has one input. -/
def InjectiveKdf (cl : CryptoLib) : Prop :=
  ∀ {p salt : Bytes} {m t c : Nat} {p' salt' : Bytes} {m' t' c' : Nat} {dk : Bytes},
    cl.argon2 p salt m t c = .ok dk → cl.argon2 p' salt' m' t' c' = .ok dk →
      p = p' ∧ salt = salt' ∧ m = m' ∧ t = t' ∧ c = c'

/-- Only the canonical spelling of a byte string decodes to it, as with padding
required and trailing bits refused. -/
def CanonicalEncoding (cl : CryptoLib) : Prop := ∀ s b, cl.decode s = .ok b → cl.encode b = s

/-- AES-GCM as an ideal cipher on one blob: a derived key opens it only if a
wrapping among `made` sealed it under that key. -/
def Unforged (cl : CryptoLib) (made : Set (Wrapping cl)) (blob : Bytes) : Prop :=
  ∀ {p salt : Bytes} {m t c : Nat} {dk key : Bytes}, cl.argon2 p salt m t c = .ok dk →
    decrypt cl dk blob = .ok key → ∃ x ∈ made, x.derived = dk ∧ x.blob = blob

/-- The envelope is one of a wrapping with this passphrase, whatever its version. -/
def WrappedWith (made : Set (Wrapping cl)) (passphrase : Bytes) (env : RecoveryEnvelope)
    (key : Bytes) : Prop :=
  ∃ x ∈ made, x.passphrase = passphrase ∧ x.templateKey = key ∧
    { x.envelope with version := env.version } = env

/-- A passphrase opens only what was wrapped with it, and to the wrapped key. -/
theorem wrapping_of_unwrap {made : Set (Wrapping cl)} (hkdf : InjectiveKdf cl)
    (hcanonical : CanonicalEncoding cl)
    (hunforged : ∀ blob, cl.decode env.wrapped = .ok blob → Unforged cl made blob) {key : Bytes}
    (h : unwrap cl passphrase env = .ok key) : WrappedWith made passphrase env key := by
  obtain ⟨hname, salt, blob, dk, hsalt, hblob, hdk, hkey⟩ := unwrap_eq_ok.1 h
  obtain ⟨x, hx, hderived, hxblob⟩ := hunforged blob hblob hdk hkey
  have hxdk := x.derives
  rw [hderived] at hxdk
  obtain ⟨hp, hs, hm, ht, hc⟩ := hkdf hxdk hdk
  have hxkey : x.templateKey = key := by
    have hopen := x.decrypt_blob
    rw [hderived, hxblob, hkey] at hopen
    exact (Except.ok.inj hopen).symm
  refine ⟨x, hx, hp, hxkey, ?_⟩
  have hsaltText : cl.encode x.salt = env.salt := by rw [hs, hcanonical _ _ hsalt]
  have hblobText : cl.encode x.blob = env.wrapped := by rw [hxblob, hcanonical _ _ hblob]
  simp only [Wrapping.envelope, hsaltText, hblobText, hm, ht, hc, ← hname]

/-! ## Restoring -/

/-- The key the recovery file gives for a passphrase. -/
def recoveredKey (cl : CryptoLib) (user : String) (passphrase : Bytes) (w : World) : Option Bytes :=
  match w.file (.user user .recoveryEnvelope) with
  | some (.value env) => (unwrap cl passphrase env).toOption
  | _ => none

end Linhello.Core
