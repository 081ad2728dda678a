import Linhello.Common.Hex
import Linhello.Tpm.PolicyDigest
/-!
# Keys, objects and the libraries around the TPM

Public areas and key pairs as `tpm.rs` and `pcrsig.rs` see them. RSA, PEM, DER and
Base64 come from third-party crates, marshalling and sealed objects from the TPM
and its library: a `Platform` stands for all of them, with what the sources rely on.
-/

namespace Linhello.Tpm

open Common

/-! ## Public areas -/

/-- `TPMA_OBJECT`. -/
structure ObjectAttributes where
  fixedTpm : Bool := false
  stClear : Bool := false
  fixedParent : Bool := false
  sensitiveDataOrigin : Bool := false
  userWithAuth : Bool := false
  adminWithPolicy : Bool := false
  noDa : Bool := false
  encryptedDuplication : Bool := false
  restricted : Bool := false
  decrypt : Bool := false
  signEncrypt : Bool := false
  deriving DecidableEq, Repr

inductive HashingAlgorithm
  | sha1
  | sha256
  | sha384
  | sha512
  deriving DecidableEq, Repr

inductive SymmetricDefinition
  | null
  | aes128Cfb
  | other (name : String)
  deriving DecidableEq, Repr

/-- The parameters of an RSA area; its scheme is null in every template used. -/
structure RsaParameters where
  symmetric : SymmetricDefinition
  nullScheme : Bool
  keyBits : Nat
  exponent : Nat
  deriving DecidableEq, Repr

inductive Public
  | rsa (attributes : ObjectAttributes) (nameHash : HashingAlgorithm) (authPolicy : Bytes)
      (parameters : RsaParameters) (unique : Bytes)
  | keyedHash (attributes : ObjectAttributes) (nameHash : HashingAlgorithm) (authPolicy : Bytes)
      (unique : Bytes)
  /-- An area of another kind, such as an ECC key. -/
  | other (area : Bytes)
  deriving DecidableEq, Repr

def Public.authPolicy : Public → Bytes
  | .rsa _ _ policy _ _ | .keyedHash _ _ policy _ => policy
  | .other _ => []

def srkTemplate : Public :=
  .rsa
    { fixedTpm := true, fixedParent := true, sensitiveDataOrigin := true, userWithAuth := true,
      restricted := true, decrypt := true }
    .sha256 [] { symmetric := .aes128Cfb, nullScheme := true, keyBits := 2048, exponent := 0 } []

def sealedTemplate (policyDigest : Bytes) : Public :=
  .keyedHash { fixedTpm := true, fixedParent := true, noDa := true } .sha256 policyDigest []

/-- The key size is compared, not all of the parameters: a TPM reports the exponent
0 of the template as 65537. -/
def isLinhelloSrk : Public → Bool
  | .rsa attributes nameHash authPolicy parameters _ =>
      match srkTemplate with
      | .rsa wantAttributes wantHash wantPolicy wantParameters _ =>
          attributes = wantAttributes ∧ nameHash = wantHash ∧ authPolicy = wantPolicy ∧
            parameters.keyBits = wantParameters.keyBits
      | _ => false
  | _ => false

/-! ## Keys -/

/-- An RSA public key: the big-endian bytes of its modulus, and its exponent. -/
structure PublicKey where
  n : Bytes
  e : Nat
  deriving DecidableEq, Repr

structure PrivateKey where
  pub : PublicKey
  d : Bytes
  deriving DecidableEq, Repr

/-- The `rsa` crate. A PKCS#1 v1.5 signature over SHA-256 needs a modulus of 62
bytes and is as long as the modulus. -/
structure RsaLib (H : IdealHash) where
  parsePublic : String → Except String PublicKey
  publicPem : PublicKey → Except String String
  spkiDer : PublicKey → Except String Bytes
  parsePrivate : String → Except String PrivateKey
  privatePem : PrivateKey → Except String String
  sign : PrivateKey → Bytes → Except String Bytes
  verify : PublicKey → Bytes → Bytes → Bool
  parse_publicPem : ∀ k pem, publicPem k = .ok pem → parsePublic pem = .ok k
  parse_privatePem : ∀ k pem, privatePem k = .ok pem → parsePrivate pem = .ok k
  spkiDer_inj : ∀ k k' der, spkiDer k = .ok der → spkiDer k' = .ok der → k = k'
  verify_sign : ∀ k m s, sign k m = .ok s → verify k.pub m s = true
  sign_hash : ∀ k b, (∃ s, sign k (H.hash b) = .ok s) ↔ 62 ≤ k.pub.n.length
  verify_length : ∀ k m s, verify k m s = true → s.length = k.n.length

/-! ## Objects -/

/-- A storage key inside the TPM; keys with one seed have the same children. -/
structure StorageKey where
  area : Public
  auth : Bytes
  seed : Bytes

/-- What the blobs of a sealed object hold: the key they are wrapped under, the
policy the TPM enforces and the secret. -/
structure SealedObject where
  parent : Bytes
  authPolicy : Bytes
  secret : Bytes
  deriving DecidableEq

structure Platform where
  env : String → Option String
  H : IdealHash
  rsa : RsaLib H
  encode : Bytes → String
  decode : String → Except String Bytes
  decode_encode : ∀ b, decode (encode b) = .ok b
  marshall : Public → Bytes
  unmarshall : Bytes → Except String Public
  unmarshall_marshall : ∀ a, unmarshall (marshall a) = .ok a
  /-- What this TPM made of a public area and a private blob, if it made them. -/
  object : Public → Bytes → Option SealedObject
  /-- The primary key of the owner hierarchy for a template. -/
  primary : Public → StorageKey
  primary_auth : ∀ t, (primary t).auth = []
  /-- The sizes `SensitiveData` and `Private` hold. -/
  maxSensitive : Nat
  maxPrivate : Nat
  /-- `RsaExponent::create` and `PersistentTpmHandle::new`: the error, if any. -/
  exponentError : Nat → Option String
  handleError : Nat → Option String
  /-- The library's text for a value that does not fit its type. -/
  wrongSize : String

def MAX_RSA_KEY_BYTES : Nat := 512

def MAX_NONCE : Nat := 64

variable (P : Platform)

/-- The Name of an object: the algorithm and the digest of its public area. -/
def Platform.name (area : Public) : Bytes := [0x00, 0x0B] ++ P.H.hash (P.marshall area)

variable {P}

private theorem marshall_inj {a b : Public} (h : P.marshall a = P.marshall b) : a = b := by
  have hread := P.unmarshall_marshall a
  rw [h, P.unmarshall_marshall] at hread
  exact (Except.ok.inj hread).symm

theorem name_inj {a b : Public} (h : P.name a = P.name b) : a = b := by
  rw [Platform.name, Platform.name, List.append_cancel_left_eq] at h
  exact marshall_inj (P.H.injective h)

/-! ## Keys as the sources load them -/

variable (P)

def parsePcrPublicKey (pubkeyPem : String) : Except LinuxHelloError PublicKey :=
  (P.rsa.parsePublic pubkeyPem).mapError fun e => .policy ("parse PCR public key: " ++ e)

/-- `rsa_pem_to_public`. -/
def rsaPemToPublic (pubkeyPem : String) : Except LinuxHelloError Public := do
  let key ← parsePcrPublicKey P pubkeyPem
  let bits := key.n.length * 8
  if bits ∉ [2048, 3072, 4096] then
    .error (.policy ("unsupported PCR key size: " ++ toString bits ++ " bits"))
  else if 2 ^ 32 ≤ key.e then .error (.policy "PCR key exponent too large")
  else
    match P.exponentError key.e with
    | some e => .error (.tpm e)
    | none =>
        .ok (.rsa { userWithAuth := true, signEncrypt := true } .sha256 []
          { symmetric := .null, nullScheme := true, keyBits := bits, exponent := key.e } key.n)

/-- The lowercase-hex SHA-256 of a key's `SubjectPublicKeyInfo`. -/
def pubkeySpkiFingerprint (pubkeyPem : String) : Except LinuxHelloError String := do
  let key ← parsePcrPublicKey P pubkeyPem
  let der ← (P.rsa.spkiDer key).mapError fun e => .policy ("encode PCR public key SPKI: " ++ e)
  pure (hexLower (P.H.hash der))

variable {P}

private theorem parsePcrPublicKey_ok {pem : String} {key : PublicKey} :
    parsePcrPublicKey P pem = .ok key ↔ P.rsa.parsePublic pem = .ok key := by
  unfold parsePcrPublicKey
  cases P.rsa.parsePublic pem <;> simp [Except.mapError]

theorem rsaPemToPublic_ok {pem : String} {area : Public} (h : rsaPemToPublic P pem = .ok area) :
    ∃ key, P.rsa.parsePublic pem = .ok key ∧ key.n.length ≤ MAX_RSA_KEY_BYTES ∧
      area = .rsa { userWithAuth := true, signEncrypt := true } .sha256 []
        { symmetric := .null, nullScheme := true, keyBits := key.n.length * 8, exponent := key.e }
        key.n := by
  obtain ⟨key, hkey, hrest⟩ := bind_eq_ok.1 h
  dsimp only at hrest
  split at hrest
  · cases hrest
  · rename_i hbits
    split at hrest
    · cases hrest
    · cases hexp : P.exponentError key.e with
      | some e =>
          rw [hexp] at hrest
          cases hrest
      | none =>
          rw [hexp] at hrest
          refine ⟨key, parsePcrPublicKey_ok.1 hkey, ?_, (Except.ok.inj hrest).symm⟩
          rw [not_not, List.mem_cons, List.mem_cons, List.mem_singleton] at hbits
          rw [MAX_RSA_KEY_BYTES]
          omega

end Linhello.Tpm
