import Linhello.Tpm.Calm
import Mathlib.Tactic.DeriveEncodable
import Mathlib.Logic.Equiv.List
/-!
# A simulated platform

Stand-ins for the libraries around the TPM that satisfy the laws of a `Platform`: a
hash that is its argument behind its length, signatures that spell out what they sign,
blobs that hold their object in the clear. With them a run can be computed.
-/

namespace Linhello.Tpm

open Common Effect Host
open Linhello.Core (SealedEnvelope)

/-! ## Hash and marshalling -/

def spelledHash (b : Bytes) : Bytes := List.replicate b.length 1 ++ 2 :: b

theorem length_spelledHash (b : Bytes) : (spelledHash b).length = 2 * b.length + 1 := by
  rw [spelledHash, List.length_append, List.length_replicate, List.length_cons]
  omega

theorem takeWhile_spelledHash (b x : Bytes) :
    (spelledHash b ++ x).takeWhile (· == 1) = List.replicate b.length 1 := by
  have hones : ∀ c ∈ List.replicate b.length (1 : UInt8), (c == 1) = true := by
    intro c hc
    rw [List.eq_of_mem_replicate hc]
    rfl
  rw [spelledHash, List.append_assoc, List.takeWhile_append_of_pos hones]
  simp

private theorem spelledHash_cancel (a b x y : Bytes) (h : spelledHash a ++ x = spelledHash b ++ y) :
    a = b ∧ x = y := by
  have hlen : a.length = b.length := by
    have hones := congrArg (List.takeWhile (· == 1)) h
    rw [takeWhile_spelledHash, takeWhile_spelledHash] at hones
    have hcount := congrArg List.length hones
    rwa [List.length_replicate, List.length_replicate] at hcount
  obtain ⟨hhash, hrest⟩ := List.append_inj h (by simp [spelledHash, hlen])
  rw [spelledHash, spelledHash, hlen, List.append_cancel_left_eq] at hhash
  exact ⟨(List.cons.inj hhash).2, hrest⟩

def simulatedHash : IdealHash where
  hash := spelledHash
  cancel := spelledHash_cancel
  zero_ne := by
    intro a x y h
    have hhead := congrArg List.head? h
    cases a with
    | nil => simp [zeroDigest, spelledHash] at hhead
    | cons b a => simp [zeroDigest, spelledHash, List.replicate_succ] at hhead

instance encodableUInt8 : Encodable UInt8 :=
  Encodable.ofLeftInverse UInt8.toNat UInt8.ofNat fun _ => UInt8.ofNat_toNat

instance encodableChar : Encodable Char :=
  Encodable.ofLeftInverse Char.toNat Char.ofNat Char.ofNat_toNat

instance encodableString : Encodable String :=
  Encodable.ofLeftInverse String.toList String.ofList fun _ => String.ofList_toList

deriving instance Encodable for ObjectAttributes, HashingAlgorithm, SymmetricDefinition,
  RsaParameters, Public

def simulatedMarshall (area : Public) : Bytes := List.replicate (Encodable.encode area) 0

def simulatedUnmarshall (b : Bytes) : Except String Public :=
  match Encodable.decode b.length with
  | some area => .ok area
  | none => .error "unmarshall"

theorem simulatedUnmarshall_marshall (area : Public) :
    simulatedUnmarshall (simulatedMarshall area) = .ok area := by
  rw [simulatedUnmarshall, simulatedMarshall, List.length_replicate, Encodable.encodek]

/-! ## Keys -/

/-- A modulus of 2048 bits. -/
@[irreducible] def modulus (b : UInt8) : Bytes := List.replicate 256 b

theorem modulus_length (b : UInt8) : (modulus b).length = 256 := by
  rw [modulus, List.length_replicate]

theorem modulus_head (b : UInt8) : modulus b = b :: List.replicate 255 b := by
  rw [modulus, List.replicate_succ]

def hostKey : PublicKey := { n := modulus 1, e := 65537 }

theorem hostKey_length : hostKey.n.length = 256 := modulus_length 1

def oldKey : PublicKey := { n := modulus 2, e := 65537 }

def hostPair : PrivateKey := { pub := hostKey, d := [] }

def spelledSignature (k : PublicKey) (m : Bytes) : Bytes :=
  (k.n.take 1 ++ m ++ List.replicate k.n.length 0).take k.n.length

def simulatedRsa : RsaLib simulatedHash where
  parsePublic text := if text = "host.pem" then .ok hostKey else .error "not a key"
  publicPem k := if k = hostKey then .ok "host.pem" else .error "not a key"
  spkiDer k := if k.e = 65537 then .ok k.n else .error "exponent"
  parsePrivate text := if text = "host.key" then .ok hostPair else .error "not a key"
  privatePem k := if k = hostPair then .ok "host.key" else .error "not a key"
  sign k m := if 62 ≤ k.pub.n.length then .ok (spelledSignature k.pub m) else .error "too short"
  verify k m s := s = spelledSignature k m
  parse_publicPem := by
    intro k pem h
    split at h
    · rename_i hk
      rw [← Except.ok.inj h, hk, if_pos rfl]
    · cases h
  parse_privatePem := by
    intro k pem h
    split at h
    · rename_i hk
      rw [← Except.ok.inj h, hk, if_pos rfl]
    · cases h
  spkiDer_inj := by
    rintro ⟨n, e⟩ ⟨n', e'⟩ der h h'
    dsimp only at h h'
    split at h
    · split at h'
      · rename_i he he'
        rw [he, he', Except.ok.inj h, Except.ok.inj h']
      · cases h'
    · cases h
  verify_sign := by
    intro k m s h
    split at h
    · rw [← Except.ok.inj h, decide_eq_true_eq]
    · cases h
  sign_hash := by
    intro k b
    constructor
    · rintro ⟨s, h⟩
      split at h
      · assumption
      · cases h
    · intro h
      exact ⟨_, if_pos h⟩
  verify_length := by
    intro k m s h
    rw [of_decide_eq_true h, spelledSignature, List.length_take]
    simp only [List.length_append, List.length_replicate]
    omega

/-! ## The platform -/

def simulatedObject : Public → Bytes → Option SealedObject
  | .keyedHash _ _ policy unique, priv =>
    some { parent := unique, authPolicy := policy, secret := priv }
  | _, _ => none

def simulated : Platform where
  env _ := none
  H := simulatedHash
  rsa := simulatedRsa
  encode := hexLower
  decode text := (fromHex text).mapError fun _ => "bad base64"
  decode_encode := by
    intro b
    rw [fromHex_hexLower]
    rfl
  marshall := simulatedMarshall
  unmarshall := simulatedUnmarshall
  unmarshall_marshall := simulatedUnmarshall_marshall
  object := simulatedObject
  primary template := { area := template, auth := [], seed := [7] }
  primary_auth _ := rfl
  maxSensitive := 256
  maxPrivate := 1558
  exponentError _ := none
  handleError _ := none
  wrongSize := "wrong parameter size"

theorem verify_simulated {k : PublicKey} {m s : Bytes} :
    simulated.rsa.verify k m s = true ↔ s = spelledSignature k m :=
  decide_eq_true_iff

def simulatedChoices : Choices simulated where
  blobs parent policy secret :=
    if secret.length ≤ 1558 then
      .ok (.keyedHash { fixedTpm := true, fixedParent := true, noDa := true } .sha256
        policy parent, secret)
    else .error "TPM_RC_SIZE"
  blobs_ok := by
    intro parent policy secret area priv h
    split at h
    · rename_i hlen
      obtain ⟨rfl, rfl⟩ := Prod.mk.inj (Except.ok.inj h)
      exact ⟨rfl, hlen⟩
    · cases h
  key := .ok hostPair

/-! ## Machines -/

/-- The files of a host with a key pair and this signature file. -/
def simulatedFile (signatures : Option (Json Banks)) : (a : Artifact) → Option a.Data
  | .signingKey => some (some "host.key")
  | .signingPub => some (some "host.pem")
  | .signatures => signatures
  | .signaturesTmp | .systemdSignatures _ | .systemdPub _ => none

def simulatedMachine (secureBoot : Bool) (signatures : Option (Json Banks)) : Machine where
  sys :=
    { firmware := fun path => path == EFI_ROOT
      efivar := fun name =>
        if name = SECUREBOOT_VAR then some [6, 0, 0, 0, if secureBoot then 1 else 0] else none
      pcr := fun _ => zeroDigest
      pcr_length := fun _ => rfl
      file := simulatedFile signatures
      persistent := fun _ => none }
  next := 0
  object := fun _ => none
  session := fun _ => none

variable {signatures : Option (Json Banks)}

theorem eval_plan_simulated :
    eval (respond simulatedChoices) (plan simulated) (simulatedMachine true signatures) =
      (.authorized LINHELLO_SIGNED_PCRS "host.pem" [], simulatedMachine true signatures) :=
  rfl

private theorem length_hexLower (b : Bytes) : (hexLower b).toList.length = 2 * b.length := by
  rw [hexLower, String.toList_ofList]
  induction b with
  | nil => rfl
  | cons a b ih =>
      rw [List.flatMap_cons, List.length_append, ih, List.length_cons]
      simp only [List.length_cons, List.length_nil]
      omega

theorem simulated_signer {secureBoot : Bool} :
    SignerOf simulated (simulatedMachine secureBoot signatures).sys "host.pem" .linhelloHost := by
  have hfp : pubkeySpkiFingerprint simulated "host.pem" = .ok (hexLower (spelledHash hostKey.n)) :=
    rfl
  have hne : hexLower (spelledHash hostKey.n) ≠ TRUSTED_PUBKEY_SPKI_SHA256 := by
    intro h
    have hlen := congrArg (fun s => s.toList.length) h
    rw [length_hexLower, show TRUSTED_PUBKEY_SPKI_SHA256.toList.length = 64 by decide] at hlen
    rw [length_spelledHash, hostKey_length] at hlen
    omega
  exact ⟨hexLower (spelledHash hostKey.n), "host.pem", hfp, hne, rfl, hfp⟩

def simulatedArea : Public :=
  .rsa { userWithAuth := true, signEncrypt := true } .sha256 []
    { symmetric := .null, nullScheme := true, keyBits := 2048, exponent := 65537 } hostKey.n

theorem simulatedArea_ok : rsaPemToPublic simulated "host.pem" = .ok simulatedArea := by
  have hkey : parsePcrPublicKey simulated "host.pem" = .ok hostKey := rfl
  rw [rsaPemToPublic, hkey]
  dsimp only [Bind.bind, Except.bind]
  rw [hostKey_length]
  rfl

end Linhello.Tpm
