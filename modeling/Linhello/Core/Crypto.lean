import Linhello.Core.Envelope
/-!
# Template encryption

AES-256-GCM, Argon2id and Base64 come from third-party crates. A `CryptoLib`
stands for them, with what `crypto.rs` and `recovery.rs` rely on: decryption
undoes encryption under the same key and nonce, the tag adds 16 bytes, and
decoding undoes encoding.
-/

namespace Linhello.Core

open Common

structure CryptoLib where
  /-- AES-256-GCM encryption: key, nonce, message. It refuses oversized messages. -/
  aeadSeal : Bytes → Bytes → Bytes → Option Bytes
  /-- AES-256-GCM decryption: key, nonce, ciphertext with tag. -/
  aeadOpen : Bytes → Bytes → Bytes → Option Bytes
  /-- Argon2id with a 32-byte output: passphrase, salt, costs. -/
  argon2 : Bytes → Bytes → Nat → Nat → Nat → Except LinuxHelloError Bytes
  encode : Bytes → String
  decode : String → Except String Bytes
  aeadOpen_aeadSeal : ∀ k n m c, aeadSeal k n m = some c → aeadOpen k n c = some m
  length_aeadSeal : ∀ k n m c, aeadSeal k n m = some c → c.length = m.length + 16
  decode_encode : ∀ b, decode (encode b) = .ok b

def KEY_LEN : Nat := 32

def NONCE_LEN : Nat := 12

variable (cl : CryptoLib)

def keyLengthError (key : Bytes) : LinuxHelloError :=
  .policy ("template key must be " ++ toString KEY_LEN ++ " bytes, got " ++ toString key.length)

/-- The tail of `crypto::encrypt`, once the key is checked and a nonce is drawn. -/
def encryptWith (key nonce plaintext : Bytes) : Except LinuxHelloError Bytes :=
  match cl.aeadSeal key nonce plaintext with
  | none => .error (.tpm "aes encrypt: aead::Error")
  | some ct => .ok (nonce ++ ct)

/-- `crypto::decrypt`. -/
def decrypt (key blob : Bytes) : Except LinuxHelloError Bytes :=
  if key.length ≠ KEY_LEN then .error (keyLengthError key)
  else if blob.length < NONCE_LEN + 16 then .error (.policy "encrypted blob too short")
  else
    match cl.aeadOpen key (blob.take NONCE_LEN) (blob.drop NONCE_LEN) with
    | none => .error (.policy "template decryption failed (wrong key or tampered data)")
    | some plain => .ok plain

variable {cl}

theorem length_key_of_decrypt {key blob plain : Bytes} (h : decrypt cl key blob = .ok plain) :
    key.length = KEY_LEN := by
  unfold decrypt at h
  by_contra hlen
  rw [if_pos hlen] at h
  cases h

theorem decrypt_encryptWith {key nonce plaintext blob : Bytes} (hk : key.length = KEY_LEN)
    (hn : nonce.length = NONCE_LEN) (h : encryptWith cl key nonce plaintext = .ok blob) :
    decrypt cl key blob = .ok plaintext := by
  simp only [encryptWith] at h
  split at h
  · cases h
  · rename_i ct hseal
    obtain rfl := Except.ok.inj h
    have hlen := cl.length_aeadSeal _ _ _ _ hseal
    have hshort : ¬ (nonce ++ ct).length < NONCE_LEN + 16 := by
      rw [List.length_append]
      omega
    have htake : (nonce ++ ct).take NONCE_LEN = nonce := by
      rw [← hn, List.take_left]
    have hdrop : (nonce ++ ct).drop NONCE_LEN = ct := by
      rw [← hn, List.drop_left]
    rw [decrypt, if_neg (not_not.2 hk), if_neg hshort, htake, hdrop,
      cl.aeadOpen_aeadSeal _ _ _ _ hseal]

/-- `recovery::unwrap`. -/
def unwrap (cl : CryptoLib) (passphrase : Bytes) (env : RecoveryEnvelope) :
    Except LinuxHelloError Bytes := do
  if env.kdf ≠ "argon2id" then
    throw (.policy ("unsupported recovery KDF: " ++ env.kdf))
  let salt ← (cl.decode env.salt).mapError fun e => .serde ("bad recovery salt: " ++ e)
  let wrapped ← (cl.decode env.wrapped).mapError fun e => .serde ("bad recovery blob: " ++ e)
  let dk ← cl.argon2 passphrase salt env.mCost env.tCost env.pCost
  (decrypt cl dk wrapped).mapError fun _ => .policy "wrong recovery passphrase"

end Linhello.Core
