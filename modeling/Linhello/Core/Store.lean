import Linhello.Host.Operations
/-!
# The secrets on disk

The functions of the core crate the daemon calls: envelopes, the per-user
template key, the recovery envelope and the encrypted template. `mlock` never
fails its caller and is left out.
-/

namespace Linhello.Core

open Common Effect Host

def validateUser (user : String) : Except LinuxHelloError Unit :=
  if user = "" ∨ user = "." ∨ user = ".." ∨ '/' ∈ user.toList ∨ '\\' ∈ user.toList ∨
      '\x00' ∈ user.toList then
    .error (.policy "invalid user name")
  else .ok ()

/-! ## Envelopes -/

def SealedEnvelope.load (p : Path) (as : p.Data → Json SealedEnvelope) : Fallible SealedEnvelope :=
  readJson p as

def SealedEnvelope.save (env : SealedEnvelope) (p : Path) (as : Json SealedEnvelope → p.Data) :
    Fallible Unit := do
  io (perform (.createDirAll p.parent))
  io (perform (.write p (as (.value env))))

def resealRandomSecret : Fallible Bytes := do
  let buf ← perform (.randomBytes 32)
  let env ← fallible (perform (.tpmSeal buf))
  env.save (.root .tpmEnvelope) id
  pure buf

def unsealKeyringSecret : Fallible Bytes := do
  let env ← SealedEnvelope.load (.root .tpmEnvelope) id
  fallible (perform (.tpmUnseal env))

def sealPassword (user : String) (password : Bytes) : Fallible Unit := do
  if password = [] then
    throw (.policy "empty password")
  orFail (validateUser user)
  let env ← fallible (perform (.tpmSeal password))
  env.save (.user user .passwordEnvelope) id
  io (perform (.setPermissions (.user user .passwordEnvelope)))

def unsealPassword (user : String) : Fallible Bytes := do
  orFail (validateUser user)
  let env ← SealedEnvelope.load (.user user .passwordEnvelope) id
  fallible (perform (.tpmUnseal env))

/-! ## The template key -/

def unsealTemplateKey (user : String) : Fallible Bytes := do
  orFail (validateUser user)
  let env ← SealedEnvelope.load (.user user .templateKeyEnvelope) id
  fallible (perform (.tpmUnseal env))

/-- Unseal the user's key, or create and seal one if there is no envelope. -/
def ensureTemplateKey (user : String) : Fallible Bytes := do
  orFail (validateUser user)
  if ← perform (.pathExists (.user user .templateKeyEnvelope)) then
    unsealTemplateKey user
  else
    let key ← perform (.randomBytes KEY_LEN)
    let env ← fallible (perform (.tpmSeal key))
    env.save (.user user .templateKeyEnvelope) id
    io (perform (.setPermissions (.user user .templateKeyEnvelope)))
    pure key

def sealTemplateKey (user : String) (key : Bytes) : Fallible Unit := do
  if key.length ≠ KEY_LEN then
    throw (keyLengthError key)
  orFail (validateUser user)
  let env ← fallible (perform (.tpmSeal key))
  env.save (.user user .templateKeyEnvelope) id
  io (perform (.setPermissions (.user user .templateKeyEnvelope)))

/-- `crypto::encrypt`. -/
def encrypt (cl : CryptoLib) (key plaintext : Bytes) : Fallible Bytes := do
  if key.length ≠ KEY_LEN then
    throw (keyLengthError key)
  let nonce ← perform (.randomBytes NONCE_LEN)
  orFail (encryptWith cl key nonce plaintext)

/-! ## Recovery -/

def SALT_LEN : Nat := 16

def M_COST : Nat := 19456

def T_COST : Nat := 2

def P_COST : Nat := 1

/-- `recovery::wrap`. -/
def wrap (cl : CryptoLib) (passphrase templateKey : Bytes) : Fallible RecoveryEnvelope := do
  if passphrase = [] then
    throw (.policy "empty recovery passphrase")
  let salt ← perform (.randomBytes SALT_LEN)
  let dk ← orFail (cl.argon2 passphrase salt M_COST T_COST P_COST)
  let wrapped ← encrypt cl dk templateKey
  pure { version := 1, kdf := "argon2id", salt := cl.encode salt, mCost := M_COST,
         tCost := T_COST, pCost := P_COST, wrapped := cl.encode wrapped }

def saveRecovery (cl : CryptoLib) (user : String) (passphrase : Bytes) : Fallible Unit := do
  let key ← unsealTemplateKey user
  let env ← wrap cl passphrase key
  orFail (validateUser user)
  io (perform (.createDirAll (some user)))
  io (perform (.write (.user user .recoveryEnvelope) (.value env)))
  io (perform (.setPermissions (.user user .recoveryEnvelope)))

def restoreFromRecovery (cl : CryptoLib) (user : String) (passphrase : Bytes) :
    Fallible Unit := do
  orFail (validateUser user)
  match ← perform (.read (.user user .recoveryEnvelope)) with
  | .error _ | .ok .invalidUtf8 =>
      throw (.policy ("no recovery passphrase is set for '" ++ user ++ "'"))
  | .ok json =>
      let env ← orFail json.parse
      let key ← orFail (unwrap cl passphrase env)
      sealTemplateKey user key

/-! ## The template -/

def legacyMigrationAllowed (pr : Process) : Bool := pr.envOn "LINHELLO_ALLOW_LEGACY_MIGRATION"

def saveEncryptedEmbedding (cl : CryptoLib) (user : String) (raw key : Bytes) : Fallible Unit := do
  orFail (validateUser user)
  io (perform (.createDirAll (some user)))
  let blob ← encrypt cl key raw
  io (perform (.write (.user user .embeddingEnc) blob))
  io (perform (.setPermissions (.user user .embeddingEnc)))
  -- the legacy file goes if it can; a failure is ignored
  let _ ← perform (.removeFile (.user user .embeddingBin))

/-- Decrypt `embedding.enc`; migrate a legacy template only on explicit opt-in. -/
def loadEncryptedEmbedding (pr : Process) (user : String) (key : Bytes) : Fallible Bytes := do
  orFail (validateUser user)
  if ← perform (.pathExists (.user user .embeddingEnc)) then
    let blob ← io (perform (.read (.user user .embeddingEnc)))
    orFail (decrypt pr.cl key blob)
  else if ← perform (.pathExists (.user user .embeddingBin)) then
    if !legacyMigrationAllowed pr then
      throw (.biometrics
        ("found legacy plaintext template for '" ++ user ++ "' but migration is " ++
        "disabled (unauthenticated at rest). Re-enroll, or set " ++
        "LINHELLO_ALLOW_LEGACY_MIGRATION=1 for a one-time upgrade."))
    let raw ← io (perform (.read (.user user .embeddingBin)))
    saveEncryptedEmbedding pr.cl user raw key
    let _ ← perform (.removeFile (.user user .embeddingBin))
    pure raw
  else throw (.biometrics ("no enrollment found for user '" ++ user ++ "'"))

end Linhello.Core
