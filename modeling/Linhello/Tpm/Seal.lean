import Linhello.Common.Config
import Linhello.Core.Envelope
import Linhello.Tpm.Policy
import Mathlib.Data.Nat.Digits.Defs
/-!
# Seal and unseal

A secret is a keyed-hash child of the storage root key with a policy. Handles and
sessions are flushed on every way out.
-/

namespace Linhello.Tpm

open Common Effect
open Linhello.Core (PcrValue PolicyKind SealedEnvelope CURRENT_VERSION)

variable (P : Platform) {α : Type}

def TCTI_DEFAULT : String := "device:/dev/tpmrm0"

def openContext : Fallible Unit :=
  tpmErr (perform (.openContext ((P.env "LINHELLO_TCTI").getD TCTI_DEFAULT)))

/-! ## PCRs -/

def pcrSlotSupported (index : Nat) : Bool := index ≤ 16 || index == 23

def pcrSelection (pcrs : List Nat) : Except LinuxHelloError (List Nat) :=
  match pcrs.find? fun p => !pcrSlotSupported p with
  | some other => .error (.tpm ("unsupported PCR " ++ toString other))
  | none => .ok pcrs

def readPcrValues : List Nat → Fallible (List PcrValue)
  | [] => pure []
  | p :: ps => do
      let sel ← settle (pcrSelection [p])
      let digests ← tpmErr (perform (.pcrRead sel))
      let rest ← readPcrValues ps
      pure ({ pcr := p, value := digests.head?.getD [] } :: rest)

/-- The PCRs that changed since the values in the envelope were read. -/
def diagnosePcrs (env : SealedEnvelope) : Fallible (List Nat) := do
  if env.pcrValues = [] then pure []
  else
    openContext P
    let current ← readPcrValues env.pcrs
    let drifted := (env.pcrValues.zip current).filter fun (expected, now) =>
      expected.pcr = now.pcr ∧ expected.value ≠ now.value
    pure (drifted.map fun (expected, _) => expected.pcr)

def policyAwareErr (e : String) (env : SealedEnvelope) : Fallible LinuxHelloError := do
  match ← caught (diagnosePcrs P env) with
  | .ok changed =>
      if changed ≠ [] then
        pure (.policy (e ++ ": PCR mismatch: " ++ toString changed ++ " changed since seal"))
      else pure (.tpm e)
  | .error _ => pure (.tpm e)

/-! ## Handles and sessions -/

/-- Run `body` in a session of its own. -/
def withSession (trial : Bool) (body : Nat → Fallible α) : Fallible α := do
  match ← tpmErr (perform (.startAuthSession trial)) with
  | none => throw (.tpm "start_auth_session returned None")
  | some session =>
      match ← perform (.trSessSetAttributes session) with
      | .error e =>
          let _ ← perform (.flushContext session)
          throw (.tpm e)
      | .ok _ =>
          let result ← caught (body session)
          let _ ← perform (.flushContext session)
          settle result

/-- Run `body` on a handle and flush it afterwards. -/
def withHandle (spawn : Fallible Nat) (body : Nat → Fallible α) : Fallible α := do
  let handle ← spawn
  let result ← caught (body handle)
  let _ ← perform (.flushContext handle)
  settle result

/-- The `PolicyPCR` digest, from a trial session. -/
def computePolicyDigest (pcrs : Option (List Nat)) : Fallible Bytes :=
  withSession true fun session => do
    match pcrs with
    | some sel =>
        tpmErr (perform (.policyPcr session sel))
        tpmErr (perform (.policyGetDigest session))
    | none => tpmErr (perform (.policyGetDigest session))

/-! ## The storage root key -/

def PERSISTENT_SRK_HANDLE : Nat := 0x81010001

/-- `u32::from_str_radix` in base 16, behind any number of `0x`. -/
def parseHandleChars : List Char → Option Nat
  | '0' :: 'x' :: cs => parseHandleChars cs
  | cs =>
      let digits := if cs.head? = some '+' then cs.tail else cs
      if digits = [] then none
      else
        match digits.mapM digitOf? with
        | none => none
        | some ds =>
            let value := Nat.ofDigits 16 ds.reverse
            if value < 2 ^ 32 then some value else none

def persistentSrkHandle : Except LinuxHelloError Nat :=
  let raw := ((P.env "LINHELLO_SRK_HANDLE").bind fun s => parseHandleChars (trim s).toList).getD
    PERSISTENT_SRK_HANDLE
  match P.handleError raw with
  | some e => .error (.tpm e)
  | none => .ok raw

def createSrk : Fallible Nat := tpmErr (perform (.createPrimary srkTemplate))

/-- The key at the persistent handle if it is ours. A foreign one is left alone. -/
def openSrk (object : Nat) (isOurs : Bool) : Fallible (Nat × Bool) := do
  if isOurs then
    -- the library knows no auth value for a handle it did not create
    tpmErr (perform (.trSetAuth object []))
    pure (object, true)
  else
    let transient ← createSrk
    pure (transient, false)

/-- The handle, and whether it is persistent. -/
def loadOrCreateSrk : Fallible (Nat × Bool) := do
  let persistent ← settle (persistentSrkHandle P)
  match ← perform (.trFromTpmPublic persistent) with
  | .ok object =>
      match ← perform (.readPublic object) with
      | .ok area => openSrk object (isLinhelloSrk area)
      | .error _ => openSrk object false
  | .error _ =>
      let transient ← createSrk
      let persisted ← tpmErr (perform (.evictControl transient persistent))
      let _ ← perform (.flushContext transient)
      tpmErr (perform (.trSetAuth persisted []))
      pure (persisted, true)

def withSrk (body : Nat → Fallible α) : Fallible α := do
  let (srk, persistent) ← loadOrCreateSrk P
  let result ← caught (body srk)
  if !persistent then
    let _ ← perform (.flushContext srk)
    settle result
  else settle result

/-! ## Host signatures -/

def loadExternalPubkey (pubkeyPem : String) : Fallible Nat := do
  let area ← settle (rsaPemToPublic P pubkeyPem)
  tpmErr (perform (.loadExternalPublic area))

/-- Sign the current PCR state unless a signature for it is on file. -/
def ensureHostSignature (pcrs : List Nat) (policyRef : Bytes) : Fallible Bytes := do
  openContext P
  let sel ← settle (pcrSelection pcrs)
  let approved ← computePolicyDigest (some sel)
  let existing ← hostSignatures P DEFAULT_BANK
  if (findForPolicy existing pcrs approved).isSome then pure approved
  else
    let sig ← signAhash P (authorizationHash P.H approved policyRef)
    persistHostSignature P DEFAULT_BANK pcrs approved sig
    pure approved

/-! ## Seal -/

/-- `try_from` into a type of bounded size. -/
def fits (max : Nat) (b : Bytes) : Except LinuxHelloError Bytes :=
  if b.length ≤ max then .ok b else .error (.tpm P.wrongSize)

def sealLiteral (secret : Bytes) (pcrs : List Nat) : Fallible SealedEnvelope := do
  openContext P
  let pcrValues ← readPcrValues pcrs
  withSrk P fun srk => do
    let selection ← settle (if pcrs = [] then .ok none else (pcrSelection pcrs).map some)
    let policyDigest ← computePolicyDigest selection
    let sensitive ← settle (fits P P.maxSensitive secret)
    let (area, priv) ← tpmErr (perform (.create srk (sealedTemplate policyDigest) sensitive))
    pure { version := CURRENT_VERSION, mode := (PolicyPlan.literal pcrs).securityLevel,
           pcrs := pcrs, policy := .pcrLiteral, pub := P.marshall area, priv := priv,
           pcrValues := pcrValues }

def sealAuthorized (secret : Bytes) (pcrs : List Nat) (pubkeyPem : String) (policyRef : Bytes) :
    Fallible SealedEnvelope := do
  let signer ← classifySigner P pubkeyPem
  openContext P
  let pcrValues ← readPcrValues pcrs
  let keyName ← withHandle (loadExternalPubkey P pubkeyPem) fun kh =>
    tpmErr (perform (.trGetName kh))
  let authPolicy := authorizeDigest P.H keyName policyRef
  let env ← withSrk P fun srk => do
    let sensitive ← settle (fits P P.maxSensitive secret)
    let (area, priv) ← tpmErr (perform (.create srk (sealedTemplate authPolicy) sensitive))
    pure { version := CURRENT_VERSION,
           mode := (PolicyPlan.authorized pcrs pubkeyPem policyRef).securityLevel,
           pcrs := pcrs, policy := .authorized pubkeyPem policyRef, pub := P.marshall area,
           priv := priv, pcrValues := pcrValues : SealedEnvelope }
  if signer = .linhelloHost then
    let _ ← ensureHostSignature P pcrs policyRef
    pure env
  else pure env

def sealWithPlan (secret : Bytes) : PolicyPlan → Fallible SealedEnvelope
  | .authorized pcrs pubkeyPem policyRef => sealAuthorized P secret pcrs pubkeyPem policyRef
  | .literal pcrs => sealLiteral P secret pcrs
  | .none => sealLiteral P secret []

def sealSecret (secret : Bytes) : Fallible SealedEnvelope := do
  let p ← plan P
  sealWithPlan P secret p

/-! ## Unseal -/

/-- `load` of an envelope's blobs under the storage root key. -/
def loadSealed (srk : Nat) (env : SealedEnvelope) : Fallible Nat := do
  let area ← settle ((P.unmarshall env.pub).mapError .tpm)
  let priv ← settle (fits P P.maxPrivate env.priv)
  tpmErr (perform (.load srk priv area))

/-- `TPM2_Unseal`, with the changed PCRs in the error. -/
def unsealLoaded (handle session : Nat) (env : SealedEnvelope) : Fallible Bytes := do
  match ← perform (.unsealObject handle session) with
  | .ok data => pure data
  | .error e => do
      let err ← policyAwareErr P e env
      throw err

def unsealLiteral (env : SealedEnvelope) : Fallible Bytes := do
  openContext P
  withSrk P fun srk =>
    withHandle (loadSealed P srk env) fun sealed =>
      withSession false fun session => do
        if env.pcrs ≠ [] then
          let sel ← settle (pcrSelection env.pcrs)
          tpmErr (perform (.policyPcr session sel))
          unsealLoaded P sealed session env
        else unsealLoaded P sealed session env

def expectedPcrs : SignerKind → List Nat
  | .systemd => AUTHORIZED_PCRS
  | .linhelloHost => LINHELLO_SIGNED_PCRS

def noSignature : SignerKind → LinuxHelloError
  | .systemd => .policy ("no signed PCR policy matches the current boot state " ++
      "(kernel/UKI not yet enrolled — re-sign required)")
  | .linhelloHost => .policy ("no PCR-7 signature matches the current Secure Boot state. " ++
      "If Secure Boot was disabled, face unlock is intentionally withheld — re-enable Secure " ++
      "Boot, or use the recovery passphrase.")

/-- The signature list that goes with a signer. -/
def signaturesFor : SignerKind → Fallible (List PcrSignature)
  | .systemd => loadSignatures P DEFAULT_BANK
  | .linhelloHost => hostSignatures P DEFAULT_BANK

/-- The host's own signer signs the current PCRs, but only while Secure Boot is on.
A failure is only logged. -/
def selfHeal (signer : SignerKind) (pcrs : List Nat) (policyRef : Bytes) : Fallible Unit := do
  if signer = .linhelloHost then
    if ← isSecureBootEnabled then
      let _ ← caught (ensureHostSignature P pcrs policyRef)
      pure ()

/-- Verify the signature and let it authorize the session. -/
def authorizeSession (session : Nat) (pubkeyPem : String) (approved policyRef sig : Bytes)
    (body : Fallible α) : Fallible α :=
  withHandle (loadExternalPubkey P pubkeyPem) fun keyHandle => do
    let keyName ← tpmErr (perform (.trGetName keyHandle))
    let signature ← settle (fits P MAX_RSA_KEY_BYTES sig)
    let ticket ← tpmErr (perform (.verifySignature keyHandle
      (authorizationHash P.H approved policyRef) signature))
    let refNonce ← settle (fits P MAX_NONCE policyRef)
    tpmErr (perform (.policyAuthorize session approved refNonce keyName ticket))
    body

/-- Replay the registers in a session and let a signature over them authorize it. -/
def unsealSigned (env : SealedEnvelope) (pubkeyPem : String) (policyRef : Bytes)
    (signer : SignerKind) : Fallible Bytes :=
  withSrk P fun srk =>
    withHandle (loadSealed P srk env) fun sealed =>
      withSession false fun session => do
        let sel ← settle (pcrSelection env.pcrs)
        tpmErr (perform (.policyPcr session sel))
        let approved ← tpmErr (perform (.policyGetDigest session))
        let sigs ← signaturesFor P signer
        match findForPolicy sigs env.pcrs approved with
        | none => throw (noSignature signer)
        | some s =>
            authorizeSession P session pubkeyPem approved policyRef s.sig
              (unsealLoaded P sealed session env)

def unsealAuthorized (env : SealedEnvelope) (pubkeyPem : String) (policyRef : Bytes) :
    Fallible Bytes := do
  let signer ← classifySigner P pubkeyPem
  if env.pcrs ≠ expectedPcrs signer then
    throw (.policy ("authorized envelope binds unexpected PCR set " ++ toString env.pcrs ++
      " (expected " ++ toString (expectedPcrs signer) ++ " for " ++ signer.debug ++
      "); refusing to unseal"))
  else
    selfHeal P signer env.pcrs policyRef
    openContext P
    unsealSigned P env pubkeyPem policyRef signer

def «unseal» (env : SealedEnvelope) : Fallible Bytes :=
  match env.policy with
  | .pcrLiteral => unsealLiteral P env
  | .authorized pubkeyPem policyRef => unsealAuthorized P env pubkeyPem policyRef

end Linhello.Tpm
