import Linhello.Tpm.Operations
/-!
# Signed PCR policies

The signatures systemd ships with a UKI, and the host's own signer for PCR 7. The
systemd key is pinned; the host key is whatever lies under the config root.
-/

namespace Linhello.Tpm

open Common Effect Host

/-! ## systemd's artifacts -/

def DEFAULT_BANK : String := "sha256"

def TRUSTED_PUBKEY_SPKI_SHA256 : String :=
  "86812b40a327339e23d3c1a5621f31041e7581e1cc334746f3af62e861525ede"

def SEARCH_DIRS : List String := ["/etc/systemd", "/run/systemd", "/usr/lib/systemd"]

def SIGNATURE_FILE : String := "tpm2-pcr-signature.json"

def PUBKEY_FILE : String := "tpm2-pcr-public-key.pem"

/-- One authorized PCR policy and its signature. -/
structure PcrSignature where
  pcrs : List Nat
  pkfp : String
  pol : Bytes
  sig : Bytes
  deriving DecidableEq, Repr

/-- The override, where it is set and its file exists, or the first search
directory that has the file. -/
def discover (override : Option String) (file : String) (as : String → Artifact) :
    Proc (Option String) :=
  match override with
  | some p => do
      let present ← perform (.pathExists (as p))
      pure (if present then some p else none)
  | none => (SEARCH_DIRS.map fun d => d ++ "/" ++ file).findM? fun p => perform (.pathExists (as p))

variable (P : Platform)

def discoverSignaturePath : Proc (Option String) :=
  discover (P.env "LINHELLO_PCR_SIGNATURE") SIGNATURE_FILE .systemdSignatures

def discoverPubkeyPath : Proc (Option String) :=
  discover (P.env "LINHELLO_PCR_PUBKEY") PUBKEY_FILE .systemdPub

def signedPolicyAvailable : Proc Bool := do
  let signatures ← discoverSignaturePath P
  if signatures.isSome then
    let pub ← discoverPubkeyPath P
    pure pub.isSome
  else pure false

def ensureTrustedPubkey (pubkeyPem : String) : Except LinuxHelloError Unit := do
  let fp ← pubkeySpkiFingerprint P pubkeyPem
  if fp ≠ TRUSTED_PUBKEY_SPKI_SHA256 then
    .error (.policy ("PCR signing key fingerprint " ++ fp ++ " is not the pinned trusted key " ++
      TRUSTED_PUBKEY_SPKI_SHA256))
  else .ok ()

def loadPubkeyPem : Fallible String := do
  match ← discoverPubkeyPath P with
  | none => throw (.policy "no TPM2 PCR public key found")
  | some path =>
      let pem ← readText (.systemdPub path) id
      settle (ensureTrustedPubkey P pem)
      pure pem

/-! ## Signature lists -/

def parseEntry (e : RawEntry) : Except LinuxHelloError PcrSignature := do
  let pol ← (fromHex e.pol).mapError HexError.toError
  let sig ← (P.decode e.sig).mapError fun err => .serde ("bad signature base64: " ++ err)
  .ok { pcrs := e.pcrs, pkfp := e.pkfp, pol := pol, sig := sig }

/-- The first entry that does not decode fails them all. -/
def parseEntries : List RawEntry → Except LinuxHelloError (List PcrSignature)
  | [] => .ok []
  | e :: es => do
      let s ← parseEntry P e
      let ss ← parseEntries es
      .ok (s :: ss)

/-- `parse_signatures`, on what `serde_json` makes of the text. -/
def parseSignatures (raw : Banks) (bank : String) : Except LinuxHelloError (List PcrSignature) :=
  match raw.lookup bank with
  | none => .ok []
  | some entries => parseEntries P entries

def loadSignatures (bank : String) : Fallible (List PcrSignature) := do
  match ← discoverSignaturePath P with
  | none => throw (.policy "no TPM2 PCR signature file found")
  | some path =>
      let raw ← readJson (.systemdSignatures path) id
      settle (parseSignatures P raw bank)

/-- The first signature over this digest and exactly these PCRs. -/
def findForPolicy (sigs : List PcrSignature) (pcrs : List Nat) (policyDigest : Bytes) :
    Option PcrSignature :=
  sigs.find? fun s => s.pol = policyDigest ∧ s.pcrs = pcrs

/-! ## The host's own signer -/

inductive SignerKind
  | systemd
  | linhelloHost
  deriving DecidableEq, Repr

def SignerKind.debug : SignerKind → String
  | .systemd => "Systemd"
  | .linhelloHost => "LinhelloHost"

def unknownSigner (fp : String) : LinuxHelloError :=
  .policy ("authorized envelope references signing key " ++ fp ++ ", which is neither the " ++
    "pinned systemd key nor this host's linhello signing key; refusing to unseal")

/-- The key is the pinned one, or the one on this host. -/
def classifySigner (pubkeyPem : String) : Fallible SignerKind := do
  let fp ← settle (pubkeySpkiFingerprint P pubkeyPem)
  if fp = TRUSTED_PUBKEY_SPKI_SHA256 then pure .systemd
  else
    match ← caught (readText .signingPub id) with
    | .error _ => throw (unknownSigner fp)
    | .ok hostPem =>
        let hostFp ← settle (pubkeySpkiFingerprint P hostPem)
        if hostFp = fp then pure .linhelloHost else throw (unknownSigner fp)

def hostPrivateKey : Fallible PrivateKey := do
  let pem ← readText .signingKey id
  settle ((P.rsa.parsePrivate pem).mapError fun e => .policy ("parse host signing key: " ++ e))

/-- The host's key pair, made on first use. An existing public key is never replaced. -/
def ensureHostSigningKey : Fallible String := do
  if ← perform (.pathExists .signingPub) then
    let pem ← readText .signingPub id
    let _ ← hostPrivateKey P
    pure pem
  else
    let sk ← attempt (fun e => .policy ("generate host signing key: " ++ e)) (perform .generateKey)
    let privPem ← settle ((P.rsa.privatePem sk).mapError fun e =>
      .policy ("encode host signing key: " ++ e))
    let pubPem ← settle ((P.rsa.publicPem sk.pub).mapError fun e =>
      .policy ("encode host signing pubkey: " ++ e))
    io (perform .createConfigRoot)
    io (perform (.writeFile .signingKey (some privPem)))
    io (perform (.setPermissions .signingKey 0o600))
    io (perform (.writeFile .signingPub (some pubPem)))
    io (perform (.setPermissions .signingPub 0o644))
    pure pubPem

def signAhash (ahash : Bytes) : Fallible Bytes := do
  let sk ← hostPrivateKey P
  settle ((P.rsa.sign sk ahash).mapError fun e => .policy ("sign PCR policy: " ++ e))

def hostSignatures (bank : String) : Fallible (List PcrSignature) := do
  if ← perform (.pathExists .signatures) then
    let raw ← readJson .signatures id
    settle (parseSignatures P raw bank)
  else pure []

/-- Append an entry to a bank unless it has one for the same digest and PCRs. -/
def addEntry (banks : Banks) (bank : String) (entry : RawEntry) : Banks :=
  let list := (banks.lookup bank).getD []
  if list.any fun e => e.pol = entry.pol ∧ e.pcrs = entry.pcrs then banks.insert bank list
  else banks.insert bank (list ++ [entry])

def persistHostSignature (bank : String) (pcrs : List Nat) (polDigest sig : Bytes) :
    Fallible Unit := do
  -- a file that cannot be read or parsed counts as empty
  let existing : Banks :=
    match ← perform (.readFile .signatures) with
    | .ok (.value banks) => banks
    | _ => ∅
  let hostPem ← readText .signingPub id
  let pkfp ← settle (pubkeySpkiFingerprint P hostPem)
  let banks := addEntry existing bank
    { pcrs := pcrs, pkfp := pkfp, pol := hexLower polDigest, sig := P.encode sig }
  io (perform .createConfigRoot)
  io (perform (.writeFile .signaturesTmp (.value banks)))
  io (perform (.setPermissions .signaturesTmp 0o644))
  io (perform .renameSignatures)

end Linhello.Tpm
