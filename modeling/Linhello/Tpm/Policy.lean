import Linhello.Tpm.Pcrsig
/-!
# PCR policy selection

The Secure Boot and boot-mode readings, and the plan a secret is sealed under.
-/

namespace Linhello.Tpm

open Common Effect

/-! ## Firmware -/

def EFI_ROOT : String := "/sys/firmware/efi"

def EFIVARS : String := "/sys/firmware/efi/efivars"

def SECUREBOOT_VAR : String := "SecureBoot-8be4df61-93ca-11d2-aa0d-00e098032b8c"

def SETUPMODE_VAR : String := "SetupMode-8be4df61-93ca-11d2-aa0d-00e098032b8c"

def STUB_INFO_VAR : String := "StubInfo-4a67b082-0a4c-41cf-b6c7-440b29bb8c4f"

def LOADER_INFO_VAR : String := "LoaderInfo-4a67b082-0a4c-41cf-b6c7-440b29bb8c4f"

/-- The first data byte of a variable, behind four bytes of attributes. -/
def efivarU8 (raw : Option Bytes) : Option UInt8 :=
  raw.bind fun bytes => if bytes.length < 5 then none else bytes[4]?

/-- Secure Boot is on and the firmware is not in setup mode. -/
def secureBootOf (efivar : String → Option Bytes) : Bool :=
  match efivarU8 (efivar SECUREBOOT_VAR) with
  | none => false
  | some secure => secure == 1 && (efivarU8 (efivar SETUPMODE_VAR)).getD 0 == 0

def isSecureBootEnabled : Proc Bool := do
  match efivarU8 (← perform (.readEfivar SECUREBOOT_VAR)) with
  | none => pure false
  | some secure => do
      let setup := (efivarU8 (← perform (.readEfivar SETUPMODE_VAR))).getD 0
      pure (secure == 1 && setup == 0)

def efivarExists (name : String) : Proc Bool := perform (.firmwarePath (EFIVARS ++ "/" ++ name))

def GRUB_ARTIFACTS : List String :=
  ["/boot/grub/grub.cfg", "/boot/grub2/grub.cfg", "/etc/default/grub"]

def grubArtifactsPresent : Proc Bool := do
  let found ← GRUB_ARTIFACTS.findM? fun p => perform (.firmwarePath p)
  pure found.isSome

def detectBootMode : Proc BootMode := do
  if !(← perform (.firmwarePath EFI_ROOT)) then pure .grub
  else if ← efivarExists STUB_INFO_VAR then pure .uki
  else if ← efivarExists LOADER_INFO_VAR then pure .grub
  else if ← grubArtifactsPresent then pure .grub
  else pure .unknown

/-! ## Plans -/

def AUTHORIZED_PCRS : List Nat := [11]

def LINHELLO_SIGNED_PCRS : List Nat := [7]

def LITERAL_PCRS : List Nat := [7]

inductive PolicyPlan
  | authorized (pcrs : List Nat) (pubkeyPem : String) (policyRef : Bytes)
  | literal (pcrs : List Nat)
  | none
  deriving DecidableEq, Repr

def PolicyPlan.securityLevel : PolicyPlan → SecurityLevel
  | .authorized pcrs _ _ => if pcrs = AUTHORIZED_PCRS then .full else .medium
  | .literal _ => .medium
  | .none => .basic

def PolicyPlan.pcrs : PolicyPlan → List Nat
  | .authorized pcrs _ _ | .literal pcrs => pcrs
  | .none => []

/-- A public-key loader runs only where its path is otherwise viable. -/
def decide (secureBoot : Bool) (boot : BootMode) (signedAvailable : Bool)
    (loadSystemdPubkey loadHostPubkey : Proc (Option String)) : Proc PolicyPlan := do
  if !secureBoot then pure .none
  else
    match ← (if boot = .uki ∧ signedAvailable then loadSystemdPubkey else pure none) with
    -- systemd's signer uses an empty policy reference
    | some pubkeyPem => pure (.authorized AUTHORIZED_PCRS pubkeyPem [])
    | none =>
        match ← loadHostPubkey with
        | some pubkeyPem => pure (.authorized LINHELLO_SIGNED_PCRS pubkeyPem [])
        | none => pure (.literal LITERAL_PCRS)

variable (P : Platform)

def plan : Proc PolicyPlan := do
  let sb ← isSecureBootEnabled
  let boot ← detectBootMode
  let signedAvailable ← signedPolicyAvailable P
  decide sb boot signedAvailable (Except.toOption <$> (loadPubkeyPem P).run)
    (Except.toOption <$> (ensureHostSigningKey P).run)

def detect : Proc SecurityLevel := PolicyPlan.securityLevel <$> plan P

end Linhello.Tpm
