import Linhello.Effect.Program
import Linhello.Host.Operations
import Linhello.Tpm.Platform
import Mathlib.Data.List.AList
/-!
# What the core crate asks of firmware, TPM and disk

The operations of `tpm.rs`, `pcrsig.rs`, `policy.rs` and the Secure Boot crate.
Handles are the numbers the TPM library gives out. As for the daemon, a file holds
what its reader makes of its bytes; `LINHELLO_PCR_SIGNATURE` and
`LINHELLO_PCR_PUBKEY` do not point at the files of the host signer.
-/

namespace Linhello.Tpm

open Common Effect Host

/-! ## Signature files -/

structure RawEntry where
  pcrs : List Nat
  pkfp : String
  pol : String
  sig : String
  deriving DecidableEq, Repr

abbrev Banks := AList fun _ : String => List RawEntry

inductive Artifact
  | signingKey
  | signingPub
  | signatures
  /-- `pcr-signature.json.tmp`. -/
  | signaturesTmp
  | systemdSignatures (path : String)
  | systemdPub (path : String)
  deriving DecidableEq, Repr

abbrev Artifact.Data : Artifact → Type
  -- text, `none` when it is not UTF-8
  | .signingKey | .signingPub | .systemdPub _ => Option String
  | .signatures | .signaturesTmp | .systemdSignatures _ => Json Banks

/-! ## Operations -/

/-- The ticket of a verified signature. -/
structure Ticket where
  keyName : Bytes
  digest : Bytes
  deriving DecidableEq

inductive Op
  | pathExists (a : Artifact)
  | readFile (a : Artifact)
  | writeFile (a : Artifact) (d : a.Data)
  | setPermissions (a : Artifact) (mode : Nat)
  /-- `create_dir_all` of `CONFIG_ROOT`. -/
  | createConfigRoot
  /-- Rename the temporary signature file into place. -/
  | renameSignatures
  /-- Whether a firmware or boot loader path exists. -/
  | firmwarePath (path : String)
  | readEfivar (name : String)
  | generateKey
  | openContext (tcti : String)
  | trFromTpmPublic (persistent : Nat)
  | readPublic (handle : Nat)
  | trSetAuth (handle : Nat) (auth : Bytes)
  | createPrimary (template : Public)
  | evictControl (handle persistent : Nat)
  | flushContext (handle : Nat)
  | startAuthSession (trial : Bool)
  | trSessSetAttributes (session : Nat)
  | pcrRead (pcrs : List Nat)
  | policyPcr (session : Nat) (pcrs : List Nat)
  | policyGetDigest (session : Nat)
  | create (parent : Nat) (template : Public) (secret : Bytes)
  | load (parent : Nat) (priv : Bytes) (area : Public)
  | loadExternalPublic (area : Public)
  | trGetName (handle : Nat)
  | verifySignature (handle : Nat) (digest signature : Bytes)
  | policyAuthorize (session : Nat) (approved policyRef keyName : Bytes) (ticket : Ticket)
  | unsealObject (handle session : Nat)

abbrev Op.Ans : Op → Type
  | .pathExists _ | .firmwarePath _ => Bool
  | .readFile a => Except IoError a.Data
  | .writeFile _ _ | .setPermissions _ _ | .createConfigRoot | .renameSignatures =>
    Except IoError Unit
  | .readEfivar _ => Option Bytes
  | .generateKey => Except String PrivateKey
  | .openContext _ | .trSetAuth _ _ | .flushContext _ | .trSessSetAttributes _ | .policyPcr _ _
  | .policyAuthorize _ _ _ _ _ => Except String Unit
  | .trFromTpmPublic _ | .createPrimary _ | .evictControl _ _ | .load _ _ _
  | .loadExternalPublic _ => Except String Nat
  | .startAuthSession _ => Except String (Option Nat)
  | .readPublic _ => Except String Public
  | .pcrRead _ => Except String (List Bytes)
  | .create _ _ _ => Except String (Public × Bytes)
  | .policyGetDigest _ | .trGetName _ | .unsealObject _ _ => Except String Bytes
  | .verifySignature _ _ _ => Except String Ticket

def Op.mayWrite : Op → Artifact → Bool
  | .writeFile b _, a => a = b
  | .renameSignatures, a => a = .signatures ∨ a = .signaturesTmp
  | _, _ => false

/-- Whether the answer is the TPM's or the generator's choice. -/
def Op.chooses : Op → Bool
  | .generateKey | .create _ _ _ => true
  | _ => false

/-- An operation that writes no file and whose answer is determined. -/
def Op.Quiet (o : Op) : Prop := (∀ f, o.mayWrite f = false) ∧ o.chooses = false

abbrev tpm : Signature where
  Op := Op
  Ans := Op.Ans

abbrev Proc (α : Type) := Program tpm α

abbrev Fallible (α : Type) := ExceptT LinuxHelloError (Program tpm) α

abbrev perform (o : Op) : Proc o.Ans := @Program.perform tpm o

/-- `?` on an I/O result. -/
abbrev io {α : Type} (p : Proc (Except IoError α)) : Fallible α := attempt .io p

/-- `.map_err(tpm_err)?`. -/
abbrev tpmErr {α : Type} (p : Proc (Except String α)) : Fallible α := attempt .tpm p

def readJson {α : Type} (a : Artifact) (as : a.Data → Json α) : Fallible α := do
  let d ← io (perform (.readFile a))
  settle (as d).parse

/-- `read_to_string`. -/
def readText (a : Artifact) (as : a.Data → Option String) : Fallible String := do
  match as (← io (perform (.readFile a))) with
  | none => throw (.io (.other "stream did not contain valid UTF-8"))
  | some text => pure text

end Linhello.Tpm
