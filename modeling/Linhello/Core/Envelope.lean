import Linhello.Common.Error
/-!
# On-disk records of the core crate

The TPM envelope and the recovery envelope, with the fields their JSON holds.
-/

namespace Linhello.Core

open Common

def CURRENT_VERSION : Nat := 2

structure PcrValue where
  pcr : Nat
  value : Bytes
  deriving DecidableEq

/-- How the sealed object's `authPolicy` was constructed. -/
inductive PolicyKind
  | pcrLiteral
  | authorized (pubkeyPem : String) (policyRef : Bytes)
  deriving DecidableEq

/-- The envelope file; `pub` and `priv` are its fields `public` and `private`. -/
structure SealedEnvelope where
  version : Nat
  mode : SecurityLevel
  pcrs : List Nat
  policy : PolicyKind
  pub : Bytes
  priv : Bytes
  pcrValues : List PcrValue
  deriving DecidableEq

structure RecoveryEnvelope where
  version : Nat
  kdf : String
  salt : String
  mCost : Nat
  tCost : Nat
  pCost : Nat
  wrapped : String
  deriving DecidableEq

end Linhello.Core
