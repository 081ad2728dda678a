import Mathlib.Data.Rat.Defs
import Mathlib.Order.WithBot
import Linhello.Common.Error
/-!
# Wire protocol

The requests and responses of the daemon's socket (`ipc.rs`). Scores are
`WithBot ℚ`: an empty template scores minus infinity.
-/

namespace Linhello.Common

inductive Request
  | status
  | enroll (user : String) (reset : Bool)
  | verify (user : String)
  | unseal (user : String)
  | reseal
  | sealPassword (user : String) (password : Bytes)
  | unsealPassword (user : String)
  | authenticate (user service : String)
  | authIntent (user service : String)
  | policyStatus (user : String)
  | diagnose
  | livenessTest
  | resealUserEnvelopes (user : String)
  | probe
  | positionSample
  | listProfiles
  | identify
  | setProfileName (user name : String)
  | deleteProfile (user : String)
  | saveRecovery (user : String) (passphrase : Bytes)
  | restoreFromRecovery (user : String) (passphrase : Bytes)
  deriving DecidableEq

def Request.user? : Request → Option String
  | .enroll u _ | .verify u | .unseal u | .sealPassword u _ | .unsealPassword u
  | .authenticate u _ | .authIntent u _ | .policyStatus u | .resealUserEnvelopes u
  | .setProfileName u _ | .deleteProfile u | .saveRecovery u _ | .restoreFromRecovery u _ => some u
  | .status | .reseal | .diagnose | .livenessTest | .probe | .positionSample | .listProfiles
  | .identify => none

structure ProfileInfo where
  user : String
  name : Option String
  samples : Nat
  hasPassword : Bool
  deriving DecidableEq

structure OperationPolicy where
  operation : String
  action : String
  effect : String
  deriving DecidableEq

structure IdentifyCandidate where
  user : String
  name : Option String
  score : WithBot ℚ
  deriving DecidableEq

structure PositionReport where
  faceCount : Nat
  frameW : Nat
  frameH : Nat
  bbox : Option (ℚ × ℚ × ℚ × ℚ)
  faceFrac : Option ℚ
  yawDeg : Option ℚ
  pitchDeg : Option ℚ
  brightness : Option ℚ
  sharpness : Option ℚ
  quality : Nat
  irPresent : Bool
  irBrightness : Option ℚ
  irFaceBg : Option ℚ
  lowLight : Bool
  wellFramed : Bool
  guidance : String
  deriving DecidableEq

inductive CapabilityStatus
  | ok
  | warn
  | missing
  deriving DecidableEq

structure CapabilityCheck where
  name : String
  status : CapabilityStatus
  detail : String
  required : Bool
  deriving DecidableEq

structure CapabilityReport where
  checks : List CapabilityCheck
  deriving DecidableEq

structure LivenessSummary where
  decision : String
  spoofProb : Option ℚ
  mlScore : Option ℚ
  deviceScore : ℚ
  deviceName : Option String
  deviceDriver : Option String
  irScore : Option ℚ
  irMean : Option ℚ
  irStd : Option ℚ
  irHighlightFrac : Option ℚ
  irFaceBgRatio : Option ℚ
  irEyeGlint : Option ℚ
  irDepthRatio : Option ℚ
  faceFrac : Option ℚ
  yawDeg : Option ℚ
  pitchDeg : Option ℚ
  reason : Option String
  deriving DecidableEq

structure PolicyStatusReport where
  tier : String
  secure : Bool
  hardwareTier : String
  overridden : Bool
  enrolled : Bool
  hardwareReady : Bool
  hardwareNote : String
  ops : List OperationPolicy
  deriving DecidableEq

inductive Response
  | status (securityLevel : SecurityLevel) (bootMode : BootMode) (secureBoot : Bool)
      (loader : Option String)
  | enrolled (samples : Nat)
  | verified (matched : Bool) (score : WithBot ℚ) (threshold : ℚ)
  | unsealed (secret : Bytes)
  | resealed (bytes : Nat)
  | passwordSealed
  | passwordUnsealed (secret : Bytes)
  | diagnosed (envelopePresent : Bool) (securityLevel : SecurityLevel) (trackedPcrs : List Nat)
      (pcrDrift : Option (List Nat)) (tpmError : Option String)
  | livenessChecked (summary : LivenessSummary)
  | userEnvelopesResealed (password templateKey : Bool)
  | capabilities (report : CapabilityReport)
  | position (report : PositionReport)
  | profiles (profiles : List ProfileInfo)
  | identified (best : Option IdentifyCandidate) (threshold : ℚ)
      (candidates : List IdentifyCandidate)
  | profileNameSet
  | profileDeleted (user : String) (samples : Nat)
  | recoverySaved
  | recoveryRestored
  | authPlan (engage : Bool) (action : String) (cameraNotice : Option String)
  | policyStatus (report : PolicyStatusReport)
  | error (message : String)
  deriving DecidableEq

/-- The unsealed keyring secret or login password a response carries. -/
def Response.secret? : Response → Option Bytes
  | .unsealed s | .passwordUnsealed s => some s
  | _ => none

def Response.isError : Response → Bool
  | .error _ => true
  | _ => false

end Linhello.Common
