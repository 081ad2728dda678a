import Linhello.Daemon.Policy
/-!
# Request handlers and dispatch

One definition per `do_*` function of the daemon, and `dispatch`, which checks
the peer and the user name before it runs one.
-/

namespace Linhello.Daemon

open Common Linhello.Core Effect Host Liveness Biometrics

def isRoot (uid : Option Nat) : Bool := uid == some 0

def forbidden (op : String) : Response := .error (op ++ " requires root")

/-- `users::peer_may_act_as`. -/
def peerMayActAs (peerUid : Option Nat) (user : String) : Proc Bool := do
  match peerUid with
  | some 0 => pure true
  | some uid =>
      let owner ← perform (.uidForName user)
      pure (owner == some uid)
  | none => pure false

/-- Turn a `Result` into a response. -/
def respond {α : Type} (r : Except LinuxHelloError α) (ok : α → Response) : Response :=
  match r with
  | .ok a => ok a
  | .error e => .error e.display

def doStatus : Proc Response := do
  let level ← perform .detectSecurityLevel
  let boot ← perform .bootMode
  let sb ← perform .secureBoot
  let loader ← perform .loaderIdentity
  pure (.status level boot sb loader)

/-! ## Enrollment -/

/-- The plaintext `do_enroll` appends to. Every load failure counts as "no
enrollment yet". -/
def existingTemplate (pr : Process) (user : String) (reset : Bool) (key : Bytes) :
    Proc Bytes := do
  if reset then pure []
  else
    match ← (loadEncryptedEmbedding pr user key).run with
    | .ok existing => pure existing
    | .error _ => pure []

/-- The calibration `do_enroll` appends to. -/
def priorCalibration (user : String) (reset : Bool) : Proc IrCalibration :=
  if reset then pure IrCalibration.default else loadIrCalibration user

/-- The part of `do_enroll` after the template is written: the camera binding and
the IR calibration, both best effort. -/
def recordCapture (user : String) (reset : Bool) (signals : LivenessSignals) : Proc Unit := do
  let binding ← snapshotCameraBinding
  saveCameraBinding user binding
  let cal ← priorCalibration user reset
  saveIrCalibration user (match IrObservation.fromSignals signals with
    | some obs => cal.push obs
    | none => cal)

/-- `do_enroll` once the capture has succeeded. -/
def storeSample (pr : Process) (user : String) (reset : Bool) (embedding : List F32)
    (signals : LivenessSignals) : Proc Response := do
  let raw := embeddingToBytes embedding
  match ← (cachedTemplateKey user).run with
  | .error e => pure (.error ("template key: " ++ e))
  | .ok key =>
      let existing ← existingTemplate pr user reset key
      let allRaw := existing ++ raw
      match ← (saveEncryptedEmbedding pr.cl user allRaw key).run with
      | .error e => pure (.error ("save enrollment: " ++ e.display))
      | .ok () =>
          recordCapture user reset signals
          pure (.enrolled (allRaw.length / (EMBEDDING_DIM * 4)))

def doEnroll (pr : Process) (user : String) (reset : Bool) : Proc Response := do
  match ← (captureAndEmbedSignals pr).run with
  | .error e => pure (.error e.display)
  | .ok (embedding, signals) => storeSample pr user reset embedding signals

/-! ## Verification and release -/

def doVerify (pr : Process) (user : String) : Proc Response := do
  match ← (loadUserSamples pr user).run with
  | .error e => pure (.error e)
  | .ok samples =>
      match ← (captureEmbedGated pr user).run with
      | .error e => pure (.error e)
      | .ok live =>
          let r := matchAgainst (matchThreshold pr) live samples
          pure (.verified r.matched r.score (matchThreshold pr))

/-- A score in a message; an empty template prints `-inf`. -/
def displayScore (fl : FloatLib) : WithBot ℚ → String
  | none => "-inf"
  | some q => fl.fixed 4 q

/-- The common shape of the two releasing handlers: samples, capture, match, then
the unseal `release`. -/
def releaseIfMatched (pr : Process) (user : String) (release : Fallible Bytes)
    (answer : Bytes → Response) : Proc Response := do
  match ← (loadUserSamples pr user).run with
  | .error e => pure (.error e)
  | .ok samples =>
      match ← (captureEmbedGated pr user).run with
      | .error e => pure (.error e)
      | .ok live =>
          let r := matchAgainst (matchThreshold pr) live samples
          if !r.matched then
            pure (.error ("face mismatch (score " ++ displayScore pr.fl r.score ++ ")"))
          else
            let secret ← release.run
            pure (respond secret answer)

def doUnseal (pr : Process) (user : String) : Proc Response :=
  releaseIfMatched pr user unsealKeyringSecret .unsealed

def doUnsealPassword (pr : Process) (user : String) : Proc Response :=
  releaseIfMatched pr user (unsealPassword user) .passwordUnsealed

def doAuthenticate (pr : Process) (user service : String) (peerIsRoot : Bool) :
    Proc Response := do
  let plan ← planAction user service peerIsRoot
  match plan.action with
  | .deny =>
      pure (.error ("face auth not permitted for '" ++ service ++ "' on the " ++
        plan.tier.asStr ++ " tier"))
  | .verify => doVerify pr user
  | .unseal => doUnsealPassword pr user

/-! ## Profiles -/

def readProfileName (user : String) : Proc (Option String) := do
  match ← perform (.read (.user user .displayName)) with
  | .ok (some s) => pure (if trim s = "" then none else some (trim s))
  | _ => pure none

/-- Names of the sub-directories that hold a face template, sorted. -/
def enrolledProfiles : Proc (List String) := do
  match ← perform .readRoot with
  | .error _ => pure []
  | .ok names =>
      let enrolled ← names.filterM fun name => do
        if ← perform (.pathExists (.user name .embeddingEnc)) then pure true
        else perform (.pathExists (.user name .embeddingBin))
      pure (enrolled.insertionSort (· ≤ ·))

/-- Sample count from the size of the template, without decrypting it. -/
def profileSampleCount (user : String) : Proc Nat := do
  let stride := EMBEDDING_DIM * 4
  match ← perform (.templateLen user false) with
  | .ok len => pure ((len - (12 + 16)) / stride)
  | .error _ =>
      match ← perform (.templateLen user true) with
      | .ok len => pure (len / stride)
      | .error _ => pure 0

def doListProfiles (peerUid : Option Nat) : Proc Response := do
  let users ← enrolledProfiles
  let profiles ← users.mapM fun user => do
    let mayAct ← peerMayActAs peerUid user
    let hasPassword ← if mayAct then perform (.pathExists (.user user .passwordEnvelope))
      else pure false
    let name ← readProfileName user
    let samples ← profileSampleCount user
    pure { user := user, name := name, samples := samples, hasPassword := hasPassword :
      ProfileInfo }
  pure (.profiles profiles)

def noProfile (user : String) : Response := .error ("no enrolled profile '" ++ user ++ "'")

/-- The file change of `do_set_profile_name`: a blank name removes the file. -/
def writeProfileName (user name : String) : Proc (Except IoError Unit) := do
  let path := Path.user user .displayName
  if trim name = "" then
    match ← perform (.removeFile path) with
    | .error .notFound => pure (.ok ())
    | r => pure r
  else
    match ← perform (.write path (some (trim name ++ "\n"))) with
    | .ok _ => perform (.setPermissions path)
    | .error e => pure (.error e)

def doSetProfileName (user name : String) : Proc Response := do
  let profiles ← enrolledProfiles
  if !profiles.contains user then
    return noProfile user
  match ← writeProfileName user name with
  | .ok () => pure .profileNameSet
  | .error e => pure (.error ("set profile name: " ++ e.display))

/-- An entry that is already gone does not stop `remove_dir_all`. -/
def ignoreMissing : Except IoError Unit → Except IoError Unit
  | .error .notFound => .ok ()
  | r => r

/-- Unlink the listed entries, then remove the directory. -/
def removeEntries (user : String) : List UserFile → ExceptT IoError (Program host) Unit
  | [] => ExceptT.mk (perform (.removeDir user))
  | f :: rest => do
      ExceptT.mk (ignoreMissing <$> perform (.removeFile (.user user f)))
      removeEntries user rest

/-- `std::fs::remove_dir_all`: it stops at the first failure. -/
def removeDirAll (user : String) : ExceptT IoError (Program host) Unit := do
  let entries ← ExceptT.mk (perform (.readUserDir user))
  removeEntries user entries

def doDeleteProfile (user : String) : Proc Response := do
  let profiles ← enrolledProfiles
  if !profiles.contains user then
    return noProfile user
  let samples ← profileSampleCount user
  match ← (removeDirAll user).run with
  | .error e => pure (.error ("delete profile '" ++ user ++ "': " ++ e.display))
  | .ok () =>
      perform (.cacheRemove user)
      pure (.profileDeleted user samples)

/-- One profile scored against the live embedding, if it can be read. -/
def identifyCandidate (pr : Process) (live : List F32) (user : String) :
    Proc (Option IdentifyCandidate) := do
  match ← (loadUserSamples pr user).run with
  | .error _ => pure none
  | .ok samples =>
      let name ← readProfileName user
      pure (some { user := user, name := name,
                   score := (matchAgainst (matchThreshold pr) live samples).score })

def doIdentify (pr : Process) : Proc Response := do
  let profiles ← enrolledProfiles
  if profiles.isEmpty then
    return .error "no enrolled profiles to identify against"
  match ← (captureAndEmbed pr).run with
  | .error e => pure (.error e.display)
  | .ok live =>
      let scored ← profiles.mapM (identifyCandidate pr live)
      let candidates := (scored.filterMap id).insertionSort fun a b => b.score ≤ a.score
      if candidates.isEmpty then
        pure (.error "no profile templates could be read (TPM/PCR state?)")
      else
        let threshold := matchThreshold pr
        let best := candidates.head?.filter fun c => (threshold : WithBot ℚ) ≤ c.score
        pure (.identified best threshold candidates)

/-! ## Sealing and recovery -/

def doReseal : Proc Response := do
  let r ← resealRandomSecret.run
  pure (respond r fun secret => .resealed secret.length)

/-- Unseal the template key and seal it again; on success drop the cached copy. -/
def resealTemplateKey (user : String) : Proc Bool := do
  match ← (unsealTemplateKey user).run with
  | .error _ => pure false
  | .ok key =>
      match ← perform (.tpmSeal key) with
      | .error _ => pure false
      | .ok env =>
          match validateUser user with
          | .error _ => pure false
          | .ok () =>
              match ← (env.save (.user user .templateKeyEnvelope) id).run with
              | .error _ => pure false
              | .ok () =>
                  perform (.cacheRemove user)
                  pure true

def resealPassword (user : String) : Proc Bool := do
  match ← (unsealPassword user).run with
  | .error _ => pure false
  | .ok plaintext =>
      match ← (sealPassword user plaintext).run with
      | .ok () => pure true
      | .error _ => pure false

def doResealUserEnvelopes (user : String) : Proc Response := do
  let pwOk ← resealPassword user
  let tkOk ← resealTemplateKey user
  pure (.userEnvelopesResealed pwOk tkOk)

def doSealPassword (user : String) (password : Bytes) : Proc Response := do
  let r ← (sealPassword user password).run
  pure (respond r fun _ => .passwordSealed)

def doSaveRecovery (pr : Process) (user : String) (passphrase : Bytes) : Proc Response := do
  let r ← (saveRecovery pr.cl user passphrase).run
  pure (respond r fun _ => .recoverySaved)

def doRestoreFromRecovery (pr : Process) (user : String) (passphrase : Bytes) :
    Proc Response := do
  match ← (restoreFromRecovery pr.cl user passphrase).run with
  | .ok () =>
      perform (.cacheRemove user)
      pure .recoveryRestored
  | .error e => pure (.error e.display)

/-! ## Diagnosis -/

def doDiagnose : Proc Response := do
  let present ← perform (.pathExists (.root .tpmEnvelope))
  let level ← perform .detectSecurityLevel
  if !present then
    return .diagnosed false level [] none none
  match ← (SealedEnvelope.load (.root .tpmEnvelope) id).run with
  | .error e => pure (.error ("envelope load: " ++ e.display))
  | .ok env =>
      match ← perform (.diagnosePcrs env) with
      | .ok changed =>
          pure (.diagnosed true level env.pcrs (if changed.isEmpty then none else some changed)
            none)
      | .error e => pure (.diagnosed true level env.pcrs none (some e.display))

def LivenessDecision.label : LivenessDecision → String
  | .real => "real"
  | .spoof => "spoof"
  | .uncertain => "uncertain"

def livenessSummary (report : LivenessReport) : LivenessSummary :=
  let s := report.signals
  { decision := LivenessDecision.label report.decision
    spoofProb := s.spoofProb
    mlScore := s.mlScore
    deviceScore := s.deviceScore
    deviceName := s.deviceName
    deviceDriver := s.deviceDriver
    irScore := s.irScore
    irMean := s.irMean
    irStd := s.irStd
    irHighlightFrac := s.irHighlightFrac
    irFaceBgRatio := s.irFaceBgRatio
    irEyeGlint := s.irEyeGlint
    irDepthRatio := s.depthScore
    faceFrac := s.faceFrac
    yawDeg := s.yawDeg
    pitchDeg := s.pitchDeg
    reason := report.reason }

def doLivenessTest (pr : Process) : Proc Response := do
  let r ← (runLivenessTest pr).run
  pure (respond r fun report => .livenessChecked (livenessSummary report))

def doPositionSample : Proc Response := do
  let r ← perform .positionSample
  pure (respond r .position)

/-! ## Dispatch -/

/-- `validate_user` in front of a handler. -/
def withUser (user : String) (handler : Proc Response) : Proc Response :=
  match validateUser user with
  | .error e => pure (.error e.display)
  | .ok () => handler

/-- The root check and `validate_user` in front of a handler. -/
def rootOnly (peerUid : Option Nat) (op user : String) (handler : Proc Response) :
    Proc Response :=
  if !isRoot peerUid then pure (forbidden op) else withUser user handler

/-- The own-account check, then `validate_user`. -/
def ownAccount (peerUid : Option Nat) (op user : String) (handler : Proc Response) :
    Proc Response := do
  if !(← peerMayActAs peerUid user) then pure (forbidden op) else withUser user handler

def dispatch (pr : Process) (req : Request) (peerUid : Option Nat) : Proc Response :=
  match req with
  | .status => doStatus
  | .enroll user reset => rootOnly peerUid "enroll" user (doEnroll pr user reset)
  -- the one arm that validates the name before it asks who the peer is
  | .verify user => withUser user do
      if !(← peerMayActAs peerUid user) then
        pure (forbidden "verify (only your own account, or run as root)")
      else doVerify pr user
  | .unseal user => rootOnly peerUid "unseal" user (doUnseal pr user)
  | .reseal => if !isRoot peerUid then pure (forbidden "reseal") else doReseal
  | .sealPassword user password =>
      rootOnly peerUid "seal_password" user (doSealPassword user password)
  | .unsealPassword user => rootOnly peerUid "unseal_password" user (doUnsealPassword pr user)
  | .authenticate user service =>
      ownAccount peerUid "authenticate" user (doAuthenticate pr user service (isRoot peerUid))
  | .authIntent user service =>
      ownAccount peerUid "auth_intent" user (doAuthIntent user service (isRoot peerUid))
  | .policyStatus user => ownAccount peerUid "policy_status" user (doPolicyStatus user)
  | .diagnose => doDiagnose
  | .probe => do
      let report ← perform .probeCapabilities
      pure (.capabilities report)
  | .livenessTest => doLivenessTest pr
  | .positionSample => doPositionSample
  | .resealUserEnvelopes user =>
      rootOnly peerUid "reseal_user_envelopes" user (doResealUserEnvelopes user)
  | .listProfiles => doListProfiles peerUid
  | .identify => if !isRoot peerUid then pure (forbidden "identify") else doIdentify pr
  | .setProfileName user name =>
      rootOnly peerUid "set_profile_name" user (doSetProfileName user name)
  | .deleteProfile user => rootOnly peerUid "delete_profile" user (doDeleteProfile user)
  | .saveRecovery user passphrase =>
      rootOnly peerUid "save_recovery" user (doSaveRecovery pr user passphrase)
  | .restoreFromRecovery user passphrase =>
      rootOnly peerUid "restore_from_recovery" user (doRestoreFromRecovery pr user passphrase)

end Linhello.Daemon
