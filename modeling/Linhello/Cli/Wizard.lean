import Linhello.Biometrics.Camera
import Linhello.Common.Ipc
import Linhello.Common.Utf8
import Linhello.Effect.Program
import Linhello.Liveness.Image
/-!
# The setup wizard

The state of the full-screen setup, what a key does on each screen, and what a tick of its
loop does. What the wizard does to the machine and asks the daemon is an operation; what it
only shows (status line, activity log, scrolling) is left out.
-/

namespace Linhello.Cli

open Common Effect Liveness
open Biometrics.Camera (CameraInfo)

namespace Wizard

inductive Screen
  | welcome
  | install
  | doctor
  | cameras
  | profiles
  | enroll
  | calibrate
  | identify
  | fingerprint
  | password
  | pam
  | done
  | uninstall
  deriving DecidableEq

/-- The linear path; `uninstall` is a side screen. -/
def ORDER : List Screen :=
  [.welcome, .install, .doctor, .cameras, .profiles, .enroll, .calibrate, .identify, .fingerprint,
   .password, .pam, .done]

/-- An `f32` that may be infinite on the lower side. -/
abbrev Score := WithBot ℚ

inductive CalState
  | idle
  | sampling (scores : List Score) (attempts : Nat)
  | review (scores : List Score) (rec : ℚ) (input : String)
  | saved (value : ℚ)
  | notEnough

def CAL_TARGET : Nat := 8

def CAL_MAX_ATTEMPTS : Nat := 16

inductive EnrollState
  | idle
  | framing (captured streak : Nat)
  | countdown (captured left : Nat)
  | done (captured : Nat)
  | failed (e : String)
  deriving DecidableEq

def ENROLL_TARGET : Nat := 5

def ENROLL_QUAL_MIN : Nat := 70

def ENROLL_STREAK : Nat := 3

inductive IdentifyState
  | idle
  | running
  | done (best : Option IdentifyCandidate) (threshold : ℚ) (candidates : List IdentifyCandidate)
  | failed (e : String)

inductive UninstallState
  | idle (removeModels : Bool)
  | confirm (removeModels : Bool) (input : String)
  | working
  | done (log : List String)
  | failed (e : String)
  deriving DecidableEq

def UNINSTALL_WORD : String := "REMOVE"

inductive PasswordStep
  | entry (input : String)
  | confirm (first input : String)
  | sealed
  | failed (e : String)
  deriving DecidableEq

inductive InstallStep
  | idle
  | modelPath (input : String)
  | done (log : List String)
  | failed (e : String)

/-- What the wizard looks at of the deployment on this host. -/
structure InstallState where
  cliBin : Option String
  daemonBin : Option String
  daemonActive : Bool
  modelsPresent : Bool
  enrolledUsers : List String
  deriving DecidableEq

def InstallState.isInstalled (s : InstallState) : Bool :=
  s.cliBin.isSome || s.daemonBin.isSome || s.daemonActive

def canRun (report : CapabilityReport) : Bool :=
  report.checks.all fun c => !(c.required && c.status = .missing)

/-! ## Operations -/

inductive Op
  | send (req : Request)
  | detect
  | enumerate
  | irDevice
  | deploy (user : String)
  | bundledModelsDir
  | copyModelsFrom (dir : String)
  | restartDaemon
  | uninstall (removeModels : Bool)
  | writeCamerasConf (rgb : String) (ir : Option String)
  | writeKv (file key value : String)
  | pamStatus
  | pamEnable (withSudo : Bool)
  | pamDisable
  | ensureSocketGroup
  | fingerprintAvailable
  | refreshFingerprint (user : String)
  | fingerprintEnable (user : String)
  | platformSetup
  | setRecovery (user : String)
  deriving DecidableEq

def Ans : Op → Type
  | .send _ => Except String Response
  | .detect => InstallState
  | .enumerate => List CameraInfo
  | .irDevice => Option String
  | .deploy _ | .copyModelsFrom _ | .uninstall _ => Except String (List String)
  | .bundledModelsDir => Option String
  | .restartDaemon | .writeCamerasConf _ _ | .writeKv _ _ _ | .pamEnable _ | .pamDisable =>
      Except String Unit
  | .fingerprintAvailable => Bool
  | .pamStatus | .ensureSocketGroup | .refreshFingerprint _ | .fingerprintEnable _
  | .platformSetup | .setRecovery _ => Unit

instance decidableEqAns : (o : Op) → DecidableEq (Ans o)
  | .send _ => inferInstanceAs (DecidableEq (Except String Response))
  | .detect => inferInstanceAs (DecidableEq InstallState)
  | .enumerate => inferInstanceAs (DecidableEq (List CameraInfo))
  | .irDevice | .bundledModelsDir => inferInstanceAs (DecidableEq (Option String))
  | .deploy _ | .copyModelsFrom _ | .uninstall _ =>
      inferInstanceAs (DecidableEq (Except String (List String)))
  | .restartDaemon | .writeCamerasConf _ _ | .writeKv _ _ _ | .pamEnable _ | .pamDisable =>
      inferInstanceAs (DecidableEq (Except String Unit))
  | .fingerprintAvailable => inferInstanceAs (DecidableEq Bool)
  | .pamStatus | .ensureSocketGroup | .refreshFingerprint _ | .fingerprintEnable _
  | .platformSetup | .setRecovery _ => inferInstanceAs (DecidableEq Unit)

abbrev console : Signature := ⟨Op, Ans⟩

abbrev Ui (α : Type) := Program console α

def perform (o : Op) : Ui (Ans o) := Program.perform (σ := console) o

/-! ## State -/

structure App where
  screen : Screen
  user : String
  install : InstallState
  report : Option (Except String CapabilityReport)
  cameras : List CameraInfo
  camCursor : Nat
  selRgb : Option String
  selIr : Option String
  cal : CalState
  enroll : EnrollState
  profiles : List ProfileInfo
  profileCursor : Nat
  activeProfile : String
  nameInput : Option String
  deleteConfirm : Option String
  newProfileInput : Option String
  identify : IdentifyState
  password : PasswordStep
  uninstall : UninstallState
  installStep : InstallStep
  camerasSaved : Bool
  pendingFpEnable : Bool
  pendingPlatformSetup : Bool
  pendingRecovery : Bool
  groupEnsured : Bool
  shouldQuit : Bool

/-- What `App::new` finds: the host, its cameras, and cameras.conf if there is one. -/
structure Start where
  user : String
  install : InstallState
  cameras : List CameraInfo
  confRgb : Option String
  confIr : Option String
  confExists : Bool

def App.new (s : Start) : App where
  screen := .welcome
  user := s.user
  install := s.install
  report := none
  cameras := s.cameras
  camCursor := 0
  selRgb := s.confRgb.or ((s.cameras.find? fun c => c.kind = .rgb && c.trusted).map (·.path))
  selIr := s.confIr.or ((s.cameras.find? fun c => c.kind = .ir).map (·.path))
  cal := .idle
  enroll := .idle
  profiles := []
  profileCursor := 0
  activeProfile := s.user
  nameInput := none
  deleteConfirm := none
  newProfileInput := none
  identify := .idle
  password := .entry ""
  uninstall := .idle true
  installStep := .idle
  camerasSaved := s.confExists
  pendingFpEnable := false
  pendingPlatformSetup := false
  pendingRecovery := false
  groupEnsured := false
  shouldQuit := false

def stepIndex (a : App) : Nat := if a.screen ∈ ORDER then ORDER.idxOf a.screen else 0

def activeProfileEnrolled (a : App) : Bool :=
  (match a.enroll with
    | .done _ => true
    | _ => false) ||
  a.profiles.any (fun p => p.user = a.activeProfile && 0 < p.samples) ||
  a.install.enrolledUsers.contains a.activeProfile

def activeProfileHasPassword (a : App) : Bool :=
  a.profiles.any fun p => p.user = a.activeProfile && p.hasPassword

/-- Whether the current step is complete enough to advance. -/
def gate (a : App) : Except String Unit :=
  match a.screen with
  | .install =>
      if !a.install.isInstalled then .error "install first — press i to deploy"
      else if !a.install.daemonActive then
        .error "the daemon isn't running — press i to deploy/start it"
      else if !a.install.modelsPresent then
        .error "required face models missing — press m to copy them in"
      else .ok ()
  | .doctor =>
      match a.report with
      | some (.ok r) =>
          if canRun r then .ok ()
          else .error "host can't run LinuxHello — fix the [FAIL] item first"
      | _ => .error "probe the host first (press r)"
  | .cameras =>
      if a.camerasSaved then .ok ()
      else .error "pick an RGB camera and press s to save before continuing"
  | .enroll =>
      if activeProfileEnrolled a then .ok ()
      else .error "enroll at least one face sample first (press Enter)"
  | .password =>
      match a.password with
      | .sealed => .ok ()
      | _ =>
          if activeProfileHasPassword a then .ok ()
          else .error
            "seal your login password first — it's what unlocks the keyring and sudo"
  | _ => .ok ()

/-! ## Moving between screens -/

def screenApplicable : Screen → Ui Bool
  | .password => do
      let ir ← perform .irDevice
      pure (Option.isSome ir)
  | _ => pure true

def firstApplicable : List Screen → Ui (Option Screen)
  | [] => pure none
  | s :: rest => do
      if ← screenApplicable s then pure (some s)
      else firstApplicable rest

def refreshProfiles (a : App) : Ui App := do
  match ← perform (.send .listProfiles) with
  | .ok (.profiles profiles) =>
      pure { a with profiles := profiles,
                    profileCursor := min a.profileCursor (profiles.length - 1) }
  | _ => pure a

def refreshProbe (a : App) : Ui App := do
  let report : Except String CapabilityReport ← do
    match ← perform (.send .probe) with
    | .ok (.capabilities report) => pure (.ok report)
    | .ok _ => pure (.error "unexpected response")
    | .error e => pure (.error e)
  -- the policy panel
  let _ ← perform (.send (.policyStatus a.user))
  pure { a with report := some report }

/-- What becoming active does on each screen. -/
def onEnter (a : App) : Ui App := do
  let install ← perform .detect
  let a := { a with nameInput := none, install := install }
  match a.screen with
  | .doctor => refreshProbe a
  | .cameras => do
      let cameras ← perform .enumerate
      pure { a with cameras := cameras, camCursor := min a.camCursor (List.length cameras - 1) }
  | .profiles => refreshProfiles a
  | .password => do
      let a ← refreshProfiles a
      if activeProfileHasPassword a then pure { a with password := .sealed }
      else
        match a.password with
        | .entry _ => pure a
        | _ => pure { a with password := .entry "" }
  | .pam => do
      perform .pamStatus
      if a.groupEnsured then pure a
      else do
        perform .ensureSocketGroup
        pure { a with groupEnsured := true }
  | .fingerprint => do
      perform (.refreshFingerprint a.activeProfile)
      pure a
  | _ => pure a

def goTo (screens : List Screen) (a : App) : Ui App := do
  match ← firstApplicable screens with
  | some s => onEnter { a with screen := s }
  | none => pure a

def next (a : App) : Ui App :=
  match gate a with
  | .error _ => pure a
  | .ok () => goTo (ORDER.drop (stepIndex a + 1)) a

def prev (a : App) : Ui App := goTo (ORDER.take (stepIndex a)).reverse a

/-! ## Keys -/

inductive Key
  | char (c : Char)
  | backspace
  | enter
  | esc
  | tab
  | backTab
  | left
  | right
  | up
  | down
  | pageUp
  | pageDown
  | other
  deriving BEq, ReflBEq, LawfulBEq

def pop (s : String) : String := String.ofList s.toList.dropLast

/-- `dir.display()` of a trimmed path. -/
def copyModels (a : App) (dir input : String) (log : List String) : Ui App := do
  match ← perform (.copyModelsFrom dir) with
  | .ok copied => do
      let install ← perform .detect
      let _ ← perform .restartDaemon
      pure { a with install := install, installStep := .done (log ++ copied) }
  | .error _ => pure { a with installStep := .modelPath input }

def installKey (a : App) (code : Key) : Ui App :=
  match a.installStep with
  | .idle =>
      match code with
      | .char 'i' => do
          match ← perform (.deploy a.user) with
          | .ok log => do
              let install ← perform .detect
              let a := { a with install := install }
              if a.install.modelsPresent then
                pure { a with installStep := .done (log ++ ["face models already in place"]) }
              else
                match ← perform .bundledModelsDir with
                | some dir => copyModels a dir dir log
                | none => pure { a with installStep := .modelPath "" }
          | .error e => pure { a with installStep := .failed e }
      | .char 'm' => pure { a with installStep := .modelPath "" }
      | .right => next a
      | .left => prev a
      | _ => pure a
  | .modelPath input =>
      match code with
      | .char c => pure { a with installStep := .modelPath (input.push c) }
      | .backspace => pure { a with installStep := .modelPath (pop input) }
      | .esc => pure { a with installStep := .idle }
      | .enter => copyModels a (trim input) input []
      | _ => pure a
  | _ =>
      match code with
      | .char 'i' => pure { a with installStep := .idle }
      | .right => next a
      | .left => prev a
      | _ => pure a

def highlighted (a : App) : Option ProfileInfo := a.profiles[a.profileCursor]?

def profilesKey (a : App) (code : Key) : Ui App :=
  match code with
  | .up => pure { a with profileCursor := a.profileCursor - 1 }
  | .down => pure { a with profileCursor := min (a.profileCursor + 1) (a.profiles.length - 1) }
  | .char 's' =>
      match highlighted a with
      | some p => pure { a with activeProfile := p.user }
      | none => pure a
  | .char 'a' => pure { a with newProfileInput := some "" }
  | .char 'n' =>
      match highlighted a with
      | some p => pure { a with nameInput := some (p.name.getD "") }
      | none => pure a
  | .char 'd' =>
      match highlighted a with
      | some p => pure { a with deleteConfirm := some p.user }
      | none => pure a
  | .char 'r' => refreshProfiles a
  | .right => next a
  | .left => prev a
  | _ => pure a

def nameEditKey (a : App) (buf : String) (code : Key) : Ui App :=
  match code with
  | .char c => pure { a with nameInput := some (buf.push c) }
  | .backspace => pure { a with nameInput := some (pop buf) }
  | .esc => pure { a with nameInput := none }
  | .enter => do
      let a := { a with nameInput := none }
      match highlighted a with
      | some p => do
          match ← perform (.send (.setProfileName p.user buf)) with
          | .ok .profileNameSet => refreshProfiles a
          | _ => pure a
      | none => pure a
  | _ => pure a

def invalidName (name : String) : Bool :=
  name = "" || name = "." || name = ".." || name.toList.contains '/' || name.toList.contains '\\'

def newProfileEditKey (a : App) (buf : String) (code : Key) : Ui App :=
  match code with
  | .char c => pure { a with newProfileInput := some (buf.push c) }
  | .backspace => pure { a with newProfileInput := some (pop buf) }
  | .esc => pure { a with newProfileInput := none }
  | .enter =>
      if invalidName (trim buf) then pure a
      else pure { a with newProfileInput := none, activeProfile := trim buf }
  | _ => pure a

def deleteConfirmKey (a : App) (user : String) (code : Key) : Ui App := do
  let a := { a with deleteConfirm := none }
  if code == .char 'y' || code == .char 'Y' then
    match ← perform (.send (.deleteProfile user)) with
    | .ok (.profileDeleted deleted _) =>
        refreshProfiles { a with
          activeProfile := if a.activeProfile = deleted then a.user else a.activeProfile,
          profileCursor := 0 }
    | _ => pure a
  else pure a

def identifyKey (a : App) (code : Key) : Ui App :=
  match code with
  | .char 'i' | .enter =>
      match a.identify with
      | .running => pure a
      | _ => pure { a with identify := .running }
  | .right => next a
  | .left => prev a
  | _ => pure a

def sealedStep : Except String Response → PasswordStep
  | .ok .passwordSealed => .sealed
  | .ok (.error message) => .failed message
  | .ok _ => .failed "unexpected"
  | .error e => .failed e

def passwordKey (a : App) (code : Key) : Ui App :=
  match a.password with
  | .entry input =>
      match code with
      | .char c => pure { a with password := .entry (input.push c) }
      | .backspace => pure { a with password := .entry (pop input) }
      | .esc => pure { a with password := .entry "" }
      | .enter =>
          if input = "" then pure a else pure { a with password := .confirm input "" }
      | _ => pure a
  | .confirm first input =>
      match code with
      | .char c => pure { a with password := .confirm first (input.push c) }
      | .backspace => pure { a with password := .confirm first (pop input) }
      | .esc => pure { a with password := .entry "" }
      | .enter =>
          if input ≠ first then pure { a with password := .entry "" }
          else do
            let answer ← perform (.send (.sealPassword a.activeProfile (utf8 first)))
            match answer with
            | .ok .passwordSealed => do
                let install ← perform .detect
                pure { a with install := install, password := .sealed }
            | _ => pure { a with password := sealedStep answer }
      | _ => pure a
  | _ =>
      match code with
      | .char 'r' => pure { a with password := .entry "" }
      | .right => next a
      | .left => prev a
      | _ => pure a

def uninstallKey (a : App) (code : Key) : Ui App :=
  match a.uninstall with
  | .idle removeModels =>
      match code with
      | .char 'd' => pure { a with uninstall := .idle (!removeModels) }
      | .char 'x' => pure { a with uninstall := .confirm removeModels "" }
      | .esc => onEnter { a with screen := .welcome }
      | _ => pure a
  | .confirm removeModels input =>
      match code with
      | .char c => pure { a with uninstall := .confirm removeModels (input.push c) }
      | .backspace => pure { a with uninstall := .confirm removeModels (pop input) }
      | .esc => pure { a with uninstall := .idle removeModels }
      | .enter =>
          if trim input = UNINSTALL_WORD then do
            match ← perform (.uninstall removeModels) with
            | .ok log => do
                let install ← perform .detect
                pure { a with install := install, uninstall := .done log }
            | .error e => pure { a with uninstall := .failed e }
          else pure a
      | _ => pure a
  | _ =>
      if code == .esc || code == .char 'q' then
        onEnter { a with screen := .welcome, uninstall := .idle true }
      else pure a

def canStart : EnrollState → Bool
  | .idle | .done _ | .failed _ => true
  | _ => false

def enrollKey (a : App) (code : Key) : Ui App :=
  match code with
  | .enter | .char 'c' =>
      if canStart a.enroll then pure { a with enroll := .framing 0 0 } else pure a
  | .right => next a
  | .left => prev a
  | _ => pure a

def pamApply (a : App) (enable withSudo : Bool) : Ui App := do
  let _ ← if enable then perform (.pamEnable withSudo) else perform .pamDisable
  perform .pamStatus
  let install ← perform .detect
  pure { a with install := install }

def pamKey (a : App) (code : Key) : Ui App :=
  match code with
  | .char 'e' => do
      let a ← pamApply a true false
      pure { a with pendingPlatformSetup := true }
  | .char 'a' => do
      let a ← pamApply a true true
      pure { a with pendingPlatformSetup := true }
  | .char 'p' => pure { a with pendingPlatformSetup := true }
  | .char 'd' => pamApply a false false
  | .right => next a
  | .left => prev a
  | _ => pure a

def saveCameras (a : App) : Ui App :=
  match a.selRgb with
  | none => pure a
  | some rgb => do
      match ← perform (.writeCamerasConf rgb a.selIr) with
      | .ok () => do
          let _ ← perform .restartDaemon
          pure { a with camerasSaved := true }
      | .error _ => pure a

def camerasKey (a : App) (code : Key) : Ui App :=
  match code with
  | .up => pure { a with camCursor := a.camCursor - 1 }
  | .down => pure { a with camCursor := min (a.camCursor + 1) (a.cameras.length - 1) }
  | .char 'r' =>
      match a.cameras[a.camCursor]? with
      | some c => pure { a with selRgb := some c.path }
      | none => pure a
  | .char 'i' =>
      match a.cameras[a.camCursor]? with
      | some c => pure { a with selIr := some c.path }
      | none => pure a
  | .char 'n' => pure { a with selIr := none }
  | .char 's' => saveCameras a
  | .right => next a
  | .left => prev a
  | _ => pure a

/-- The value Enter saves: the recommendation, or what was typed. -/
def chosenThreshold (fl : FloatLib) (rec : ℚ) (input : String) : ℚ :=
  if trim input = "" then rec
  else
    match fl.parse (trim input) with
    | some (some v) => clamp (30 / 100) (95 / 100) v
    -- digits and dots denote no NaN: what is not finite is too large
    | some none => 95 / 100
    | none => clamp (30 / 100) (95 / 100) rec

def calibrateKey (fl : FloatLib) (a : App) (code : Key) : Ui App :=
  match a.cal with
  | .sampling _ _ => pure a
  | .review scores rec input =>
      match code with
      | .char ch =>
          if ch.isDigit || ch = '.' then
            pure { a with cal := .review scores rec (input.push ch) }
          else pure a
      | .backspace => pure { a with cal := .review scores rec (pop input) }
      | .enter => do
          let v := chosenThreshold fl rec input
          match ← perform (.writeKv "settings.conf" "match_threshold" (fl.fixed 2 v)) with
          | .ok () => do
              let _ ← perform .restartDaemon
              pure { a with cal := .saved v }
          | .error _ => pure a
      | _ => pure a
  | _ =>
      match code with
      | .char 'c' => pure { a with cal := .sampling [] 0 }
      | .right => next a
      | .left => prev a
      | _ => pure a

def fingerprintKey (a : App) (code : Key) : Ui App :=
  match code with
  | .char 'e' => do
      match ← perform .fingerprintAvailable with
      | true => pure { a with pendingFpEnable := true }
      | false => pure a
  | _ => pure a

def doctorKey (a : App) (code : Key) : Ui App :=
  match code with
  | .up | .down | .pageUp | .pageDown => pure a
  | .char 'r' => refreshProbe a
  | .char 's' => do
      let _ ← perform .restartDaemon
      refreshProbe a
  | .enter | .right => next a
  | .left => prev a
  | _ => pure a

def plainKey (a : App) (code : Key) : Ui App :=
  match code with
  | .enter | .right => next a
  | .left => prev a
  | _ => pure a

/-- The keys of a screen, after navigation, text entry and quitting. -/
def screenKey (fl : FloatLib) (a : App) (code : Key) : Ui App :=
  match a.screen with
  | .welcome =>
      if code == .char 'u' then
        if a.install.isInstalled then
          pure { a with screen := .uninstall, uninstall := .idle true }
        else pure a
      else plainKey a code
  | .install => installKey a code
  | .cameras => camerasKey a code
  | .profiles => profilesKey a code
  | .calibrate => calibrateKey fl a code
  | .enroll => enrollKey a code
  | .identify => identifyKey a code
  | .password => passwordKey a code
  | .pam => pamKey a code
  | .fingerprint => fingerprintKey a code
  | .doctor => doctorKey a code
  | .done =>
      if code == .char 'r' then pure { a with pendingRecovery := true } else plainKey a code
  | .uninstall => plainKey a code

/-- Text entry that takes the keys navigation has left, if one is open. -/
def textKey (a : App) (code : Key) : Option (Ui App) :=
  match a.screen with
  | .profiles =>
      match a.nameInput, a.newProfileInput with
      | some buf, _ => some (nameEditKey a buf code)
      | none, some buf => some (newProfileEditKey a buf code)
      | none, none => none
  | .install =>
      match a.installStep with
      | .modelPath _ => some (installKey a code)
      | _ => none
  | .password =>
      match a.password with
      | .entry _ | .confirm _ _ => some (passwordKey a code)
      | _ => none
  | _ => none

/-- Scrolling of the activity log, on every screen. -/
def scrolls : Key → Bool
  | .up | .down | .pageUp | .pageDown => true
  | _ => false

def onKey (fl : FloatLib) (a : App) (code : Key) (shift : Bool) : Ui App :=
  if shift && scrolls code then pure a
  else if a.screen = .uninstall then uninstallKey a code
  else
    match a.screen, a.deleteConfirm with
    | .profiles, some user => deleteConfirmKey a user code
    | _, _ =>
        match code with
        | .tab | .right => next a
        | .backTab | .left => prev a
        | _ =>
            match textKey a code with
            | some handled => handled
            | none =>
                if code == .char 'q' || code == .esc then pure { a with shouldQuit := true }
                else screenKey fl a code

/-! ## Ticks -/

/-- The live re-detection, about once a second. -/
def pollLive (a : App) : Ui App := do
  let install ← perform .detect
  let cameras ← perform .enumerate
  let a := { a with install := install, cameras := cameras,
                    camCursor := if a.camCursor ≥ List.length cameras then List.length cameras - 1
                                 else a.camCursor }
  match a.screen with
  | .doctor => refreshProbe a
  | .profiles => refreshProfiles a
  | .pam => do
      perform .pamStatus
      pure a
  | _ => pure a

def pollPosition : Ui (Option PositionReport) := do
  match ← perform (.send .positionSample) with
  | .ok (.position report) => pure (some report)
  | _ => pure none

def good (r : Option PositionReport) : Bool :=
  match r with
  | some p => p.wellFramed && ENROLL_QUAL_MIN ≤ p.quality
  | none => false

def doEnrollCapture (a : App) : Ui (Except String Unit) := do
  match ← perform (.send (.enroll a.activeProfile false)) with
  | .ok (.enrolled _) => pure (.ok ())
  | .ok (.error message) => pure (.error message)
  | .ok _ => pure (.error "unexpected response")
  | .error e => pure (.error e)

def tickEnroll (a : App) : Ui App :=
  match a.enroll with
  | .framing captured streak => do
      let last ← pollPosition
      let streak := if good last then streak + 1 else 0
      pure { a with enroll := if streak ≥ ENROLL_STREAK then .countdown captured 3
                              else .framing captured streak }
  | .countdown captured left => do
      let last ← pollPosition
      if !good last then pure { a with enroll := .framing captured 0 }
      else if left ≤ 1 then do
        match ← doEnrollCapture a with
        | .ok () =>
            let n := captured + 1
            if n ≥ ENROLL_TARGET then do
              let install ← perform .detect
              pure { a with install := install, enroll := .done n }
            else pure { a with enroll := .framing n 0 }
        | .error e => pure { a with enroll := .failed e }
      else pure { a with enroll := .countdown captured (left - 1) }
  | _ => pure a

def tickIdentify (a : App) : Ui App :=
  match a.identify with
  | .running => do
      match ← perform (.send .identify) with
      | .ok (.identified best threshold candidates) =>
          pure { a with identify := .done best threshold candidates }
      | .ok (.error message) => pure { a with identify := .failed message }
      | .ok _ => pure { a with identify := .failed "unexpected" }
      | .error e => pure { a with identify := .failed e }
  | _ => pure a

def lowest (scores : List Score) : WithTop Score :=
  scores.foldl (fun low s => min low (s : WithTop Score)) ⊤

/-- `(min - 0.05).clamp(0.45, 0.75)` -/
def recommended : WithTop Score → ℚ
  | some (some q) => clamp (45 / 100) (75 / 100) (q - 5 / 100)
  | some none => 45 / 100
  | none => 75 / 100

def calibrated (scores : List Score) (attempts : Nat) : CalState :=
  if CAL_TARGET ≤ scores.length ∨ CAL_MAX_ATTEMPTS ≤ attempts then
    if scores.length < 3 then .notEnough else .review scores (recommended (lowest scores)) ""
  else .sampling scores attempts

def tickCalibrate (a : App) : Ui App :=
  match a.cal with
  | .sampling scores attempts => do
      match ← perform (.send (.verify a.user)) with
      | .ok (.verified _ score _) =>
          pure { a with cal := calibrated (scores ++ [score]) (attempts + 1) }
      | _ => pure { a with cal := calibrated scores (attempts + 1) }
  | _ => pure a

def tickScreen (a : App) : Ui App :=
  match a.screen with
  | .enroll => tickEnroll a
  | .identify => tickIdentify a
  | .calibrate => tickCalibrate a
  | _ => pure a

/-- `second` is whether a second has passed since the last re-detection. -/
def tick (second : Bool) (a : App) : Ui App :=
  if second then pollLive a >>= tickScreen else tickScreen a

/-! ## The loop -/

def fingerprintFlow (a : App) : Ui App :=
  if a.pendingFpEnable then do
    perform (.fingerprintEnable a.activeProfile)
    perform (.refreshFingerprint a.activeProfile)
    pure { a with pendingFpEnable := false }
  else pure a

def platformFlow (a : App) : Ui App :=
  if a.pendingPlatformSetup then do
    perform .platformSetup
    perform .pamStatus
    let install ← perform .detect
    pure { a with install := install, pendingPlatformSetup := false }
  else pure a

def recoveryFlow (a : App) : Ui App :=
  if a.pendingRecovery then do
    perform (.setRecovery a.activeProfile)
    pure { a with pendingRecovery := false }
  else pure a

def pendingFlows (a : App) : Ui App := fingerprintFlow a >>= platformFlow >>= recoveryFlow

/-- What the loop waits for: a key, or nothing it looks at. -/
inductive Input
  | key (code : Key) (shift : Bool)
  | idle

def round (fl : FloatLib) (input : Input) (second : Bool) (a : App) : Ui App := do
  let a ← (match input with
    | .key code shift => onKey fl a code shift
    | .idle => pure a : Ui App)
  let a ← pendingFlows a
  tick second a

end Wizard

end Linhello.Cli
