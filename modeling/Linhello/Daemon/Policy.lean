import Linhello.Common.Biopolicy
import Linhello.Daemon.Gate
/-!
# Deciding what a request may do

The tier of a user, the per-operation policy from `policy.conf`, and the action
both `Authenticate` and its pre-flight derive from them.
-/

namespace Linhello.Daemon

open Common Effect Host Liveness

/-- `config::read_kv("policy.conf", key)`; an unreadable file gives no value. -/
def readKv (key : String) : Proc (Option String) := do
  match ← perform (.read (.root .policyConf)) with
  | .ok (some text) => pure (kvLookup key text)
  | _ => pure none

/-- Secure for a user who enrolled with an IR camera. -/
def userTier (user : String) : Proc Tier := do
  match ← enrolledBinding user with
  | some b => pure (if b.ir.isSome then .secure else .convenience)
  | none => pure .convenience

/-- The enrolled tier unless `tier=` in `policy.conf` overrides it. -/
def effectiveTier (user : String) : Proc Tier := do
  match ← readKv "tier" with
  | some "convenience" => pure .convenience
  | some "secure" => pure .secure
  | _ => userTier user

/-- Whether the text of a logind user file says the session is live. -/
def stateIsLive (text : String) : Bool :=
  (lines text).any fun l =>
    match stripPrefix l "STATE=" with
    | some s => ["active", "online"].contains (trim s)
    | none => false

def sessionWarm (user : String) : Proc Bool := do
  match ← perform (.uidForName user) with
  | none => pure false
  | some uid =>
      match ← perform (.readText ("/run/systemd/users/" ++ toString uid)) with
      | some text => pure (stateIsLive text)
      | none => pure false

def policyKey (key : String) : Proc (Option ModalityReq) := do
  let v ← readKv key
  pure (v.bind ModalityReq.parse)

/-- The defaults, with each key that `policy.conf` sets to a known value. -/
def currentPolicy : Proc Policy := do
  let screenUnlock ← policyKey "screen_unlock"
  let login ← policyKey "login"
  let sudoReq ← policyKey "sudo"
  let polkit ← policyKey "polkit"
  pure { screenUnlock := screenUnlock.getD Policy.default.screenUnlock
         login := login.getD Policy.default.login
         sudoReq := sudoReq.getD Policy.default.sudoReq
         polkit := polkit.getD Policy.default.polkit }

def faceIsActiveMethod : Proc Bool := do
  let v ← readKv "method"
  pure (v.bind UnlockMethod.parse != some .fingerprint)

structure Plan where
  action : Action
  tier : Tier
  cls : OperationClass
  warm : Bool

/-- The last two overrides of `plan_action`: a non-face method denies, and the
credential is never released to a peer that is not root. -/
def capAction (faceActive peerIsRoot : Bool) (action : Action) : Action :=
  let action := if faceActive then action else .deny
  if action = .unseal ∧ !peerIsRoot then .deny else action

def planAction (user service : String) (peerIsRoot : Bool) : Proc Plan := do
  let warm ← sessionWarm user
  let cls := classify service warm
  let tier ← effectiveTier user
  let policy ← currentPolicy
  let faceActive ← faceIsActiveMethod
  pure { action := capAction faceActive peerIsRoot (Biopolicy.decide cls tier policy)
         tier := tier, cls := cls, warm := warm }

theorem eq_unseal_of_capAction {faceActive peerIsRoot : Bool} {action : Action}
    (h : capAction faceActive peerIsRoot action = .unseal) :
    action = .unseal ∧ faceActive = true ∧ peerIsRoot = true := by
  cases faceActive <;> cases peerIsRoot <;> cases action <;> simp_all [capAction]

def Action.label : Action → String
  | .deny => "deny"
  | .verify => "verify"
  | .unseal => "unseal"

/-- Why the camera cannot be used right now, if it cannot. -/
def cameraBlockNotice : Proc (Option String) := do
  let cams ← perform .enumerateCameras
  let rgb ← perform .rgbDevice
  let canon := fun (p : String) => do
    let c ← perform (.canonicalize p)
    pure (c.getD p)
  let rgbNode ← canon rgb
  let found ← cams.findM? fun c => do
    let node ← canon c.path
    pure (node == rgbNode)
  match found with
  | some c =>
      if c.privacy = some true then
        pure (some ("Camera privacy switch is on — toggle the camera-privacy key " ++
          "(e.g. Fn+F10) to use face unlock"))
      else pure none
  | none =>
      pure (some ("No camera detected — it may be disconnected or a hardware privacy switch " ++
        "is on; using your password"))

def doAuthIntent (user service : String) (peerIsRoot : Bool) : Proc Response := do
  let plan ← planAction user service peerIsRoot
  let notice ← if plan.action = .deny then pure none else cameraBlockNotice
  pure (.authPlan (plan.action ≠ .deny) (Action.label plan.action) notice)

def operationRow (tier : Tier) (policy : Policy) (operation : String) (cls : OperationClass) :
    OperationPolicy :=
  let action := Biopolicy.decide cls tier policy
  { operation := operation
    action := Action.label action
    effect := match action with
      | .verify => "match only — unlocks the live session, no credential released"
      | .unseal => "match + IR liveness — releases your password to log in / elevate"
      | .deny => "face not used — falls back to your password" }

/-- Whether the resolved cameras still satisfy an enrolled IR binding. -/
def hardwareReadiness (binding : Option CameraBinding) : Proc (Bool × String) := do
  match binding with
  | none => pure (true, "")
  | some b =>
      if b.ir.isSome then do
        let current ← snapshotCameraBinding
        match b.verify current with
        | .ok () => pure (true, "")
        | .error _ =>
            if current.ir.isNone then
              pure (false, "IR camera not detected — login & sudo fall back to your password " ++
                "until it's reconnected")
            else pure (false, "enrolled camera changed — login & sudo fall back to your password")
      else pure (true, "")

def doPolicyStatus (user : String) : Proc Response := do
  let binding ← enrolledBinding user
  let hardware ← userTier user
  let tier ← effectiveTier user
  let policy ← currentPolicy
  let (ready, note) ← hardwareReadiness binding
  pure (.policyStatus
    { tier := tier.asStr
      secure := tier = .secure
      hardwareTier := hardware.asStr
      overridden := tier ≠ hardware
      enrolled := binding.isSome
      hardwareReady := ready
      hardwareNote := note
      ops := [operationRow tier policy "Screen unlock" .screenUnlock,
        operationRow tier policy "Login (greeter)" .login,
        operationRow tier policy "sudo / su / polkit" .elevation,
        operationRow tier policy "ssh / remote" .remote,
        operationRow tier policy "unknown service" .unknown] })

end Linhello.Daemon
