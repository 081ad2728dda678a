import Linhello.Biometrics.Pipeline
import Linhello.Core.Store
/-!
# The daemon's gates

What stands between a request and a credential: the camera binding, the user's
template under the cached key, and a live capture that passes the calibrated IR
gate.
-/

namespace Linhello.Daemon

open Common Linhello.Core Effect Host Liveness Biometrics

/-- The error of a function whose result is a `Result<_, String>`. -/
abbrev Checked (α : Type) := ExceptT String (Program host) α

/-- `map_err(|e| e.to_string())`. -/
def displayed {α : Type} (f : LinuxHelloError → String) (p : Fallible α) : Checked α :=
  ExceptT.mk ((Except.mapError f) <$> p.run)

/-! ## The template-key cache -/

/-- Look the key up under the cache lock; on a miss, get or create it with the
lock released, then insert it. -/
def cachedTemplateKey (user : String) : Checked Bytes := do
  match ← perform (.cacheGet user) with
  | some key => pure key
  | none =>
      let key ← displayed LinuxHelloError.display (ensureTemplateKey user)
      perform (.cacheInsert user key)
      pure key

/-! ## Camera binding -/

/-- `DeviceIdentity::from_device`: probe up to six times. -/
def fromDevice (path : String) : Nat → Proc (Option DeviceIdentity)
  | 0 => pure none
  | attempts + 1 => do
      match ← perform (.probeCamera path) with
      | some id => pure (some id)
      | none => fromDevice path attempts

def PROBE_ATTEMPTS : Nat := 6

def snapshotCameraBinding : Proc CameraBinding := do
  let rgbPath ← perform .rgbDevice
  let irPath ← perform .irDevice
  let rgb ← fromDevice rgbPath PROBE_ATTEMPTS
  let ir ← match irPath with
    | none => pure none
    | some p => fromDevice p PROBE_ATTEMPTS
  pure { rgb := rgb.getD { vid := "", pid := "", serial := "", name := "unknown" }, ir := ir }

/-- Best effort: neither the write nor the mode change is checked. -/
def saveCameraBinding (user : String) (binding : CameraBinding) : Proc Unit := do
  let _ ← perform (.write (.user user .cameraBinding) (.value binding))
  let _ ← perform (.setPermissions (.user user .cameraBinding))

def enrolledBinding (user : String) : Proc (Option CameraBinding) := do
  match ← perform (.read (.user user .cameraBinding)) with
  | .ok (.value b) => pure (some b)
  | _ => pure none

def checkCameraBinding (user : String) : Checked Unit := do
  if !(← perform (.pathExists (.user user .cameraBinding))) then
    return ()
  match ← perform (.read (.user user .cameraBinding)) with
  | .error e => throw ("read binding: " ++ e.display)
  | .ok .invalidUtf8 => throw "read binding: stream did not contain valid UTF-8"
  | .ok (.malformed e) => throw ("parse binding: " ++ e)
  | .ok (.value enrolled) =>
      let current ← snapshotCameraBinding
      ExceptT.mk (pure (enrolled.verify current))

/-! ## The calibrated IR gate -/

/-- A calibration that is missing, unreadable or malformed reads as empty. -/
def loadIrCalibration (user : String) : Proc IrCalibration := do
  match ← perform (.read (.user user .irCalibration)) with
  | .ok (.value c) => pure c
  | _ => pure IrCalibration.default

def saveIrCalibration (user : String) (cal : IrCalibration) : Proc Unit := do
  let _ ← perform (.write (.user user .irCalibration) (.value cal))
  let _ ← perform (.setPermissions (.user user .irCalibration))

def irGateDisabled (pr : Process) : Bool := pr.envOff "LINHELLO_IR_GATE"

/-- The verdict of `ir_gate_check` on a calibration that has been loaded. -/
def irGateVerdict (pr : Process) (cal : IrCalibration) (signals : LivenessSignals) :
    Except String Unit :=
  if !cal.isReady then .ok ()
  else
    match IrObservation.fromSignals signals with
    | some obs =>
        match cal.gate pr.fl pr.env obs with
        | .pass => .ok ()
        | .reject reason => .error ("liveness check failed: " ++ reason)
        | .notCalibrated => .ok ()
    | none =>
        .error "IR liveness required (you enrolled with IR) but no IR frame was captured this attempt"

def irGateCheck (pr : Process) (user : String) (signals : LivenessSignals) : Checked Unit := do
  if irGateDisabled pr then
    return ()
  let cal ← loadIrCalibration user
  ExceptT.mk (pure (irGateVerdict pr cal signals))

/-- Capture, embed and apply the IR gate; every credential-releasing path goes
through here. -/
def captureEmbedGated (pr : Process) (user : String) : Checked (List F32) := do
  let (live, signals) ← displayed LinuxHelloError.display (captureAndEmbedSignals pr)
  irGateCheck pr user signals
  pure live

/-- The enrolled samples, behind the camera binding and the TPM-sealed key. -/
def loadUserSamples (pr : Process) (user : String) : Checked (List (List ℚ)) := do
  checkCameraBinding user
  let key ← ExceptT.mk ((Except.mapError fun e =>
    "template key unavailable (" ++ e ++ "); refusing plaintext fallback") <$>
      (cachedTemplateKey user).run)
  let raw ← displayed LinuxHelloError.display (loadEncryptedEmbedding pr user key)
  ExceptT.mk (pure ((parseRawEmbeddings pr.fl raw).mapError LinuxHelloError.display))

end Linhello.Daemon
