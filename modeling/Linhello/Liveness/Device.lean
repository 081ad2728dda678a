import Linhello.Common.Config
import Linhello.Liveness.Image
/-!
# Camera trust and camera identity

`device.rs` scores the driver behind a video node; `device_binding.rs` records
the USB identity of the enrolled cameras and compares it at verify time. The
readings from sysfs are arguments here.
-/

namespace Linhello.Liveness

open Common (contains toAsciiLowercase)

/-! ## Device trust -/

structure DeviceTrust where
  score : ℚ
  name : Option String
  driver : Option String
  deriving DecidableEq

def VIRTUAL_DRIVERS : List String := ["v4l2 loopback", "v4l2loopback"]

def VIRTUAL_NAME_FRAGMENTS : List String :=
  ["v4l2loopback", "obs virtual", "obs-camera", "dummy", "fakewebcam", "virtual camera",
    "virtualcam"]

def REAL_DRIVERS : List String :=
  ["uvcvideo", "ipu3-cio2", "intel_ipu6", "ipu6", "pwc", "v4l2 pci", "v4l2_pci"]

/-- Components of a path that is split at `/`; `cur` holds the current one backwards. -/
def components (cur : List Char) : List Char → List String
  | [] => [String.ofList cur.reverse]
  | c :: rest =>
      if c = '/' then String.ofList cur.reverse :: components [] rest
      else components (c :: cur) rest

/-- `Path::file_name`: the last normal component, none after `..`. -/
def fileName (path : String) : Option String :=
  match ((components [] path.toList).filter fun c => c ≠ "" && c ≠ ".").getLast? with
  | some ".." => none
  | last => last

/-- The trust score from what sysfs says about the node. -/
def deviceTrust (name driver : Option String) : DeviceTrust :=
  let drvLc := toAsciiLowercase (driver.getD "")
  let nameLc := toAsciiLowercase (name.getD "")
  let isVirtual := VIRTUAL_DRIVERS.any (contains drvLc) ||
    VIRTUAL_NAME_FRAGMENTS.any (contains nameLc)
  if isVirtual then { score := 0, name := name, driver := driver }
  else
    let isReal := REAL_DRIVERS.any (contains drvLc)
    { score := if isReal then 1 else 1 / 2, name := name, driver := driver }

/-! ## Device identity -/

structure DeviceIdentity where
  vid : String
  pid : String
  serial : String
  name : String
  deriving DecidableEq

structure CameraBinding where
  rgb : DeviceIdentity
  ir : Option DeviceIdentity
  deriving DecidableEq

def checkDevice (label : String) (enrolled current : DeviceIdentity) : Except String Unit := do
  if enrolled.vid ≠ current.vid then
    throw (label ++ " camera VID changed: enrolled " ++ enrolled.vid ++ ", now " ++ current.vid)
  if enrolled.pid ≠ current.pid then
    throw (label ++ " camera PID changed: enrolled " ++ enrolled.pid ++ ", now " ++ current.pid)
  if enrolled.serial ≠ "" ∧ enrolled.serial ≠ current.serial then
    throw (label ++ " camera serial changed: enrolled " ++ enrolled.serial ++ ", now " ++
      current.serial)

/-- Whether `current` matches the enrolled binding; the error names what diverged. -/
def CameraBinding.verify (enrolled current : CameraBinding) : Except String Unit := do
  checkDevice "RGB" enrolled.rgb current.rgb
  match enrolled.ir, current.ir with
  | some enrolledIr, some currentIr => checkDevice "IR" enrolledIr currentIr
  | some _, none => throw "IR camera was present at enrollment but is now missing"
  -- absent at enrollment, present now: an upgrade, not an attack
  | none, _ => pure ()

end Linhello.Liveness
