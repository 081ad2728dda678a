import Linhello.Common.FileTree
import Linhello.Host.Simulated
/-!
# The names of a camera

A camera is configured by any path that leads to its node, and `device.rs` looks sysfs up
under the last component of the path as it is given. Here sysfs and `/dev` are one file
tree with symbolic links.
-/

namespace Linhello.Liveness

open Common (FileTree TreeNode)
open Effect Host

/-! ## sysfs as a file tree -/

def treeAnswers (t : FileTree) : (o : Op) → o.Ans → Prop
  | .readText p, r => r = t.readToString p
  | .readLink p, r => r = (t.readLink p).bind fileName
  | .canonicalize p, r => r = t.canonicalize p
  | _, _ => True

def onTree (t : FileTree) : Semantics host Unit := fun _ o r _ => treeAnswers t o r

/-- `VIRTUAL_DRIVERS` and `VIRTUAL_NAME_FRAGMENTS`. -/
def isVirtual (name driver : Option String) : Bool :=
  VIRTUAL_DRIVERS.any (Common.contains (Common.toAsciiLowercase (driver.getD ""))) ||
    VIRTUAL_NAME_FRAGMENTS.any (Common.contains (Common.toAsciiLowercase (name.getD "")))

/-- `REAL_DRIVERS`. -/
def isReal (driver : Option String) : Bool :=
  REAL_DRIVERS.any (Common.contains (Common.toAsciiLowercase (driver.getD "")))

theorem deviceTrust_score (name driver : Option String) : (deviceTrust name driver).score =
    if isVirtual name driver then 0 else if isReal driver then 1 else 1 / 2 := by
  unfold deviceTrust isVirtual isReal
  dsimp only
  split
  · rfl
  · rfl

variable (t : FileTree)

def sysfsName (node : String) : Option String :=
  (t.readToString ("/sys/class/video4linux/" ++ node ++ "/name")).map Common.trim

def sysfsDriver (node : String) : Option String :=
  (t.readLink ("/sys/class/video4linux/" ++ node ++ "/device/driver")).bind fileName

/-- Under the last component of the path, sysfs names a virtual camera. -/
def virtualUnder (path : String) : Bool :=
  match fileName path with
  | none => false
  | some node => isVirtual (sysfsName t node) (sysfsDriver t node)

/-- Under the last component of the path, sysfs names a known driver. -/
def knownUnder (path : String) : Bool :=
  match fileName path with
  | none => false
  | some node => isReal (sysfsDriver t node)

def trustIn (path : String) : DeviceTrust :=
  match fileName path with
  | none => { score := 1 / 2, name := none, driver := none }
  | some node => deviceTrust (sysfsName t node) (sysfsDriver t node)

variable {t} {path node : String} {u u' : Unit}

theorem exec_readText {p : String} {r : Option String} :
    Exec (onTree t) (perform (.readText p)) u r u' ↔ r = t.readToString p := exec_perform

theorem exec_readLink {p : String} {r : Option String} :
    Exec (onTree t) (perform (.readLink p)) u r u' ↔ r = (t.readLink p).bind fileName :=
  exec_perform

theorem exec_validateCameraDevice {r : DeviceTrust} :
    Exec (onTree t) (validateCameraDevice path) u r u' ↔ r = trustIn t path := by
  unfold validateCameraDevice trustIn
  cases fileName path with
  | none => exact ⟨fun h => h.1, fun h => ⟨h, rfl⟩⟩
  | some node =>
      constructor
      · intro h
        obtain ⟨name, v, hname, h⟩ := exec_bind.1 h
        obtain ⟨driver, v', hdriver, h⟩ := exec_bind.1 h
        rw [exec_readText] at hname
        rw [exec_readLink] at hdriver
        rw [(exec_pure.1 h).1, hname, hdriver]
        rfl
      · intro h
        rw [h]
        apply exec_bind.2 ⟨_, (), exec_readText.2 rfl, _⟩
        exact exec_bind.2 ⟨_, (), exec_readLink.2 rfl, rfl, rfl⟩

theorem trustIn_score (path : String) : (trustIn t path).score =
    if virtualUnder t path then 0 else if knownUnder t path then 1 else 1 / 2 := by
  unfold trustIn virtualUnder knownUnder
  cases fileName path with
  | none => rfl
  | some node => exact deviceTrust_score _ _

theorem trustIn_score_eq_zero : (trustIn t path).score = 0 ↔ virtualUnder t path = true := by
  rw [trustIn_score]
  by_cases hvirtual : virtualUnder t path = true
  · rw [if_pos hvirtual]
    exact iff_of_true rfl hvirtual
  · rw [if_neg hvirtual]
    apply iff_of_false _ hvirtual
    by_cases hknown : knownUnder t path = true
    · rw [if_pos hknown]
      norm_num
    · rw [if_neg hknown]
      norm_num

/-! ## One camera, two names -/

/-- What `evaluate` is given besides the path of the camera. -/
structure Capture where
  pr : Process
  ev : LivenessEvaluator
  frame : Frame
  bbox : BBox
  landmarks : Landmarks
  ir : Option GrayImage
  spoofProb : Option ℚ
  temporalScore : Option ℚ

namespace Capture

def evaluate (c : Capture) (path : String) : Proc LivenessReport :=
  c.ev.evaluate c.pr c.frame c.bbox c.landmarks path c.ir c.spoofProb c.temporalScore

/-- The face is turned towards the camera, as `evaluate` asks before it looks at the device. -/
def Frontal (c : Capture) : Prop :=
  isFrontal (estimatePose c.landmarks).1 (estimatePose c.landmarks).2 MAX_ANGLE_DEG = true

variable {c : Capture} {report : LivenessReport}

/-- A face that is turned away ends the evaluation before the device is looked at. -/
theorem exists_uncertain (h : ¬c.Frontal) :
    ∃ report, Exec (onTree t) (c.evaluate path) () report () ∧ report.decision = .uncertain := by
  unfold Frontal at h
  unfold evaluate LivenessEvaluator.evaluate
  generalize estimatePose c.landmarks = pose at h ⊢
  obtain ⟨yaw, pitch⟩ := pose
  rw [Bool.not_eq_true] at h
  simp only [h, Bool.not_false, if_true]
  exact ⟨_, ⟨rfl, rfl⟩, rfl⟩

theorem spoof_of_virtual (hfrontal : c.Frontal) (hvirtual : virtualUnder t path = true)
    (h : Exec (onTree t) (c.evaluate path) () report ()) : report.decision = .spoof := by
  unfold Frontal at hfrontal
  unfold evaluate LivenessEvaluator.evaluate at h
  generalize estimatePose c.landmarks = pose at hfrontal h
  obtain ⟨yaw, pitch⟩ := pose
  simp only [hfrontal, Bool.not_true, Bool.false_eq_true, if_false] at h
  obtain ⟨dev, u, hdev, h⟩ := exec_bind.1 h
  have hscore : dev.score = 0 := by
    rw [exec_validateCameraDevice.1 hdev]
    exact trustIn_score_eq_zero.2 hvirtual
  rw [if_pos hscore] at h
  rw [h.1]

end Capture

/-- The camera at `node` is judged the same under the name `path`: both have the same score,
and if that is zero, every evaluation of a capture answers spoof. -/
structure JudgedAs (t : FileTree) (c : Capture) (path node : String) : Prop where
  score : ∀ r r', Exec (onTree t) (validateCameraDevice path) () r () →
    Exec (onTree t) (validateCameraDevice node) () r' () → r.score = r'.score
  spoof : ∀ r', Exec (onTree t) (validateCameraDevice node) () r' () → r'.score = 0 →
    ∀ report, Exec (onTree t) (c.evaluate path) () report () → report.decision = .spoof

/-- sysfs says of both names that they are virtual, or of neither, and then of both that
their driver is known, or of neither. -/
def SameReading (t : FileTree) (path node : String) : Prop :=
  (virtualUnder t path = true ↔ virtualUnder t node = true) ∧
    (virtualUnder t node = false → (knownUnder t path = true ↔ knownUnder t node = true))

theorem score_eq_iff :
    (trustIn t path).score = (trustIn t node).score ↔ SameReading t path node := by
  rw [trustIn_score, trustIn_score, SameReading]
  cases virtualUnder t path
  · cases virtualUnder t node
    · cases knownUnder t path
      · cases knownUnder t node <;> norm_num
      · cases knownUnder t node <;> norm_num
    · cases knownUnder t path <;> norm_num
  · cases virtualUnder t node
    · cases knownUnder t node <;> norm_num
    · norm_num

theorem JudgedAs.sameReading {c : Capture} (h : JudgedAs t c path node) :
    SameReading t path node := by
  have hscore := h.score _ _ (exec_validateCameraDevice.2 rfl) (exec_validateCameraDevice.2 rfl)
  exact score_eq_iff.1 hscore

/-- Every name of a camera is judged as its node if and only if sysfs says the same under the
last component of the name as under that of the node, and a face before a virtual camera is
turned towards it. -/
theorem validate_camera_device_iff (t : FileTree) (c : Capture) (path : String) :
    (∀ node, t.canonicalize path = some node → JudgedAs t c path node) ↔
      ∀ node, t.canonicalize path = some node → SameReading t path node ∧
        (virtualUnder t node = true → c.Frontal) := by
  have hiff : ∀ node, JudgedAs t c path node ↔
      SameReading t path node ∧ (virtualUnder t node = true → c.Frontal) := by
    intro node
    constructor
    · intro h
      refine ⟨h.sameReading, ?_⟩
      intro hvirtual
      by_contra haway
      obtain ⟨report, hrun, huncertain⟩ : ∃ report,
          Exec (onTree t) (c.evaluate path) () report () ∧ report.decision = .uncertain :=
        c.exists_uncertain haway
      have hzero := trustIn_score_eq_zero.2 hvirtual
      have hspoof := h.spoof _ (exec_validateCameraDevice.2 rfl) hzero report hrun
      rw [huncertain] at hspoof
      cases hspoof
    · rintro ⟨hsame, hfrontal⟩
      constructor
      · intro r r' hr hr'
        rw [exec_validateCameraDevice.1 hr, exec_validateCameraDevice.1 hr']
        exact score_eq_iff.2 hsame
      · intro r' hr' hzero report hrun
        rw [exec_validateCameraDevice.1 hr'] at hzero
        have hvirtual := trustIn_score_eq_zero.1 hzero
        exact Capture.spoof_of_virtual (hfrontal hvirtual) (hsame.1.2 hvirtual) hrun
  constructor
  · intro h node hnode
    exact (hiff node).1 (h node hnode)
  · intro h node hnode
    exact (hiff node).2 (h node hnode)

/-- A loopback camera under its own node, and under a stable name that an operator gave it. -/
def loopbackTree : FileTree := .ofList
  [(["dev"], .dir), (["dev", "v4l"], .dir), (["dev", "v4l", "by-id"], .dir),
    (["dev", "video9"], .device), (["dev", "v4l", "by-id", "webcam"], .link "../../video9"),
    (["sys"], .dir), (["sys", "class"], .dir), (["sys", "class", "video4linux"], .dir),
    (["sys", "class", "video4linux", "video9"], .dir),
    (["sys", "class", "video4linux", "video9", "name"],
      .file (some "Dummy video device (0x0000)\n"))]

/-- A face that looks straight at the camera, on a machine without any model. -/
def plainCapture : Capture where
  pr := simulatedProcess
  ev := { config := LivenessConfig.fromEnv simulatedProcess, antispoof := none }
  frame := .fromPixel 20 20 ⟨200, 150, 130⟩
  bbox := ⟨5, 5, 15, 15⟩
  landmarks := (frontalFace ⟨5, 5, 15, 15⟩).landmarks
  ir := none
  spoofProb := none
  temporalScore := none

/-- The stable name of a loopback camera is not judged as its node. -/
theorem not_validate_camera_device : ¬ ∀ (t : FileTree) (c : Capture) (path node : String),
    t.canonicalize path = some node → JudgedAs t c path node := by
  intro hall
  have hnode : loopbackTree.canonicalize "/dev/v4l/by-id/webcam" = some "/dev/video9" := by
    decide +kernel
  have hsame := (hall loopbackTree plainCapture _ _ hnode).sameReading.1
  have hvirtual : virtualUnder loopbackTree "/dev/video9" = true := by decide +kernel
  have hplain : virtualUnder loopbackTree "/dev/v4l/by-id/webcam" = false := by decide +kernel
  rw [hvirtual, hplain] at hsame
  exact Bool.false_ne_true (hsame.2 rfl)

end Linhello.Liveness
