import Linhello.Common.Ipc
import Linhello.Core.Crypto
import Linhello.Effect.Guided
import Linhello.Biometrics.Embedding
import Linhello.Liveness.Antispoof
import Linhello.Liveness.Device
import Linhello.Liveness.Ir
/-!
# The daemon's operations on its host

Every access the daemon makes to something outside its own data is one
operation: a file under the config root, the template-key cache behind its
lock, a TPM call, the cameras, sysfs, the account database. Programs over this
signature are what the handlers of the daemon are translated to.

A file holds what its only reader makes of its bytes: a JSON file is not UTF-8,
or does not parse, or is a value.
-/

namespace Linhello.Host

open Common Linhello.Core Liveness Biometrics Effect

/-! ## Files -/

/-- Files of one user, in `CONFIG_ROOT/<user>/`. -/
inductive UserFile
  | passwordEnvelope
  | templateKeyEnvelope
  | embeddingEnc
  | embeddingBin
  | recoveryEnvelope
  | cameraBinding
  | irCalibration
  | displayName
  deriving DecidableEq, Repr

def UserFile.fileName : UserFile → String
  | .passwordEnvelope => "password_envelope.json"
  | .templateKeyEnvelope => "template_key_envelope.json"
  | .embeddingEnc => "embedding.enc"
  | .embeddingBin => "embedding.bin"
  | .recoveryEnvelope => "recovery_envelope.json"
  | .cameraBinding => "camera_binding.json"
  | .irCalibration => "ir_calibration.json"
  | .displayName => "display_name"

/-- Files directly under `CONFIG_ROOT` that the handlers open themselves. -/
inductive RootFile
  | tpmEnvelope
  | policyConf
  deriving DecidableEq, Repr

/-- A JSON file as its reader sees it. -/
inductive Json (α : Type)
  | invalidUtf8
  | malformed (msg : String)
  | value (a : α)
  deriving DecidableEq

/-- `read_to_string` and `serde_json::from_str` in one. -/
def Json.parse {α : Type} : Json α → Except LinuxHelloError α
  | .invalidUtf8 => .error (.io (.other "stream did not contain valid UTF-8"))
  | .malformed msg => .error (.serde msg)
  | .value a => .ok a

inductive Path
  | root (f : RootFile)
  | user (u : String) (f : UserFile)
  deriving DecidableEq, Repr

/-- The directory a file lies in: a user's, or `CONFIG_ROOT` for `none`. -/
def Path.parent : Path → Option String
  | .root _ => none
  | .user u _ => some u

abbrev UserFile.Data : UserFile → Type
  | .passwordEnvelope | .templateKeyEnvelope => Json SealedEnvelope
  | .embeddingEnc | .embeddingBin => Bytes
  | .recoveryEnvelope => Json RecoveryEnvelope
  | .cameraBinding => Json CameraBinding
  | .irCalibration => Json IrCalibration
  | .displayName => Option String

abbrev RootFile.Data : RootFile → Type
  | .tpmEnvelope => Json SealedEnvelope
  -- a text file, `none` when it is not UTF-8
  | .policyConf => Option String

abbrev Path.Data : Path → Type
  | .root f => f.Data
  | .user _ f => f.Data

/-! ## Operations -/

structure CameraInfo where
  path : String
  privacy : Option Bool
  deriving DecidableEq

inductive Op
  | pathExists (p : Path)
  | read (p : Path)
  | write (p : Path) (d : p.Data)
  | setPermissions (p : Path)
  | removeFile (p : Path)
  /-- `create_dir_all` of a user's directory, of `CONFIG_ROOT` for `none`. -/
  | createDirAll (user : Option String)
  /-- The sub-directories of `CONFIG_ROOT`. -/
  | readRoot
  | readUserDir (user : String)
  | removeDir (user : String)
  /-- The size of `embedding.enc`, or of the legacy template. -/
  | templateLen (user : String) (legacy : Bool)
  | cacheGet (user : String)
  | cacheInsert (user : String) (key : Bytes)
  | cacheRemove (user : String)
  | tpmSeal (secret : Bytes)
  | tpmUnseal (env : SealedEnvelope)
  | detectSecurityLevel
  | diagnosePcrs (env : SealedEnvelope)
  | randomBytes (n : Nat)
  | rgbDevice
  | irDevice
  | captureBurst (path : String) (n : Nat)
  | captureIrFrom (path : String)
  | enumerateCameras
  | canonicalize (path : String)
  | probeCamera (path : String)
  /-- `read_to_string` under sysfs or `/run`, `none` on any error. -/
  | readText (path : String)
  /-- File name of a symbolic link's target. -/
  | readLink (path : String)
  | uidForName (name : String)
  | bootMode
  | secureBoot
  | loaderIdentity
  | probeCapabilities
  | positionSample

abbrev Op.Ans : Op → Type
  | .pathExists _ => Bool
  | .read p => Except IoError p.Data
  | .write _ _ | .setPermissions _ | .removeFile _ | .createDirAll _ | .removeDir _ =>
      Except IoError Unit
  | .readRoot => Except IoError (List String)
  | .readUserDir _ => Except IoError (List UserFile)
  | .templateLen _ _ => Except IoError Nat
  | .cacheGet _ => Option Bytes
  | .cacheInsert _ _ | .cacheRemove _ => Unit
  | .tpmSeal _ => Except LinuxHelloError SealedEnvelope
  | .tpmUnseal _ => Except LinuxHelloError Bytes
  | .detectSecurityLevel => SecurityLevel
  | .diagnosePcrs _ => Except LinuxHelloError (List Nat)
  | .randomBytes _ => Bytes
  | .rgbDevice => String
  | .irDevice => Option String
  | .captureBurst _ _ => Except LinuxHelloError (List Frame)
  | .captureIrFrom _ => Except LinuxHelloError GrayImage
  | .enumerateCameras => List CameraInfo
  | .canonicalize _ => Option String
  | .probeCamera _ => Option DeviceIdentity
  | .readText _ | .readLink _ => Option String
  | .uidForName _ => Option Nat
  | .bootMode => BootMode
  | .secureBoot => Bool
  | .loaderIdentity => Option String
  | .probeCapabilities => CapabilityReport
  | .positionSample => Except LinuxHelloError PositionReport

abbrev host : Signature where
  Op := Op
  Ans := Op.Ans

abbrev Proc (α : Type) := Program host α

/-- A function that returns `linhello_common::Result`. -/
abbrev Fallible (α : Type) := ExceptT LinuxHelloError (Program host) α

abbrev perform (o : Op) : Proc o.Ans := @Program.perform host o

/-- `?` on an I/O result, which converts the error. -/
def io {α : Type} (p : Proc (Except IoError α)) : Fallible α :=
  ExceptT.mk ((Except.mapError .io) <$> p)

/-- `?` on an operation that already answers with the workspace's error type. -/
def fallible {α : Type} (p : Proc (Except LinuxHelloError α)) : Fallible α := ExceptT.mk p

/-- `?` on a computed result. -/
def orFail {α : Type} (r : Except LinuxHelloError α) : Fallible α := ExceptT.mk (pure r)

/-- Read and parse a JSON file; `as` tells how the file's content is read. -/
def readJson {α : Type} (p : Path) (as : p.Data → Json α) : Fallible α := do
  let d ← io (perform (.read p))
  orFail (as d).parse

section Exec

variable {W α : Type} {S : Semantics host W} {w w' : W}

@[simp] theorem exec_fallible {p : Proc (Except LinuxHelloError α)} {r : Except LinuxHelloError α} :
    Exec S (fallible p).run w r w' ↔ Exec S p w r w' := Iff.rfl

@[simp] theorem exec_orFail {x r : Except LinuxHelloError α} :
    Exec S (orFail x).run w r w' ↔ r = x ∧ w' = w := Iff.rfl

@[simp] theorem exec_io {p : Proc (Except IoError α)} {r : Except LinuxHelloError α} :
    Exec S (io p).run w r w' ↔ ∃ x, Exec S p w x w' ∧ r = x.mapError .io := by
  have hrun : (io p).run = Except.mapError .io <$> p := rfl
  rw [hrun, exec_map]

theorem exec_io_ok {p : Proc (Except IoError α)} {a : α} :
    Exec S (io p).run w (.ok a) w' ↔ Exec S p w (.ok a) w' := by
  rw [exec_io]
  constructor
  · rintro ⟨x, hp, hx⟩
    cases x with
    | error e => cases hx
    | ok b =>
        rw [Except.ok.inj hx]
        exact hp
  · intro hp
    exact ⟨.ok a, hp, rfl⟩

theorem exec_readJson_ok {p : Path} {as : p.Data → Json α} {a : α} :
    Exec S (readJson p as).run w (.ok a) w' ↔
      ∃ d, S w (.read p) (.ok d) w' ∧ (as d).parse = .ok a := by
  unfold readJson
  simp only [exec_exceptT_bind_ok, exec_io_ok, exec_perform, exec_orFail]
  constructor
  · rintro ⟨d, v, hread, hparse, rfl⟩
    exact ⟨d, hread, hparse.symm⟩
  · rintro ⟨d, hread, hparse⟩
    exact ⟨d, w', hread, hparse.symm, rfl⟩

@[simp] theorem parse_eq_ok {j : Json α} {a : α} : j.parse = .ok a ↔ j = .value a := by
  cases j <;> simp [Json.parse]

@[simp] theorem mapError_eq_ok {β ε ε' : Type} {f : ε → ε'} {x : Except ε β} {b : β} :
    x.mapError f = .ok b ↔ x = .ok b := by
  cases x <;> simp [Except.mapError]

end Exec

section Rules

variable {W α β ε : Type} {S : Semantics host W} {v v' u : W}

theorem exec_lift_bind {p : Proc α} {f : α → ExceptT ε (Program host) β} {r : Except ε β} :
    Exec S (liftM p >>= f).run v r v' ↔ ∃ a u, Exec S p v a u ∧ Exec S (f a).run u r v' := by
  rw [exec_exceptT_bind]
  simp only [exec_exceptT_lift]
  constructor
  · rintro (⟨a, u, ⟨a', hp, heq⟩, hf⟩ | ⟨e, ⟨a, -, heq⟩, -⟩)
    · obtain rfl := Except.ok.inj heq
      exact ⟨a, u, hp, hf⟩
    · cases heq
  · rintro ⟨a, u, hp, hf⟩
    exact .inl ⟨a, u, ⟨a, hp, rfl⟩, hf⟩

theorem exec_io_bind_of_ok {p : Proc (Except IoError α)} {f : α → Fallible β} {a : α}
    {r : Except LinuxHelloError β} (hp : ∀ x t, Exec S p v x t → x = .ok a ∧ t = u)
    (h : Exec S (io p >>= f).run v r v') : Exec S (f a).run u r v' := by
  rcases exec_exceptT_bind.1 h with ⟨b, t, hb, hf⟩ | ⟨e, he, -⟩
  · obtain ⟨hx, rfl⟩ := hp _ _ (exec_io_ok.1 hb)
    obtain rfl := Except.ok.inj hx
    exact hf
  · obtain ⟨x, hx, herr⟩ := exec_io.1 he
    obtain ⟨rfl, -⟩ := hp _ _ hx
    cases herr

theorem exec_orFail_bind_ok {x : Except LinuxHelloError α} {a : α} {f : α → Fallible β}
    {r : Except LinuxHelloError β} (hx : x = .ok a)
    (h : Exec S (orFail x >>= f).run v r v') : Exec S (f a).run v r v' := by
  subst hx
  exact h

end Rules

section Only

variable {α : Type} {P : Op → Prop}

theorem only_fallible {p : Proc (Except LinuxHelloError α)} (hp : p.Only P) :
    (fallible p).run.Only P := hp

theorem only_orFail {r : Except LinuxHelloError α} : (orFail r).run.Only P := .ret _

theorem only_io {p : Proc (Except IoError α)} (hp : p.Only P) : (io p).run.Only P := only_map hp

theorem only_readJson {p : Path} {as : p.Data → Json α} (hp : P (.read p)) :
    (readJson p as).run.Only P :=
  only_exceptT_bind (only_io (only_perform hp)) fun _ => only_orFail

end Only

/-- An operation whose answer may be relied on in what follows. -/
theorem guided_perform_bind {α : Type} {A : Event host → Prop} {P : Op → Prop}
    {R : α → Prop} {o : Op}
    {f : o.Ans → Proc α} (here : P o) (rest : ∀ r, A ⟨o, r⟩ → (f r).Guided A P R) :
    (perform o >>= f).Guided A P R :=
  .call here rest

/-! ## The daemon process -/

/-- What stays fixed while a daemon process runs: its environment, the platform's
libraries, and whatever it loads once and keeps in a `OnceLock`. -/
structure Process where
  env : String → Option String
  fl : FloatLib
  cl : CryptoLib
  /-- `Detector::cached`: the load error, or detection of the faces in a frame. -/
  detector : Except String (Frame → Except LinuxHelloError (List Face))
  align : Frame → Face → Except LinuxHelloError Frame
  /-- `Embedder::cached`: the load error, or inference followed by `l2_normalize`. -/
  embedder : Except String (Frame → Except LinuxHelloError (List F32))
  /-- Which model files existed when the liveness evaluator was built, and the
  session each of them loads as. -/
  modelExists : String → Bool
  loadSession : String → Except String (ℚ → Frame → BBox → Except String (List ℚ))
  /-- `match_threshold` in `settings.conf` at its first use. -/
  thresholdSetting : Option String

/-- A knob that is on only for an explicit truthy value. -/
def Process.envOn (pr : Process) (var : String) : Bool :=
  ((pr.env var).map fun v => ["1", "true", "yes", "on"].contains v).getD false

/-- A knob that is set to an explicit falsey value. -/
def Process.envOff (pr : Process) (var : String) : Bool :=
  ((pr.env var).map fun v => ["0", "false", "no", "off"].contains v).getD false

end Linhello.Host
