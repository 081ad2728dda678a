import Linhello.Cli.Update
import Linhello.Common.Utf8
/-!
# What is downloaded

`fetchModels` installs the face models and `fetchOnnx` the inference runtime. Both download
into a temporary directory and compare a digest with a pinned one: the first of the models
it installs, the second of the archive it unpacks.
-/

namespace Linhello.Cli.Downloads

open Common Effect

/-! ## Operations -/

/-- Failures carry the text of the error. -/
inductive Op
  | pathExists (path : String)
  | isDir (path : String)
  | onPath (bin : String)
  /-- `platform::onnxruntime_dylib`. -/
  | onnxruntimeDylib
  /-- The directory under the temporary one, named after the process. -/
  | tempDir (stem : String)
  | createDirAll (path : String)
  | removeDirAll (path : String)
  | removeFile (path : String)
  /-- The names in a directory; there are none in one that cannot be read. -/
  | readDir (path : String)
  | copy (source target : String)
  | setMode (path : String) (mode : Nat)
  | symlink (target link : String)
  /-- Run a command with its output on the terminal; whether it succeeded. -/
  | status (cwd prog : String) (args : List String)
  /-- Run a command and capture its output. -/
  | output (prog : String) (args : List String)

abbrev Op.Ans : Op → Type
  | .pathExists _ | .isDir _ | .onPath _ => Bool
  | .onnxruntimeDylib => Option String
  | .tempDir _ => String
  | .createDirAll _ | .copy _ _ | .symlink _ _ => Except String Unit
  | .removeDirAll _ | .removeFile _ | .setMode _ _ => Unit
  | .readDir _ => List String
  | .status _ _ _ => Except String Bool
  | .output _ _ => Except String Output

abbrev host : Signature := ⟨Op, Op.Ans⟩

abbrev Proc (α : Type) := Program host α

abbrev Fallible (α : Type) := ExceptT String (Program host) α

abbrev perform (o : Op) : Proc o.Ans := @Program.perform host o

/-- `ok_or`. -/
def okOr {α : Type} (a : Option α) (e : String) : Fallible α :=
  match a with
  | some a => pure a
  | none => throw e

def runStreamed (cwd prog : String) (args : List String) : Fallible Unit := do
  let success ← attempt (Update.notRun prog) (perform (.status cwd prog args))
  if success then pure ()
  else throw (prog ++ " " ++ " ".intercalate args ++ " failed (see output above)")

/-- The first of the tools that is not on the path. -/
def requireTools : List String → Fallible Unit
  | [] => pure ()
  | t :: ts => do
      if ← liftM (perform (.onPath t)) then requireTools ts
      else throw ("`" ++ t ++ "` not found — install it and retry")

/-! ## Digests -/

def sha256Of (path : String) : Fallible String := do
  let out ← attempt ("sha256sum: " ++ ·) (perform (.output "sha256sum" [path]))
  if out.success then pure ((splitWhitespace out.stdout).head?.getD "")
  else throw "sha256sum failed"

/-- `str::ends_with` -/
def endsWith (s pat : String) : Bool := pat.toList.isSuffixOf s.toList

def verifyModel (path label pinned : String) : Fallible String := do
  let got ← sha256Of path
  if pinned = "" || endsWith pinned "PLACEHOLDER" then
    pure (label ++ " sha256 " ++ got ++ " (not pinned — verification skipped)")
  else if got ≠ pinned then
    throw (label ++ " sha256 mismatch: got " ++ got ++ ", expected " ++ pinned ++
      " — refusing to install")
  else pure (label ++ " sha256 verified")

/-! ## Looking for a file -/

def named (name dir entry : String) : List String :=
  if entry = name then [dir ++ "/" ++ entry] else []

/-- What `look` finds, entry by entry. -/
def eachEntry (dir : String) (look : String → Proc (List String)) : Proc (List String) := do
  let entries ← perform (.readDir dir)
  let found ← entries.mapM look
  pure found.flatten

/-- Everything called `name` below `dir`, so many directories deep. -/
def walk (name : String) : Nat → String → Proc (List String)
  | 0, dir => eachEntry dir fun e => do
      let _ ← perform (.isDir (dir ++ "/" ++ e))
      pure (named name dir e)
  | depth + 1, dir => eachEntry dir fun e => do
      if ← perform (.isDir (dir ++ "/" ++ e)) then walk name depth (dir ++ "/" ++ e)
      else pure (named name dir e)

def findUnder (dir name : String) : Proc (Option String) := do
  return (← walk name 4 dir).getLast?

/-! ## The models -/

def BUFFALO_URL : String :=
  "https://github.com/deepinsight/insightface/releases/download/v0.7/buffalo_l.zip"

def DET_SHA256 : String := "5838f7fe053675b1c7a08b633df49e7af5495cee0493c7dcf6697200b85b5b91"

def REC_SHA256 : String := "4c06341c33c2ca1f86781dab0e829f88ad5b64be9fba56e56bc9ebdefc619e43"

def CONFIG_ROOT : String := "/etc/linhello"

def DET : String := "/etc/linhello/det_10g.onnx"

def FACE : String := "/etc/linhello/face.onnx"

def curlArgs (out url : String) : List String :=
  ["-fL", "--proto", "=https", "--tlsv1.2", "-o", out, url]

/-- Up to the check of both models: where they are, and the log. -/
def verifiedModels (tmp : String) : Fallible (String × String × List String) := do
  let zip := tmp ++ "/" ++ "buffalo_l.zip"
  runStreamed tmp "curl" (curlArgs zip BUFFALO_URL)
  let ex := tmp ++ "/" ++ "x"
  runStreamed tmp "unzip" ["-oq", zip, "-d", ex]
  let detSrc ← okOr (← liftM (findUnder ex "det_10g.onnx")) "det_10g.onnx not found in archive"
  let recSrc ← okOr (← liftM (findUnder ex "w600k_r50.onnx")) "w600k_r50.onnx not found in archive"
  let det ← verifyModel detSrc "detector (det_10g.onnx)" DET_SHA256
  let recognizer ← verifyModel recSrc "recognizer (w600k_r50.onnx)" REC_SHA256
  pure (detSrc, recSrc,
    ["downloading buffalo_l (~250 MB) from InsightFace v0.7…", det, recognizer])

def installFile (mode : Nat) (source target : String) : Fallible Unit := do
  attempt (fun e => "install " ++ target ++ ": " ++ e) (perform (.copy source target))
  liftM (perform (.setMode target mode))

/-- The line for the log when a command went well. -/
def whenStreamed (prog : String) (args : List String) (line : String) : Fallible (List String) := do
  match ← caught (runStreamed "/" prog args) with
  | .ok () => pure [line]
  | .error _ => pure []

def installModels (detSrc recSrc : String) (log : List String) : Fallible (List String) := do
  attempt (fun e => "mkdir " ++ CONFIG_ROOT ++ ": " ++ e) (perform (.createDirAll CONFIG_ROOT))
  installFile 0o644 detSrc DET
  installFile 0o644 recSrc FACE
  let restarted ← whenStreamed "systemctl" ["restart", "linhellod"] "restarted linhellod"
  pure (log ++ ["installed " ++ DET ++ " + " ++ FACE] ++ restarted)

def modelsPresent : Proc Bool := do
  if ← perform (.pathExists DET) then perform (.pathExists FACE) else pure false

/-- Work in a temporary directory, removed in the end whatever comes of it. -/
def inTempDir (stem : String) (body : String → Fallible (List String)) :
    Fallible (List String) := do
  let tmp ← liftM (perform (.tempDir stem))
  attempt ("temp dir: " ++ ·) (perform (.createDirAll tmp))
  let result ← caught (body tmp)
  liftM (perform (.removeDirAll tmp))
  settle result

def downloadModels : Fallible (List String) := do
  requireTools ["curl", "unzip", "sha256sum"]
  inTempDir "linhello-models-" fun tmp => do
    let (detSrc, recSrc, log) ← verifiedModels tmp
    installModels detSrc recSrc log

def fetchModels (force : Bool) : Fallible (List String) := do
  if force then downloadModels
  else if ← liftM modelsPresent then
    pure ["buffalo_l models already present in /etc/linhello (use --force to re-fetch)"]
  else downloadModels

/-! ## The runtime -/

def ORT_X64_SHA256 : String := "3a211fbea252c1e66290658f1b735b772056149f28321e71c308942cdb54b747"

def ORT_AARCH64_SHA256 : String :=
  "866109a9248d057671a039b9d725be4bd86888e3754140e6701ec621be9d4d7e"

/-- The name of the architecture in the release, and the digest of its archive. -/
def ortAsset : String → Option (String × String)
  | "x86_64" => some ("x64", ORT_X64_SHA256)
  | "aarch64" => some ("aarch64", ORT_AARCH64_SHA256)
  | _ => none

def SONAME : String := "libonnxruntime.so.1.24.4"

def LIBDIR : String := "/usr/local/lib"

def DYLIB : String := "/usr/local/lib/libonnxruntime.so.1.24.4"

end Linhello.Cli.Downloads
