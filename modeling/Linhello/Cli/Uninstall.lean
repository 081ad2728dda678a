import Linhello.Cli.Update
import Linhello.Cli.Wiring
/-!
# `linhello uninstall`

Unwire, scrub what is left of the module in `/etc/pam.d`, stop the daemon, remove the
package and then every installed file, and last the data. Only a failure of the unwiring
ends it: the scrub passes over whatever it cannot read or write.
-/

namespace Linhello.Cli.Uninstall

open Common Effect Machine Pamwire

def PAM_D : String := "/etc/pam.d"

def CONFIG_ROOT : String := "/etc/linhello"

def BIN_NAMES : List String := ["linhello", "linhellod", "linhello-reseal-hook"]

def PAM_DIRS : List String := ["/usr/lib/security", "/usr/lib64/security"]

def PAM_LIBS : List String := ["pam_linhello.so", "liblinhello_pam.so"]

def UNIT_PATHS : List String :=
  ["/etc/systemd/system/linhellod.service", "/usr/lib/systemd/system/linhellod.service",
   "/etc/systemd/system/linhellod-camera-refresh.service",
   "/usr/lib/systemd/system/linhellod-camera-refresh.service"]

def UDEV_RULE_PATHS : List String :=
  ["/etc/udev/rules.d/72-linhello-camera.rules", "/usr/lib/udev/rules.d/72-linhello-camera.rules"]

def SLEEP_HOOK_PATHS : List String := ["/usr/lib/systemd/system-sleep/linhello-resume"]

def PACMAN_HOOK : String := "/etc/pacman.d/hooks/linhello-reseal.hook"

def under (dirs names : List String) : List String :=
  dirs.flatMap fun d => names.map (d ++ "/" ++ ·)

/-! ## The scrub -/

def UNINSTALL_SUFFIX : String := ".pre-linhello-uninstall"

/-- `str::ends_with` of a newline. -/
def endsWithNewline (s : String) : Bool := s.toList.getLast? == some '\n'

/-- The text without its lines that name the module. -/
def cleanedOf (content : String) : String :=
  "\n".intercalate ((lines content).filter fun l => !contains l "pam_linhello") ++
    if endsWithNewline content then "\n" else ""

/-- Remove a file, and log `message` if that succeeded. -/
def removeLogged (path : OsPath) (message : String) : Proc (List String) := do
  match ← perform (.removeFile path) with
  | .ok _ => pure [message]
  | .error _ => pure []

/-- A backup, if there is none yet; whether it could be made is not looked at. -/
def scrubBackup (path bak : OsPath) : Proc Unit := do
  if ← perform (.pathExists bak) then pure ()
  else do
    let _ ← perform (.copy path bak)
    pure ()

def scrubFile (path : OsPath) (content : String) : Proc (List String) := do
  let bak := path.suffixed UNINSTALL_SUFFIX
  scrubBackup path bak
  match ← perform (.write path (cleanedOf content)) with
  | .ok _ =>
    pure ["scrubbed pam_linhello from " ++ path.display ++ " (backup " ++ bak.display ++ ")"]
  | .error _ => pure []

def scrubContent (path name : OsPath) (content : String) : Proc (List String) :=
  if !contains content "pam_linhello" then pure []
  else if name.toStr = some "linhello-test" then removeLogged path ("removed " ++ path.display)
  else if isCreatedOverride content then
    removeLogged path ("removed " ++ path.display ++ " (was a linhello-created override)")
  else scrubFile path content

def scrubOne (name : OsPath) : Proc (List String) := do
  let path := OsPath.join PAM_D name
  if !(← perform (.isFile path)) then pure []
  else if contains (name.toStr.getD "") ".pre-linhello" then pure []
  else
    match ← perform (.readToString path) with
    | .ok content => scrubContent path name content
    | .error _ => pure []

def scrubEntries : List (Option OsPath) → Proc (List String)
  | [] => pure []
  | none :: rest => scrubEntries rest
  | some name :: rest => do return (← scrubOne name) ++ (← scrubEntries rest)

def scrubPamReferences : Proc (List String) := do
  match ← perform (.readDir PAM_D) with
  | none => pure []
  | some entries => scrubEntries entries

/-! ## The package -/

inductive PkgMgr
  | dnf
  | pacman
  | apt

/-- The command that removes the package and leaves nothing behind. -/
def PkgMgr.removal : PkgMgr → String × List String
  | .dnf => ("dnf", ["remove", "-y", "linhello"])
  | .pacman => ("pacman", ["-Rn", "--noconfirm", "linhello"])
  | .apt => ("apt-get", ["purge", "-y", "linhello"])

def dpkgInstalled : Proc Bool := do
  match ← perform (.output "dpkg-query" ["-W", "-f=$\x7bStatus\x7d", "linhello"]) with
  | .ok o => pure (o.success && contains o.stdout "ok installed")
  | .error _ => pure false

def owningPackageManager : Proc (Option PkgMgr) := do
  if ← perform (.status "rpm" ["-q", "linhello"]) then pure (some .dnf)
  else if ← perform (.status "pacman" ["-Q", "linhello"]) then pure (some .pacman)
  else if ← dpkgInstalled then pure (some .apt)
  else pure none

def removePackage (pm : PkgMgr) : Proc (List String) := do
  let (prog, args) := pm.removal
  match ← perform (.output prog args) with
  | .ok o =>
      if o.success then pure ["removed the linhello package via " ++ prog]
      else pure [prog ++ " could not remove the package (" ++ trim o.stderr ++
        "); removing files directly"]
  | .error e => pure ["could not run " ++ prog ++ " (" ++ e ++ "); removing files directly"]

/-! ## Files -/

def removeIf (path : OsPath) : Proc (List String) := do
  match ← perform (.removeFile path) with
  | .ok _ => pure ["removed " ++ path.display]
  | .error .notFound => pure []
  | .error (.other e) => pure ["could not remove " ++ path.display ++ ": " ++ e]

def removeEach : List String → Proc (List String)
  | [] => pure []
  | p :: rest => do return (← removeIf p) ++ (← removeEach rest)

/-- `Path::extension` is `onnx`. -/
def isModel (name : OsPath) : Bool :=
  let s := name.display.toList.reverse
  ".onnx".toList.reverse.isPrefixOf s && ".onnx".length < name.display.length

def textOfResult (path : OsPath) (r : Except String Unit) : String :=
  match r with
  | .ok _ => "removed " ++ path.display
  | .error e => "could not remove " ++ path.display ++ ": " ++ e

def removeEntry (path : OsPath) : Proc (Except String Unit) := do
  if ← perform (.isDir path) then perform (.removeDirAll path)
  else do return (← perform (.removeFile path)).mapError IoError.display

def removeConfigEntries (removeModels : Bool) : List (Option OsPath) → Proc (List String)
  | [] => pure []
  | none :: rest => removeConfigEntries removeModels rest
  | some name :: rest => do
      let path := OsPath.join CONFIG_ROOT name
      if isModel name && !removeModels then
        return ("kept model " ++ name.toStr.getD "?") :: (← removeConfigEntries removeModels rest)
      else
        let r ← removeEntry path
        return textOfResult path r :: (← removeConfigEntries removeModels rest)

/-- Drop the directory if nothing is left in it. -/
def removeConfigRoot : Proc (List String) := do
  match ← perform (.readDir CONFIG_ROOT) with
  | some [] =>
      let _ ← perform (.removeDir CONFIG_ROOT)
      pure ["removed " ++ CONFIG_ROOT]
  | _ => pure []

def removeConfigData (removeModels : Bool) : Proc (List String) := do
  match ← perform (.readDir CONFIG_ROOT) with
  | none => pure []
  | some entries =>
      return (← removeConfigEntries removeModels entries) ++ (← removeConfigRoot)

/-! ## The uninstall -/

def stopDaemon : Proc (List String) := do
  if ← perform (.status "systemctl" ["disable", "--now", "linhellod"]) then
    pure ["stopped and disabled linhellod"]
  else pure ["linhellod was not running / already disabled"]

def removeOwned : Proc (List String) := do
  match ← owningPackageManager with
  | some pm => removePackage pm
  | none => pure ["no package record — removing installed files directly"]

def installedFiles : List String :=
  under Update.BIN_DIRS BIN_NAMES ++ under PAM_DIRS PAM_LIBS ++ UNIT_PATHS ++ UDEV_RULE_PATHS ++
    SLEEP_HOOK_PATHS ++ [PACMAN_HOOK]

def removeAll (removeModels : Bool) : Proc (List String) := do
  let stopped ← stopDaemon
  let owned ← removeOwned
  let files ← removeEach installedFiles
  let _ ← perform (.status "systemctl" ["daemon-reload"])
  let data ← removeConfigData removeModels
  pure (stopped ++ owned ++ files ++ data)

def uninstall (removeModels : Bool) : Fallible (List String) := do
  match ← caught (disable false) with
  | .error e =>
      throw ("could not unwire PAM (" ++ e ++
        "); aborted before removing anything (login stays intact)")
  | .ok changes =>
      let scrubbed ← (liftM scrubPamReferences : Fallible (List String))
      let removed ← (liftM (removeAll removeModels) : Fallible (List String))
      pure (("unwired face login from " ++ toString changes.length ++ " PAM file(s)") ::
        scrubbed ++ removed)

end Linhello.Cli.Uninstall
