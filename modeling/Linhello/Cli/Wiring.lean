import Linhello.Cli.Authselect
/-!
# Wiring and unwiring

`enable` and `disable` for every distribution: the service files that are edited in place,
the overrides materialized from a vendor copy, the profile for `pam-auth-update`, and the
authselect profile.
-/

namespace Linhello.Cli.Pamwire

open Common Effect Machine

def DEBIAN_PROFILE_PATH : String := "/usr/share/pam-configs/linhello"

/-! ## One service file -/

/-- Copy a file to its backup once, and never over an existing one. -/
def backup (path : OsPath) : Fallible Unit := do
  let bak := path.suffixed BACKUP_SUFFIX
  if ← perform (.pathExists bak) then pure ()
  else fallible ("backing up " ++ path.display ++ ": ") (perform (.copy path bak))

def tmpPath (path : OsPath) : OsPath :=
  ((path.parent ++ "/." ++ path.fileName.toStr.getD "pam" ++ ".linhello.tmp" : String) : OsPath)

/-- Write a sibling and rename it over the target. -/
def writeAtomic (path : OsPath) (contents : String) : Fallible Unit := do
  let tmp := tmpPath path
  fallible ("writing temp " ++ tmp.display ++ ": ") (perform (.write tmp contents))
  perform (.copyPermissions path tmp)
  match ← caught (fallible "" (perform (.rename tmp path))) with
  | .ok _ => pure ()
  | .error e =>
      ignored (perform (.removeFile tmp))
      throw ("renaming " ++ tmp.display ++ " into " ++ path.display ++ ": " ++ e)

def readService (path : OsPath) : Fallible String :=
  fallible ("reading " ++ path.display ++ ": ") (perform (.readToString path))

def editIn (path : OsPath) (stanza : String) (dryRun : Bool) : Fallible Change := do
  let content ← readService path
  let (new, changed) := insertFirstAuth content stanza
  if !changed then pure (.alreadyWired path)
  else if dryRun then pure (.wouldEdit path)
  else
    backup path
    writeAtomic path new
    pure (.edited path)

def createOverrideFrom (path : OsPath) (vendor stanza : String) (dryRun : Bool) :
    Fallible Change := do
  if dryRun then pure (.wouldEdit path)
  else
    let vendorContent ← fallible ("reading " ++ vendor ++ ": ") (perform (.readToString vendor))
    if ← perform (.pathExists path) then backup path else pure ()
    writeAtomic path (buildOverride vendor vendorContent stanza)
    pure (.created path)

def removeIn (path : OsPath) (dryRun : Bool) : Fallible Change := do
  if !(← perform (.pathExists path)) then pure (.notWired path)
  else
    let content ← readService path
    if isCreatedOverride content then
      if dryRun then pure (.wouldRemove path)
      else
        removing ("removing " ++ path.display ++ ": ") path
        pure (.removed path)
    else
      let (new, changed) := removeModule content
      if !changed then pure (.notWired path)
      else if dryRun then pure (.wouldRemove path)
      else
        backup path
        writeAtomic path new
        pure (.removed path)

/-! ## The services of a host -/

/-- The paths that exist, looked up in order. -/
def existing : List String → Proc (List String)
  | [] => pure []
  | p :: rest => do
      let here ← perform (.pathExists p)
      let later ← existing rest
      pure (if here then p :: later else later)

structure OverridePlan where
  etc : String
  vendor : String
  stanza : String

/-- The first of the plans of which the service or its vendor copy exists. -/
def firstPlan : List OverridePlan → Proc (Option OverridePlan)
  | [] => pure none
  | plan :: rest => do
      if ← perform (.pathExists plan.etc) then pure (some plan)
      else if ← perform (.pathExists plan.vendor) then pure (some plan)
      else firstPlan rest

def lockscreenPlan : Proc (Option OverridePlan) :=
  firstPlan [⟨KDE_FP_LOCKSCREEN, KDE_FP_VENDOR, WAIT_STANZA⟩,
    ⟨KDE_LOCKSCREEN, KDE_VENDOR, SUFFICIENT_STANZA⟩]

def plasmaloginGreeterPlan : Proc (Option OverridePlan) :=
  firstPlan [⟨PLASMALOGIN_ETC, PLASMALOGIN_VENDOR, SUFFICIENT_STANZA⟩]

def applyOverride (plan : OverridePlan) (dryRun : Bool) : Fallible Change := do
  if ← perform (.pathExists plan.etc) then editIn plan.etc plan.stanza dryRun
  else createOverrideFrom plan.etc plan.vendor plan.stanza dryRun

def applyPlan (plan : Option OverridePlan) (dryRun : Bool) : Fallible (List Change) :=
  match plan with
  | some plan => do return [← applyOverride plan dryRun]
  | none => pure []

/-- Every existing service for disable: greeters and sudo. -/
def existingTargets (includeSudo : Bool) : Proc (List String) :=
  existing (GREETERS ++ if includeSudo then [SUDO] else [])

/-- A file at a time; the first failure ends it. -/
def eachFile (f : OsPath → Fallible Change) : List String → Fallible (List Change)
  | [] => pure []
  | p :: rest => do
      let change ← f p
      let later ← eachFile f rest
      pure (change :: later)

/-- A file at a time, if it exists when its turn comes. -/
def eachExisting (f : OsPath → Fallible Change) : List String → Fallible (List Change)
  | [] => pure []
  | p :: rest => do
      if ← perform (.pathExists p) then
        let change ← f p
        let later ← eachExisting f rest
        pure (change :: later)
      else eachExisting f rest

/-! ## Debian -/

def debianProfile : String :=
  "Name: LinuxHello face authentication\nDefault: yes\nPriority: 900\nAuth-Type: Primary\nAuth:\n\t[success=end default=ignore]\tpam_linhello.so\nAuth-Initial:\n\t[success=end default=ignore]\tpam_linhello.so\n"

def debianEnable (dryRun : Bool) : Fallible (List Change) := do
  if dryRun then
    pure [.wouldEdit DEBIAN_PROFILE_PATH, .manual "then run: pam-auth-update --package"]
  else
    fallible ("writing " ++ DEBIAN_PROFILE_PATH ++ ": ")
      (perform (.write DEBIAN_PROFILE_PATH debianProfile))
    fallible "" (perform (.run "pam-auth-update" ["--package"]))
    pure [.edited DEBIAN_PROFILE_PATH,
      .manual "ran pam-auth-update — face login is now in common-auth.",
      .manual "note: keyring-unlock-on-face may need extra wiring on some GNOME setups; your password fallback is intact.",
      .manual "revert with: linhello pam disable"]

def debianDisable (dryRun : Bool) : Fallible (List Change) := do
  if dryRun then pure [.wouldRemove DEBIAN_PROFILE_PATH]
  else
    if ← perform (.pathExists DEBIAN_PROFILE_PATH) then
      removing ("removing " ++ DEBIAN_PROFILE_PATH ++ ": ") DEBIAN_PROFILE_PATH
    else pure ()
    fallible "" (perform (.run "pam-auth-update" ["--package"]))
    pure [.removed DEBIAN_PROFILE_PATH]

/-! ## Every family -/

/-- Greeters, the plasmalogin greeter, and sudo on request. -/
def archEnable (includeSudo dryRun : Bool) : Fallible (List Change) := do
  let greeters ← eachExisting (editIn · GREETER_STANZA dryRun) GREETERS
  let plan ← plasmaloginGreeterPlan
  let plasma ← applyPlan plan dryRun
  let elevated ← eachExisting (editIn · SUFFICIENT_STANZA dryRun)
    (if includeSudo then [SUDO] else [])
  pure (greeters ++ plasma ++ elevated)

/-- What is done to the login stacks of a family. -/
def enableFamily (includeSudo dryRun : Bool) : DistroFamily → Fallible (List Change)
  | .debian => debianEnable dryRun
  | .fedora => Authselect.fedoraEnable dryRun
  | .arch | .other => archEnable includeSudo dryRun

def enable (includeSudo dryRun : Bool) : Fallible (List Change) := do
  let changes ← enableFamily includeSudo dryRun (← perform .distroFamily)
  let plan ← lockscreenPlan
  let lockscreen ← applyPlan plan dryRun
  pure (changes ++ lockscreen)

def archDisable (dryRun : Bool) : Fallible (List Change) := do
  let targets ← existingTargets true
  let plasma ← existing [PLASMALOGIN_ETC]
  eachFile (removeIn · dryRun) (targets ++ plasma)

def disableFamily (dryRun : Bool) : DistroFamily → Fallible (List Change)
  | .debian => debianDisable dryRun
  | .fedora => Authselect.fedoraDisable dryRun
  | .arch | .other => archDisable dryRun

def disable (dryRun : Bool) : Fallible (List Change) := do
  let changes ← disableFamily dryRun (← perform .distroFamily)
  let lockscreen ← eachExisting (removeIn · dryRun) [KDE_FP_LOCKSCREEN, KDE_LOCKSCREEN]
  pure (changes ++ lockscreen)

end Linhello.Cli.Pamwire
