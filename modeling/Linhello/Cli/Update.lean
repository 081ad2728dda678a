import Linhello.Cli.Machine
import Linhello.Effect.Brackets
/-!
# `linhello update`

Fetch the tags of the remote, pick the latest release, verify its signature, check it
out and build it. The verification reads the status text of `git verify-tag --raw`: it
looks for `VALIDSIG` lines and the pinned fingerprint in them.
-/

namespace Linhello.Cli

open Common Effect

/-! ## Commands -/

inductive PackageFormat
  | rpm
  | deb
  | pkg
  | unknown
  deriving DecidableEq

def PackageFormat.asStr : PackageFormat → String
  | .rpm => "rpm"
  | .deb => "deb"
  | .pkg => "pkg"
  | .unknown => "unknown"

def PackageFormat.buildTool : PackageFormat → Option String
  | .rpm => some "rpmbuild"
  | .deb => some "dpkg-buildpackage"
  | .pkg => some "makepkg"
  | .unknown => none

def packageFormatFor : DistroFamily → PackageFormat
  | .fedora => .rpm
  | .debian => .deb
  | .arch => .pkg
  | .other => .unknown

namespace Update

/-- Failures carry the text of the error. -/
inductive Op
  | distroFamily
  /-- `source_root().filter(|r| r.join(".git").exists())`. -/
  | sourceRoot
  | pathExists (path : String)
  | createDirAll (path : String)
  | removeDirAll (path : String)
  | setMode (path : String) (mode : Nat)
  | chown (path : String) (uid : Nat)
  | write (path contents : String)
  | dirOwner (path : String)
  | onPath (bin : String)
  /-- The throwaway directory under the temporary one, named after the process. -/
  | verificationHome
  | coprRepoConfigured
  /-- Run a command with its output on the terminal; whether it succeeded. -/
  | status (uid : Option Nat) (cwd prog : String) (args : List String)
  /-- Run a command and capture its output. -/
  | output (uid : Option Nat) (cwd prog : String) (args : List String)
      (envs : List (String × String))
  | buildNativePackage (root : String) (fmt : PackageFormat)
  | installNativePackage (pkg : String) (fmt : PackageFormat)
  | deployFrom (root user : String)
  /-- `pamwire::status`: the services inspected, and whether each is wired. -/
  | wiring
  | enableWiring (includeSudo : Bool)

abbrev Op.Ans : Op → Type
  | .distroFamily => DistroFamily
  | .sourceRoot => Option String
  | .pathExists _ | .onPath _ | .coprRepoConfigured => Bool
  | .createDirAll _ | .setMode _ _ | .chown _ _ | .write _ _ => Except String Unit
  | .removeDirAll _ => Unit
  | .dirOwner _ => Option Nat
  | .verificationHome => String
  | .status .. => Except String Bool
  | .output .. => Except String Output
  | .buildNativePackage _ _ => Except String (String × List String)
  | .installNativePackage _ _ | .deployFrom _ _ | .enableWiring _ => Except String (List String)
  | .wiring => List (String × Bool)

abbrev cli : Signature where
  Op := Op
  Ans := Op.Ans

abbrev Proc (α : Type) := Program cli α

abbrev Fallible (α : Type) := ExceptT String (Program cli) α

abbrev perform (o : Op) : Proc o.Ans := @Program.perform cli o

/-- An operation whose failure is returned with `context` in front. -/
def fallible {α : Type} (context : String) (p : Proc (Except String α)) : Fallible α :=
  attempt (context ++ ·) p

/-- `if !ok { return Err(e) }`. -/
def require (ok : Bool) (e : String) : Fallible Unit := if ok then pure () else throw e

def notRun (prog : String) (e : String) : String :=
  "running " ++ prog ++ ": " ++ e ++ " (is it installed system-wide?)"

def runStreamed (uid : Option Nat) (cwd prog : String) (args : List String) : Fallible Unit := do
  let success ← attempt (notRun prog) (perform (.status uid cwd prog args))
  require success (prog ++ " " ++ " ".intercalate args ++ " failed (see output above)")

def runCapture (uid : Option Nat) (cwd prog : String) (args : List String)
    (envs : List (String × String)) : Fallible Output :=
  attempt (notRun prog) (perform (.output uid cwd prog args envs))

/-! ## The signature -/

def TRUSTED_SIGNER_FINGERPRINT : String := "54C989C55B1FB5F26FDC55F7CC46D5CD5E601D4B"

def TRUSTED_SIGNER_KEY_PATH : String := "/etc/linhello/trusted-signer.asc"

def normalizeFpr (U : CaseMap) (s : String) : String :=
  String.ofList ((s.toList.filter fun c => !isWhiteSpace c).flatMap U.upper)

/-- The fields of a `VALIDSIG` status line. -/
def validsigFields (line : String) : Option (List String) :=
  (stripPrefix (trim line) "[GNUPG:] VALIDSIG ").map splitWhitespace

/-- The first and the last field of every `VALIDSIG` line: the fingerprints of the
signing key and of its primary key. -/
def validsigFingerprints (U : CaseMap) (raw : String) : List String :=
  (lines raw).flatMap fun line =>
    match validsigFields line with
    | none => []
    | some fields => (fields.head?.map (normalizeFpr U)).toList ++
        (fields.getLast?.map (normalizeFpr U)).toList

def isHexDigit (c : Char) : Bool :=
  ('0' ≤ c && c ≤ '9') || ('a' ≤ c && c ≤ 'f') || ('A' ≤ c && c ≤ 'F')

/-- `{:?}` of a list of fingerprints. -/
def debugList (l : List String) : String :=
  "[" ++ ", ".intercalate (l.map fun s => "\"" ++ s ++ "\"") ++ "]"

def verifyTagArgs (tag : String) : List String := ["verify-tag", "--raw", tag]

def verifyTagInKeyring (U : CaseMap) (root : String) (uid : Option Nat)
    (tag gnupghome keyPath pinned : String) : Fallible Unit := do
  let envs := [("GNUPGHOME", gnupghome)]
  let imp ← runCapture uid root "gpg" ["--batch", "--quiet", "--import", keyPath] envs
  require imp.success
    ("failed to import trusted signer key from " ++ keyPath ++ ": " ++ trim imp.stderr)
  let out ← runCapture uid root "git" (verifyTagArgs tag) envs
  let fprs := validsigFingerprints U out.stderr
  require (!fprs.isEmpty)
    ("release tag " ++ tag ++
      " is not validly signed (no VALIDSIG from gpg) — refusing to build untrusted code as root")
  require (fprs.any (· == pinned))
    ("release tag " ++ tag ++ " is signed by an untrusted key (got " ++ debugList fprs ++
      ", expected " ++ pinned ++ ") — refusing to build untrusted code as root")

/-- Where git runs as the owner of the checkout, the keyring directory must be theirs. -/
def giveTo (uid : Option Nat) (gnupghome : String) : Fallible Unit :=
  match uid with
  | some u => fallible "chowning verification keyring dir: " (perform (.chown gnupghome u))
  | none => pure ()

def verifyTagSignature (U : CaseMap) (root : String) (uid : Option Nat) (tag : String) :
    Fallible Unit := do
  let pinned := normalizeFpr U TRUSTED_SIGNER_FINGERPRINT
  require (pinned.utf8ByteSize == 40 && pinned.toList.all isHexDigit)
    "TRUSTED_SIGNER_FINGERPRINT is not a 40-hex-char fingerprint; refusing to update"
  require (← perform (.pathExists TRUSTED_SIGNER_KEY_PATH))
    ("trusted signer public key not found at " ++ TRUSTED_SIGNER_KEY_PATH ++
      " — cannot verify the release signature (export it with: gpg --export --armor " ++ pinned ++
      " | sudo tee " ++ TRUSTED_SIGNER_KEY_PATH ++ ")")
  let gnupghome ← perform .verificationHome
  perform (.removeDirAll gnupghome)
  fallible "creating verification keyring dir: " (perform (.createDirAll gnupghome))
  fallible "securing verification keyring dir: " (perform (.setMode gnupghome 0o700))
  giveTo uid gnupghome
  let result ← caught (verifyTagInKeyring U root uid tag gnupghome TRUSTED_SIGNER_KEY_PATH pinned)
  perform (.removeDirAll gnupghome)
  settle result

/-! ## The update -/

def REPO_URL : String := "https://github.com/archledger/linhello"

def MANAGED_SRC : String := "/var/lib/linhello/src"

def BIN_DIRS : List String := ["/usr/local/bin", "/usr/bin"]

def COPR_PROJECT : String := "archledger/linhello"

def COPR_REPO_FILE : String :=
  "/etc/yum.repos.d/_copr:copr.fedorainfracloud.org:archledger:linhello.repo"

def COPR_REPO_CONTENT : String :=
  "[copr:copr.fedorainfracloud.org:archledger:linhello]\nname=Copr repo for linhello owned by archledger\nbaseurl=https://download.copr.fedorainfracloud.org/results/archledger/linhello/fedora-$releasever-$basearch/\ntype=rpm-md\nskip_if_unavailable=True\ngpgcheck=1\ngpgkey=https://download.copr.fedorainfracloud.org/results/archledger/linhello/pubkey.gpg\nrepo_gpgcheck=0\nenabled=1\nenabled_metadata=1\n"

def addCoprRepo (configured : Bool) : Fallible Unit :=
  if configured then pure ()
  else fallible ("writing " ++ COPR_REPO_FILE ++ ": ")
    (perform (.write COPR_REPO_FILE COPR_REPO_CONTENT))

/-- On Fedora the packages of the Copr project are tracked; no commit is built. -/
def updateViaCopr : Fallible (List String) := do
  let header := "Fedora family: tracking the Copr repo (" ++ COPR_PROJECT ++
    ") via dnf — no source rebuild."
  let configured ← perform .coprRepoConfigured
  addCoprRepo configured
  runStreamed none "/" "dnf" ["install", "--refresh", "-y", "linhello"]
  let _ ← caught (runStreamed none "/" "systemctl" ["try-restart", "linhellod"])
  pure [header,
    if configured then "Copr repo already configured."
    else "Copr repo not configured — enabling it (" ++ COPR_REPO_FILE ++ ").",
    "Running: dnf install --refresh -y linhello", "Done. linhellod restarted if it was running."]

/-- `Path::parent` of the managed clone. -/
def MANAGED_PARENT : String := "/var/lib/linhello"

/-- The checkout to build from, and what the log says about it. -/
def checkout : Fallible (String × String) := do
  match ← perform .sourceRoot with
  | some root => pure (root, "source: git checkout at " ++ root)
  | none =>
      if ← perform (.pathExists (MANAGED_SRC ++ "/.git")) then
        pure (MANAGED_SRC, "source: managed clone at " ++ MANAGED_SRC)
      else
        fallible ("creating " ++ MANAGED_PARENT ++ ": ") (perform (.createDirAll MANAGED_PARENT))
        runStreamed none "/" "git" ["clone", REPO_URL, MANAGED_SRC]
        pure (MANAGED_SRC, "cloning " ++ REPO_URL ++ " -> " ++ MANAGED_SRC)

def tagListArgs : List String := ["tag", "--list", "v*", "--sort=-version:refname"]

def firstTag (stdout : String) : Option String := ((lines stdout).map trim).find? (· ≠ "")

def latestReleaseTag (root : String) (uid : Option Nat) : Fallible (Option String) := do
  let out ← runCapture uid root "git" tagListArgs []
  require out.success "git tag --list failed (see output above)"
  pure (firstTag out.stdout)

def revCommit (root : String) (uid : Option Nat) (refname : String) : Fallible String := do
  let out ← runCapture uid root "git" ["rev-parse", "--verify", refname ++ "^\x7bcommit\x7d"] []
  require out.success ("cannot resolve " ++ refname ++ " to a commit")
  pure (trim out.stdout)

/-- The first twelve bytes of a commit, or all of it. -/
def short (commit : String) : String :=
  if 12 ≤ commit.toList.length then String.ofList (commit.toList.take 12) else commit

/-- Whether one of the paths exists, looked up in order. -/
def anyExists : List String → Proc Bool
  | [] => pure false
  | p :: rest => do if ← perform (.pathExists p) then pure true else anyExists rest

def installedCli : Proc Bool := anyExists (BIN_DIRS.map (· ++ "/linhello"))

def checkoutArgs (tag : String) : List String := ["checkout", "--quiet", "--detach", tag]

def baseName (path : String) : String :=
  String.ofList ((path.toList.reverse.takeWhile (· ≠ '/')).reverse)

/-- Extend the login wiring where the operator had opted in. -/
def reapplyWiring : Proc (List String) := do
  let st ← perform .wiring
  if st.any (·.2) then
    let sudoWired := st.any fun s => s.2 && baseName s.1 == "sudo"
    match ← perform (.enableWiring sudoWired) with
    | .ok changes => pure changes
    | .error e => pure ["PAM wiring not re-applied: " ++ e]
  else pure ["login wiring untouched (none was enabled)"]

def installRelease (root : String) (owner : Option Nat) (user : String) :
    Fallible (List String) := do
  let family ← perform .distroFamily
  let fmt := packageFormatFor family
  let tool ← (match fmt.buildTool with
    | some bin => perform (.onPath bin)
    | none => pure false : Proc Bool)
  if tool then
    let (pkg, blog) ← fallible "" (perform (.buildNativePackage root fmt))
    let ilog ← fallible "" (perform (.installNativePackage pkg fmt))
    pure (("distro " ++ family.asStr ++ ": native " ++ fmt.asStr ++ " package") :: blog ++ ilog)
  else
    runStreamed owner root "cargo" ["build", "--release"]
    let dlog ← fallible "" (perform (.deployFrom root user))
    pure (("no native " ++ fmt.asStr ++ " build tooling — installing from source (make install)") ::
      "building (cargo build --release)…" :: dlog)

/-- What follows the gate: nothing if the tag is installed already, else check it out
and build it. -/
def buildRelease (root : String) (owner : Option Nat) (user tag : String) (log : List String) :
    Fallible (List String) := do
  let tagCommit ← revCommit root owner tag
  let head ← caught (revCommit root owner "HEAD")
  let headCommit := match head with
    | .ok commit => commit
    | .error _ => ""
  let installed ← (if headCommit = tagCommit then installedCli else pure false : Proc Bool)
  if installed then
    pure (log ++ ["already at " ++ tag ++ " (" ++ short tagCommit ++
      ") and installed — nothing to do"])
  else do
    runStreamed owner root "git" (checkoutArgs tag)
    let built ← installRelease root owner user
    let wired ← reapplyWiring
    pure (log ++ ["checked out " ++ tag ++ " (" ++ short tagCommit ++ ")"] ++ built ++ wired ++
      ["updated to " ++ tag ++ " (" ++ short tagCommit ++ ")"])

/-- Fetch the tags and pick the latest release. -/
def chooseRelease (root : String) (owner : Option Nat) : Fallible String := do
  runStreamed owner root "git" ["fetch", "--tags", "--force", "origin"]
  match ← latestReleaseTag root owner with
  | some tag => pure tag
  | none => throw "no release tags found on the remote — nothing to update to"

def update (U : CaseMap) (user : String) : Fallible (List String) := do
  if (← perform .distroFamily) = .fedora then updateViaCopr
  else do
    let (root, source) ← checkout
    let owner ← perform (.dirOwner root)
    let tag ← chooseRelease root owner
    verifyTagSignature U root owner tag
    buildRelease root owner user tag [source, "latest release tag: " ++ tag,
      "signature verified: " ++ tag ++ " signed by trusted key " ++ TRUSTED_SIGNER_FINGERPRINT]

end Update

end Linhello.Cli
