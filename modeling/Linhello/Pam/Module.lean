import Mathlib.Algebra.GroupWithZero.Nat
import Mathlib.Algebra.Ring.Int.Defs
import Linhello.Common.Ipc
import Linhello.Effect.Guided
/-!
# The PAM module

`pam_sm_authenticate` and `pam_sm_chauthtok` of the C module with the functions of the Rust
bridge they call. Three outcomes of an attempt cross the boundary in one integer: a positive length
for a secret in the
buffer, zero for a match without a secret, and a negative number for everything else.
-/

namespace Linhello.Pam

open Common Effect

/-! ## C strings and buffers -/

def text (s : String) : Bytes := s.toUTF8.toList

/-- The string that starts at the buffer: up to the first NUL. -/
def cString (buf : Bytes) : Bytes := buf.takeWhile (· ≠ 0)

/-- `CStr::to_str`. -/
def toStr (b : Bytes) : Option String := String.fromUTF8? ⟨b.toArray⟩

/-- `n as i32`. -/
def asI32 (n : Nat) : Int := (n : Int).bmod (2 ^ 32)

def isSpace (c : UInt8) : Bool := c = 32 || (9 ≤ c && c ≤ 13)

def isDigit (c : UInt8) : Bool := 48 ≤ c && c ≤ 57

/-- `atoi`: `strtol`, which stays within a `long`, cast to an `int`. -/
def atoi (b : Bytes) : Int :=
  let (negative, digits) := match b.dropWhile isSpace with
    | 45 :: rest => (true, rest)
    | 43 :: rest => (false, rest)
    | rest => (false, rest)
  let n : Nat := (digits.takeWhile isDigit).foldl (fun n c => 10 * n + (c.toNat - 48)) 0
  let long : Int := if negative then max (-(n : Int)) (-(2 ^ 63)) else min (n : Int) (2 ^ 63 - 1)
  long.bmod (2 ^ 32)

/-! ## Operations -/

inductive PamCode
  | success
  | authErr
  | ignore
  | other (code : Int)
  deriving DecidableEq

inductive LogLevel
  | err
  | warning
  | notice
  deriving DecidableEq

inductive Op
  /-- `pam_get_user`. -/
  | getUser
  /-- `pam_get_item(PAM_SERVICE)`. -/
  | getService
  /-- `pam_get_item(PAM_AUTHTOK)`. -/
  | getAuthtok
  /-- `pam_set_item(PAM_AUTHTOK)`, which copies a C string. -/
  | setAuthtok (token : Bytes)
  | info (msg : Bytes)
  | syslog (level : LogLevel) (msg : Bytes)
  /-- `time(NULL)`. -/
  | time
  | nanosleep (millis : Nat)
  /-- A buffer on the stack that nothing was written to yet. -/
  | stack (len : Nat)
  /-- `client::request`. -/
  | request (req : Request)

abbrev Op.Ans : Op → Type
  | .getUser | .getService | .getAuthtok => PamCode × Option Bytes
  | .setAuthtok _ => PamCode
  | .info _ | .syslog _ _ | .nanosleep _ => Unit
  | .time => Int
  | .stack _ => Bytes
  | .request _ => Except LinuxHelloError Response

abbrev pam : Signature where
  Op := Op
  Ans := Op.Ans

abbrev Proc (α : Type) := Program pam α

abbrev perform (o : Op) : Proc o.Ans := @Program.perform pam o

/-! ## The bridge -/

/-- `bytes.copy_from_slice` to the front of a buffer. -/
def copyTo (buf bytes : Bytes) : Bytes := bytes ++ buf.drop bytes.length

/-- `write_cstr`. -/
def writeCstr (dst : Bytes) (s : String) : Bytes :=
  if dst = [] then dst
  else copyTo dst ((text s).take (dst.length - 1) ++ [0])

/-- What `linhello_authenticate` makes of the daemon's answer. -/
def authenticateResult (buf : Bytes) : Except LinuxHelloError Response → Int × Bytes
  | .ok (.passwordUnsealed secret) =>
      if buf.length < secret.length then (-1, buf) else (asI32 secret.length, copyTo buf secret)
  | .ok (.verified true _ _) => (0, buf)
  | _ => (-1, buf)

/-- `linhello_authenticate`: the returned integer and the buffer afterwards. -/
def linhelloAuthenticate (user service buf : Bytes) : Proc (Int × Bytes) :=
  if buf = [] then pure (-1, buf)
  else
    match toStr user, toStr service with
    | some user, some service =>
        if user = "" then pure (-1, buf)
        else do
          let r ← perform (.request (.authenticate user service))
          pure (authenticateResult buf r)
    | _, _ => pure (-1, buf)

/-- `linhello_auth_will_capture`: the returned integer and the message buffer afterwards. -/
def linhelloAuthWillCapture (user service msg : Bytes) : Proc (Int × Bytes) :=
  -- the caller never reads stale bytes
  let msg := msg.set 0 0
  match toStr user, toStr service with
  | some user, some service =>
      if user = "" then pure (-1, msg)
      else do
        match ← perform (.request (.authIntent user service)) with
        | .ok (.authPlan engage _ notice) =>
            let msg := match notice with
              | some notice => writeCstr msg notice
              | none => msg
            pure (if engage then 1 else 0, msg)
        | _ => pure (-1, msg)
  | _, _ => pure (-1, msg)

/-- `linhello_reseal_password`; the caller's copy, which it clears, is never read again. -/
def linhelloResealPassword (user password : Bytes) : Proc Int :=
  if password = [] then pure (-1)
  else
    match toStr user with
    | some user =>
        if user = "" then pure (-1)
        else do
          match ← perform (.request (.sealPassword user password)) with
          | .ok .passwordSealed => pure 0
          | _ => pure (-1)
    | none => pure (-1)

/-! ## The module -/

/-- `wait_seconds`. -/
def waitSeconds : List Bytes → Int
  | [] => 0
  | arg :: rest =>
      if arg = text "wait" then 20
      else if (text "wait=").isPrefixOf arg then
        let s := atoi (arg.drop 5)
        if 0 < s ∧ s ≤ 300 then s else 20
      else waitSeconds rest

def logLine (before user between service after : Bytes) : Bytes :=
  before ++ user ++ between ++ service ++ after

def BUF_LEN : Nat := 512

/-- What follows an attempt that returned `n > 0`: the token is set. -/
def grantSecret (user service : Bytes) (n : Int) (buf : Bytes) : Proc PamCode :=
  if (BUF_LEN : Int) ≤ n then do
    perform (.syslog .err (text "unsealed secret too large for buffer for user '" ++ user ++
      text "'"))
    pure .authErr
  else do
    let rc ← perform (.setAuthtok (cString (buf.set n.toNat 0)))
    if rc ≠ .success then
      perform (.syslog .warning (text "face matched but pam_set_item(PAM_AUTHTOK) failed for '" ++
        user ++ text "'"))
      pure .authErr
    else
      perform (.syslog .notice (logLine (text "face auth (unseal) succeeded for '") user
        (text "' [") service (text "]; PAM_AUTHTOK set")))
      pure .success

/-- What follows an attempt that returned `n`; `again` is the next one. -/
def afterAttempt (user service : Bytes) (deadline n : Int) (buf : Bytes)
    (again : Proc (Option PamCode)) : Proc (Option PamCode) :=
  if 0 < n then some <$> grantSecret user service n buf
  else if n = 0 then do
    perform (.syslog .notice (logLine (text "face auth (verify, no secret) succeeded for '") user
      (text "' [") service (text "]")))
    pure (some .success)
  else do
    let now ← perform .time
    if deadline ≤ now then
      perform (.syslog .notice (logLine (text "face auth declined for '") user (text "' [") service
        (text "]; deferring to next auth module")))
      pure (some .authErr)
    else
      perform (.nanosleep 400)
      again

/-- The retry loop, for at most `fuel` attempts; `none` if it is not over by then. Clearing the
stack buffer after an attempt is left out: the next attempt has its own. -/
def attemptLoop (user service : Bytes) (deadline : Int) : Nat → Proc (Option PamCode)
  | 0 => pure none
  | fuel + 1 => do
      let buf ← perform (.stack BUF_LEN)
      let (n, buf) ← linhelloAuthenticate user service buf
      afterAttempt user service deadline n buf (attemptLoop user service deadline fuel)

/-- What comes after the pre-flight: the prompt, the deadline and the attempts. -/
def engage (user service notice : Bytes) (waits : Int) (fuel : Nat) : Proc (Option PamCode) := do
  -- the non-interactive stacks do not relay a prompt
  if waits = 0 then
    perform (.info (if cString notice ≠ [] then cString notice
      else text "Looking for your face…"))
  let now ← perform .time
  attemptLoop user service (now + waits) fuel

def NOTICE_LEN : Nat := 256

/-- `pam_sm_authenticate`. -/
def pamSmAuthenticate (argv : List Bytes) (fuel : Nat) : Proc (Option PamCode) := do
  match ← perform .getUser with
  | (.success, some user) =>
      match ← perform .getService with
      | (.success, some service) =>
          let waits := waitSeconds argv
          let notice ← perform (.stack NOTICE_LEN)
          let (willCapture, notice) ← linhelloAuthWillCapture user service notice
          if willCapture ≤ 0 then
            perform (.syslog .notice (logLine (text "face auth not engaged for '") user
              (text "' [") service (text "] (" ++
                (if willCapture = 0 then text "policy: camera not used for this operation"
                  else text "daemon unavailable") ++ text "); deferring to password")))
            pure (some .authErr)
          else engage user service notice waits fuel
      | _ => pure (some .ignore)
  | _ => pure (some .authErr)

/-! ## The password stack -/

def PAM_PRELIM_CHECK : BitVec 32 := 0x4000

def PAM_UPDATE_AUTHTOK : BitVec 32 := 0x2000

/-- `strnlen`. -/
def strnlen (s : Bytes) (max : Nat) : Nat := min (cString s).length max

/-- The line logged when the daemon has sealed the new password. -/
def resealedLine (user : Bytes) : Bytes :=
  text "resealed password envelope for user '" ++ user ++ text "' after password change"

/-- `pam_sm_chauthtok`. -/
def pamSmChauthtok (flags : BitVec 32) : Proc PamCode := do
  if flags &&& PAM_PRELIM_CHECK ≠ 0 then pure .success
  else if flags &&& PAM_UPDATE_AUTHTOK = 0 then pure .success
  else
    match ← perform .getUser with
    | (.success, some user) =>
        match ← perform .getAuthtok with
        | (.success, some authtok) =>
            let n := strnlen authtok BUF_LEN
            if n = 0 ∨ BUF_LEN ≤ n then pure .ignore
            else do
              let rc ← linhelloResealPassword user (authtok.take n)
              if rc = 0 then perform (.syslog .notice (resealedLine user))
              else
                perform (.syslog .warning (text "could not reseal password envelope for user '" ++
                  user ++ text ("' (rc=" ++ toString rc ++
                    "); run 'linhello seal-password' to re-sync face auth")))
              pure .success
        | _ => pure .ignore
    | _ => pure .ignore

end Linhello.Pam
