import Linhello.Common.Config
/-!
# Tiered biometric policy

The pure decision logic of `biopolicy.rs`: which operation class a PAM service
belongs to, and what the daemon does for a class under a tier and a policy.
-/

namespace Linhello.Common

/-- Hardware assurance tier, fixed at enrollment by the bound camera. -/
inductive Tier
  | secure
  | convenience
  deriving DecidableEq, Repr

def Tier.asStr : Tier → String
  | .secure => "secure (RGB + active IR)"
  | .convenience => "convenience (RGB only)"

inductive OperationClass
  | screenUnlock
  | login
  | elevation
  | remote
  | unknown
  deriving DecidableEq, Repr

inductive Action
  | verify
  | unseal
  | deny
  deriving DecidableEq, Repr

/-- Minimum modality required for an operation class. -/
inductive ModalityReq
  | off
  | rgb
  | ir
  deriving DecidableEq, Repr

def ModalityReq.parse (s : String) : Option ModalityReq :=
  match toAsciiLowercase (trim s) with
  | "off" => some .off
  | "rgb" => some .rgb
  | "ir" => some .ir
  | _ => none

/-- The per-operation keys of `policy.conf`; `sudoReq` is the key `sudo`. -/
structure Policy where
  screenUnlock : ModalityReq
  login : ModalityReq
  sudoReq : ModalityReq
  polkit : ModalityReq
  deriving DecidableEq, Repr

/-- RGB may unlock a live session; whatever releases the credential or elevates
needs IR. -/
def Policy.default : Policy where
  screenUnlock := .rgb
  login := .ir
  sudoReq := .ir
  polkit := .ir

inductive UnlockMethod
  | faceRgb
  | faceIr
  | fingerprint
  deriving DecidableEq, Repr

def UnlockMethod.parse (s : String) : Option UnlockMethod :=
  let t := (toAsciiLowercase (trim s)).toList.map fun c => if c = '_' then '-' else c
  match String.ofList t with
  | "face-rgb" | "rgb" => some .faceRgb
  | "face-ir" | "ir" => some .faceIr
  | "fingerprint" | "finger" | "fp" => some .fingerprint
  | _ => none

/-- Services that drive a graphical login or a screen unlock. -/
def isGreeterOrUnlock (service : String) : Bool :=
  ["gdm-password", "gdm-fingerprint", "gdm-smartcard", "sddm", "sddm-greeter", "plasmalogin",
    "plasmalogin-greeter", "plasmalogin-autologin", "lightdm", "lightdm-greeter",
    "lightdm-autologin", "login", "system-local-login", "kde", "kscreensaver",
    "kde-fingerprint", "gnome-screensaver", "xscreensaver", "swaylock", "hyprlock"].contains service

def classify (service : String) (warm : Bool) : OperationClass :=
  if ["sudo", "su", "su-l", "runuser", "polkit-1"].contains service then .elevation
  else if ["sshd", "remote"].contains service then .remote
  else if isGreeterOrUnlock service then
    if warm then .screenUnlock else .login
  else .unknown

def unsealIfSecure (tier : Tier) (req : ModalityReq) : Action :=
  if tier = .secure ∧ req ≠ .off then .unseal else .deny

def Biopolicy.decide (cls : OperationClass) (tier : Tier) (policy : Policy) : Action :=
  match cls with
  | .remote | .unknown => .deny
  | .screenUnlock =>
      match policy.screenUnlock with
      | .off => .deny
      | .rgb => .verify
      | .ir => if tier = .secure then .verify else .deny
  | .login => unsealIfSecure tier policy.login
  | .elevation => unsealIfSecure tier policy.sudoReq

/-- The modality an operation class must not have switched off to reach the
credential; `none` for the classes that never do. -/
def OperationClass.unsealKey (policy : Policy) : OperationClass → Option ModalityReq
  | .login => some policy.login
  | .elevation => some policy.sudoReq
  | _ => none

theorem decide_eq_unseal_iff {cls : OperationClass} {tier : Tier} {policy : Policy} :
    Biopolicy.decide cls tier policy = .unseal ↔
      tier = .secure ∧ ∃ req, cls.unsealKey policy = some req ∧ req ≠ .off := by
  cases cls with
  | screenUnlock =>
      cases h : policy.screenUnlock <;> cases tier <;>
        simp [Biopolicy.decide, OperationClass.unsealKey, h]
  | login => simp [Biopolicy.decide, unsealIfSecure, OperationClass.unsealKey]
  | elevation => simp [Biopolicy.decide, unsealIfSecure, OperationClass.unsealKey]
  | remote => simp [Biopolicy.decide, OperationClass.unsealKey]
  | unknown => simp [Biopolicy.decide, OperationClass.unsealKey]

/-- The credential-releasing action is reachable from the secure tier only. -/
theorem tier_of_decide_eq_unseal {cls : OperationClass} {tier : Tier} {policy : Policy}
    (h : Biopolicy.decide cls tier policy = .unseal) : tier = .secure :=
  (decide_eq_unseal_iff.1 h).1

end Linhello.Common
