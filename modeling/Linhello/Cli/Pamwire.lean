import Linhello.Common.Text
/-!
# PAM service files

The line editor of `pamwire`: it puts a stanza in front of the first auth directive of a
service file, takes every line with the module out again, and builds an override from a
vendor file.
-/

namespace Linhello.Cli.Pamwire

open Common

def MODULE : String := "pam_linhello.so"

def BACKUP_SUFFIX : String := ".pre-linhello"

def GREETER_STANZA : String := "auth       [success=1 default=ignore]   pam_linhello.so"

def SUFFICIENT_STANZA : String := "auth       sufficient   pam_linhello.so"

def WAIT_STANZA : String := "auth       sufficient   pam_linhello.so wait"

def GREETERS : List String := ["/etc/pam.d/gdm-password", "/etc/pam.d/sddm", "/etc/pam.d/lightdm"]

def KDE_LOCKSCREEN : String := "/etc/pam.d/kde"

def KDE_FP_LOCKSCREEN : String := "/etc/pam.d/kde-fingerprint"

def KDE_VENDOR : String := "/usr/lib/pam.d/kde"

def KDE_FP_VENDOR : String := "/usr/lib/pam.d/kde-fingerprint"

def CREATED_PREFIX : String := "# linhello: created from "

def SUDO : String := "/etc/pam.d/sudo"

def PLASMALOGIN_ETC : String := "/etc/pam.d/plasmalogin"

def PLASMALOGIN_VENDOR : String := "/usr/lib/pam.d/plasmalogin"

/-! ## Lines -/

/-- `str::trim_start`. -/
def trimStart (s : String) : String := String.ofList (s.toList.dropWhile isWhiteSpace)

/-- A line that is no comment and names the module. -/
def activeLine (line : String) : Bool :=
  let t := trimStart line
  !startsWith t "#" && contains t MODULE

def contentHasModule (content : String) : Bool := (lines content).any activeLine

/-- The first word, without a leading dash, is `auth`. -/
def isAuthDirective (line : String) : Bool :=
  let t := trimStart line
  if startsWith t "#" then false
  else
    let t := (stripPrefix t "-").getD t
    (splitWhitespace t).head? == some "auth"

/-- Put `x` in front of the first element that satisfies `p`, or at the end. -/
def insertFirst {α : Type} (p : α → Bool) (x : α) : List α → List α
  | [] => [x]
  | l :: ls => if p l then x :: l :: ls else l :: insertFirst p x ls

/-- `format!("{}\n", out.join("\n"))`. -/
def joinLines (out : List String) : String := "\n".intercalate out ++ "\n"

def insertFirstAuth (content stanza : String) : String × Bool :=
  if contentHasModule content then (content, false)
  else (joinLines (insertFirst isAuthDirective stanza (lines content)), true)

def removeModule (content : String) : String × Bool :=
  if contentHasModule content then
    (joinLines ((lines content).filter fun l => !activeLine l), true)
  else (content, false)

/-- The override for a vendor file: a marker line, then the vendor text with the stanza. -/
def buildOverride (vendorPath vendorContent stanza : String) : String :=
  CREATED_PREFIX ++ vendorPath ++ " — delete this file to revert to the vendor copy\n" ++
    (insertFirstAuth vendorContent stanza).1

def isCreatedOverride (content : String) : Bool := startsWith content CREATED_PREFIX

/-! ## What the editor does to the lines -/

theorem insertFirst_eq {α : Type} (p : α → Bool) (x : α) (ls : List α) :
    insertFirst p x ls = ls.takeWhile (fun l => !p l) ++ x :: ls.dropWhile (fun l => !p l) := by
  induction ls with
  | nil => rfl
  | cons l ls ih =>
      rw [insertFirst]
      cases hl : p l with
      | true => simp [hl]
      | false => simp [hl, ih]

theorem insertFirst_ne_nil {α : Type} (p : α → Bool) (x : α) (ls : List α) :
    insertFirst p x ls ≠ [] := by
  rw [insertFirst_eq]
  exact List.append_ne_nil_of_right_ne_nil _ (List.cons_ne_nil _ _)

theorem joinLines_eq_unlines {out : List String} (h : out ≠ []) : joinLines out = unlines out := by
  induction out with
  | nil => exact absurd rfl h
  | cons l out ih =>
      cases out with
      | nil =>
          rw [joinLines, unlines, unlines, String.append_empty]
          rw [String.intercalate_singleton]
      | cons l' out =>
          rw [unlines, ← ih (List.cons_ne_nil _ _), joinLines, joinLines]
          simp [String.intercalate_cons_cons, String.append_assoc]

end Linhello.Cli.Pamwire
