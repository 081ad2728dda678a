import Linhello.Common.Text
import Linhello.Effect.Program
/-!
# What the command line tool does to the machine

The operations of `pamwire` and of the uninstaller: files, directories and commands.
-/

namespace Linhello.Cli

open Common Effect

/-- A path as it is displayed, and its bytes where they are not UTF-8. -/
structure OsPath where
  display : String
  raw : Option (List UInt8)
  deriving DecidableEq

instance : Coe String OsPath := ⟨fun s => ⟨s, none⟩⟩

namespace OsPath

/-- `OsStr::to_str`. -/
def toStr (p : OsPath) : Option String := if p.raw.isNone then some p.display else none

/-- `Path::join` of a directory without a trailing slash and a relative name. -/
def join (dir : String) (name : OsPath) : OsPath := ⟨dir ++ "/" ++ name.display, name.raw⟩

/-- `Path::file_name`. -/
def fileName (p : OsPath) : OsPath :=
  ⟨String.ofList ((p.display.toList.reverse.takeWhile (· ≠ '/')).reverse), p.raw⟩

/-- `Path::parent` of an absolute path below the root. -/
def parent (p : OsPath) : String :=
  String.ofList ((p.display.toList.reverse.dropWhile (· ≠ '/')).tail.reverse)

/-- A path built from the text of another one. -/
def suffixed (p : OsPath) (suffix : String) : OsPath := ⟨p.display ++ suffix, none⟩

end OsPath

inductive DistroFamily
  | arch
  | debian
  | fedora
  | other
  deriving DecidableEq

def DistroFamily.asStr : DistroFamily → String
  | .arch => "arch"
  | .debian => "debian"
  | .fedora => "fedora"
  | .other => "other"

/-- What a finished command left. -/
structure Output where
  success : Bool
  stdout : String
  stderr : String

inductive IoError
  | notFound
  | other (text : String)

def IoError.display : IoError → String
  | .notFound => "No such file or directory (os error 2)"
  | .other text => text

/-- Failures carry the text of the error; whether there was no file is told apart only for
a removal. -/
inductive Machine.Op
  | distroFamily
  | pathExists (path : OsPath)
  | isFile (path : OsPath)
  | isDir (path : OsPath)
  /-- The entries of a directory, `none` for one that could not be read. -/
  | readDir (dir : String)
  | readToString (path : OsPath)
  | write (path : OsPath) (contents : String)
  | copy (source target : OsPath)
  | rename (source target : OsPath)
  /-- `set_permissions` of the one to those of the other, where these can be read. -/
  | copyPermissions (source target : OsPath)
  | removeFile (path : OsPath)
  | removeDir (path : OsPath)
  | removeDirAll (path : OsPath)
  | createDirAll (path : OsPath)
  /-- Run a command; an error also where it does not succeed. -/
  | run (cmd : String) (args : List String)
  /-- The standard output of a command, if it can be run. -/
  | runCapture (cmd : String) (args : List String)
  /-- Whether a command can be run and succeeds. -/
  | status (cmd : String) (args : List String)
  | output (cmd : String) (args : List String)

abbrev Machine.Op.Ans : Machine.Op → Type
  | .distroFamily => DistroFamily
  | .pathExists _ | .isFile _ | .isDir _ | .status _ _ => Bool
  | .readDir _ => Option (List (Option OsPath))
  | .readToString _ => Except String String
  | .removeFile _ => Except IoError Unit
  | .write _ _ | .copy _ _ | .rename _ _ | .removeDir _ | .removeDirAll _ | .createDirAll _
  | .run _ _ => Except String Unit
  | .output _ _ => Except String Output
  | .copyPermissions _ _ => Unit
  | .runCapture _ _ => Option String

abbrev machine : Signature where
  Op := Machine.Op
  Ans := Machine.Op.Ans

namespace Machine

abbrev Proc (α : Type) := Program machine α

/-- `anyhow::Result`: the error is its text. -/
abbrev Fallible (α : Type) := ExceptT String (Program machine) α

abbrev perform (o : Op) : Proc o.Ans := @Program.perform machine o

/-- An operation whose failure is returned with `context` in front. -/
def fallible {α : Type} (context : String) (p : Proc (Except String α)) : Fallible α :=
  attempt (context ++ ·) p

/-- A removal whose failure is returned with `context` in front. -/
def removing (context : String) (path : OsPath) : Fallible Unit :=
  attempt (context ++ ·.display) (perform (.removeFile path))

/-- `let _ =`: the result is not looked at. -/
def ignored {α : Type} (p : Proc α) : Fallible Unit := liftM (p >>= fun _ => pure () : Proc Unit)

end Machine

/-- The result of an action on one target. -/
inductive Change
  | wouldEdit (path : OsPath)
  | edited (path : OsPath)
  | created (path : OsPath)
  | alreadyWired (path : OsPath)
  | wouldRemove (path : OsPath)
  | removed (path : OsPath)
  | notWired (path : OsPath)
  | manual (steps : String)

end Linhello.Cli
