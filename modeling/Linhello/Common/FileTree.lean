/-!
# Files behind symbolic links

A file tree with symbolic links, and the walk an operating system takes along a path in
it. A link is followed wherever it stands, also in the last place, and a relative one
starts at the directory that holds it.
-/

namespace Linhello.Common

inductive TreeNode
  | dir
  /-- A regular file, with its text if it is UTF-8. -/
  | file (text : Option String)
  | device
  | link (target : String)
  deriving DecidableEq

/-- What lies where, by the names on the way from the root directory. -/
structure FileTree where
  node : List String → Option TreeNode

namespace FileTree

/-- The tree of some places with what lies there. -/
def ofList (entries : List (List String × TreeNode)) : FileTree :=
  ⟨fun place => List.lookup place entries⟩

/-- The parts of a path between its separators. -/
def parts (p : String) : List String := (p.toList.splitOn '/').map String.ofList

def render (place : List String) : String := "/" ++ "/".intercalate place

variable (t : FileTree)

def isDir (place : List String) : Bool := place = [] || t.node place = some .dir

/-- The place that is reached from a place along some parts; `follow` goes on behind a link. -/
def walkWith (follow : List String → List String → Option (List String)) :
    List String → List String → Option (List String)
  | here, [] => some here
  | here, name :: rest =>
      if !t.isDir here then none
      else if name = "" ∨ name = "." then walkWith follow here rest
      else if name = ".." then walkWith follow here.dropLast rest
      else
        match t.node (here ++ [name]) with
        | none => none
        | some (.link target) =>
            follow (if target.toList.head? = some '/' then [] else here) (parts target ++ rest)
        | some _ => walkWith follow (here ++ [name]) rest

/-- The walk over at most `links` links. -/
def walk : Nat → List String → List String → Option (List String)
  | 0 => t.walkWith fun _ _ => none
  | links + 1 => t.walkWith (walk links)

def MAX_LINKS : Nat := 40

/-- The place a path leads to; a relative path starts at the root directory. -/
def resolve (p : String) : Option (List String) :=
  if p = "" then none else t.walk MAX_LINKS [] (parts p)

/-- `std::fs::canonicalize`. -/
def canonicalize (p : String) : Option String := (t.resolve p).map render

/-- `Path::exists`. -/
def pathExists (p : String) : Bool := (t.resolve p).isSome

/-- `std::fs::read_to_string`, `none` on any error. -/
def readToString (p : String) : Option String :=
  (t.resolve p).bind fun place =>
    match t.node place with
    | some (.file text) => text
    | _ => none

/-- `std::fs::read_link`, `none` on any error: a link in the last place is not followed. -/
def readLink (p : String) : Option String := do
  let name ← (parts p).getLast?
  let place ← t.walk MAX_LINKS [] (parts p).dropLast
  match t.node (place ++ [name]) with
  | some (.link target) => some target
  | _ => none

end FileTree

end Linhello.Common
