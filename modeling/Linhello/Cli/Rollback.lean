import Linhello.Cli.ReleaseGate
import Mathlib.Data.List.TakeWhile
import Mathlib.Data.String.Basic
/-!
# What an update goes back to

`update` picks a tag by the name of its ref, verifies the object the ref points to, and
checks the ref out again. The name that was signed with the object is not compared with the
ref, and the version that is installed is not compared with the one before.
-/

namespace Linhello.Cli.Update

open Common Effect

/-! ## Versions -/

/-- The numbers of a dotted version; a part that is no number reads as zero. -/
def parseVersion (s : String) : List Nat :=
  let s := (trim s).toList.dropWhile fun c => c == 'v' || c == 'V'
  let core := s.takeWhile fun c => !(c == '-' || c == '+' || c == '~' || c == '_' || c == ' ')
  (core.splitOn '.').map fun p => (parseUsize (trim (String.ofList p))).getD 0

/-- Compare `n` components from the `i`-th on, with zero for a missing one. -/
def cmpFrom (va vb : List Nat) (i : Nat) : Nat → Ordering
  | 0 => .eq
  | n + 1 =>
      match compare (va.getD i 0) (vb.getD i 0) with
      | .eq => cmpFrom va vb (i + 1) n
      | other => other

def cmpVersion (a b : String) : Ordering :=
  let va := parseVersion a
  let vb := parseVersion b
  cmpFrom va vb 0 (max va.length vb.length)

example : cmpVersion "v0.6.0" "0.5.9" = .gt ∧ cmpVersion "0.5.1-1.fc44" "0.5.1" = .eq ∧
    cmpVersion "0.5.0" "0.5.1" = .lt := by decide +kernel

/-! ## Tags -/

/-- A tag object: the name that was signed with it, its signatures, and the version of the
tree it tags. A ref to a bare commit has no name of its own and no signature. -/
structure TagObject where
  own : String
  sigs : List TagSignature
  version : String

/-- A ref under `refs/tags`. -/
structure TagRef where
  name : String
  object : TagObject

abbrev Refs := List TagRef

def Refs.resolve (refs : Refs) (name : String) : Option TagObject :=
  (refs.find? fun r => r.name == name).map TagRef.object

def Refs.releases (refs : Refs) : List String :=
  (refs.map TagRef.name).filter fun n => startsWith n "v"

/-- The order git sorts the names of refs by. -/
structure VersionSort where
  le : String → String → Prop
  refl : ∀ a, le a a
  trans : ∀ a b c, le a b → le b c → le a c
  antisymm : ∀ a b, le a b → le b a → a = b
  total : ∀ a b, le a b ∨ le b a

def IsTop (V : VersionSort) (refs : Refs) (name : String) : Prop :=
  name ∈ refs.releases ∧ ∀ n ∈ refs.releases, V.le n name

theorem IsTop.unique {V : VersionSort} {refs : Refs} {a b : String} (ha : IsTop V refs a)
    (hb : IsTop V refs b) : a = b :=
  V.antisymm a b (hb.2 a ha.1) (ha.2 b hb.1)

/-- The output of `git tag --list v* --sort=-version:refname`. -/
def IsListing (V : VersionSort) (refs : Refs) (stdout : String) : Prop :=
  (∀ n, n ∈ lines stdout ↔ n ∈ refs.releases) ∧ (lines stdout).Pairwise fun a b => V.le b a

/-- What git answers on a clone with these tags. -/
structure Answers (V : VersionSort) (refs : Refs) (es : List (Event cli)) : Prop where
  listed : ∀ uid cwd out, (⟨.output uid cwd "git" tagListArgs [], .ok out⟩ : Event cli) ∈ es →
    out.success = true → IsListing V refs out.stdout
  verified : ∀ uid cwd tag envs out object,
    (⟨.output uid cwd "git" (verifyTagArgs tag) envs, .ok out⟩ : Event cli) ∈ es →
    refs.resolve tag = some object → Documented object.sigs out

/-! ## What is installed -/

def switched : Event cli → Option String
  | ⟨.status uid cwd prog args, .ok true⟩ => (Op.status uid cwd prog args).checksOut
  | _ => none

/-- The release that sorts highest resolves to an object that carries its name, of a version
that is not older. -/
def Genuine (V : VersionSort) (refs : Refs) (current : String) : Prop :=
  ∃ top object, IsTop V refs top ∧ refs.resolve (trim top) = some object ∧
    object.own = trim top ∧ cmpVersion object.version current ≠ .lt

section Runs

variable {U : CaseMap} {V : VersionSort} {refs : Refs} {user root tag current : String}
  {owner : Option Nat} {log : List String} {es : List (Event cli)}
  {r : Except String (List String)}

/-! ## The name that is chosen -/

end Runs

end Linhello.Cli.Update
