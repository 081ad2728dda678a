import Mathlib.Tactic.Common
/-!
# Errors

The error type of the workspace with the texts it prints, and the part of
`std::io::Error` the sources look at: whether a file was not found.
-/

namespace Linhello.Common

abbrev Bytes := List UInt8

inductive IoError
  | notFound
  | other (text : String)
  deriving DecidableEq, Repr

def IoError.display : IoError → String
  | .notFound => "No such file or directory (os error 2)"
  | .other text => text

inductive LinuxHelloError
  | tpm (msg : String)
  | biometrics (msg : String)
  | policy (msg : String)
  | io (e : IoError)
  | serde (msg : String)
  deriving DecidableEq, Repr

def LinuxHelloError.display : LinuxHelloError → String
  | .tpm msg => "TPM error: " ++ msg
  | .biometrics msg => "biometrics error: " ++ msg
  | .policy msg => "policy violation: " ++ msg
  | .io e => "io error: " ++ e.display
  | .serde msg => "serialization error: " ++ msg

inductive SecurityLevel
  | full
  | medium
  | basic
  deriving DecidableEq, Repr

inductive BootMode
  | uki
  | grub
  | unknown
  deriving DecidableEq, Repr

/-! ## Results -/

section Except

variable {ε ε' α β : Type}

theorem bind_eq_ok {x : Except ε α} {f : α → Except ε β} {b : β} :
    x >>= f = .ok b ↔ ∃ a, x = .ok a ∧ f a = .ok b := by
  cases x with
  | error e =>
      constructor
      · intro h
        cases h
      · rintro ⟨a, h, -⟩
        cases h
  | ok a =>
      constructor
      · intro h
        exact ⟨a, rfl, h⟩
      · rintro ⟨a', ha, h⟩
        rw [Except.ok.inj ha]
        exact h

theorem forall₂_of_mapM {f : α → Except ε β} {xs : List α} {ys : List β}
    (h : xs.mapM f = .ok ys) : List.Forall₂ (fun x y => f x = .ok y) xs ys := by
  induction xs generalizing ys with
  | nil =>
      obtain rfl := Except.ok.inj h
      exact .nil
  | cons x xs ih =>
      rw [List.mapM_cons] at h
      cases hx : f x with
      | error e => simp [hx, bind, Except.bind] at h
      | ok y =>
          cases hxs : xs.mapM f with
          | error e => simp [hx, hxs, bind, Except.bind] at h
          | ok ys' =>
              rw [hx, hxs] at h
              obtain rfl := Except.ok.inj h
              exact .cons hx (ih hxs)

theorem exists_of_mem_mapM {f : α → Except ε β} {xs : List α} {ys : List β} {y : β}
    (h : xs.mapM f = .ok ys) (hy : y ∈ ys) : ∃ x ∈ xs, f x = .ok y := by
  have hall := forall₂_of_mapM h
  clear h
  induction hall with
  | nil => cases hy
  | @cons x z xs zs hx hrest ih =>
      rcases List.mem_cons.1 hy with rfl | hy
      · exact ⟨x, List.mem_cons_self, hx⟩
      · obtain ⟨x', hx', hy'⟩ := ih hy
        exact ⟨x', List.mem_cons_of_mem _ hx', hy'⟩

theorem mapM_eq_ok_of_forall₂ {f : α → Except ε β} {xs : List α} {ys : List β}
    (h : List.Forall₂ (fun x y => f x = .ok y) xs ys) : xs.mapM f = .ok ys := by
  induction h with
  | nil => rfl
  | cons hx _ ih =>
      rw [List.mapM_cons, hx, ih]
      rfl

end Except

end Linhello.Common
