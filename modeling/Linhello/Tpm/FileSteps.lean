import Linhello.Effect.Expansion
import Linhello.Effect.Interleaving
import Linhello.Tpm.Machine
/-!
# Writes in two steps

`std::fs::write` opens its file, which empties it, and then writes. Other calls, or a
crash, can come in between.
-/

namespace Linhello.Tpm

open Common Effect Host

/-- A file just opened for writing, as a reader finds it. -/
def Artifact.emptied : (a : Artifact) → a.Data
  | .signingKey | .signingPub | .systemdPub _ => some ""
  | .signatures | .signaturesTmp | .systemdSignatures _ =>
      .malformed "EOF while parsing a value at line 1 column 0"

/-- The file operations that an operation of the model consists of. -/
def fileSteps : (o : Op) → Proc o.Ans
  | .writeFile a d => do
      match ← perform (.writeFile a a.emptied) with
      | .error e => pure (.error e)
      | .ok _ => perform (.writeFile a d)
  | o => perform o

def Op.Single (o : Op) : Prop := ∀ a d, o ≠ .writeFile a d

theorem fileSteps_single {o : Op} (h : o.Single) : fileSteps o = perform o := by
  cases o with
  | writeFile a d => exact absurd rfl (h a d)
  | _ => rfl

theorem Op.Quiet.single {o : Op} (h : o.Quiet) : o.Single := by
  rintro a d rfl
  have hwrites := h.1 a
  simp [Op.mayWrite] at hwrites

theorem expand_single {o : Op} (h : o.Single) :
    @Program.expand tpm tpm _ fileSteps (perform o) = perform o :=
  (expand_perform (σ := tpm) o).trans (fileSteps_single h)

section Writes

variable {ι X : Type} {S : ThreadSemantics tpm ι X} {G : ι → X → X → Prop} {i : ι}
  {F M Q : X → Prop} {E : X → Prop}

theorem attempts_write {a : Artifact} {d : a.Data} (hF : Stable G i F) (hM : Stable G i M)
    (hQ : Stable G i Q)
    (hopen : ∀ x r y, F x → S i x (.writeFile a a.emptied) r y → r = .ok () ∧ G i x y ∧ M y)
    (hwrite : ∀ x r y, M x → S i x (.writeFile a d) r y → r = .ok () ∧ G i x y ∧ Q y) :
    Attempts S G i F (expandT fileSteps (io (perform (.writeFile a d)))) (fun _ => Q) E := by
  rw [expandT_attempt]
  refine Attempts.attempt ?_
  rw [show Program.expand fileSteps (perform (.writeFile a d)) = fileSteps (.writeFile a d) from
    expand_perform (σ := tpm) _]
  refine Promises.bind (Q := fun r x => r = Except.ok () ∧ M x) ?_ fun r => Promises.given fun hr =>
    ?_
  · refine Promises.perform hF (fun r => Stable.const.and hM) fun x r y hx hS => ?_
    obtain ⟨hr, hG, hy⟩ := hopen x r y hx hS
    exact ⟨hG, hr, hy⟩
  · subst hr
    refine (Promises.perform (M := fun r x => r = Except.ok () ∧ Q x) hM
      (fun r => Stable.const.and hQ) fun x r y hx hS => ?_).consequence (fun _ hx => hx) ?_
    · obtain ⟨hr, hG, hy⟩ := hwrite x r y hx hS
      exact ⟨hG, hr, hy⟩
    · rintro r x ⟨rfl, hx⟩
      exact hx

end Writes

/-! ## Steps without faults -/

section Faultless

variable {P : Platform} {m m' : Machine}

theorem step_writeFile {a : Artifact} {d : a.Data} {r : Except IoError Unit}
    (hs : Step P False m (.writeFile a d) r m') : r = .ok () ∧ m' = m.setFile a (some d) := by
  obtain ⟨ch, hr⟩ | ⟨hfalse, -⟩ := hs
  · exact Prod.mk.inj hr
  · exact hfalse.elim

theorem step_readFile {a : Artifact} {r : Except IoError a.Data}
    (hs : Step P False m (.readFile a) r m') :
    m' = m ∧ r = (match m.sys.file a with
      | none => .error .notFound
      | some d => .ok d) := by
  obtain ⟨ch, hr⟩ | ⟨hfalse, -⟩ := hs
  · rw [respond] at hr
    cases hfile : m.sys.file a with
    | none =>
        rw [hfile] at hr
        exact ⟨(Prod.mk.inj hr).2, (Prod.mk.inj hr).1⟩
    | some d =>
        rw [hfile] at hr
        exact ⟨(Prod.mk.inj hr).2, (Prod.mk.inj hr).1⟩
  · exact hfalse.elim

theorem step_exists {a : Artifact} {r : Bool} (hs : Step P False m (.pathExists a) r m') :
    m' = m ∧ r = (m.sys.file a).isSome := by
  obtain ⟨ch, hr⟩ | ⟨hfalse, -⟩ := hs
  · exact ⟨(Prod.mk.inj hr).2, (Prod.mk.inj hr).1⟩
  · exact hfalse.elim

theorem step_setPermissions {a : Artifact} {mode : Nat} {r : Except IoError Unit}
    (hs : Step P False m (.setPermissions a mode) r m') : r = .ok () := by
  obtain ⟨ch, hr⟩ | ⟨hfalse, -⟩ := hs
  · exact (Prod.mk.inj hr).1
  · exact hfalse.elim

theorem step_createConfigRoot {r : Except IoError Unit}
    (hs : Step P False m .createConfigRoot r m') : r = .ok () := by
  obtain ⟨ch, hr⟩ | ⟨hfalse, -⟩ := hs
  · exact (Prod.mk.inj hr).1
  · exact hfalse.elim

end Faultless

end Linhello.Tpm
