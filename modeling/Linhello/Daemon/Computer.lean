import Linhello.Daemon.Changes
import Linhello.Host.Surroundings
import Linhello.Tpm.DiskTraces
/-!
# The daemon on a machine of its own

`Host.World` takes the TPM as an oracle. On a `Computer` the operations behind which the
core crate works run its functions on a `Tpm.Machine`; the files of the host's signer
there lie under the config root like the daemon's own. Nothing fails for no reason.
-/

namespace Linhello.Daemon

open Common Linhello.Core Effect Host Host.World Liveness Biometrics

structure Computer where
  world : World
  machine : Tpm.Machine

namespace Computer

variable {P : Tpm.Platform} {x y z : Computer} {α : Type} {p : Proc α} {a : α}

/-! ## Runs -/

/-- What the core crate runs for an operation. -/
def coreCall (P : Tpm.Platform) : (o : Op) → Option (Tpm.Proc o.Ans)
  | .detectSecurityLevel => some (Tpm.detect P)
  | .bootMode => some Tpm.detectBootMode
  | .secureBoot => some Tpm.isSecureBootEnabled
  | .tpmSeal secret => some (Tpm.sealSecret P secret).run
  | .tpmUnseal env => some (Tpm.«unseal» P env).run
  | .diagnosePcrs env => some (Tpm.diagnosePcrs P env).run
  | _ => none

def Step (P : Tpm.Platform) : Semantics host Computer := fun x o r y =>
  match coreCall P o with
  | some call => y.world = x.world ∧ Exec (Tpm.Step P False) call x.machine r y.machine
  | none => y.machine = x.machine ∧ World.Step (fun _ => none) .none x.world o r y.world

/-- Operations that leave the computer as it is. -/
def still (o : Op) : Prop := quiet o = true ∧ ∀ P, coreCall P o = none

theorem step_still {o : Op} {r : o.Ans} (ho : still o) (h : Step P x o r y) :
    y = x ∧ World.Step (fun _ => none) .none x.world o r x.world := by
  unfold Step at h
  rw [ho.2 P] at h
  obtain ⟨hmachine, hstep⟩ := h
  have hworld : y.world = x.world := by rw [hstep.2, next_of_quiet ho.1]
  rw [hworld] at hstep
  exact ⟨by cases x; cases y; simp_all, hstep⟩

theorem step_of_still {o : Op} {r : o.Ans} (ho : still o)
    (h : World.Step (fun _ => none) .none x.world o r x.world) : Step P x o r x := by
  unfold Step
  rw [ho.2 P]
  exact ⟨rfl, h⟩

theorem exec_still (hp : p.Only still) (h : Exec (Step P) p x a y) : y = x :=
  hp.exec (R := fun x y : Computer => y = x) (fun _ => rfl) (fun h₁ h₂ => h₂.trans h₁)
    (fun ho hs => (step_still ho hs).1) h

theorem exec_of_world (hp : p.Only still) {w' : World}
    (h : Exec (World.Step (fun _ => none) .none) p x.world a w') : Exec (Step P) p x a x := by
  induction hp with
  | ret b => exact ⟨h.1, rfl⟩
  | @call o k here _ ih =>
      obtain ⟨r, v, hstep, hrest⟩ := h
      have hv : v = x.world := by rw [hstep.2, next_of_quiet here.1]
      subst hv
      exact ⟨r, x, step_of_still here hstep, ih r hrest⟩

theorem exec_world (hp : p.Only still) (h : Exec (Step P) p x a y) :
    Exec (World.Step (fun _ => none) .none) p x.world a x.world := by
  induction hp with
  | ret b => exact ⟨h.1, rfl⟩
  | @call o k here _ ih =>
      obtain ⟨r, v, hstep, hrest⟩ := h
      obtain ⟨rfl, hworld⟩ := step_still here hstep
      exact ⟨r, v.world, hworld, ih r hrest⟩

theorem answers_step (p : Proc α) : Answers (Step P) p := by
  induction p with
  | ret b => exact .ret b
  | call o k ih =>
      intro x
      have hstep : ∃ r y, Step P x o r y := by
        unfold Step
        cases hcall : coreCall P o with
        | some call =>
            have hexec := Tpm.exec_of_respond (F := False) (Tpm.Choices.fixed P) call x.machine
            exact ⟨_,
              ⟨x.world, (eval (Tpm.respond (Tpm.Choices.fixed P)) call x.machine).2⟩, rfl, hexec⟩
        | none =>
            refine ⟨simulatedScript.answer (fun _ => none) x.world o, ⟨x.world.next o _, x.machine⟩,
              rfl, ?_, rfl⟩
            apply Script.answer_allowed_of
            · rintro s rfl
              cases hcall
            · exact fun n => List.length_replicate
      obtain ⟨r, y, hstep⟩ := hstep
      obtain ⟨a, z, hrest⟩ := ih r y
      exact ⟨a, z, r, y, hstep, hrest⟩

theorem exists_exec_still (hp : p.Only still) (x : Computer) : ∃ a, Exec (Step P) p x a x := by
  obtain ⟨a, y, h⟩ := answers_step (P := P) p x
  obtain rfl := exec_still hp h
  exact ⟨a, h⟩

/-- Behind a part that only looks, it has failed or the computer is still as it was. -/
theorem exec_past {ε β γ : Type} {q : ExceptT ε (Program host) β}
    {f : β → ExceptT ε (Program host) γ} {r : Except ε γ} (hq : q.run.Only still)
    (h : Exec (Step P) (q >>= f).run x r y) :
    y = x ∨ ∃ b, Exec (Step P) q.run x (.ok b) x ∧ Exec (Step P) (f b).run x r y := by
  obtain ⟨b, v, hexec, hrest⟩ | ⟨e, herror, -⟩ := exec_exceptT_bind.1 h
  · obtain rfl := exec_still hq hexec
    exact .inr ⟨b, hexec, hrest⟩
  · exact .inl (exec_still hq herror)

/-- Only what comes first matters for the computer when the rest just looks. -/
theorem exists_exec_bind {β : Type} {f : α → Proc β} (hf : ∀ a, (f a).Only still) :
    (∃ b, Exec (Step P) (p >>= f) x b y) ↔ ∃ a, Exec (Step P) p x a y := by
  constructor
  · rintro ⟨b, h⟩
    obtain ⟨a, v, hexec, hrest⟩ := exec_bind.1 h
    obtain rfl := exec_still (hf a) hrest
    exact ⟨a, hexec⟩
  · rintro ⟨a, hexec⟩
    obtain ⟨b, hrest⟩ := exists_exec_still (P := P) (hf a) y
    exact ⟨b, exec_bind.2 ⟨a, y, hexec, hrest⟩⟩

theorem exists_exec_map {β : Type} {f : α → β} :
    (∃ b, Exec (Step P) (f <$> p) x b y) ↔ ∃ a, Exec (Step P) p x a y := by
  constructor
  · rintro ⟨b, h⟩
    obtain ⟨a, hexec, -⟩ := exec_map.1 h
    exact ⟨a, hexec⟩
  · rintro ⟨a, hexec⟩
    exact ⟨f a, exec_map.2 ⟨a, hexec, rfl⟩⟩

theorem exists_exec_exceptT_bind {ε β γ : Type} {q : ExceptT ε (Program host) β}
    {f : β → ExceptT ε (Program host) γ} (hf : ∀ b, (f b).run.Only still) :
    (∃ r, Exec (Step P) (q >>= f).run x r y) ↔ ∃ r, Exec (Step P) q.run x r y := by
  rw [ExceptT.run_bind]
  refine exists_exec_bind fun r => ?_
  cases r with
  | ok b => exact hf b
  | error e => exact .ret _

theorem still_of_looks {F : Path → Prop} {o : Op} (h : looks F o) : still o :=
  ⟨quiet_of_looks h, by cases o <;> first | exact fun _ => rfl | exact h.elim⟩

theorem still_of_surveyOp {o : Op} (h : surveyOp o) : still o := by
  cases o <;> first | exact ⟨rfl, fun _ => rfl⟩ | exact h.elim

/-! ## What is on disk -/

/-- The files and directories are as before. -/
structure SameFiles (x y : Computer) : Prop where
  root : y.world.root = x.world.root
  users : y.world.users = x.world.users
  signing : y.machine.sys.file = x.machine.sys.file

/-- The files are as before, except that self-healing may have added an entry to the
signature file. -/
structure HealsAtMost (x y : Computer) : Prop where
  root : y.world.root = x.world.root
  users : y.world.users = x.world.users
  signing : y.machine.sys.file = x.machine.sys.file ∨ x.machine.sys.Mended y.machine.sys

theorem SameFiles.refl (x : Computer) : SameFiles x x := ⟨rfl, rfl, rfl⟩

theorem SameFiles.of_eq (h : y = x) : SameFiles x y := h ▸ .refl x

theorem SameFiles.symm (h : SameFiles x y) : SameFiles y x :=
  ⟨h.root.symm, h.users.symm, h.signing.symm⟩

theorem SameFiles.trans (h₁ : SameFiles x y) (h₂ : SameFiles y z) : SameFiles x z :=
  ⟨h₂.root.trans h₁.root, h₂.users.trans h₁.users, h₂.signing.trans h₁.signing⟩

theorem SameFiles.healsAtMost (h : SameFiles x y) : HealsAtMost x y :=
  ⟨h.root, h.users, .inl h.signing⟩

theorem HealsAtMost.trans (h₁ : HealsAtMost x y) (h₂ : SameFiles y z) : HealsAtMost x z := by
  refine ⟨h₂.root.trans h₁.root, h₂.users.trans h₁.users, ?_⟩
  rcases h₁.signing with hsame | hmended
  · exact .inl (h₂.signing.trans hsame)
  · exact .inr (Tpm.mended_congr hmended rfl h₂.signing)

/-- What only reads, here or in the core crate. -/
def reads (o : Op) : Prop :=
  still o ∨ ∀ P, ∃ call, coreCall P o = some call ∧ call.Only Tpm.Op.Quiet

private theorem step_reads {o : Op} {r : o.Ans} (ho : reads o) (h : Step P x o r y) :
    SameFiles x y := by
  rcases ho with hstill | hcore
  · exact .of_eq (step_still hstill h).1
  · obtain ⟨call, hcall, hquiet⟩ := hcore P
    unfold Step at h
    rw [hcall] at h
    obtain ⟨hworld, hexec⟩ := h
    exact ⟨congrArg World.root hworld, congrArg World.users hworld, Tpm.exec_files hquiet hexec⟩

theorem exec_reads (hp : p.Only reads) (h : Exec (Step P) p x a y) : SameFiles x y :=
  hp.exec (R := SameFiles) SameFiles.refl SameFiles.trans step_reads h

end Computer

end Linhello.Daemon
