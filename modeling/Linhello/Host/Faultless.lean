import Linhello.Host.Simulated
/-!
# A faultless host

When no operation fails for a reason of its own, the state decides most answers.
One rule for each operation says which, up to what the daemon cannot influence:
random bytes, devices, accounts and how the TPM wraps a secret.
-/

namespace Linhello.Host

open Common Linhello.Core Effect World

variable {sealed : SealedEnvelope → Option Bytes} {w w' : World}

theorem faultless_pathExists {p : Path} {b : Bool} (h : Step sealed .none w (.pathExists p) b w') :
    b = (w.file p).isSome ∧ w' = w := by
  obtain ⟨hallows, rfl⟩ := h
  simp only [allows, Faults.none, Bool.false_and, Bool.or_false, beq_iff_eq] at hallows
  exact ⟨hallows, rfl⟩

theorem faultless_read_some {p : Path} {d : p.Data} {r : Except IoError p.Data}
    (hfile : w.file p = some d) (h : Step sealed .none w (.read p) r w') : r = .ok d ∧ w' = w := by
  obtain ⟨hallows, rfl⟩ := h
  refine ⟨?_, rfl⟩
  cases r with
  | ok d' =>
      simp only [allows, ioAnswer, Bool.and_eq_true, decide_eq_true_eq] at hallows
      rw [Option.some.inj (hfile.symm.trans hallows.2)]
  | error e => cases e <;> simp [allows, ioAnswer, hfile, Faults.none] at hallows

theorem faultless_write {p : Path} {d : p.Data} {r : Except IoError Unit}
    (hdir : w.hasDir p.parent = true) (h : Step sealed .none w (.write p d) r w') :
    r = .ok () ∧ w' = w.set p d := by
  obtain ⟨hallows, rfl⟩ := h
  cases r with
  | ok _ => exact ⟨rfl, rfl⟩
  | error e => cases e <;> simp [allows, ioAnswer, hdir, Faults.none] at hallows

theorem faultless_setPermissions {p : Path} {r : Except IoError Unit}
    (hfile : (w.file p).isSome = true) (h : Step sealed .none w (.setPermissions p) r w') :
    r = .ok () ∧ w' = w := by
  obtain ⟨hallows, rfl⟩ := h
  refine ⟨?_, rfl⟩
  cases r with
  | ok _ => rfl
  | error e => cases e <;> simp [allows, ioAnswer, hfile, Faults.none] at hallows

theorem faultless_createDirAll {user : Option String} {r : Except IoError Unit}
    (h : Step sealed .none w (.createDirAll user) r w') : r = .ok () ∧ w' = w.mkdir user := by
  obtain ⟨hallows, rfl⟩ := h
  cases r with
  | ok _ => exact ⟨rfl, rfl⟩
  | error e => cases e <;> simp [allows, ioAnswer, Faults.none] at hallows

theorem faultless_tpmSeal {s : Bytes} {r : Except LinuxHelloError SealedEnvelope}
    (h : Step sealed .none w (.tpmSeal s) r w') :
    ∃ env, r = .ok env ∧ sealed env = some s ∧ w' = w := by
  obtain ⟨hallows, rfl⟩ := h
  cases r with
  | ok env => exact ⟨env, rfl, of_decide_eq_true hallows, rfl⟩
  | error e => cases hallows

theorem faultless_tpmUnseal {envelope : SealedEnvelope} {r : Except LinuxHelloError Bytes}
    (h : Step sealed .none w (.tpmUnseal envelope) r w') :
    (∀ s, sealed envelope = some s → r = .ok s) ∧
      (sealed envelope = none → ∃ e, r = .error e) ∧ w' = w := by
  obtain ⟨hallows, rfl⟩ := h
  cases r with
  | ok s =>
      simp only [allows, decide_eq_true_eq] at hallows
      refine ⟨fun s' hs => ?_, fun hnone => ?_, rfl⟩
      · rw [Option.some.inj (hallows.symm.trans hs)]
      · rw [hallows] at hnone
        cases hnone
  | error e =>
      simp only [allows, Faults.none, Bool.false_or, Option.isNone_iff_eq_none] at hallows
      refine ⟨fun s hs => ?_, fun _ => ⟨e, rfl⟩, rfl⟩
      rw [hallows] at hs
      cases hs

theorem step_cacheGet {flt : Faults} {user : String} {r : Option Bytes}
    (h : Step sealed flt w (.cacheGet user) r w') : r = w.cache.lookup user ∧ w' = w := by
  obtain ⟨hallows, rfl⟩ := h
  exact ⟨of_decide_eq_true hallows, rfl⟩

theorem step_randomBytes {flt : Faults} {n : Nat} {b : Bytes}
    (h : Step sealed flt w (.randomBytes n) b w') : b.length = n ∧ w' = w := by
  obtain ⟨hallows, rfl⟩ := h
  exact ⟨of_decide_eq_true hallows, rfl⟩

/-- As long as the TPM can seal whatever it is given, every operation has an answer. -/
theorem faultless_answers (hseal : ∀ s, ∃ env, sealed env = some s) (w : World) (o : Op) :
    ∃ r w', Step sealed .none w o r w' := by
  choose sealWith hsealed using hseal
  let sc : Script := { simulatedScript with sealWith := sealWith }
  exact ⟨sc.answer sealed w o, w.next o _,
    Script.answer_allowed hsealed (fun n => List.length_replicate) w o, rfl⟩

theorem answers_faultless {α : Type} (hseal : ∀ s, ∃ env, sealed env = some s) (p : Proc α) :
    Answers (Step sealed .none) p := by
  induction p with
  | ret a => exact .ret a
  | call o k ih =>
      intro w
      obtain ⟨r, v, hstep⟩ := faultless_answers hseal w o
      obtain ⟨a, w', hrest⟩ := ih r v
      exact ⟨a, w', r, v, hstep, hrest⟩

end Linhello.Host
