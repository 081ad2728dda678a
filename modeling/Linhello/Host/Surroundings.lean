import Linhello.Host.Faultless
/-!
# The same surroundings

Two requests served in the same state see the same devices, accounts and session
files, and would draw the same random bytes. `within env` keeps these answers
fixed; the files, the cache and the TPM answer as the world says. Without faults
every operation then has its one answer, up to what a camera captures and how the
TPM wraps a secret.
-/

namespace Linhello.Host

open Common Linhello.Core Effect World

/-- The operations whose answer comes from outside the daemon's own state, but for
the frames of a camera. -/
def surrounds : Op → Bool
  | .randomBytes _ | .rgbDevice | .irDevice | .enumerateCameras | .canonicalize _ | .probeCamera _
  | .readText _ | .readLink _ | .uidForName _ => true
  | _ => false

structure Surroundings where
  answer : (o : Op) → o.Ans
  random : ∀ n, (answer (.randomBytes n)).length = n

variable {env : Surroundings} {sealed : SealedEnvelope → Option Bytes} {w w' : World} {α : Type}

def within (env : Surroundings) (S : Semantics host World) : Semantics host World :=
  fun w o r w' => S w o r w' ∧ (surrounds o = true → r = env.answer o)

theorem step_of_within {S : Semantics host World} {o : Op} {r : o.Ans}
    (h : within env S w o r w') : S w o r w' := h.1

theorem exec_of_within {S : Semantics host World} {p : Proc α} {a : α}
    (h : Exec (within env S) p w a w') : Exec S p w a w' :=
  exec_mono (fun _ _ _ _ => step_of_within) h

/-- The faultless host in given surroundings. -/
abbrev calm (env : Surroundings) (sealed : SealedEnvelope → Option Bytes) : Semantics host World :=
  within env (Step sealed .none)

/-! ## The answers -/

theorem calm_surrounds {o : Op} {r : o.Ans} (ho : surrounds o = true)
    (h : calm env sealed w o r w') : r = env.answer o ∧ w' = w := by
  refine ⟨h.2 ho, ?_⟩
  have hquiet : quiet o = true := by
    cases o <;> first | rfl | cases ho
  rw [h.1.2, next_of_quiet hquiet]

theorem calm_pathExists {p : Path} {b : Bool} (h : calm env sealed w (.pathExists p) b w') :
    b = (w.file p).isSome ∧ w' = w :=
  faultless_pathExists h.1

theorem calm_read_some {p : Path} {d : p.Data} {r : Except IoError p.Data}
    (hfile : w.file p = some d)
    (h : calm env sealed w (.read p) r w') : r = .ok d ∧ w' = w :=
  faultless_read_some hfile h.1

theorem calm_write {p : Path} {d : p.Data} {r : Except IoError Unit}
    (hdir : w.hasDir p.parent = true)
    (h : calm env sealed w (.write p d) r w') : r = .ok () ∧ w' = w.set p d :=
  faultless_write hdir h.1

theorem calm_setPermissions {p : Path} {r : Except IoError Unit} (hfile : (w.file p).isSome = true)
    (h : calm env sealed w (.setPermissions p) r w') : r = .ok () ∧ w' = w :=
  faultless_setPermissions hfile h.1

theorem calm_createDirAll {user : Option String} {r : Except IoError Unit}
    (h : calm env sealed w (.createDirAll user) r w') : r = .ok () ∧ w' = w.mkdir user :=
  faultless_createDirAll h.1

theorem calm_tpmSeal {s : Bytes} {r : Except LinuxHelloError SealedEnvelope}
    (h : calm env sealed w (.tpmSeal s) r w') : ∃ env, r = .ok env ∧ w' = w := by
  obtain ⟨env, hr, -, hw⟩ := faultless_tpmSeal h.1
  exact ⟨env, hr, hw⟩

theorem calm_tpmUnseal {envelope : SealedEnvelope} {r : Except LinuxHelloError Bytes}
    (h : calm env sealed w (.tpmUnseal envelope) r w') :
    (∀ s, sealed envelope = some s → r = .ok s) ∧
      (sealed envelope = none → ∃ e, r = .error e) ∧ w' = w :=
  faultless_tpmUnseal h.1

/-! ## There is an answer -/

theorem calm_answers {o : Op} (ho : ∀ s, o ≠ .tpmSeal s) (w : World) :
    ∃ r w', calm env sealed w o r w' := by
  let sc : Script := { simulatedScript with random := fun n => env.answer (.randomBytes n) }
  by_cases hs : surrounds o = true
  · refine ⟨env.answer o, w.next o (env.answer o), ⟨?_, rfl⟩, fun _ => rfl⟩
    cases o with
    | randomBytes n => simp [allows, env.random n]
    | _ => first | rfl | cases hs
  · exact ⟨sc.answer sealed w o, w.next o _,
      ⟨Script.answer_allowed_of (fun s h => absurd h (ho s)) env.random w, rfl⟩,
      fun h => absurd h hs⟩

/-- Every operation has an answer if the TPM can seal whatever it is given. -/
theorem answers_calm (hseal : ∀ s, ∃ envelope, sealed envelope = some s) (p : Proc α) :
    Answers (calm env sealed) p := by
  induction p with
  | ret a => exact .ret a
  | call o k ih =>
      intro w
      have hanswer : ∃ r v, calm env sealed w o r v := by
        by_cases ho : ∃ s, o = .tpmSeal s
        · obtain ⟨s, rfl⟩ := ho
          obtain ⟨envelope, hsealed⟩ := hseal s
          exact ⟨.ok envelope, w, ⟨by simp [allows, hsealed], rfl⟩, fun h => by cases h⟩
        · exact calm_answers (fun s h => ho ⟨s, h⟩) w
      obtain ⟨r, v, hstep⟩ := hanswer
      obtain ⟨a, w', hrest⟩ := ih r v
      exact ⟨a, w', r, v, hstep, hrest⟩

end Linhello.Host
