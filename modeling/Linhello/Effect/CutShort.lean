import Linhello.Effect.Program
/-!
# Runs that are cut short

A program may stop between two of its operations: the process is killed, or the machine
goes down. `Runs` has every run of `Exec`, and every beginning of one.
-/

namespace Linhello.Effect

variable {σ : Signature} {W α β ε : Type} {S : Semantics σ W}

/-- A run that returned, or one that was cut short (`none`). -/
def Runs (S : Semantics σ W) : Program σ α → W → Option α → W → Prop
  | .ret a, w, e, w' => (e = some a ∨ e = none) ∧ w' = w
  | .call o k, w, e, w' => e = none ∧ w' = w ∨ ∃ r v, S w o r v ∧ Runs S (k r) v e w'

theorem runs_end {p : Program σ α} {w w' : W} {a : α} {e : Option α} (he : e = some a ∨ e = none)
    (h : Exec S p w a w') : Runs S p w e w' := by
  induction p generalizing w with
  | ret b =>
      obtain ⟨rfl, rfl⟩ := h
      exact ⟨he, rfl⟩
  | call o k ih =>
      obtain ⟨r, v, hS, hrest⟩ := h
      exact .inr ⟨r, v, hS, ih r hrest⟩

theorem runs_of_exec {p : Program σ α} {w w' : W} {a : α} (h : Exec S p w a w') :
    Runs S p w (some a) w' := runs_end (.inl rfl) h

theorem runs_stop (p : Program σ α) (w : W) : Runs S p w none w := by
  cases p with
  | ret a => exact ⟨.inr rfl, rfl⟩
  | call o k => exact .inl ⟨rfl, rfl⟩

theorem exec_of_runs {p : Program σ α} {w w' : W} {a : α} (h : Runs S p w (some a) w') :
    Exec S p w a w' := by
  induction p generalizing w with
  | ret b =>
      obtain ⟨heq | heq, rfl⟩ := h
      · exact ⟨Option.some.inj heq, rfl⟩
      · exact nomatch heq
  | call o k ih =>
      obtain ⟨heq, -⟩ | ⟨r, v, hS, hrest⟩ := h
      · exact nomatch heq
      · exact ⟨r, v, hS, ih r hrest⟩

/-- A run of two programs in a row stops in the first or in the second. -/
theorem runs_bind {p : Program σ α} {f : α → Program σ β} {w w' : W} {e : Option β}
    (h : Runs S (p >>= f) w e w') :
    (e = none ∧ Runs S p w none w') ∨ ∃ a v, Exec S p w a v ∧ Runs S (f a) v e w' := by
  induction p generalizing w with
  | ret a => exact .inr ⟨a, w, ⟨rfl, rfl⟩, h⟩
  | call o k ih =>
      obtain ⟨rfl, rfl⟩ | ⟨r, v, hS, hrest⟩ := h
      · exact .inl ⟨rfl, .inl ⟨rfl, rfl⟩⟩
      · rcases ih r hrest with ⟨rfl, hcut⟩ | ⟨a, u, hp, hf⟩
        · exact .inl ⟨rfl, .inr ⟨r, v, hS, hcut⟩⟩
        · exact .inr ⟨a, u, ⟨r, v, hS, hp⟩, hf⟩

theorem runs_perform_none {o : σ.Op} {w w' : W} (h : Runs S (Program.perform o) w none w') :
    w' = w ∨ ∃ r, S w o r w' := by
  obtain ⟨-, rfl⟩ | ⟨r, v, hS, -, rfl⟩ := h
  · exact .inl rfl
  · exact .inr ⟨r, hS⟩

theorem runs_exceptT_bind {x : ExceptT ε (Program σ) α} {f : α → ExceptT ε (Program σ) β}
    {w w' : W} {e : Option (Except ε β)} (h : Runs S (x >>= f).run w e w') :
    (e = none ∧ Runs S x.run w none w') ∨
    (∃ a v, Exec S x.run w (.ok a) v ∧ Runs S (f a).run v e w') ∨
    ∃ err, Exec S x.run w (.error err) w' ∧ (e = some (.error err) ∨ e = none) := by
  rw [ExceptT.run_bind] at h
  rcases runs_bind h with hcut | ⟨a | a, v, hx, hrest⟩
  · exact .inl hcut
  · obtain ⟨he, rfl⟩ := hrest
    exact .inr (.inr ⟨a, hx, he⟩)
  · exact .inr (.inl ⟨a, v, hx, hrest⟩)

theorem runs_lift_none {p : Program σ α} {w w' : W}
    (h : Runs S (liftM p : ExceptT ε (Program σ) α).run w none w') :
    Runs S p w none w' ∨ ∃ r, Exec S p w r w' := by
  have hrun : (liftM p : ExceptT ε (Program σ) α).run = p >>= fun r => .ret (.ok r) := rfl
  rw [hrun] at h
  rcases runs_bind h with ⟨-, hcut⟩ | ⟨r, v, hp, -, rfl⟩
  · exact .inl hcut
  · exact .inr ⟨r, hp⟩

theorem exec_attempt {ε' : Type} {f : ε → ε'} {p : Program σ (Except ε α)} {w w' : W}
    {r : Except ε' α} :
    Exec S (attempt f p).run w r w' ↔ ∃ x, Exec S p w x w' ∧ r = x.mapError f := by
  have hrun : (attempt f p).run = Except.mapError f <$> p := rfl
  rw [hrun, exec_map]

/-- A run cut short in the conversion of an error is one cut short in the operation. -/
theorem runs_attempt_none {ε' : Type} {f : ε → ε'} {p : Program σ (Except ε α)} {w w' : W}
    (h : Runs S (attempt f p).run w none w') :
    Runs S p w none w' ∨ ∃ r, Exec S p w r w' := by
  have hrun : (attempt f p).run = p >>= fun r => .ret (r.mapError f) := rfl
  rw [hrun] at h
  rcases runs_bind h with ⟨-, hcut⟩ | ⟨r, v, hp, -, rfl⟩
  · exact .inl hcut
  · exact .inr ⟨r, hp⟩

end Linhello.Effect
