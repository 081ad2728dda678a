import Linhello.Effect.Brackets
import Linhello.Effect.Interleaving
/-!
# Programs that tell what they have done

`p.traced es` runs like `p` and returns, with the result, the events it has gone through
since `es`. A program among others is then known by its own events, although the world they
share records nothing.
-/

namespace Linhello.Effect

variable {σ : Signature} {α β ι W X : Type} {S : Semantics σ W}

def Program.traced (es : List (Event σ)) : Program σ α → Program σ (α × List (Event σ))
  | .ret a => .ret (a, es)
  | .call o k => .call o fun r => (k r).traced (es ++ [⟨o, r⟩])

theorem traced_bind (p : Program σ α) (f : α → Program σ β) (es : List (Event σ)) :
    (p >>= f).traced es = p.traced es >>= fun x => (f x.1).traced x.2 := by
  induction p generalizing es with
  | ret a => rfl
  | call o k ih =>
      simp only [Program.call_bind, Program.traced]
      congr 1
      funext r
      exact ih r _

theorem exec_traced {p : Program σ α} {es es' : List (Event σ)} {w w' : W} {a : α} :
    Exec S (p.traced es) w (a, es') w' ↔ Exec (recorded S) p (w, es) a (w', es') := by
  induction p generalizing w es with
  | ret b =>
      simp only [Program.traced, exec_ret, Prod.mk.injEq, and_assoc]
      exact and_congr_right fun _ => and_comm
  | call o k ih =>
      constructor
      · intro h
        obtain ⟨r, v, hS, hrest⟩ := h
        exact ⟨r, (v, es ++ [⟨o, r⟩]), ⟨hS, rfl⟩, (ih r).1 hrest⟩
      · intro h
        obtain ⟨r, ⟨v, es₁⟩, ⟨hS, hes⟩, hrest⟩ := h
        subst hes
        exact ⟨r, v, hS, (ih r).2 hrest⟩

theorem Program.Only.traced {P : σ.Op → Prop} {p : Program σ α} (hp : p.Only P)
    (es : List (Event σ)) : (p.traced es).Only P := by
  induction hp generalizing es with
  | ret a => exact .ret _
  | call here _ ih => exact .call here fun r => ih r _

/-- A recorded run adds a trace of the program to what was recorded before. -/
theorem traces_of_recorded {p : Program σ α} {x y : W × List (Event σ)} {a : α}
    (h : Exec (recorded S) p x a y) : ∃ es, y.2 = x.2 ++ es ∧ p.Traces es a := by
  induction p generalizing x with
  | ret b =>
      obtain ⟨rfl, rfl⟩ := h
      exact ⟨[], (List.append_nil _).symm, rfl, rfl⟩
  | call o k ih =>
      obtain ⟨r, z, ⟨-, hz⟩, hrest⟩ := h
      obtain ⟨es, hes, htraces⟩ := ih r hrest
      refine ⟨⟨o, r⟩ :: es, ?_, r, es, rfl, htraces⟩
      calc y.2 = z.2 ++ es := hes
        _ = (x.2 ++ [⟨o, r⟩]) ++ es := by rw [hz]
        _ = x.2 ++ (⟨o, r⟩ :: es) := by rw [List.append_assoc, List.singleton_append]

/-- A trace whose events leave the world as it is is a run there. -/
theorem exec_of_traces {p : Program σ α} {es : List (Event σ)} {a : α} {w : W}
    (h : p.Traces es a) (hstep : ∀ e ∈ es, S w e.1 e.2 w) : Exec S p w a w := by
  induction p generalizing es with
  | ret b =>
      obtain ⟨-, rfl⟩ := h
      exact ⟨rfl, rfl⟩
  | call o k ih =>
      obtain ⟨r, rest, rfl, hrest⟩ := h
      refine ⟨r, w, hstep ⟨o, r⟩ List.mem_cons_self, ih r hrest ?_⟩
      intro e he
      exact hstep e (List.mem_cons_of_mem _ he)

/-! ## Among other programs -/

section Promises

variable {S : ThreadSemantics σ ι X} {G : ι → X → X → Prop} {i : ι}

/-- An invariant that the operations of a footprint keep, and what the program tells of
them. -/
theorem Promises.traced_only {A : σ.Op → Prop} {I : X → Prop} {p : Program σ α} (hp : p.Only A)
    (hI : Stable G i I) (hop : ∀ x o r y, A o → I x → S i x o r y → G i x y ∧ I y)
    (es : List (Event σ)) : Promises S G i I (p.traced es) fun a x =>
      (∃ told, a.2 = es ++ told ∧ p.Traces told a.1) ∧ I x := by
  induction hp generalizing es with
  | ret a => exact Promises.ret hI fun x hx => ⟨⟨[], (List.append_nil _).symm, rfl, rfl⟩, hx⟩
  | @call o k here _ ih =>
      refine Promises.call hI (fun x r y hx hS => hop x o r y here hx hS) fun r => ?_
      refine (ih r (es ++ [⟨o, r⟩])).consequence (fun _ hx => hx) fun a x ⟨⟨told, heq, ht⟩, hx⟩ =>
        ?_
      refine ⟨⟨⟨o, r⟩ :: told, ?_, r, told, rfl, ht⟩, hx⟩
      rw [heq, List.append_assoc, List.singleton_append]

theorem Promises.traced_perform {o : σ.Op} {P : X → Prop} {M : σ.Ans o → X → Prop}
    {es : List (Event σ)} (hP : Stable G i P) (hM : ∀ r, Stable G i (M r))
    (hop : ∀ x r y, P x → S i x o r y → G i x y ∧ M r y) :
    Promises S G i P ((Program.perform o).traced es) fun a x =>
      a.2 = es ++ [⟨o, a.1⟩] ∧ M a.1 x :=
  Promises.call hP hop fun r => Promises.ret (hM r) fun _ hx => ⟨rfl, hx⟩

end Promises

end Linhello.Effect
