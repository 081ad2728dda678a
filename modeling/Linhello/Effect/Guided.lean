import Linhello.Effect.Program
/-!
# Programs that rely on their answers

`p.Guided A P Q`: as long as every answer so far satisfies `A`, the next operation
of `p` satisfies `P`, and its result satisfies `Q`. The rules follow the structure
of a program; `Guided.events` and `Guided.simulates` say what follows for a run.
-/

namespace Linhello.Effect

variable {σ : Signature} {α β ε : Type} {W : Type} {S : Semantics σ W}

inductive Program.Guided (A : Event σ → Prop) (P : σ.Op → Prop) (Q : α → Prop) : Program σ α → Prop
  | ret {a : α} (h : Q a) : Guided A P Q (.ret a)
  | call {o : σ.Op} {k : σ.Ans o → Program σ α} (here : P o)
      (rest : ∀ r, A ⟨o, r⟩ → Guided A P Q (k r)) : Guided A P Q (.call o k)

section Rules

variable {A : Event σ → Prop} {P P' : σ.Op → Prop} {Q Q' : α → Prop} {R : β → Prop}

theorem guided_perform {o : σ.Op} (h : P o) : (Program.perform o).Guided A P fun r => A ⟨o, r⟩ :=
  .call h fun _ hr => .ret hr

theorem guided_bind {p : Program σ α} {f : α → Program σ β} (hp : p.Guided A P Q)
    (hf : ∀ a, Q a → (f a).Guided A P R) : (p >>= f).Guided A P R := by
  induction hp with
  | ret h => exact hf _ h
  | call here _ ih => exact .call here fun r hr => ih r hr

theorem guided_map {p : Program σ α} {f : α → β} (hp : p.Guided A P Q)
    (hf : ∀ a, Q a → R (f a)) : (f <$> p).Guided A P R :=
  guided_bind hp fun a ha => .ret (hf a ha)

theorem Program.Guided.imp {p : Program σ α} (hp : p.Guided A P Q) (hP : ∀ o, P o → P' o)
    (hQ : ∀ a, Q a → Q' a) : p.Guided A P' Q' := by
  induction hp with
  | ret h => exact .ret (hQ _ h)
  | call here _ ih => exact .call (hP _ here) ih

theorem Program.Only.guided {p : Program σ α} (hp : p.Only P) : p.Guided A P fun _ => True := by
  induction hp with
  | ret a => exact .ret trivial
  | call here _ ih => exact .call here fun r _ => ih r

theorem guided_exceptT_bind {x : ExceptT ε (Program σ) α} {f : α → ExceptT ε (Program σ) β}
    {R : Except ε β → Prop} (hx : x.run.Guided A P fun r => ∀ a, r = .ok a → Q a)
    (hf : ∀ a, Q a → (f a).run.Guided A P R) (herr : ∀ e, R (.error e)) :
    (x >>= f).run.Guided A P R := by
  refine guided_bind hx fun r hr => ?_
  cases r with
  | error e => exact .ret (herr e)
  | ok a => exact hf a (hr a rfl)

theorem guided_filterM {f : α → Program σ Bool} {l : List α}
    (hf : ∀ a ∈ l, (f a).Guided A P fun _ => True) :
    (l.filterM f).Guided A P fun r => ∀ a ∈ r, a ∈ l := by
  have haux : ∀ (rest acc : List α), (∀ a ∈ rest, a ∈ l) → (∀ a ∈ acc, a ∈ l) →
      (List.filterAuxM f rest acc).Guided A P fun r => ∀ a ∈ r, a ∈ l := by
    intro rest
    induction rest with
    | nil => exact fun acc _ hacc => .ret hacc
    | cons a rest ih =>
        intro acc hrest hacc
        refine guided_bind (hf a (hrest a List.mem_cons_self)) fun b _ => ?_
        refine ih _ (fun x hx => hrest x (List.mem_cons_of_mem _ hx)) ?_
        cases b with
        | false => exact hacc
        | true =>
            intro x hx
            rcases List.mem_cons.1 hx with rfl | hx
            · exact hrest x List.mem_cons_self
            · exact hacc x hx
  refine guided_bind (haux l [] (fun _ h => h) (by simp)) fun r hr => .ret ?_
  simpa using hr

theorem guided_mapM {f : α → Program σ β} {l : List α}
    (hf : ∀ a ∈ l, (f a).Guided A P fun _ => True) : (l.mapM f).Guided A P fun _ => True := by
  induction l with
  | nil => exact .ret trivial
  | cons a l ih =>
      rw [List.mapM_cons]
      refine guided_bind (hf a List.mem_cons_self) fun b _ => ?_
      refine guided_bind (ih fun x hx => hf x (List.mem_cons_of_mem _ hx)) fun bs _ => ?_
      exact .ret trivial

/-- In a run whose answers are as relied on, every operation is as promised. -/
theorem Program.Guided.events {p : Program σ α} (hp : p.Guided A P Q)
    {x y : W × List (Event σ)} {a : α} (h : Exec (recorded S) p x a y) (hA : ∀ e ∈ y.2, A e) :
    ∀ e ∈ y.2, e ∈ x.2 ∨ P e.1 := by
  induction hp generalizing x with
  | ret _ =>
      obtain ⟨-, rfl⟩ := h
      exact fun e he => .inl he
  | @call o k here _ ih =>
      obtain ⟨r, z, ⟨-, hz⟩, hrest⟩ := h
      have hmem : (⟨o, r⟩ : Event σ) ∈ z.2 := by
        rw [hz]
        exact List.mem_append_right _ List.mem_cons_self
      have hr : A ⟨o, r⟩ := hA _ ((prefix_of_exec_recorded hrest).subset hmem)
      intro e he
      rcases ih r hr hrest e he with he | he
      · rw [hz, List.mem_append, List.mem_singleton] at he
        rcases he with he | rfl
        · exact .inl he
        · exact .inr here
      · exact .inr he

/-- A preorder that every promised operation respects relates the worlds before and after,
where the world answers as relied on. -/
theorem Program.Guided.exec {R : W → W → Prop} (hrefl : ∀ w, R w w)
    (htrans : ∀ {u v w}, R u v → R v w → R u w) (hA : ∀ {w o r v}, S w o r v → A ⟨o, r⟩)
    (hop : ∀ {w o r v}, P o → S w o r v → R w v) {p : Program σ α} (hp : p.Guided A P Q)
    {w w' : W} {a : α} (h : Exec S p w a w') : R w w' := by
  induction hp generalizing w with
  | ret _ =>
      obtain ⟨-, rfl⟩ := h
      exact hrefl _
  | call here _ ih =>
      obtain ⟨r, v, hS, hrest⟩ := h
      exact htrans (hop here hS) (ih r (hA hS) hrest)

/-- What is promised keeps an invariant from which the answers are as relied on. -/
theorem Program.Guided.keeps {Inv : W → Prop}
    (hstep : ∀ {w o r v}, Inv w → P o → S w o r v → A ⟨o, r⟩ ∧ Inv v) {p : Program σ α}
    (hp : p.Guided A P Q) {w w' : W} {a : α} (hw : Inv w) (h : Exec S p w a w') : Inv w' ∧ Q a := by
  induction hp generalizing w with
  | ret hQ =>
      obtain ⟨rfl, rfl⟩ := h
      exact ⟨hw, hQ⟩
  | call here _ ih =>
      obtain ⟨r, v, hS, hrest⟩ := h
      obtain ⟨hr, hv⟩ := hstep hw here hS
      exact ih r hr hv hrest

/-- Related worlds that answer the promised operations alike run a program alike,
operation by operation. -/
theorem Program.Guided.simulates {W' : Type} {S' : Semantics σ W'} {R : W → W' → Prop}
    (hstep : ∀ {w w' o r v}, P o → R w w' → S w o r v → ∃ v', S' w' o r v' ∧ R v v')
    {p : Program σ α} (hp : p.Guided A P Q) {x y : W × List (Event σ)} {a : α}
    (h : Exec (recorded S) p x a y) (hA : ∀ e ∈ y.2, A e) {w' : W'} (hR : R x.1 w') :
    ∃ v', Exec (recorded S') p (w', x.2) a (v', y.2) ∧ R y.1 v' := by
  induction hp generalizing x w' with
  | ret _ =>
      obtain ⟨rfl, rfl⟩ := h
      exact ⟨w', ⟨rfl, rfl⟩, hR⟩
  | @call o k here _ ih =>
      obtain ⟨r, z, ⟨hS, hz⟩, hrest⟩ := h
      have hmem : (⟨o, r⟩ : Event σ) ∈ z.2 := by
        rw [hz]
        exact List.mem_append_right _ List.mem_cons_self
      have hr : A ⟨o, r⟩ := hA _ ((prefix_of_exec_recorded hrest).subset hmem)
      obtain ⟨u', hS', hR'⟩ := hstep here hR hS
      obtain ⟨v', hexec, hfinal⟩ := ih r hr hrest hR'
      exact ⟨v', ⟨r, (u', z.2), ⟨hS', hz⟩, hexec⟩, hfinal⟩

end Rules

/-! ## Two runs with the same surroundings -/

/-- After the same history, an operation in `Outer` got the same answer in both runs. -/
def Alike (Outer : σ.Op → Prop) (events events' : List (Event σ)) : Prop :=
  ∀ history o r r', Outer o → history ++ [⟨o, r⟩] <+: events →
    history ++ [⟨o, r'⟩] <+: events' → r = r'

/-- Where the world settles every other answer, two such runs from one world are the same. -/
theorem exec_of_alike {Outer : σ.Op → Prop}
    (hanswer : ∀ {w o r r' v v'}, ¬ Outer o → S w o r v → S w o r' v' → r = r')
    (hnext : ∀ {w o r v v'}, S w o r v → S w o r v' → v = v')
    {p : Program σ α} {x y z : W × List (Event σ)} {a b : α} (hy : Exec (recorded S) p x a y)
    (hz : Exec (recorded S) p x b z) (halike : Alike Outer y.2 z.2) : a = b ∧ y = z := by
  induction p generalizing x with
  | ret c =>
      obtain ⟨rfl, rfl⟩ := hy
      obtain ⟨rfl, rfl⟩ := hz
      exact ⟨rfl, rfl⟩
  | call o k ih =>
      obtain ⟨r, u, ⟨hu, hu₂⟩, hyrest⟩ := hy
      obtain ⟨r', v, ⟨hv, hv₂⟩, hzrest⟩ := hz
      have heq : r = r' := by
        by_cases hout : Outer o
        · have hypre := prefix_of_exec_recorded hyrest
          have hzpre := prefix_of_exec_recorded hzrest
          rw [hu₂] at hypre
          rw [hv₂] at hzpre
          exact halike _ _ _ _ hout hypre hzpre
        · exact hanswer hout hu hv
      subst heq
      have huv : u = v := Prod.ext (hnext hu hv) (hu₂.trans hv₂.symm)
      subst huv
      exact ih r hyrest hzrest

end Linhello.Effect
