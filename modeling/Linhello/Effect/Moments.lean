import Linhello.Effect.Program
/-!
# The moments of a run

A moment of a run is an operation with its answer and the world it was performed in. What
holds whenever an operation of some kind is performed is a statement about the moments.
-/

namespace Linhello.Effect

structure Moment (σ : Signature) (W : Type) where
  world : W
  event : Event σ

variable {σ : Signature} {W α β ε : Type} {S : Semantics σ W}

/-- The semantics that keeps the moments so far. -/
def watched (S : Semantics σ W) : Semantics σ (W × List (Moment σ W)) :=
  fun x o r y => S x.1 o r y.1 ∧ y.2 = x.2 ++ [⟨x.1, o, r⟩]

/-- The steps of a semantics that satisfy a condition. -/
def Semantics.restrict (S : Semantics σ W) (F : W → (o : σ.Op) → σ.Ans o → Prop) : Semantics σ W :=
  fun w o r w' => S w o r w' ∧ F w o r

/-- The moments `ms` are those of a run of `p`. -/
structure MomentsOf (S : Semantics σ W) (p : Program σ α) (w : W) (a : α) (w' : W)
    (ms : List (Moment σ W)) : Prop where
  exec : Exec (watched S) p (w, []) a (w', ms)

private theorem watched_append {p : Program σ α} {x y : W × List (Moment σ W)} {a : α}
    (h : Exec (watched S) p x a y) (pre : List (Moment σ W)) :
    Exec (watched S) p (x.1, pre ++ x.2) a (y.1, pre ++ y.2) := by
  induction p generalizing x with
  | ret b =>
      obtain ⟨rfl, rfl⟩ := h
      exact ⟨rfl, rfl⟩
  | call o k ih =>
      obtain ⟨r, z, ⟨hS, hz⟩, hrest⟩ := h
      refine ⟨r, (z.1, pre ++ z.2), ⟨hS, ?_⟩, ih r hrest⟩
      rw [hz, List.append_assoc]

theorem exists_moments {p : Program σ α} {x y : W × List (Moment σ W)} {a : α}
    (h : Exec (watched S) p x a y) : ∃ ms, y.2 = x.2 ++ ms ∧ MomentsOf S p x.1 a y.1 ms := by
  induction p generalizing x with
  | ret b =>
      obtain ⟨rfl, rfl⟩ := h
      exact ⟨[], (List.append_nil _).symm, ⟨rfl, rfl⟩⟩
  | call o k ih =>
      obtain ⟨r, z, ⟨hS, hz⟩, hrest⟩ := h
      obtain ⟨ms, hms, hof⟩ := ih r hrest
      refine ⟨⟨x.1, o, r⟩ :: ms, ?_, ⟨r, (z.1, [⟨x.1, o, r⟩]), ⟨hS, rfl⟩, ?_⟩⟩
      · rw [hms, hz, List.append_assoc]
        rfl
      · exact watched_append hof.exec [⟨x.1, o, r⟩]

namespace MomentsOf

theorem of_ret {a b : α} {w w' : W} {ms : List (Moment σ W)} (h : MomentsOf S (.ret b) w a w' ms) :
    a = b ∧ w' = w ∧ ms = [] := by
  obtain ⟨rfl, heq⟩ := h.exec
  exact ⟨rfl, congrArg Prod.fst heq, congrArg Prod.snd heq⟩

theorem of_call {o : σ.Op} {k : σ.Ans o → Program σ α} {a : α} {w w' : W}
    {ms : List (Moment σ W)} (h : MomentsOf S (.call o k) w a w' ms) :
    ∃ r v rest, S w o r v ∧ ms = ⟨w, o, r⟩ :: rest ∧ MomentsOf S (k r) v a w' rest := by
  obtain ⟨r, z, ⟨hS, hz⟩, hrest⟩ := h.exec
  obtain ⟨rest, hms, hof⟩ := exists_moments hrest
  refine ⟨r, z.1, rest, hS, ?_, hof⟩
  change ms = z.2 ++ rest at hms
  rw [hms, hz]
  rfl

theorem of_bind {p : Program σ α} {f : α → Program σ β} {b : β} {w w' : W}
    {ms : List (Moment σ W)} (h : MomentsOf S (p >>= f) w b w' ms) :
    ∃ a v first rest, ms = first ++ rest ∧ MomentsOf S p w a v first ∧
      MomentsOf S (f a) v b w' rest := by
  obtain ⟨a, z, hp, hf⟩ := exec_bind.1 h.exec
  obtain ⟨first, hfirst, hpof⟩ := exists_moments hp
  obtain ⟨rest, hrest, hfof⟩ := exists_moments hf
  refine ⟨a, z.1, first, rest, ?_, hpof, hfof⟩
  change ms = z.2 ++ rest at hrest
  change z.2 = [] ++ first at hfirst
  rw [hrest, hfirst, List.nil_append]

theorem of_map {p : Program σ α} {f : α → β} {b : β} {w w' : W} {ms : List (Moment σ W)}
    (h : MomentsOf S (f <$> p) w b w' ms) : ∃ a, b = f a ∧ MomentsOf S p w a w' ms := by
  have hbind : f <$> p = p >>= fun a => .ret (f a) := rfl
  rw [hbind] at h
  obtain ⟨a, v, first, rest, hms, hp, hrest⟩ := h.of_bind
  obtain ⟨rfl, rfl, rfl⟩ := hrest.of_ret
  rw [List.append_nil] at hms
  exact ⟨a, rfl, hms ▸ hp⟩

theorem of_exceptT_bind {x : ExceptT ε (Program σ) α} {f : α → ExceptT ε (Program σ) β}
    {r : Except ε β} {w w' : W} {ms : List (Moment σ W)} (h : MomentsOf S (x >>= f).run w r w' ms) :
    (∃ a v first rest, ms = first ++ rest ∧ MomentsOf S x.run w (.ok a) v first ∧
      MomentsOf S (f a).run v r w' rest) ∨
    ∃ e, r = .error e ∧ MomentsOf S x.run w (.error e) w' ms := by
  rw [ExceptT.run_bind] at h
  obtain ⟨a, v, first, rest, hms, hx, hrest⟩ := h.of_bind
  cases a with
  | ok a => exact .inl ⟨a, v, first, rest, hms, hx, hrest⟩
  | error e =>
      obtain ⟨rfl, rfl, rfl⟩ := hrest.of_ret
      rw [List.append_nil] at hms
      exact .inr ⟨e, rfl, hms ▸ hx⟩

/-- Moments that all satisfy a condition make a run of the steps that do. -/
theorem exec_restrict {F : W → (o : σ.Op) → σ.Ans o → Prop} {p : Program σ α} {a : α} {w w' : W}
    {ms : List (Moment σ W)} (h : MomentsOf S p w a w' ms)
    (hF : ∀ m ∈ ms, F m.world m.event.1 m.event.2) : Exec (Semantics.restrict S F) p w a w' := by
  induction p generalizing w ms with
  | ret b =>
      obtain ⟨rfl, rfl, -⟩ := h.of_ret
      exact ⟨rfl, rfl⟩
  | call o k ih =>
      obtain ⟨r, v, rest, hS, rfl, hof⟩ := h.of_call
      refine ⟨r, v, ⟨hS, hF _ List.mem_cons_self⟩, ih r hof ?_⟩
      intro m hm
      exact hF m (List.mem_cons_of_mem _ hm)

theorem ops {P : σ.Op → Prop} {p : Program σ α} (hp : p.Only P) {a : α} {w w' : W}
    {ms : List (Moment σ W)} (h : MomentsOf S p w a w' ms) : ∀ m ∈ ms, P m.event.1 := by
  induction hp generalizing w ms with
  | ret b =>
      obtain ⟨-, -, rfl⟩ := h.of_ret
      nofun
  | call here _ ih =>
      obtain ⟨r, v, rest, -, rfl, hof⟩ := h.of_call
      intro m hm
      rcases List.mem_cons.1 hm with rfl | hm
      · exact here
      · exact ih r hof m hm

/-- An invariant that the operations of the footprint keep holds at every moment. -/
theorem invariant {P : σ.Op → Prop} {I : W → Prop} {p : Program σ α} (hp : p.Only P)
    (hop : ∀ {w o r v}, P o → S w o r v → I w → I v) {a : α} {w w' : W}
    {ms : List (Moment σ W)} (h : MomentsOf S p w a w' ms) (hw : I w) : ∀ m ∈ ms, I m.world := by
  induction hp generalizing w ms with
  | ret b =>
      obtain ⟨-, -, rfl⟩ := h.of_ret
      nofun
  | call here _ ih =>
      obtain ⟨r, v, rest, hS, rfl, hof⟩ := h.of_call
      intro m hm
      rcases List.mem_cons.1 hm with rfl | hm
      · exact hw
      · exact ih r hof (hop here hS hw) m hm

end MomentsOf

end Linhello.Effect
