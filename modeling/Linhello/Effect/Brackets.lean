import Linhello.Effect.Program
/-!
# Acquired and released resources

Some events acquire a resource and some release one. `Scoped` says that in a list of
events every acquisition is paired with a later release, the pairs properly nested, and
that nothing else is released. A program may have events after which it cannot release
what it holds; `Tidy` keeps count of these.
-/

namespace Linhello.Effect

variable {σ : Signature} {α β ε H : Type}

/-! ## Traces -/

theorem traces_bind {p : Program σ α} {f : α → Program σ β} {es : List (Event σ)} {b : β} :
    (p >>= f).Traces es b ↔
      ∃ es₁ es₂ a, es = es₁ ++ es₂ ∧ p.Traces es₁ a ∧ (f a).Traces es₂ b := by
  induction p generalizing es with
  | ret a =>
      constructor
      · intro h
        exact ⟨[], es, a, rfl, ⟨rfl, rfl⟩, h⟩
      · rintro ⟨es₁, es₂, a', rfl, ⟨rfl, rfl⟩, h⟩
        exact h
  | call o k ih =>
      constructor
      · rintro ⟨r, rest, rfl, h⟩
        obtain ⟨es₁, es₂, a, rfl, hp, hf⟩ := (ih r).1 h
        exact ⟨⟨o, r⟩ :: es₁, es₂, a, rfl, ⟨r, es₁, rfl, hp⟩, hf⟩
      · rintro ⟨es₁, es₂, a, rfl, ⟨r, rest, rfl, hp⟩, hf⟩
        exact ⟨r, rest ++ es₂, rfl, (ih r).2 ⟨rest, es₂, a, rfl, hp, hf⟩⟩

theorem traces_perform {o : σ.Op} {es : List (Event σ)} {r : σ.Ans o} :
    (Program.perform o).Traces es r ↔ es = [⟨o, r⟩] := by
  constructor
  · rintro ⟨r', rest, rfl, rfl, rfl⟩
    rfl
  · rintro rfl
    exact ⟨r, [], rfl, rfl, rfl⟩

theorem traces_map {p : Program σ α} {f : α → β} {es : List (Event σ)} {b : β} :
    (f <$> p).Traces es b ↔ ∃ a, p.Traces es a ∧ b = f a := by
  have hrun : f <$> p = p >>= fun a => .ret (f a) := rfl
  rw [hrun, traces_bind]
  constructor
  · rintro ⟨es₁, es₂, a, rfl, hp, rfl, rfl⟩
    rw [List.append_nil]
    exact ⟨a, hp, rfl⟩
  · rintro ⟨a, hp, rfl⟩
    exact ⟨es, [], a, (List.append_nil es).symm, hp, rfl, rfl⟩

theorem traces_exceptT_bind {x : ExceptT ε (Program σ) α} {f : α → ExceptT ε (Program σ) β}
    {es : List (Event σ)} {r : Except ε β} :
    (x >>= f).run.Traces es r ↔
      (∃ es₁ es₂ a, es = es₁ ++ es₂ ∧ x.run.Traces es₁ (.ok a) ∧ (f a).run.Traces es₂ r) ∨
      ∃ e, x.run.Traces es (.error e) ∧ r = .error e := by
  rw [ExceptT.run_bind, traces_bind]
  constructor
  · rintro ⟨es₁, es₂, a | a, rfl, hx, hf⟩
    · obtain ⟨rfl, rfl⟩ := hf
      rw [List.append_nil]
      exact .inr ⟨a, hx, rfl⟩
    · exact .inl ⟨es₁, es₂, a, rfl, hx, hf⟩
  · rintro (⟨es₁, es₂, a, rfl, hx, hf⟩ | ⟨e, hx, rfl⟩)
    · exact ⟨es₁, es₂, .ok a, rfl, hx, hf⟩
    · exact ⟨es, [], .error e, (List.append_nil es).symm, hx, rfl, rfl⟩

theorem traces_exceptT_bind_ok {x : ExceptT ε (Program σ) α} {f : α → ExceptT ε (Program σ) β}
    {es : List (Event σ)} {b : β} :
    (x >>= f).run.Traces es (.ok b) ↔
      ∃ es₁ es₂ a, es = es₁ ++ es₂ ∧ x.run.Traces es₁ (.ok a) ∧ (f a).run.Traces es₂ (.ok b) := by
  rw [traces_exceptT_bind]
  constructor
  · rintro (h | ⟨e, -, he⟩)
    · exact h
    · cases he
  · exact .inl

/-- A program that catches a failure has the trace of what may fail. -/
theorem traces_caught {x : ExceptT ε (Program σ) α} {es : List (Event σ)}
    {r : Except ε (Except ε α)} :
    (caught x).run.Traces es r ↔ ∃ a, x.run.Traces es a ∧ r = .ok a :=
  traces_map

theorem traces_lift {p : Program σ α} {es : List (Event σ)} {r : Except ε α} :
    (liftM p : ExceptT ε (Program σ) α).run.Traces es r ↔ ∃ a, p.Traces es a ∧ r = .ok a :=
  traces_map

theorem Program.Only.traces {P : σ.Op → Prop} {p : Program σ α} (hp : p.Only P)
    {es : List (Event σ)} {a : α} (h : p.Traces es a) : ∀ e ∈ es, P e.1 := by
  induction hp generalizing es with
  | ret b =>
      obtain ⟨rfl, -⟩ := h
      exact fun e he => absurd he List.not_mem_nil
  | call here _ ih =>
      obtain ⟨r, rest, rfl, hrest⟩ := h
      intro e he
      rcases List.mem_cons.1 he with rfl | he
      · exact here
      · exact ih r hrest e he

/-- The run a program has where each operation has one answer. -/
def Program.replay (answer : (o : σ.Op) → σ.Ans o) : Program σ α → List (Event σ) × α
  | .ret a => ([], a)
  | .call o k =>
    (⟨o, answer o⟩ :: ((k (answer o)).replay answer).1, ((k (answer o)).replay answer).2)

theorem traces_replay (answer : (o : σ.Op) → σ.Ans o) (p : Program σ α) :
    p.Traces (p.replay answer).1 (p.replay answer).2 := by
  induction p with
  | ret a => exact ⟨rfl, rfl⟩
  | call o k ih => exact ⟨answer o, _, rfl, ih (answer o)⟩

/-- Where every operation gets the answer it is replayed with, the result is that of the
replay. -/
theorem Program.Only.exec_replay {W : Type} {S : Semantics σ W} {P : σ.Op → Prop}
    {answer : (o : σ.Op) → σ.Ans o} {p : Program σ α} (hp : p.Only P)
    (hanswer : ∀ w o r v, P o → S w o r v → r = answer o) {w w' : W} {a : α}
    (h : Exec S p w a w') : a = (p.replay answer).2 := by
  induction hp generalizing w with
  | ret b =>
      obtain ⟨rfl, -⟩ := h
      rfl
  | @call o k here _ ih =>
      obtain ⟨r, v, hS, hrest⟩ := h
      obtain rfl := hanswer w o r v here hS
      exact ih (answer o) hrest

theorem mem_replay {answer : (o : σ.Op) → σ.Ans o} {p : Program σ α} {e : Event σ}
    (h : e ∈ (p.replay answer).1) : e = ⟨e.1, answer e.1⟩ := by
  induction p with
  | ret a => exact absurd h List.not_mem_nil
  | call o k ih =>
      rcases List.mem_cons.1 h with rfl | h
      · rfl
      · exact ih (answer o) h

theorem replay_bind (answer : (o : σ.Op) → σ.Ans o) (p : Program σ α) (f : α → Program σ β) :
    (p >>= f).replay answer = ((p.replay answer).1 ++ ((f (p.replay answer).2).replay answer).1,
      ((f (p.replay answer).2).replay answer).2) := by
  induction p with
  | ret a => rfl
  | call o k ih =>
      rw [Program.call_bind, Program.replay, ih]
      rfl

theorem replay_exceptT_bind_ok {answer : (o : σ.Op) → σ.Ans o} {x : ExceptT ε (Program σ) α}
    {f : α → ExceptT ε (Program σ) β} {a : α} (hx : (x.run.replay answer).2 = .ok a) :
    (x >>= f).run.replay answer = ((x.run.replay answer).1 ++ ((f a).run.replay answer).1,
      ((f a).run.replay answer).2) := by
  rw [ExceptT.run_bind, replay_bind, hx]

/-! ## Brackets -/

section Brackets

variable (acquires releases : Event σ → Option H) (strands : Event σ → Bool)

inductive Scoped : List (Event σ) → Prop
  | nil : Scoped []
  | plain {e : Event σ} (acquires_none : acquires e = none) (releases_none : releases e = none) :
      Scoped [e]
  | append {es es' : List (Event σ)} (first : Scoped es) (next : Scoped es') : Scoped (es ++ es')
  | bracket {e e' : Event σ} {h : H} {es : List (Event σ)} (opening : acquires e = some h)
      (inside : Scoped es) (closing : releases e' = some h) : Scoped (e :: es ++ [e'])

/-- Scoped, except for what the stranding events keep from being released; and nothing
is released that was not acquired. -/
structure Tidy (es : List (Event σ)) : Prop where
  nested : (∀ e ∈ es, strands e = false) → Scoped acquires releases es
  count : es.countP (fun e => (acquires e).isSome) =
    es.countP (fun e => (releases e).isSome) + es.countP strands
  own : ∀ pre e post h, es = pre ++ e :: post → releases e = some h →
    ∃ e' ∈ pre, acquires e' = some h

variable {acquires releases strands} {es es' : List (Event σ)}

theorem tidy_nil : Tidy acquires releases strands ([] : List (Event σ)) := by
  refine ⟨fun _ => .nil, rfl, fun pre e post h hes => ?_⟩
  have hlen := congrArg List.length hes
  simp at hlen

theorem tidy_plain {e : Event σ} (ha : acquires e = none) (hr : releases e = none)
    (hs : strands e = false) : Tidy acquires releases strands [e] := by
  refine ⟨fun _ => .plain ha hr, ?_, fun pre e' post h hes hrel => ?_⟩
  · simp [ha, hr, hs]
  · have hmem : e' ∈ [e] := by
      rw [hes]
      exact List.mem_append_right _ List.mem_cons_self
    rw [List.mem_singleton.1 hmem, hr] at hrel
    cases hrel

theorem Tidy.append (h₁ : Tidy acquires releases strands es)
    (h₂ : Tidy acquires releases strands es') : Tidy acquires releases strands (es ++ es') := by
  refine ⟨fun hall => .append (h₁.nested fun e he => hall e (List.mem_append_left _ he))
    (h₂.nested fun e he => hall e (List.mem_append_right _ he)), ?_, fun pre e post h hes hrel =>
      ?_⟩
  · have hcount₁ := h₁.count
    have hcount₂ := h₂.count
    rw [List.countP_append, List.countP_append, List.countP_append]
    omega
  · rcases List.append_eq_append_iff.1 hes with ⟨as, rfl, hpost⟩ | ⟨as, hes₁, hpre⟩
    · obtain ⟨e', he', hacq⟩ := h₂.own as e post h hpost hrel
      exact ⟨e', List.mem_append_right _ he', hacq⟩
    · cases as with
      | nil =>
          rw [List.nil_append] at hpre
          obtain ⟨e', he', hacq⟩ := h₂.own [] e post h hpre.symm hrel
          cases he'
      | cons a as =>
          obtain ⟨rfl, hrest⟩ := List.cons.inj hpre
          exact h₁.own pre e as h hes₁ hrel

theorem Tidy.bracket {e e' : Event σ} {h : H} (ha : acquires e = some h) (har : releases e = none)
    (hs : strands e = false) (hes : Tidy acquires releases strands es)
    (hr : releases e' = some h) (hra : acquires e' = none) (hs' : strands e' = false) :
    Tidy acquires releases strands (e :: es ++ [e']) := by
  refine ⟨fun hall => .bracket ha (hes.nested fun x hx => hall x ?_) hr, ?_,
    fun pre x post k heq hrel => ?_⟩
  · exact List.mem_append_left _ (List.mem_cons_of_mem _ hx)
  · have hcount := hes.count
    rw [List.countP_append, List.countP_append, List.countP_append]
    simp only [List.countP_cons, List.countP_nil, ha, har, hs, hr, hra, hs', Option.isSome_some,
      Option.isSome_none, Bool.false_eq_true, if_true, if_false]
    omega
  · cases pre with
    | nil =>
        obtain ⟨rfl, -⟩ := List.cons.inj heq
        rw [har] at hrel
        cases hrel
    | cons a pre =>
        obtain ⟨rfl, htail⟩ := List.cons.inj heq
        rcases List.append_eq_append_iff.1 htail with ⟨as, rfl, hlast⟩ | ⟨as, hin, hlast⟩
        · -- the release is the last event
          cases as with
          | nil =>
              obtain ⟨rfl, -⟩ := List.cons.inj hlast
              rw [hr] at hrel
              obtain rfl := Option.some.inj hrel
              exact ⟨e, List.mem_cons_self, ha⟩
          | cons a as =>
              have hlen := congrArg List.length hlast
              simp at hlen
        · cases as with
          | nil =>
              obtain ⟨rfl, -⟩ := List.cons.inj hlast
              rw [hr] at hrel
              obtain rfl := Option.some.inj hrel
              exact ⟨e, List.mem_cons_self, ha⟩
          | cons a as =>
              obtain ⟨rfl, -⟩ := List.cons.inj hlast
              obtain ⟨y, hy, hacq⟩ := hes.own pre x as k hin hrel
              exact ⟨y, List.mem_cons_of_mem _ hy, hacq⟩

theorem tidy_stranded {e e' : Event σ} {h : H} (ha : acquires e = some h) (hr : releases e = none)
    (hs : strands e = false) (ha' : acquires e' = none) (hr' : releases e' = none)
    (hs' : strands e' = true) : Tidy acquires releases strands [e, e'] := by
  refine ⟨fun hall => ?_, by simp [ha, hr, hs, ha', hr', hs'], fun pre x post k hes hrel => ?_⟩
  · have hstrands := hall e' (List.mem_cons_of_mem _ List.mem_cons_self)
    rw [hs'] at hstrands
    cases hstrands
  · have hmem : x ∈ [e, e'] := by
      rw [hes]
      exact List.mem_append_right _ List.mem_cons_self
    rcases (List.mem_cons.1 hmem).imp_right List.mem_singleton.1 with rfl | rfl
    · rw [hr] at hrel
      cases hrel
    · rw [hr'] at hrel
      cases hrel

theorem scoped_count (h : Scoped acquires releases es)
    (hra : ∀ e h, acquires e = some h → releases e = none)
    (har : ∀ e h, releases e = some h → acquires e = none) :
    es.countP (fun e => (acquires e).isSome) = es.countP fun e => (releases e).isSome := by
  induction h with
  | nil => rfl
  | plain ha hr => simp [ha, hr]
  | append _ _ ih₁ ih₂ => rw [List.countP_append, List.countP_append, ih₁, ih₂]
  | @bracket e e' h es ha _ hr ih =>
      have hopen := hra e h ha
      have hclose := har e' h hr
      rw [List.countP_append, List.countP_append]
      simp only [List.countP_cons, List.countP_nil, ha, hopen, hr, hclose, Option.isSome_some,
        Option.isSome_none, Bool.false_eq_true, if_true, if_false]
      omega

/-- Tidy events are scoped exactly if none of them strands anything. -/
theorem Tidy.scoped_iff (h : Tidy acquires releases strands es)
    (hra : ∀ e h, acquires e = some h → releases e = none)
    (har : ∀ e h, releases e = some h → acquires e = none) :
    Scoped acquires releases es ↔ ∀ e ∈ es, strands e = false := by
  constructor
  · intro hscoped e he
    have hcount := h.count
    rw [scoped_count hscoped hra har] at hcount
    have hzero : es.countP strands = 0 := by omega
    exact (Bool.not_eq_true _).mp (List.countP_eq_zero.1 hzero e he)
  · exact h.nested

end Brackets

end Linhello.Effect
