import Linhello.Effect.Brackets
import Mathlib.Data.List.Induction
/-!
# Sessions

An interactive program has a state and takes one input after another, each served by a
program of its own that returns the next state. Some of its operations are of interest
(`loud`), the others are not. `Heard` says what a program does of the former and returns;
`Session` is a run over any inputs, and `Session.since` traces what holds at its end to the
turn that brought it about.
-/

namespace Linhello.Effect

variable {σ : Signature} {α β I X D : Type} {loud : σ.Op → Bool}

/-! ## What is heard of a program -/

def heard (loud : σ.Op → Bool) (es : List (Event σ)) : List (Event σ) := es.filter fun e => loud e.1

theorem heard_append (es es' : List (Event σ)) :
    heard loud (es ++ es') = heard loud es ++ heard loud es' :=
  List.filter_append es es'

/-- Whatever answers the program gets, its loud events and its result are in `T`. -/
def Program.Heard (loud : σ.Op → Bool) (T : List (Event σ) → α → Prop) (p : Program σ α) : Prop :=
  ∀ es a, p.Traces es a → T (heard loud es) a

section Rules

variable {T T' : List (Event σ) → α → Prop} {R : List (Event σ) → β → Prop} {Q : α → Prop}
  {p : Program σ α} {f : α → Program σ β} {o : σ.Op} {k : σ.Ans o → Program σ α}

private theorem heard_ret {a : α} (h : T [] a) : (Program.ret a : Program σ α).Heard loud T := by
  rintro es b ⟨rfl, rfl⟩
  exact h

theorem heard_pure {a : α} (h : T [] a) : (pure a : Program σ α).Heard loud T := heard_ret h

theorem heard_quiet (ho : loud o = false) (h : ∀ r, (k r).Heard loud T) :
    (Program.call o k).Heard loud T := by
  rintro es a ⟨r, rest, rfl, hrest⟩
  have hskip : heard loud (⟨o, r⟩ :: rest) = heard loud rest :=
    List.filter_cons_of_neg (by simp [ho])
  rw [hskip]
  exact h r rest a hrest

theorem heard_loud (ho : loud o = true)
    (h : ∀ r, (k r).Heard loud fun es a => T (⟨o, r⟩ :: es) a) :
    (Program.call o k).Heard loud T := by
  rintro es a ⟨r, rest, rfl, hrest⟩
  have hkeep : heard loud (⟨o, r⟩ :: rest) = ⟨o, r⟩ :: heard loud rest :=
    List.filter_cons_of_pos (by simp [ho])
  rw [hkeep]
  exact h r rest a hrest

theorem heard_bind (hp : p.Heard loud T)
    (hf : ∀ es a, T es a → (f a).Heard loud fun es' b => R (es ++ es') b) :
    (p >>= f).Heard loud R := by
  intro es b h
  obtain ⟨es₁, es₂, a, rfl, h₁, h₂⟩ := traces_bind.1 h
  rw [heard_append]
  exact hf _ a (hp es₁ a h₁) es₂ b h₂

theorem heard_after (hp : p.Heard loud fun es a => es = [] ∧ Q a)
    (hf : ∀ a, Q a → (f a).Heard loud R) : (p >>= f).Heard loud R := by
  refine heard_bind (R := R) hp fun es a hes => ?_
  rw [hes.1]
  exact hf a hes.2

theorem Program.Heard.imp (hp : p.Heard loud T) (h : ∀ es a, T es a → T' es a) :
    p.Heard loud T' :=
  fun es a htraces => h _ a (hp es a htraces)

end Rules

/-! ## Runs -/

/-- One input, what was heard while it was served, and the states around it. -/
structure Turn (σ : Signature) (I X : Type) where
  before : X
  input : I
  heard : List (Event σ)
  after : X

/-- The turns of a run from `start`, whatever the answers. -/
inductive Session (loud : σ.Op → Bool) (step : I → X → Program σ X) (start : X) :
    List (Turn σ I X) → X → Prop
  | nil : Session loud step start [] start
  | snoc {ts : List (Turn σ I X)} {a b : X} {i : I} {es : List (Event σ)}
      (run : Session loud step start ts a) (served : (step i a).Traces es b) :
      Session loud step start (ts ++ [⟨a, i, heard loud es, b⟩]) b

section Session

variable {step : I → X → Program σ X} {start : X} {ts : List (Turn σ I X)} {a : X}
  {M : X → I → List (Event σ) → X → Prop}

theorem Session.moves (hstep : ∀ i a, (step i a).Heard loud (M a i))
    (h : Session loud step start ts a) : ∀ t ∈ ts, M t.before t.input t.heard t.after := by
  induction h with
  | nil => exact fun t ht => absurd ht List.not_mem_nil
  | snoc run served ih =>
      intro t ht
      rcases List.mem_append.1 ht with hmem | hlast
      · exact ih t hmem
      · rw [List.mem_singleton.1 hlast]
        exact hstep _ _ _ _ served

/-- An invariant of the steps holds at the end and before every turn. -/
theorem Session.invariant {P : X → Prop} (hstep : ∀ i a, (step i a).Heard loud (M a i))
    (hstart : P start) (hkeep : ∀ {a i es b}, M a i es b → P a → P b)
    (h : Session loud step start ts a) : P a ∧ ∀ t ∈ ts, P t.before := by
  induction h with
  | nil => exact ⟨hstart, fun t ht => absurd ht List.not_mem_nil⟩
  | snoc run served ih =>
      refine ⟨hkeep (hstep _ _ _ _ served) ih.1, ?_⟩
      intro t ht
      rcases List.mem_append.1 ht with hmem | hlast
      · exact ih.2 t hmem
      · rw [List.mem_singleton.1 hlast]
        exact ih.1

/-- What holds of a state together with the turns that led to it. -/
theorem Session.history {P : List (Turn σ I X) → X → Prop}
    (hstep : ∀ i a, (step i a).Heard loud (M a i)) (hstart : P [] start)
    (hkeep : ∀ {ts t}, M t.before t.input t.heard t.after → P ts t.before → P (ts ++ [t]) t.after)
    (h : Session loud step start ts a) : P ts a := by
  induction h with
  | nil => exact hstart
  | snoc run served ih => exact hkeep (hstep _ _ _ _ served) ih

theorem Session.upTo (h : Session loud step start ts a) {pre post : List (Turn σ I X)}
    {t : Turn σ I X} (hts : ts = pre ++ t :: post) : Session loud step start pre t.before := by
  induction h generalizing post with
  | nil => exact absurd (congrArg List.length hts) (by simp)
  | snoc run served ih =>
      rcases List.eq_nil_or_concat post with rfl | ⟨post', last, rfl⟩
      · obtain ⟨hpre, hlast⟩ := List.append_inj' hts rfl
        rw [← hpre, ← (List.cons.inj hlast).1]
        exact run
      · rw [List.concat_eq_append, ← List.cons_append, ← List.append_assoc] at hts
        exact ih (List.append_inj' hts rfl).1

/-- What a state holds at the end of a run was brought about by a turn that starts it, and
every turn since then found it and carried it on. -/
theorem Session.since (Holds : D → X → Prop) (Starts : Turn σ I X → D → Prop)
    (next : D → Turn σ I X → D) (hstep : ∀ i a, (step i a).Heard loud (M a i))
    (hstart : ∀ d, ¬ Holds d start)
    (hcarry : ∀ t : Turn σ I X, M t.before t.input t.heard t.after → ∀ d', Holds d' t.after →
      Starts t d' ∨ ∃ d, Holds d t.before ∧ d' = next d t)
    (h : Session loud step start ts a) {d : D} (hd : Holds d a) :
    ∃ pre t mid d₀, ts = pre ++ t :: mid ∧ Starts t d₀ ∧ d = mid.foldl next d₀ ∧
      ∀ u ∈ mid, (∃ d, Holds d u.before) ∧ ∃ d, Holds d u.after := by
  induction h generalizing d with
  | nil => exact absurd hd (hstart d)
  | @snoc ts a b i es run served ih =>
      rcases hcarry ⟨a, i, heard loud es, b⟩ (hstep _ _ _ _ served) d hd with
        hstarts | ⟨d', hd', rfl⟩
      · exact ⟨ts, _, [], d, rfl, hstarts, rfl, fun u hu => absurd hu List.not_mem_nil⟩
      · obtain ⟨pre, t, mid, d₀, rfl, hstarts, rfl, hmid⟩ := ih hd'
        refine ⟨pre, t, mid ++ [⟨a, i, heard loud es, b⟩], d₀, by simp, hstarts, ?_, ?_⟩
        · rw [List.foldl_append]
          rfl
        · intro u hu
          rcases List.mem_append.1 hu with hmem | hlast
          · exact hmid u hmem
          · rw [List.mem_singleton.1 hlast]
            exact ⟨⟨_, hd'⟩, _, hd⟩

end Session

/-! ## Rehearsals

A run in which every operation has one answer is computed. -/

section Rehearsal

variable (loud) (step : I → X → Program σ X) (r : (o : σ.Op) → σ.Ans o)

def served (a : X) (i : I) : Turn σ I X :=
  ⟨a, i, heard loud ((step i a).replay r).1, ((step i a).replay r).2⟩

def play (start : X) (is : List I) : List (Turn σ I X) × X :=
  is.foldl (fun run i => (run.1 ++ [served loud step r run.2 i],
    (served loud step r run.2 i).after)) ([], start)

theorem play_concat (start : X) (is : List I) (i : I) :
    (play loud step r start (is ++ [i])).1 =
      (play loud step r start is).1 ++ [served loud step r (play loud step r start is).2 i] := by
  rw [play, List.foldl_append]
  rfl

theorem session_play (start : X) (is : List I) :
    Session loud step start (play loud step r start is).1 (play loud step r start is).2 := by
  induction is using List.reverseRecOn with
  | nil => exact .nil
  | append_singleton is i ih =>
      rw [play_concat]
      unfold play at ih ⊢
      rw [List.foldl_append]
      exact ih.snoc (traces_replay r _)

end Rehearsal

end Linhello.Effect
