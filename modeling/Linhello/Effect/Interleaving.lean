import Mathlib.Logic.Function.Basic
import Mathlib.Logic.Relation
import Linhello.Effect.Guided
/-!
# Pools of programs and rely-guarantee reasoning

A pool gives every thread its own program over one shared world. In each step
one thread performs its next operation; which one is arbitrary. `Interleaved`
is the run relation, together with the log of what was performed.

The proof rule is rely-guarantee. Thread `i` promises that each of its steps is
in `G i`, and in return may assume that the steps taken between its own are in
some `G j` with `j ≠ i`. `Guarded` is that promise for the rest of a program and
`Interleaved.guarded` keeps it along a run. The rules for `ret`, `call`, `>>=` and
`ExceptT` blocks build the promise of a thread from the specifications of the
functions it calls.
-/

namespace Linhello.Effect

variable {σ : Signature} {ι α β ε W X : Type}

/-- The operations performed so far, oldest first, each with its thread. -/
abbrev Log (σ : Signature) (ι : Type) := List (ι × Event σ)

def Log.of [DecidableEq ι] (log : Log σ ι) (i : ι) : List (Event σ) :=
  log.filterMap fun e => if e.1 = i then some e.2 else none

theorem Log.of_snoc_self [DecidableEq ι] (log : Log σ ι) (i : ι) (e : Event σ) :
    Log.of (log ++ [(i, e)]) i = Log.of log i ++ [e] := by
  simp [Log.of]

theorem Log.of_snoc_ne [DecidableEq ι] (log : Log σ ι) {i j : ι} (e : Event σ) (h : j ≠ i) :
    Log.of (log ++ [(j, e)]) i = Log.of log i := by
  simp [Log.of, h]

/-- A run of a pool: from the programs `ps` and the world `w`, the steps in `log`
lead to the programs `qs` and the world `v`. -/
inductive Interleaved [DecidableEq ι] (S : Semantics σ W) :
    (ι → Program σ α) → W → Log σ ι → (ι → Program σ α) → W → Prop
  | nil (ps : ι → Program σ α) (w : W) : Interleaved S ps w [] ps w
  | snoc {ps qs : ι → Program σ α} {w v u : W} {log : Log σ ι} (i : ι) {o : σ.Op}
      {k : σ.Ans o → Program σ α} {r : σ.Ans o} (run : Interleaved S ps w log qs v)
      (next : qs i = .call o k) (step : S v o r u) :
      Interleaved S ps w (log ++ [(i, ⟨o, r⟩)]) (Function.update qs i (k r)) u

/-! ## Rely and guarantee -/

/-- What each thread may do to a state, by thread. -/
abbrev ThreadSemantics (σ : Signature) (ι X : Type) := ι → Semantics σ X

/-- The steps thread `i` must tolerate: those some other thread promises. -/
def Rely (G : ι → X → X → Prop) (i : ι) (x y : X) : Prop :=
  ∃ j, j ≠ i ∧ G j x y

/-- `P` survives the steps of every thread but `i`. -/
def Stable (G : ι → X → X → Prop) (i : ι) (P : X → Prop) : Prop :=
  ∀ ⦃x y⦄, P x → Rely G i x y → P y

theorem Stable.star {G : ι → X → X → Prop} {i : ι} {P : X → Prop} (h : Stable G i P) {x y : X}
    (hx : P x) (hxy : Relation.ReflTransGen (Rely G i) x y) : P y := by
  induction hxy with
  | refl => exact hx
  | tail _ hstep ih => exact h ih hstep

theorem Stable.and {G : ι → X → X → Prop} {i : ι} {P Q : X → Prop} (hP : Stable G i P)
    (hQ : Stable G i Q) : Stable G i fun x => P x ∧ Q x :=
  fun _ _ ⟨hp, hq⟩ hxy => ⟨hP hp hxy, hQ hq hxy⟩

theorem Stable.const {G : ι → X → X → Prop} {i : ι} {φ : Prop} : Stable G i fun _ => φ :=
  fun _ _ h _ => h

/-- The rest of thread `i` keeps its promise from `x` on, whatever the others do
in between, and ends with `Q`. -/
def Guarded (S : ThreadSemantics σ ι X) (G : ι → X → X → Prop) (i : ι) (Q : α → X → Prop) :
    Program σ α → X → Prop
  | .ret a, x => ∀ y, Relation.ReflTransGen (Rely G i) x y → Q a y
  | .call o k, x => ∀ y, Relation.ReflTransGen (Rely G i) x y → ∀ r z, S i y o r z →
      G i y z ∧ Guarded S G i Q (k r) z

variable {S : ThreadSemantics σ ι X} {G : ι → X → X → Prop} {i : ι}

theorem Guarded.rely {Q : α → X → Prop} {p : Program σ α} {x y : X}
    (h : Guarded S G i Q p x) (hxy : Rely G i x y) : Guarded S G i Q p y := by
  cases p with
  | ret a =>
      intro z hyz
      exact h z (.head hxy hyz)
  | call o k =>
      intro z hyz
      exact h z (.head hxy hyz)

theorem Guarded.result {Q : α → X → Prop} {a : α} {x : X} (h : Guarded S G i Q (.ret a) x) :
    Q a x :=
  h x .refl

theorem Guarded.step {Q : α → X → Prop} {o : σ.Op} {k : σ.Ans o → Program σ α} {x y : X}
    {r : σ.Ans o} (h : Guarded S G i Q (.call o k) x) (hS : S i x o r y) :
    G i x y ∧ Guarded S G i Q (k r) y :=
  h x .refl r y hS

/-! ### Specifications of thread programs -/

/-- Started where `P` holds, thread `i` running `p` keeps its promise and ends
with `Q`. -/
def Promises (S : ThreadSemantics σ ι X) (G : ι → X → X → Prop) (i : ι) (P : X → Prop)
    (p : Program σ α) (Q : α → X → Prop) : Prop :=
  ∀ ⦃x⦄, P x → Guarded S G i Q p x

namespace Promises

variable {P P' : X → Prop} {Q Q' : α → X → Prop} {R : β → X → Prop}

theorem ret {a : α} (hP : Stable G i P) (h : ∀ x, P x → Q a x) :
    Promises S G i P (.ret a) Q := by
  intro x hx y hxy
  exact h y (hP.star hx hxy)

theorem call {o : σ.Op} {k : σ.Ans o → Program σ α} {M : σ.Ans o → X → Prop}
    (hP : Stable G i P) (hop : ∀ x r y, P x → S i x o r y → G i x y ∧ M r y)
    (hk : ∀ r, Promises S G i (M r) (k r) Q) : Promises S G i P (.call o k) Q := by
  intro x hx y hxy r z hS
  obtain ⟨hG, hM⟩ := hop y r z (hP.star hx hxy) hS
  exact ⟨hG, hk r hM⟩

theorem bind {p : Program σ α} {f : α → Program σ β} (hp : Promises S G i P p Q)
    (hf : ∀ a, Promises S G i (Q a) (f a) R) : Promises S G i P (p >>= f) R := by
  intro x hx
  have hpx := hp hx
  clear hp hx
  induction p generalizing x with
  | ret a => exact hf a hpx.result
  | call o k ih =>
      intro y hxy r z hS
      obtain ⟨hG, hrest⟩ := hpx y hxy r z hS
      exact ⟨hG, ih r hrest⟩

theorem consequence {p : Program σ α} (h : Promises S G i P p Q) (hpre : ∀ x, P' x → P x)
    (hpost : ∀ a x, Q a x → Q' a x) : Promises S G i P' p Q' := by
  intro x hx
  have hp := h (hpre x hx)
  clear h hx
  induction p generalizing x with
  | ret a => exact fun y hxy => hpost a y (hp y hxy)
  | call o k ih =>
      intro y hxy r z hS
      obtain ⟨hG, hrest⟩ := hp y hxy r z hS
      exact ⟨hG, ih r hrest⟩

theorem given {φ : Prop} {p : Program σ α} (h : φ → Promises S G i P p Q) :
    Promises S G i (fun x => φ ∧ P x) p Q :=
  fun _ ⟨hφ, hx⟩ => h hφ hx

theorem only {A : σ.Op → Prop} {I : X → Prop} {p : Program σ α} (hp : p.Only A)
    (hI : Stable G i I) (hop : ∀ x o r y, A o → I x → S i x o r y → G i x y ∧ I y) :
    Promises S G i I p fun _ => I := by
  induction hp with
  | ret a => exact ret hI fun x hx => hx
  | call here _ ih => exact call hI (fun x r y hx hS => hop x _ r y here hx hS) ih

theorem perform {o : σ.Op} {M : σ.Ans o → X → Prop} (hP : Stable G i P)
    (hM : ∀ r, Stable G i (M r)) (hop : ∀ x r y, P x → S i x o r y → G i x y ∧ M r y) :
    Promises S G i P (.perform o) M :=
  call hP hop fun r => ret (hM r) fun _ hx => hx

theorem map {p : Program σ α} {f : α → β} (hp : Promises S G i P p fun a => R (f a)) :
    Promises S G i P (f <$> p) R := by
  intro x hx
  have hpx := hp hx
  clear hp hx
  induction p generalizing x with
  | ret a => exact hpx
  | call o k ih =>
      intro y hxy r z hS
      obtain ⟨hG, hrest⟩ := hpx y hxy r z hS
      exact ⟨hG, ih r hrest⟩

/-- A promise kept among threads that promise more, with an assertion carried
along: it is enough to look at the single steps. -/
theorem frame {G' : ι → X → X → Prop} {A : σ.Op → Prop} {F : X → Prop} {p : Program σ α}
    (hp : Promises S G i P p Q) (honly : p.Only A) (hG : ∀ j x y, G' j x y → G j x y)
    (hF : Stable G' i F)
    (hstep : ∀ x o r y, A o → F x → S i x o r y → G i x y → G' i x y ∧ F y) :
    Promises S G' i (fun x => P x ∧ F x) p fun a x => Q a x ∧ F x := by
  rintro x ⟨hx, hFx⟩
  have hpx := hp hx
  clear hp hx
  have hstar : ∀ {u v}, Relation.ReflTransGen (Rely G' i) u v →
      Relation.ReflTransGen (Rely G i) u v := fun huv =>
    Relation.ReflTransGen.mono (fun _ _ ⟨j, hj, hjG⟩ => ⟨j, hj, hG _ _ _ hjG⟩) _ _ huv
  induction honly generalizing x with
  | ret a => exact fun y hxy => ⟨hpx y (hstar hxy), hF.star hFx hxy⟩
  | call here _ ih =>
      intro y hxy r z hS
      obtain ⟨hGyz, hrest⟩ := hpx y (hstar hxy) r z hS
      obtain ⟨hG', hFz⟩ := hstep y _ r z here (hF.star hFx hxy) hS hGyz
      exact ⟨hG', ih r hFz hrest⟩

/-- What a thread has recorded while it ran `p` is a run of `p`. -/
theorem traced {own : X → List (Event σ)} {p : Program σ α} {pre : List (Event σ)}
    (hp : Promises S G i P p Q) (hself : ∀ x o r y, S i x o r y → own y = own x ++ [⟨o, r⟩])
    (hother : ∀ x y, Rely G i x y → own y = own x) :
    Promises S G i (fun x => P x ∧ own x = pre) p
      fun a x => Q a x ∧ ∃ es, own x = pre ++ es ∧ p.Traces es a := by
  rintro x ⟨hx, hown⟩
  have hpx := hp hx
  clear hp hx
  have hstar : ∀ {u v}, Relation.ReflTransGen (Rely G i) u v → own v = own u := by
    intro u v huv
    induction huv with
    | refl => rfl
    | tail _ hstep ih => rw [hother _ _ hstep, ih]
  induction p generalizing x pre with
  | ret a =>
      intro y hxy
      refine ⟨hpx y hxy, [], ?_, rfl, rfl⟩
      rw [hstar hxy, hown, List.append_nil]
  | call o k ih =>
      intro y hxy r z hS
      obtain ⟨hG, hrest⟩ := hpx y hxy r z hS
      have hz : own z = pre ++ [⟨o, r⟩] := by rw [hself _ _ _ _ hS, hstar hxy, hown]
      have hbody : Guarded S G i (fun a x => Q a x ∧
          ∃ es, own x = (pre ++ [⟨o, r⟩]) ++ es ∧ (k r).Traces es a) (k r) z := ih r hz hrest
      have hmono : Promises S G i (fun u => u = z) (k r) fun a x => Q a x ∧
          ∃ es, own x = pre ++ es ∧ (Program.call o k).Traces es a := by
        refine consequence (P := fun u => Guarded S G i (fun a x => Q a x ∧
          ∃ es, own x = (pre ++ [⟨o, r⟩]) ++ es ∧ (k r).Traces es a) (k r) u)
          (fun _ h => h) ?_ ?_
        · rintro u rfl
          exact hbody
        · rintro a u ⟨hQ, es, hes, htraces⟩
          exact ⟨hQ, ⟨o, r⟩ :: es, by rw [hes]; simp, r, es, rfl, htraces⟩
      exact ⟨hG, hmono rfl⟩

end Promises

/-- `Promises` for a function that can fail: `Q` of the value, `E` after an error. -/
def Attempts (S : ThreadSemantics σ ι X) (G : ι → X → X → Prop) (i : ι) (P : X → Prop)
    (x : ExceptT ε (Program σ) α) (Q : α → X → Prop) (E : X → Prop) : Prop :=
  Promises S G i P x.run fun r => match r with
    | .ok a => Q a
    | .error _ => E

namespace Attempts

variable {P P' E : X → Prop} {Q Q' : α → X → Prop} {R : β → X → Prop}

/-- A `?` in a `do` block: the error is passed on, a value goes to the rest. -/
theorem bind {x : ExceptT ε (Program σ) α} {f : α → ExceptT ε (Program σ) β}
    (hx : Attempts S G i P x Q E) (hE : Stable G i E)
    (hf : ∀ a, Attempts S G i (Q a) (f a) R E) : Attempts S G i P (x >>= f) R E := by
  unfold Attempts
  rw [ExceptT.run_bind]
  refine Promises.bind hx ?_
  rintro (e | a)
  · exact Promises.ret hE fun _ hy => hy
  · exact hf a

theorem pure {a : α} (hP : Stable G i P) (h : ∀ x, P x → Q a x) :
    Attempts S G i P (Pure.pure a : ExceptT ε (Program σ) α) Q E :=
  Promises.ret hP h

theorem throw {e : ε} (hP : Stable G i P) (h : ∀ x, P x → E x) :
    Attempts S G i P (MonadExcept.throw e : ExceptT ε (Program σ) α) Q E :=
  Promises.ret hP h

theorem lift {p : Program σ α} (hp : Promises S G i P p Q) :
    Attempts S G i P (liftM p : ExceptT ε (Program σ) α) Q E :=
  Promises.map hp

theorem attempt {ε' : Type} {f : ε → ε'} {p : Program σ (Except ε α)}
    (hp : Promises S G i P p fun r => match r with
      | .ok a => Q a
      | .error _ => E) : Attempts S G i P (Effect.attempt f p) Q E := by
  refine Promises.map (hp.consequence (fun _ hy => hy) ?_)
  rintro (e | a) y hy
  · exact hy
  · exact hy

theorem settle {r : Except ε α} (hP : Stable G i P) (hok : ∀ a x, r = .ok a → P x → Q a x)
    (herr : ∀ e x, r = .error e → P x → E x) : Attempts S G i P (Effect.settle r) Q E := by
  refine Promises.ret hP fun x hx => ?_
  cases r with
  | error e => exact herr e x rfl hx
  | ok a => exact hok a x rfl hx

theorem consequence {x : ExceptT ε (Program σ) α} {E' : X → Prop} (h : Attempts S G i P x Q E)
    (hpre : ∀ y, P' y → P y) (hpost : ∀ a y, Q a y → Q' a y) (herror : ∀ y, E y → E' y) :
    Attempts S G i P' x Q' E' := by
  refine Promises.consequence h hpre ?_
  rintro (e | a) y hy
  · exact herror y hy
  · exact hpost a y hy

end Attempts

/-! ## Runs of guarded pools -/

/-- What may be required of a step: the world and the log before it, the thread,
and the operation with its answer. -/
abbrev Rule (σ : Signature) (ι W : Type) := W → Log σ ι → ι → Event σ → Prop

/-- The steps of a pool over `S`, with the log as part of the state, restricted
to those that a rule allows. -/
def logged (S : Semantics σ W) (Allowed : Rule σ ι W) : ThreadSemantics σ ι (W × Log σ ι) :=
  fun i x o r y => S x.1 o r y.1 ∧ y.2 = x.2 ++ [(i, ⟨o, r⟩)] ∧ Allowed x.1 x.2 i ⟨o, r⟩

/-- Each step of a run with the given log was allowed where it was taken. -/
def Obeys [DecidableEq ι] (S : Semantics σ W) (Allowed : Rule σ ι W) (ps : ι → Program σ α)
    (w : W) (log : Log σ ι) : Prop :=
  ∀ pre i e qs v, Interleaved S ps w pre qs v → pre ++ [(i, e)] <+: log → Allowed v pre i e

/-- Along a run whose steps are all allowed, every thread keeps its promise. -/
theorem Interleaved.guarded [DecidableEq ι] {S : Semantics σ W} {Allowed : Rule σ ι W}
    {G : ι → W × Log σ ι → W × Log σ ι → Prop} {Q : ι → α → W × Log σ ι → Prop}
    {ps qs : ι → Program σ α} {w v : W} {log : Log σ ι}
    (hrun : Interleaved S ps w log qs v) (hobeys : Obeys S Allowed ps w log)
    (hstart : ∀ i, Guarded (logged S Allowed) G i (Q i) (ps i) (w, [])) (i : ι) :
    Guarded (logged S Allowed) G i (Q i) (qs i) (v, log) := by
  induction hrun generalizing i with
  | nil => exact hstart i
  | @snoc qs w v u log j o k r hprev hnext hstep ih =>
      have hpre : Obeys S Allowed ps w log := fun pre i e qs' v' hrun' h =>
        hobeys pre i e qs' v' hrun' (h.trans (List.prefix_append _ _))
      have hallowed : Allowed v log j ⟨o, r⟩ :=
        hobeys log j ⟨o, r⟩ qs v hprev (List.prefix_refl _)
      have hS : logged S Allowed j (v, log) o r (u, log ++ [(j, ⟨o, r⟩)]) :=
        ⟨hstep, rfl, hallowed⟩
      have hj := ih hpre hstart j
      rw [hnext] at hj
      obtain ⟨hG, hrest⟩ := hj.step hS
      rcases eq_or_ne i j with rfl | hij
      · rw [Function.update_self]
        exact hrest
      · rw [Function.update_of_ne hij]
        exact (ih hpre hstart i).rely ⟨j, hij.symm, hG⟩

theorem Interleaved.invariant [DecidableEq ι] {S : Semantics σ W} {Allowed : Rule σ ι W}
    {G : ι → W × Log σ ι → W × Log σ ι → Prop} {Q : ι → α → W × Log σ ι → Prop}
    {I : W × Log σ ι → Prop} (hI : ∀ i x y, G i x y → I x → I y)
    {ps qs : ι → Program σ α} {w v : W} {log : Log σ ι}
    (hrun : Interleaved S ps w log qs v) (hobeys : Obeys S Allowed ps w log)
    (hstart : ∀ i, Guarded (logged S Allowed) G i (Q i) (ps i) (w, [])) (hw : I (w, [])) :
    I (v, log) := by
  induction hrun with
  | nil => exact hw
  | @snoc qs w v u log j o k r hprev hnext hstep ih =>
      have hpre : Obeys S Allowed ps w log := fun pre i e qs' v' hrun' h =>
        hobeys pre i e qs' v' hrun' (h.trans (List.prefix_append _ _))
      have hallowed : Allowed v log j ⟨o, r⟩ :=
        hobeys log j ⟨o, r⟩ qs v hprev (List.prefix_refl _)
      have hj := hprev.guarded hpre hstart j
      rw [hnext] at hj
      exact hI j _ _ (hj.step ⟨hstep, rfl, hallowed⟩).1 (ih hpre hstart hw)

/-- Each operation of a run is in the footprint its thread started with. -/
theorem Interleaved.only [DecidableEq ι] {S : Semantics σ W} {A : σ.Op → Prop}
    {ps qs : ι → Program σ α} {w v : W} {log : Log σ ι} (hrun : Interleaved S ps w log qs v)
    (hps : ∀ i, (ps i).Only A) : (∀ i, (qs i).Only A) ∧ ∀ e ∈ log, A e.2.1 := by
  induction hrun with
  | nil => exact ⟨hps, fun e he => absurd he List.not_mem_nil⟩
  | @snoc qs w v u log j o k r hprev hnext hstep ih =>
      obtain ⟨hqs, hlog⟩ := ih
      have hj := hqs j
      rw [hnext] at hj
      obtain ⟨here, rest⟩ : A o ∧ ∀ r, (k r).Only A := by
        cases hj with
        | call here rest => exact ⟨here, rest⟩
      constructor
      · intro i
        rcases eq_or_ne i j with rfl | hij
        · rw [Function.update_self]
          exact rest r
        · rw [Function.update_of_ne hij]
          exact hqs i
      · intro e he
        rcases List.mem_append.1 he with he | he
        · exact hlog e he
        · rw [List.mem_singleton.1 he]
          exact here

/-- What guided threads promise keeps an invariant from which their answers are as they
rely on, whatever the order of their steps. -/
theorem Interleaved.guided [DecidableEq ι] {S : Semantics σ W} {A : Event σ → Prop}
    {P : σ.Op → Prop} {Q : ι → α → Prop} {Inv : W → Prop}
    (hstep : ∀ {w o r v}, Inv w → P o → S w o r v → A ⟨o, r⟩ ∧ Inv v)
    {ps qs : ι → Program σ α} {w v : W} {log : Log σ ι} (hrun : Interleaved S ps w log qs v)
    (hps : ∀ i, (ps i).Guided A P (Q i)) (hw : Inv w) :
    Inv v ∧ (∀ e ∈ log, A e.2) ∧ ∀ i, (qs i).Guided A P (Q i) := by
  induction hrun with
  | nil => exact ⟨hw, fun e he => absurd he List.not_mem_nil, hps⟩
  | @snoc qs w v u log j o k r hprev hnext hS ih =>
      obtain ⟨hv, hlog, hqs⟩ := ih hw
      have hj := hqs j
      rw [hnext] at hj
      obtain ⟨here, hrest⟩ : P o ∧ ∀ r, A ⟨o, r⟩ → (k r).Guided A P (Q j) := by
        cases hj with
        | call here rest => exact ⟨here, rest⟩
      obtain ⟨hr, hu⟩ := hstep hv here hS
      refine ⟨hu, fun e he => ?_, fun i => ?_⟩
      · rcases List.mem_append.1 he with he | he
        · exact hlog e he
        · rw [List.mem_singleton.1 he]
          exact hr
      · by_cases hij : i = j
        · subst hij
          rw [Function.update_self]
          exact hrest r hr
        · rw [Function.update_of_ne hij]
          exact hqs i

/-- A finished thread has run its program, with whatever answers it got in the pool. -/
theorem Interleaved.exec_thread [DecidableEq ι] {S : Semantics σ W} {A : Event σ → Prop}
    {ps qs : ι → Program σ α} {w v : W} {log : Log σ ι} (hrun : Interleaved S ps w log qs v)
    (hlog : ∀ e ∈ log, A e.2) {i : ι} {a : α} (hend : qs i = .ret a) :
    Exec (fun (_ : Unit) o r _ => A ⟨o, r⟩) (ps i) () a () := by
  have hrest : Exec (fun (_ : Unit) o r _ => A ⟨o, r⟩) (qs i) () a () := by
    rw [hend]
    exact ⟨rfl, rfl⟩
  clear hend
  -- what is left to do grows back to the whole program, step by step
  induction hrun with
  | nil => exact hrest
  | @snoc qs w v u log j o k r hprev hnext hS ih =>
      have hpre : ∀ e ∈ log, A e.2 := fun e he => hlog e (List.mem_append_left _ he)
      have hr : A ⟨o, r⟩ := hlog (j, ⟨o, r⟩) (List.mem_append_right _ List.mem_cons_self)
      apply ih hpre
      by_cases hij : i = j
      · subst hij
        rw [Function.update_self] at hrest
        rw [hnext]
        exact ⟨r, (), hr, hrest⟩
      · rwa [Function.update_of_ne hij] at hrest

/-! ### A pool of one

A program that runs alone is a thread of a pool in which no other takes a step. -/

theorem Guarded.exec {Q : α → X → Prop} {p : Program σ α} {x y : X} {a : α}
    (h : Guarded S G i Q p x) (hexec : Exec (S i) p x a y) : Q a y := by
  induction p generalizing x with
  | ret b =>
      obtain ⟨rfl, rfl⟩ := hexec
      exact h.result
  | call o k ih =>
      obtain ⟨r, z, hS, hrest⟩ := hexec
      exact ih r (h.step hS).2 hrest

theorem exec_logged {S : Semantics σ W} {Allowed : Rule σ ι W}
    (hallowed : ∀ v log e, Allowed v log i e) {p : Program σ α} {w w' : W} {a : α}
    (h : Exec S p w a w') (log : Log σ ι) :
    ∃ log', Exec (logged S Allowed i) p (w, log) a (w', log') := by
  induction p generalizing w log with
  | ret b =>
      obtain ⟨rfl, rfl⟩ := h
      exact ⟨log, rfl, rfl⟩
  | call o k ih =>
      obtain ⟨r, v, hS, hrest⟩ := h
      obtain ⟨log', hexec⟩ := ih r hrest (log ++ [(i, ⟨o, r⟩)])
      exact ⟨log', r, (v, log ++ [(i, ⟨o, r⟩)]), ⟨hS, rfl, hallowed _ _ _⟩, hexec⟩

/-! ## Chosen schedules -/

variable {C : Type}

def Program.result? : Program σ α → Option α
  | .ret a => some a
  | .call _ _ => none

theorem Program.eq_ret_of_result? {p : Program σ α} {a : α} (h : p.result? = some a) :
    p = .ret a := by
  cases p with
  | ret b => rw [Option.some.inj h]
  | call o k => cases h

theorem interleaved_alone {S : Semantics σ W} {p q : Program σ α} {w v u : W} {log : Log σ Unit}
    {a : α} (hrun : Interleaved S (fun _ : Unit => p) w log (fun _ => q) v) (h : Exec S q v a u) :
    ∃ log', Interleaved S (fun _ : Unit => p) w log' (fun _ => .ret a) u := by
  induction q generalizing v log with
  | ret b =>
      obtain ⟨rfl, rfl⟩ := h
      exact ⟨log, hrun⟩
  | call o k ih =>
      obtain ⟨r, t, hS, hrest⟩ := h
      have hnext := hrun.snoc () rfl hS
      have hupdate : Function.update (fun _ : Unit => Program.call o k) () (k r) = fun _ => k r :=
        funext fun _ => Function.update_self ..
      rw [hupdate] at hnext
      exact ih r hnext hrest

/-- Run a pool under a given schedule, with the choices that resolve each step. -/
def schedule [DecidableEq ι] (step : C → W → (o : σ.Op) → Option (σ.Ans o × W)) :
    (ι → Program σ α) → W → List (ι × C) → Option ((ι → Program σ α) × W)
  | ps, w, [] => some (ps, w)
  | ps, w, (i, c) :: rest =>
      match ps i with
      | .ret _ => none
      | .call o k =>
          match step c w o with
          | some (r, v) => schedule step (Function.update ps i (k r)) v rest
          | none => none

theorem Interleaved.schedule [DecidableEq ι] {S : Semantics σ W}
    {step : C → W → (o : σ.Op) → Option (σ.Ans o × W)}
    (hstep : ∀ c w o r v, step c w o = some (r, v) → S w o r v)
    {ps qs rs : ι → Program σ α} {w v u : W} {log : Log σ ι} {cs : List (ι × C)}
    (hrun : Interleaved S ps w log qs v) (h : Effect.schedule step qs v cs = some (rs, u)) :
    ∃ log', Interleaved S ps w log' rs u := by
  induction cs generalizing qs v log with
  | nil =>
      simp only [Effect.schedule, Option.some.injEq, Prod.mk.injEq] at h
      obtain ⟨rfl, rfl⟩ := h
      exact ⟨log, hrun⟩
  | cons c cs ih =>
      obtain ⟨i, c⟩ := c
      simp only [Effect.schedule] at h
      split at h
      · cases h
      · rename_i o k hnext
        split at h
        · rename_i r v' hs
          exact ih (.snoc i hrun hnext (hstep _ _ _ _ _ hs)) h
        · cases h

/-- `schedule`, with the log of the steps it takes. -/
def scheduleLog [DecidableEq ι] (step : C → W → (o : σ.Op) → Option (σ.Ans o × W)) :
    (ι → Program σ α) → W → Log σ ι → List (ι × C) → Option ((ι → Program σ α) × W × Log σ ι)
  | ps, w, log, [] => some (ps, w, log)
  | ps, w, log, (i, c) :: rest =>
      match ps i with
      | .ret _ => none
      | .call o k =>
          match step c w o with
          | some (r, v) =>
              scheduleLog step (Function.update ps i (k r)) v (log ++ [(i, ⟨o, r⟩)]) rest
          | none => none

theorem Interleaved.scheduleLog [DecidableEq ι] {S : Semantics σ W}
    {step : C → W → (o : σ.Op) → Option (σ.Ans o × W)}
    (hstep : ∀ c w o r v, step c w o = some (r, v) → S w o r v)
    {ps qs rs : ι → Program σ α} {w v u : W} {log log' : Log σ ι} {cs : List (ι × C)}
    (hrun : Interleaved S ps w log qs v)
    (h : Effect.scheduleLog step qs v log cs = some (rs, u, log')) :
    Interleaved S ps w log' rs u := by
  induction cs generalizing qs v log with
  | nil =>
      simp only [Effect.scheduleLog, Option.some.injEq, Prod.mk.injEq] at h
      obtain ⟨rfl, rfl, rfl⟩ := h
      exact hrun
  | cons c cs ih =>
      obtain ⟨i, c⟩ := c
      simp only [Effect.scheduleLog] at h
      split at h
      · cases h
      · rename_i o k hnext
        split at h
        · rename_i r v' hs
          exact ih (.snoc i hrun hnext (hstep _ _ _ _ _ hs)) h
        · cases h

/-- Each event of a log passes a test on the events before it. -/
def checked (check : Log σ ι → ι → Event σ → Bool) : Log σ ι → Log σ ι → Bool
  | _, [] => true
  | pre, (i, e) :: rest => check pre i e && checked check (pre ++ [(i, e)]) rest

private theorem check_of_checked {check : Log σ ι → ι → Event σ → Bool} {pre mid log : Log σ ι}
    {i : ι}
    {e : Event σ} (h : checked check pre log = true) (hmid : mid ++ [(i, e)] <+: log) :
    check (pre ++ mid) i e = true := by
  induction log generalizing pre mid with
  | nil => simp at hmid
  | cons x log ih =>
      obtain ⟨j, f⟩ := x
      obtain ⟨hhere, hrest⟩ := Bool.and_eq_true_iff.1 h
      cases mid with
      | nil =>
          obtain ⟨heq, -⟩ := List.cons_prefix_cons.1 hmid
          obtain ⟨rfl, rfl⟩ := Prod.mk.inj heq
          rwa [List.append_nil]
      | cons y mid =>
          obtain ⟨rfl, htail⟩ := List.cons_prefix_cons.1 hmid
          have hnext := ih hrest htail
          rwa [List.append_assoc, List.singleton_append] at hnext

theorem obeys_of_checked [DecidableEq ι] {S : Semantics σ W} {Allowed : Rule σ ι W}
    {check : Log σ ι → ι → Event σ → Bool} {ps : ι → Program σ α} {w : W} {log : Log σ ι}
    (hcheck : ∀ pre i e qs v, Interleaved S ps w pre qs v → check pre i e = true →
      Allowed v pre i e)
    (h : checked check [] log = true) : Obeys S Allowed ps w log :=
  fun pre i e qs v hrun hpre => hcheck pre i e qs v hrun (check_of_checked h hpre)

end Linhello.Effect
