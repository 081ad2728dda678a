import Mathlib.Tactic.Common
/-!
# Programs over a signature of operations

A `Program σ α` is a finite tree of operations of the signature `σ` with a
result of type `α` at each leaf. The world is not part of the tree: a
`Semantics` says which answers an operation may have in a world and which world
it leaves. The same program can therefore be read sequentially (`Exec`) or as a
thread of a pool, one operation at a time.

Nothing here names an application. A development instantiates the signature
with its own operations and works with the rules at the end of each section.
-/

namespace Linhello.Effect

/-- The operations a program may perform and the type of answer of each. -/
structure Signature where
  Op : Type
  Ans : Op → Type

/-- An operation together with the answer it got. -/
abbrev Event (σ : Signature) := (o : σ.Op) × σ.Ans o

inductive Program (σ : Signature) (α : Type) : Type where
  | ret (a : α) : Program σ α
  | call (o : σ.Op) (k : σ.Ans o → Program σ α) : Program σ α

variable {σ : Signature} {α β ε : Type} {W : Type}

namespace Program

def bind : Program σ α → (α → Program σ β) → Program σ β
  | ret a, f => f a
  | call o k, f => call o fun r => (k r).bind f

instance : Monad (Program σ) where
  pure := ret
  bind := bind

/-- Perform one operation and return its answer. -/
def perform (o : σ.Op) : Program σ (σ.Ans o) := call o ret

@[simp] theorem pure_eq (a : α) : (pure a : Program σ α) = ret a := rfl

@[simp] theorem ret_bind (a : α) (f : α → Program σ β) : (ret a >>= f) = f a := rfl

@[simp] theorem call_bind (o : σ.Op) (k : σ.Ans o → Program σ α) (f : α → Program σ β) :
    (call o k >>= f) = call o fun r => k r >>= f := rfl

@[simp] theorem perform_bind (o : σ.Op) (f : σ.Ans o → Program σ β) :
    (perform o >>= f) = call o f := rfl

theorem bind_ret (p : Program σ α) : (p >>= ret) = p := by
  induction p with
  | ret a => rfl
  | call o k ih =>
      rw [call_bind]
      exact congrArg (call o) (funext ih)

theorem bind_assoc {γ : Type} (p : Program σ α) (f : α → Program σ β) (g : β → Program σ γ) :
    ((p >>= f) >>= g) = p >>= fun a => f a >>= g := by
  induction p with
  | ret a => rfl
  | call o k ih =>
      simp only [call_bind]
      exact congrArg (call o) (funext ih)

instance : LawfulMonad (Program σ) :=
  LawfulMonad.mk' (Program σ) bind_ret (fun _ _ => rfl) bind_assoc

end Program

/-- Which answers an operation may have in a world, and the world it leaves. -/
abbrev Semantics (σ : Signature) (W : Type) := W → (o : σ.Op) → σ.Ans o → W → Prop

/-! ## Sequential execution -/

/-- `Exec S p w a w'`: run alone from `w`, the program `p` can return `a` and
leave the world `w'`. -/
def Exec (S : Semantics σ W) : Program σ α → W → α → W → Prop
  | .ret b, w, a, w' => a = b ∧ w' = w
  | .call o k, w, a, w' => ∃ r v, S w o r v ∧ Exec S (k r) v a w'

variable {S : Semantics σ W}

@[simp] theorem exec_ret {b a : α} {w w' : W} :
    Exec S (.ret b) w a w' ↔ a = b ∧ w' = w := Iff.rfl

@[simp] theorem exec_pure {b a : α} {w w' : W} :
    Exec S (pure b) w a w' ↔ a = b ∧ w' = w := Iff.rfl

@[simp] theorem exec_call {o : σ.Op} {k : σ.Ans o → Program σ α} {w w' : W} {a : α} :
    Exec S (.call o k) w a w' ↔ ∃ r v, S w o r v ∧ Exec S (k r) v a w' := Iff.rfl

-- the answer type of a concrete operation is rarely written `σ.Ans o`
@[simp] theorem exec_perform {o : σ.Op} {r : σ.Ans o} {w w' : W} :
    @Exec σ (no_index (σ.Ans o)) W S (.perform o) w r w' ↔ S w o r w' := by
  constructor
  · rintro ⟨r', v, h, rfl, rfl⟩
    exact h
  · intro h
    exact ⟨r, w', h, rfl, rfl⟩

theorem exec_bind {p : Program σ α} {f : α → Program σ β} {w w' : W} {b : β} :
    Exec S (p >>= f) w b w' ↔ ∃ a v, Exec S p w a v ∧ Exec S (f a) v b w' := by
  induction p generalizing w with
  | ret a =>
      constructor
      · intro h
        exact ⟨a, w, ⟨rfl, rfl⟩, h⟩
      · rintro ⟨_, _, ⟨rfl, rfl⟩, h⟩
        exact h
  | call o k ih =>
      constructor
      · rintro ⟨r, v, hS, h⟩
        obtain ⟨a, u, hp, hf⟩ := (ih r).1 h
        exact ⟨a, u, ⟨r, v, hS, hp⟩, hf⟩
      · rintro ⟨a, u, ⟨r, v, hS, hp⟩, hf⟩
        exact ⟨r, v, hS, (ih r).2 ⟨a, u, hp, hf⟩⟩

@[simp] theorem exec_map {p : Program σ α} {f : α → β} {w w' : W} {b : β} :
    Exec S (f <$> p) w b w' ↔ ∃ a, Exec S p w a w' ∧ b = f a := by
  have hrun : f <$> p = p >>= fun a => .ret (f a) := rfl
  rw [hrun, exec_bind]
  constructor
  · rintro ⟨a, v, hp, rfl, rfl⟩
    exact ⟨a, hp, rfl⟩
  · rintro ⟨a, hp, rfl⟩
    exact ⟨a, w', hp, rfl, rfl⟩

/-- A loop whose test decides `P` and leaves the world alone keeps the elements with `P`. -/
theorem exec_filterM {f : α → Program σ Bool} {P : α → Bool} {w w' : W}
    (hf : ∀ a b v, Exec S (f a) w b v → b = P a ∧ v = w) {l r : List α}
    (h : Exec S (l.filterM f) w r w') : r = l.filter P ∧ w' = w := by
  have haux : ∀ acc r v, Exec S (List.filterAuxM f l acc) w r v →
      r = (l.filter P).reverse ++ acc ∧ v = w := by
    clear h
    induction l with
    | nil =>
        rintro acc r v ⟨rfl, rfl⟩
        exact ⟨rfl, rfl⟩
    | cons a l ih =>
        intro acc r v h
        obtain ⟨b, u, ha, hrest⟩ := exec_bind.1 h
        obtain ⟨rfl, rfl⟩ := hf a b u ha
        obtain ⟨rfl, rfl⟩ := ih _ r v hrest
        refine ⟨?_, rfl⟩
        cases hP : P a <;> simp [hP]
  obtain ⟨xs, v, hxs, rfl, rfl⟩ := exec_bind.1 h
  obtain ⟨rfl, rfl⟩ := haux [] xs w' hxs
  exact ⟨by simp, rfl⟩

/-! ### Programs that can fail

`ExceptT ε (Program σ)` is the type of a function that returns a `Result`. The
rules below take an execution of a `do` block apart at each `?`. -/

theorem exec_exceptT_bind {x : ExceptT ε (Program σ) α} {f : α → ExceptT ε (Program σ) β}
    {w w' : W} {r : Except ε β} :
    Exec S (x >>= f).run w r w' ↔
      (∃ a v, Exec S x.run w (.ok a) v ∧ Exec S (f a).run v r w') ∨
      (∃ e, Exec S x.run w (.error e) w' ∧ r = .error e) := by
  rw [ExceptT.run_bind, exec_bind]
  constructor
  · rintro ⟨a | a, v, hx, hf⟩
    · obtain ⟨rfl, rfl⟩ := hf
      exact .inr ⟨a, hx, rfl⟩
    · exact .inl ⟨a, v, hx, hf⟩
  · rintro (⟨a, v, hx, hf⟩ | ⟨e, hx, rfl⟩)
    · exact ⟨.ok a, v, hx, hf⟩
    · exact ⟨.error e, w', hx, rfl, rfl⟩

/-- A successful block ran each of its two halves successfully. -/
theorem exec_exceptT_bind_ok {x : ExceptT ε (Program σ) α} {f : α → ExceptT ε (Program σ) β}
    {w w' : W} {b : β} :
    Exec S (x >>= f).run w (.ok b) w' ↔
      ∃ a v, Exec S x.run w (.ok a) v ∧ Exec S (f a).run v (.ok b) w' := by
  rw [exec_exceptT_bind]
  simp

theorem exec_bind_of_ok {x : ExceptT ε (Program σ) α} {f : α → ExceptT ε (Program σ) β}
    {w v w' : W} {a : α} {r : Except ε β} (hx : ∀ y u, Exec S x.run w y u → y = .ok a ∧ u = v)
    (h : Exec S (x >>= f).run w r w') : Exec S (f a).run v r w' := by
  rcases exec_exceptT_bind.1 h with ⟨b, u, hb, hrest⟩ | ⟨e, he, rfl⟩
  · obtain ⟨heq, rfl⟩ := hx _ _ hb
    rwa [Except.ok.inj heq] at hrest
  · cases (hx _ _ he).1

@[simp] theorem exec_exceptT_pure {b : α} {w w' : W} {r : Except ε α} :
    Exec S (pure b : ExceptT ε (Program σ) α).run w r w' ↔ r = .ok b ∧ w' = w := Iff.rfl

@[simp] theorem exec_exceptT_throw {e : ε} {w w' : W} {r : Except ε α} :
    Exec S (throw e : ExceptT ε (Program σ) α).run w r w' ↔ r = .error e ∧ w' = w := Iff.rfl

theorem exec_exceptT_lift {p : Program σ α} {w w' : W} {r : Except ε α} :
    Exec S (liftM p : ExceptT ε (Program σ) α).run w r w' ↔ ∃ a, Exec S p w a w' ∧ r = .ok a := by
  have hrun : (liftM p : ExceptT ε (Program σ) α).run = Except.ok <$> p := rfl
  rw [hrun, exec_map]

theorem exec_exceptT_lift_ok {p : Program σ α} {w w' : W} {a : α} :
    Exec S (liftM p : ExceptT ε (Program σ) α).run w (.ok a) w' ↔ Exec S p w a w' := by
  rw [exec_exceptT_lift]
  simp

/-- `?` on a result whose error is converted on the way. -/
def attempt {ε' : Type} (f : ε → ε') (p : Program σ (Except ε α)) : ExceptT ε' (Program σ) α :=
  ExceptT.mk (Except.mapError f <$> p)

theorem exec_attempt_ok {ε' : Type} {f : ε → ε'} {p : Program σ (Except ε α)} {w w' : W} {a : α} :
    Exec S (attempt f p).run w (.ok a) w' ↔ Exec S p w (.ok a) w' := by
  have hrun : (attempt f p).run = Except.mapError f <$> p := rfl
  rw [hrun, exec_map]
  constructor
  · rintro ⟨x, hp, hx⟩
    cases x with
    | error e => cases hx
    | ok b =>
        rw [Except.ok.inj hx]
        exact hp
  · intro hp
    exact ⟨.ok a, hp, rfl⟩

/-- `?` on a computed result. -/
def settle (r : Except ε α) : ExceptT ε (Program σ) α := ExceptT.mk (pure r)

@[simp] theorem exec_settle {x r : Except ε α} {w w' : W} :
    Exec S (settle x).run w r w' ↔ r = x ∧ w' = w := Iff.rfl

/-- A result that is looked at instead of being passed on. -/
def caught (x : ExceptT ε (Program σ) α) : ExceptT ε (Program σ) (Except ε α) := ExceptT.lift x.run

theorem exec_caught {x : ExceptT ε (Program σ) α} {w w' : W} {r : Except ε (Except ε α)} :
    Exec S (caught x).run w r w' ↔ ∃ a, Exec S x.run w a w' ∧ r = .ok a :=
  exec_map

/-! ### Preservation

`Keeps S P p Q`: from a world satisfying `P`, every execution of `p` ends in a
result and a world satisfying `Q`. Invariants of a sequential run are proved
with the rules for `ret`, `call` and `>>=`. -/

def Keeps (S : Semantics σ W) (P : W → Prop) (p : Program σ α) (Q : α → W → Prop) : Prop :=
  ∀ ⦃w a w'⦄, P w → Exec S p w a w' → Q a w'

namespace Keeps

variable {P P' : W → Prop} {Q Q' : α → W → Prop} {R : β → W → Prop}

theorem ret {a : α} (h : ∀ w, P w → Q a w) : Keeps S P (.ret a) Q := by
  rintro w _ _ hw ⟨rfl, rfl⟩
  exact h _ hw

theorem call {o : σ.Op} {k : σ.Ans o → Program σ α} {M : σ.Ans o → W → Prop}
    (hop : ∀ w r v, P w → S w o r v → M r v) (hk : ∀ r, Keeps S (M r) (k r) Q) :
    Keeps S P (.call o k) Q := by
  rintro w a w' hw ⟨r, v, hS, hrest⟩
  exact hk r (hop w r v hw hS) hrest

theorem bind {p : Program σ α} {f : α → Program σ β} (hp : Keeps S P p Q)
    (hf : ∀ a, Keeps S (Q a) (f a) R) : Keeps S P (p >>= f) R := by
  intro w b w' hw h
  obtain ⟨a, v, hpa, hfb⟩ := exec_bind.1 h
  exact hf a (hp hw hpa) hfb

theorem consequence {p : Program σ α} (h : Keeps S P p Q) (hpre : ∀ w, P' w → P w)
    (hpost : ∀ a w, Q a w → Q' a w) : Keeps S P' p Q' := by
  intro w a w' hw hp
  exact hpost a w' (h (hpre w hw) hp)

end Keeps

/-- An execution under a semantics is one under any that allows more. -/
theorem exec_mono {S' : Semantics σ W} (hS : ∀ w o r v, S w o r v → S' w o r v)
    {p : Program σ α} {w w' : W} {a : α} (h : Exec S p w a w') : Exec S' p w a w' := by
  induction p generalizing w with
  | ret b => exact h
  | call o k ih =>
      obtain ⟨r, v, hstep, hrest⟩ := h
      exact ⟨r, v, hS _ _ _ _ hstep, ih r hrest⟩

/-! ### Moves

`Moves S R p`: every execution of `p` goes from a world to one that `R` relates it to. -/

def Moves (S : Semantics σ W) (R : W → W → Prop) (p : Program σ α) : Prop :=
  ∀ ⦃w a w'⦄, Exec S p w a w' → R w w'

namespace Moves

variable {R : W → W → Prop}

theorem bind (htrans : ∀ {u v w}, R u v → R v w → R u w) {p : Program σ α}
    {f : α → Program σ β} (hp : Moves S R p) (hf : ∀ a, Moves S R (f a)) :
    Moves S R (p >>= f) := by
  intro w b w' h
  obtain ⟨a, v, hpa, hfb⟩ := exec_bind.1 h
  exact htrans (hp hpa) (hf a hfb)

theorem exceptT_bind (htrans : ∀ {u v w}, R u v → R v w → R u w)
    {x : ExceptT ε (Program σ) α} {f : α → ExceptT ε (Program σ) β} (hx : Moves S R x.run)
    (hf : ∀ a, Moves S R (f a).run) : Moves S R (x >>= f).run := by
  intro w r w' h
  obtain ⟨a, v, hxa, hfb⟩ | ⟨e, hxe, -⟩ := exec_exceptT_bind.1 h
  · exact htrans (hx hxa) (hf a hfb)
  · exact hx hxe

theorem caught {x : ExceptT ε (Program σ) α} (hx : Moves S R x.run) :
    Moves S R (Effect.caught x).run := by
  intro w r w' h
  obtain ⟨a, hxa, -⟩ := exec_caught.1 h
  exact hx hxa

theorem consequence {R' : W → W → Prop} {p : Program σ α} (hp : Moves S R p)
    (hR : ∀ w w', R w w' → R' w w') : Moves S R' p :=
  fun _ _ _ h => hR _ _ (hp h)

end Moves

/-! ### Programs that get an answer

`Answers S p`: from every world `p` has an execution. -/

def Answers (S : Semantics σ W) (p : Program σ α) : Prop := ∀ w, ∃ a w', Exec S p w a w'

namespace Answers

theorem ret (a : α) : Answers S (.ret a : Program σ α) := fun w => ⟨a, w, rfl, rfl⟩

theorem bind {p : Program σ α} {f : α → Program σ β} (hp : Answers S p)
    (hf : ∀ a, Answers S (f a)) : Answers S (p >>= f) := by
  intro w
  obtain ⟨a, v, hpa⟩ := hp w
  obtain ⟨b, w', hfb⟩ := hf a v
  exact ⟨b, w', exec_bind.2 ⟨a, v, hpa, hfb⟩⟩

theorem map {p : Program σ α} {f : α → β} (hp : Answers S p) : Answers S (f <$> p) :=
  hp.bind fun a => ret (f a)

theorem exceptT_bind {x : ExceptT ε (Program σ) α} {f : α → ExceptT ε (Program σ) β}
    (hx : Answers S x.run) (hf : ∀ a, Answers S (f a).run) : Answers S (x >>= f).run := by
  rw [ExceptT.run_bind]
  refine hx.bind ?_
  rintro (e | a)
  · exact ret _
  · exact hf a

end Answers

/-! ### Footprints

`p.Only P`: every operation `p` can perform satisfies `P`. What such operations
do to the world, one at a time, the whole program does to it. -/

inductive Program.Only (P : σ.Op → Prop) : Program σ α → Prop
  | ret (a : α) : Only P (.ret a)
  | call {o : σ.Op} {k : σ.Ans o → Program σ α} (here : P o) (rest : ∀ r, Only P (k r)) :
      Only P (.call o k)

section Only

variable {P Q : σ.Op → Prop}

theorem only_pure {a : α} : (pure a : Program σ α).Only P := .ret a

theorem only_perform {o : σ.Op} (h : P o) : (Program.perform o).Only P := .call h .ret

theorem only_bind {p : Program σ α} {f : α → Program σ β} (hp : p.Only P)
    (hf : ∀ a, (f a).Only P) : (p >>= f).Only P := by
  induction hp with
  | ret a => exact hf a
  | call here _ ih => exact .call here ih

theorem only_map {p : Program σ α} {f : α → β} (hp : p.Only P) : (f <$> p).Only P :=
  only_bind hp fun _ => .ret _

theorem only_exceptT_bind {x : ExceptT ε (Program σ) α} {f : α → ExceptT ε (Program σ) β}
    (hx : x.run.Only P) (hf : ∀ a, (f a).run.Only P) : (x >>= f).run.Only P := by
  rw [ExceptT.run_bind]
  refine only_bind hx ?_
  rintro (e | a)
  · exact .ret _
  · exact hf a

theorem only_exceptT_pure {a : α} : (pure a : ExceptT ε (Program σ) α).run.Only P := .ret _

theorem only_exceptT_throw {e : ε} : (throw e : ExceptT ε (Program σ) α).run.Only P := .ret _

theorem only_exceptT_lift {p : Program σ α} (hp : p.Only P) :
    (liftM p : ExceptT ε (Program σ) α).run.Only P :=
  only_map hp

theorem only_attempt {ε' : Type} {f : ε → ε'} {p : Program σ (Except ε α)} (hp : p.Only P) :
    (attempt f p).run.Only P :=
  only_map hp

theorem only_settle {r : Except ε α} : (settle r : ExceptT ε (Program σ) α).run.Only P := .ret _

theorem only_caught {x : ExceptT ε (Program σ) α} (hx : x.run.Only P) : (caught x).run.Only P :=
  only_map hx

theorem only_filterM {f : α → Program σ Bool} (hf : ∀ a, (f a).Only P) (l : List α) :
    (l.filterM f).Only P := by
  have haux : ∀ acc, (List.filterAuxM f l acc).Only P := by
    induction l with
    | nil => exact fun acc => .ret _
    | cons a l ih => exact fun acc => only_bind (hf a) fun b => ih _
  exact only_bind (haux []) fun _ => .ret _

theorem only_mapM {f : α → Program σ β} (hf : ∀ a, (f a).Only P) (l : List α) :
    (l.mapM f).Only P := by
  induction l with
  | nil => exact .ret _
  | cons a l ih =>
      rw [List.mapM_cons]
      exact only_bind (hf a) fun b => only_bind ih fun bs => .ret _

theorem only_findM? {f : α → Program σ Bool} (hf : ∀ a, (f a).Only P) (l : List α) :
    (l.findM? f).Only P := by
  induction l with
  | nil => exact .ret _
  | cons a l ih =>
      refine only_bind (hf a) fun b => ?_
      cases b with
      | true => exact .ret _
      | false => exact ih

theorem Program.Only.imp {p : Program σ α} (hp : p.Only P) (h : ∀ o, P o → Q o) : p.Only Q := by
  induction hp with
  | ret a => exact .ret a
  | call here _ ih => exact .call (h _ here) ih

/-- Operations that always have an answer give a program one. -/
theorem Program.only_true (p : Program σ α) : p.Only fun _ => True := by
  induction p with
  | ret a => exact .ret a
  | call o k ih => exact .call trivial ih

theorem Program.Only.answers {p : Program σ α} (hp : p.Only P)
    (hop : ∀ w o, P o → ∃ r v, S w o r v) : Answers S p := by
  induction hp with
  | ret a => exact .ret a
  | @call o k here _ ih =>
      intro w
      obtain ⟨r, v, hstep⟩ := hop w o here
      obtain ⟨a, w', hrest⟩ := ih r v
      exact ⟨a, w', r, v, hstep, hrest⟩

/-- A preorder that each operation respects relates the worlds before and after. -/
theorem Program.Only.exec {R : W → W → Prop} (hrefl : ∀ w, R w w)
    (htrans : ∀ {u v w}, R u v → R v w → R u w)
    (hop : ∀ {w o r v}, P o → S w o r v → R w v)
      {p : Program σ α} (hp : p.Only P) {w w' : W} {a : α}
    (h : Exec S p w a w') : R w w' := by
  induction hp generalizing w with
  | ret b =>
      obtain ⟨-, rfl⟩ := h
      exact hrefl _
  | call here _ ih =>
      obtain ⟨r, v, hS, hrest⟩ := h
      exact htrans (hop here hS) (ih r hrest)

theorem Program.Only.moves {R : W → W → Prop} (hrefl : ∀ w, R w w)
    (htrans : ∀ {u v w}, R u v → R v w → R u w)
    (hop : ∀ {w o r v}, P o → S w o r v → R w v) {p : Program σ α} (hp : p.Only P) : Moves S R p :=
  fun _ _ _ h => hp.exec hrefl htrans hop h

end Only

/-! ### Results

`p.Returns Q`: whatever the operations answer, the result of `p` satisfies `Q`. -/

inductive Program.Returns (Q : α → Prop) : Program σ α → Prop
  | ret {a : α} (h : Q a) : Returns Q (.ret a)
  | call {o : σ.Op} {k : σ.Ans o → Program σ α} (rest : ∀ r, Returns Q (k r)) :
      Returns Q (.call o k)

section Returns

variable {Q : α → Prop} {R : β → Prop}

theorem returns_pure {a : α} (h : Q a) : (pure a : Program σ α).Returns Q := .ret h

theorem returns_bind {p : Program σ α} {f : α → Program σ β} (hf : ∀ a, (f a).Returns R) :
    (p >>= f).Returns R := by
  induction p with
  | ret a => exact hf a
  | call o k ih => exact .call ih

theorem Program.Returns.exec {p : Program σ α} (hp : p.Returns Q) {w w' : W} {a : α}
    (h : Exec S p w a w') : Q a := by
  induction hp generalizing w with
  | ret hq =>
      obtain ⟨rfl, -⟩ := h
      exact hq
  | call _ ih =>
      obtain ⟨r, v, -, hrest⟩ := h
      exact ih r hrest

end Returns

/-! ### Recorded execution

With the operations performed so far as part of the state, the worlds between
two calls of a run tell which operations happened in between. -/

def recorded (S : Semantics σ W) : Semantics σ (W × List (Event σ)) :=
  fun x o r y => S x.1 o r y.1 ∧ y.2 = x.2 ++ [⟨o, r⟩]

theorem exec_of_recorded {S : Semantics σ W} {p : Program σ α} {x y : W × List (Event σ)} {a : α}
    (h : Exec (recorded S) p x a y) : Exec S p x.1 a y.1 := by
  induction p generalizing x with
  | ret b =>
      obtain ⟨rfl, rfl⟩ := h
      exact ⟨rfl, rfl⟩
  | call o k ih =>
      obtain ⟨r, z, ⟨hS, -⟩, hrest⟩ := h
      exact ⟨r, z.1, hS, ih r hrest⟩

theorem exec_recorded {S : Semantics σ W} {p : Program σ α} {w w' : W} {a : α}
    (h : Exec S p w a w') (events : List (Event σ)) :
    ∃ events', Exec (recorded S) p (w, events) a (w', events') := by
  induction p generalizing w events with
  | ret b =>
      obtain ⟨rfl, rfl⟩ := h
      exact ⟨events, rfl, rfl⟩
  | call o k ih =>
      obtain ⟨r, v, hS, hrest⟩ := h
      obtain ⟨events', hexec⟩ := ih r hrest (events ++ [⟨o, r⟩])
      exact ⟨events', r, (v, events ++ [⟨o, r⟩]), ⟨hS, rfl⟩, hexec⟩

theorem prefix_of_exec_recorded {p : Program σ α} {x y : W × List (Event σ)} {a : α}
    (h : Exec (recorded S) p x a y) : x.2 <+: y.2 := by
  induction p generalizing x with
  | ret b =>
      obtain ⟨-, rfl⟩ := h
      exact List.prefix_refl _
  | call o k ih =>
      obtain ⟨r, z, ⟨-, hz⟩, hrest⟩ := h
      have hxz : x.2 <+: z.2 := by
        rw [hz]
        exact List.prefix_append _ _
      exact hxz.trans (ih r hrest)

theorem Program.Only.recorded {P : σ.Op → Prop} {p : Program σ α} (hp : p.Only P)
    {x y : W × List (Event σ)} {a : α} (h : Exec (recorded S) p x a y) :
    ∀ e ∈ y.2, e ∈ x.2 ∨ P e.1 := by
  induction hp generalizing x with
  | ret b =>
      obtain ⟨-, rfl⟩ := h
      exact fun e he => .inl he
  | call here _ ih =>
      obtain ⟨r, z, ⟨-, hz⟩, hrest⟩ := h
      intro e he
      rcases ih r hrest e he with he | he
      · rw [hz, List.mem_append, List.mem_singleton] at he
        rcases he with he | rfl
        · exact .inl he
        · exact .inr here
      · exact .inr he

theorem forall_recorded {A : Event σ → Prop} (hA : ∀ {w o r v}, S w o r v → A ⟨o, r⟩)
    {p : Program σ α} {x y : W × List (Event σ)} {a : α} (h : Exec (recorded S) p x a y) :
    ∀ e ∈ y.2, e ∈ x.2 ∨ A e := by
  induction p generalizing x with
  | ret b =>
      obtain ⟨-, rfl⟩ := h
      exact fun e he => .inl he
  | call o k ih =>
      obtain ⟨r, z, ⟨hS, hz⟩, hrest⟩ := h
      intro e he
      rcases ih r hrest e he with he | he
      · rw [hz, List.mem_append, List.mem_singleton] at he
        rcases he with he | rfl
        · exact .inl he
        · exact .inr (hA hS)
      · exact .inr he

/-- Two executions of a program from one state that are recorded as parts of the
same events are the same execution. -/
theorem exec_recorded_unique (hdet : ∀ w o r v v', S w o r v → S w o r v' → v = v')
    {p : Program σ α} {x y z : W × List (Event σ)} {a b : α} {events : List (Event σ)}
    (hy : Exec (recorded S) p x a y) (hz : Exec (recorded S) p x b z) (hypre : y.2 <+: events)
    (hzpre : z.2 <+: events) : a = b ∧ y = z := by
  induction p generalizing x with
  | ret c =>
      obtain ⟨rfl, rfl⟩ := hy
      obtain ⟨rfl, rfl⟩ := hz
      exact ⟨rfl, rfl⟩
  | call o k ih =>
      obtain ⟨r, u, ⟨hu, hu2⟩, hyrest⟩ := hy
      obtain ⟨r', v, ⟨hv, hv2⟩, hzrest⟩ := hz
      have hupre : x.2 ++ [⟨o, r⟩] <+: events := by
        rw [← hu2]
        exact (prefix_of_exec_recorded hyrest).trans hypre
      have hvpre : x.2 ++ [⟨o, r'⟩] <+: events := by
        rw [← hv2]
        exact (prefix_of_exec_recorded hzrest).trans hzpre
      -- both answers are the event at the same position
      have heq : x.2 ++ [(⟨o, r⟩ : Event σ)] = x.2 ++ [⟨o, r'⟩] :=
        (List.prefix_of_prefix_length_le hupre hvpre (by simp)).eq_of_length (by simp)
      obtain rfl : r = r' := by simpa using heq
      obtain rfl : u = v := Prod.ext (hdet _ _ _ _ _ hu hv) (hu2.trans hv2.symm)
      exact ih r hyrest hzrest

/-- The events of a complete run of the program with the result `a`. -/
def Program.Traces : Program σ α → List (Event σ) → α → Prop
  | .ret b, es, a => es = [] ∧ a = b
  | .call o k, es, a => ∃ r rest, es = ⟨o, r⟩ :: rest ∧ (k r).Traces rest a

/-! ## Evaluation

Where an operation has one answer, a program has one result: `eval` computes it. -/

section Eval

variable {step : W → (o : σ.Op) → σ.Ans o × W}

def eval (step : W → (o : σ.Op) → σ.Ans o × W) : Program σ α → W → α × W
  | .ret a, w => (a, w)
  | .call o k, w => eval step (k (step w o).1) (step w o).2

@[simp] theorem eval_pure {a : α} {w : W} : eval step (pure a) w = (a, w) := rfl

theorem eval_perform {o : σ.Op} {w : W} : eval step (.perform o) w = step w o := rfl

theorem eval_bind (p : Program σ α) (f : α → Program σ β) (w : W) :
    eval step (p >>= f) w = eval step (f (eval step p w).1) (eval step p w).2 := by
  induction p generalizing w with
  | ret a => rfl
  | call o k ih => exact ih _ _

theorem eval_map (p : Program σ α) (f : α → β) (w : W) :
    eval step (f <$> p) w = (f (eval step p w).1, (eval step p w).2) :=
  eval_bind p (fun a => pure (f a)) w

@[simp] theorem eval_exceptT_pure {a : α} {w : W} :
    eval step (pure a : ExceptT ε (Program σ) α).run w = (.ok a, w) := rfl

@[simp] theorem eval_exceptT_throw {e : ε} {w : W} :
    eval step (throw e : ExceptT ε (Program σ) α).run w = (.error e, w) := rfl

theorem eval_exceptT_bind_ok {x : ExceptT ε (Program σ) α} {f : α → ExceptT ε (Program σ) β}
    {w v : W} {a : α} (hx : eval step x.run w = (.ok a, v)) :
    eval step (x >>= f).run w = eval step (f a).run v := by
  rw [ExceptT.run_bind, eval_bind, hx]

theorem eval_exceptT_bind_error {x : ExceptT ε (Program σ) α} {f : α → ExceptT ε (Program σ) β}
    {w v : W} {e : ε} (hx : eval step x.run w = (.error e, v)) :
    eval step (x >>= f).run w = (.error e, v) := by
  rw [ExceptT.run_bind, eval_bind, hx]
  rfl

theorem eval_exceptT_lift {p : Program σ α} {w : W} :
    eval step (liftM p : ExceptT ε (Program σ) α).run w =
      (.ok (eval step p w).1, (eval step p w).2) :=
  eval_map p Except.ok w

theorem eval_attempt {ε' : Type} {f : ε → ε'} {p : Program σ (Except ε α)} {w : W} :
    eval step (attempt f p).run w = ((eval step p w).1.mapError f, (eval step p w).2) :=
  eval_map p (Except.mapError f) w

theorem eval_caught {x : ExceptT ε (Program σ) α} {w : W} :
    eval step (caught x).run w = (.ok (eval step x.run w).1, (eval step x.run w).2) :=
  eval_map x.run Except.ok w

@[simp] theorem eval_settle {x : Except ε α} {w : W} :
    eval step (settle x : ExceptT ε (Program σ) α).run w = (x, w) := rfl

/-- A program whose operations have one answer each has one execution. -/
theorem Program.Only.exec_eval {D : σ.Op → Prop} {p : Program σ α} (hp : p.Only D)
    (hdet : ∀ w o r v, D o → S w o r v → (r, v) = step w o) {w w' : W} {a : α}
    (h : Exec S p w a w') : (a, w') = eval step p w := by
  induction hp generalizing w with
  | ret b =>
      obtain ⟨rfl, rfl⟩ := h
      rfl
  | @call o k here _ ih =>
      obtain ⟨r, v, hS, hrest⟩ := h
      have hstep := hdet w o r v here hS
      rw [eval, ← hstep]
      exact ih r hrest

theorem exec_of_eval (hstep : ∀ w o, S w o (step w o).1 (step w o).2) (p : Program σ α) (w : W) :
    Exec S p w (eval step p w).1 (eval step p w).2 := by
  induction p generalizing w with
  | ret a => exact ⟨rfl, rfl⟩
  | call o k ih => exact ⟨_, _, hstep w o, ih _ _⟩

end Eval

/-! ## Execution with chosen outcomes

A semantics whose nondeterminism is resolved by a list of choices can be
evaluated. `execute` runs a program this way and `exec_of_execute` turns the
evaluation into a derivation. -/

variable {C : Type}

def execute (step : C → W → (o : σ.Op) → Option (σ.Ans o × W)) :
    Program σ α → W → List C → Option (α × W)
  | .ret a, w, _ => some (a, w)
  | .call _ _, _, [] => none
  | .call o k, w, c :: cs =>
      match step c w o with
      | some (r, v) => execute step (k r) v cs
      | none => none

theorem exec_of_execute {step : C → W → (o : σ.Op) → Option (σ.Ans o × W)}
    (hstep : ∀ c w o r v, step c w o = some (r, v) → S w o r v)
    {p : Program σ α} {w : W} {cs : List C} {a : α} {w' : W}
    (h : execute step p w cs = some (a, w')) : Exec S p w a w' := by
  induction p generalizing w cs with
  | ret b =>
      simp only [execute, Option.some.injEq, Prod.mk.injEq] at h
      obtain ⟨rfl, rfl⟩ := h
      exact ⟨rfl, rfl⟩
  | call o k ih =>
      cases cs with
      | nil => simp [execute] at h
      | cons c cs =>
          cases hs : step c w o with
          | none => simp [execute, hs] at h
          | some rv =>
              obtain ⟨r, v⟩ := rv
              simp only [execute, hs] at h
              exact ⟨r, v, hstep c w o r v hs, ih r h⟩

end Linhello.Effect
