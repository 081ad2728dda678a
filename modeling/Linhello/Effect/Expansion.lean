import Linhello.Effect.Program
/-!
# Operations done in several steps

`p.expand f` does every operation `o` of `p` as the program `f o`, which may be over
another signature. Expansion goes through `>>=`, so the functions of a model are
expanded one at a time.
-/

namespace Linhello.Effect

variable {σ τ : Signature} {α β ε ε' : Type}

def Program.expand (f : (o : σ.Op) → Program τ (σ.Ans o)) : Program σ α → Program τ α
  | .ret a => .ret a
  | .call o k => f o >>= fun r => (k r).expand f

variable {f : (o : σ.Op) → Program τ (σ.Ans o)}

theorem expand_perform (o : σ.Op) : (Program.perform o).expand f = f o :=
  Program.bind_ret (f o)

theorem expand_bind (p : Program σ α) (g : α → Program σ β) :
    (p >>= g).expand f = p.expand f >>= fun a => (g a).expand f := by
  induction p with
  | ret a => rfl
  | call o k ih =>
      show (f o >>= fun r => (k r >>= g).expand f) = (f o >>= fun r => (k r).expand f) >>= _
      rw [Program.bind_assoc]
      have hrest : (fun r => (k r >>= g).expand f) =
          fun r => (k r).expand f >>= fun a => (g a).expand f := funext ih
      rw [hrest]

theorem expand_map (p : Program σ α) (g : α → β) : (g <$> p).expand f = g <$> p.expand f :=
  expand_bind p fun a => .ret (g a)

theorem Program.Only.expand {P : τ.Op → Prop} {f : (o : τ.Op) → Program τ (τ.Ans o)}
    {p : Program τ α} (hp : p.Only P) (hf : ∀ o, P o → f o = .perform o) : p.expand f = p := by
  induction hp with
  | ret a => rfl
  | @call o k here _ ih =>
      show (f o >>= fun r => (k r).expand f) = .call o k
      rw [hf o here, Program.perform_bind]
      exact congrArg (Program.call o) (funext ih)

/-! ## Programs that can fail -/

def expandT (f : (o : σ.Op) → Program τ (σ.Ans o)) (x : ExceptT ε (Program σ) α) :
    ExceptT ε (Program τ) α :=
  ExceptT.mk (x.run.expand f)

theorem expandT_bind (x : ExceptT ε (Program σ) α) (g : α → ExceptT ε (Program σ) β) :
    expandT f (x >>= g) = expandT f x >>= fun a => expandT f (g a) := by
  show ExceptT.mk ((x >>= g).run.expand f) = _
  rw [ExceptT.run_bind, expand_bind]
  apply congrArg ExceptT.mk
  show (x.run.expand f >>= _) = (x.run.expand f >>= _)
  apply congrArg (x.run.expand f >>= ·)
  funext r
  cases r <;> rfl

theorem expandT_settle (r : Except ε α) : expandT f (settle r) = settle r := rfl

theorem expandT_lift (p : Program σ α) :
    expandT f (liftM p : ExceptT ε (Program σ) α) = liftM (p.expand f) :=
  congrArg ExceptT.mk (expand_map p Except.ok)

theorem expandT_attempt (g : ε → ε') (p : Program σ (Except ε α)) :
    expandT f (attempt g p) = attempt g (p.expand f) :=
  congrArg ExceptT.mk (expand_map p (Except.mapError g))

theorem expandT_of_only {P : τ.Op → Prop} {f : (o : τ.Op) → Program τ (τ.Ans o)}
    {x : ExceptT ε (Program τ) α} (hx : x.run.Only P) (hf : ∀ o, P o → f o = .perform o) :
    expandT f x = x :=
  congrArg ExceptT.mk (hx.expand hf)

end Linhello.Effect
