import Linhello.Effect.Guided
import Linhello.Effect.Interleaving
/-!
# A server

Requests come in at any time, each is served by a program of its own, and the programs
take their operations in any order. `Server.Step` is one thing that happens to the server and
`Server.Asks` what the client that sent one of the requests sees of it. What guided
programs promise holds in every state (`Steady`), and a program that tolerates what the
others do ends as it promises (`Asks.guarded`).
-/

namespace Linhello.Effect

variable {σ : Signature} {α W Req Resp : Type}

/-! ## What is left of a program -/

/-- `q` is what is left of `p` after operations whose answers are as relied on. -/
inductive Program.Leads (A : Event σ → Prop) (p : Program σ α) : Program σ α → Prop
  | refl : Leads A p p
  | step {o : σ.Op} {k : σ.Ans o → Program σ α} {r : σ.Ans o} (before : Leads A p (.call o k))
      (hr : A ⟨o, r⟩) : Leads A p (k r)

section Leads

variable {A : Event σ → Prop} {P : σ.Op → Prop} {Q : α → Prop} {p q : Program σ α}

theorem Program.Guided.answered {o : σ.Op} {k : σ.Ans o → Program σ α} {r : σ.Ans o}
    (h : Program.Guided A P Q (.call o k)) (hr : A ⟨o, r⟩) : P o ∧ (k r).Guided A P Q := by
  cases h with
  | call here rest => exact ⟨here, rest r hr⟩

theorem Program.Only.answered {o : σ.Op} {k : σ.Ans o → Program σ α}
    (h : Program.Only P (.call o k)) (r : σ.Ans o) : P o ∧ (k r).Only P := by
  cases h with
  | call here rest => exact ⟨here, rest r⟩

theorem Program.Guided.only (h : p.Guided (fun _ => True) P Q) : p.Only P := by
  induction h with
  | ret _ => exact .ret _
  | call here _ ih => exact .call here fun r => ih r trivial

theorem Program.Leads.only (h : p.Leads A q) (hp : p.Only P) : q.Only P := by
  induction h with
  | refl => exact hp
  | step _ _ ih => exact (ih.answered _).2

theorem Program.Leads.exec {a : α} (h : p.Leads A (.ret a)) :
    Exec (fun (_ : Unit) o r _ => A ⟨o, r⟩) p () a () := by
  have hback : ∀ {q}, p.Leads A q → Exec (fun (_ : Unit) o r _ => A ⟨o, r⟩) q () a () →
      Exec (fun (_ : Unit) o r _ => A ⟨o, r⟩) p () a () := by
    intro q hq
    induction hq with
    | refl => exact id
    | @step o k r _ hr ih => exact fun hrest => ih ⟨r, (), hr, hrest⟩
  exact hback h ⟨rfl, rfl⟩

theorem exec_image {X : Type} {S : Semantics σ W} {T : Semantics σ X} {f : W → X}
    (hstep : ∀ {w o r v}, S w o r v → T (f w) o r (f v)) {w v : W} {a : α} (h : Exec S p w a v) :
    Exec T p (f w) a (f v) := by
  induction p generalizing w with
  | ret b =>
      obtain ⟨rfl, rfl⟩ := h
      exact ⟨rfl, rfl⟩
  | call o k ih =>
      obtain ⟨r, u, hS, hrest⟩ := h
      exact ⟨r, f u, hstep hS, ih r hrest⟩

end Leads

/-! ## The server -/

/-- A request in service, and what is left to do for it. -/
structure Job (Serves : Req → Program σ Resp → Prop) where
  request : Req
  rest : Program σ Resp
  remains : ∃ p, Serves request p ∧ p.Leads (fun _ => True) rest

variable {Serves : Req → Program σ Resp → Prop}

def Job.start {req : Req} {p : Program σ Resp} (h : Serves req p) : Job Serves :=
  ⟨req, p, p, h, .refl⟩

def Job.next (job : Job Serves) {o : σ.Op} {k : σ.Ans o → Program σ Resp}
    (h : job.rest = .call o k) (r : σ.Ans o) : Job Serves where
  request := job.request
  rest := k r
  remains := by
    obtain ⟨p, hserves, hleads⟩ := job.remains
    rw [h] at hleads
    exact ⟨p, hserves, hleads.step trivial⟩

/-- The world the programs work on, and the jobs by connection. -/
structure Server (Serves : Req → Program σ Resp → Prop) (W : Type) where
  world : W
  jobs : ℕ → Option (Job Serves)

namespace Server

/-- One thing that happens to a server that takes requests of a kind. A restart forgets
every job. -/
inductive Step (S : Semantics σ W) (Restarts : W → W → Prop) (Accepts : Req → Prop) :
    Server Serves W → Server Serves W → Prop
  | accept {x : Server Serves W} {id : ℕ} {req : Req} {p : Program σ Resp} (free : x.jobs id = none)
      (accepts : Accepts req) (serves : Serves req p) :
      Step S Restarts Accepts x ⟨x.world, Function.update x.jobs id (some (.start serves))⟩
  | operate {x : Server Serves W} {id : ℕ} {job : Job Serves} {o : σ.Op}
      {k : σ.Ans o → Program σ Resp} {r : σ.Ans o} {w : W} (running : x.jobs id = some job)
      (next : job.rest = .call o k) (step : S x.world o r w) :
      Step S Restarts Accepts x ⟨w, Function.update x.jobs id (some (job.next next r))⟩
  | answer {x : Server Serves W} {id : ℕ} {job : Job Serves} {resp : Resp}
      (running : x.jobs id = some job) (done : job.rest = .ret resp) :
      Step S Restarts Accepts x ⟨x.world, Function.update x.jobs id none⟩
  | restart {x : Server Serves W} {w : W} (restarts : Restarts x.world w) :
      Step S Restarts Accepts x ⟨w, fun _ => none⟩

abbrev Steps (S : Semantics σ W) (Restarts : W → W → Prop) (Accepts : Req → Prop) :
    Server Serves W → Server Serves W → Prop :=
  Relation.ReflTransGen (Step S Restarts Accepts)

/-- A request is sent and answered; meanwhile the server does whatever it does, short of
dropping this connection. -/
def Asks (S : Semantics σ W) (Restarts : W → W → Prop) (Accepts : Req → Prop) (x : Server Serves W)
    (req : Req) (resp : Resp) (y : Server Serves W) : Prop :=
  ∃ (id : ℕ) (p : Program σ Resp) (serves : Serves req p) (z : Server Serves W) (job : Job Serves),
    x.jobs id = none ∧
    Relation.ReflTransGen (fun a b => Step S Restarts Accepts a b ∧ b.jobs id ≠ none)
      ⟨x.world, Function.update x.jobs id (some (.start serves))⟩ z ∧
    z.jobs id = some job ∧ job.rest = .ret resp ∧ y = ⟨z.world, Function.update z.jobs id none⟩

variable {S : Semantics σ W} {Restarts : W → W → Prop} {Accepts : Req → Prop}
  {x y : Server Serves W}

/-! ## What guided jobs keep -/

/-- The world is as it should be, and so is all that is still to be done. -/
structure Steady (A : Event σ → Prop) (P : σ.Op → Prop) (Inv : W → Prop) (x : Server Serves W) :
    Prop where
  world : Inv x.world
  jobs : ∀ id job, x.jobs id = some job → job.rest.Guided A P fun _ => True

section Steady

variable {A : Event σ → Prop} {P : σ.Op → Prop} {Inv : W → Prop}

/-- What makes a kind of requests keep a server steady. -/
structure Keeps (S : Semantics σ W) (Restarts : W → W → Prop) (Serves : Req → Program σ Resp → Prop)
    (Accepts : Req → Prop) (A : Event σ → Prop) (P : σ.Op → Prop) (Inv : W → Prop) : Prop where
  operate : ∀ {w o r v}, Inv w → P o → S w o r v → A ⟨o, r⟩ ∧ Inv v
  accept : ∀ {req p}, Accepts req → Serves req p → p.Guided A P fun _ => True
  restart : ∀ {w v}, Inv w → Restarts w v → Inv v

/-- What holds of every job but one, and of what that is replaced by. -/
theorem jobs_update {Good : ℕ → Job Serves → Prop} {jobs : ℕ → Option (Job Serves)} {id : ℕ}
    {new : Option (Job Serves)} (h : ∀ i job, jobs i = some job → Good i job)
    (hnew : ∀ job, new = some job → Good id job) :
    ∀ i job, Function.update jobs id new i = some job → Good i job := by
  intro i job hi
  by_cases hid : i = id
  · subst hid
    rw [Function.update_self] at hi
    exact hnew job hi
  · rw [Function.update_of_ne hid] at hi
    exact h i job hi

theorem Steady.step (hkeeps : Keeps S Restarts Serves Accepts A P Inv) (h : Steady A P Inv x)
    (hstep : Step S Restarts Accepts x y) : Steady A P Inv y := by
  cases hstep with
  | accept free accepts serves =>
      refine ⟨h.world, jobs_update h.jobs ?_⟩
      intro job heq
      obtain rfl := Option.some.inj heq
      exact hkeeps.accept accepts serves
  | @operate id job o k r w running next step =>
      have hguided := h.jobs id job running
      rw [next] at hguided
      have hP : P o := by
        cases hguided with
        | call here rest => exact here
      obtain ⟨hA, hw⟩ := hkeeps.operate h.world hP step
      refine ⟨hw, jobs_update h.jobs ?_⟩
      intro job' heq
      obtain rfl := Option.some.inj heq
      exact (hguided.answered hA).2
  | answer running done => exact ⟨h.world, jobs_update h.jobs fun job heq => by cases heq⟩
  | restart restarts =>
      exact ⟨hkeeps.restart h.world restarts, fun id job heq => by cases heq⟩

theorem Keeps.mono {Accepts' : Req → Prop} (h : Keeps S Restarts Serves Accepts A P Inv)
    (hmono : ∀ req, Accepts' req → Accepts req) : Keeps S Restarts Serves Accepts' A P Inv where
  operate := h.operate
  accept := fun haccepts hserves => h.accept (hmono _ haccepts) hserves
  restart := h.restart

theorem Steady.steps (hkeeps : Keeps S Restarts Serves Accepts A P Inv) (h : Steady A P Inv x)
    (hsteps : Steps S Restarts Accepts x y) : Steady A P Inv y := by
  induction hsteps with
  | refl => exact h
  | tail _ hstep ih => exact ih.step hkeeps hstep

/-- A step that leaves a connection open leaves its job, or takes it one operation further. -/
theorem Step.job {id : ℕ} {job : Job Serves} (hstep : Step S Restarts Accepts x y)
    (hjob : x.jobs id = some job) (hopen : y.jobs id ≠ none) :
    (y.jobs id = some job ∧ (y.world = x.world ∨ ∃ i job' o k r, i ≠ id ∧ x.jobs i = some job' ∧
      job'.rest = .call o k ∧ S x.world o r y.world)) ∨
    ∃ (o : σ.Op) (k : σ.Ans o → Program σ Resp) (r : σ.Ans o) (next : job.rest = .call o k),
      y.jobs id = some (job.next next r) ∧ S x.world o r y.world := by
  cases hstep with
  | @accept i _ _ free accepts serves =>
      have hne : id ≠ i := by
        rintro rfl
        rw [free] at hjob
        cases hjob
      exact .inl ⟨(Function.update_of_ne hne _ _).trans hjob, .inl rfl⟩
  | @operate i job' o k r w running next step =>
      by_cases hi : id = i
      · subst hi
        obtain rfl : job = job' := Option.some.inj (hjob.symm.trans running)
        exact .inr ⟨o, k, r, next, Function.update_self _ _ _, step⟩
      · refine .inl ⟨(Function.update_of_ne hi _ _).trans hjob, .inr ?_⟩
        exact ⟨i, job', o, k, r, Ne.symm hi, running, next, step⟩
  | @answer i _ _ running done =>
      by_cases hi : id = i
      · subst hi
        exact absurd (Function.update_self _ _ _) hopen
      · exact .inl ⟨(Function.update_of_ne hi _ _).trans hjob, .inl rfl⟩
  | restart restarts => exact absurd rfl hopen

/-- A client of a steady server gets what its program makes of answers as relied on. -/
theorem Steady.asks {req : Req} {resp : Resp} (hkeeps : Keeps S Restarts Serves Accepts A P Inv)
    (hreq : ∀ p, Serves req p → p.Guided A P fun _ => True) (h : Steady A P Inv x)
    (hasks : Asks S Restarts Accepts x req resp y) :
    Steady A P Inv y ∧
      ∃ p, Serves req p ∧ Exec (fun (_ : Unit) o r _ => A ⟨o, r⟩) p () resp () := by
  obtain ⟨id, p, serves, z, job, hfree, hrun, hjob, hdone, rfl⟩ := hasks
  have hstart : Steady A P Inv
      (⟨x.world, Function.update x.jobs id (some (.start serves))⟩ : Server Serves W) := by
    refine ⟨h.world, jobs_update h.jobs ?_⟩
    intro job heq
    obtain rfl := Option.some.inj heq
    exact hreq p serves
  -- the connection's job is what is left of `p`, and its answers were as relied on
  have hinv : Steady A P Inv z ∧ ∃ job, z.jobs id = some job ∧ p.Leads A job.rest := by
    clear hjob hdone
    induction hrun with
    | refl => exact ⟨hstart, .start serves, Function.update_self _ _ _, .refl⟩
    | @tail a b _ hstep ih =>
        obtain ⟨hsteady, job, hjob, hleads⟩ := ih
        obtain ⟨hstep, hopen⟩ := hstep
        refine ⟨hsteady.step hkeeps hstep, ?_⟩
        rcases hstep.job hjob hopen with ⟨hsame, -⟩ | ⟨o, k, r, next, hnext, hop⟩
        · exact ⟨job, hsame, hleads⟩
        · have hguided := hsteady.jobs id job hjob
          rw [next] at hguided
          have hP : P o := by
            cases hguided with
            | call here rest => exact here
          obtain ⟨hA, -⟩ := hkeeps.operate hsteady.world hP hop
          rw [next] at hleads
          exact ⟨_, hnext, hleads.step hA⟩
  obtain ⟨hsteady, job', hjob', hleads⟩ := hinv
  obtain rfl : job = job' := Option.some.inj (hjob.symm.trans hjob')
  rw [hdone] at hleads
  exact ⟨⟨hsteady.world, jobs_update hsteady.jobs fun _ heq => by cases heq⟩, p, serves,
    hleads.exec⟩

end Steady

/-! ## One request among others -/

/-- The request looked at may do anything, the others are bound by `R`. -/
def Bounds (R : W → W → Prop) (served : Bool) (u v : W) : Prop := served = true ∨ R u v

private theorem rely_bounds {R : W → W → Prop} {u v : W} (h : R u v) : Rely (Bounds R) true u v :=
  ⟨false, nofun, .inr h⟩

/-- The operations of the other requests are bound by `R`, and the program for this one
tolerates that. -/
theorem Asks.guarded {R : W → W → Prop} {P : σ.Op → Prop} {Q : Resp → W → Prop} {req : Req}
    {resp : Resp} (hop : ∀ {w o r v}, P o → S w o r v → R w v)
    (hjobs : ∀ id job, x.jobs id = some job → job.rest.Only P)
    (hnew : ∀ {req p}, Accepts req → Serves req p → p.Only P)
    (hreq : ∀ p, Serves req p → Guarded (fun _ : Bool => S) (Bounds R) true Q p x.world)
    (hasks : Asks S Restarts Accepts x req resp y) :
    Q resp y.world ∧ ∀ id job, y.jobs id = some job → job.rest.Only P := by
  obtain ⟨id, p, serves, z, job, hfree, hrun, hjob, hdone, rfl⟩ := hasks
  have hinv : (∃ job, z.jobs id = some job ∧
      Guarded (fun _ : Bool => S) (Bounds R) true Q job.rest z.world) ∧
      ∀ i job, z.jobs i = some job → i ≠ id → job.rest.Only P := by
    clear hjob hdone
    induction hrun with
    | refl =>
        refine ⟨⟨.start serves, Function.update_self _ _ _, hreq p serves⟩, ?_⟩
        exact jobs_update (fun i job heq _ => hjobs i job heq) fun _ _ hne => absurd rfl hne
    | @tail a b _ hstep ih =>
        obtain ⟨⟨job, hjob, hguarded⟩, hothers⟩ := ih
        obtain ⟨hstep, hopen⟩ := hstep
        constructor
        · rcases hstep.job hjob hopen with ⟨hsame, hworld | hother⟩ | ⟨o, k, r, next, hnext, hS⟩
          · rw [hworld]
            exact ⟨job, hsame, hguarded⟩
          · obtain ⟨i, job', o, k, r, hi, hrunning, hnext, hS⟩ := hother
            have honly := hothers i job' hrunning hi
            rw [hnext] at honly
            exact ⟨job, hsame, hguarded.rely (rely_bounds (hop (honly.answered r).1 hS))⟩
          · rw [next] at hguarded
            exact ⟨_, hnext, (hguarded.step hS).2⟩
        · cases hstep with
          | accept free accepts serves' =>
              refine jobs_update hothers fun job' heq _ => ?_
              obtain rfl := Option.some.inj heq
              exact hnew accepts serves'
          | @operate j job' o k r w running next step =>
              refine jobs_update hothers fun job'' heq hj => ?_
              obtain rfl := Option.some.inj heq
              have honly := hothers j job' running hj
              rw [next] at honly
              exact (honly.answered r).2
          | answer running done => exact jobs_update hothers fun job' heq => by cases heq
          | restart restarts => exact fun i job' heq => by cases heq
  obtain ⟨⟨job', hjob', hguarded⟩, hothers⟩ := hinv
  obtain rfl : job = job' := Option.some.inj (hjob.symm.trans hjob')
  rw [hdone] at hguarded
  refine ⟨hguarded.result, ?_⟩
  intro i job' heq
  by_cases hi : i = id
  · subst hi
    cases (Function.update_self _ _ _).symm.trans heq
  · exact hothers i job' ((Function.update_of_ne hi _ _).symm.trans heq) hi

theorem steps_of_asks {req : Req} {resp : Resp} (haccepts : Accepts req)
    (h : Asks S Restarts Accepts x req resp y) : Steps S Restarts Accepts x y := by
  obtain ⟨id, p, serves, z, job, hfree, hmeanwhile, hjob, hdone, rfl⟩ := h
  have hserved : Steps S Restarts Accepts
      ⟨x.world, Function.update x.jobs id (some (.start serves))⟩ z :=
    Relation.ReflTransGen.mono (fun _ _ hstep => hstep.1) _ _ hmeanwhile
  exact .head (.accept hfree haccepts serves) (hserved.tail (.answer hjob hdone))

theorem asks_of_exec {req : Req} {resp : Resp} {p : Program σ Resp} {i : ℕ} {w : W}
    (hfree : x.jobs i = none) (serves : Serves req p) (h : Exec S p x.world resp w) :
    Asks S Restarts Accepts x req resp ⟨w, x.jobs⟩ := by
  have hrun : ∀ (job : Job Serves) {q : Program σ Resp} {u : W}, Exec S q u resp w →
      job.rest = q → ∃ job', Relation.ReflTransGen
        (fun a b => Step S Restarts Accepts a b ∧ b.jobs i ≠ none)
        ⟨u, Function.update x.jobs i (some job)⟩ ⟨w, Function.update x.jobs i (some job')⟩ ∧
        job'.rest = .ret resp := by
    intro job q
    induction q generalizing job with
    | ret a =>
        rintro u ⟨rfl, rfl⟩ hrest
        exact ⟨job, .refl, hrest⟩
    | call o k ih =>
        rintro u ⟨r, v, hS, hexec⟩ hrest
        obtain ⟨job', hsteps, hdone⟩ := ih r (job.next hrest r) hexec rfl
        refine ⟨job', .head ⟨?_, ?_⟩ hsteps, hdone⟩
        · have hstep : Step S Restarts Accepts
              (⟨u, Function.update x.jobs i (some job)⟩ : Server Serves W) _ :=
            .operate (Function.update_self _ _ _) hrest hS
          rwa [Function.update_idem] at hstep
        · simp
  obtain ⟨job', hsteps, hdone⟩ := hrun (.start serves) h rfl
  refine ⟨i, p, serves, _, job', hfree, hsteps, Function.update_self _ _ _, hdone, ?_⟩
  rw [Function.update_idem, ← hfree, Function.update_eq_self]

end Server

end Linhello.Effect
