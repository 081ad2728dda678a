import Linhello.Effect.Brackets
import Linhello.Tpm.Simulated
/-!
# Handle hygiene

Every transient object and session of an operation is flushed before it returns, and
nothing else is, whichever commands fail. The one exception: the primary key that was
to be persisted stays loaded where `TPM2_EvictControl` fails.
-/

namespace Linhello.Tpm

open Common Effect
open Linhello.Core (PcrValue PolicyKind SealedEnvelope)

variable {P : Platform} {α β : Type}

/-! ## Events -/

/-- The transient object or session that a command created. -/
def created : Event tpm → Option Nat
  | ⟨.createPrimary _, r⟩ => (r : Except String Nat).toOption
  | ⟨.load _ _ _, r⟩ => (r : Except String Nat).toOption
  | ⟨.loadExternalPublic _, r⟩ => (r : Except String Nat).toOption
  | ⟨.startAuthSession _, r⟩ => ((r : Except String (Option Nat)).toOption).join
  | _ => none

def flushed : Event tpm → Option Nat
  | ⟨.flushContext h, _⟩ => some h
  | _ => none

def evictFailed : Event tpm → Bool
  | ⟨.evictControl _ _, r⟩ => !(r : Except String Nat).isOk
  | _ => false

theorem flushed_of_created (e : Event tpm) (h : Nat) (he : created e = some h) :
    flushed e = none := by
  obtain ⟨o, r⟩ := e
  cases o with
  | flushContext h' => cases he
  | _ => rfl

theorem created_of_flushed (e : Event tpm) (h : Nat) (he : flushed e = some h) :
    created e = none := by
  obtain ⟨o, r⟩ := e
  cases o with
  | flushContext h' => rfl
  | _ => cases he

theorem evictFailed_of_created (e : Event tpm) (h : Nat) (he : created e = some h) :
    evictFailed e = false := by
  obtain ⟨o, r⟩ := e
  cases o with
  | evictControl a b => cases he
  | _ => rfl

abbrev Hygienic : List (Event tpm) → Prop := Tidy created flushed evictFailed

def Clean (p : Proc α) : Prop := ∀ es a, p.Traces es a → Hygienic es

theorem clean_ret (a : α) : Clean (.ret a : Proc α) := by
  rintro es b ⟨rfl, -⟩
  exact tidy_nil

private theorem clean_bind {p : Proc α} {f : α → Proc β} (hp : Clean p) (hf : ∀ a, Clean (f a)) :
    Clean (p >>= f) := by
  intro es b h
  obtain ⟨es₁, es₂, a, rfl, h₁, h₂⟩ := traces_bind.1 h
  exact (hp es₁ a h₁).append (hf a es₂ b h₂)

theorem clean_exceptT_bind {x : Fallible α} {f : α → Fallible β} (hx : Clean x.run)
    (hf : ∀ a, Clean (f a).run) : Clean (x >>= f).run := by
  rw [ExceptT.run_bind]
  refine clean_bind hx fun r => ?_
  cases r with
  | error e => exact clean_ret _
  | ok a => exact hf a

theorem clean_map {p : Proc α} {f : α → β} (hp : Clean p) : Clean (f <$> p) := by
  intro es b h
  obtain ⟨a, ha, -⟩ := traces_map.1 h
  exact hp es a ha

theorem hygienic_plain {o : Op} (ho : o.plain = true) (r : o.Ans) :
    Hygienic [(⟨o, r⟩ : Event tpm)] := by
  cases o with
  | createPrimary _ => cases ho
  | load _ _ _ => cases ho
  | loadExternalPublic _ => cases ho
  | startAuthSession _ => cases ho
  | flushContext _ => cases ho
  | evictControl _ _ => cases ho
  | _ => exact tidy_plain rfl rfl rfl

theorem clean_of_plain {p : Proc α} (hp : p.Only fun o : Op => o.plain = true) : Clean p := by
  induction hp with
  | ret a => exact clean_ret a
  | @call o k here _ ih =>
      rintro es a ⟨r, rest, rfl, h⟩
      exact (hygienic_plain here r).append (ih r rest a h)

theorem clean_of_idle {p : Proc α} (hp : p.Only Op.Idle) : Clean p :=
  clean_of_plain (hp.imp fun _ ho => ho.2)

theorem clean_settle (r : Except LinuxHelloError α) : Clean (settle r).run := clean_ret r

/-! ## Brackets -/

/-- The last event of the trace created the handle that was returned. -/
def Spawns (x : Fallible Nat) : Prop :=
  ∀ es r, x.run.Traces es r →
    (∃ pre e h, es = pre ++ [e] ∧ Hygienic pre ∧ created e = some h ∧ r = .ok h) ∨
    (∃ err, r = .error err ∧ Hygienic es)

theorem hygienic_bracket {e : Event tpm} {h : Nat} {es : List (Event tpm)}
    {r : (Op.flushContext h).Ans} (he : created e = some h) (hes : Hygienic es) :
    Hygienic (e :: es ++ [⟨.flushContext h, r⟩]) :=
  hes.bracket he (flushed_of_created e h he) (evictFailed_of_created e h he) rfl rfl rfl

theorem hygienic_used {β : Type} {e : Event tpm} {h : Nat} {body : Fallible α}
    {g : Except LinuxHelloError α → Fallible β} (hbody : Clean body.run)
    (hg : ∀ r, Clean (g r).run) (he : created e = some h) {pre es : List (Event tpm)}
    (hpre : Hygienic pre)
    {r : Except LinuxHelloError β}
    (htrace : (do
      let result ← caught body
      let _ ← liftM (perform (.flushContext h))
      g result : Fallible β).run.Traces es r) : Hygienic (e :: pre ++ es) := by
  rcases traces_exceptT_bind.1 htrace with ⟨es₁, es₂, a, rfl, h₁, h₂⟩ | ⟨err, h₁, -⟩
  · obtain ⟨result, hresult, -⟩ := traces_caught.1 h₁
    rcases traces_exceptT_bind.1 h₂ with ⟨es₃, es₄, b, rfl, h₃, h₄⟩ | ⟨err, h₃, -⟩
    · obtain ⟨x, hx, -⟩ := traces_lift.1 h₃
      obtain rfl := traces_perform.1 hx
      have hinside := hpre.append (hbody es₁ result hresult)
      have hall := (hygienic_bracket (r := x) he hinside).append (hg a es₄ r h₄)
      have hlist : e :: (pre ++ es₁) ++ [⟨.flushContext h, x⟩] ++ es₄ =
          e :: pre ++ (es₁ ++ ([⟨.flushContext h, x⟩] ++ es₄)) := by
        simp only [List.cons_append, List.append_assoc]
      rwa [hlist] at hall
    · obtain ⟨x, -, hx⟩ := traces_lift.1 h₃
      cases hx
  · obtain ⟨result, -, hresult⟩ := traces_caught.1 h₁
    cases hresult

theorem clean_withHandle {spawn : Fallible Nat} {body : Nat → Fallible α} (hspawn : Spawns spawn)
    (hbody : ∀ h, Clean (body h).run) : Clean (withHandle spawn body).run := by
  intro es r htrace
  rcases traces_exceptT_bind.1 htrace with ⟨es₁, es₂, h, rfl, h₁, h₂⟩ | ⟨err, h₁, -⟩
  · rcases hspawn es₁ _ h₁ with ⟨pre, e, h', rfl, hpre, he, hh⟩ | ⟨err, herr, -⟩
    · obtain rfl := Except.ok.inj hh
      have hused := hygienic_used (hbody h) clean_settle he tidy_nil h₂
      have hall := hpre.append hused
      rwa [List.append_assoc]
    · cases herr
  · rcases hspawn es _ h₁ with ⟨pre, e, h', -, -, -, hh⟩ | ⟨err', -, hes⟩
    · cases hh
    · exact hes

theorem clean_withSession {trial : Bool} {body : Nat → Fallible α}
    (hbody : ∀ h, Clean (body h).run) : Clean (withSession trial body).run := by
  intro es r htrace
  unfold withSession at htrace
  have hstart : ∀ {es₁ : List (Event tpm)} {s : Except LinuxHelloError (Option Nat)},
      (tpmErr (perform (.startAuthSession trial))).run.Traces es₁ s →
      ∃ x : Except String (Option Nat), es₁ = [⟨.startAuthSession trial, x⟩] ∧
        s = x.mapError .tpm := by
    intro es₁ s h
    obtain ⟨x, hx, hs⟩ := traces_map.1 h
    exact ⟨x, traces_perform.1 hx, hs⟩
  rcases traces_exceptT_bind.1 htrace with ⟨es₁, es₂, started, rfl, h₁, h₂⟩ | ⟨err, h₁, -⟩
  · obtain ⟨x, rfl, hx⟩ := hstart h₁
    obtain rfl : x = .ok started := by
      cases x with
      | error e => cases hx
      | ok a => rw [Except.ok.inj hx]
    cases started with
    | none =>
        obtain ⟨rfl, -⟩ := h₂
        exact tidy_plain rfl rfl rfl
    | some session =>
        have hopen : created (⟨.startAuthSession trial, Except.ok (some session)⟩ : Event tpm) =
            some session := rfl
        rcases traces_exceptT_bind.1 h₂ with ⟨es₃, es₄, attrs, rfl, h₃, h₄⟩ | ⟨err, h₃, -⟩
        · obtain ⟨y, hy, -⟩ := traces_lift.1 h₃
          obtain rfl := traces_perform.1 hy
          have hattrs : Hygienic [(⟨.trSessSetAttributes session, y⟩ : Event tpm)] :=
            hygienic_plain rfl y
          cases attrs with
          | ok u =>
              have hused := hygienic_used (hbody session) clean_settle hopen hattrs h₄
              exact hused
          | error e =>
              rcases traces_exceptT_bind.1 h₄ with ⟨es₅, es₆, z, rfl, h₅, h₆⟩ | ⟨err, h₅, -⟩
              · obtain ⟨w, hw, -⟩ := traces_lift.1 h₅
                obtain rfl := traces_perform.1 hw
                obtain ⟨rfl, -⟩ := h₆
                exact hygienic_bracket hopen hattrs
              · obtain ⟨w, -, hw⟩ := traces_lift.1 h₅
                cases hw
        · obtain ⟨y, -, hy⟩ := traces_lift.1 h₃
          cases hy
  · obtain ⟨x, rfl, hx⟩ := hstart h₁
    cases x with
    | error e => exact tidy_plain rfl rfl rfl
    | ok a => cases hx

/-! ## The storage root key -/

theorem spawns_tpmErr {o : Op} {f : o.Ans → Except String Nat}
    (hcreated : ∀ r, created ⟨o, r⟩ = (f r).toOption) (hflushed : ∀ r, flushed ⟨o, r⟩ = none)
    (hevict : ∀ r, evictFailed ⟨o, r⟩ = false) : Spawns (tpmErr (f <$> perform o)) := by
  intro es r htrace
  obtain ⟨x, hx, rfl⟩ := traces_map.1 htrace
  obtain ⟨y, hy, rfl⟩ := traces_map.1 hx
  obtain rfl := traces_perform.1 hy
  cases hf : f y with
  | ok h =>
      refine .inl ⟨[], ⟨o, y⟩, h, rfl, tidy_nil, ?_, rfl⟩
      rw [hcreated, hf]
      rfl
  | error e =>
      refine .inr ⟨.tpm e, rfl, tidy_plain ?_ (hflushed y) (hevict y)⟩
      rw [hcreated, hf]
      rfl

theorem spawns_bind {x : Fallible α} {f : α → Fallible Nat} (hx : Clean x.run)
    (hf : ∀ a, Spawns (f a)) : Spawns (x >>= f) := by
  intro es r htrace
  rcases traces_exceptT_bind.1 htrace with ⟨es₁, es₂, a, rfl, h₁, h₂⟩ | ⟨err, h₁, rfl⟩
  · have hes₁ := hx es₁ _ h₁
    rcases hf a es₂ r h₂ with ⟨pre, e, h, rfl, hpre, he, rfl⟩ | ⟨err, rfl, hes₂⟩
    · exact .inl ⟨es₁ ++ pre, e, h, (List.append_assoc _ _ _).symm, hes₁.append hpre, he, rfl⟩
    · exact .inr ⟨err, rfl, hes₁.append hes₂⟩
  · exact .inr ⟨err, rfl, hx es _ h₁⟩

theorem spawns_createSrk : Spawns createSrk :=
  spawns_tpmErr (o := .createPrimary srkTemplate) (f := id) (fun _ => rfl) (fun _ => rfl)
    fun _ => rfl

theorem spawns_loadSealed {srk : Nat} {env : SealedEnvelope} : Spawns (loadSealed P srk env) := by
  refine spawns_bind (clean_settle _) fun area => ?_
  refine spawns_bind (clean_settle _) fun priv => ?_
  exact spawns_tpmErr (o := .load srk priv area) (f := id) (fun _ => rfl) (fun _ => rfl)
    fun _ => rfl

theorem spawns_loadExternalPubkey {pubkeyPem : String} :
    Spawns (loadExternalPubkey P pubkeyPem) := by
  refine spawns_bind (clean_settle _) fun area => ?_
  exact spawns_tpmErr (o := .loadExternalPublic area) (f := id) (fun _ => rfl) (fun _ => rfl)
    fun _ => rfl

/-- A transient key is handed out as it was created, a persistent one with nothing to flush. -/
def Opens (x : Fallible (Nat × Bool)) : Prop :=
  ∀ es r, x.run.Traces es r →
    (∃ pre e h, es = pre ++ [e] ∧ Hygienic pre ∧ created e = some h ∧ r = .ok (h, false)) ∨
    (∃ h, r = .ok (h, true) ∧ Hygienic es) ∨ ∃ err, r = .error err ∧ Hygienic es

theorem opens_bind {x : Fallible α} {f : α → Fallible (Nat × Bool)} (hx : Clean x.run)
    (hf : ∀ a, Opens (f a)) : Opens (x >>= f) := by
  intro es r htrace
  rcases traces_exceptT_bind.1 htrace with ⟨es₁, es₂, a, rfl, h₁, h₂⟩ | ⟨err, h₁, rfl⟩
  · have hes₁ := hx es₁ _ h₁
    rcases hf a es₂ r h₂ with ⟨pre, e, h, rfl, hpre, he, rfl⟩ | ⟨h, rfl, hes₂⟩ | ⟨err, rfl, hes₂⟩
    · exact .inl ⟨es₁ ++ pre, e, h, (List.append_assoc _ _ _).symm, hes₁.append hpre, he, rfl⟩
    · exact .inr (.inl ⟨h, rfl, hes₁.append hes₂⟩)
    · exact .inr (.inr ⟨err, rfl, hes₁.append hes₂⟩)
  · exact .inr (.inr ⟨err, rfl, hx es _ h₁⟩)

theorem clean_lift {o : Op} (ho : o.plain = true) :
    Clean (liftM (perform o) : Fallible o.Ans).run :=
  clean_of_plain (only_exceptT_lift (only_perform ho))

theorem opens_openSrk {object : Nat} {isOurs : Bool} : Opens (openSrk object isOurs) := by
  cases isOurs with
  | true =>
      refine opens_bind (clean_of_plain (only_attempt (only_perform rfl))) fun _ => ?_
      rintro es r ⟨rfl, rfl⟩
      exact .inr (.inl ⟨object, rfl, tidy_nil⟩)
  | false =>
      intro es r htrace
      rcases traces_exceptT_bind.1 htrace with ⟨es₁, es₂, h, rfl, h₁, rfl, rfl⟩ | ⟨err, h₁, rfl⟩
      · rcases spawns_createSrk es₁ _ h₁ with ⟨pre, e, h', rfl, hpre, he, hh⟩ | ⟨err, herr, -⟩
        · obtain rfl := Except.ok.inj hh
          rw [List.append_nil]
          exact .inl ⟨pre, e, h, rfl, hpre, he, rfl⟩
        · cases herr
      · rcases spawns_createSrk es _ h₁ with ⟨pre, e, h', -, -, -, hh⟩ | ⟨err', -, hes⟩
        · cases hh
        · exact .inr (.inr ⟨err, rfl, hes⟩)

/-- Persisting the primary: its transient copy is flushed unless that fails. -/
theorem opens_persist {persistent : Nat} :
    Opens (do
      let transient ← createSrk
      let persisted ← tpmErr (perform (.evictControl transient persistent))
      let _ ← liftM (perform (.flushContext transient))
      tpmErr (perform (.trSetAuth persisted []))
      pure (persisted, true)) := by
  intro es r htrace
  rcases traces_exceptT_bind.1 htrace with ⟨es₁, es₂, h, rfl, h₁, h₂⟩ | ⟨err, h₁, rfl⟩
  · rcases spawns_createSrk es₁ _ h₁ with ⟨pre, e, h', rfl, hpre, he, hh⟩ | ⟨err, herr, -⟩
    · obtain rfl := Except.ok.inj hh
      rcases traces_exceptT_bind.1 h₂ with ⟨es₃, es₄, persisted, rfl, h₃, h₄⟩ | ⟨err, h₃, rfl⟩
      · obtain ⟨x, hx, hok⟩ := traces_map.1 h₃
        obtain rfl := traces_perform.1 hx
        have hevict : Hygienic [(⟨.evictControl h persistent, x⟩ : Event tpm)] := by
          refine tidy_plain rfl rfl ?_
          cases x with
          | ok a => rfl
          | error err => cases hok
        rcases traces_exceptT_bind.1 h₄ with ⟨es₅, es₆, y, rfl, h₅, h₆⟩ | ⟨err, h₅, -⟩
        · obtain ⟨z, hz, -⟩ := traces_lift.1 h₅
          obtain rfl := traces_perform.1 hz
          have hbracket := hygienic_bracket (r := z) he hevict
          have hfirst := hpre.append hbracket
          have hrest : Opens (do
              tpmErr (perform (.trSetAuth persisted []))
              pure (persisted, true)) := by
            refine opens_bind (clean_of_plain (only_attempt (only_perform rfl))) fun _ => ?_
            rintro es r ⟨rfl, rfl⟩
            exact .inr (.inl ⟨persisted, rfl, tidy_nil⟩)
          have hlist : pre ++ [e] ++ ([⟨.evictControl h persistent, x⟩] ++
              ([⟨.flushContext h, z⟩] ++ es₆)) = pre ++ (e :: [⟨.evictControl h persistent, x⟩] ++
              [⟨.flushContext h, z⟩]) ++ es₆ := by
            simp only [List.append_assoc, List.cons_append, List.nil_append]
          rw [hlist]
          rcases hrest es₆ r h₆ with ⟨pre', e', h', rfl, hpre', he', rfl⟩ | ⟨h', rfl, hes₆⟩ |
            ⟨err, rfl, hes₆⟩
          · exact .inl ⟨_, e', h', (List.append_assoc _ _ _).symm, hfirst.append hpre', he', rfl⟩
          · exact .inr (.inl ⟨h', rfl, hfirst.append hes₆⟩)
          · exact .inr (.inr ⟨err, rfl, hfirst.append hes₆⟩)
        · obtain ⟨z, -, hz⟩ := traces_lift.1 h₅
          cases hz
      · obtain ⟨x, hx, herr⟩ := traces_map.1 h₃
        obtain rfl := traces_perform.1 hx
        cases x with
        | ok a => cases herr
        | error e' =>
            have hstranded : Hygienic [e, (⟨.evictControl h persistent, .error e'⟩ : Event tpm)] :=
              tidy_stranded he (flushed_of_created e h he) (evictFailed_of_created e h he)
                rfl rfl rfl
            have hall := hpre.append hstranded
            refine .inr (.inr ⟨err, rfl, ?_⟩)
            rwa [List.append_assoc]
    · cases herr
  · rcases spawns_createSrk es _ h₁ with ⟨pre, e, h', -, -, -, hh⟩ | ⟨err', -, hes⟩
    · cases hh
    · exact .inr (.inr ⟨err, rfl, hes⟩)

theorem opens_loadOrCreateSrk : Opens (loadOrCreateSrk P) := by
  unfold loadOrCreateSrk
  refine opens_bind (clean_settle _) fun persistent => ?_
  refine opens_bind (clean_lift rfl) fun found => ?_
  cases found with
  | error e => exact opens_persist
  | ok object =>
      refine opens_bind (clean_lift rfl) fun area => ?_
      cases area with
      | error e => exact opens_openSrk
      | ok a => exact opens_openSrk

theorem clean_withSrk {body : Nat → Fallible α} (hbody : ∀ h, Clean (body h).run) :
    Clean (withSrk P body).run := by
  have hcaught : ∀ {h : Nat} {g : Except LinuxHelloError α → Fallible α} {es r},
      (∀ r, Clean (g r).run) → (caught (body h) >>= g).run.Traces es r → Hygienic es := by
    intro h g es r hg htrace
    refine clean_exceptT_bind ?_ hg es r htrace
    exact clean_map (hbody h)
  intro es r htrace
  unfold withSrk at htrace
  rcases traces_exceptT_bind.1 htrace with ⟨es₁, es₂, ⟨srk, persistent⟩, rfl, h₁, h₂⟩ |
    ⟨err, h₁, rfl⟩
  · rcases opens_loadOrCreateSrk es₁ _ h₁ with ⟨pre, e, h, rfl, hpre, he, hok⟩ | ⟨h, hok, hes₁⟩ |
      ⟨err, herr, -⟩
    · obtain ⟨rfl, rfl⟩ := Prod.mk.inj (Except.ok.inj hok)
      have hused := hygienic_used (hbody srk) clean_settle he tidy_nil h₂
      have hall := hpre.append hused
      rwa [List.append_assoc]
    · obtain ⟨rfl, rfl⟩ := Prod.mk.inj (Except.ok.inj hok)
      exact hes₁.append (hcaught clean_settle h₂)
    · cases herr
  · rcases opens_loadOrCreateSrk es _ h₁ with ⟨pre, e, h, -, -, -, hok⟩ | ⟨h, hok, -⟩ |
      ⟨err', -, hes⟩
    · cases hok
    · cases hok
    · exact hes

/-! ## Functions -/

theorem clean_computePolicyDigest {sel : Option (List Nat)} :
    Clean (computePolicyDigest sel).run := by
  refine clean_withSession fun session => ?_
  cases sel with
  | none => exact clean_of_plain (only_attempt (only_perform rfl))
  | some l =>
      refine clean_exceptT_bind (clean_of_plain (only_attempt (only_perform rfl))) fun _ => ?_
      exact clean_of_plain (only_attempt (only_perform rfl))

private theorem clean_persistHostSignature {bank : String} {pcrs : List Nat} {polDigest sig :
      Bytes} :
    Clean (persistHostSignature P bank pcrs polDigest sig).run := by
  have hplain : ∀ {o : Op} {f : o.Ans → Except IoError Unit}, o.plain = true →
      Clean (io (f <$> perform o)).run :=
    fun ho => clean_of_plain (only_attempt (only_map (only_perform ho)))
  have hop : ∀ {β : Type} {q : Fallible β}, q.run.Only (fun o : Op => o.plain = true) →
      Clean q.run := clean_of_plain
  refine clean_exceptT_bind (clean_lift rfl) fun read => ?_
  refine clean_exceptT_bind (clean_of_idle idle_readText) fun hostPem => ?_
  refine clean_exceptT_bind (clean_settle _) fun pkfp => ?_
  refine clean_exceptT_bind (hop (only_attempt (only_perform rfl))) fun _ => ?_
  refine clean_exceptT_bind (hop (only_attempt (only_perform rfl))) fun _ => ?_
  refine clean_exceptT_bind (hop (only_attempt (only_perform rfl))) fun _ => ?_
  exact hop (only_attempt (only_perform rfl))

theorem clean_ensureHostSignature {pcrs : List Nat} {policyRef : Bytes} :
    Clean (ensureHostSignature P pcrs policyRef).run := by
  refine clean_exceptT_bind (clean_of_idle idle_openContext) fun _ => ?_
  refine clean_exceptT_bind (clean_settle _) fun sel => ?_
  refine clean_exceptT_bind clean_computePolicyDigest fun approved => ?_
  refine clean_exceptT_bind (clean_of_idle (@idle_signaturesFor P .linhelloHost)) fun existing => ?_
  split
  · exact clean_ret _
  · refine clean_exceptT_bind (clean_of_idle idle_signAhash) fun sig => ?_
    exact clean_exceptT_bind clean_persistHostSignature fun _ => clean_ret _

theorem clean_sealLiteral {secret : Bytes} {pcrs : List Nat} :
    Clean (sealLiteral P secret pcrs).run := by
  refine clean_exceptT_bind (clean_of_idle idle_openContext) fun _ => ?_
  refine clean_exceptT_bind (clean_of_idle idle_readPcrValues) fun values => ?_
  refine clean_withSrk fun srk => ?_
  refine clean_exceptT_bind (clean_settle _) fun selection => ?_
  refine clean_exceptT_bind clean_computePolicyDigest fun digest => ?_
  refine clean_exceptT_bind (clean_settle _) fun sensitive => ?_
  exact clean_exceptT_bind (clean_of_plain (only_attempt (only_perform rfl))) fun _ => clean_ret _

private theorem clean_sealAuthorized {secret policyRef : Bytes} {pcrs : List Nat}
    {pubkeyPem : String} :
    Clean (sealAuthorized P secret pcrs pubkeyPem policyRef).run := by
  refine clean_exceptT_bind (clean_of_idle idle_classifySigner) fun signer => ?_
  refine clean_exceptT_bind (clean_of_idle idle_openContext) fun _ => ?_
  refine clean_exceptT_bind (clean_of_idle idle_readPcrValues) fun values => ?_
  refine clean_exceptT_bind ?_ fun name => ?_
  · exact clean_withHandle spawns_loadExternalPubkey fun kh =>
      clean_of_plain (only_attempt (only_perform rfl))
  refine clean_exceptT_bind ?_ fun env => ?_
  · refine clean_withSrk fun srk => clean_exceptT_bind (clean_settle _) fun sensitive => ?_
    exact clean_exceptT_bind (clean_of_plain (only_attempt (only_perform rfl))) fun _ => clean_ret _
  · split
    · exact clean_exceptT_bind clean_ensureHostSignature fun _ => clean_ret _
    · exact clean_ret _

theorem clean_sealWithPlan {secret : Bytes} {p : PolicyPlan} :
    Clean (sealWithPlan P secret p).run := by
  cases p with
  | authorized pcrs pubkeyPem policyRef => exact clean_sealAuthorized
  | literal pcrs => exact clean_sealLiteral
  | none => exact clean_sealLiteral

theorem clean_unsealLoaded {handle session : Nat} {env : SealedEnvelope} :
    Clean (unsealLoaded P handle session env).run := by
  refine clean_exceptT_bind (clean_lift rfl) fun answer => ?_
  cases answer with
  | ok data => exact clean_ret _
  | error e =>
      exact clean_exceptT_bind (clean_of_idle idle_policyAwareErr) fun err => clean_ret _

theorem clean_unsealLiteral {env : SealedEnvelope} : Clean (unsealLiteral P env).run := by
  refine clean_exceptT_bind (clean_of_idle idle_openContext) fun _ => ?_
  refine clean_withSrk fun srk => ?_
  refine clean_withHandle spawns_loadSealed fun sealed => clean_withSession fun session => ?_
  split
  · refine clean_exceptT_bind (clean_settle _) fun sel => ?_
    exact clean_exceptT_bind (clean_of_plain (only_attempt (only_perform rfl))) fun _ =>
      clean_unsealLoaded
  · exact clean_unsealLoaded

private theorem clean_authorizeSession {session : Nat} {pubkeyPem : String}
    {approved policyRef sig : Bytes} {body : Fallible α} (hbody : Clean body.run) :
    Clean (authorizeSession P session pubkeyPem approved policyRef sig body).run := by
  refine clean_withHandle spawns_loadExternalPubkey fun keyHandle => ?_
  refine clean_exceptT_bind (clean_of_plain (only_attempt (only_perform rfl))) fun keyName => ?_
  refine clean_exceptT_bind (clean_settle _) fun signature => ?_
  refine clean_exceptT_bind (clean_of_plain (only_attempt (only_perform rfl))) fun ticket => ?_
  refine clean_exceptT_bind (clean_settle _) fun refNonce => ?_
  exact clean_exceptT_bind (clean_of_plain (only_attempt (only_perform rfl))) fun _ => hbody

theorem clean_unsealSigned {env : SealedEnvelope} {pubkeyPem : String} {policyRef : Bytes}
    {signer : SignerKind} : Clean (unsealSigned P env pubkeyPem policyRef signer).run := by
  refine clean_withSrk fun srk => ?_
  refine clean_withHandle spawns_loadSealed fun sealed => clean_withSession fun session => ?_
  refine clean_exceptT_bind (clean_settle _) fun sel => ?_
  refine clean_exceptT_bind (clean_of_plain (only_attempt (only_perform rfl))) fun _ => ?_
  refine clean_exceptT_bind (clean_of_plain (only_attempt (only_perform rfl))) fun approved => ?_
  refine clean_exceptT_bind (clean_of_idle idle_signaturesFor) fun sigs => ?_
  split
  · exact clean_ret _
  · exact clean_authorizeSession clean_unsealLoaded

private theorem clean_selfHeal {signer : SignerKind} {pcrs : List Nat} {policyRef : Bytes} :
    Clean (selfHeal P signer pcrs policyRef).run := by
  unfold selfHeal
  split
  · refine clean_exceptT_bind
      (clean_of_plain (only_exceptT_lift (idle_isSecureBootEnabled.imp fun _ ho => ho.2)))
      fun on => ?_
    split
    · exact clean_exceptT_bind (clean_map clean_ensureHostSignature) fun _ => clean_ret _
    · exact clean_ret _
  · exact clean_ret _

theorem clean_unseal {env : SealedEnvelope} : Clean («unseal» P env).run := by
  unfold «unseal»
  split
  · exact clean_unsealLiteral
  · refine clean_exceptT_bind (clean_of_idle idle_classifySigner) fun signer => ?_
    split
    · exact clean_ret _
    · refine clean_exceptT_bind clean_selfHeal fun _ => ?_
      refine clean_exceptT_bind (clean_of_idle idle_openContext) fun _ => ?_
      exact clean_unsealSigned

/-! ## Operations -/

inductive Operation
  | sealWithPlan (secret : Bytes) (p : PolicyPlan)
  | «unseal» (env : SealedEnvelope)
  | ensureHostSignature (pcrs : List Nat) (policyRef : Bytes)

/-- The commands and answers of one call, from its start to its return. -/
def IssuedBy (P : Platform) (es : List (Event tpm)) : Operation → Prop
  | .sealWithPlan secret p => ∃ r, (sealWithPlan P secret p).run.Traces es r
  | .unseal env => ∃ r, («unseal» P env).run.Traces es r
  | .ensureHostSignature pcrs policyRef => ∃ r, (ensureHostSignature P pcrs policyRef).run.Traces es
    r

theorem IssuedBy.hygienic {op : Operation} {es : List (Event tpm)} (h : IssuedBy P es op) :
    Hygienic es := by
  cases op with
  | sealWithPlan secret p =>
      obtain ⟨r, hr⟩ := h
      exact clean_sealWithPlan es r hr
  | «unseal» env =>
      obtain ⟨r, hr⟩ := h
      exact clean_unseal es r hr
  | ensureHostSignature pcrs policyRef =>
      obtain ⟨r, hr⟩ := h
      exact clean_ensureHostSignature es r hr

/-- Whatever the commands answer: every transient object and session is flushed, the
pairs properly nested, exactly if no `TPM2_EvictControl` fails; each one that does
strands one handle, and nothing is flushed that was not created here. -/
theorem handles_flushed_iff {op : Operation} {es : List (Event tpm)} (h : IssuedBy P es op) :
    (Scoped created flushed es ↔ ∀ e ∈ es, evictFailed e = false) ∧
    es.countP (fun e => (created e).isSome) =
      es.countP (fun e => (flushed e).isSome) + es.countP evictFailed ∧
    ∀ pre e post handle, es = pre ++ e :: post → flushed e = some handle →
      ∃ e' ∈ pre, created e' = some handle :=
  ⟨h.hygienic.scoped_iff flushed_of_created created_of_flushed, h.hygienic.count, h.hygienic.own⟩

/-- A host that cannot read its signing key flushes the trial session all the same. -/
theorem handles_flushed_iff_trial : Scoped created flushed
    ([⟨.openContext TCTI_DEFAULT, .ok ()⟩, ⟨.startAuthSession true, .ok (some 0)⟩,
      ⟨.trSessSetAttributes 0, .ok ()⟩, ⟨.policyPcr 0 [7], .ok ()⟩,
      ⟨.policyGetDigest 0, .ok zeroDigest⟩, ⟨.flushContext 0, .ok ()⟩,
      ⟨.pathExists .signatures, false⟩, ⟨.readFile .signingKey, .error .notFound⟩] :
      List (Event tpm)) :=
  (@handles_flushed_iff simulated (.ensureHostSignature [7] []) _
    ⟨_, .ok (), _, rfl, .ok (some 0), _, rfl, .ok (), _, rfl, .ok (), _, rfl,
      .ok zeroDigest, _, rfl,
      .ok (), _, rfl, false, _, rfl, .error .notFound, _, rfl, rfl, rfl⟩).1.2
    (by decide)

/-- The handle is free and the new primary cannot be persisted. -/
theorem not_handles_flushed :
    ¬ ∀ (P : Platform) (op : Operation) (es : List (Event tpm)), IssuedBy P es op →
      Scoped created flushed es := by
  intro hall
  have hrun : IssuedBy simulated
      [⟨.openContext TCTI_DEFAULT, .ok ()⟩,
        ⟨.trFromTpmPublic PERSISTENT_SRK_HANDLE, .error "TPM_RC_HANDLE"⟩,
        ⟨.createPrimary srkTemplate, .ok 0⟩,
        ⟨.evictControl 0 PERSISTENT_SRK_HANDLE, .error "TPM_RC_NV_SPACE"⟩]
      (.sealWithPlan [1] .none) :=
    ⟨_, .ok (), _, rfl, .error "TPM_RC_HANDLE", _, rfl, .ok 0, _, rfl,
      .error "TPM_RC_NV_SPACE", _, rfl, rfl, rfl⟩
  have hcount := scoped_count (hall simulated _ _ hrun) flushed_of_created created_of_flushed
  revert hcount
  decide

end Linhello.Tpm
