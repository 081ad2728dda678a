import Linhello.Cli.Update
/-!
# The signature gate

No run of `update` checks out, builds or installs anything before `verifyTagSignature`
has accepted the status text of the tag it chose. What the text accepts is another
matter: gpg prints `VALIDSIG` also for a key that has expired or was revoked, and the
exit status of `git verify-tag` is not looked at.
-/

namespace Linhello.Cli.Update

open Common Effect

variable {U : CaseMap} {user root tag : String} {uid owner : Option Nat} {es : List (Event cli)}
  {out : Output}

/-! ## Kinds of commands -/

def Op.verifies : Op → Option String
  | .output _ _ prog args _ =>
      if prog = "git" ∧ args.take 2 = ["verify-tag", "--raw"] then args[2]? else none
  | _ => none

def Op.checksOut : Op → Option String
  | .status _ _ prog args =>
      if prog = "git" ∧ args.head? = some "checkout" then args.getLast? else none
  | _ => none

/-- Whether a command checks out, builds or installs a commit. -/
def Op.delivers : Op → Bool
  | .status _ _ prog args => (prog == "git" && args.head? == some "checkout") || prog == "cargo"
  | .buildNativePackage _ _ | .installNativePackage _ _ | .deployFrom _ _ => true
  | _ => false

def Op.Plain (o : Op) : Prop := o.verifies = none ∧ o.delivers = false

/-- Verifies no other tag, and delivers nothing. -/
def Op.Checks (tag : String) (o : Op) : Prop :=
  (∀ t, o.verifies = some t → t = tag) ∧ o.delivers = false

/-- Verifies nothing, and checks out no other tag. -/
def Op.Ships (tag : String) (o : Op) : Prop :=
  o.verifies = none ∧ ∀ t, o.checksOut = some t → t = tag

theorem Op.Plain.checks {o : Op} (h : o.Plain) : o.Checks tag :=
  ⟨fun _ ht => absurd (h.1.symm.trans ht) (Option.some_ne_none _).symm, h.2⟩

/-! ## Footprints -/

section Footprints

variable {P : Op → Prop} {cwd prog : String} {args : List String} {envs : List (String × String)}

theorem only_require {ok : Bool} {e : String} : (require ok e).run.Only P := by
  cases ok with
  | true => exact only_exceptT_pure
  | false => exact only_exceptT_throw

theorem only_runStreamed (h : P (.status uid cwd prog args)) :
    (runStreamed uid cwd prog args).run.Only P := by
  exact only_exceptT_bind (only_attempt (only_perform h)) fun _ => only_require

theorem only_runCapture (h : P (.output uid cwd prog args envs)) :
    (runCapture uid cwd prog args envs).run.Only P :=
  only_attempt (only_perform h)

theorem only_fallible {α : Type} {context : String} {p : Proc (Except String α)} (h : p.Only P) :
    (fallible context p).run.Only P :=
  only_attempt h

theorem only_anyExists (h : ∀ p, P (.pathExists p)) (paths : List String) :
    (anyExists paths).Only P := by
  induction paths with
  | nil => exact only_pure
  | cons p rest ih =>
      refine only_bind (only_perform (h p)) fun found => ?_
      cases found with
      | true => exact only_pure
      | false => exact ih

theorem only_revCommit {refname : String} (h : ∀ args, args.head? = some "rev-parse" →
    P (.output uid root "git" args [])) : (revCommit root uid refname).run.Only P := by
  unfold revCommit
  refine only_exceptT_bind (only_runCapture (h _ rfl)) fun o => ?_
  exact only_exceptT_bind only_require fun _ => only_exceptT_pure

end Footprints

theorem plain_updateViaCopr : updateViaCopr.run.Only Op.Plain := by
  unfold updateViaCopr
  refine only_exceptT_bind (only_exceptT_lift (only_perform ⟨rfl, rfl⟩)) fun configured => ?_
  have hadd : (addCoprRepo configured).run.Only Op.Plain := by
    cases configured with
    | true => exact only_exceptT_pure
    | false => exact only_fallible (only_perform ⟨rfl, rfl⟩)
  refine only_exceptT_bind hadd fun _ => ?_
  refine only_exceptT_bind (only_runStreamed ⟨rfl, rfl⟩) fun _ => ?_
  exact only_exceptT_bind (only_caught (only_runStreamed ⟨rfl, rfl⟩)) fun _ => only_exceptT_pure

theorem plain_checkout : checkout.run.Only Op.Plain := by
  unfold checkout
  refine only_exceptT_bind (only_exceptT_lift (only_perform ⟨rfl, rfl⟩)) fun source => ?_
  cases source with
  | some root => exact only_exceptT_pure
  | none =>
      refine only_exceptT_bind (only_exceptT_lift (only_perform ⟨rfl, rfl⟩)) fun managed => ?_
      cases managed with
      | true => exact only_exceptT_pure
      | false =>
          refine only_exceptT_bind (only_fallible (only_perform ⟨rfl, rfl⟩)) fun _ => ?_
          exact only_exceptT_bind (only_runStreamed ⟨rfl, rfl⟩) fun _ => only_exceptT_pure

private theorem plain_latestReleaseTag : (latestReleaseTag root uid).run.Only Op.Plain := by
  unfold latestReleaseTag
  refine only_exceptT_bind (only_runCapture ⟨rfl, rfl⟩) fun o => ?_
  exact only_exceptT_bind only_require fun _ => only_exceptT_pure

theorem plain_chooseRelease : (chooseRelease root owner).run.Only Op.Plain := by
  unfold chooseRelease
  refine only_exceptT_bind (only_runStreamed ⟨rfl, rfl⟩) fun _ => ?_
  refine only_exceptT_bind plain_latestReleaseTag fun tag => ?_
  cases tag with
  | some tag => exact only_exceptT_pure
  | none => exact only_exceptT_throw

theorem verifies_verifyTag {cwd : String} {envs : List (String × String)} :
    (Op.output uid cwd "git" (verifyTagArgs tag) envs).verifies = some tag := rfl

private theorem checks_verifyTagInKeyring {gnupghome keyPath pinned : String} :
    (verifyTagInKeyring U root uid tag gnupghome keyPath pinned).run.Only (Op.Checks tag) := by
  unfold verifyTagInKeyring
  refine only_exceptT_bind (only_runCapture (Op.Plain.checks ⟨rfl, rfl⟩)) fun imp => ?_
  refine only_exceptT_bind only_require fun _ => ?_
  refine only_exceptT_bind (only_runCapture ⟨fun t ht => (Option.some.inj ht).symm, rfl⟩) fun o =>
    ?_
  refine only_exceptT_bind only_require fun _ => ?_
  exact only_require

theorem checks_verifyTagSignature :
    (verifyTagSignature U root uid tag).run.Only (Op.Checks tag) := by
  have hplain :
      ∀ {o : Op}, o.Plain → (liftM (perform o) : Fallible o.Ans).run.Only (Op.Checks tag) :=
    fun ho => only_exceptT_lift (only_perform ho.checks)
  unfold verifyTagSignature
  refine only_exceptT_bind only_require fun _ => ?_
  refine only_exceptT_bind (hplain ⟨rfl, rfl⟩) fun present => ?_
  refine only_exceptT_bind only_require fun _ => ?_
  refine only_exceptT_bind (hplain ⟨rfl, rfl⟩) fun gnupghome => ?_
  refine only_exceptT_bind (hplain ⟨rfl, rfl⟩) fun _ => ?_
  refine only_exceptT_bind (only_fallible (only_perform (Op.Plain.checks ⟨rfl, rfl⟩))) fun _ => ?_
  refine only_exceptT_bind (only_fallible (only_perform (Op.Plain.checks ⟨rfl, rfl⟩))) fun _ => ?_
  have hgive : (giveTo uid gnupghome).run.Only (Op.Checks tag) := by
    cases uid with
    | some u => exact only_fallible (only_perform (Op.Plain.checks ⟨rfl, rfl⟩))
    | none => exact only_exceptT_pure
  refine only_exceptT_bind hgive fun _ => ?_
  refine only_exceptT_bind (only_caught checks_verifyTagInKeyring) fun result => ?_
  exact only_exceptT_bind (hplain ⟨rfl, rfl⟩) fun _ => only_settle

theorem ships_anyExists (paths : List String) : (anyExists paths).Only (Op.Ships tag) :=
  only_anyExists (fun _ => ⟨rfl, fun _ ht => by cases ht⟩) paths

theorem ships_revCommit {refname : String} :
    (revCommit root uid refname).run.Only (Op.Ships tag) := by
  apply only_revCommit
  intro args hargs
  have hverify : ¬ args.take 2 = ["verify-tag", "--raw"] := by
    intro htake
    cases args with
    | nil => exact nomatch hargs
    | cons a args =>
        rw [Option.some.inj hargs] at htake
        exact absurd (List.cons.inj htake).1 (by decide)
  constructor
  · exact if_neg fun h => hverify h.2
  · intro t ht
    exact nomatch ht

theorem ships_installRelease : (installRelease root owner user).run.Only (Op.Ships tag) := by
  have hother : ∀ {o : Op}, o.verifies = none → o.checksOut = none → o.Ships tag :=
    fun hv hc => ⟨hv, fun _ ht => absurd (hc.symm.trans ht) (Option.some_ne_none _).symm⟩
  unfold installRelease
  refine only_exceptT_bind (only_exceptT_lift (only_perform (hother rfl rfl))) fun family => ?_
  refine only_exceptT_bind (only_exceptT_lift ?_) fun tool => ?_
  · cases (packageFormatFor family).buildTool with
    | some bin => exact only_perform (hother rfl rfl)
    | none => exact only_pure
  cases tool with
  | true =>
      refine only_exceptT_bind (only_fallible (only_perform (hother rfl rfl))) fun built => ?_
      refine only_exceptT_bind (only_fallible (only_perform (hother rfl rfl))) fun ilog => ?_
      exact only_exceptT_pure
  | false =>
      refine only_exceptT_bind (only_runStreamed (hother rfl rfl)) fun _ => ?_
      refine only_exceptT_bind (only_fallible (only_perform (hother rfl rfl))) fun dlog => ?_
      exact only_exceptT_pure

theorem ships_reapplyWiring : reapplyWiring.Only (Op.Ships tag) := by
  unfold reapplyWiring
  refine only_bind (only_perform ⟨rfl, fun _ ht => by cases ht⟩) fun st => ?_
  split
  · refine only_bind (only_perform ⟨rfl, fun _ ht => by cases ht⟩) fun r => ?_
    cases r with
    | ok changes => exact only_pure
    | error e => exact only_pure
  · exact only_pure

theorem ships_buildRelease {log : List String} :
    (buildRelease root owner user tag log).run.Only (Op.Ships tag) := by
  unfold buildRelease
  refine only_exceptT_bind ships_revCommit fun tagCommit => ?_
  refine only_exceptT_bind (only_caught ships_revCommit) fun head => ?_
  have hinstalled : ∀ b : Prop, ∀ [Decidable b],
      (if b then installedCli else pure false : Proc Bool).Only (Op.Ships tag) := by
    intro b _
    split
    · exact ships_anyExists _
    · exact only_pure
  refine only_exceptT_bind (only_exceptT_lift (hinstalled _)) fun installed => ?_
  cases installed with
  | true => exact only_exceptT_pure
  | false =>
      refine only_exceptT_bind (only_runStreamed ⟨rfl, fun t ht => (Option.some.inj ht).symm⟩)
        fun _ => ?_
      refine only_exceptT_bind ships_installRelease fun built => ?_
      refine only_exceptT_bind (only_exceptT_lift ships_reapplyWiring) fun wired => ?_
      exact only_exceptT_pure

/-! ## Runs of the gate -/

theorem traces_runCapture_ok {cwd prog : String} {args : List String}
    {envs : List (String × String)}
    (h : (runCapture uid cwd prog args envs).run.Traces es (.ok out)) :
    es = [⟨.output uid cwd prog args envs, .ok out⟩] := by
  obtain ⟨r, hr, hout⟩ := traces_map.1 h
  rw [traces_perform.1 hr]
  cases r with
  | error e => cases hout
  | ok o => rw [Except.ok.inj hout]

theorem traces_require_ok {ok : Bool} {e : String} {u : Unit}
    (h : (require ok e).run.Traces es (.ok u)) : ok = true := by
  cases ok with
  | true => rfl
  | false =>
      obtain ⟨-, hr⟩ := h
      cases hr

def accepted (U : CaseMap) (raw : String) : Bool :=
  (validsigFingerprints U raw).any (· == normalizeFpr U TRUSTED_SIGNER_FINGERPRINT)

private theorem traces_verifyTagInKeyring_ok {gnupghome keyPath pinned : String}
    (h : (verifyTagInKeyring U root uid tag gnupghome keyPath pinned).run.Traces es (.ok ())) :
    ∃ envs out, (⟨.output uid root "git" (verifyTagArgs tag) envs, .ok out⟩ : Event cli) ∈ es ∧
      (validsigFingerprints U out.stderr).any (· == pinned) = true := by
  unfold verifyTagInKeyring at h
  obtain ⟨es₁, es₂, imp, rfl, -, h₁⟩ := traces_exceptT_bind_ok.1 h
  obtain ⟨es₃, es₄, _, rfl, -, h₂⟩ := traces_exceptT_bind_ok.1 h₁
  obtain ⟨es₅, es₆, out, rfl, hverify, h₃⟩ := traces_exceptT_bind_ok.1 h₂
  obtain ⟨es₇, es₈, _, rfl, -, h₄⟩ := traces_exceptT_bind_ok.1 h₃
  refine ⟨[("GNUPGHOME", gnupghome)], out, ?_, traces_require_ok h₄⟩
  rw [traces_runCapture_ok hverify]
  simp

theorem traces_verifyTagSignature_ok
    (h : (verifyTagSignature U root uid tag).run.Traces es (.ok ())) :
    ∃ envs out, (⟨.output uid root "git" (verifyTagArgs tag) envs, .ok out⟩ : Event cli) ∈ es ∧
      accepted U out.stderr = true := by
  unfold verifyTagSignature at h
  obtain ⟨es₁, es₁', _, rfl, -, h₁⟩ := traces_exceptT_bind_ok.1 h
  obtain ⟨es₂, es₂', _, rfl, -, h₂⟩ := traces_exceptT_bind_ok.1 h₁
  obtain ⟨es₃, es₃', _, rfl, -, h₃⟩ := traces_exceptT_bind_ok.1 h₂
  obtain ⟨es₄, es₄', _, rfl, -, h₄⟩ := traces_exceptT_bind_ok.1 h₃
  obtain ⟨es₅, es₅', _, rfl, -, h₅⟩ := traces_exceptT_bind_ok.1 h₄
  obtain ⟨es₆, es₆', _, rfl, -, h₆⟩ := traces_exceptT_bind_ok.1 h₅
  obtain ⟨es₇, es₇', _, rfl, -, h₇⟩ := traces_exceptT_bind_ok.1 h₆
  obtain ⟨es₈, es₈', _, rfl, -, h₈⟩ := traces_exceptT_bind_ok.1 h₇
  obtain ⟨es₉, es₉', result, rfl, hkeyring, h₉⟩ := traces_exceptT_bind_ok.1 h₈
  obtain ⟨es₀, es₀', _, rfl, -, h₀⟩ := traces_exceptT_bind_ok.1 h₉
  obtain ⟨-, rfl⟩ := h₀
  obtain ⟨r, hr, hcaught⟩ := traces_caught.1 hkeyring
  obtain rfl := Except.ok.inj hcaught
  obtain ⟨envs, out, hmem, haccepted⟩ := traces_verifyTagInKeyring_ok hr
  refine ⟨envs, out, ?_, haccepted⟩
  simp only [List.mem_append]
  exact .inr (.inr (.inr (.inr (.inr (.inr (.inr (.inr (.inl hmem))))))))

/-- The event that listed the tags, of which `tag` was the first. -/
def Lists (tag : String) (e : Event cli) : Prop :=
  ∃ uid cwd out, e = ⟨.output uid cwd "git" tagListArgs [], .ok out⟩ ∧
    firstTag out.stdout = some tag

/-- A listing that succeeded put `tag` first. -/
def Chosen (tag : String) (es : List (Event cli)) : Prop :=
  ∃ uid cwd out, (⟨.output uid cwd "git" tagListArgs [], .ok out⟩ : Event cli) ∈ es ∧
    out.success = true ∧ firstTag out.stdout = some tag

theorem Chosen.lists (h : Chosen tag es) : ∃ l ∈ es, Lists tag l := by
  obtain ⟨uid, cwd, out, hmem, -, hfirst⟩ := h
  exact ⟨_, hmem, uid, cwd, out, rfl, hfirst⟩

theorem Chosen.mono {es' : List (Event cli)} (h : Chosen tag es) (hsub : ∀ e ∈ es, e ∈ es') :
    Chosen tag es' := by
  obtain ⟨uid, cwd, out, hmem, hfirst⟩ := h
  exact ⟨uid, cwd, out, hsub _ hmem, hfirst⟩

private theorem traces_chooseRelease_ok (h : (chooseRelease root owner).run.Traces es (.ok tag)) :
    Chosen tag es := by
  unfold chooseRelease at h
  obtain ⟨es₁, es₂, _, rfl, -, h₁⟩ := traces_exceptT_bind_ok.1 h
  obtain ⟨es₃, es₄, found, rfl, hlatest, h₂⟩ := traces_exceptT_bind_ok.1 h₁
  cases found with
  | none =>
      obtain ⟨-, hr⟩ := h₂
      cases hr
  | some t =>
      obtain ⟨-, hr⟩ := h₂
      obtain rfl := Except.ok.inj hr
      unfold latestReleaseTag at hlatest
      obtain ⟨es₅, es₆, o, rfl, hlist, h₃⟩ := traces_exceptT_bind_ok.1 hlatest
      obtain ⟨es₇, es₈, _, rfl, hsuccess, hfirst⟩ := traces_exceptT_bind_ok.1 h₃
      obtain ⟨-, hfirst⟩ := hfirst
      refine ⟨owner, root, o, ?_, traces_require_ok hsuccess, (Except.ok.inj hfirst).symm⟩
      rw [traces_runCapture_ok hlist]
      simp

/-! ## Runs of an update -/

/-- A run stops before the gate, or in it, or passes it: then what follows builds the tag
that was listed first and accepted. -/
theorem traces_update {r : Except String (List String)} (h : (update U user).run.Traces es r) :
    (∀ e ∈ es, e.1.Plain) ∨
    ∃ tag pre gate rest, es = pre ++ (gate ++ rest) ∧ (∀ e ∈ pre, e.1.Plain) ∧
      Chosen tag pre ∧ (∀ e ∈ gate, e.1.Checks tag) ∧
      ((rest = [] ∧ ∃ msg, r = .error msg) ∨
        (∃ uid cwd envs out,
          (⟨.output uid cwd "git" (verifyTagArgs tag) envs, .ok out⟩ : Event cli) ∈
          gate ∧ accepted U out.stderr = true) ∧
          ∃ root owner log, (buildRelease root owner user tag log).run.Traces rest r) := by
  unfold update at h
  have hfamily : (liftM (perform .distroFamily) : Fallible DistroFamily).run.Only Op.Plain :=
    only_exceptT_lift (only_perform ⟨rfl, rfl⟩)
  rcases traces_exceptT_bind.1 h with ⟨es₀, es₁, family, rfl, h₀, h₁⟩ | ⟨e, h₀, -⟩
  · have hplain₀ := hfamily.traces h₀
    by_cases hfedora : family = .fedora
    · rw [if_pos hfedora] at h₁
      refine .inl fun e he => ?_
      rcases List.mem_append.1 he with he | he
      · exact hplain₀ e he
      · exact plain_updateViaCopr.traces h₁ e he
    · rw [if_neg hfedora] at h₁
      have happend : ∀ {es es' : List (Event cli)}, (∀ e ∈ es, e.1.Plain) → (∀ e ∈ es', e.1.Plain) →
          ∀ e ∈ es ++ es', e.1.Plain := by
        intro es es' hes hes' e he
        exact (List.mem_append.1 he).elim (hes e) (hes' e)
      rcases traces_exceptT_bind.1 h₁ with ⟨es₂, es₃, ⟨root, source⟩, rfl, h₂, h₃⟩ | ⟨e, h₂, -⟩
      · have hplain₂ := happend hplain₀ (plain_checkout.traces h₂)
        have howner : ∀ root, (liftM (perform (.dirOwner root)) :
            Fallible (Option Nat)).run.Only Op.Plain :=
          fun root => only_exceptT_lift (only_perform ⟨rfl, rfl⟩)
        rcases traces_exceptT_bind.1 h₃ with ⟨es₄, es₅, owner, rfl, h₄, h₅⟩ | ⟨e, h₄, -⟩
        · have hplain₄ := happend hplain₂ ((howner root).traces h₄)
          rcases traces_exceptT_bind.1 h₅ with ⟨es₆, es₇, tag, rfl, h₆, h₇⟩ | ⟨e, h₆, -⟩
          · have hplain₆ := happend hplain₄ (plain_chooseRelease.traces h₆)
            have hchosen := traces_chooseRelease_ok h₆
            have hsplit :
                ∀ gate rest : List (Event cli), es₀ ++ (es₂ ++ (es₄ ++ (es₆ ++ (gate ++ rest)))) =
                (es₀ ++ es₂ ++ es₄ ++ es₆) ++ (gate ++ rest) := by
              intro gate rest
              simp only [List.append_assoc]
            have hlisted : Chosen tag (es₀ ++ es₂ ++ es₄ ++ es₆) :=
              hchosen.mono fun e he => List.mem_append_right _ he
            rcases traces_exceptT_bind.1 h₇ with ⟨gate, rest, _, rfl, hgate, hrest⟩ | ⟨e, hgate, hr⟩
            · obtain ⟨envs, out, hmem, haccepted⟩ := traces_verifyTagSignature_ok hgate
              exact .inr ⟨tag, _, gate, rest, hsplit gate rest, hplain₆, hlisted,
                checks_verifyTagSignature.traces hgate,
                .inr ⟨⟨owner, root, envs, out, hmem, haccepted⟩, root, owner, _, hrest⟩⟩
            · refine .inr ⟨tag, _, es₇, [], ?_, hplain₆, hlisted,
                checks_verifyTagSignature.traces hgate, .inl ⟨rfl, e, hr⟩⟩
              rw [← hsplit, List.append_nil]
          · refine .inl ?_
            rw [← List.append_assoc, ← List.append_assoc]
            exact happend hplain₄ (plain_chooseRelease.traces h₆)
        · refine .inl ?_
          rw [← List.append_assoc]
          exact happend hplain₂ ((howner root).traces h₄)
      · exact .inl (happend hplain₀ (plain_checkout.traces h₂))
  · exact .inl (hfamily.traces h₀)

/-! ## Signatures -/

/-- What gpg finds out about a signature. -/
inductive Standing
  | good
  | expiredSignature
  | expiredKey
  | revokedKey
  | bad
  | unknownKey
  deriving DecidableEq

/-- Whether gpg prints a `VALIDSIG` line for it. -/
def Standing.valid : Standing → Bool
  | .good | .expiredSignature | .expiredKey | .revokedKey => true
  | .bad | .unknownKey => false

structure TagSignature where
  fingerprint : String
  primary : String
  standing : Standing

/-- Made by the pinned key or a subkey of it. -/
def TagSignature.ByPinned (U : CaseMap) (σ : TagSignature) : Prop :=
  normalizeFpr U σ.fingerprint = normalizeFpr U TRUSTED_SIGNER_FINGERPRINT ∨
    normalizeFpr U σ.primary = normalizeFpr U TRUSTED_SIGNER_FINGERPRINT

/-- The output of `git verify-tag --raw` for a tag object with these signatures: a
`VALIDSIG` line for each valid one, and success only with a good one. -/
structure Documented (sigs : List TagSignature) (out : Output) : Prop where
  validsig : ∀ first last,
    (∃ line ∈ lines out.stderr, ∃ fields, validsigFields line = some fields ∧
      fields.head? = some first ∧ fields.getLast? = some last) ↔
    ∃ σ ∈ sigs, σ.standing.valid = true ∧ σ.fingerprint = first ∧ σ.primary = last
  exit : out.success = true → ∃ σ ∈ sigs, σ.standing = .good

/-- `git verify-tag` succeeded, and the pinned key made a good signature. -/
def Vouched (U : CaseMap) (sigs : List TagSignature) (out : Output) : Prop :=
  out.success = true ∧ ∃ σ ∈ sigs, σ.standing = .good ∧ σ.ByPinned U

theorem accepted_iff {sigs : List TagSignature} (hdoc : Documented sigs out) :
    accepted U out.stderr = true ↔ ∃ σ ∈ sigs, σ.standing.valid = true ∧ σ.ByPinned U := by
  rw [accepted, List.any_eq_true]
  constructor
  · rintro ⟨fpr, hfpr, hpinned⟩
    rw [beq_iff_eq] at hpinned
    obtain ⟨line, hline, hmem⟩ := List.mem_flatMap.1 hfpr
    cases hfields : validsigFields line with
    | none =>
        rw [hfields] at hmem
        exact absurd hmem List.not_mem_nil
    | some fields =>
        rw [hfields] at hmem
        cases fields with
        | nil => exact absurd hmem List.not_mem_nil
        | cons first rest =>
            obtain ⟨last, hlast⟩ : ∃ last, (first :: rest).getLast? = some last :=
              ⟨_, List.getLast?_eq_some_getLast (List.cons_ne_nil _ _)⟩
            obtain ⟨σ, hσ, hvalid, rfl, rfl⟩ := (hdoc.validsig first last).1
              ⟨line, hline, _, hfields, rfl, hlast⟩
            refine ⟨σ, hσ, hvalid, ?_⟩
            dsimp only at hmem
            rw [hlast] at hmem
            rcases List.mem_append.1 hmem with hfirst | hlast
            · exact .inl ((List.mem_singleton.1 hfirst).symm.trans hpinned)
            · exact .inr ((List.mem_singleton.1 hlast).symm.trans hpinned)
  · rintro ⟨σ, hσ, hvalid, hpinned⟩
    obtain ⟨line, hline, fields, hfields, hfirst, hlast⟩ :=
      (hdoc.validsig σ.fingerprint σ.primary).2 ⟨σ, hσ, hvalid, rfl, rfl⟩
    have hmem : ∀ fpr, fpr = normalizeFpr U σ.fingerprint ∨ fpr = normalizeFpr U σ.primary →
        fpr ∈ validsigFingerprints U out.stderr := by
      intro fpr hfpr
      refine List.mem_flatMap.2 ⟨line, hline, ?_⟩
      rw [hfields]
      dsimp only
      rw [hfirst, hlast]
      rcases hfpr with rfl | rfl
      · exact List.mem_append_left _ (List.mem_singleton.2 rfl)
      · exact List.mem_append_right _ (List.mem_singleton.2 rfl)
    rcases hpinned with hpinned | hpinned
    · exact ⟨_, hmem _ (.inl rfl), beq_iff_eq.2 hpinned⟩
    · exact ⟨_, hmem _ (.inr rfl), beq_iff_eq.2 hpinned⟩

/-! ## The gate and the signature -/

/-- Every verification of the run was answered with this output. -/
def Answered (out : Output) (es : List (Event cli)) : Prop :=
  ∀ uid cwd tag envs ans,
    (⟨.output uid cwd "git" (verifyTagArgs tag) envs, ans⟩ : Event cli) ∈ es → ans = .ok out

/-- Nothing is delivered, and what was verified is refused, unless the signature is
vouched for; and what is delivered is the listed tag, verified before. -/
def Gated (U : CaseMap) (sigs : List TagSignature) (out : Output) (es : List (Event cli))
    (r : Except String (List String)) : Prop :=
  (¬ Vouched U sigs out → (∀ e ∈ es, e.1.delivers = false) ∧
    ((∃ e ∈ es, e.1.verifies ≠ none) → ∃ msg, r = .error msg)) ∧
  ∀ pre e post, es = pre ++ e :: post → e.1.delivers = true →
    ∃ tag, (∃ l ∈ pre, Lists tag l) ∧ (∃ v ∈ pre, v.1.verifies = some tag) ∧
      ∀ t, e.1.checksOut = some t → t = tag

/-- An event that is not in the first part of a run lies behind it. -/
theorem behind_of_not_mem {α : Type} {a b pre post : List α} {e : α}
    (h : a ++ b = pre ++ e :: post) (he : e ∉ a) :
    ∃ pre', pre = a ++ pre' ∧ b = pre' ++ e :: post := by
  rcases List.append_eq_append_iff.1 h with ⟨pre', hpre, hb⟩ | ⟨post', ha, hpost⟩
  · exact ⟨pre', hpre, hb⟩
  · cases post' with
    | nil =>
        rw [List.append_nil] at ha
        refine ⟨[], ?_, hpost.symm⟩
        rw [ha, List.append_nil]
    | cons x post' =>
        apply absurd _ he
        rw [ha, (List.cons.inj hpost).1]
        exact List.mem_append_right _ List.mem_cons_self

/-- Where every accepted text is vouched for, every run is gated. -/
theorem gated_of_vouched {sigs : List TagSignature} {r : Except String (List String)}
    (hvouched : accepted U out.stderr = true → Vouched U sigs out)
    (h : (update U user).run.Traces es r) (hanswered : Answered out es) :
    Gated U sigs out es r := by
  rcases traces_update h with hplain |
    ⟨tag, before, gate, rest, rfl, hplain, hlists, hchecks, hpassed⟩
  · refine ⟨fun _ => ⟨fun e he => (hplain e he).2, ?_⟩, ?_⟩
    · rintro ⟨e, he, hverifies⟩
      exact absurd (hplain e he).1 hverifies
    · rintro pre e post rfl hdelivers
      have hno := (hplain e (by simp)).2
      rw [hno] at hdelivers
      cases hdelivers
  · have hquiet : ∀ e ∈ before ++ gate, e.1.delivers = false := by
      intro e he
      exact (List.mem_append.1 he).elim (fun he => (hplain e he).2) fun he => (hchecks e he).2
    rcases hpassed with ⟨rfl, msg, rfl⟩ |
      ⟨⟨uid, cwd, envs, out', hmem, haccepted⟩, root, owner, log, hbuild⟩
    · rw [List.append_nil]
      refine ⟨fun _ => ⟨hquiet, fun _ => ⟨msg, rfl⟩⟩, ?_⟩
      intro pre e post hes hdelivers
      rw [hquiet e (by rw [hes]; simp)] at hdelivers
      cases hdelivers
    · obtain rfl := Except.ok.inj (hanswered uid cwd tag envs _
        (List.mem_append_right _ (List.mem_append_left _ hmem)))
      refine ⟨fun hnot => absurd (hvouched haccepted) hnot, ?_⟩
      intro pre e post hes hdelivers
      -- the event lies behind the gate
      have hbehind : ∃ pre', pre = before ++ gate ++ pre' ∧ e ∈ rest := by
        rw [← List.append_assoc] at hes
        have hnot : e ∉ before ++ gate := by
          intro hmem
          rw [hquiet e hmem] at hdelivers
          exact Bool.false_ne_true hdelivers
        obtain ⟨pre', hpre, hrest⟩ := behind_of_not_mem hes hnot
        refine ⟨pre', hpre, ?_⟩
        rw [hrest]
        exact List.mem_append_right _ List.mem_cons_self
      obtain ⟨pre', rfl, he⟩ := hbehind
      obtain ⟨l, hl, hlisted⟩ := hlists.lists
      refine ⟨tag, ⟨l, ?_, hlisted⟩,
        ⟨⟨.output uid cwd "git" (verifyTagArgs tag) envs, .ok out'⟩, ?_,
        verifies_verifyTag⟩, (ships_buildRelease.traces hbuild e he).2⟩
      · simp [hl]
      · exact List.mem_append_left _ (List.mem_append_right _ hmem)

/-! ## Nothing else stands in the way -/

/-- A host on which every command succeeds, and the verification has this output. -/
def obliging (out : Output) : (o : Op) → o.Ans
  | .distroFamily => .other
  | .sourceRoot => some "/src"
  | .pathExists _ | .onPath _ | .coprRepoConfigured => true
  | .createDirAll _ | .setMode _ _ | .chown _ _ | .write _ _ => .ok ()
  | .removeDirAll _ => ()
  | .dirOwner _ => none
  | .verificationHome => "/tmp/linhello-verify-1"
  | .status .. => .ok true
  | .output _ _ _ args _ =>
      if args.head? = some "verify-tag" then .ok out
      else .ok { success := true, stderr := "", stdout :=
        if args.head? = some "tag" then "v1\nv0" else args.getLastD "" }
  | .buildNativePackage _ _ => .ok ("linhello.pkg", [])
  | .installNativePackage _ _ | .deployFrom _ _ | .enableWiring _ => .ok []
  | .wiring => []

theorem normalizeFpr_pinned :
    normalizeFpr U TRUSTED_SIGNER_FINGERPRINT = TRUSTED_SIGNER_FINGERPRINT := by
  have hfilter : TRUSTED_SIGNER_FINGERPRINT.toList.filter (fun c => !isWhiteSpace c) =
      TRUSTED_SIGNER_FINGERPRINT.toList := by decide
  have hupper : ∀ c ∈ TRUSTED_SIGNER_FINGERPRINT.toList, U.upper c = [c] := by
    have hascii : TRUSTED_SIGNER_FINGERPRINT.toList.all
        (fun c => decide (c.toNat < 128 ∧ c.toUpper = c)) = true := by decide
    intro c hc
    obtain ⟨hlow, hupper⟩ := of_decide_eq_true (List.all_eq_true.1 hascii c hc)
    rw [U.ascii c hlow, hupper]
  have hmap : ∀ cs : List Char, (∀ c ∈ cs, U.upper c = [c]) → cs.flatMap U.upper = cs := by
    intro cs hcs
    induction cs with
    | nil => rfl
    | cons c cs ih =>
        rw [List.flatMap_cons, hcs c List.mem_cons_self, ih fun d hd =>
          hcs d (List.mem_cons_of_mem _ hd)]
        rfl
  rw [normalizeFpr, hfilter, hmap _ hupper, String.ofList_toList]

private theorem replay_verifyTagInKeyring {gnupghome keyPath : String}
    (haccepted : accepted U out.stderr = true) :
    ((verifyTagInKeyring U root none tag gnupghome keyPath
      (normalizeFpr U TRUSTED_SIGNER_FINGERPRINT)).run.replay (obliging out)).2 = .ok () := by
  have hsome : (!(validsigFingerprints U out.stderr).isEmpty) = true := by
    cases hl : validsigFingerprints U out.stderr with
    | nil =>
        rw [accepted, hl] at haccepted
        cases haccepted
    | cons f fs => rfl
  have hverify : ((runCapture none root "git" (verifyTagArgs tag)
      [("GNUPGHOME", gnupghome)]).run.replay (obliging out)).2 = .ok out := rfl
  have hrequire : ∀ {ok : Bool} {e : String}, ok = true →
      ((require ok e).run.replay (obliging out)).2 = .ok () := by
    rintro ok e rfl
    rfl
  unfold verifyTagInKeyring
  rw [replay_exceptT_bind_ok (a := { success := true, stdout := keyPath, stderr := "" }) rfl]
  dsimp only
  rw [replay_exceptT_bind_ok (hrequire rfl), replay_exceptT_bind_ok hverify]
  dsimp only
  rw [replay_exceptT_bind_ok (hrequire hsome)]
  exact hrequire haccepted

private theorem replay_verifyTagSignature (haccepted : accepted U out.stderr = true) :
    ((verifyTagSignature U root none tag).run.replay (obliging out)).2 = .ok () := by
  have hpinned : ((require ((normalizeFpr U TRUSTED_SIGNER_FINGERPRINT).utf8ByteSize == 40 &&
      (normalizeFpr U TRUSTED_SIGNER_FINGERPRINT).toList.all isHexDigit)
      "TRUSTED_SIGNER_FINGERPRINT is not a 40-hex-char fingerprint; refusing to update").run.replay
      (obliging out)).2 = .ok () := by
    rw [normalizeFpr_pinned]
    rfl
  have hkeyring : ∀ home keyPath, ((caught (verifyTagInKeyring U root none tag home keyPath
      (normalizeFpr U TRUSTED_SIGNER_FINGERPRINT))).run.replay (obliging out)).2 =
        .ok (.ok ()) := by
    intro home keyPath
    have hrun : (caught (verifyTagInKeyring U root none tag home keyPath
        (normalizeFpr U TRUSTED_SIGNER_FINGERPRINT))).run =
        (verifyTagInKeyring U root none tag home keyPath
          (normalizeFpr U TRUSTED_SIGNER_FINGERPRINT)).run >>= fun r => pure (.ok r) := rfl
    rw [hrun, replay_bind, replay_verifyTagInKeyring haccepted]
    rfl
  unfold verifyTagSignature
  rw [replay_exceptT_bind_ok hpinned, replay_exceptT_bind_ok (a := true) rfl,
    replay_exceptT_bind_ok (a := ()) rfl,
    replay_exceptT_bind_ok (a := "/tmp/linhello-verify-1") rfl,
      replay_exceptT_bind_ok (a := ()) rfl,
    replay_exceptT_bind_ok (a := ()) rfl, replay_exceptT_bind_ok (a := ()) rfl,
    replay_exceptT_bind_ok (a := ()) rfl, replay_exceptT_bind_ok (hkeyring _ _)]
  rfl

theorem mem_replay_update {user : String} (haccepted : accepted U out.stderr = true)
    {e : Event cli}
    (he : e ∈ ((buildRelease "/src" none user "v1" ["source: git checkout at " ++ "/src",
      "latest release tag: " ++ "v1", "signature verified: " ++ "v1" ++
        " signed by trusted key " ++ TRUSTED_SIGNER_FINGERPRINT]).run.replay (obliging out)).1) :
    e ∈ ((update U user).run.replay (obliging out)).1 := by
  unfold update
  rw [replay_exceptT_bind_ok (a := DistroFamily.other) rfl, if_neg (by decide),
    replay_exceptT_bind_ok (a := ("/src", "source: git checkout at " ++ "/src")) rfl]
  dsimp only
  rw [replay_exceptT_bind_ok (a := none) rfl, replay_exceptT_bind_ok (a := "v1") rfl,
    replay_exceptT_bind_ok (replay_verifyTagSignature haccepted)]
  simp only [List.mem_append]
  exact .inr (.inr (.inr (.inr (.inr he))))

theorem mem_replay_buildRelease {user : String} {log : List String} {e : Event cli}
    (he : e = ⟨.status none "/src" "git" (checkoutArgs "v1"), .ok true⟩ ∨
      e = ⟨.deployFrom "/src" user, .ok []⟩) :
    e ∈ ((buildRelease "/src" none user "v1" log).run.replay (obliging out)).1 := by
  unfold buildRelease
  rw [replay_exceptT_bind_ok (a := "v1^\x7bcommit\x7d") rfl,
    replay_exceptT_bind_ok (a := .ok "HEAD^\x7bcommit\x7d") rfl,
    replay_exceptT_bind_ok (a := false) rfl]
  dsimp only [Bool.false_eq_true, if_false]
  rw [if_neg Bool.false_ne_true, replay_exceptT_bind_ok (a := ()) rfl,
    replay_exceptT_bind_ok
      (a := ["no native unknown build tooling — installing from source (make install)",
      "building (cargo build --release)…"]) rfl]
  simp only [List.mem_append]
  rcases he with rfl | rfl
  · exact .inr (.inr (.inr (.inl List.mem_cons_self)))
  · refine .inr (.inr (.inr (.inr (.inl ?_))))
    have hevents : ((installRelease "/src" none user).run.replay (obliging out)).1 =
        [⟨.distroFamily, .other⟩, ⟨.status none "/src" "cargo" ["build", "--release"], .ok true⟩,
          ⟨.deployFrom "/src" user, .ok []⟩] := rfl
    rw [hevents]
    simp

private theorem answered_replay (user : String) :
    Answered out ((update U user).run.replay (obliging out)).1 := by
  intro uid cwd tag envs ans hmem
  have hanswer := mem_replay hmem
  have hans := (Sigma.mk.inj hanswer).2
  exact eq_of_heq hans

theorem delivers_of_accepted (user : String) (haccepted : accepted U out.stderr = true) :
    ∃ es r, (update U user).run.Traces es r ∧ Answered out es ∧ ∃ e ∈ es, e.1.delivers = true :=
  ⟨_, _, traces_replay (obliging out) (update U user).run, answered_replay user, _,
    mem_replay_update haccepted (mem_replay_buildRelease (.inl rfl)), rfl⟩

/-! ## What gpg prints -/

def Standing.keyword : Standing → String
  | .good => "GOODSIG"
  | .expiredSignature => "EXPSIG"
  | .expiredKey => "EXPKEYSIG"
  | .revokedKey => "REVKEYSIG"
  | .bad => "BADSIG"
  | .unknownKey => "ERRSIG"

def TagSignature.status (σ : TagSignature) : List String :=
  ("[GNUPG:] " ++ σ.standing.keyword ++ " " ++ σ.fingerprint) ::
    if σ.standing.valid then ["[GNUPG:] VALIDSIG " ++ σ.fingerprint ++ " " ++ σ.primary] else []

def gpgStatus (sigs : List TagSignature) : String := unlines (sigs.flatMap TagSignature.status)

/-- Fingerprints are words. -/
structure TagSignature.Spelled (σ : TagSignature) : Prop where
  fingerprint : IsWord σ.fingerprint
  primary : IsWord σ.primary

theorem isLine_append_word {s w : String} (hs : '\n' ∉ s.toList) (hw : IsWord w) :
    IsLine (s ++ w) := by
  constructor
  · rw [String.toList_append, List.mem_append, not_or]
    refine ⟨hs, fun hmem => ?_⟩
    have hspace := hw.2 '\n' hmem
    revert hspace
    decide
  · intro hlast
    rw [String.toList_append, List.getLast?_append_of_ne_nil _ hw.1] at hlast
    have hspace := hw.2 '\r' (List.mem_of_getLast? hlast)
    revert hspace
    decide

theorem isLine_status {σ : TagSignature} (h : σ.Spelled) : ∀ l ∈ σ.status, IsLine l := by
  intro l hl
  rcases List.mem_cons.1 hl with rfl | hl
  · refine isLine_append_word ?_ h.fingerprint
    cases σ.standing <;> decide
  · split at hl
    · obtain rfl := List.mem_singleton.1 hl
      refine isLine_append_word ?_ h.primary
      have hfingerprint : '\n' ∉ σ.fingerprint.toList := by
        intro hmem
        have hspace := h.fingerprint.2 '\n' hmem
        revert hspace
        decide
      rw [String.toList_append, String.toList_append, List.mem_append, List.mem_append]
      rintro ((hmem | hmem) | hmem)
      · revert hmem
        decide
      · exact hfingerprint hmem
      · revert hmem
        decide
    · exact absurd hl List.not_mem_nil

/-- Only a `VALIDSIG` line has a `V` behind the tag of the status line. -/
theorem validsigFields_keyword {standing : Standing} {w : String} (hw : IsWord w) :
    validsigFields ("[GNUPG:] " ++ standing.keyword ++ " " ++ w) = none := by
  have htrim : trim ("[GNUPG:] " ++ standing.keyword ++ " " ++ w) =
      "[GNUPG:] " ++ standing.keyword ++ " " ++ w := by
    cases standing <;> exact trim_append_word rfl (by decide) hw
  have hstarts : startsWith ("[GNUPG:] " ++ standing.keyword ++ " " ++ w) "[GNUPG:] VALIDSIG " =
      false := by
    rw [← Bool.not_eq_true, startsWith, String.toList_append, List.isPrefixOf_iff_prefix]
    rintro ⟨rest, hrest⟩
    have hninth := congrArg (fun cs : List Char => cs[9]?) hrest
    cases standing <;>
      · rw [List.getElem?_append_left (by decide), List.getElem?_append_left (by decide)] at hninth
        revert hninth
        decide
  rw [validsigFields, htrim, stripPrefix, if_neg (by rw [hstarts]; decide)]
  rfl

theorem validsigFields_valid {fingerprint primary : String} (hf : IsWord fingerprint)
    (hp : IsWord primary) :
    validsigFields ("[GNUPG:] VALIDSIG " ++ fingerprint ++ " " ++ primary) =
      some [fingerprint, primary] := by
  have hhead : ("[GNUPG:] VALIDSIG " ++ fingerprint ++ " ").toList =
      '[' :: ("GNUPG:] VALIDSIG ".toList ++ fingerprint.toList ++ " ".toList) := by
    rw [String.toList_append, String.toList_append]
    rfl
  have htrim := trim_append_word hhead (by decide) hp
  have hwords : splitWhitespace (fingerprint ++ " " ++ primary) = [fingerprint, primary] := by
    have htext : (fingerprint ++ " " ++ primary).toList =
        fingerprint.toList ++ ' ' :: primary.toList := by
      rw [String.toList_append, String.toList_append, List.append_assoc]
      rfl
    rw [splitWhitespace, htext, wordsFrom_word hf, wordsFrom_last hp]
  rw [validsigFields, htrim, String.append_assoc, String.append_assoc, stripPrefix_append,
    ← String.append_assoc, Option.map_some, hwords]

theorem documented_gpgStatus {sigs : List TagSignature} {success : Bool}
    (hspelled : ∀ σ ∈ sigs, σ.Spelled) (hexit : success = true → ∃ σ ∈ sigs, σ.standing = .good) :
    Documented sigs { success := success, stdout := "", stderr := gpgStatus sigs } := by
  have hlines : lines (gpgStatus sigs) = sigs.flatMap TagSignature.status := by
    apply lines_unlines
    intro l hl
    obtain ⟨σ, hσ, hl⟩ := List.mem_flatMap.1 hl
    exact isLine_status (hspelled σ hσ) l hl
  refine ⟨fun first last => ?_, hexit⟩
  dsimp only
  rw [hlines]
  constructor
  · rintro ⟨line, hline, fields, hfields, hfirst, hlast⟩
    obtain ⟨σ, hσ, hline⟩ := List.mem_flatMap.1 hline
    rcases List.mem_cons.1 hline with rfl | hline
    · rw [validsigFields_keyword (hspelled σ hσ).fingerprint] at hfields
      cases hfields
    · by_cases hvalid : σ.standing.valid = true
      · rw [if_pos hvalid] at hline
        obtain rfl := List.mem_singleton.1 hline
        rw [validsigFields_valid (hspelled σ hσ).fingerprint (hspelled σ hσ).primary] at hfields
        obtain rfl := Option.some.inj hfields
        exact ⟨σ, hσ, hvalid, Option.some.inj hfirst, Option.some.inj hlast⟩
      · rw [if_neg hvalid] at hline
        exact absurd hline List.not_mem_nil
  · rintro ⟨σ, hσ, hvalid, rfl, rfl⟩
    refine ⟨_, List.mem_flatMap.2 ⟨σ, hσ, List.mem_cons_of_mem _ ?_⟩, _,
      validsigFields_valid (hspelled σ hσ).fingerprint (hspelled σ hσ).primary, rfl, rfl⟩
    rw [if_pos hvalid]
    exact List.mem_singleton.2 rfl

def pinnedSignature (standing : Standing) : TagSignature where
  fingerprint := TRUSTED_SIGNER_FINGERPRINT
  primary := TRUSTED_SIGNER_FINGERPRINT
  standing := standing

theorem documented_pinned {standing : Standing} {success : Bool}
    (hsuccess : success = true → standing = .good) :
    Documented [pinnedSignature standing]
      { success := success, stdout := "", stderr := gpgStatus [pinnedSignature standing] } := by
  have hword : IsWord TRUSTED_SIGNER_FINGERPRINT := by
    have hall : TRUSTED_SIGNER_FINGERPRINT.toList.all (fun c => !isWhiteSpace c) = true := by decide
    refine ⟨by decide, fun c hc => ?_⟩
    have hvisible := List.all_eq_true.1 hall c hc
    rwa [Bool.not_eq_true'] at hvisible
  refine documented_gpgStatus ?_ fun h => ⟨_, List.mem_singleton.2 rfl, hsuccess h⟩
  intro σ hσ
  obtain rfl := List.mem_singleton.1 hσ
  exact ⟨hword, hword⟩

/-! ## The release gate -/

def asciiCase : CaseMap where
  upper c := [c.toUpper]
  ascii _ _ := rfl

/-- For the signatures of a tag and what `git verify-tag` prints of them: every run that
gets this answer is gated exactly if a valid signature of the pinned key comes with a
successful exit and a good one. -/
theorem release_gated_iff {sigs : List TagSignature} (hdoc : Documented sigs out) :
    (∀ user es r, (update U user).run.Traces es r → Answered out es → Gated U sigs out es r) ↔
      ((∃ σ ∈ sigs, σ.standing.valid = true ∧ σ.ByPinned U) → Vouched U sigs out) := by
  rw [← accepted_iff hdoc]
  constructor
  · intro hgated haccepted
    by_contra hnot
    obtain ⟨es, r, hrun, hanswered, e, he, hdelivers⟩ := delivers_of_accepted "root" haccepted
    rw [((hgated "root" es r hrun hanswered).1 hnot).1 e he] at hdelivers
    cases hdelivers
  · intro hvouched user es r hrun hanswered
    exact gated_of_vouched hvouched hrun hanswered

theorem release_gated_iff_good :
    Documented [pinnedSignature .good]
        { success := true, stdout := "", stderr := gpgStatus [pinnedSignature .good] } ∧
      ∀ user es r, (update asciiCase user).run.Traces es r →
        Answered { success := true, stdout := "", stderr := gpgStatus [pinnedSignature .good] } es →
        Gated asciiCase [pinnedSignature .good]
          { success := true, stdout := "", stderr := gpgStatus [pinnedSignature .good] } es r :=
  ⟨documented_pinned fun _ => rfl, (release_gated_iff (documented_pinned fun _ => rfl)).2 fun _ =>
    ⟨rfl, _, List.mem_singleton.2 rfl, rfl, .inl rfl⟩⟩

/-- The pinned key was revoked, and `git verify-tag` exits with a failure. -/
theorem not_release_gated :
    ¬ ∀ (U : CaseMap) (sigs : List TagSignature) (out : Output) (user : String)
      (es : List (Event cli)) (r : Except String (List String)), Documented sigs out →
      (update U user).run.Traces es r → Answered out es → Gated U sigs out es r := by
  intro hall
  have hdoc := @documented_pinned .revokedKey false (fun hsuccess => by cases hsuccess)
  have haccepted := (accepted_iff (U := asciiCase) hdoc).2
    ⟨_, List.mem_singleton.2 rfl, rfl, .inl rfl⟩
  obtain ⟨es, r, hrun, hanswered, e, he, hdelivers⟩ := delivers_of_accepted "root" haccepted
  have hgated := hall asciiCase _ _ "root" es r hdoc hrun hanswered
  rw [(hgated.1 fun hvouched => by cases hvouched.1).1 e he] at hdelivers
  cases hdelivers

end Linhello.Cli.Update
