import Linhello.Daemon.Computer
import Linhello.Daemon.DirectRelease
/-!
# What a verification leaves on disk

A verification needs the user's template key. Where no envelope is stored it makes one,
whether or not the user has a template; `doVerify_iff` says when that leaves nothing.
-/

namespace Linhello.Daemon

open Common Linhello.Core Effect Host Host.World Liveness Biometrics Computer

variable {P : Tpm.Platform} {pr : Process} {user : String} {x y : Computer}

/-! ## Parts that only look -/

theorem still_perform {o : Op} (h : quiet o = true) (hcall : ∀ P, coreCall P o = none) :
    (perform o).Only still :=
  only_perform ⟨h, hcall⟩

theorem still_checkCameraBinding : (checkCameraBinding user).run.Only still :=
  (looks_checkCameraBinding (F := fun _ => True) trivial).imp fun _ => still_of_looks

theorem still_captureEmbedGated : (captureEmbedGated pr user).run.Only still :=
  (looks_captureEmbedGated pr (F := fun _ => True) trivial).imp fun _ => still_of_looks

/-- With the migration disabled, loading a template writes nothing. -/
theorem still_loadEncryptedEmbedding (hlegacy : legacyMigrationAllowed pr = false) {key : Bytes} :
    (loadEncryptedEmbedding pr user key).run.Only still := by
  have hexists : ∀ p, (liftM (perform (.pathExists p)) : Fallible Bool).run.Only still :=
    fun _ => only_exceptT_lift (still_perform rfl fun _ => rfl)
  refine only_exceptT_bind only_orFail fun _ => ?_
  refine only_exceptT_bind (hexists _) fun present => ?_
  cases present with
  | true => exact only_exceptT_bind (only_io (still_perform rfl fun _ => rfl)) fun _ => only_orFail
  | false =>
      refine only_exceptT_bind (hexists _) fun legacy => ?_
      cases legacy with
      | false => exact .ret _
      | true =>
          rw [if_pos rfl, hlegacy]
          exact .ret _

/-! ## The template key -/

/-- Sealing a fresh key always fails, and no key pair is made on the way. -/
def SealsNothing (P : Tpm.Platform) (m : Tpm.Machine) : Prop :=
  (∀ key env m', key.length = KEY_LEN →
    ¬ Exec (Tpm.Step P False) (Tpm.sealSecret P key).run m (.ok env) m') ∧
    ¬ m.sys.MakesHostKey P

/-- Unsealing the user's key envelope heals nothing. -/
def HealsNothing (P : Tpm.Platform) (user : String) (x : Computer) : Prop :=
  ∀ env r m', x.world.file (.user user .templateKeyEnvelope) = some (.value env) →
    Exec (Tpm.Step P False) (Tpm.«unseal» P env).run x.machine r m' →
    m'.sys.file = x.machine.sys.file

theorem step_pathExists_iff {p : Path} {b : Bool} :
    Step P x (.pathExists p) b y ↔ b = (x.world.file p).isSome ∧ y = x := by
  constructor
  · intro h
    obtain ⟨rfl, hstep⟩ := step_still ⟨rfl, fun _ => rfl⟩ h
    exact ⟨(faultless_pathExists hstep).1, rfl⟩
  · rintro ⟨rfl, rfl⟩
    exact ⟨rfl, by simp [World.allows], rfl⟩

theorem exec_load {p : Path} {as : p.Data → Json SealedEnvelope} {env : SealedEnvelope}
    (h : Exec (Step P) (SealedEnvelope.load p as).run x (.ok env) y) :
    y = x ∧ ∃ d, x.world.file p = some d ∧ as d = .value env := by
  have hload : (SealedEnvelope.load p as).run.Only still := only_readJson ⟨rfl, fun _ => rfl⟩
  obtain rfl := exec_still hload h
  obtain ⟨d, hread, hparse⟩ := exec_readJson_ok.1 (exec_world hload h)
  exact ⟨rfl, d, (step_read_ok hread).1, parse_eq_ok.1 hparse⟩

theorem exec_unsealTemplateKey {r : Except LinuxHelloError Bytes}
    (h : Exec (Step P) (unsealTemplateKey user).run x r y) :
    HealsAtMost x y ∧ (HealsNothing P user x → SameFiles x y) := by
  have hself : HealsAtMost x x ∧ (HealsNothing P user x → SameFiles x x) :=
    ⟨(SameFiles.refl x).healsAtMost, fun _ => .refl x⟩
  rcases exec_past only_orFail h with rfl | ⟨_, -, h₁⟩
  · exact hself
  rcases exec_past (only_readJson ⟨rfl, fun _ => rfl⟩) h₁ with rfl | ⟨env, hload, h₂⟩
  · exact hself
  obtain ⟨-, _, hfile, rfl⟩ := exec_load hload
  obtain ⟨hworld, hexec⟩ := exec_perform.1 (exec_fallible.1 h₂)
  have hroot := congrArg World.root hworld
  have husers := congrArg World.users hworld
  exact ⟨⟨hroot, husers, Tpm.exec_unseal hexec⟩,
    fun hheals => ⟨hroot, husers, hheals env _ _ hfile hexec⟩⟩

theorem exists_unsealTemplateKey (hvalid : validateUser user = .ok ())
    (hheals : ¬ HealsNothing P user x) :
    ∃ r y, Exec (Step P) (unsealTemplateKey user).run x r y ∧ ¬ SameFiles x y := by
  unfold HealsNothing at hheals
  push Not at hheals
  obtain ⟨env, r, m', hfile, hexec, hfiles⟩ := hheals
  have hload : Exec (Step P) (SealedEnvelope.load (.user user .templateKeyEnvelope) id).run x
      (.ok env) x := by
    have hread : (SealedEnvelope.load (.user user .templateKeyEnvelope) id).run.Only still :=
      only_readJson ⟨rfl, fun _ => rfl⟩
    have hstep : World.Step (fun _ => none) .none x.world
        (.read (.user user .templateKeyEnvelope)) (.ok (.value env)) x.world :=
      ⟨by simp [World.allows, ioAnswer, hfile], rfl⟩
    exact exec_of_world hread (exec_readJson_ok.2 ⟨.value env, hstep, rfl⟩)
  refine ⟨r, ⟨x.world, m'⟩, ?_, fun hsame => hfiles hsame.signing⟩
  refine exec_exceptT_bind.2 (.inl ⟨(), x, ⟨hvalid.symm, rfl⟩, exec_exceptT_bind.2 (.inl
    ⟨env, x, hload, exec_fallible.2 (exec_perform.2 ⟨rfl, hexec⟩)⟩)⟩)

/-- `ensure_template_key` where there is no envelope. -/
def freshTemplateKey (user : String) : Fallible Bytes := do
  let key ← perform (.randomBytes KEY_LEN)
  let env ← fallible (perform (.tpmSeal key))
  env.save (.user user .templateKeyEnvelope) id
  io (perform (.setPermissions (.user user .templateKeyEnvelope)))
  pure key

theorem exec_freshTemplateKey {r : Except LinuxHelloError Bytes}
    (hseals : SealsNothing P x.machine) (h : Exec (Step P) (freshTemplateKey user).run x r y) :
    SameFiles x y := by
  have hrandom : (liftM (perform (.randomBytes KEY_LEN)) : Fallible Bytes).run.Only still :=
    only_exceptT_lift (still_perform rfl fun _ => rfl)
  rcases exec_past hrandom h with rfl | ⟨key, hkey, h₁⟩
  · exact .refl _
  have hlen := (step_randomBytes (exec_perform.1
    (exec_world (still_perform rfl fun _ => rfl) (exec_exceptT_lift_ok.1 hkey)))).1
  obtain ⟨env, v, hseal, -⟩ | ⟨e, hseal, -⟩ := exec_exceptT_bind.1 h₁
  · obtain ⟨-, hexec⟩ := exec_perform.1 (exec_fallible.1 hseal)
    exact absurd hexec (hseals.1 key env _ hlen)
  · obtain ⟨hworld, hexec⟩ := exec_perform.1 (exec_fallible.1 hseal)
    rcases Tpm.exec_sealSecret_error hexec with hsame | hmakes
    · exact ⟨congrArg World.root hworld, congrArg World.users hworld, hsame⟩
    · exact absurd hmakes hseals.2

private theorem exec_saveTemplateKey (x : Computer) (env : SealedEnvelope) (key : Bytes) : ∃ y,
    Exec (Step P) (do
      env.save (.user user .templateKeyEnvelope) id
      io (perform (.setPermissions (.user user .templateKeyEnvelope)))
      pure key : Fallible Bytes).run x (.ok key) y ∧
    y.machine = x.machine ∧
    y.world.file (.user user .templateKeyEnvelope) = some (.value env) := by
  obtain ⟨made, hmade⟩ : ∃ w, w = x.world.mkdir (some user) := ⟨_, rfl⟩
  obtain ⟨saved, hsaved⟩ : ∃ w, w = made.set (.user user .templateKeyEnvelope) (.value env) :=
    ⟨_, rfl⟩
  have hfile : saved.file (.user user .templateKeyEnvelope) = some (.value env) := by
    rw [hsaved, file_set_self]
  have hdir : made.hasDir (some user) = true := by
    rw [hmade]
    exact hasDir_mkdir.2 (.inl rfl)
  have hcreate : Step P x (.createDirAll (some user)) (.ok ()) ⟨made, x.machine⟩ :=
    ⟨rfl, rfl, hmade⟩
  have hwrite : Step P ⟨made, x.machine⟩ (.write (.user user .templateKeyEnvelope) (.value env))
      (.ok ()) ⟨saved, x.machine⟩ :=
    ⟨rfl, by simp [World.allows, ioAnswer, Path.parent, hdir], hsaved⟩
  have hmode : Step P ⟨saved, x.machine⟩ (.setPermissions (.user user .templateKeyEnvelope))
      (.ok ()) ⟨saved, x.machine⟩ :=
    ⟨rfl, by simp [World.allows, ioAnswer, hfile], rfl⟩
  refine ⟨⟨saved, x.machine⟩, exec_exceptT_bind_ok.2 ⟨(), _, exec_exceptT_bind_ok.2 ⟨(), _,
    exec_io_ok.2 (exec_perform.2 hcreate), exec_io_ok.2 (exec_perform.2 hwrite)⟩, ?_⟩, rfl, hfile⟩
  exact exec_exceptT_bind_ok.2 ⟨(), _, exec_io_ok.2 (exec_perform.2 hmode), rfl, rfl⟩

/-- However the seal of a key ends, a fresh key gets as far; once sealed it is written. -/
theorem exists_fresh_of_seal {key : Bytes} {r : Except LinuxHelloError SealedEnvelope}
    {m' : Tpm.Machine} (hlen : key.length = KEY_LEN)
    (hexec : Exec (Tpm.Step P False) (Tpm.sealSecret P key).run x.machine r m') :
    ∃ r' y, Exec (Step P) (freshTemplateKey user).run x r' y ∧ y.machine = m' ∧
      ∀ env, r = .ok env → y.world.file (.user user .templateKeyEnvelope) ≠ none := by
  have hrandom : Exec (Step P) (liftM (perform (.randomBytes KEY_LEN)) : Fallible Bytes).run x
      (.ok key) x :=
    exec_exceptT_lift_ok.2 (exec_perform.2 ⟨rfl, by simp [World.allows, hlen], rfl⟩)
  have hseal : Exec (Step P) (fallible (perform (.tpmSeal key)) : Fallible SealedEnvelope).run x r
      ⟨x.world, m'⟩ := exec_fallible.2 (exec_perform.2 ⟨rfl, hexec⟩)
  cases r with
  | error e =>
      refine ⟨.error e, ⟨x.world, m'⟩, exec_exceptT_bind.2 (.inl ⟨key, x, hrandom,
        exec_exceptT_bind.2 (.inr ⟨e, hseal, rfl⟩)⟩), rfl, ?_⟩
      intro env henv
      cases henv
  | ok env =>
      obtain ⟨y, hsave, hmachine, hfile⟩ := @exec_saveTemplateKey P user ⟨x.world, m'⟩ env key
      refine ⟨.ok key, y, exec_exceptT_bind_ok.2 ⟨key, x, hrandom,
        exec_exceptT_bind_ok.2 ⟨env, ⟨x.world, m'⟩, hseal, hsave⟩⟩, hmachine, ?_⟩
      intro env' _
      rw [hfile]
      exact Option.some_ne_none _

/-- Making a key can leave an envelope, or the host's key pair. -/
theorem exists_freshTemplateKey (hnone : x.world.file (.user user .templateKeyEnvelope) = none)
    (hseals : ¬ SealsNothing P x.machine) :
    ∃ r y, Exec (Step P) (freshTemplateKey user).run x r y ∧ ¬ HealsAtMost x y := by
  unfold SealsNothing at hseals
  rw [not_and_or, not_not] at hseals
  rcases hseals with hseal | hmakes
  · push Not at hseal
    obtain ⟨key, env, m', hlen, hexec⟩ := hseal
    obtain ⟨r, y, hrun, -, hfile⟩ := @exists_fresh_of_seal P user x _ _ _ hlen hexec
    refine ⟨r, y, hrun, fun hkept => hfile env rfl ?_⟩
    rw [← hnone]
    simp only [World.file, hkept.users]
  · obtain ⟨r, m', hexec, hmade⟩ := Tpm.exists_seal_makes (List.replicate KEY_LEN 0) hmakes
    obtain ⟨r', y, hrun, rfl, -⟩ :=
      @exists_fresh_of_seal P user x _ r m' List.length_replicate hexec
    refine ⟨r', y, hrun, fun hkept => ?_⟩
    rcases hkept.signing with hsame | hmended
    · exact hmade (congrFun hsame _)
    · exact hmade (hmended.rest .signingPub (by decide) (by decide))

theorem exec_ensureTemplateKey {r : Except LinuxHelloError Bytes}
    (hvalid : validateUser user = .ok ()) :
    Exec (Step P) (ensureTemplateKey user).run x r y ↔
      Exec (Step P) (if (x.world.file (.user user .templateKeyEnvelope)).isSome
        then unsealTemplateKey user else freshTemplateKey user).run x r y := by
  have hpresent :
      ∀ b v, Exec (Step P) (perform (.pathExists (.user user .templateKeyEnvelope))) x b v ↔
      b = (x.world.file (.user user .templateKeyEnvelope)).isSome ∧ v = x :=
    fun b v => exec_perform.trans step_pathExists_iff
  constructor
  · intro h
    have hopen := exec_orFail_bind_ok hvalid h
    obtain ⟨b, v, hb, hrest⟩ := exec_lift_bind.1 hopen
    obtain ⟨rfl, rfl⟩ := (hpresent b v).1 hb
    exact hrest
  · intro h
    refine exec_exceptT_bind.2 (.inl ⟨(), x, ⟨hvalid.symm, rfl⟩, ?_⟩)
    exact exec_lift_bind.2 ⟨_, x, (hpresent _ _).2 ⟨rfl, rfl⟩, h⟩

theorem same_cacheInsert {key : Bytes} {u : Unit}
    (h : Step P x (.cacheInsert user key) u y) : SameFiles x y := by
  obtain ⟨hmachine, -, hworld⟩ := h
  refine ⟨?_, ?_, by rw [hmachine]⟩ <;> rw [hworld] <;> rfl

/-- A key that is not cached is looked for; to remember it changes no file. -/
theorem exec_cachedTemplateKey {r : Except String Bytes}
    (h : Exec (Step P) (cachedTemplateKey user).run x r y) : y = x ∨
      x.world.cache.lookup user = none ∧
        ∃ r v, Exec (Step P) (ensureTemplateKey user).run x r v ∧ SameFiles v y := by
  obtain ⟨cached, v, hcached, hrest⟩ := exec_lift_bind.1 h
  obtain ⟨rfl, hget⟩ := step_still ⟨rfl, fun _ => rfl⟩ (exec_perform.1 hcached)
  obtain ⟨rfl, -⟩ := step_cacheGet hget
  cases hlookup : v.world.cache.lookup user with
  | some key =>
      rw [hlookup] at hrest
      exact .inl hrest.2
  | none =>
      rw [hlookup] at hrest
      refine .inr ⟨rfl, ?_⟩
      obtain ⟨key, u, hmapped, hinsert⟩ | ⟨e, hmapped, -⟩ := exec_exceptT_bind.1 hrest
      · obtain ⟨r, hensure, -⟩ := exec_map.1 hmapped
        obtain ⟨_, t, hstep, -, rfl⟩ := exec_lift_bind.1 hinsert
        exact ⟨r, u, hensure, same_cacheInsert (exec_perform.1 hstep)⟩
      · obtain ⟨r, hensure, -⟩ := exec_map.1 hmapped
        exact ⟨r, y, hensure, .refl y⟩

theorem exists_cachedTemplateKey {r : Except LinuxHelloError Bytes} {v : Computer}
    (hlookup : x.world.cache.lookup user = none)
    (h : Exec (Step P) (ensureTemplateKey user).run x r v) :
    ∃ r y, Exec (Step P) (cachedTemplateKey user).run x r y ∧ SameFiles v y := by
  have hget : Exec (Step P) (perform (.cacheGet user)) x none x :=
    exec_perform.2 ⟨rfl, by simp [World.allows, hlookup], rfl⟩
  cases r with
  | error e =>
      refine ⟨.error e.display, v, exec_lift_bind.2 ⟨none, x, hget, ?_⟩, .refl v⟩
      exact exec_exceptT_bind.2 (.inr ⟨e.display, exec_map.2 ⟨.error e, h, rfl⟩, rfl⟩)
  | ok key =>
      have hstep : Step P v (.cacheInsert user key) ()
          ⟨{ v.world with cache := v.world.cache.insert user key }, v.machine⟩ := ⟨rfl, rfl, rfl⟩
      refine ⟨.ok key, _, exec_lift_bind.2 ⟨none, x, hget, ?_⟩, same_cacheInsert hstep⟩
      refine exec_exceptT_bind.2 (.inl ⟨key, v, exec_map.2 ⟨.ok key, h, rfl⟩, ?_⟩)
      exact exec_lift_bind.2 ⟨(), _, exec_perform.2 hstep, rfl, rfl⟩

/-! ## Verification -/

def NotEnrolled (w : World) (user : String) : Prop :=
  w.file (.user user .embeddingEnc) = none ∧ w.file (.user user .embeddingBin) = none

/-- What a verification may leave: a healed signature file, for a user with a template. -/
structure Kept (user : String) (x y : Computer) : Prop where
  heals : HealsAtMost x y
  traceless : NotEnrolled x.world user → SameFiles x y

theorem Kept.of_same (h : SameFiles x y) : Kept user x y := ⟨h.healsAtMost, fun _ => h⟩

theorem Kept.trans {z : Computer} (h₁ : Kept user x y) (h₂ : SameFiles y z) : Kept user x z :=
  ⟨h₁.heals.trans h₂, fun hnot => (h₁.traceless hnot).trans h₂⟩

/-- Looking for the user's key leaves nothing: an envelope that is there heals nothing, unless
there is a template with it, and where there is none nothing can be sealed. -/
def LeavesNoKey (P : Tpm.Platform) (user : String) (x : Computer) : Prop :=
  if (x.world.file (.user user .templateKeyEnvelope)).isSome
    then NotEnrolled x.world user → HealsNothing P user x
    else SealsNothing P x.machine

theorem ensureTemplateKey_iff (hvalid : validateUser user = .ok ()) :
    (∀ r y, Exec (Step P) (ensureTemplateKey user).run x r y → Kept user x y) ↔
      LeavesNoKey P user x := by
  simp only [exec_ensureTemplateKey hvalid, LeavesNoKey]
  cases hfile : x.world.file (.user user .templateKeyEnvelope) with
  | some env =>
      simp only [Option.isSome_some, if_true]
      constructor
      · intro h hnot
        by_contra hheals
        obtain ⟨r, y, hrun, hleft⟩ := exists_unsealTemplateKey hvalid hheals
        exact hleft ((h r y hrun).traceless hnot)
      · intro h r y hrun
        obtain ⟨hheals, hsame⟩ := exec_unsealTemplateKey hrun
        exact ⟨hheals, fun hnot => hsame (h hnot)⟩
  | none =>
      simp only [Option.isSome_none, Bool.false_eq_true, if_false]
      constructor
      · intro h
        by_contra hseals
        obtain ⟨r, y, hrun, hleft⟩ := exists_freshTemplateKey hfile hseals
        exact hleft (h r y hrun).heals
      · intro h r y hrun
        exact .of_same (exec_freshTemplateKey h hrun)

theorem cachedTemplateKey_iff (hvalid : validateUser user = .ok ()) :
    (∀ r y, Exec (Step P) (cachedTemplateKey user).run x r y → Kept user x y) ↔
      (x.world.cache.lookup user = none → LeavesNoKey P user x) := by
  constructor
  · intro h hlookup
    refine (ensureTemplateKey_iff hvalid).1 fun r v hensure => ?_
    obtain ⟨r', y, hcached, hsame⟩ := exists_cachedTemplateKey hlookup hensure
    exact (h r' y hcached).trans hsame.symm
  · intro h r y hcached
    rcases exec_cachedTemplateKey hcached with rfl | ⟨hlookup, r', v, hensure, hsame⟩
    · exact .of_same (.refl y)
    · exact ((ensureTemplateKey_iff hvalid).2 (h hlookup) r' v hensure).trans hsame

/-- Behind the camera binding and the user's key, a verification only looks. -/
theorem exec_doVerify (hlegacy : legacyMigrationAllowed pr = false) :
    (∃ resp, Exec (Step P) (doVerify pr user) x resp y) ↔
      (∃ e, Exec (Step P) (checkCameraBinding user).run x (.error e) y) ∨
      Exec (Step P) (checkCameraBinding user).run x (.ok ()) x ∧
        ∃ r, Exec (Step P) (cachedTemplateKey user).run x r y := by
  have hsamples : (∃ resp, Exec (Step P) (doVerify pr user) x resp y) ↔
      ∃ r, Exec (Step P) (loadUserSamples pr user).run x r y := by
    refine exists_exec_bind fun r => ?_
    cases r with
    | error e => exact .ret _
    | ok samples =>
        refine only_bind still_captureEmbedGated fun live => ?_
        cases live <;> exact .ret _
  have hkey : ∀ u, (∃ r, Exec (Step P) (do
      let key ← ExceptT.mk ((Except.mapError fun e =>
        "template key unavailable (" ++ e ++ "); refusing plaintext fallback") <$>
          (cachedTemplateKey user).run)
      let raw ← displayed LinuxHelloError.display (loadEncryptedEmbedding pr user key)
      ExceptT.mk (pure ((parseRawEmbeddings pr.fl raw).mapError LinuxHelloError.display)) :
        Checked (List (List ℚ))).run u r y) ↔
      ∃ r, Exec (Step P) (cachedTemplateKey user).run u r y := by
    intro u
    refine (exists_exec_exceptT_bind fun key => ?_).trans (exists_exec_map ..)
    exact only_exceptT_bind (only_map (still_loadEncryptedEmbedding hlegacy)) fun raw => .ret _
  rw [hsamples]
  constructor
  · rintro ⟨r, h⟩
    obtain ⟨_, v, hcheck, hrest⟩ | ⟨e, herror, -⟩ := exec_exceptT_bind.1 h
    · obtain rfl := exec_still still_checkCameraBinding hcheck
      exact .inr ⟨hcheck, (hkey v).1 ⟨r, hrest⟩⟩
    · exact .inl ⟨e, herror⟩
  · rintro (⟨e, herror⟩ | ⟨hcheck, hcached⟩)
    · exact ⟨.error e, exec_exceptT_bind.2 (.inr ⟨e, herror, rfl⟩)⟩
    · obtain ⟨r, hrest⟩ := (hkey x).2 hcached
      exact ⟨r, exec_exceptT_bind.2 (.inl ⟨(), x, hcheck, hrest⟩)⟩

/-- A verification never comes to the user's key, or looking for it leaves nothing. -/
def Touchless (P : Tpm.Platform) (user : String) (x : Computer) : Prop :=
  Readable (x.world.file (.user user .cameraBinding)) → x.world.cache.lookup user = none →
    LeavesNoKey P user x

theorem doVerify_iff (hlegacy : legacyMigrationAllowed pr = false)
    (hvalid : validateUser user = .ok ()) :
    (∀ resp y, Exec (Step P) (doVerify pr user) x resp y → Kept user x y) ↔ Touchless P user x := by
  unfold Touchless
  constructor
  · intro h hreadable
    refine (cachedTemplateKey_iff hvalid).1 fun r y hcached => ?_
    have hcheck : Exec (Step P) (checkCameraBinding user).run x (.ok ()) x :=
      exec_of_world still_checkCameraBinding (exec_checkCameraBinding hreadable)
    obtain ⟨resp, hverify⟩ := (exec_doVerify hlegacy).2 (.inr ⟨hcheck, r, hcached⟩)
    exact h resp y hverify
  · intro h resp y hverify
    rcases (exec_doVerify hlegacy).1 ⟨resp, hverify⟩ with ⟨e, herror⟩ | ⟨hcheck, r, hcached⟩
    · obtain rfl := exec_still still_checkCameraBinding herror
      exact .of_same (.refl y)
    · have hreadable := readable_of_checkCameraBinding rfl rfl
        (exec_world still_checkCameraBinding hcheck)
      exact (cachedTemplateKey_iff hvalid).2 (h hreadable) r y hcached

end Linhello.Daemon
