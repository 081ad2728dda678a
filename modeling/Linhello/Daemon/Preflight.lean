import Linhello.Daemon.Append
import Linhello.Daemon.Planning
import Linhello.Host.Surroundings
/-!
# The pre-flight and the attempt

`AuthIntent` answers from the policy alone. An `Authenticate` in the same state
follows the same plan, but before it opens the camera it loads the binding, the
key and the template. `intent_agrees_iff` says in which states the two agree.
-/

namespace Linhello.Daemon

open Common Linhello.Core Effect Host Host.World Liveness Biometrics

variable {env : Surroundings} {sealed : SealedEnvelope → Option Bytes} {w w' : World}
  {pr : Process} {user service : String} {peerUid : Option Nat} {peerIsRoot : Bool}

/-! ## What loading the samples needs -/

def snapshotIn (env : Surroundings) : CameraBinding where
  rgb := (env.answer (.probeCamera (env.answer .rgbDevice))).getD
    { vid := "", pid := "", serial := "", name := "unknown" }
  ir := match env.answer .irDevice with
    | none => none
    | some path => env.answer (.probeCamera path)

/-- There is no binding, or the resolved cameras satisfy it. -/
def BindingHolds (env : Surroundings) (user : String) (w : World) : Prop :=
  ∀ json, w.file (.user user .cameraBinding) = some json →
    ∃ b, json = .value b ∧ b.verify (snapshotIn env) = .ok ()

/-- The key the daemon gets for a user: the cached one, the sealed one, or a fresh
one if there is no envelope. -/
def keyIn (env : Surroundings) (sealed : SealedEnvelope → Option Bytes) (user : String)
    (w : World) : Option Bytes :=
  match w.cache.lookup user with
  | some key => some key
  | none =>
      match w.file (.user user .templateKeyEnvelope) with
      | none => some (env.answer (.randomBytes KEY_LEN))
      | some (.value envelope) => sealed envelope
      | some _ => none

/-- The template the daemon reads with a key: the encrypted one, or a legacy one it
may migrate. -/
def templateIn (env : Surroundings) (pr : Process) (user : String) (key : Bytes) (w : World) :
    Option Bytes :=
  match w.file (.user user .embeddingEnc) with
  | some blob => (decrypt pr.cl key blob).toOption
  | none =>
      match w.file (.user user .embeddingBin) with
      | none => none
      | some raw =>
          if legacyMigrationAllowed pr = true ∧ key.length = KEY_LEN ∧
              (pr.cl.aeadSeal key (env.answer (.randomBytes NONCE_LEN)) raw).isSome = true then
            some raw
          else none

/-- A user whose samples can be loaded. -/
structure Loadable (env : Surroundings) (sealed : SealedEnvelope → Option Bytes) (pr : Process)
    (user : String) (w : World) : Prop where
  binding : BindingHolds env user w
  samples : ∃ key raw samples, keyIn env sealed user w = some key ∧
    templateIn env pr user key w = some raw ∧ parseRawEmbeddings pr.fl raw = .ok samples

/-! ## The binding -/

theorem fromDevice_calm {path : String} {n : Nat} {id : Option DeviceIdentity}
    (h : Exec (calm env sealed) (fromDevice path (n + 1)) w id w') :
    id = env.answer (.probeCamera path) ∧ w' = w := by
  induction n with
  | zero =>
      obtain ⟨r, v, hr, hret⟩ := h
      obtain ⟨rfl, rfl⟩ := calm_surrounds rfl hr
      cases hprobe : (env.answer (.probeCamera path) : Option DeviceIdentity) with
      | none => rw [hprobe] at hret; exact hret
      | some d => rw [hprobe] at hret; exact hret
  | succ n ih =>
      obtain ⟨r, v, hr, hret⟩ := h
      obtain ⟨rfl, rfl⟩ := calm_surrounds rfl hr
      cases hprobe : (env.answer (.probeCamera path) : Option DeviceIdentity) with
      | none =>
          rw [hprobe] at hret
          rw [← hprobe]
          exact ih hret
      | some d => rw [hprobe] at hret; exact hret

theorem snapshotCameraBinding_calm {b : CameraBinding}
    (h : Exec (calm env sealed) snapshotCameraBinding w b w') : b = snapshotIn env ∧ w' = w := by
  obtain ⟨rgbPath, v₁, hrgbPath, h₁⟩ := exec_bind.1 h
  obtain ⟨irPath, v₂, hirPath, h₂⟩ := exec_bind.1 h₁
  obtain ⟨rgb, v₃, hrgb, h₃⟩ := exec_bind.1 h₂
  obtain ⟨rfl, rfl⟩ := calm_surrounds rfl (exec_perform.1 hrgbPath)
  obtain ⟨rfl, rfl⟩ := calm_surrounds rfl (exec_perform.1 hirPath)
  obtain ⟨rfl, rfl⟩ := fromDevice_calm hrgb
  unfold snapshotIn
  cases hir : (env.answer .irDevice : Option String) with
  | none =>
      rw [hir] at h₃
      exact h₃
  | some path =>
      rw [hir] at h₃
      obtain ⟨ir, v₄, hprobe, hret⟩ := exec_bind.1 h₃
      obtain ⟨rfl, rfl⟩ := fromDevice_calm hprobe
      exact hret

/-- The check passes exactly when the binding holds, and changes nothing. -/
theorem checkCameraBinding_calm {r : Except String Unit}
    (h : Exec (calm env sealed) (checkCameraBinding user).run w r w') :
    w' = w ∧ (r = .ok () ↔ BindingHolds env user w) := by
  unfold checkCameraBinding at h
  obtain ⟨present, v, hpresent, h₁⟩ := exec_lift_bind.1 h
  obtain ⟨rfl, rfl⟩ := calm_pathExists (exec_perform.1 hpresent)
  unfold BindingHolds
  cases hfile : v.file (.user user .cameraBinding) with
  | none =>
      rw [hfile] at h₁
      obtain ⟨rfl, rfl⟩ := h₁
      exact ⟨rfl, by simp⟩
  | some json =>
      rw [hfile] at h₁
      obtain ⟨x, u, hread, h₂⟩ := exec_lift_bind.1 h₁
      obtain ⟨rfl, rfl⟩ := calm_read_some hfile (exec_perform.1 hread)
      cases json with
      | invalidUtf8 =>
          obtain ⟨rfl, rfl⟩ := h₂
          exact ⟨rfl, by simp⟩
      | malformed e =>
          obtain ⟨rfl, rfl⟩ := h₂
          exact ⟨rfl, by simp⟩
      | value b =>
          obtain ⟨current, t, hcurrent, h₃⟩ := exec_lift_bind.1 h₂
          obtain ⟨rfl, rfl⟩ := snapshotCameraBinding_calm hcurrent
          obtain ⟨rfl, rfl⟩ := h₃
          refine ⟨rfl, ?_⟩
          constructor
          · intro hok json hjson
            exact ⟨b, (Option.some.inj hjson).symm, hok⟩
          · intro hall
            obtain ⟨b', hb', hok⟩ := hall _ rfl
            obtain rfl := Json.value.inj hb'
            exact hok

/-! ## The key -/

theorem load_calm {p : Path} {as : p.Data → Json SealedEnvelope}
    {d : p.Data} {r : Except LinuxHelloError SealedEnvelope} (hfile : w.file p = some d)
    (h : Exec (calm env sealed) (SealedEnvelope.load p as).run w r w') :
    r = (as d).parse ∧ w' = w := by
  have hread : ∀ x t, Exec (calm env sealed) (perform (.read p)) w x t → x = .ok d ∧ t = w :=
    fun x t hx => calm_read_some hfile (exec_perform.1 hx)
  exact exec_io_bind_of_ok hread h

/-- The sealed key, if the envelope can be read and the TPM opens it. -/
theorem unsealTemplateKey_calm {json : Json SealedEnvelope} {r : Except LinuxHelloError Bytes}
    (huser : validateUser user = .ok ())
    (hfile : w.file (.user user .templateKeyEnvelope) = some json)
    (h : Exec (calm env sealed) (unsealTemplateKey user).run w r w') :
    (∀ envelope key, json = .value envelope → sealed envelope = some key → r = .ok key) ∧
      ((∀ envelope, json = .value envelope → sealed envelope = none) → ∃ e, r = .error e) := by
  have hload := exec_orFail_bind_ok huser h
  rcases exec_exceptT_bind.1 hload with ⟨envelope, v, henv, hunseal⟩ | ⟨e, henv, rfl⟩
  · obtain ⟨hparse, rfl⟩ := load_calm hfile henv
    obtain rfl := parse_eq_ok.1 hparse.symm
    obtain ⟨hok, hnone, -⟩ := calm_tpmUnseal (exec_perform.1 hunseal)
    refine ⟨fun envelope' key hjson hkey => ?_, fun hall => hnone (hall _ rfl)⟩
    obtain rfl := Json.value.inj hjson
    exact hok key hkey
  · obtain ⟨hparse, -⟩ := load_calm hfile henv
    refine ⟨fun envelope key hjson _ => ?_, fun _ => ⟨e, rfl⟩⟩
    subst hjson
    cases hparse

theorem save_calm {envelope : SealedEnvelope} {f : UserFile} {as : Json SealedEnvelope → f.Data}
    {r : Except LinuxHelloError Unit}
    (h : Exec (calm env sealed) (envelope.save (.user user f) as).run w r w') :
    r = .ok () ∧ (w'.file (.user user f)).isSome = true := by
  have hmkdir : ∀ x t, Exec (calm env sealed) (perform (.createDirAll (some user))) w x t →
      x = .ok () ∧ t = w.mkdir (some user) := fun x t hx => calm_createDirAll (exec_perform.1 hx)
  have hdir : (w.mkdir (some user)).hasDir (some user) = true := hasDir_mkdir.2 (.inl rfl)
  unfold SealedEnvelope.save at h
  have hwrite := exec_io_bind_of_ok hmkdir h
  obtain ⟨x, hx, hr⟩ := exec_io.1 hwrite
  obtain ⟨rfl, rfl⟩ := calm_write (p := .user user f) hdir (exec_perform.1 hx)
  exact ⟨hr, by rw [file_set_self, Option.isSome_some]⟩

/-- Without an envelope a fresh key is drawn, sealed and stored. -/
theorem ensureTemplateKey_calm {r : Except LinuxHelloError Bytes}
    (huser : validateUser user = .ok ())
    (hfile : w.file (.user user .templateKeyEnvelope) = none)
    (h : Exec (calm env sealed) (ensureTemplateKey user).run w r w') :
    r = .ok (env.answer (.randomBytes KEY_LEN)) := by
  unfold ensureTemplateKey at h
  have h₀ := exec_orFail_bind_ok huser h
  obtain ⟨present, v₁, hpresent, h₁⟩ := exec_lift_bind.1 h₀
  obtain ⟨rfl, rfl⟩ := calm_pathExists (exec_perform.1 hpresent)
  rw [hfile] at h₁
  obtain ⟨key, v₂, hkey, h₂⟩ := exec_lift_bind.1 h₁
  obtain ⟨rfl, rfl⟩ := calm_surrounds rfl (exec_perform.1 hkey)
  rcases exec_exceptT_bind.1 h₂ with ⟨envelope, v₃, -, h₃⟩ | ⟨e, he, -⟩
  · rcases exec_exceptT_bind.1 h₃ with ⟨_, v₄, hsave, h₄⟩ | ⟨e, hsave, -⟩
    · have hchmod : ∀ x t, Exec (calm env sealed)
          (perform (.setPermissions (.user user .templateKeyEnvelope))) v₄ x t →
          x = .ok () ∧ t = v₄ :=
        fun x t hx => calm_setPermissions (save_calm hsave).2 (exec_perform.1 hx)
      exact (exec_io_bind_of_ok hchmod h₄).1
    · cases (save_calm hsave).1
  · obtain ⟨envelope, henv, -⟩ := calm_tpmSeal (exec_perform.1 he)
    cases henv

theorem ensureTemplateKey_present {json : Json SealedEnvelope} {r : Except LinuxHelloError Bytes}
    (huser : validateUser user = .ok ())
    (hfile : w.file (.user user .templateKeyEnvelope) = some json)
    (h : Exec (calm env sealed) (ensureTemplateKey user).run w r w') :
    Exec (calm env sealed) (unsealTemplateKey user).run w r w' := by
  unfold ensureTemplateKey at h
  have h₀ := exec_orFail_bind_ok huser h
  obtain ⟨present, v₁, hpresent, h₁⟩ := exec_lift_bind.1 h₀
  obtain ⟨rfl, rfl⟩ := calm_pathExists (exec_perform.1 hpresent)
  rwa [hfile] at h₁

/-- A key that has been fetched is inserted into the cache and returned. -/
theorem cachedTemplateKey_of_miss {r : Except String Bytes} (hmiss : w.cache.lookup user = none)
    (h : Exec (calm env sealed) (cachedTemplateKey user).run w r w') :
    ∃ x v, Exec (calm env sealed) (ensureTemplateKey user).run w x v ∧
      r = x.mapError LinuxHelloError.display := by
  obtain ⟨cached, v, hcached, h₁⟩ := exec_lift_bind.1 h
  obtain ⟨⟨hallows, rfl⟩, -⟩ := exec_perform.1 hcached
  simp only [allows, decide_eq_true_eq] at hallows
  rw [hallows, hmiss] at h₁
  rcases exec_exceptT_bind.1 h₁ with ⟨key, u, hkey, h₂⟩ | ⟨e, he, rfl⟩
  · obtain ⟨x, hx, hok⟩ := exec_map.1 hkey
    obtain rfl := mapError_eq_ok.1 hok.symm
    obtain ⟨_, t, -, hret⟩ := exec_lift_bind.1 h₂
    exact ⟨_, _, hx, hret.1⟩
  · obtain ⟨x, hx, hmap⟩ := exec_map.1 he
    cases x with
    | ok key => cases hmap
    | error e' => exact ⟨_, _, hx, congrArg _ (Except.error.inj hmap)⟩

theorem cachedTemplateKey_calm {r : Except String Bytes} (huser : validateUser user = .ok ())
    (h : Exec (calm env sealed) (cachedTemplateKey user).run w r w') :
    (∀ key, keyIn env sealed user w = some key → r = .ok key) ∧
      (keyIn env sealed user w = none → ∃ e, r = .error e) := by
  unfold keyIn
  cases hlookup : w.cache.lookup user with
  | some key =>
      obtain ⟨cached, v, hcached, h₁⟩ := exec_lift_bind.1 h
      obtain ⟨⟨hallows, rfl⟩, -⟩ := exec_perform.1 hcached
      simp only [allows, decide_eq_true_eq] at hallows
      rw [hallows, hlookup] at h₁
      obtain ⟨rfl, -⟩ := h₁
      exact ⟨fun key' hkey => by rw [Option.some.inj hkey], fun hnone => by cases hnone⟩
  | none =>
      obtain ⟨x, v, hx, rfl⟩ := cachedTemplateKey_of_miss hlookup h
      cases hfile : w.file (.user user .templateKeyEnvelope) with
      | none =>
          obtain rfl := ensureTemplateKey_calm huser hfile hx
          exact ⟨fun key hkey => by rw [← Option.some.inj hkey]; rfl, fun hnone => by cases hnone⟩
      | some json =>
          obtain ⟨hok, herror⟩ :=
            unsealTemplateKey_calm huser hfile (ensureTemplateKey_present huser hfile hx)
          have hfail : (∃ e, x = .error e) →
              ∃ e, x.mapError LinuxHelloError.display = .error e := by
            rintro ⟨e, rfl⟩
            exact ⟨_, rfl⟩
          cases json with
          | value envelope =>
              refine ⟨fun key hkey => by rw [hok _ _ rfl hkey]; rfl, fun hnone => ?_⟩
              refine hfail (herror fun envelope' henv => ?_)
              rwa [← Json.value.inj henv]
          | invalidUtf8 =>
              exact ⟨fun key hkey => (by cases hkey), fun _ =>
                hfail (herror fun _ henv => by cases henv)⟩
          | malformed e =>
              exact ⟨fun key hkey => (by cases hkey), fun _ =>
                hfail (herror fun _ henv => by cases henv)⟩

/-! ## The template -/

theorem encrypt_calm {key raw : Bytes} {r : Except LinuxHelloError Bytes}
    (h : Exec (calm env sealed) (encrypt pr.cl key raw).run w r w') :
    w' = w ∧ ((∃ blob, r = .ok blob) ↔ key.length = KEY_LEN ∧
      (pr.cl.aeadSeal key (env.answer (.randomBytes NONCE_LEN)) raw).isSome = true) := by
  unfold encrypt at h
  by_cases hkey : key.length = KEY_LEN
  · rw [if_neg (not_not.2 hkey)] at h
    obtain ⟨nonce, v, hnonce, h₁⟩ := exec_lift_bind.1 h
    obtain ⟨rfl, rfl⟩ := calm_surrounds rfl (exec_perform.1 hnonce)
    obtain ⟨rfl, rfl⟩ := h₁
    refine ⟨rfl, ?_⟩
    unfold encryptWith
    cases pr.cl.aeadSeal key (env.answer (.randomBytes NONCE_LEN)) raw with
    | none => simp
    | some ct => simp [hkey]
  · rw [if_pos hkey] at h
    obtain ⟨rfl, rfl⟩ := h
    refine ⟨rfl, ?_⟩
    constructor
    · rintro ⟨blob, hblob⟩
      cases hblob
    · exact fun hlen => absurd hlen.1 hkey

theorem saveEncryptedEmbedding_calm {key raw : Bytes} {r : Except LinuxHelloError Unit}
    (huser : validateUser user = .ok ())
    (h : Exec (calm env sealed) (saveEncryptedEmbedding pr.cl user raw key).run w r w') :
    r = .ok () ↔ key.length = KEY_LEN ∧
      (pr.cl.aeadSeal key (env.answer (.randomBytes NONCE_LEN)) raw).isSome = true := by
  unfold saveEncryptedEmbedding at h
  have h₀ := exec_orFail_bind_ok huser h
  have hmkdir : ∀ x t, Exec (calm env sealed) (perform (.createDirAll (some user))) w x t →
      x = .ok () ∧ t = w.mkdir (some user) := fun x t hx => calm_createDirAll (exec_perform.1 hx)
  have hdir : (w.mkdir (some user)).hasDir (some user) = true := hasDir_mkdir.2 (.inl rfl)
  have h₁ := exec_io_bind_of_ok hmkdir h₀
  rcases exec_exceptT_bind.1 h₁ with ⟨blob, v, henc, h₂⟩ | ⟨e, henc, rfl⟩
  · obtain ⟨rfl, hsealed⟩ := encrypt_calm henc
    have hwrite : ∀ x t, Exec (calm env sealed) (perform (.write (.user user .embeddingEnc) blob))
        (w.mkdir (some user)) x t →
        x = .ok () ∧ t = (w.mkdir (some user)).set (.user user .embeddingEnc) blob :=
      fun x t hx => calm_write (p := .user user .embeddingEnc) hdir (exec_perform.1 hx)
    have h₃ := exec_io_bind_of_ok hwrite h₂
    have hfile : (((w.mkdir (some user)).set (.user user .embeddingEnc) blob).file
        (.user user .embeddingEnc)).isSome = true := by
      rw [file_set_self, Option.isSome_some]
    have hchmod :
        ∀ x t, Exec (calm env sealed) (perform (.setPermissions (.user user .embeddingEnc)))
        ((w.mkdir (some user)).set (.user user .embeddingEnc) blob) x t →
        x = .ok () ∧ t = (w.mkdir (some user)).set (.user user .embeddingEnc) blob :=
      fun x t hx => calm_setPermissions hfile (exec_perform.1 hx)
    have h₄ := exec_io_bind_of_ok hchmod h₃
    obtain ⟨_, u, -, hret⟩ := exec_lift_bind.1 h₄
    exact iff_of_true hret.1 (hsealed.1 ⟨blob, rfl⟩)
  · obtain ⟨-, hsealed⟩ := encrypt_calm henc
    refine iff_of_false (by simp) fun hlen => ?_
    obtain ⟨blob, hblob⟩ := hsealed.2 hlen
    cases hblob

theorem loadEncryptedEmbedding_calm {key : Bytes} {r : Except LinuxHelloError Bytes}
    (huser : validateUser user = .ok ())
    (h : Exec (calm env sealed) (loadEncryptedEmbedding pr user key).run w r w') :
    (∀ raw, templateIn env pr user key w = some raw → r = .ok raw) ∧
      (templateIn env pr user key w = none → ∃ e, r = .error e) := by
  unfold loadEncryptedEmbedding at h
  have h₀ := exec_orFail_bind_ok huser h
  obtain ⟨present, v, hpresent, h₁⟩ := exec_lift_bind.1 h₀
  obtain ⟨rfl, rfl⟩ := calm_pathExists (exec_perform.1 hpresent)
  unfold templateIn
  cases hfile : v.file (.user user .embeddingEnc) with
  | some blob =>
      rw [hfile] at h₁
      have hread :
          ∀ x t, Exec (calm env sealed) (perform (.read (.user user .embeddingEnc))) v x t →
          x = .ok blob ∧ t = v := fun x t hx => calm_read_some hfile (exec_perform.1 hx)
      obtain ⟨hr, -⟩ := exec_io_bind_of_ok hread h₁
      simp only
      cases hdec : decrypt pr.cl key blob with
      | ok raw =>
          rw [hdec] at hr
          exact ⟨fun raw' hraw => hr.trans (congrArg _ (Option.some.inj hraw)),
            fun hnone => by cases hnone⟩
      | error e =>
          rw [hdec] at hr
          exact ⟨fun raw' hraw => (by cases hraw), fun _ => ⟨e, hr⟩⟩
  | none =>
      rw [hfile] at h₁
      obtain ⟨legacy, u, hlegacy, h₂⟩ := exec_lift_bind.1 h₁
      obtain ⟨rfl, rfl⟩ := calm_pathExists (exec_perform.1 hlegacy)
      cases hbin : u.file (.user user .embeddingBin) with
      | none =>
          rw [hbin] at h₂
          obtain ⟨rfl, -⟩ := h₂
          exact ⟨fun raw hraw => (by cases hraw), fun _ => ⟨_, rfl⟩⟩
      | some raw =>
          rw [hbin] at h₂
          simp only
          by_cases hallowed : legacyMigrationAllowed pr = true
          · rw [Option.isSome_some, if_pos rfl, hallowed] at h₂
            have hread :
                ∀ x t, Exec (calm env sealed) (perform (.read (.user user .embeddingBin))) u
                x t → x = .ok raw ∧ t = u := fun x t hx => calm_read_some hbin (exec_perform.1 hx)
            have h₃ := exec_io_bind_of_ok hread h₂
            rcases exec_exceptT_bind.1 h₃ with ⟨_, t, hsave, h₄⟩ | ⟨e, hsave, rfl⟩
            · have hlen := (saveEncryptedEmbedding_calm huser hsave).1 rfl
              obtain ⟨_, t', -, hret⟩ := exec_lift_bind.1 h₄
              rw [if_pos ⟨hallowed, hlen⟩]
              exact ⟨fun raw' hraw => by rw [← Option.some.inj hraw]; exact hret.1,
                fun hnone => by cases hnone⟩
            · have hlen := mt (saveEncryptedEmbedding_calm huser hsave).2 (by simp)
              rw [if_neg fun hc => hlen hc.2]
              exact ⟨fun raw' hraw => (by cases hraw), fun _ => ⟨e, rfl⟩⟩
          · rw [if_neg fun hc => hallowed hc.1]
            rw [Bool.not_eq_true] at hallowed
            rw [Option.isSome_some, if_pos rfl, hallowed] at h₂
            obtain ⟨rfl, -⟩ := h₂
            exact ⟨fun raw' hraw => (by cases hraw), fun _ => ⟨_, rfl⟩⟩

/-! ## Loading the samples -/

private theorem templateIn_congr {key : Bytes}
    (henc : w'.file (.user user .embeddingEnc) = w.file (.user user .embeddingEnc))
    (hbin : w'.file (.user user .embeddingBin) = w.file (.user user .embeddingBin)) :
    templateIn env pr user key w' = templateIn env pr user key w := by
  unfold templateIn
  rw [henc, hbin]

/-- The samples of a user can be loaded exactly in the states described. -/
theorem loadUserSamples_calm {r : Except String (List (List ℚ))}
    (huser : validateUser user = .ok ())
    (h : Exec (calm env sealed) (loadUserSamples pr user).run w r w') :
    (∃ samples, r = .ok samples) ↔ Loadable env sealed pr user w := by
  unfold loadUserSamples at h
  rcases exec_exceptT_bind.1 h with ⟨_, v₁, hcheck, h₁⟩ | ⟨e, hcheck, rfl⟩
  · obtain ⟨rfl, hbinding⟩ := checkCameraBinding_calm hcheck
    have hholds := hbinding.1 rfl
    rcases exec_exceptT_bind.1 h₁ with ⟨key, v₂, hkey, h₂⟩ | ⟨e, hkey, rfl⟩
    · obtain ⟨x, hx, hok⟩ := exec_map.1 hkey
      obtain rfl := mapError_eq_ok.1 hok.symm
      obtain ⟨hsome, hnone⟩ := cachedTemplateKey_calm huser hx
      have hkeyIn : keyIn env sealed user v₁ = some key := by
        cases hin : keyIn env sealed user v₁ with
        | none =>
            obtain ⟨e, he⟩ := hnone hin
            cases he
        | some key' => rw [← Except.ok.inj (hsome key' hin)]
      have htemplate : templateIn env pr user key v₂ = templateIn env pr user key v₁ := by
        have hspares : ∀ {p : Path}, p ≠ .user user .templateKeyEnvelope → v₂.file p = v₁.file p :=
          fun hp => file_of_spares (only_cachedTemplateKey.imp fun _ => spares_of_keyOp hp)
            (exec_of_within hx)
        exact templateIn_congr (hspares (by simp)) (hspares (by simp))
      have hloadable : Loadable env sealed pr user v₁ ↔ ∃ raw samples,
          templateIn env pr user key v₂ = some raw ∧
            parseRawEmbeddings pr.fl raw = .ok samples := by
        rw [htemplate]
        constructor
        · rintro ⟨-, key', raw, samples, hkey', hraw, hparse⟩
          obtain rfl := Option.some.inj (hkeyIn.symm.trans hkey')
          exact ⟨raw, samples, hraw, hparse⟩
        · rintro ⟨raw, samples, hraw, hparse⟩
          exact ⟨hholds, key, raw, samples, hkeyIn, hraw, hparse⟩
      rw [hloadable]
      rcases exec_exceptT_bind.1 h₂ with ⟨raw, v₃, hraw, h₃⟩ | ⟨e, hraw, rfl⟩
      · obtain ⟨hsome, hnone⟩ := loadEncryptedEmbedding_calm huser (exec_displayed_ok.1 hraw)
        have hin : templateIn env pr user key v₂ = some raw := by
          cases hin : templateIn env pr user key v₂ with
          | none =>
              obtain ⟨e, he⟩ := hnone hin
              cases he
          | some raw' => rw [← Except.ok.inj (hsome raw' hin)]
        obtain ⟨rfl, -⟩ := h₃
        constructor
        · rintro ⟨samples, hsamples⟩
          exact ⟨raw, samples, hin, mapError_eq_ok.1 hsamples⟩
        · rintro ⟨raw', samples, hraw', hparse⟩
          obtain rfl := Option.some.inj (hin.symm.trans hraw')
          exact ⟨samples, mapError_eq_ok.2 hparse⟩
      · refine iff_of_false (by simp) ?_
        rintro ⟨raw, samples, hin, -⟩
        obtain ⟨x, hx, herr⟩ := exec_map.1 hraw
        obtain ⟨hsome, -⟩ := loadEncryptedEmbedding_calm huser hx
        rw [hsome raw hin] at herr
        cases herr
    · refine iff_of_false (by simp) ?_
      rintro ⟨-, key, raw, samples, hkeyIn, -⟩
      obtain ⟨x, hx, herr⟩ := exec_map.1 hkey
      obtain ⟨hsome, -⟩ := cachedTemplateKey_calm huser hx
      rw [hsome key hkeyIn] at herr
      cases herr
  · refine iff_of_false (by simp) ?_
    rintro ⟨hholds, -⟩
    obtain ⟨-, hbinding⟩ := checkCameraBinding_calm hcheck
    cases hbinding.2 hholds

/-! ## Captures -/

def Captures (events : List (Event host)) : Prop := ∃ e ∈ events, isCapture e.1 = true

theorem not_captures_of_only {α : Type} {S : Semantics host World} {p : Proc α}
    {x y : World × List (Event host)} {a : α} (hp : p.Only fun o => isCapture o = false)
    (h : Exec (recorded S) p x a y) (hx : ¬ Captures x.2) : ¬ Captures y.2 := by
  rintro ⟨e, he, hcapture⟩
  rcases hp.recorded h e he with hmem | hnot
  · exact hx ⟨e, hmem, hcapture⟩
  · rw [hnot] at hcapture
    cases hcapture

theorem captures_of_exec {α : Type} {S : Semantics host World} {p : Proc α}
    {x y : World × List (Event host)} {a : α} (h : Exec (recorded S) p x a y)
    (hx : Captures x.2) : Captures y.2 := by
  obtain ⟨e, he, hcapture⟩ := hx
  exact ⟨e, (prefix_of_exec_recorded h).subset he, hcapture⟩

/-- A gated capture opens the camera before anything can stop it. -/
theorem captures_captureEmbedGated {S : Semantics host World} {r : Except String (List F32)}
    {x y : World × List (Event host)}
    (h : Exec (recorded S) (captureEmbedGated pr user).run x r y) : Captures y.2 := by
  obtain ⟨path, x₁, -, frames, x₂, ⟨-, hx₂⟩, hrest⟩ := h
  refine captures_of_exec hrest ⟨⟨.captureBurst path _, frames⟩, ?_, rfl⟩
  rw [hx₂]
  exact List.mem_append_right _ List.mem_cons_self

def isPlain : Op → Bool
  | .captureBurst _ _ | .captureIrFrom _ | .tpmSeal _ => false
  | _ => true

theorem noCapture_of_isPlain {o : Op} (h : isPlain o = true) : isCapture o = false := by
  cases o <;> first | rfl | cases h

theorem plain_loadEncryptedEmbedding {key : Bytes} :
    (loadEncryptedEmbedding pr user key).run.Only fun o => isPlain o = true := by
  refine only_exceptT_bind only_orFail fun _ => ?_
  refine only_exceptT_bind (only_exceptT_lift (only_perform rfl)) fun present => ?_
  cases present with
  | true => exact only_exceptT_bind (only_io (only_perform rfl)) fun _ => only_orFail
  | false =>
      refine only_exceptT_bind (only_exceptT_lift (only_perform rfl)) fun legacy => ?_
      cases legacy with
      | false => exact .ret _
      | true =>
          rw [if_pos rfl]
          by_cases hmigrate : (!legacyMigrationAllowed pr) = true
          · rw [if_pos hmigrate]
            exact .ret _
          · rw [if_neg hmigrate]
            refine only_exceptT_bind (only_io (only_perform rfl)) fun raw => ?_
            refine only_exceptT_bind ?_ fun _ =>
              only_exceptT_bind (only_exceptT_lift (only_perform rfl)) fun _ => .ret _
            refine only_exceptT_bind only_orFail fun _ => ?_
            refine only_exceptT_bind (only_io (only_perform rfl)) fun _ => ?_
            refine only_exceptT_bind ?_ fun blob => ?_
            · unfold encrypt
              split
              · exact .ret _
              · exact only_exceptT_bind (only_exceptT_lift (only_perform rfl)) fun _ => only_orFail
            · refine only_exceptT_bind (only_io (only_perform rfl)) fun _ => ?_
              refine only_exceptT_bind (only_io (only_perform rfl)) fun _ => ?_
              exact only_exceptT_bind (only_exceptT_lift (only_perform rfl)) fun _ => .ret _

private theorem noCapture_of_keyOp {o : Op} (h : keyOp user o) : isCapture o = false := by
  cases o <;> first | rfl | cases h

theorem noCapture_loadUserSamples :
    (loadUserSamples pr user).run.Only fun o => isCapture o = false := by
  refine only_exceptT_bind ?_ fun _ => ?_
  · have hglances : (checkCameraBinding user).run.Only (glances fun _ => True) :=
      glances_checkCameraBinding trivial
    exact hglances.imp fun _ h => h.2
  · refine only_exceptT_bind (only_map (only_cachedTemplateKey.imp fun _ => noCapture_of_keyOp))
      fun key => ?_
    exact only_exceptT_bind
      (only_map (plain_loadEncryptedEmbedding.imp fun _ => noCapture_of_isPlain))
      fun _ => .ret _

/-- Load the samples, then capture: what `Verify` and the two releases begin with. -/
theorem captures_iff_loadable {f : List (List ℚ) → Except String (List F32) → Proc Response}
    {resp : Response} {x y : World × List (Event host)} (huser : validateUser user = .ok ())
    (hx : ¬ Captures x.2)
    (h : Exec (recorded (calm env sealed)) ((loadUserSamples pr user).run >>= fun loaded =>
      match loaded with
      | .error e => pure (.error e)
      | .ok samples => (captureEmbedGated pr user).run >>= f samples) x resp y) :
    Captures y.2 ↔ Loadable env sealed pr user x.1 := by
  obtain ⟨loaded, z, hload, hrest⟩ := exec_bind.1 h
  rw [← loadUserSamples_calm huser (exec_of_recorded hload)]
  cases loaded with
  | error e =>
      obtain ⟨-, rfl⟩ := hrest
      exact iff_of_false (not_captures_of_only noCapture_loadUserSamples hload hx) (by simp)
  | ok samples =>
      obtain ⟨live, t, hlive, hend⟩ := exec_bind.1 hrest
      exact iff_of_true (captures_of_exec hend (captures_captureEmbedGated hlive)) ⟨samples, rfl⟩

/-! ## The two requests -/

/-- Whether the session of a user is warm in the surroundings. -/
def warmIn (env : Surroundings) (user : String) : Bool :=
  match env.answer (.uidForName user) with
  | none => false
  | some uid =>
      match env.answer (.readText ("/run/systemd/users/" ++ toString uid)) with
      | some text => stateIsLive text
      | none => false

def MayAct (env : Surroundings) (peerUid : Option Nat) (user : String) : Prop :=
  peerUid = some 0 ∨ ∃ uid, peerUid = some uid ∧ env.answer (.uidForName user) = some uid

/-- The peer may ask about the user, and the policy lets a face in. -/
structure Engages (env : Surroundings) (user service : String) (peerUid : Option Nat) (w : World) :
    Prop where
  peer : MayAct env peerUid user
  name : validateUser user = .ok ()
  action : actionIn user service (isRoot peerUid) (warmIn env user) w ≠ .deny

private theorem sessionWarm_calm {warm : Bool}
    (h : Exec (calm env sealed) (sessionWarm user) w warm w') :
    warm = warmIn env user := by
  unfold warmIn
  obtain ⟨uid, v, huid, h₁⟩ := exec_bind.1 h
  obtain ⟨rfl, rfl⟩ := calm_surrounds rfl (exec_perform.1 huid)
  cases hname : (env.answer (.uidForName user) : Option Nat) with
  | none =>
      rw [hname] at h₁
      exact h₁.1
  | some uid =>
      rw [hname] at h₁
      obtain ⟨text, u, htext, h₂⟩ := exec_bind.1 h₁
      obtain ⟨rfl, rfl⟩ := calm_surrounds rfl (exec_perform.1 htext)
      simp only
      cases hread :
        (env.answer (.readText ("/run/systemd/users/" ++ toString uid)) : Option String) with
      | none =>
          rw [hread] at h₂
          exact h₂.1
      | some text =>
          rw [hread] at h₂
          exact h₂.1

theorem planAction_calm {plan : Plan}
    (h : Exec (calm env sealed) (planAction user service peerIsRoot) w plan w') :
    w' = w ∧ plan.action = actionIn user service peerIsRoot (warmIn env user) w := by
  have hwarm : plan.warm = warmIn env user := by
    obtain ⟨warm, v, hsession, h₁⟩ := exec_bind.1 h
    obtain ⟨_, _, -, h₂⟩ := exec_bind.1 h₁
    obtain ⟨_, _, -, h₃⟩ := exec_bind.1 h₂
    obtain ⟨_, _, -, rfl, -⟩ := exec_bind.1 h₃
    exact sessionWarm_calm hsession
  have hplan := exec_of_within h
  refine ⟨(exec_planAction.1 hplan).1, ?_⟩
  rw [← hwarm]
  exact (plansAction_iff rfl).1 ⟨plan, ⟨w', hplan⟩, rfl, rfl⟩

theorem peerMayActAs_calm {b : Bool}
    (h : Exec (calm env sealed) (peerMayActAs peerUid user) w b w') :
    w' = w ∧ (b = true ↔ MayAct env peerUid user) := by
  unfold MayAct
  cases peerUid with
  | none =>
      obtain ⟨rfl, rfl⟩ := h
      exact ⟨rfl, by simp⟩
  | some uid =>
      cases uid with
      | zero =>
          obtain ⟨rfl, rfl⟩ := h
          exact ⟨rfl, by simp⟩
      | succ n =>
          obtain ⟨owner, v, howner, hret⟩ := exec_bind.1 h
          obtain ⟨rfl, rfl⟩ := calm_surrounds rfl (exec_perform.1 howner)
          obtain ⟨rfl, rfl⟩ := hret
          exact ⟨rfl, by simp⟩

/-- The account check and the name check in front of a handler. -/
theorem ownAccount_calm {op : String} {handler : Proc Response} {resp : Response}
    {x y : World × List (Event host)}
    (h : Exec (recorded (calm env sealed)) (ownAccount peerUid op user handler) x resp y) :
    (MayAct env peerUid user ∧ validateUser user = .ok () ∧ ∃ z, z.1 = x.1 ∧
      (¬ Captures x.2 → ¬ Captures z.2) ∧ Exec (recorded (calm env sealed)) handler z resp y) ∨
    (¬ (MayAct env peerUid user ∧ validateUser user = .ok ()) ∧ (∃ m, resp = .error m) ∧
      (¬ Captures x.2 → ¬ Captures y.2)) := by
  obtain ⟨may, z, hmay, hrest⟩ := exec_bind.1 h
  have hnot : ¬ Captures x.2 → ¬ Captures z.2 := fun hx => by
    have hglances := glances_peerMayActAs (F := fun _ => True) peerUid user
    exact not_captures_of_only (hglances.imp fun _ h => h.2) hmay hx
  obtain ⟨hz, hiff⟩ := peerMayActAs_calm (exec_of_recorded hmay)
  cases may with
  | false =>
      obtain ⟨rfl, rfl⟩ := hrest
      have hforbidden : ¬ MayAct env peerUid user := fun hact => Bool.false_ne_true (hiff.2 hact)
      exact .inr ⟨fun hc => hforbidden hc.1, ⟨_, rfl⟩, hnot⟩
  | true =>
      change Exec _ (withUser user handler) z resp y at hrest
      unfold withUser at hrest
      cases hname : validateUser user with
      | error e =>
          rw [hname] at hrest
          obtain ⟨rfl, rfl⟩ := hrest
          exact .inr ⟨fun hc => (by cases hc.2), ⟨_, rfl⟩, hnot⟩
      | ok _ =>
          rw [hname] at hrest
          exact .inl ⟨hiff.1 rfl, rfl, z, hz, hnot, hrest⟩

/-- `AuthIntent` promises a capture exactly when the policy lets a face in. -/
theorem authIntent_calm {resp : Response}
    (h : Exec (calm env sealed) (dispatch pr (.authIntent user service) peerUid) w resp w') :
    ((∃ action notice, resp = .authPlan true action notice) ∧
      Engages env user service peerUid w) ∨
    (((∃ action notice, resp = .authPlan false action notice) ∨ ∃ m, resp = .error m) ∧
      ¬ Engages env user service peerUid w) := by
  obtain ⟨events, hrecorded⟩ := exec_recorded h []
  rcases ownAccount_calm hrecorded with ⟨hmay, hname, z, hz, -, hintent⟩ | ⟨hnot, herror, -⟩
  · obtain ⟨plan, v, hplan, hrest⟩ := exec_bind.1 hintent
    obtain ⟨-, haction⟩ := planAction_calm (exec_of_recorded hplan)
    rw [hz] at haction
    by_cases hdeny : plan.action = .deny
    · rw [if_pos hdeny] at hrest
      obtain ⟨notice, u, -, hresp, -⟩ := exec_bind.1 hrest
      refine .inr ⟨.inl ⟨Action.label plan.action, notice, ?_⟩, fun hengages =>
        hengages.action (haction.symm.trans hdeny)⟩
      rw [hresp, decide_eq_false (not_not.2 hdeny)]
    · rw [if_neg hdeny] at hrest
      obtain ⟨notice, u, -, hresp, -⟩ := exec_bind.1 hrest
      refine .inl ⟨⟨Action.label plan.action, notice, ?_⟩, hmay, hname, fun h =>
        hdeny (haction.trans h)⟩
      rw [hresp, decide_eq_true hdeny]
  · exact .inr ⟨.inr herror, fun hengages => hnot ⟨hengages.peer, hengages.name⟩⟩

/-- `Authenticate` opens the camera exactly when the policy lets a face in and the
samples can be loaded. -/
theorem authenticate_calm {resp : Response} {y : World × List (Event host)}
    (h : Exec (recorded (calm env sealed)) (dispatch pr (.authenticate user service) peerUid)
      (w, []) resp y) :
    Captures y.2 ↔ Engages env user service peerUid w ∧ Loadable env sealed pr user w := by
  have hstart : ¬ Captures ([] : List (Event host)) := by
    rintro ⟨e, he, -⟩
    cases he
  rcases ownAccount_calm h with ⟨hmay, hname, z, hz, hquiet, hauth⟩ | ⟨hnot, -, hquiet⟩
  · change Exec _ (doAuthenticate pr user service (isRoot peerUid)) z resp y at hauth
    rw [doAuthenticate_eq] at hauth
    obtain ⟨plan, v, hplan, hcarry⟩ := exec_bind.1 hauth
    obtain ⟨hv, haction⟩ := planAction_calm (exec_of_recorded hplan)
    have hvnot : ¬ Captures v.2 := by
      have hglances : (planAction user service (isRoot peerUid)).Only (glances fun _ => True) :=
        glances_planAction trivial trivial service (isRoot peerUid)
      exact not_captures_of_only (hglances.imp fun _ h => h.2) hplan (hquiet hstart)
    have hvw : v.1 = w := hv.trans hz
    rw [hz] at haction
    unfold carryOut at hcarry
    by_cases hdeny : plan.action = .deny
    · rw [hdeny] at hcarry
      obtain ⟨-, rfl⟩ := hcarry
      exact iff_of_false hvnot fun hc => hc.1.action (haction.symm.trans hdeny)
    · have hengages : Engages env user service peerUid w :=
        ⟨hmay, hname, fun h => hdeny (haction.trans h)⟩
      have hloadable : Captures y.2 ↔ Loadable env sealed pr user v.1 := by
        cases hact : plan.action with
        | deny => exact absurd hact hdeny
        | verify =>
            rw [hact] at hcarry
            exact captures_iff_loadable hname hvnot hcarry
        | «unseal» =>
            rw [hact] at hcarry
            exact captures_iff_loadable hname hvnot hcarry
      rw [hloadable, hvw]
      exact ⟨fun hl => ⟨hengages, hl⟩, fun hc => hc.2⟩
  · exact iff_of_false (hquiet hstart) fun hc => hnot ⟨hc.1.peer, hc.1.name⟩

/-! ## There is an attempt -/

theorem ne_tpmSeal_of_isPlain {o : Op} (h : isPlain o = true) (s : Bytes) : o ≠ .tpmSeal s := by
  rintro rfl
  cases h

theorem ne_tpmSeal_of_looks {F : Path → Prop} {o : Op} (h : looks F o) (s : Bytes) :
    o ≠ .tpmSeal s := by
  rintro rfl
  exact h

theorem answers_of_plain {α : Type} {p : Proc α} (hp : p.Only fun o => isPlain o = true) :
    Answers (calm env sealed) p :=
  hp.answers fun w _ ho => calm_answers (ne_tpmSeal_of_isPlain ho) w

theorem answers_of_looks {α : Type} {F : Path → Prop} {p : Proc α} (hp : p.Only (looks F)) :
    Answers (calm env sealed) p :=
  hp.answers fun w _ ho => calm_answers (ne_tpmSeal_of_looks ho) w

private theorem answers_cachedTemplateKey
    (hseal : ∀ key : Bytes, key.length = KEY_LEN → ∃ envelope, sealed envelope = some key) :
    Answers (calm env sealed) (cachedTemplateKey user).run := by
  have hperform : ∀ {o : Op}, isPlain o = true → Answers (calm env sealed) (perform o) :=
    fun ho => answers_of_plain (only_perform ho)
  refine Answers.exceptT_bind (Answers.map (hperform rfl)) fun cached => ?_
  cases cached with
  | some key => exact .ret _
  | none =>
      refine Answers.exceptT_bind (Answers.map ?_)
        fun key => Answers.exceptT_bind (Answers.map (hperform rfl)) fun _ => .ret _
      refine Answers.exceptT_bind (.ret _) fun _ => ?_
      refine Answers.exceptT_bind (Answers.map (hperform rfl)) fun present => ?_
      cases present with
      | true =>
          refine Answers.exceptT_bind (.ret _) fun _ =>
            Answers.exceptT_bind ?_ fun _ => hperform rfl
          exact Answers.exceptT_bind (Answers.map (hperform rfl)) fun _ => .ret _
      | false =>
          intro w
          obtain ⟨envelope, henvelope⟩ := hseal _ (env.random KEY_LEN)
          have hsave : Answers (calm env sealed)
              (ExceptT.run (do
                envelope.save (.user user .templateKeyEnvelope) id
                io (perform (.setPermissions (.user user .templateKeyEnvelope)))
                pure (env.answer (.randomBytes KEY_LEN)) : Fallible Bytes)) := by
            refine Answers.exceptT_bind ?_ fun _ =>
              Answers.exceptT_bind (Answers.map (hperform rfl)) fun _ => .ret _
            exact Answers.exceptT_bind (Answers.map (hperform rfl)) fun _ =>
              Answers.map (hperform rfl)
          obtain ⟨r, w', hrest⟩ := hsave w
          have hrandom : calm env sealed w (.randomBytes KEY_LEN)
              (env.answer (.randomBytes KEY_LEN)) w :=
            ⟨⟨decide_eq_true (env.random KEY_LEN), rfl⟩, fun _ => rfl⟩
          have hsealed : calm env sealed w (.tpmSeal (env.answer (.randomBytes KEY_LEN)))
              (.ok envelope) w :=
            ⟨⟨decide_eq_true henvelope, rfl⟩, fun hs => by cases hs⟩
          exact ⟨r, w', _, w, hrandom, _, w, hsealed, hrest⟩

theorem answers_loadUserSamples
    (hseal : ∀ key : Bytes, key.length = KEY_LEN → ∃ envelope, sealed envelope = some key) :
    Answers (calm env sealed) (loadUserSamples pr user).run := by
  refine Answers.exceptT_bind ?_ fun _ => ?_
  · have hlooks : (checkCameraBinding user).run.Only (looks fun _ => True) :=
      looks_checkCameraBinding trivial
    exact answers_of_looks hlooks
  · refine Answers.exceptT_bind (Answers.map (answers_cachedTemplateKey hseal)) fun key => ?_
    exact Answers.exceptT_bind (Answers.map (answers_of_plain plain_loadEncryptedEmbedding))
      fun _ => .ret _

theorem answers_captureEmbedGated :
    Answers (calm env sealed) (captureEmbedGated pr user).run := by
  have hlooks : (captureEmbedGated pr user).run.Only (looks fun _ => True) :=
    looks_captureEmbedGated pr trivial
  exact answers_of_looks hlooks

theorem answers_ownAccount {op : String} {handler : Proc Response}
    (h : Answers (calm env sealed) handler) :
    Answers (calm env sealed) (ownAccount peerUid op user handler) := by
  refine Answers.bind (answers_of_looks (looks_peerMayActAs (F := fun _ => True) peerUid user))
    fun may => ?_
  cases may with
  | false => exact .ret _
  | true =>
      change Answers _ (withUser user handler)
      unfold withUser
      cases validateUser user with
      | error e => exact .ret _
      | ok _ => exact h

theorem answers_planAction : Answers (calm env sealed) (planAction user service peerIsRoot) := by
  have hglances : (planAction user service peerIsRoot).Only (glances fun _ => True) :=
    glances_planAction trivial trivial service peerIsRoot
  exact answers_of_looks (hglances.imp fun _ => looks_of_glances)

theorem answers_authIntent :
    Answers (calm env sealed) (dispatch pr (.authIntent user service) peerUid) := by
  refine answers_ownAccount (Answers.bind answers_planAction fun plan => ?_)
  have hnode : ∀ path, Program.Only (fun o => isPlain o = true) (do
      let c ← perform (.canonicalize path)
      pure (Option.getD c path)) := fun path => only_bind (only_perform rfl) fun _ => .ret _
  have hnotice : cameraBlockNotice.Only fun o => isPlain o = true := by
    refine only_bind (only_perform rfl) fun cams => only_bind (only_perform rfl) fun rgb => ?_
    refine only_bind (hnode rgb) fun rgbNode => ?_
    refine only_bind (only_findM? (fun c => only_bind (hnode c.path) fun _ => .ret _) cams)
      fun found => ?_
    cases found with
    | none => exact .ret _
    | some c =>
        by_cases hprivacy : c.privacy = some true
        · simp only [if_pos hprivacy]
          exact .ret _
        · simp only [if_neg hprivacy]
          exact .ret _
  by_cases hdeny : plan.action = .deny
  · rw [if_pos hdeny]
    exact .ret _
  · rw [if_neg hdeny]
    exact Answers.bind (answers_of_plain hnotice) fun _ => .ret _

theorem answers_authenticate
    (hseal : ∀ key : Bytes, key.length = KEY_LEN → ∃ envelope, sealed envelope = some key) :
    Answers (calm env sealed) (dispatch pr (.authenticate user service) peerUid) := by
  refine answers_ownAccount ?_
  rw [doAuthenticate_eq]
  refine Answers.bind answers_planAction fun plan => ?_
  unfold carryOut
  cases plan.action with
  | deny => exact .ret _
  | verify =>
      refine Answers.bind (answers_loadUserSamples hseal) fun loaded => ?_
      cases loaded with
      | error e => exact .ret _
      | ok samples =>
          refine Answers.bind answers_captureEmbedGated fun live => ?_
          cases live <;> exact .ret _
  | «unseal» =>
      refine Answers.bind (answers_loadUserSamples hseal) fun loaded => ?_
      cases loaded with
      | error e => exact .ret _
      | ok samples =>
          refine Answers.bind answers_captureEmbedGated fun live => ?_
          cases live with
          | error e => exact .ret _
          | ok emb =>
              have hrelease : (unsealPassword user).run.Only fun o => isPlain o = true :=
                only_exceptT_bind only_orFail fun _ => only_exceptT_bind (only_readJson rfl)
                  fun _ => only_fallible (only_perform rfl)
              simp only
              split
              · exact .ret _
              · exact Answers.bind (answers_of_plain hrelease) fun _ => .ret _

/-! ## When the two agree -/

/-- What `AuthIntent` answers is what `Authenticate` does in the same state. -/
def IntentAgrees (env : Surroundings) (sealed : SealedEnvelope → Option Bytes) (pr : Process)
    (user service : String) (peerUid : Option Nat) (w : World) : Prop :=
  ∀ resp w₁, Exec (calm env sealed) (dispatch pr (.authIntent user service) peerUid) w resp w₁ →
    ((∃ action notice, resp = .authPlan true action notice) →
      ∀ resp' y, Exec (recorded (calm env sealed))
        (dispatch pr (.authenticate user service) peerUid)
        (w, []) resp' y → Captures y.2) ∧
    ((∃ action notice, resp = .authPlan false action notice) ∨ (∃ m, resp = .error m) →
      ∀ resp' y, Exec (recorded (calm env sealed))
        (dispatch pr (.authenticate user service) peerUid)
        (w, []) resp' y → ¬ Captures y.2)

/-- The pre-flight agrees with the attempt exactly in the states in which the policy
keeps the camera off or the samples of the user can be loaded. -/
theorem intent_agrees_iff
    (hseal : ∀ key : Bytes, key.length = KEY_LEN → ∃ envelope, sealed envelope = some key) :
    IntentAgrees env sealed pr user service peerUid w ↔
      (Engages env user service peerUid w → Loadable env sealed pr user w) := by
  constructor
  · intro hagrees hengages
    obtain ⟨resp, w₁, hintent⟩ : ∃ resp w₁, Exec (calm env sealed)
        (dispatch pr (.authIntent user service) peerUid) w resp w₁ := answers_authIntent w
    obtain ⟨resp', w₂, hauth⟩ : ∃ resp' w₂, Exec (calm env sealed)
        (dispatch pr (.authenticate user service) peerUid) w resp' w₂ :=
          answers_authenticate hseal w
    obtain ⟨events, hrecorded⟩ := exec_recorded hauth []
    rcases authIntent_calm hintent with ⟨hengage, -⟩ | ⟨-, hnot⟩
    · have hcaptures := (hagrees resp w₁ hintent).1 hengage resp' _ hrecorded
      exact ((authenticate_calm hrecorded).1 hcaptures).2
    · exact absurd hengages hnot
  · intro hloads resp w₁ hintent
    have hpromise := authIntent_calm hintent
    constructor
    · rintro ⟨action, notice, rfl⟩ resp' y hauth
      rcases hpromise with ⟨-, hengages⟩ | ⟨⟨_, _, h⟩ | ⟨_, h⟩, -⟩
      · exact (authenticate_calm hauth).2 ⟨hengages, hloads hengages⟩
      · cases h
      · cases h
    · intro hanswer resp' y hauth hcaptures
      rcases hpromise with ⟨⟨action, notice, rfl⟩, -⟩ | ⟨-, hnot⟩
      · rcases hanswer with ⟨_, _, h⟩ | ⟨_, h⟩ <;> cases h
      · exact hnot ((authenticate_calm hauth).1 hcaptures).1

/-! The simulated host, with a session that is live. -/

def simulatedSurroundings : Surroundings where
  answer := Script.answer { simulatedScript with text := fun _ => some "STATE=active" }
    simulatedUnseal emptyWorld
  random _ := List.length_replicate

theorem intent_agrees_iff_simulated :
    IntentAgrees simulatedSurroundings simulatedUnseal simulatedProcess "alice" "kde" (some 0)
        (enrolledWorld "alice") ↔
      (Engages simulatedSurroundings "alice" "kde" (some 0) (enrolledWorld "alice") →
        Loadable simulatedSurroundings simulatedUnseal simulatedProcess "alice"
          (enrolledWorld "alice")) :=
  intent_agrees_iff fun key _ => simulatedUnseal_seals key

/-- For a user without an enrollment the lock screen is told to look for a face, and
the attempt opens no camera. -/
theorem not_intent_agrees :
    ¬ ∀ (env : Surroundings) (sealed : SealedEnvelope → Option Bytes) (pr : Process)
      (user service : String) (peerUid : Option Nat) (w : World),
      (∀ key : Bytes, key.length = KEY_LEN → ∃ envelope, sealed envelope = some key) →
      IntentAgrees env sealed pr user service peerUid w := by
  intro hall
  have hagrees := hall simulatedSurroundings simulatedUnseal simulatedProcess "alice" "kde" (some 0)
    emptyWorld fun key _ => simulatedUnseal_seals key
  have hengages : Engages simulatedSurroundings "alice" "kde" (some 0) emptyWorld :=
    ⟨.inl rfl, by decide, by decide +kernel⟩
  obtain ⟨resp, w₁, hintent⟩ : ∃ resp w₁, Exec (calm simulatedSurroundings simulatedUnseal)
      (dispatch simulatedProcess (.authIntent "alice" "kde") (some 0)) emptyWorld resp w₁ :=
    answers_authIntent emptyWorld
  obtain ⟨resp', w₂, hauth⟩ : ∃ resp' w₂, Exec (calm simulatedSurroundings simulatedUnseal)
      (dispatch simulatedProcess (.authenticate "alice" "kde") (some 0)) emptyWorld resp' w₂ :=
    answers_authenticate (fun key _ => simulatedUnseal_seals key) emptyWorld
  obtain ⟨events, hrecorded⟩ := exec_recorded hauth []
  rcases authIntent_calm hintent with ⟨hengage, -⟩ | ⟨-, hnot⟩
  · have hcaptures := (hagrees resp w₁ hintent).1 hengage resp' _ hrecorded
    obtain ⟨-, -, key, raw, samples, -, htemplate, -⟩ := (authenticate_calm hrecorded).1 hcaptures
    rw [templateIn, file_emptyWorld, file_emptyWorld] at htemplate
    cases htemplate
  · exact hnot hengages

end Linhello.Daemon
