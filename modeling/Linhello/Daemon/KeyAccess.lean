import Linhello.Core.Outcomes
import Linhello.Daemon.Gate
import Linhello.Host.Faultless
/-!
# Getting the template key

What the store functions and the cache do on a faultless host, from each kind of
state: a cached key, a sealed one, no envelope, and an envelope that does not open.
-/

namespace Linhello.Daemon

open Common Linhello.Core Effect Host Host.World

variable {sealed : SealedEnvelope → Option Bytes} {w w' : World} {user : String} {cl : CryptoLib}
  {key raw : Bytes}

/-! ## The envelope -/

theorem faultless_load {p : Path} {as : p.Data → Json SealedEnvelope} {d : p.Data}
    {r : Except LinuxHelloError SealedEnvelope} (hfile : w.file p = some d)
    (h : Exec (Step sealed .none) (SealedEnvelope.load p as).run w r w') :
    r = (as d).parse ∧ w' = w := by
  have hread : ∀ x t, Exec (Step sealed .none) (perform (.read p)) w x t → x = .ok d ∧ t = w :=
    fun x t hx => faultless_read_some hfile (exec_perform.1 hx)
  exact exec_io_bind_of_ok hread h

theorem faultless_save {envelope : SealedEnvelope} {f : UserFile}
    {as : Json SealedEnvelope → f.Data} {r : Except LinuxHelloError Unit}
    (h : Exec (Step sealed .none) (envelope.save (.user user f) as).run w r w') :
    r = .ok () ∧ w' = (w.mkdir (some user)).set (.user user f) (as (.value envelope)) := by
  have hmkdir : ∀ x t, Exec (Step sealed .none) (perform (.createDirAll (some user))) w x t →
      x = .ok () ∧ t = w.mkdir (some user) :=
    fun x t hx => faultless_createDirAll (exec_perform.1 hx)
  have hdir : (w.mkdir (some user)).hasDir (some user) = true := hasDir_mkdir.2 (.inl rfl)
  unfold SealedEnvelope.save at h
  have hwrite := exec_io_bind_of_ok hmkdir h
  obtain ⟨x, hx, hr⟩ := exec_io.1 hwrite
  obtain ⟨rfl, rfl⟩ := faultless_write (p := .user user f) hdir (exec_perform.1 hx)
  exact ⟨hr, rfl⟩

/-- The sealed key, if the envelope parses and the TPM opens it. -/
theorem faultless_unsealTemplateKey {json : Json SealedEnvelope}
    {r : Except LinuxHelloError Bytes} (huser : validateUser user = .ok ())
    (hfile : w.file (.user user .templateKeyEnvelope) = some json)
    (h : Exec (Step sealed .none) (unsealTemplateKey user).run w r w') :
    w' = w ∧ (∀ envelope key, json = .value envelope → sealed envelope = some key → r = .ok key) ∧
      ((∀ envelope, json = .value envelope → sealed envelope = none) → ∃ e, r = .error e) := by
  have hload := exec_orFail_bind_ok huser h
  rcases exec_exceptT_bind.1 hload with ⟨envelope, v, henv, hunseal⟩ | ⟨e, henv, rfl⟩
  · obtain ⟨hparse, rfl⟩ := faultless_load hfile henv
    obtain rfl := parse_eq_ok.1 hparse.symm
    obtain ⟨hok, hnone, rfl⟩ := faultless_tpmUnseal (exec_perform.1 hunseal)
    refine ⟨rfl, fun envelope' key hjson hkey => ?_, fun hall => hnone (hall _ rfl)⟩
    obtain rfl := Json.value.inj hjson
    exact hok key hkey
  · obtain ⟨hparse, rfl⟩ := faultless_load hfile henv
    refine ⟨rfl, fun envelope key hjson _ => ?_, fun _ => ⟨e, rfl⟩⟩
    subst hjson
    cases hparse

theorem faultless_ensureTemplateKey_present {json : Json SealedEnvelope}
    {r : Except LinuxHelloError Bytes} (huser : validateUser user = .ok ())
    (hfile : w.file (.user user .templateKeyEnvelope) = some json)
    (h : Exec (Step sealed .none) (ensureTemplateKey user).run w r w') :
    Exec (Step sealed .none) (unsealTemplateKey user).run w r w' := by
  unfold ensureTemplateKey at h
  have h₀ := exec_orFail_bind_ok huser h
  obtain ⟨present, v₁, hpresent, h₁⟩ := exec_lift_bind.1 h₀
  obtain ⟨rfl, rfl⟩ := faultless_pathExists (exec_perform.1 hpresent)
  rwa [hfile] at h₁

/-- Without an envelope a fresh key is drawn, sealed and stored. -/
theorem faultless_ensureTemplateKey_absent {r : Except LinuxHelloError Bytes}
    (huser : validateUser user = .ok ())
    (hfile : w.file (.user user .templateKeyEnvelope) = none)
    (h : Exec (Step sealed .none) (ensureTemplateKey user).run w r w') :
    ∃ key envelope, r = .ok key ∧ key.length = KEY_LEN ∧ sealed envelope = some key ∧
      w' = (w.mkdir (some user)).set (.user user .templateKeyEnvelope) (.value envelope) := by
  unfold ensureTemplateKey at h
  have h₀ := exec_orFail_bind_ok huser h
  obtain ⟨present, v₁, hpresent, h₁⟩ := exec_lift_bind.1 h₀
  obtain ⟨rfl, rfl⟩ := faultless_pathExists (exec_perform.1 hpresent)
  rw [hfile] at h₁
  obtain ⟨key, v₂, hkey, h₂⟩ := exec_lift_bind.1 h₁
  obtain ⟨hlen, rfl⟩ := step_randomBytes (exec_perform.1 hkey)
  rcases exec_exceptT_bind.1 h₂ with ⟨envelope, v₃, hseal, h₃⟩ | ⟨e, he, -⟩
  · obtain ⟨_, henv, hsealed, rfl⟩ := faultless_tpmSeal (exec_perform.1 hseal)
    obtain rfl := Except.ok.inj henv
    rcases exec_exceptT_bind.1 h₃ with ⟨_, v₄, hsave, h₄⟩ | ⟨e, hsave, -⟩
    · obtain ⟨-, rfl⟩ := faultless_save hsave
      have hchmod : ∀ x t, Exec (Step sealed .none)
          (perform (.setPermissions (.user user .templateKeyEnvelope)))
          ((v₃.mkdir (some user)).set (.user user .templateKeyEnvelope) (.value envelope)) x t →
          x = .ok () ∧ t = (v₃.mkdir (some user)).set (.user user .templateKeyEnvelope)
            (.value envelope) :=
        fun x t hx => faultless_setPermissions (by rw [file_set_self]; rfl) (exec_perform.1 hx)
      obtain ⟨rfl, rfl⟩ := exec_io_bind_of_ok hchmod h₄
      exact ⟨key, envelope, rfl, hlen, hsealed, rfl⟩
    · cases (faultless_save hsave).1
  · obtain ⟨envelope, henv, -⟩ := faultless_tpmSeal (exec_perform.1 he)
    cases henv

/-! ## The cache -/

theorem exec_cachedTemplateKey_hit {flt : Faults} {r : Except String Bytes}
    (hhit : w.cache.lookup user = some key)
    (h : Exec (Step sealed flt) (cachedTemplateKey user).run w r w') : r = .ok key ∧ w' = w := by
  obtain ⟨cached, v, hcached, h₁⟩ := exec_lift_bind.1 h
  obtain ⟨rfl, rfl⟩ := step_cacheGet (exec_perform.1 hcached)
  rw [hhit] at h₁
  exact h₁

/-- A key that is not cached is fetched, and inserted if that succeeds. -/
theorem exec_cachedTemplateKey_miss {flt : Faults} {r : Except String Bytes}
    (hmiss : w.cache.lookup user = none)
    (h : Exec (Step sealed flt) (cachedTemplateKey user).run w r w') :
    ∃ x v, Exec (Step sealed flt) (ensureTemplateKey user).run w x v ∧
      r = x.mapError LinuxHelloError.display ∧
      (∀ key, x = .ok key → w' = { v with cache := v.cache.insert user key }) := by
  obtain ⟨cached, v, hcached, h₁⟩ := exec_lift_bind.1 h
  obtain ⟨rfl, rfl⟩ := step_cacheGet (exec_perform.1 hcached)
  rw [hmiss] at h₁
  rcases exec_exceptT_bind.1 h₁ with ⟨key, u, hkey, h₂⟩ | ⟨e, he, rfl⟩
  · obtain ⟨x, hx, hok⟩ := exec_map.1 hkey
    obtain rfl := mapError_eq_ok.1 hok.symm
    obtain ⟨_, t, hinsert, hret⟩ := exec_lift_bind.1 h₂
    obtain ⟨-, rfl⟩ := exec_perform.1 hinsert
    refine ⟨_, _, hx, hret.1, fun key' hkey' => ?_⟩
    obtain rfl := Except.ok.inj hkey'
    exact hret.2
  · obtain ⟨x, hx, hmap⟩ := exec_map.1 he
    cases x with
    | ok key => cases hmap
    | error e' =>
        exact ⟨_, _, hx, congrArg _ (Except.error.inj hmap), fun key hkey => by cases hkey⟩

theorem faultless_cachedTemplateKey_sealed {envelope : SealedEnvelope} {r : Except String Bytes}
    (huser : validateUser user = .ok ()) (hmiss : w.cache.lookup user = none)
    (hfile : w.file (.user user .templateKeyEnvelope) = some (.value envelope))
    (hsealed : sealed envelope = some key)
    (h : Exec (Step sealed .none) (cachedTemplateKey user).run w r w') :
    r = .ok key ∧ w' = { w with cache := w.cache.insert user key } := by
  obtain ⟨x, v, hx, rfl, hinsert⟩ := exec_cachedTemplateKey_miss hmiss h
  have hunseal := faultless_ensureTemplateKey_present huser hfile hx
  obtain ⟨rfl, hok, -⟩ := faultless_unsealTemplateKey huser hfile hunseal
  obtain rfl := hok envelope key rfl hsealed
  exact ⟨rfl, hinsert key rfl⟩

theorem faultless_cachedTemplateKey_broken {json : Json SealedEnvelope} {r : Except String Bytes}
    (huser : validateUser user = .ok ()) (hmiss : w.cache.lookup user = none)
    (hfile : w.file (.user user .templateKeyEnvelope) = some json)
    (hbroken : ∀ envelope, json = .value envelope → sealed envelope = none)
    (h : Exec (Step sealed .none) (cachedTemplateKey user).run w r w') : ∃ e, r = .error e := by
  obtain ⟨x, v, hx, rfl, -⟩ := exec_cachedTemplateKey_miss hmiss h
  have hunseal := faultless_ensureTemplateKey_present huser hfile hx
  obtain ⟨-, -, herror⟩ := faultless_unsealTemplateKey huser hfile hunseal
  obtain ⟨e, rfl⟩ := herror hbroken
  exact ⟨_, rfl⟩

theorem faultless_cachedTemplateKey_absent {r : Except String Bytes}
    (huser : validateUser user = .ok ()) (hmiss : w.cache.lookup user = none)
    (hfile : w.file (.user user .templateKeyEnvelope) = none)
    (h : Exec (Step sealed .none) (cachedTemplateKey user).run w r w') :
    ∃ key envelope, r = .ok key ∧ key.length = KEY_LEN ∧ sealed envelope = some key ∧
      w'.file (.user user .templateKeyEnvelope) = some (.value envelope) := by
  obtain ⟨x, v, hx, rfl, hinsert⟩ := exec_cachedTemplateKey_miss hmiss h
  obtain ⟨key, envelope, rfl, hlen, hsealed, rfl⟩ :=
    faultless_ensureTemplateKey_absent huser hfile hx
  refine ⟨key, envelope, rfl, hlen, hsealed, ?_⟩
  rw [hinsert key rfl, file_withCache, file_set_self]

/-! ## The template -/

theorem faultless_saveEncryptedEmbedding {r : Except LinuxHelloError Unit}
    (huser : validateUser user = .ok ()) (hlen : key.length = KEY_LEN)
    (hseals : ∀ nonce, nonce.length = NONCE_LEN → (cl.aeadSeal key nonce raw).isSome = true)
    (h : Exec (Step sealed .none) (saveEncryptedEmbedding cl user raw key).run w r w') :
    r = .ok () := by
  unfold saveEncryptedEmbedding at h
  have h₀ := exec_orFail_bind_ok huser h
  have hmkdir : ∀ x t, Exec (Step sealed .none) (perform (.createDirAll (some user))) w x t →
      x = .ok () ∧ t = w.mkdir (some user) :=
    fun x t hx => faultless_createDirAll (exec_perform.1 hx)
  have hdir : (w.mkdir (some user)).hasDir (some user) = true := hasDir_mkdir.2 (.inl rfl)
  have h₁ := exec_io_bind_of_ok hmkdir h₀
  have hencrypt : ∀ {r v}, Exec (Step sealed .none) (encrypt cl key raw).run
      (w.mkdir (some user)) r v → v = w.mkdir (some user) ∧ ∃ blob, r = .ok blob := by
    intro r v hr
    unfold encrypt at hr
    rw [if_neg (not_not.2 hlen)] at hr
    obtain ⟨nonce, u, hnonce, hret⟩ := exec_lift_bind.1 hr
    obtain ⟨hnlen, rfl⟩ := step_randomBytes (exec_perform.1 hnonce)
    obtain ⟨ct, hct⟩ := Option.isSome_iff_exists.1 (hseals nonce hnlen)
    obtain ⟨rfl, rfl⟩ := hret
    exact ⟨rfl, nonce ++ ct, by rw [encryptWith, hct]⟩
  rcases exec_exceptT_bind.1 h₁ with ⟨blob, v, henc, h₂⟩ | ⟨e, henc, -⟩
  · obtain ⟨rfl, -⟩ := hencrypt henc
    have hwrite : ∀ x t, Exec (Step sealed .none)
        (perform (.write (.user user .embeddingEnc) blob)) (w.mkdir (some user)) x t →
        x = .ok () ∧ t = (w.mkdir (some user)).set (.user user .embeddingEnc) blob :=
      fun x t hx => faultless_write (p := .user user .embeddingEnc) hdir (exec_perform.1 hx)
    have h₃ := exec_io_bind_of_ok hwrite h₂
    have hchmod : ∀ x t, Exec (Step sealed .none)
        (perform (.setPermissions (.user user .embeddingEnc)))
        ((w.mkdir (some user)).set (.user user .embeddingEnc) blob) x t →
        x = .ok () ∧ t = (w.mkdir (some user)).set (.user user .embeddingEnc) blob :=
      fun x t hx => faultless_setPermissions (by rw [file_set_self]; rfl) (exec_perform.1 hx)
    have h₄ := exec_io_bind_of_ok hchmod h₃
    obtain ⟨_, u, -, hret⟩ := exec_lift_bind.1 h₄
    exact hret.1
  · obtain ⟨-, blob, hblob⟩ := hencrypt henc
    cases hblob

theorem faultless_loadEncryptedEmbedding {pr : Process} {blob : Bytes}
    {r : Except LinuxHelloError Bytes} (huser : validateUser user = .ok ())
    (hfile : w.file (.user user .embeddingEnc) = some blob)
    (h : Exec (Step sealed .none) (loadEncryptedEmbedding pr user key).run w r w') :
    r = decrypt pr.cl key blob ∧ w' = w := by
  unfold loadEncryptedEmbedding at h
  have h₀ := exec_orFail_bind_ok huser h
  obtain ⟨present, v, hpresent, h₁⟩ := exec_lift_bind.1 h₀
  obtain ⟨rfl, rfl⟩ := faultless_pathExists (exec_perform.1 hpresent)
  rw [hfile] at h₁
  have hread : ∀ x t, Exec (Step sealed .none) (perform (.read (.user user .embeddingEnc))) v x t →
      x = .ok blob ∧ t = v := fun x t hx => faultless_read_some hfile (exec_perform.1 hx)
  exact exec_io_bind_of_ok hread h₁

end Linhello.Daemon
