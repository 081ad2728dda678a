import Linhello.Daemon.KeyThreads
/-!
# The store functions under the promise

One specification for each operation on a copy of the key, and from these one for
each function of the store: which sight of the key it starts from and which it
leaves. All of them hold under any fault but a failing existence check.
-/

namespace Linhello.Daemon

open Common Linhello.Core Effect Host Host.World Liveness Biometrics

variable {ι : Type} [DecidableEq ι] {sealed : SealedEnvelope → Option Bytes} {cl : CryptoLib}
  {user : String} {i : ι} {x y : World × Log host ι} {s : Sight} {flt : Faults}
  {Allowed : Rule host ι World} {key : Bytes}

theorem Sees.learn (h : Sees sealed cl user i .nothing y) (hholds : s.Holds sealed user i y) :
    Sees sealed cl user i s y :=
  ⟨h.sound, h.idle, hholds⟩

theorem not_busy_of_contact {log log' : Log host ι} {e : Event host} (hlog : log' = log ++ [(i, e)])
    (hcontact : Contact user e) (h : ¬ (watch user log').overlapped i) :
    ¬ (watch user log).Busy i := by
  intro hbusy
  rw [hlog, overlapped_self] at h
  exact h (.inl ⟨hcontact, hbusy⟩)

/-- What the content of the key envelope tells. -/
def Sight.ofEnvelope (sealed : SealedEnvelope → Option Bytes) :
    Except IoError (Json SealedEnvelope) → Sight
  | .ok (.value env) => .ofKey? (sealed env)
  | _ => .nothing

/-- What the content of the recovery envelope tells who knows a passphrase. -/
def Sight.ofRecovery (cl : CryptoLib) (passphrase : Bytes) :
    Except IoError (Json RecoveryEnvelope) → Sight
  | .ok (.value env) => .ofKey? (unwrap cl passphrase env).toOption
  | _ => .nothing

section Operations

variable (hrule : ∀ w log i e, Allowed w log i e → Orderly user w log i e)

include hrule

/-! ## Seeing the key -/

theorem runs_cacheGet : Runs sealed cl user i flt Allowed s (perform (.cacheGet user))
    fun r => Sees sealed cl user i (.ofKey? r) := by
  refine Promises.perform stable_sees (fun _ => stable_sees) ?_
  intro x r y hx hS
  have hsame : y.1 = x.1 := hS.1.2
  obtain ⟨hpromise, hy⟩ := look_step hrule hS hx hsame rfl (by simp)
  refine ⟨hpromise, hy.learn ?_⟩
  have hr : r = x.1.cache.lookup user := by simpa [allows] using hS.1.1
  cases r with
  | none => trivial
  | some k =>
      intro hover
      rw [hsame]
      exact (hx.agree (not_busy_of_contact hS.2.1 rfl hover)).cached k hr.symm

theorem runs_pathExists (hstat : flt.stat = false) :
    Runs sealed cl user i flt Allowed s (perform (.pathExists (.user user .templateKeyEnvelope)))
      fun r => Sees sealed cl user i (if r = true then .nothing else .absent) := by
  refine Promises.perform stable_sees (fun _ => stable_sees) ?_
  intro x r y hx hS
  have hsame : y.1 = x.1 := hS.1.2
  obtain ⟨hpromise, hy⟩ := look_step hrule hS hx hsame rfl (by simp)
  refine ⟨hpromise, hy.learn ?_⟩
  cases r with
  | true => trivial
  | false =>
      have hnone : x.1.file (.user user .templateKeyEnvelope) = none := by
        simpa [allows, hstat] using hS.1.1
      refine ⟨?_, fun _ _ => by rwa [hsame]⟩
      rw [hS.2.1, creating_self]
      exact .inl ⟨rfl, rfl⟩

theorem runs_readKey :
    Runs sealed cl user i flt Allowed s (perform (.read (.user user .templateKeyEnvelope)))
      fun r => Sees sealed cl user i (.ofEnvelope sealed r) := by
  refine Promises.perform stable_sees (fun _ => stable_sees) ?_
  intro x r y hx hS
  have hsame : y.1 = x.1 := hS.1.2
  obtain ⟨hpromise, hy⟩ := look_step hrule hS hx hsame rfl (by simp)
  refine ⟨hpromise, hy.learn ?_⟩
  rcases r with e | json
  · trivial
  · cases json with
    | value env =>
        have hfile := (step_read_ok hS.1).1
        simp only [Sight.ofEnvelope]
        cases hsealed : sealed env with
        | none => trivial
        | some k =>
            intro _
            rw [hsame]
            exact ⟨env, hfile, hsealed⟩
    | _ => trivial

theorem runs_readRecovery (passphrase : Bytes) :
    Runs sealed cl user i flt Allowed s (perform (.read (.user user .recoveryEnvelope)))
      fun r => Sees sealed cl user i (.ofRecovery cl passphrase r) := by
  refine Promises.perform stable_sees (fun _ => stable_sees) ?_
  intro x r y hx hS
  have hsame : y.1 = x.1 := hS.1.2
  obtain ⟨hpromise, hy⟩ := look_step hrule hS hx hsame rfl (by simp)
  refine ⟨hpromise, hy.learn ?_⟩
  rcases r with e | json
  · trivial
  · cases json with
    | value env =>
        have hfile := (step_read_ok hS.1).1
        simp only [Sight.ofRecovery]
        cases hunwrap : unwrap cl passphrase env with
        | error e => trivial
        | ok k =>
            intro hover
            have hagree := hx.agree (not_busy_of_contact hS.2.1 (.inr rfl) hover)
            obtain ⟨env', k', hvalue, hkey, -, hwraps⟩ := hagree.recovery _ hfile
            obtain rfl : env = env' := by simpa using hvalue
            rw [hsame, hwraps passphrase k hunwrap]
            exact hkey
    | _ => trivial

/-! ## Changing a copy of the key -/

/-- The key envelope is written by a request that has seen the key, or none. -/
theorem tries_writeKey {env : SealedEnvelope} (hsealed : sealed env = some key)
    (hs : s = .key key ∨ s = .absent) :
    Tries sealed cl user i flt Allowed s
      (io (perform (.write (.user user .templateKeyEnvelope) (.value env))))
      (fun _ => Sees sealed cl user i (.key key)) .nothing := by
  refine Promises.map (Promises.perform stable_sees ?_ ?_)
  · rintro (e | u) <;> exact stable_sees
  intro x r y hx hS
  rcases r with e | u
  · have hsame : y.1 = x.1 := hS.1.2
    obtain ⟨hpromise, hy⟩ := kept_step (s := s) hrule hS hx (by simp [Contact]) rfl (by simp)
      (by rw [hsame]) (fun _ h => by rwa [hsame]) fun _ h => by rwa [hsame] at h
    exact ⟨hpromise, hy.forget⟩
  · have hset : y.1 = x.1.set (.user user .templateKeyEnvelope) (.value env) := step_write_ok hS.1
    obtain ⟨hbusy, hquiet, -⟩ := hrule _ _ _ _ hS.2.2 rfl rfl
    have hall := all_idle hbusy hx.idle
    have hagree := hx.agree hbusy
    have hold : EnvKey sealed user x.1 key ∨
        x.1.file (.user user .templateKeyEnvelope) = none := by
      rcases hquiet rfl with ⟨hover, hraced⟩ | hnone
      · have hholds := hx.holds
        rcases hs with rfl | rfl
        · exact .inl (hholds hover)
        · exact .inr (hholds.2 hover hraced)
      · exact .inr hnone
    have hnew : EnvKey sealed user y.1 key := by
      rw [hset]
      exact ⟨env, file_set_self _ _ _, hsealed⟩
    obtain ⟨hpromise, hidle⟩ :=
      @KeyPromise.of_idle _ _ _ cl _ _ _ _ _ _ _ _ hrule hS hx.idle rfl (by simp)
      (fun _ h => by
        rw [hset]
        exact h.set_templateKey hsealed hold)
      (fun _ h => by rwa [hset, cache_set] at h)
      (fun _ k hk => by
        rcases hold with hold | hnone
        · rw [hk.unique hold]
          exact hnew
        · exact absurd hk (not_envKey_of_absent hnone))
    exact ⟨hpromise, hpromise.sound hx.sound, hidle, fun _ => hnew⟩

theorem runs_cacheInsert :
    Runs sealed cl user i flt Allowed (.key key) (perform (.cacheInsert user key))
      fun _ => Sees sealed cl user i (.key key) := by
  refine Promises.perform stable_sees (fun _ => stable_sees) ?_
  intro x r y hx hS
  have hput : y.1 = { x.1 with cache := x.1.cache.insert user key } := hS.1.2
  have hover : ¬ (watch user x.2).overlapped i := hrule _ _ _ _ hS.2.2 rfl
  have hkey : EnvKey sealed user x.1 key := hx.holds hover
  have hfile : y.1.file (.user user .templateKeyEnvelope) =
      x.1.file (.user user .templateKeyEnvelope) := by
    rw [hput]
    exact file_withCache ..
  refine kept_step hrule hS hx id rfl (by simp) hfile (fun _ h => ?_) fun hdir _ => ?_
  · rw [hput]
    exact h.insertCache hkey
  · -- a key on disk has a directory
    obtain ⟨env, henv, -⟩ := hkey
    have hnone := file_of_not_hasDir hdir .templateKeyEnvelope
    rw [hfile, henv] at hnone
    cases hnone

theorem runs_cacheRemove : Runs sealed cl user i flt Allowed s (perform (.cacheRemove user))
    fun _ => Sees sealed cl user i s := by
  refine Promises.perform stable_sees (fun _ => stable_sees) ?_
  intro x r y hx hS
  have hdrop : y.1 = { x.1 with cache := x.1.cache.erase user } := hS.1.2
  have hfile : ∀ p, y.1.file p = x.1.file p := by
    intro p
    rw [hdrop]
    exact file_withCache ..
  have hnone : y.1.cache.lookup user = none := by
    rw [hdrop]
    exact AList.lookup_erase _ _
  refine kept_step hrule hS hx id rfl (by simp) (hfile _) (fun _ h => ?_) fun _ h => ?_
  · refine h.mono (fun k hk => ?_) (hfile _) (fun b hb => ?_) fun j hj => ?_
    · rw [hnone] at hk
      cases hk
    · rwa [hfile] at hb
    · rwa [hfile] at hj
  · rw [hnone] at h
    cases h

/-- A template or a recovery envelope is stored under the key that was seen. -/
theorem runs_store {f : UserFile} {d : f.Data} (hf : f = .embeddingEnc ∨ f = .recoveryEnvelope)
    (hstore : ∀ w, EnvKey sealed user w key → KeysAgree sealed cl user w →
      KeysAgree sealed cl user (w.set (.user user f) d)) :
    Runs sealed cl user i flt Allowed (.key key) (perform (.write (.user user f) d))
      fun _ => Sees sealed cl user i (.key key) := by
  have hne : Path.user user f ≠ .user user .templateKeyEnvelope := by
    rcases hf with rfl | rfl <;> simp
  refine Promises.perform stable_sees (fun _ => stable_sees) ?_
  intro x r y hx hS
  have hcontact : ¬ Contact user ⟨.write (.user user f) d, r⟩ := fun h => hne h.1
  rcases r with e | u
  · have hsame : y.1 = x.1 := hS.1.2
    exact kept_step hrule hS hx hcontact rfl (by simp) (by rw [hsame]) (fun _ h => by rwa [hsame])
      fun _ h => by rwa [hsame] at h
  · have hset : y.1 = x.1.set (.user user f) d := step_write_ok hS.1
    obtain ⟨-, -, hquiet⟩ := hrule _ _ _ _ hS.2.2 rfl rfl
    have hkey : EnvKey sealed user x.1 key := hx.holds (hquiet (by
      rcases hf with rfl | rfl
      · exact .inl rfl
      · exact .inr rfl))
    refine kept_step hrule hS hx hcontact rfl (by simp) ?_ (fun _ h => ?_) fun _ h => ?_
    · rw [hset, file_set_of_ne _ _ hne.symm]
    · rw [hset]
      exact hstore _ hkey h
    · rwa [hset, cache_set] at h

theorem tries_store {f : UserFile} {d : f.Data} (hf : f = .embeddingEnc ∨ f = .recoveryEnvelope)
    (hstore : ∀ w, EnvKey sealed user w key → KeysAgree sealed cl user w →
      KeysAgree sealed cl user (w.set (.user user f) d)) :
    Tries sealed cl user i flt Allowed (.key key) (io (perform (.write (.user user f) d)))
      (fun _ => Sees sealed cl user i (.key key)) (.key key) := by
  refine Promises.map ((runs_store hrule hf hstore).consequence (fun _ h => h) ?_)
  rintro (e | u) y hy <;> exact hy

/-! ## The template key -/

theorem tries_tpmSeal (secret : Bytes) :
    Tries sealed cl user i flt Allowed s (fallible (perform (.tpmSeal secret)))
      (fun env x => sealed env = some secret ∧ Sees sealed cl user i s x) s := by
  refine (runs_fact hrule (.tpmSeal secret) trivial
    (fun r => ∀ env, r = .ok env → sealed env = some secret) ?_).consequence (fun _ h => h) ?_
  · rintro w r w' ⟨hallows, -⟩ env rfl
    simpa [allows] using hallows
  · rintro (e | env) y ⟨hfact, hy⟩
    · exact hy
    · exact ⟨hfact env rfl, hy⟩

theorem tries_tpmUnseal {env : SealedEnvelope} :
    Tries sealed cl user i flt Allowed (.ofKey? (sealed env)) (fallible (perform (.tpmUnseal env)))
      (fun key => Sees sealed cl user i (.key key)) .nothing := by
  refine (runs_fact hrule (.tpmUnseal env) trivial
    (fun r => ∀ k, r = .ok k → sealed env = some k) ?_).consequence (fun _ h => h) ?_
  · intro w r w' hS k hr
    rw [hr] at hS
    exact (step_unseal_ok hS).1
  · rintro (e | k) y ⟨hfact, hy⟩
    · exact hy.forget
    · rwa [hfact k rfl] at hy

private theorem tries_loadKey :
    Tries sealed cl user i flt Allowed s (SealedEnvelope.load (.user user .templateKeyEnvelope) id)
      (fun env => Sees sealed cl user i (.ofKey? (sealed env))) .nothing := by
  have hread : Tries sealed cl user i flt Allowed s
      (io (perform (.read (.user user .templateKeyEnvelope))))
      (fun d => Sees sealed cl user i (.ofEnvelope sealed (.ok d))) .nothing := by
    refine Promises.map ((runs_readKey hrule).consequence (fun _ h => h) ?_)
    rintro (e | d) y hy
    · exact hy
    · exact hy
  refine hread.bind stable_sees fun d => ?_
  cases d with
  | value env => exact Attempts.pure stable_sees fun y hy => hy
  | _ => exact Attempts.throw stable_sees fun y hy => hy

theorem tries_unsealTemplateKey :
    Tries sealed cl user i flt Allowed s (unsealTemplateKey user)
      (fun key => Sees sealed cl user i (.key key)) .nothing := by
  refine Attempts.bind (Q := fun _ => Sees sealed cl user i s) ?_ stable_sees fun _ => ?_
  · exact Promises.ret stable_sees fun y hy => by
      cases validateUser user with
      | error e => exact hy.forget
      | ok u => exact hy
  · exact (tries_loadKey hrule).bind stable_sees fun env => tries_tpmUnseal hrule

theorem tries_saveKey {env : SealedEnvelope} (hsealed : sealed env = some key)
    (hs : s = .key key ∨ s = .absent) :
    Tries sealed cl user i flt Allowed s (env.save (.user user .templateKeyEnvelope) id)
      (fun _ => Sees sealed cl user i (.key key)) .nothing := by
  have hmkdir : Tries sealed cl user i flt Allowed s
      (io (perform (.createDirAll (Path.user user .templateKeyEnvelope).parent)))
      (fun _ => Sees sealed cl user i s) s := tries_only hrule (only_io (only_perform trivial))
  refine (hmkdir.consequence (fun _ h => h) (fun _ _ h => h) fun _ h => h.forget).bind stable_sees
    fun _ => tries_writeKey hrule hsealed hs

theorem tries_chmod {p : Path} :
    Tries sealed cl user i flt Allowed s (io (perform (.setPermissions p)))
      (fun _ => Sees sealed cl user i s) .nothing :=
  (tries_only hrule (only_io (only_perform trivial))).consequence (fun _ h => h) (fun _ _ h => h)
    fun _ h => h.forget

private theorem tries_ensureTemplateKey (hstat : flt.stat = false) :
    Tries sealed cl user i flt Allowed s (ensureTemplateKey user)
      (fun key => Sees sealed cl user i (.key key)) .nothing := by
  refine Attempts.bind (Q := fun _ => Sees sealed cl user i s) ?_ stable_sees fun _ => ?_
  · exact Promises.ret stable_sees fun y hy => by
      cases validateUser user with
      | error e => exact hy.forget
      | ok u => exact hy
  · refine (Attempts.lift (runs_pathExists hrule hstat)).bind stable_sees fun present => ?_
    cases present with
    | true => exact tries_unsealTemplateKey hrule
    | false =>
        have hrandom : Tries sealed cl user i flt Allowed .absent
            (liftM (perform (.randomBytes KEY_LEN)) : Fallible Bytes)
            (fun _ => Sees sealed cl user i .absent) .absent :=
          tries_only hrule (only_exceptT_lift (only_perform trivial))
        refine (hrandom.consequence (fun _ h => h) (fun _ _ h => h) fun _ h => h.forget).bind
          stable_sees fun key => ?_
        refine ((tries_tpmSeal hrule key).consequence (fun _ h => h) (fun _ _ h => h)
          fun _ h => h.forget).bind stable_sees fun env => ?_
        refine Promises.given fun hsealed => ?_
        refine (tries_saveKey hrule hsealed (.inr rfl)).bind stable_sees fun _ => ?_
        exact (tries_chmod hrule).bind stable_sees fun _ => Attempts.pure stable_sees fun _ h => h

theorem tries_cachedTemplateKey (hstat : flt.stat = false) :
    Tries sealed cl user i flt Allowed s (cachedTemplateKey user)
      (fun key => Sees sealed cl user i (.key key)) .nothing := by
  refine (Attempts.lift (runs_cacheGet hrule)).bind stable_sees fun cached => ?_
  cases cached with
  | some key => exact Attempts.pure stable_sees fun _ h => h
  | none =>
      refine (tries_displayed (tries_ensureTemplateKey hrule hstat)).bind stable_sees fun key => ?_
      refine (Attempts.lift (runs_cacheInsert hrule)).bind stable_sees fun _ => ?_
      exact Attempts.pure stable_sees fun _ h => h

theorem tries_sealTemplateKey :
    Tries sealed cl user i flt Allowed (.key key) (sealTemplateKey user key)
      (fun _ => Sees sealed cl user i (.key key)) .nothing := by
  unfold sealTemplateKey
  split
  · exact Attempts.bind (Q := fun _ _ => False) (Attempts.throw stable_sees fun _ h => h.forget)
      stable_sees fun _ _ h => h.elim
  · refine Attempts.bind (Q := fun _ => Sees sealed cl user i (.key key)) ?_ stable_sees
      fun _ => ?_
    · exact Promises.ret stable_sees fun y hy => by
        cases validateUser user with
        | error e => exact hy.forget
        | ok u => exact hy
    · refine ((tries_tpmSeal hrule key).consequence (fun _ h => h) (fun _ _ h => h)
        fun _ h => h.forget).bind stable_sees fun env => ?_
      refine Promises.given fun hsealed => ?_
      exact (tries_saveKey hrule hsealed (.inl rfl)).bind stable_sees fun _ => tries_chmod hrule

/-! ## The template -/

/-- `encrypt` fails only on a key of the wrong length or a message that is too long. -/
theorem attempts_encrypt (key plaintext : Bytes) :
    Attempts (logged (World.Step sealed flt) Allowed) (KeyPromise sealed cl user) i
      (Sees sealed cl user i s) (encrypt cl key plaintext)
      (fun blob x => Encrypts cl key plaintext blob ∧ Sees sealed cl user i s x)
      fun x => (key.length ≠ KEY_LEN ∨ ∃ nonce, cl.aeadSeal key nonce plaintext = none) ∧
        Sees sealed cl user i s x := by
  unfold encrypt
  split
  · rename_i hlen
    exact Promises.ret stable_sees fun y hy => ⟨.inl hlen, hy⟩
  · rename_i hlen
    have hnonce : Runs sealed cl user i flt Allowed s (perform (.randomBytes NONCE_LEN))
        fun nonce x => nonce.length = NONCE_LEN ∧ Sees sealed cl user i s x := by
      refine runs_fact hrule (.randomBytes NONCE_LEN) trivial
        (fun nonce => nonce.length = NONCE_LEN) ?_
      rintro w r w' ⟨hallows, -⟩
      simpa [allows] using hallows
    refine (Attempts.lift hnonce).bind (Stable.const.and stable_sees) fun nonce => ?_
    refine Promises.given fun hn => Promises.ret stable_sees fun y hy => ?_
    cases hseal : cl.aeadSeal key nonce plaintext with
    | none =>
        have herror :
            encryptWith cl key nonce plaintext = .error (.tpm "aes encrypt: aead::Error") :=
          by simp only [encryptWith, hseal]
        rw [herror]
        exact ⟨.inr ⟨nonce, hseal⟩, hy⟩
    | some ct =>
        have hok : encryptWith cl key nonce plaintext = .ok (nonce ++ ct) := by
          simp only [encryptWith, hseal]
        rw [hok]
        exact ⟨⟨not_not.1 hlen, nonce, hn, hok⟩, hy⟩

theorem tries_encrypt (key plaintext : Bytes) :
    Tries sealed cl user i flt Allowed s (encrypt cl key plaintext)
      (fun blob x => Encrypts cl key plaintext blob ∧ Sees sealed cl user i s x) s :=
  (attempts_encrypt hrule key plaintext).consequence (fun _ h => h) (fun _ _ h => h) fun _ h => h.2

theorem tries_saveEncryptedEmbedding (raw : Bytes) :
    Tries sealed cl user i flt Allowed (.key key) (saveEncryptedEmbedding cl user raw key)
      (fun _ => Sees sealed cl user i (.key key)) (.key key) := by
  refine (tries_only hrule only_orFail).bind stable_sees fun _ => ?_
  refine (tries_only hrule (only_io (only_perform trivial))).bind stable_sees fun _ => ?_
  refine (tries_encrypt hrule key raw).bind stable_sees fun blob => Promises.given fun hblob => ?_
  refine (tries_store hrule (.inl rfl) fun w hkey h => h.set_template hkey hblob.decrypt).bind
    stable_sees fun _ => ?_
  refine (tries_only hrule (only_io (only_perform trivial))).bind stable_sees fun _ => ?_
  refine (tries_only hrule (only_exceptT_lift (only_perform ?_))).bind stable_sees fun _ => ?_
  · simp [Benign]
  · exact Attempts.pure stable_sees fun _ h => h

theorem tries_loadEncryptedEmbedding {pr : Process} (hcl : pr.cl = cl) :
    Tries sealed cl user i flt Allowed (.key key) (loadEncryptedEmbedding pr user key)
      (fun _ => Sees sealed cl user i (.key key)) (.key key) := by
  refine (tries_only hrule only_orFail).bind stable_sees fun _ => ?_
  refine (tries_only hrule (only_exceptT_lift (only_perform ?_))).bind stable_sees fun present => ?_
  · simp [Benign]
  split
  · refine tries_only hrule (only_exceptT_bind (only_io (only_perform ?_)) fun _ => only_orFail)
    simp [Benign]
  · refine (tries_only hrule (only_exceptT_lift (only_perform ?_))).bind stable_sees fun legacy =>
      ?_
    · simp [Benign]
    split
    · split
      · exact Attempts.bind (Q := fun _ _ => False) (Attempts.throw stable_sees fun _ h => h)
          stable_sees fun _ _ h => h.elim
      · refine (tries_only hrule (only_io (only_perform ?_))).bind stable_sees fun raw => ?_
        · simp [Benign]
        rw [hcl]
        refine (tries_saveEncryptedEmbedding hrule raw).bind stable_sees fun _ => ?_
        refine tries_only hrule (only_exceptT_bind (only_exceptT_lift (only_perform ?_)) fun _ =>
          only_exceptT_pure)
        simp [Benign]
    · exact Attempts.throw stable_sees fun _ h => h

/-! ## Recovery -/

private theorem tries_wrap (hauth : Authentic cl) (passphrase key : Bytes) :
    Tries sealed cl user i flt Allowed s (wrap cl passphrase key)
      (fun env x => Wraps cl env key ∧ Sees sealed cl user i s x) s := by
  unfold wrap
  split
  · exact Attempts.bind (Q := fun _ _ => False) (Attempts.throw stable_sees fun _ h => h)
      stable_sees fun _ _ h => h.elim
  · refine (tries_only hrule (only_exceptT_lift (only_perform (by trivial)))).bind stable_sees
      fun salt => ?_
    refine Attempts.bind (Q := fun dk x => cl.argon2 passphrase salt M_COST T_COST P_COST = .ok dk ∧
      Sees sealed cl user i s x) (Promises.ret stable_sees fun y hy => ?_) stable_sees fun dk => ?_
    · cases hdk : cl.argon2 passphrase salt M_COST T_COST P_COST with
      | error e => exact hy
      | ok dk => exact ⟨rfl, hy⟩
    refine Promises.given fun hdk => ?_
    refine (tries_encrypt hrule dk key).bind stable_sees fun blob => Promises.given fun hblob => ?_
    exact Attempts.pure stable_sees fun y hy => ⟨hblob.wraps hauth hdk, hy⟩

theorem tries_saveRecovery (hauth : Authentic cl) (passphrase : Bytes) :
    Tries sealed cl user i flt Allowed s (saveRecovery cl user passphrase)
      (fun _ => Sees sealed cl user i .nothing) .nothing := by
  refine (tries_unsealTemplateKey hrule).bind stable_sees fun key => ?_
  have hforget : ∀ {e : Sight} (y : World × Log host ι), Sees sealed cl user i e y →
      Sees sealed cl user i .nothing y := fun _ h => h.forget
  refine ((tries_wrap hrule hauth passphrase key).consequence (fun _ h => h) (fun _ _ h => h)
    hforget).bind stable_sees fun env => Promises.given fun hwraps => ?_
  refine ((tries_only hrule only_orFail).consequence (fun _ h => h) (fun _ _ h => h) hforget).bind
    stable_sees fun _ => ?_
  refine ((tries_only hrule (only_io (only_perform trivial))).consequence (fun _ h => h)
    (fun _ _ h => h) hforget).bind stable_sees fun _ => ?_
  refine ((tries_store hrule (.inr rfl) fun w hkey h => h.set_recovery hkey hwraps).consequence
    (fun _ h => h) (fun _ _ h => h) hforget).bind stable_sees fun _ => ?_
  exact (tries_chmod hrule).consequence (fun _ h => h) (fun _ => hforget) fun _ h => h

theorem tries_restoreFromRecovery (passphrase : Bytes) :
    Tries sealed cl user i flt Allowed s (restoreFromRecovery cl user passphrase)
      (fun _ => Sees sealed cl user i .nothing) .nothing := by
  refine Attempts.bind (Q := fun _ => Sees sealed cl user i s) ?_ stable_sees fun _ => ?_
  · exact Promises.ret stable_sees fun y hy => by
      cases validateUser user with
      | error e => exact hy.forget
      | ok u => exact hy
  refine (Attempts.lift (runs_readRecovery hrule passphrase)).bind stable_sees fun content => ?_
  rcases content with e | json
  · exact Attempts.throw stable_sees fun _ h => h.forget
  cases json with
  | invalidUtf8 => exact Attempts.throw stable_sees fun _ h => h.forget
  | malformed msg =>
      refine Attempts.bind (Q := fun _ _ => False) (Promises.ret stable_sees fun _ h => h.forget)
        stable_sees fun _ _ h => h.elim
  | value env =>
      refine Attempts.bind (Q := fun env' y => env' = env ∧
        Sees sealed cl user i (.ofKey? (unwrap cl passphrase env).toOption) y)
        (Promises.ret stable_sees fun _ h => ⟨rfl, h⟩) stable_sees fun env' => ?_
      refine Promises.given fun henv => ?_
      rw [henv]
      refine Attempts.bind (Q := fun key => Sees sealed cl user i (.key key))
        (Promises.ret stable_sees fun y hy => ?_) stable_sees fun key => ?_
      · cases hunwrap : unwrap cl passphrase env with
        | error e => exact hy.forget
        | ok key => rwa [hunwrap] at hy
      · exact (tries_sealTemplateKey hrule).consequence (fun _ h => h) (fun _ _ h => h.forget)
          fun _ h => h

end Operations

end Linhello.Daemon
