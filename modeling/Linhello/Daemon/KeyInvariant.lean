import Linhello.Core.Outcomes
/-!
# One key for a profile

The template key of a user exists in four copies: sealed in the TPM envelope,
cached by the daemon, wrapped in the recovery envelope, and implicitly in the
template it encrypts. `KeysAgree` says that they are the same key; the lemmas say
which changes of the world keep it so.
-/

namespace Linhello.Daemon

open Common Linhello.Core Host Host.World

variable {sealed : SealedEnvelope → Option Bytes} {cl : CryptoLib} {user : String} {w w' : World}
  {key : Bytes}

/-- The user's template-key envelope unseals to `key`. -/
def EnvKey (sealed : SealedEnvelope → Option Bytes) (user : String) (w : World) (key : Bytes) :
    Prop :=
  ∃ env, w.file (.user user .templateKeyEnvelope) = some (.value env) ∧ sealed env = some key

theorem EnvKey.unique {key' : Bytes} (h : EnvKey sealed user w key)
    (h' : EnvKey sealed user w key') : key = key' := by
  obtain ⟨env, hfile, hsealed⟩ := h
  obtain ⟨env', hfile', hsealed'⟩ := h'
  rw [hfile] at hfile'
  obtain rfl : env = env' := by simpa using hfile'
  exact Option.some.inj (hsealed.symm.trans hsealed')

theorem EnvKey.congr (h : EnvKey sealed user w key)
    (hfile : w'.file (.user user .templateKeyEnvelope) =
      w.file (.user user .templateKeyEnvelope)) : EnvKey sealed user w' key := by
  obtain ⟨env, henv, hsealed⟩ := h
  exact ⟨env, hfile.trans henv, hsealed⟩

theorem not_envKey_of_absent (h : w.file (.user user .templateKeyEnvelope) = none) :
    ¬ EnvKey sealed user w key := by
  rintro ⟨env, henv, -⟩
  rw [h] at henv
  cases henv

/-- The recovery envelope gives `key` for some passphrase, and no other key for
any. -/
def Wraps (cl : CryptoLib) (env : RecoveryEnvelope) (key : Bytes) : Prop :=
  (∃ passphrase, unwrap cl passphrase env = .ok key) ∧
    ∀ passphrase key', unwrap cl passphrase env = .ok key' → key' = key

/-- AES-GCM authenticates: a ciphertext opens, under whatever key and nonce, only
to the message it was made from. -/
def Authentic (cl : CryptoLib) : Prop :=
  ∀ k n m c k' n' m', cl.aeadSeal k n m = some c → cl.aeadOpen k' n' c = some m' → m' = m

/-- The copies of the user's key agree. -/
structure KeysAgree (sealed : SealedEnvelope → Option Bytes) (cl : CryptoLib) (user : String)
    (w : World) : Prop where
  cached : ∀ key, w.cache.lookup user = some key → EnvKey sealed user w key
  template : ∀ blob, w.file (.user user .embeddingEnc) = some blob →
    ∃ key raw, EnvKey sealed user w key ∧ decrypt cl key blob = .ok raw
  recovery : ∀ json, w.file (.user user .recoveryEnvelope) = some json →
    ∃ env key, json = .value env ∧ EnvKey sealed user w key ∧ Wraps cl env key

namespace KeysAgree

theorem mono (h : KeysAgree sealed cl user w)
    (hcache : ∀ k, w'.cache.lookup user = some k → w.cache.lookup user = some k)
    (hkey : w'.file (.user user .templateKeyEnvelope) = w.file (.user user .templateKeyEnvelope))
    (henc : ∀ b, w'.file (.user user .embeddingEnc) = some b →
      w.file (.user user .embeddingEnc) = some b)
    (hrec : ∀ j, w'.file (.user user .recoveryEnvelope) = some j →
      w.file (.user user .recoveryEnvelope) = some j) : KeysAgree sealed cl user w' where
  cached key hk := (h.cached key (hcache key hk)).congr hkey
  template blob hb := by
    obtain ⟨key, raw, henvKey, hdec⟩ := h.template blob (henc blob hb)
    exact ⟨key, raw, henvKey.congr hkey, hdec⟩
  recovery json hj := by
    obtain ⟨env, key, hvalue, henvKey, hwraps⟩ := h.recovery json (hrec json hj)
    exact ⟨env, key, hvalue, henvKey.congr hkey, hwraps⟩

theorem absent (h : KeysAgree sealed cl user w)
    (hnone : w.file (.user user .templateKeyEnvelope) = none) :
    w.cache.lookup user = none ∧ w.file (.user user .embeddingEnc) = none ∧
      w.file (.user user .recoveryEnvelope) = none := by
  refine ⟨?_, ?_, ?_⟩ <;> rw [Option.eq_none_iff_forall_ne_some]
  · intro key hk
    exact not_envKey_of_absent hnone (h.cached key hk)
  · intro blob hb
    obtain ⟨key, -, hkey, -⟩ := h.template blob hb
    exact not_envKey_of_absent hnone hkey
  · intro json hj
    obtain ⟨-, key, -, hkey, -⟩ := h.recovery json hj
    exact not_envKey_of_absent hnone hkey

theorem of_none (hcache : w.cache.lookup user = none)
    (henc : w.file (.user user .embeddingEnc) = none)
    (hrec : w.file (.user user .recoveryEnvelope) = none) : KeysAgree sealed cl user w where
  cached key hk := by
    rw [hcache] at hk
    cases hk
  template blob hb := by
    rw [henc] at hb
    cases hb
  recovery json hj := by
    rw [hrec] at hj
    cases hj

/-- The envelope is written again with the key it had, or created. -/
theorem set_templateKey (h : KeysAgree sealed cl user w) {env : SealedEnvelope}
    (hsealed : sealed env = some key)
    (hold : EnvKey sealed user w key ∨ w.file (.user user .templateKeyEnvelope) = none) :
    KeysAgree sealed cl user (w.set (.user user .templateKeyEnvelope) (.value env)) := by
  have hnew : EnvKey sealed user (w.set (.user user .templateKeyEnvelope) (.value env)) key :=
    ⟨env, file_set_self _ _ _, hsealed⟩
  have hfile : ∀ f, f ≠ .templateKeyEnvelope →
      (w.set (.user user .templateKeyEnvelope) (.value env)).file (.user user f) =
        w.file (.user user f) := fun f hf => file_set_of_ne _ _ (by simpa using hf)
  rcases hold with hold | hnone
  · constructor
    · intro k hk
      rw [cache_set] at hk
      rw [(h.cached k hk).unique hold]
      exact hnew
    · intro blob hb
      rw [hfile _ (by simp)] at hb
      obtain ⟨k, raw, hk, hdec⟩ := h.template blob hb
      obtain rfl := hk.unique hold
      exact ⟨k, raw, hnew, hdec⟩
    · intro json hj
      rw [hfile _ (by simp)] at hj
      obtain ⟨renv, k, hvalue, hk, hwraps⟩ := h.recovery json hj
      obtain rfl := hk.unique hold
      exact ⟨renv, k, hvalue, hnew, hwraps⟩
  · obtain ⟨hcache, henc, hrec⟩ := h.absent hnone
    apply of_none
    · rw [cache_set, hcache]
    · rw [hfile _ (by simp), henc]
    · rw [hfile _ (by simp), hrec]

theorem set_template (h : KeysAgree sealed cl user w) {blob raw : Bytes}
    (hkey : EnvKey sealed user w key) (hdec : decrypt cl key blob = .ok raw) :
    KeysAgree sealed cl user (w.set (.user user .embeddingEnc) blob) := by
  have hsame : (w.set (.user user .embeddingEnc) blob).file (.user user .templateKeyEnvelope) =
      w.file (.user user .templateKeyEnvelope) := file_set_of_ne _ _ (by simp)
  constructor
  · intro k hk
    rw [cache_set] at hk
    exact (h.cached k hk).congr hsame
  · intro b hb
    obtain rfl : blob = b := by simpa using hb
    exact ⟨key, raw, hkey.congr hsame, hdec⟩
  · intro json hj
    rw [file_set_of_ne _ _ (by simp)] at hj
    obtain ⟨env, k, hvalue, hk, hwraps⟩ := h.recovery json hj
    exact ⟨env, k, hvalue, hk.congr hsame, hwraps⟩

theorem set_recovery (h : KeysAgree sealed cl user w) {env : RecoveryEnvelope}
    (hkey : EnvKey sealed user w key) (hwraps : Wraps cl env key) :
    KeysAgree sealed cl user (w.set (.user user .recoveryEnvelope) (.value env)) := by
  have hsame : (w.set (.user user .recoveryEnvelope) (.value env)).file
      (.user user .templateKeyEnvelope) = w.file (.user user .templateKeyEnvelope) :=
    file_set_of_ne _ _ (by simp)
  constructor
  · intro k hk
    rw [cache_set] at hk
    exact (h.cached k hk).congr hsame
  · intro blob hb
    rw [file_set_of_ne _ _ (by simp)] at hb
    obtain ⟨k, raw, hk, hdec⟩ := h.template blob hb
    exact ⟨k, raw, hk.congr hsame, hdec⟩
  · intro json hj
    rw [file_set_self] at hj
    exact ⟨env, key, (Option.some.inj hj).symm, hkey.congr hsame, hwraps⟩

theorem insertCache (h : KeysAgree sealed cl user w) (hkey : EnvKey sealed user w key) :
    KeysAgree sealed cl user { w with cache := w.cache.insert user key } := by
  have hfile := file_withCache w (w.cache.insert user key)
  constructor
  · intro k hk
    rw [AList.lookup_insert] at hk
    obtain rfl := Option.some.inj hk
    exact hkey.congr (hfile _)
  · intro blob hb
    rw [hfile] at hb
    obtain ⟨k, raw, hk, hdec⟩ := h.template blob hb
    exact ⟨k, raw, hk.congr (hfile _), hdec⟩
  · intro json hj
    rw [hfile] at hj
    obtain ⟨env, k, hvalue, hk, hwraps⟩ := h.recovery json hj
    exact ⟨env, k, hvalue, hk.congr (hfile _), hwraps⟩

end KeysAgree

/-! ## What wrapping gives -/

/-- `blob` is an encryption of `m`. -/
def Encrypts (cl : CryptoLib) (k m blob : Bytes) : Prop :=
  k.length = KEY_LEN ∧ ∃ n, n.length = NONCE_LEN ∧ encryptWith cl k n m = .ok blob

theorem Encrypts.decrypt {k m blob : Bytes} (h : Encrypts cl k m blob) :
    decrypt cl k blob = .ok m := by
  obtain ⟨hk, n, hn, hseal⟩ := h
  exact decrypt_encryptWith hk hn hseal

theorem Encrypts.authentic (hauth : Authentic cl) {k k' m m' blob : Bytes}
    (h : Encrypts cl k m blob) (hopen : Core.decrypt cl k' blob = .ok m') : m' = m := by
  obtain ⟨-, n, hn, hseal⟩ := h
  simp only [encryptWith] at hseal
  split at hseal
  · cases hseal
  · rename_i ct hct
    obtain rfl := Except.ok.inj hseal
    have hdrop : (n ++ ct).drop NONCE_LEN = ct := by rw [← hn, List.drop_left]
    simp only [Core.decrypt, hdrop] at hopen
    split at hopen
    · cases hopen
    · split at hopen
      · cases hopen
      · split at hopen
        · cases hopen
        · rename_i plain hplain
          obtain rfl := Except.ok.inj hopen
          exact hauth _ _ _ _ _ _ _ hct hplain

/-- A recovery envelope wraps the key that was encrypted into it. -/
theorem Encrypts.wraps (hauth : Authentic cl) {passphrase salt dk blob : Bytes} {v : Nat}
    (hdk : cl.argon2 passphrase salt M_COST T_COST P_COST = .ok dk)
    (h : Encrypts cl dk key blob) :
    Wraps cl { version := v, kdf := "argon2id", salt := cl.encode salt, mCost := M_COST,
               tCost := T_COST, pCost := P_COST, wrapped := cl.encode blob } key := by
  constructor
  · refine ⟨passphrase, ?_⟩
    simp [unwrap, cl.decode_encode, hdk, h.decrypt, Except.mapError, bind, Except.bind]
  · intro passphrase' key' hunwrap
    simp only [unwrap, cl.decode_encode, Except.mapError, bind, Except.bind, ne_eq,
      not_true_eq_false, if_false] at hunwrap
    cases hdk' : cl.argon2 passphrase' salt M_COST T_COST P_COST with
    | error e =>
        rw [hdk'] at hunwrap
        cases hunwrap
    | ok dk' =>
        rw [hdk'] at hunwrap
        cases hopen : Core.decrypt cl dk' blob with
        | error e =>
            simp only [hopen] at hunwrap
            cases hunwrap
        | ok m =>
            simp only [hopen] at hunwrap
            obtain rfl := Except.ok.inj hunwrap
            exact h.authentic hauth hopen

end Linhello.Daemon
