import Linhello.Daemon.Append
import Linhello.Daemon.DirectRelease
import Linhello.Daemon.KeyAccess
import Linhello.Host.Surroundings
/-!
# Enrolling again from scratch

`Enroll` with a reset discards the old samples, but not the old key: it goes through
the cache and the envelope like any other request. `way_out_iff` says from which
states it leaves a template that can be read again.
-/

namespace Linhello.Daemon

open Common Linhello.Core Effect Host Host.World Liveness Biometrics

variable {sealed : SealedEnvelope → Option Bytes} {flt : Faults} {w w' : World} {pr : Process}
  {user : String} {emb : List F32} {signals : LivenessSignals} {resp : Response}

/-! ## From the capture on -/

theorem dispatch_enroll (huser : validateUser user = .ok ()) (reset : Bool) :
    dispatch pr (.enroll user reset) (some 0) = doEnroll pr user reset := by
  have hroot : isRoot (some 0) = true := rfl
  simp only
    [dispatch, rootOnly, hroot, Bool.not_true, Bool.false_eq_true, if_false, withUser, huser]

/-- A request whose capture succeeded goes on to store the sample. -/
theorem exec_storeSample_of_captured {reset : Bool} {x y : World × List (Event host)}
    (huser : validateUser user = .ok ())
    (hcapture : Exec (recorded (Step sealed flt)) (captureAndEmbedSignals pr).run (w, [])
      (.ok (emb, signals)) x)
    (h : Exec (recorded (Step sealed flt))
      (dispatch pr (.enroll user reset) (some 0)) (w, []) resp y)
    (hpre : x.2 <+: y.2) :
    Exec (recorded (Step sealed flt)) (storeSample pr user reset emb signals) x resp y := by
  rw [dispatch_enroll huser] at h
  obtain ⟨capture, x', hcapture', hrest⟩ := exec_bind.1 h
  have hpre' : x'.2 <+: y.2 := prefix_of_exec_recorded hrest
  obtain ⟨rfl, rfl⟩ := exec_recorded_unique step_deterministic hcapture hcapture' hpre hpre'
  exact hrest

theorem exec_enroll_of_captured {reset : Bool} {x y : World × List (Event host)}
    (huser : validateUser user = .ok ())
    (hcapture : Exec (recorded (Step sealed flt)) (captureAndEmbedSignals pr).run (w, [])
      (.ok (emb, signals)) x)
    (hstore : Exec (recorded (Step sealed flt)) (storeSample pr user reset emb signals) x resp y) :
    Exec (recorded (Step sealed flt)) (dispatch pr (.enroll user reset) (some 0))
      (w, []) resp y := by
  rw [dispatch_enroll huser]
  exact exec_bind.2 ⟨_, x, hcapture, hstore⟩

/-- The stages of storing a sample that starts a new template. -/
theorem exec_storeSample_reset {S : Semantics host World}
    (h : Exec S (storeSample pr user true emb signals) w resp w') :
    ∃ key? v, Exec S (cachedTemplateKey user).run w key? v ∧
      ((∃ e, key? = .error e ∧ resp.isError = true) ∨
        ∃ key saved u, key? = .ok key ∧
          Exec S (saveEncryptedEmbedding pr.cl user (embeddingToBytes emb) key).run v
            saved u ∧
          ((∃ e, saved = .error e ∧ resp.isError = true) ∨
            (saved = .ok () ∧ Exec S (recordCapture user true signals) u () w' ∧
              resp = .enrolled ((embeddingToBytes emb).length / (EMBEDDING_DIM * 4))))) := by
  obtain ⟨key?, v, hkey, hrest⟩ := exec_bind.1 h
  refine ⟨key?, v, hkey, ?_⟩
  cases key? with
  | error e =>
      obtain ⟨rfl, -⟩ := hrest
      exact .inl ⟨e, rfl, rfl⟩
  | ok key =>
      obtain ⟨existing, v', hexisting, hafter⟩ := exec_bind.1 hrest
      rw [existingTemplate, if_pos rfl] at hexisting
      obtain ⟨rfl, rfl⟩ := hexisting
      obtain ⟨saved, u, hsave, hend⟩ := exec_bind.1 hafter
      refine .inr ⟨key, saved, u, rfl, hsave, ?_⟩
      cases saved with
      | error e =>
          obtain ⟨rfl, -⟩ := hend
          exact .inl ⟨e, rfl, rfl⟩
      | ok _ =>
          obtain ⟨_, t, hrecord, rfl, rfl⟩ := exec_bind.1 hend
          exact .inr ⟨rfl, hrecord, rfl⟩

/-- What is stored is encrypted under the given key, with the nonce that was drawn. -/
theorem exec_saveEncryptedEmbedding_blob {S : Semantics host World} {cl : CryptoLib}
    {raw key : Bytes} (hS : ∀ w o r v, S w o r v → Step sealed flt w o r v)
    (h : Exec S (saveEncryptedEmbedding cl user raw key).run w (.ok ()) w') :
    ∃ v v' nonce blob, S v (.randomBytes NONCE_LEN) nonce v' ∧ key.length = KEY_LEN ∧
      encryptWith cl key nonce raw = .ok blob ∧ w'.file (.user user .embeddingEnc) = some blob := by
  unfold saveEncryptedEmbedding at h
  simp only [exec_exceptT_bind_ok, exec_exceptT_lift_ok, exec_perform, exec_io_ok,
    exec_exceptT_pure] at h
  obtain ⟨_, v₁, -, _, v₂, -, blob, v₃, henc, _, v₄, hwrite, _, v₅, hchmod, r, v₆, hrm, -, rfl⟩ := h
  have hfile : w'.file (.user user .embeddingEnc) = some blob := by
    rw [step_removeFile_of_ne (hS _ _ _ _ hrm) (by simp), step_setPermissions (hS _ _ _ _ hchmod),
      step_write_ok (hS _ _ _ _ hwrite), file_set_self]
  unfold encrypt at henc
  split at henc
  · cases henc.1
  · rename_i hlen
    simp only [exec_exceptT_bind_ok, exec_exceptT_lift_ok, exec_perform, exec_orFail] at henc
    obtain ⟨nonce, v, hnonce, hblob, -⟩ := henc
    exact ⟨v₂, v, nonce, blob, hnonce, not_not.1 hlen, hblob.symm, hfile⟩

/-! ## What a reset leaves -/

/-- The key envelope unseals, and its key decrypts the template to `raw`. -/
def HoldsTemplate (sealed : SealedEnvelope → Option Bytes) (cl : CryptoLib) (user : String)
    (raw : Bytes) (w : World) : Prop :=
  ∃ env key blob, w.file (.user user .templateKeyEnvelope) = some (.value env) ∧
    sealed env = some key ∧ w.file (.user user .embeddingEnc) = some blob ∧
    decrypt cl key blob = .ok raw

/-- What is encrypted under `cached` opens under `key`: as with the key itself. -/
def OpensAs (cl : CryptoLib) (cached key raw : Bytes) : Prop :=
  ∀ nonce blob, nonce.length = NONCE_LEN → encryptWith cl cached nonce raw = .ok blob →
    decrypt cl key blob = .ok raw

theorem opensAs_self {cl : CryptoLib} {key raw : Bytes} (hlen : key.length = KEY_LEN) :
    OpensAs cl key key raw :=
  fun _ _ hnonce hblob => decrypt_encryptWith hlen hnonce hblob

/-- There is no trace of a key, or the envelope unseals to one and the cached key, if
any, agrees with it. -/
def KeyReady (sealed : SealedEnvelope → Option Bytes) (cl : CryptoLib) (user : String)
    (raw : Bytes) (w : World) : Prop :=
  match w.file (.user user .templateKeyEnvelope) with
  | none => w.cache.lookup user = none
  | some (.value env) => ∃ key, sealed env = some key ∧
      match w.cache.lookup user with
      | none => key.length = KEY_LEN
      | some cached => cached.length = KEY_LEN ∧ OpensAs cl cached key raw
  | some _ => False

/-- The key a request goes on with opens what the envelope's key opens. -/
def KeyServes (sealed : SealedEnvelope → Option Bytes) (cl : CryptoLib) (user : String)
    (raw key : Bytes) (w : World) : Prop :=
  key.length = KEY_LEN ∧ ∃ env key', w.file (.user user .templateKeyEnvelope) = some (.value env) ∧
    sealed env = some key' ∧ OpensAs cl key key' raw

theorem keyServes_of_keyReady {cl : CryptoLib} {raw : Bytes} {key? : Except String Bytes}
    (huser : validateUser user = .ok ()) (hready : KeyReady sealed cl user raw w)
    (h : Exec (Step sealed .none) (cachedTemplateKey user).run w key? w') :
    ∃ key, key? = .ok key ∧ KeyServes sealed cl user raw key w' := by
  unfold KeyReady at hready
  cases hfile : w.file (.user user .templateKeyEnvelope) with
  | none =>
      rw [hfile] at hready
      obtain ⟨key, env, rfl, hlen, hsealed, hstored⟩ :=
        faultless_cachedTemplateKey_absent huser hready hfile h
      exact ⟨key, rfl, hlen, env, key, hstored, hsealed, opensAs_self hlen⟩
  | some json =>
      rw [hfile] at hready
      cases json with
      | invalidUtf8 => exact hready.elim
      | malformed msg => exact hready.elim
      | value env =>
          obtain ⟨key, hsealed, hcache⟩ := hready
          cases hlookup : w.cache.lookup user with
          | none =>
              rw [hlookup] at hcache
              obtain ⟨rfl, rfl⟩ :=
                faultless_cachedTemplateKey_sealed huser hlookup hfile hsealed h
              exact ⟨key, rfl, hcache, env, key, by rw [file_withCache, hfile], hsealed,
                opensAs_self hcache⟩
          | some cached =>
              rw [hlookup] at hcache
              obtain ⟨rfl, rfl⟩ := exec_cachedTemplateKey_hit hlookup h
              exact ⟨cached, rfl, hcache.1, env, key, hfile, hsealed, hcache.2⟩

/-- A key of the right length that was not cached came from the envelope, or went
into it. -/
theorem keyReady_of_miss {cl : CryptoLib} {raw key : Bytes} (huser : validateUser user = .ok ())
    (hmiss : w.cache.lookup user = none)
    (h : Exec (Step sealed .none) (cachedTemplateKey user).run w (.ok key) w')
    (hlen : key.length = KEY_LEN) : KeyReady sealed cl user raw w := by
  unfold KeyReady
  cases hfile : w.file (.user user .templateKeyEnvelope) with
  | none => exact hmiss
  | some json =>
      by_cases hbroken : ∀ envelope, json = .value envelope → sealed envelope = none
      · obtain ⟨e, he⟩ := faultless_cachedTemplateKey_broken huser hmiss hfile hbroken h
        cases he
      · simp only [not_forall] at hbroken
        obtain ⟨envelope, rfl, hsome⟩ := hbroken
        obtain ⟨k, hk⟩ := Option.ne_none_iff_exists'.1 hsome
        obtain ⟨hkey, -⟩ := faultless_cachedTemplateKey_sealed huser hmiss hfile hk h
        obtain rfl := Except.ok.inj hkey
        refine ⟨key, hk, ?_⟩
        rw [hmiss]
        exact hlen

/-! ## The law of a reset -/

theorem spares_templateKey_saveEncryptedEmbedding {cl : CryptoLib} {raw key : Bytes} :
    (saveEncryptedEmbedding cl user raw key).run.Only
      (spares (.user user .templateKeyEnvelope)) := by
  refine only_exceptT_bind only_orFail fun _ => ?_
  refine only_exceptT_bind (only_io (only_perform trivial)) fun _ => ?_
  refine only_exceptT_bind ?_ fun blob => ?_
  · unfold encrypt
    split
    · exact .ret _
    · exact only_exceptT_bind (only_exceptT_lift (only_perform trivial)) fun _ => .ret _
  · refine only_exceptT_bind (only_io (only_perform (by simp [spares]))) fun _ => ?_
    refine only_exceptT_bind (only_io (only_perform trivial)) fun _ => ?_
    exact only_exceptT_bind (only_exceptT_lift (only_perform (by simp [spares]))) fun _ => .ret _

theorem spares_recordCapture {f : UserFile} (hbinding : f ≠ .cameraBinding)
    (hcal : f ≠ .irCalibration) (reset : Bool) :
    (recordCapture user reset signals).Only (spares (.user user f)) :=
  (only_recordCapture reset signals).imp fun _ =>
    spares_of_recordOp (by simpa using hbinding) (by simpa using hcal)

/-- From a state with a key that serves, every run stores the sample. -/
theorem holdsTemplate_of_keyReady (huser : validateUser user = .ok ())
    (haccepts : ∀ key nonce, key.length = KEY_LEN → nonce.length = NONCE_LEN →
      (pr.cl.aeadSeal key nonce (embeddingToBytes emb)).isSome = true)
    (hready : KeyReady sealed pr.cl user (embeddingToBytes emb) w)
    (h : Exec (Step sealed .none) (storeSample pr user true emb signals) w resp w') :
    resp = .enrolled ((embeddingToBytes emb).length / (EMBEDDING_DIM * 4)) ∧
      HoldsTemplate sealed pr.cl user (embeddingToBytes emb) w' := by
  obtain ⟨key?, v, hkey, hrest⟩ := exec_storeSample_reset h
  obtain ⟨key, rfl, hlen, env, key', hstored, hsealed, hopens⟩ :=
    keyServes_of_keyReady huser hready hkey
  rcases hrest with ⟨e, herror, -⟩ | ⟨_, saved, u, hkey', hsave, hend⟩
  · cases herror
  · obtain rfl := Except.ok.inj hkey'
    have hsaved := faultless_saveEncryptedEmbedding huser hlen (haccepts key · hlen) hsave
    rcases hend with ⟨e, herror, -⟩ | ⟨-, hrecord, rfl⟩
    · rw [hsaved] at herror
      cases herror
    · subst hsaved
      obtain ⟨t, t', nonce, blob, hnonce, -, hblob, hfile⟩ :=
        exec_saveEncryptedEmbedding_blob (fun _ _ _ _ hstep => hstep) hsave
      have henv := file_of_spares spares_templateKey_saveEncryptedEmbedding hsave
      refine ⟨rfl, env, key', blob, ?_, hsealed, ?_, hopens nonce blob ?_ hblob⟩
      · rw [file_of_spares (spares_recordCapture (by simp) (by simp) true) hrecord, henv, hstored]
      · rw [file_of_spares (spares_recordCapture (by simp) (by simp) true) hrecord, hfile]
      · exact (step_randomBytes hnonce).1

/-- Surroundings in which the given nonce is drawn. -/
def drawing (nonce : Bytes) (hnonce : nonce.length = NONCE_LEN) : Surroundings where
  answer
    | .randomBytes n => if n = NONCE_LEN then nonce else List.replicate n 0
    | o => simulatedScript.answer simulatedUnseal emptyWorld o
  random n := by
    by_cases hn : n = NONCE_LEN
    · simp [hn, hnonce]
    · simp [hn]

theorem keyReady_of_holdsTemplate (huser : validateUser user = .ok ())
    (hseal : ∀ s, ∃ env, sealed env = some s)
    (hall : ∀ resp w', Exec (Step sealed .none) (storeSample pr user true emb signals) w resp w' →
      resp.isError = false ∧ HoldsTemplate sealed pr.cl user (embeddingToBytes emb) w') :
    KeyReady sealed pr.cl user (embeddingToBytes emb) w := by
  -- what a run with a given nonce shows about its key
  have hrun : ∀ (nonce : Bytes) (hnonce : nonce.length = NONCE_LEN), ∃ key v env key' blob,
      Exec (Step sealed .none) (cachedTemplateKey user).run w (.ok key) v ∧ key.length = KEY_LEN ∧
        v.file (.user user .templateKeyEnvelope) = some (.value env) ∧ sealed env = some key' ∧
        encryptWith pr.cl key nonce (embeddingToBytes emb) = .ok blob ∧
        decrypt pr.cl key' blob = .ok (embeddingToBytes emb) := by
    intro nonce hnonce
    obtain ⟨resp, w', hexec⟩ := @answers_calm (drawing nonce hnonce) sealed _ hseal
      (storeSample pr user true emb signals) w
    obtain ⟨hok, env, key', blob, henv, hsealed, hblob, hdec⟩ := hall resp w' (exec_of_within hexec)
    obtain ⟨key?, v, hkey, hrest⟩ := exec_storeSample_reset hexec
    rcases hrest with ⟨e, -, herror⟩ | ⟨key, saved, u, rfl, hsave, hend⟩
    · rw [hok] at herror
      cases herror
    · rcases hend with ⟨e, -, herror⟩ | ⟨rfl, hrecord, -⟩
      · rw [hok] at herror
        cases herror
      · obtain ⟨t, t', nonce', blob', hdrawn, hlen, hencrypted, hfile⟩ :=
          exec_saveEncryptedEmbedding_blob (fun _ _ _ _ => step_of_within) hsave
        obtain rfl : nonce' = nonce := (calm_surrounds rfl hdrawn).1
        have hrecord' := exec_of_within hrecord
        have hsave' := exec_of_within hsave
        rw [file_of_spares (spares_recordCapture (by simp) (by simp) true) hrecord',
          file_of_spares spares_templateKey_saveEncryptedEmbedding hsave'] at henv
        rw [file_of_spares (spares_recordCapture (by simp) (by simp) true) hrecord', hfile] at hblob
        obtain rfl := Option.some.inj hblob
        exact ⟨key, v, env, key', blob', exec_of_within hkey, hlen, henv, hsealed, hencrypted, hdec⟩
  obtain ⟨key, v, env, key', blob, hkey, hlen, henv, hsealed, -, -⟩ :=
    hrun (List.replicate NONCE_LEN 0) List.length_replicate
  cases hlookup : w.cache.lookup user with
  | none => exact keyReady_of_miss huser hlookup hkey hlen
  | some cached =>
      obtain ⟨hkey', rfl⟩ := exec_cachedTemplateKey_hit hlookup hkey
      obtain rfl := Except.ok.inj hkey'
      unfold KeyReady
      rw [henv, hlookup]
      refine ⟨key', hsealed, hlen, ?_⟩
      intro nonce blob hnonce hblob
      obtain ⟨key₂, v₂, env₂, key₂', blob₂, hkey₂, -, henv₂, hsealed₂, hencrypted, hdec⟩ :=
        hrun nonce hnonce
      obtain ⟨hsame, rfl⟩ := exec_cachedTemplateKey_hit hlookup hkey₂
      obtain rfl := Except.ok.inj hsame
      obtain rfl := Json.value.inj (Option.some.inj (henv.symm.trans henv₂))
      obtain rfl := Option.some.inj (hsealed.symm.trans hsealed₂)
      obtain rfl := Except.ok.inj (hblob.symm.trans hencrypted)
      exact hdec

/-- Every run of `Enroll` with a reset that captures this sample answers `Enrolled`
and leaves a template that opens to exactly it. -/
def WayOut (sealed : SealedEnvelope → Option Bytes) (pr : Process) (user : String) (w : World)
    (emb : List F32) (signals : LivenessSignals) : Prop :=
  ∀ x resp y, Exec (recorded (Step sealed .none)) (captureAndEmbedSignals pr).run (w, [])
      (.ok (emb, signals)) x →
    Exec (recorded (Step sealed .none)) (dispatch pr (.enroll user true) (some 0)) (w, []) resp y →
    x.2 <+: y.2 → resp = .enrolled 1 ∧ HoldsTemplate sealed pr.cl user (embeddingToBytes emb) y.1

theorem world_of_captured {x : World × List (Event host)}
    (h : Exec (recorded (Step sealed flt)) (captureAndEmbedSignals pr).run (w, [])
      (.ok (emb, signals)) x) : x.1 = w :=
  exec_quiet ((looks_captureAndEmbedSignals (F := fun _ => True) pr).imp
    fun _ => quiet_of_looks) (exec_of_recorded h)

theorem WayOut.stored {w₁ : World} (h : WayOut sealed pr user w emb signals)
    (huser : validateUser user = .ok ())
    (hcapture : Exec (Step sealed .none) (captureAndEmbedSignals pr).run w (.ok (emb, signals)) w₁)
    (hstore : Exec (Step sealed .none) (storeSample pr user true emb signals) w resp w') :
    resp = .enrolled 1 ∧ HoldsTemplate sealed pr.cl user (embeddingToBytes emb) w' := by
  obtain ⟨events, hx⟩ := exec_recorded hcapture []
  obtain rfl : w₁ = w := world_of_captured hx
  obtain ⟨events', hy⟩ := exec_recorded hstore events
  exact h _ _ _ hx (exec_enroll_of_captured huser hx hy) (prefix_of_exec_recorded hy)

/-- A reset is a way out exactly where the key it goes through is ready. -/
theorem way_out_iff {w₁ : World} (huser : validateUser user = .ok ())
    (hseal : ∀ s, ∃ env, sealed env = some s)
    (haccepts : ∀ key nonce, key.length = KEY_LEN → nonce.length = NONCE_LEN →
      (pr.cl.aeadSeal key nonce (embeddingToBytes emb)).isSome = true)
    (hcapture :
      Exec (Step sealed .none) (captureAndEmbedSignals pr).run w (.ok (emb, signals)) w₁) :
    WayOut sealed pr user w emb signals ↔ KeyReady sealed pr.cl user (embeddingToBytes emb) w := by
  constructor
  · intro hway
    refine @keyReady_of_holdsTemplate sealed w pr user emb signals huser hseal fun resp w' hstore =>
      ?_
    obtain ⟨rfl, hholds⟩ := hway.stored huser hcapture hstore
    exact ⟨rfl, hholds⟩
  · intro hready x resp y hx hrequest hpre
    have hstore := exec_of_recorded (exec_storeSample_of_captured huser hx hrequest hpre)
    rw [world_of_captured hx] at hstore
    obtain ⟨hresp, hholds⟩ := holdsTemplate_of_keyReady huser haccepts hready hstore
    have hcount : (embeddingToBytes emb).length / (EMBEDDING_DIM * 4) = 1 := by
      rw [length_captured hcapture]
      rfl
    rw [hcount] at hresp
    exact ⟨hresp, hholds⟩

/-- A user with a sealed key that is also cached can start again. -/
theorem way_out_iff_simulated :
    ∃ signals, WayOut simulatedUnseal simulatedProcess "alice" (enrolledWorld "alice")
        (unitVector 0) signals ∧
      KeyReady simulatedUnseal simulatedCrypto "alice" (embeddingToBytes (unitVector 0))
        (enrolledWorld "alice") := by
  obtain ⟨signals, hcapture⟩ :=
    @exec_simulated_capture simulatedUnseal .none (enrolledWorld "alice")
  have hready : KeyReady simulatedUnseal simulatedCrypto "alice"
      (embeddingToBytes (unitVector 0)) (enrolledWorld "alice") := by
    have hfile : (enrolledWorld "alice").file (.user "alice" .templateKeyEnvelope) =
        some (.value (simulatedSeal simulatedKey)) := by simp [enrolledWorld, file_set_of_ne]
    have hcache : (enrolledWorld "alice").cache.lookup "alice" = some simulatedKey := by
      simp [enrolledWorld]
    unfold KeyReady
    rw [hfile, hcache]
    exact ⟨simulatedKey, rfl, rfl, opensAs_self rfl⟩
  exact ⟨signals, (way_out_iff rfl simulatedUnseal_seals (fun _ _ _ _ => rfl)
    hcapture).2 hready, hready⟩

/-- With an envelope that no longer parses there is no way out. -/
theorem no_way_out :
    ¬ ∀ (sealed : SealedEnvelope → Option Bytes) (pr : Process) (user : String) (w w₁ : World)
      (emb : List F32) (signals : LivenessSignals), validateUser user = .ok () →
      (∀ s, ∃ env, sealed env = some s) →
      (∀ key nonce, key.length = KEY_LEN → nonce.length = NONCE_LEN →
        (pr.cl.aeadSeal key nonce (embeddingToBytes emb)).isSome = true) →
      Exec (Step sealed .none) (captureAndEmbedSignals pr).run w (.ok (emb, signals)) w₁ →
      WayOut sealed pr user w emb signals := by
  intro hall
  let w : World :=
    emptyWorld.set (.user "alice" .templateKeyEnvelope) (.malformed "EOF while parsing")
  obtain ⟨signals, hcapture⟩ := @exec_simulated_capture simulatedUnseal .none w
  have hway := hall simulatedUnseal simulatedProcess "alice" w w (unitVector 0) signals rfl
    simulatedUnseal_seals (fun _ _ _ _ => rfl) hcapture
  have hready : KeyReady simulatedUnseal simulatedCrypto "alice" (embeddingToBytes (unitVector 0))
      w := by
    refine @keyReady_of_holdsTemplate _ w simulatedProcess _ _ signals rfl
      simulatedUnseal_seals fun resp w' hstore => ?_
    obtain ⟨rfl, hholds⟩ := hway.stored rfl hcapture hstore
    exact ⟨rfl, hholds⟩
  unfold KeyReady at hready
  rw [file_set_self] at hready
  exact hready

end Linhello.Daemon
