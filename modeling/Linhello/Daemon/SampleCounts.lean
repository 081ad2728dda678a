import Linhello.Daemon.KeyConsistency
import Linhello.Daemon.StoredTemplates
/-!
# Three ways to count samples

`Enroll` answers with the length of the plaintext it stored, `profile_sample_count` goes by
the size of the ciphertext, and a verification parses what it decrypts. After enrollments
the three agree.
-/

namespace Linhello.Daemon

open Common Linhello.Core Effect Host Host.World Liveness Biometrics

variable {pr : Process} {user : String} {peerUid : Option Nat} {reset : Bool} {cl : CryptoLib}
  {fl : FloatLib} {good : List F32 → Prop} {sealed : SealedEnvelope → Option Bytes} {flt : Faults}
  {w w' v : World} {key raw blob : Bytes} {n : Nat}

/-! ## The size of a ciphertext -/

theorem Encrypts.size (h : Encrypts cl key raw blob) : blob.length = 12 + raw.length + 16 := by
  obtain ⟨-, nonce, hnonce, hseal⟩ := h
  simp only [encryptWith] at hseal
  split at hseal
  · cases hseal
  · next ct hct =>
      obtain rfl := Except.ok.inj hseal
      rw [List.length_append, hnonce, cl.length_aeadSeal _ _ _ _ hct, NONCE_LEN, Nat.add_assoc]

/-- Where the metadata can be read, the count goes by the encrypted template. -/
theorem profileSampleCount_of_template {c : Nat}
    (hblob : w.file (.user user .embeddingEnc) = some blob) :
    Exec (Step sealed .none) (profileSampleCount user) w c w' ↔
      c = (blob.length - (12 + 16)) / (EMBEDDING_DIM * 4) ∧ w' = w := by
  have hsize : w.templateSize user false = some blob.length := by rw [templateSize, hblob]; rfl
  have hallows : ∀ r : Except IoError Nat,
      w.allows sealed .none (.templateLen user false) r = true ↔ r = .ok blob.length := by
    intro r
    cases r with
    | error e => cases e <;> simp [allows, ioAnswer, hsize, Faults.none]
    | ok m => simp [allows, ioAnswer, hsize, eq_comm]
  constructor
  · intro h
    obtain ⟨r, u, hstat, hret⟩ := exec_bind.1 h
    obtain ⟨hanswer, rfl⟩ := exec_perform.1 hstat
    obtain rfl := (hallows r).1 hanswer
    exact hret
  · rintro ⟨rfl, rfl⟩
    refine exec_bind.2 ⟨.ok blob.length, w', exec_perform.2 ⟨(hallows _).2 rfl, rfl⟩, rfl, rfl⟩

/-! ## An accepted enrollment -/

/-- The plaintext in the template and the number that was answered. -/
def Stored (cl : CryptoLib) (user : String) (n : Nat) (w : World) : Prop :=
  ∃ key blob raw, w.file (.user user .embeddingEnc) = some blob ∧ decrypt cl key blob = .ok raw ∧
    raw ≠ [] ∧ n = raw.length / STRIDE_BYTES

theorem stored_of_enrolled
    (h : Exec (Step sealed flt) (dispatch pr (.enroll user reset) peerUid) w (.enrolled n) w') :
    Stored pr.cl user n w' := by
  obtain ⟨-, henroll⟩ := exec_enroll_enrolled h
  obtain ⟨emb, signals, v, hcapture, hstore⟩ := exec_doEnroll_captured henroll
  obtain ⟨key, v₁, existing, v₂, v₃, -, -, hsave, hrecord, hn⟩ := exec_storeSample_enrolled hstore
  obtain ⟨blob, hdec, hfile⟩ := exec_saveEncryptedEmbedding_ok hsave
  have hkept : w'.file (.user user .embeddingEnc) = v₃.file (.user user .embeddingEnc) :=
    file_of_spares ((only_recordCapture reset signals).imp fun _ =>
      spares_of_recordOp (by simp) (by simp)) hrecord
  refine ⟨key, blob, _, hkept.trans hfile, hdec, fun hnil => ?_, hn⟩
  have hlen := length_captured hcapture
  rw [(List.append_eq_nil_iff.1 hnil).2] at hlen
  cases hlen

/-! ## Runs of enrollments -/

/-- One or more enrollments that were accepted, with the last answer. The daemon may be
restarted after any of them. -/
inductive EnrollRun (sealed : SealedEnvelope → Option Bytes) (flt : Faults) (cl : CryptoLib)
    (good : List F32 → Prop) (user : String) : World → Nat → World → Prop
  | first {w v : World} {n : Nat} {pr : Process} {reset : Bool} {peerUid : Option Nat}
      (crypto : pr.cl = cl) (captured : ∀ emb, Captured pr emb → good emb)
      (enroll :
        Exec (Step sealed flt) (dispatch pr (.enroll user reset) peerUid) w (.enrolled n) v) :
      EnrollRun sealed flt cl good user w n v
  | next {w u v : World} {m n : Nat} {pr : Process} {reset : Bool} {peerUid : Option Nat}
      (before : EnrollRun sealed flt cl good user w m u) (crypto : pr.cl = cl)
      (captured : ∀ emb, Captured pr emb → good emb)
      (enroll :
        Exec (Step sealed flt) (dispatch pr (.enroll user reset) peerUid) u (.enrolled n) v) :
      EnrollRun sealed flt cl good user w n v
  | restart {w v : World} {n : Nat} (before : EnrollRun sealed flt cl good user w n v) :
      EnrollRun sealed flt cl good user w n { v with cache := ∅ }

theorem sound_of_enroll (hauth : Authentic cl) (hcl : pr.cl = cl)
    (hgood : ∀ emb, Captured pr emb → good emb) {resp : Response}
    (hw : TemplateSound cl good user w)
    (h : Exec (Step sealed flt) (dispatch pr (.enroll user reset) peerUid) w resp w') :
    TemplateSound cl good user w' := by
  subst hcl
  exact ((guided_templates hauth hgood (.enroll user reset)).keeps informed_step hw h).1

theorem EnrollRun.keeps (hauth : Authentic cl) (hw : TemplateSound cl good user w)
    (h : EnrollRun sealed flt cl good user w n w') :
    TemplateSound cl good user w' ∧ Stored cl user n w' := by
  induction h with
  | first crypto captured enroll =>
      exact ⟨sound_of_enroll hauth crypto captured hw enroll, crypto ▸ stored_of_enrolled enroll⟩
  | next before crypto captured enroll ih =>
      exact ⟨sound_of_enroll hauth crypto captured ih.1 enroll,
        crypto ▸ stored_of_enrolled enroll⟩
  | restart before ih =>
      obtain ⟨hsound, key, blob, raw, hblob, hrest⟩ := ih
      exact ⟨hsound.restart, key, blob, raw, by rwa [file_withCache], hrest⟩

/-- The count of `ListProfiles`, of the parsed template and of the last answer. -/
structure CountsAgree (sealed : SealedEnvelope → Option Bytes) (cl : CryptoLib) (fl : FloatLib)
    (good : List F32 → Prop) (user : String) (n : Nat) (w : World) : Prop where
  listed : ∀ c w', Exec (Step sealed .none) (profileSampleCount user) w c w' ↔ c = n ∧ w' = w
  readable : ∃ key blob raw, w.file (.user user .embeddingEnc) = some blob ∧
    decrypt cl key blob = .ok raw
  parsed : ∀ key blob raw, w.file (.user user .embeddingEnc) = some blob →
    decrypt cl key blob = .ok raw →
    (∀ samples, parseRawEmbeddings fl raw = .ok samples → samples.length = n) ∧
      ((∀ emb, good emb → Acceptable fl emb) → ∃ samples, parseRawEmbeddings fl raw = .ok samples)

private theorem countsAgree_of_stored (hauth : Authentic cl) (hsound : TemplateSound cl good user w)
    (hstored : Stored cl user n w) : CountsAgree sealed cl fl good user n w := by
  obtain ⟨key, blob, raw, hblob, hdec, hne, hn⟩ := hstored
  obtain ⟨k, m, hencrypts, hm⟩ := hsound.stored blob hblob
  obtain rfl := hencrypts.authentic hauth hdec
  constructor
  · intro c w'
    have hcount : (blob.length - (12 + 16)) / (EMBEDDING_DIM * 4) = n := by
      have hoverhead : blob.length - (12 + 16) = raw.length := by
        rw [hencrypts.size]
        omega
      rw [hoverhead, hn, STRIDE_BYTES]
    rw [profileSampleCount_of_template hblob, hcount]
  · exact ⟨key, blob, raw, hblob, hdec⟩
  · intro key' blob' raw' hblob' hdec'
    obtain rfl := Option.some.inj (hblob.symm.trans hblob')
    obtain rfl := hencrypts.authentic hauth hdec'
    constructor
    · intro samples hsamples
      obtain ⟨-, -, rfl⟩ := parseRawEmbeddings_ok_iff.1 hsamples
      rw [List.length_map, length_storedSamples hm.size, hn]
    · intro hgood
      exact ⟨_, parseRawEmbeddings_ok_iff.2
        ⟨⟨hne, hm.size⟩, fun v hv => hgood v (hm.samples v hv), rfl⟩⟩

/-- After any run of accepted enrollments the three counts agree. -/
theorem sample_counts_agree (hauth : Authentic cl) (hstart : History sealed flt cl good user w)
    (hrun : EnrollRun sealed flt cl good user w n w') :
    CountsAgree sealed cl fl good user n w' := by
  obtain ⟨hsound, hstored⟩ := hrun.keeps hauth (hstart.sound hauth)
  exact countsAgree_of_stored hauth hsound hstored

/-! Two samples, one after the other, for a user who had none. -/

theorem captured_simulatedProcess {emb : List F32} (h : Captured simulatedProcess emb) :
    Acceptable simulatedFloats emb := by
  obtain ⟨infer, aligned, out, hinfer, hout, hcheck⟩ := h
  obtain rfl : (fun _ => .ok (unitVector 0)) = infer := Except.ok.inj hinfer
  obtain rfl : unitVector 0 = out := Except.ok.inj hout
  have hsame : checkEmbedding (unitVector 0) = .ok (unitVector 0) := by decide +kernel
  obtain rfl := Except.ok.inj (hsame.symm.trans hcheck)
  have hfinite : (unitVector 0).all F32.isFinite = true := by decide +kernel
  have hnorm : 1 / 1000000 < normOf simulatedFloats (unitVector 0) := by decide +kernel
  exact ⟨hfinite, hnorm⟩

def unenrolledWorld : World :=
  { emptyWorld with cache := emptyWorld.cache.insert "alice" simulatedKey }

theorem history_unenrolledWorld : History simulatedUnseal .none simulatedCrypto
    (Acceptable simulatedFloats) "alice" unenrolledWorld := by
  have hnone : ∀ f, unenrolledWorld.file (.user "alice" f) = none := by
    intro f
    rw [unenrolledWorld, file_withCache, file_emptyWorld]
  apply History.fresh (hnone .embeddingEnc)
  intro raw hraw
  rw [hnone .embeddingBin] at hraw
  cases hraw

theorem sample_counts_agree_alice : ∃ w, CountsAgree simulatedUnseal simulatedCrypto simulatedFloats
    (Acceptable simulatedFloats) "alice" 2 w := by
  have hruns : ((simulatedScript.run simulatedUnseal .none 60
      (dispatch simulatedProcess (.enroll "alice" true) (some 0)) unenrolledWorld).bind fun x =>
        (simulatedScript.run simulatedUnseal .none 60
          (dispatch simulatedProcess (.enroll "alice" false) (some 0)) x.2).map fun y =>
            (x.1, y.1)) = some (.enrolled 1, .enrolled 2) := by
    decide +kernel
  obtain ⟨⟨r₁, w₁⟩, hfirst, hsecond⟩ := Option.bind_eq_some_iff.1 hruns
  obtain ⟨⟨r₂, w₂⟩, hsecond, heq⟩ := Option.map_eq_some_iff.1 hsecond
  obtain ⟨rfl, rfl⟩ := Prod.mk.inj heq
  have hexec : ∀ {p : Proc Response} {w w' : World} {r : Response},
      simulatedScript.run simulatedUnseal .none 60 p w = some (r, w') →
      Exec (Step simulatedUnseal .none) p w r w' :=
    fun h => exec_of_execute (fun _ _ _ _ _ => World.step_sound) h
  exact ⟨w₂, sample_counts_agree authentic_simulatedCrypto history_unenrolledWorld
    (.next (.first rfl (fun _ => captured_simulatedProcess) (hexec hfirst)) rfl
      (fun _ => captured_simulatedProcess) (hexec hsecond))⟩

end Linhello.Daemon
