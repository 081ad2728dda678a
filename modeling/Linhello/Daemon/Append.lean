import Linhello.Daemon.Release
/-!
# Appending a sample

`Enroll` without a reset keeps the samples that are there when the existing
template could be read, and only then: every failure to load it counts as "no
enrollment yet". `enroll_append_iff` states the law of an append for one request
and says when it holds.
-/

namespace Linhello.Daemon

open Common Linhello.Core Effect Host Host.World Liveness Biometrics

variable {W : Type} {S : Semantics host W} {sealed : SealedEnvelope → Option Bytes} {flt : Faults}
  {pr : Process} {user : String} {peerUid : Option Nat} {resp : Response}

/-! ## Footprints -/

/-- The operations of getting or creating the template key. -/
def keyOp (user : String) : Op → Prop
  | .cacheGet u | .cacheInsert u _ => u = user
  | .pathExists p | .read p | .write p _ | .setPermissions p =>
      p = .user user .templateKeyEnvelope
  | .createDirAll u => u = some user
  | .tpmSeal _ | .tpmUnseal _ | .randomBytes _ => True
  | _ => False

/-- The operations of recording the camera binding and the IR calibration. -/
def recordOp (user : String) : Op → Prop
  | .write p _ | .setPermissions p =>
      p = .user user .cameraBinding ∨ p = .user user .irCalibration
  | o => looks (fun p => p = .user user .irCalibration) o

private theorem only_unsealTemplateKey : (unsealTemplateKey user).run.Only (keyOp user) := by
  refine only_exceptT_bind only_orFail fun _ => ?_
  refine only_exceptT_bind (only_readJson rfl) fun env => ?_
  exact only_fallible (only_perform trivial)

private theorem only_ensureTemplateKey : (ensureTemplateKey user).run.Only (keyOp user) := by
  refine only_exceptT_bind only_orFail fun _ => ?_
  refine only_exceptT_bind (only_exceptT_lift (only_perform rfl)) fun present => ?_
  split
  · exact only_unsealTemplateKey
  · refine only_exceptT_bind (only_exceptT_lift (only_perform trivial)) fun key => ?_
    refine only_exceptT_bind (only_fallible (only_perform trivial)) fun env => ?_
    refine only_exceptT_bind ?_ fun _ => ?_
    · refine only_exceptT_bind (only_io (only_perform rfl)) fun _ => ?_
      exact only_io (only_perform rfl)
    · exact only_exceptT_bind (only_io (only_perform rfl)) fun _ => .ret _

theorem only_cachedTemplateKey : (cachedTemplateKey user).run.Only (keyOp user) := by
  refine only_exceptT_bind (only_exceptT_lift (only_perform rfl)) fun cached => ?_
  cases cached with
  | some key => exact .ret _
  | none =>
      refine only_exceptT_bind (only_map only_ensureTemplateKey) fun key => ?_
      exact only_exceptT_bind (only_exceptT_lift (only_perform rfl)) fun _ => .ret _

theorem recordOp_of_looks {o : Op} (h : looks (fun p => p = .user user .irCalibration) o) :
    recordOp user o := by
  cases o <;> first | exact h | cases h

theorem only_recordCapture (reset : Bool) (signals : LivenessSignals) :
    (recordCapture user reset signals).Only (recordOp user) := by
  refine only_bind (looks_snapshotCameraBinding.imp fun _ => recordOp_of_looks) fun binding => ?_
  refine only_bind ?_ fun _ => ?_
  · exact only_bind (only_perform (.inl rfl)) fun _ =>
      only_bind (only_perform (.inl rfl)) fun _ => .ret _
  · refine only_bind ?_ fun cal => ?_
    · unfold priorCalibration
      split
      · exact .ret _
      · have hlooks := looks_loadIrCalibration (F := fun p => p = .user user .irCalibration) rfl
        exact hlooks.imp fun _ => recordOp_of_looks
    · exact only_bind (only_perform (.inr rfl)) fun _ =>
        only_bind (only_perform (.inr rfl)) fun _ => .ret _

theorem spares_of_keyOp {p : Path} (hp : p ≠ .user user .templateKeyEnvelope) {o : Op}
    (h : keyOp user o) : spares p o := by
  cases o with
  | write q d => exact fun hq => hp (hq.symm.trans h)
  | removeFile q => cases h
  | removeDir u => cases h
  | _ => trivial

theorem spares_of_recordOp {p : Path} (hbinding : p ≠ .user user .cameraBinding)
    (hcal : p ≠ .user user .irCalibration) {o : Op} (h : recordOp user o) : spares p o := by
  cases o with
  | write q d =>
      rcases h with h | h
      · exact fun hq => hbinding (hq.symm.trans h)
      · exact fun hq => hcal (hq.symm.trans h)
  | removeFile q => cases h
  | removeDir u => cases h
  | _ => trivial

/-! ## The stages of an append -/

/-- What an accepted sample went through once it was captured. -/
theorem exec_storeSample_enrolled {w w' : W} {n : Nat} {reset : Bool} {emb : List F32}
    {signals : LivenessSignals}
    (h : Exec S (storeSample pr user reset emb signals) w (.enrolled n) w') :
    ∃ key v₁ existing v₂ v₃, Exec S (cachedTemplateKey user).run w (.ok key) v₁ ∧
      Exec S (existingTemplate pr user reset key) v₁ existing v₂ ∧
      Exec S (saveEncryptedEmbedding pr.cl user (existing ++ embeddingToBytes emb) key).run v₂
        (.ok ()) v₃ ∧
      Exec S (recordCapture user reset signals) v₃ () w' ∧
      n = (existing ++ embeddingToBytes emb).length / (EMBEDDING_DIM * 4) := by
  obtain ⟨key?, v₁, hkey, hrest⟩ := exec_bind.1 h
  cases key? with
  | error e => cases hrest.1
  | ok key =>
      obtain ⟨existing, v₂, hexisting, hsave⟩ := exec_bind.1 hrest
      obtain ⟨saved, v₃, hsaved, hend⟩ := exec_bind.1 hsave
      cases saved with
      | error e => cases hend.1
      | ok _ =>
          obtain ⟨_, v₄, hrecord, hret⟩ := exec_bind.1 hend
          obtain ⟨hn, rfl⟩ := hret
          exact ⟨key, v₁, existing, v₂, v₃, hkey, hexisting, hsaved, hrecord,
            Response.enrolled.inj hn⟩

/-- A request that answers `Enrolled` captured a sample and stored it. -/
theorem exec_doEnroll_captured {w w' : W} {n : Nat} {reset : Bool}
    (h : Exec S (doEnroll pr user reset) w (.enrolled n) w') :
    ∃ emb signals v, Exec S (captureAndEmbedSignals pr).run w (.ok (emb, signals)) v ∧
      Exec S (storeSample pr user reset emb signals) v (.enrolled n) w' := by
  obtain ⟨capture, v, hcapture, hstore⟩ := exec_bind.1 h
  cases capture with
  | error e => cases hstore.1
  | ok x => exact ⟨x.1, x.2, v, hcapture, hstore⟩

/-- What an append that answers `Enrolled` went through. -/
theorem exec_doEnroll_enrolled {w w' : W} {n : Nat}
    (h : Exec S (doEnroll pr user false) w (.enrolled n) w') :
    ∃ emb signals w₁ key w₂ loaded w₃ w₄,
      Exec S (captureAndEmbedSignals pr).run w (.ok (emb, signals)) w₁ ∧
      Exec S (cachedTemplateKey user).run w₁ (.ok key) w₂ ∧
      Exec S (loadEncryptedEmbedding pr user key).run w₂ loaded w₃ ∧
      Exec S (saveEncryptedEmbedding pr.cl user (loaded.toOption.getD [] ++ embeddingToBytes emb)
        key).run w₃ (.ok ()) w₄ ∧
      Exec S (recordCapture user false signals) w₄ () w' ∧
      n = (loaded.toOption.getD [] ++ embeddingToBytes emb).length / (EMBEDDING_DIM * 4) := by
  obtain ⟨emb, signals, w₁, hcapture, hstore⟩ := exec_doEnroll_captured h
  obtain ⟨key, w₂, existing, w₃, w₄, hkey, hexisting, hsave, hrecord, hn⟩ :=
    exec_storeSample_enrolled hstore
  obtain ⟨loaded, v, hload, hret⟩ := exec_bind.1 hexisting
  have hloaded : existing = loaded.toOption.getD [] ∧ w₃ = v := by
    cases loaded <;> exact hret
  obtain ⟨rfl, rfl⟩ := hloaded
  exact ⟨emb, signals, w₁, key, w₂, loaded, w₃, w₄, hcapture, hkey, hload, hsave, hrecord, hn⟩

theorem exec_enroll_enrolled {w w' : W} {n : Nat} {reset : Bool}
    (h : Exec S (dispatch pr (.enroll user reset) peerUid) w (.enrolled n) w') :
    validateUser user = .ok () ∧ Exec S (doEnroll pr user reset) w (.enrolled n) w' := by
  simp only [dispatch, rootOnly] at h
  split at h
  · cases h.1
  · unfold withUser at h
    cases hname : validateUser user with
    | error e =>
        rw [hname] at h
        cases h.1
    | ok _ =>
        rw [hname] at h
        exact ⟨rfl, h⟩

theorem returns_doEnroll (reset : Bool) :
    (doEnroll pr user reset).Returns fun r => r.isError = true ∨ ∃ n, r = .enrolled n := by
  refine returns_bind fun capture => ?_
  cases capture with
  | error e => exact .ret (.inl rfl)
  | ok x =>
      refine returns_bind fun key => ?_
      cases key with
      | error e => exact .ret (.inl rfl)
      | ok key =>
          refine returns_bind fun existing => returns_bind fun saved => ?_
          cases saved with
          | error e => exact .ret (.inl rfl)
          | ok _ => exact returns_bind fun _ => .ret (.inr ⟨_, rfl⟩)

/-- A captured embedding fills exactly one stride of a template. -/
theorem length_captured {w w' : W} {emb : List F32} {signals : LivenessSignals}
    (h : Exec S (captureAndEmbedSignals pr).run w (.ok (emb, signals)) w') :
    (embeddingToBytes emb).length = STRIDE_BYTES := by
  obtain ⟨frame, face, -, aligned, infer, out, -, -, -, hcheck⟩ := exec_captureAndEmbedSignals h
  rw [length_embeddingToBytes, length_of_checkEmbedding hcheck, STRIDE_BYTES]

/-- A load that succeeds found one of the two template files. -/
theorem present_of_load_ok {w w' : World} {key raw : Bytes}
    (h : Exec (Step sealed flt) (loadEncryptedEmbedding pr user key).run w (.ok raw) w') :
    (w.file (.user user .embeddingEnc)).isSome = true ∨
      (w.file (.user user .embeddingBin)).isSome = true := by
  have hpresent : ∀ {p : Path} {v v' : World},
      Exec (Step sealed flt) (liftM (perform (.pathExists p)) : Fallible Bool).run v (.ok true) v' →
      (v.file p).isSome = true ∧ v' = v := by
    intro p v v' hexists
    rw [exec_exceptT_lift_ok, exec_perform] at hexists
    obtain ⟨hallows, rfl⟩ := hexists
    simp only [allows, Bool.not_true, Bool.and_false, Bool.or_false, beq_iff_eq] at hallows
    exact ⟨hallows.symm, rfl⟩
  unfold loadEncryptedEmbedding at h
  obtain ⟨_, v₁, hvalid, h₁⟩ := exec_exceptT_bind_ok.1 h
  obtain ⟨-, rfl⟩ := hvalid
  obtain ⟨present, v₂, hexists, h₂⟩ := exec_exceptT_bind_ok.1 h₁
  cases present with
  | true => exact .inl (hpresent hexists).1
  | false =>
      rw [exec_exceptT_lift_ok, exec_perform] at hexists
      obtain ⟨-, rfl⟩ := hexists
      obtain ⟨legacy, v₃, hlegacy, h₃⟩ := exec_exceptT_bind_ok.1 h₂
      cases legacy with
      | true => exact .inr (hpresent hlegacy).1
      | false => cases h₃.1

theorem touches_of_save_ok {cl : CryptoLib} {raw key : Bytes} {x y : World × List (Event host)}
    (h : Exec (recorded (Step sealed flt))
      (saveEncryptedEmbedding cl user raw key).run x (.ok ()) y) :
    ∃ e ∈ y.2, touches (.user user .embeddingEnc) e := by
  unfold saveEncryptedEmbedding at h
  obtain ⟨_, x₁, -, h₁⟩ := exec_exceptT_bind_ok.1 h
  obtain ⟨_, x₂, -, h₂⟩ := exec_exceptT_bind_ok.1 h₁
  obtain ⟨blob, x₃, -, h₃⟩ := exec_exceptT_bind_ok.1 h₂
  obtain ⟨_, x₄, hwrite, h₄⟩ := exec_exceptT_bind_ok.1 h₃
  rw [exec_io_ok, exec_perform] at hwrite
  have hpre := prefix_of_exec_recorded h₄
  rw [hwrite.2] at hpre
  exact ⟨_, hpre.subset (List.mem_append_right _ List.mem_cons_self), rfl, rfl⟩

/-! ## The law of an append -/

/-- The plaintext of the stored template in `w` under `key`; no template at all
counts as the empty one. -/
def Prior (pr : Process) (user : String) (w : World) (key p : Bytes) : Prop :=
  (∃ blob, w.file (.user user .embeddingEnc) = some blob ∧ decrypt pr.cl key blob = .ok p) ∨
    (w.file (.user user .embeddingEnc) = none ∧ w.file (.user user .embeddingBin) = some p ∧
      legacyMigrationAllowed pr = true) ∨
    (w.file (.user user .embeddingEnc) = none ∧ w.file (.user user .embeddingBin) = none ∧ p = [])

def touchesTemplate (user : String) (e : Event host) : Prop :=
  touches (.user user .embeddingEnc) e ∨ touches (.user user .embeddingBin) e

/-- From `x` on, `emb` was captured and `key` obtained, which led to `y`. -/
def Obtained (S : Semantics host W) (pr : Process) (user : String) (emb : List F32) (key : Bytes)
    (x y : W) : Prop :=
  ∃ signals v, Exec S (captureAndEmbedSignals pr).run x (.ok (emb, signals)) v ∧
    Exec S (cachedTemplateKey user).run v (.ok key) y

/-- The request found no template, or read the stored one. -/
def PriorRead (sealed : SealedEnvelope → Option Bytes) (flt : Faults) (pr : Process)
    (user : String) (w : World) (events : List (Event host)) : Prop :=
  (w.file (.user user .embeddingEnc) = none ∧ w.file (.user user .embeddingBin) = none) ∨
    ∃ emb key p x y, Obtained (recorded (Step sealed flt)) pr user emb key (w, []) x ∧
      Exec (recorded (Step sealed flt)) (loadEncryptedEmbedding pr user key).run x (.ok p) y ∧
      y.2 <+: events ∧ Prior pr user w key p

/-- What an append owes the samples that are stored. -/
structure AppendLaw (sealed : SealedEnvelope → Option Bytes) (flt : Faults) (pr : Process)
    (user : String) (w : World) (events : List (Event host)) (resp : Response) (w' : World) :
    Prop where
  /-- An accepted sample is appended to the previous plaintext. -/
  appended : ∀ n, resp = .enrolled n → ∃ emb key p x blob,
    Obtained (recorded (Step sealed flt)) pr user emb key (w, []) x ∧ x.2 <+: events ∧
    Prior pr user w key p ∧ w'.file (.user user .embeddingEnc) = some blob ∧
    decrypt pr.cl key blob = .ok (p ++ embeddingToBytes emb) ∧
    n = p.length / STRIDE_BYTES + 1
  /-- A template that could not be read makes the request fail without a change. -/
  refused : ¬ PriorRead sealed flt pr user w events → resp.isError = true ∧
    w'.file (.user user .embeddingEnc) = w.file (.user user .embeddingEnc) ∧
    w'.file (.user user .embeddingBin) = w.file (.user user .embeddingBin) ∧
    ∀ e ∈ events, ¬ touchesTemplate user e

theorem step_deterministic (w : World) (o : host.Op) (r : host.Ans o) (v v' : World)
    (h : Step sealed flt w o r v) (h' : Step sealed flt w o r v') : v = v' :=
  h.2.trans h'.2.symm

section Law

variable {w w' : World} {events : List (Event host)}

/-- The captured sample and the key leave the template files alone. -/
theorem Obtained.file {emb : List F32} {key : Bytes} {x y : World × List (Event host)} {p : Path}
    (h : Obtained (recorded (Step sealed flt)) pr user emb key x y)
    (hp : p ≠ .user user .templateKeyEnvelope) : y.1.file p = x.1.file p := by
  obtain ⟨signals, v, hcapture, hkey⟩ := h
  have hv : v.1 = x.1 := exec_quiet ((looks_captureAndEmbedSignals (F := fun _ => True) pr).imp
    fun _ => quiet_of_looks) (exec_of_recorded hcapture)
  rw [file_of_spares (only_cachedTemplateKey.imp fun _ => spares_of_keyOp hp)
    (exec_of_recorded hkey), hv]

/-- An append that read the stored template, or found none, keeps it. -/
theorem appended_of_priorRead {n : Nat}
    (h : Exec (recorded (Step sealed flt)) (doEnroll pr user false) (w, []) (.enrolled n)
      (w', events)) (hprior : PriorRead sealed flt pr user w events) :
    ∃ emb key p x blob, Obtained (recorded (Step sealed flt)) pr user emb key (w, []) x ∧
      x.2 <+: events ∧ Prior pr user w key p ∧
      w'.file (.user user .embeddingEnc) = some blob ∧
      decrypt pr.cl key blob = .ok (p ++ embeddingToBytes emb) ∧
      n = p.length / STRIDE_BYTES + 1 := by
  obtain ⟨emb, signals, x₁, key, x₂, loaded, x₃, x₄, hcapture, hkey, hload, hsave, hrecord, hn⟩ :=
    exec_doEnroll_enrolled h
  have hobtained : Obtained (recorded (Step sealed flt)) pr user emb key (w, []) x₂ :=
    ⟨signals, x₁, hcapture, hkey⟩
  have hpre₄ : x₄.2 <+: events := prefix_of_exec_recorded hrecord
  have hpre₃ : x₃.2 <+: events := (prefix_of_exec_recorded hsave).trans hpre₄
  have hpre₂ : x₂.2 <+: events := (prefix_of_exec_recorded hload).trans hpre₃
  have hpre₁ : x₁.2 <+: events := (prefix_of_exec_recorded hkey).trans hpre₂
  -- what the load returned is the plaintext of the template before the request
  have hplain : Prior pr user w key (loaded.toOption.getD []) := by
    rcases hprior with ⟨henc, hbin⟩ | ⟨emb', key', p, x, y, ⟨signals', v, hcapture', hkey'⟩, hload',
      hpre, hprior⟩
    · cases loaded with
      | error e => exact .inr (.inr ⟨henc, hbin, rfl⟩)
      | ok raw =>
          have hpresent := present_of_load_ok (exec_of_recorded hload)
          rw [hobtained.file (by simp), hobtained.file (by simp), henc, hbin] at hpresent
          simp at hpresent
    · have hprex : x.2 <+: events := (prefix_of_exec_recorded hload').trans hpre
      have hprev : v.2 <+: events := (prefix_of_exec_recorded hkey').trans hprex
      obtain ⟨hcaptured, rfl⟩ := exec_recorded_unique step_deterministic
        hcapture hcapture' hpre₁ hprev
      obtain ⟨hkeys, rfl⟩ := exec_recorded_unique step_deterministic
        hkey hkey' hpre₂ hprex
      obtain rfl := Except.ok.inj hkeys
      obtain ⟨rfl, -⟩ := exec_recorded_unique step_deterministic
        hload hload' hpre₃ hpre
      exact hprior
  obtain ⟨blob, hdec, hfile⟩ := exec_saveEncryptedEmbedding_ok (exec_of_recorded hsave)
  have hkept : w'.file (.user user .embeddingEnc) = x₄.1.file (.user user .embeddingEnc) :=
    file_of_spares ((only_recordCapture false signals).imp fun _ =>
      spares_of_recordOp (by simp) (by simp)) (exec_of_recorded hrecord)
  have hcount : (loaded.toOption.getD [] ++ embeddingToBytes emb).length / (EMBEDDING_DIM * 4) =
      (loaded.toOption.getD []).length / STRIDE_BYTES + 1 := by
    rw [List.length_append, length_captured hcapture]
    exact Nat.add_div_right _ (by decide)
  exact ⟨emb, key, _, x₂, blob, hobtained, hpre₂, hplain, hkept.trans hfile, hdec, hn.trans hcount⟩

/-- A request that leaves the template files alone was not accepted. -/
theorem not_enrolled_of_untouched {n : Nat}
    (hevents : ∀ e ∈ events, ¬ touchesTemplate user e) :
    ¬ Exec (recorded (Step sealed flt)) (doEnroll pr user false) (w, []) (.enrolled n)
      (w', events) := by
  intro h
  obtain ⟨emb, signals, x₁, key, x₂, loaded, x₃, x₄, -, -, -, hsave, hrecord, -⟩ :=
    exec_doEnroll_enrolled h
  obtain ⟨e, he, htouches⟩ := touches_of_save_ok hsave
  exact hevents e ((prefix_of_exec_recorded hrecord).subset he) (.inl htouches)

private theorem doEnroll_append_iff
    (h : Exec (recorded (Step sealed flt)) (doEnroll pr user false) (w, []) resp (w', events)) :
    AppendLaw sealed flt pr user w events resp w' ↔
      PriorRead sealed flt pr user w events ∨ ∀ e ∈ events, ¬ touchesTemplate user e := by
  constructor
  · intro hlaw
    by_cases hprior : PriorRead sealed flt pr user w events
    · exact .inl hprior
    · exact .inr (hlaw.refused hprior).2.2.2
  · intro hcond
    constructor
    · rintro n rfl
      rcases hcond with hprior | huntouched
      · exact appended_of_priorRead h hprior
      · exact absurd h (not_enrolled_of_untouched huntouched)
    · intro hprior
      have huntouched := hcond.resolve_left hprior
      have hfiles : ∀ p, (∀ e ∈ events, ¬ touches p e) → w'.file p = w.file p := fun p hp =>
        file_of_untouched h hp
      refine ⟨?_, hfiles _ fun e he ht => huntouched e he (.inl ht),
        hfiles _ fun e he ht => huntouched e he (.inr ht), huntouched⟩
      rcases (returns_doEnroll false).exec h with herror | ⟨n, rfl⟩
      · exact herror
      · exact absurd h (not_enrolled_of_untouched huntouched)

/-- An `Enroll` without a reset meets the law of an append exactly when it found no
template, or read the stored one, or was stopped before it touched the template
files. -/
theorem enroll_append_iff
    (h : Exec (recorded (Step sealed flt)) (dispatch pr (.enroll user false) peerUid) (w, []) resp
      (w', events)) :
    AppendLaw sealed flt pr user w events resp w' ↔
      PriorRead sealed flt pr user w events ∨ ∀ e ∈ events, ¬ touchesTemplate user e := by
  have hrefused : resp.isError = true → w' = w → events = [] →
      (AppendLaw sealed flt pr user w events resp w' ↔
        PriorRead sealed flt pr user w events ∨ ∀ e ∈ events, ¬ touchesTemplate user e) := by
    rintro herror rfl rfl
    have hnone : ∀ e ∈ ([] : List (Event host)), ¬ touchesTemplate user e :=
      fun e he => absurd he List.not_mem_nil
    refine ⟨fun _ => .inr hnone, fun _ => ⟨?_, fun _ => ⟨herror, rfl, rfl, hnone⟩⟩⟩
    rintro n rfl
    cases herror
  simp only [dispatch, rootOnly] at h
  split at h
  · obtain ⟨rfl, hx⟩ := h
    obtain ⟨rfl, rfl⟩ := Prod.mk.inj hx
    exact hrefused rfl rfl rfl
  · unfold withUser at h
    split at h
    · obtain ⟨rfl, hx⟩ := h
      obtain ⟨rfl, rfl⟩ := Prod.mk.inj hx
      exact hrefused rfl rfl rfl
    · exact doEnroll_append_iff h

end Law

/-! An enrolled user whose template was damaged on disk: the next enrollment is
accepted, and the sample that was there is gone. -/

def tamperedWorld : World :=
  (enrolledWorld "alice").set (.user "alice" .embeddingEnc) (simulatedTemplate ++ [0])

theorem enroll_simulated {w : World} (n : Nat)
    (hrun : (simulatedScript.run simulatedUnseal .none 60
      (dispatch simulatedProcess (.enroll "alice" false) (some 0)) w).map Prod.fst =
        some (.enrolled n)) :
    ∃ w' events, Exec (recorded (Step simulatedUnseal .none))
      (dispatch simulatedProcess (.enroll "alice" false) (some 0)) (w, []) (.enrolled n)
        (w', events) := by
  obtain ⟨w', hexec⟩ := simulatedScript.exec_of_run 60 hrun
  obtain ⟨events, hrecorded⟩ := exec_recorded hexec []
  exact ⟨w', events, hrecorded⟩

/-- One stored sample and one new one. -/
theorem enroll_append_iff_simulated :
    ∃ w' events, AppendLaw simulatedUnseal .none simulatedProcess "alice" (enrolledWorld "alice")
        events (.enrolled 2) w' ↔
      PriorRead simulatedUnseal .none simulatedProcess "alice" (enrolledWorld "alice") events ∨
        ∀ e ∈ events, ¬ touchesTemplate "alice" e := by
  obtain ⟨w', events, h⟩ := enroll_simulated (w := enrolledWorld "alice") 2 (by decide +kernel)
  exact ⟨w', events, enroll_append_iff h⟩

private theorem exec_cachedTemplateKey_cached {w w' : World} {key key' : Bytes}
    (hcached : w.cache.lookup user = some key')
    (h : Exec (Step sealed flt) (cachedTemplateKey user).run w (.ok key) w') : key = key' := by
  unfold cachedTemplateKey at h
  obtain ⟨cached, v, hget, hrest⟩ := exec_exceptT_bind_ok.1 h
  rw [exec_exceptT_lift_ok, exec_perform] at hget
  obtain ⟨hallows, -⟩ := hget
  have hcache : cached = w.cache.lookup user := by simpa [allows] using hallows
  rw [hcache, hcached] at hrest
  exact Except.ok.inj hrest.1

theorem not_enroll_append :
    ¬ ∀ (sealed : SealedEnvelope → Option Bytes) (flt : Faults) (pr : Process) (user : String)
      (peerUid : Option Nat) (w w' : World) (events : List (Event host)) (resp : Response),
      Exec (recorded (Step sealed flt)) (dispatch pr (.enroll user false) peerUid) (w, []) resp
        (w', events) → AppendLaw sealed flt pr user w events resp w' := by
  intro hall
  obtain ⟨w', events, h⟩ := enroll_simulated (w := tamperedWorld) 1 (by decide +kernel)
  obtain ⟨emb, key, p, x, blob, ⟨signals, v, hcapture, hkey⟩, -, hprior, -⟩ :=
    (hall _ _ _ _ _ _ _ _ _ h).appended 1 rfl
  have hv : v.1 = tamperedWorld :=
    exec_quiet ((looks_captureAndEmbedSignals (F := fun _ => True) simulatedProcess).imp
      fun _ => quiet_of_looks) (exec_of_recorded hcapture)
  have hcached : v.1.cache.lookup "alice" = some simulatedKey := by
    rw [hv]
    rfl
  obtain rfl := exec_cachedTemplateKey_cached hcached (exec_of_recorded hkey)
  -- under the cached key the damaged file has no plaintext
  have hfile : tamperedWorld.file (.user "alice" .embeddingEnc) = some (simulatedTemplate ++ [0]) :=
    file_set_self _ _ _
  rcases hprior with ⟨stored, hstored, hdec⟩ | ⟨hnone, -⟩ | ⟨hnone, -⟩
  · rw [hfile] at hstored
    obtain rfl := Option.some.inj hstored
    have hundecryptable : ¬ (decrypt simulatedCrypto simulatedKey (simulatedTemplate ++ [0])).isOk =
        true := by decide +kernel
    exact hundecryptable (congrArg Except.isOk hdec)
  · rw [hfile] at hnone
    cases hnone
  · rw [hfile] at hnone
    cases hnone

end Linhello.Daemon
