import Linhello.Daemon.DirectRelease
import Linhello.Daemon.KeyAccess
import Linhello.Daemon.Preflight
import Linhello.Daemon.SampleCounts
import Linhello.Effect.Brackets
import Linhello.Liveness.Envelope
/-!
# Whether an accepted enrollment can be used

`Enroll` writes the template, the binding and the calibration by different rules, and
`Verify` reads all three. `enrollment_usable_iff` says after which enrollments the same
face, seen by the same cameras, is let in.
-/

namespace Linhello.Daemon

open Common Linhello.Core Effect Host Host.World Liveness Biometrics

variable {env env' : Surroundings} {sealed : SealedEnvelope → Option Bytes} {flt : Faults}
  {w w' w₁ : World} {pr : Process} {user : String} {peerUid : Option Nat} {reset : Bool}
  {emb : List F32} {signals : LivenessSignals} {resp : Response} {α : Type} {p : Proc α} {a : α}

/-! ## Samples of unit length -/

/-- Exact arithmetic: an embedding that is accepted has unit length. -/
structure UnitEmbeddings (pr : Process) : Prop where
  sqrt_one : pr.fl.sqrt 1 = 1
  unit : ∀ emb, Captured pr emb → ((emb.map F32.value).map fun x => x * x).sum = 1

/-- A captured embedding of unit length. -/
structure UnitSample (fl : FloatLib) (emb : List F32) : Prop where
  dim : emb.length = EMBEDDING_DIM
  finite : emb.all F32.isFinite = true
  square : ((emb.map F32.value).map fun x => x * x).sum = 1
  norm : normOf fl emb = 1

theorem UnitSample.acceptable {fl : FloatLib} (h : UnitSample fl emb) : Acceptable fl emb := by
  refine ⟨h.finite, ?_⟩
  rw [h.norm]
  norm_num

private theorem finite_of_checkEmbedding {out : List F32} (h : checkEmbedding out = .ok emb) :
    emb.all F32.isFinite = true := by
  simp only [checkEmbedding] at h
  split at h
  · cases h
  · split at h
    · next hok =>
        obtain rfl := Except.ok.inj h
        exact (Bool.and_eq_true_iff.1 hok).1
    · cases h

theorem UnitEmbeddings.sample (hunit : UnitEmbeddings pr) (h : Captured pr emb) :
    UnitSample pr.fl emb := by
  have hsquare := hunit.unit emb h
  have hnorm : normOf pr.fl emb = 1 := by rw [normOf, hsquare, hunit.sqrt_one]
  obtain ⟨infer, aligned, out, -, -, hcheck⟩ := h
  exact ⟨length_of_checkEmbedding hcheck, finite_of_checkEmbedding hcheck, hsquare, hnorm⟩

/-! ## Captures of fixed frames -/

/-- The faultless host in given surroundings, where the cameras show the frames that
`env` answers. -/
def staged (env : Surroundings) (sealed : SealedEnvelope → Option Bytes) : Semantics host World :=
  fun w o r w' => calm env sealed w o r w' ∧ (isCapture o = true → r = env.answer o)

theorem calm_of_staged (h : Exec (staged env sealed) p w a w') : Exec (calm env sealed) p w a w' :=
  exec_mono (fun _ _ _ _ hstep => hstep.1) h

/-- What a capture yields in given surroundings. -/
def captureIn (env : Surroundings) (pr : Process) :
    Except LinuxHelloError (List F32 × LivenessSignals) :=
  ((captureAndEmbedSignals pr).run.replay env.answer).2

private theorem answer_of_looks_nowhere {o : Op} {r : o.Ans} (ho : looks (fun _ => False) o)
    (h : staged env sealed w o r w') : r = env.answer o := by
  cases o <;> first | exact ho.elim | exact h.1.2 rfl | exact h.2 rfl

theorem capture_staged {r : Except LinuxHelloError (List F32 × LivenessSignals)}
    (h : Exec (staged env sealed) (captureAndEmbedSignals pr).run w r w') :
    r = captureIn env pr ∧ w' = w := by
  have honly : (captureAndEmbedSignals pr).run.Only (looks fun _ => False) :=
    looks_captureAndEmbedSignals pr
  constructor
  · exact honly.exec_replay (fun _ _ _ _ ho hstep => answer_of_looks_nowhere ho hstep) h
  · exact exec_quiet (honly.imp fun _ => quiet_of_looks) (exec_of_within (calm_of_staged h))

theorem staged_of_calm (hp : p.Only fun o => isCapture o = false)
    (h : Exec (calm env sealed) p w a w') : Exec (staged env sealed) p w a w' := by
  induction hp generalizing w with
  | ret b => exact h
  | @call o k here _ ih =>
      obtain ⟨r, v, hstep, hrest⟩ := h
      refine ⟨r, v, ⟨hstep, fun hcapture => ?_⟩, ih r hrest⟩
      rw [here] at hcapture
      cases hcapture

theorem answers_of_looks_staged {F : Path → Prop} (hp : p.Only (looks F)) :
    Answers (staged env sealed) p := by
  refine hp.answers fun w o ho => ?_
  by_cases hcapture : isCapture o = true
  · refine ⟨env.answer o, w, ⟨⟨?_, ?_⟩, fun _ => rfl⟩, fun _ => rfl⟩
    · cases o <;> first | rfl | cases hcapture
    · exact (next_of_quiet (quiet_of_looks ho)).symm
  · obtain ⟨r, v, hstep⟩ : ∃ r v, calm env sealed w o r v := calm_answers (ne_tpmSeal_of_looks ho) w
    exact ⟨r, v, hstep, fun h => absurd h hcapture⟩

/-! ## What an enrollment records -/

/-- The calibration a user has; one that cannot be read counts as empty. -/
def storedCalibration (user : String) (w : World) : IrCalibration :=
  match w.file (.user user .irCalibration) with
  | some (.value c) => c
  | _ => .default

/-- The calibration of a user with the observation of a new capture. -/
def calibratedWith (user : String) (reset : Bool) (signals : LivenessSignals) (w : World) :
    IrCalibration :=
  let prior := if reset then .default else storedCalibration user w
  match IrObservation.fromSignals signals with
  | some obs => prior.push obs
  | none => prior

theorem loadIrCalibration_calm {cal : IrCalibration}
    (h : Exec (calm env sealed) (loadIrCalibration user) w cal w') :
    cal = storedCalibration user w ∧ w' = w := by
  obtain ⟨r, v, hread, hret⟩ := exec_bind.1 h
  unfold storedCalibration
  cases hfile : w.file (.user user .irCalibration) with
  | none =>
      have hstep := (exec_perform.1 hread).1
      cases r with
      | ok json =>
          have hsome := (step_read_ok hstep).1
          rw [hfile] at hsome
          cases hsome
      | error e =>
          obtain ⟨rfl, rfl⟩ := hret
          exact ⟨rfl, hstep.2⟩
  | some json =>
      obtain ⟨rfl, rfl⟩ := calm_read_some hfile (exec_perform.1 hread)
      cases json <;> exact hret

/-- A file that is written and then given its mode, in a directory that is there. -/
theorem writeWithMode_calm {f : UserFile} {d : f.Data} {x : Unit}
    (hdir : w.hasDir (some user) = true)
    (h : Exec (calm env sealed) (do
      let _ ← perform (.write (.user user f) d)
      let _ ← perform (.setPermissions (.user user f))) w x w') : w' = w.set (.user user f) d := by
  obtain ⟨r, v, hwrite, hrest⟩ := exec_bind.1 h
  obtain ⟨rfl, rfl⟩ := calm_write (p := .user user f) hdir (exec_perform.1 hwrite)
  obtain ⟨r', v', hmode, hret⟩ := exec_bind.1 hrest
  obtain ⟨rfl, rfl⟩ := calm_setPermissions (by rw [file_set_self]; rfl) (exec_perform.1 hmode)
  exact hret.2

theorem recordCapture_calm {x : Unit} (hdir : w.hasDir (some user) = true)
    (h : Exec (calm env sealed) (recordCapture user reset signals) w x w') :
    w' = (w.set (.user user .cameraBinding) (.value (snapshotIn env))).set
      (.user user .irCalibration) (.value (calibratedWith user reset signals w)) := by
  obtain ⟨binding, v₁, hsnapshot, h₁⟩ := exec_bind.1 h
  obtain ⟨rfl, rfl⟩ := snapshotCameraBinding_calm hsnapshot
  obtain ⟨_, v₂, hbinding, h₂⟩ := exec_bind.1 h₁
  obtain rfl := writeWithMode_calm hdir hbinding
  obtain ⟨cal, v₃, hprior, h₃⟩ := exec_bind.1 h₂
  have hcal : cal = (if reset then .default else storedCalibration user v₁) ∧
      v₃ = v₁.set (.user user .cameraBinding) (.value (snapshotIn env)) := by
    cases reset with
    | true => exact hprior
    | false =>
        have hloaded := loadIrCalibration_calm hprior
        rwa [storedCalibration, file_set_of_ne _ _ (by simp), ← storedCalibration] at hloaded
  obtain ⟨rfl, rfl⟩ := hcal
  exact writeWithMode_calm (hasDir_set.2 (.inr hdir)) h₃

/-! ## The stages of an enrollment -/

theorem cached_of_cachedTemplateKey {key : Bytes}
    (h : Exec (Step sealed flt) (cachedTemplateKey user).run w (.ok key) w') :
    w'.cache.lookup user = some key := by
  cases hlookup : w.cache.lookup user with
  | some cached =>
      obtain ⟨heq, rfl⟩ := exec_cachedTemplateKey_hit hlookup h
      rw [hlookup, Except.ok.inj heq]
  | none =>
      obtain ⟨x, v, -, hx, hinsert⟩ := exec_cachedTemplateKey_miss hlookup h
      rw [hinsert key (mapError_eq_ok.1 hx.symm)]
      exact AList.lookup_insert _

theorem cache_of_storeOp {F : UserFile → Prop} (hp : p.Only (storeOp user F))
    (h : Exec (Step sealed flt) p w a w') : w'.cache = w.cache := by
  have htrans : ∀ {t u v : World}, u.cache = t.cache → v.cache = u.cache → v.cache = t.cache :=
    fun htu huv => huv.trans htu
  refine hp.exec (R := fun w w' => w'.cache = w.cache) (fun _ => rfl) htrans ?_ h
  rintro w o r v ho ⟨-, rfl⟩
  exact cache_next ho.2

/-- What an accepted enrollment leaves for the next request. -/
structure Accepted (env : Surroundings) (pr : Process) (user : String) (reset : Bool)
    (emb : List F32) (signals : LivenessSignals) (w w' : World) : Prop where
  template : ∃ key blob existing, w'.cache.lookup user = some key ∧
    w'.file (.user user .embeddingEnc) = some blob ∧
    decrypt pr.cl key blob = .ok (existing ++ embeddingToBytes emb) ∧
    GoodSamples (Acceptable pr.fl) existing
  binding : w'.file (.user user .cameraBinding) = some (.value (snapshotIn env))
  calibration : w'.file (.user user .irCalibration) =
    some (.value (calibratedWith user reset signals w))
  sample : UnitSample pr.fl emb

private theorem accepted_of_storeSample {n : Nat} (hauth : Authentic pr.cl)
    (hsound : TemplateSound pr.cl (Acceptable pr.fl) user w) (hemb : UnitSample pr.fl emb)
    (h : Exec (calm env sealed) (storeSample pr user reset emb signals) w (.enrolled n) w') :
    Accepted env pr user reset emb signals w w' := by
  obtain ⟨key, v₁, existing, v₂, v₃, hkey, hexisting, hsave, hrecord, -⟩ :=
    exec_storeSample_enrolled h
  have hkey' := exec_of_within hkey
  have hexisting' := exec_of_within hexisting
  have hsave' := exec_of_within hsave
  -- the samples that were there are those of a sound template
  obtain ⟨hsound₁, -⟩ := guided_cachedTemplateKey.keeps informed_step hsound hkey'
  obtain ⟨-, hprior⟩ := (guided_existingTemplate hauth reset).keeps informed_step hsound₁ hexisting'
  obtain ⟨blob, hdec, hblob⟩ := exec_saveEncryptedEmbedding_ok hsave'
  have hdir : v₃.hasDir (some user) = true :=
    hasDir_of_file (f := .embeddingEnc) (by rw [hblob]; rfl)
  obtain rfl := recordCapture_calm hdir hrecord
  have hcache : v₃.cache = v₁.cache := by
    have hloads : (existingTemplate pr user reset key).Only (storeOp user loadedFile) :=
      storeOp_existingTemplate (.inr (.inl rfl)) (.inr (.inr rfl)) reset key
    have hsaves :
        (saveEncryptedEmbedding pr.cl user (existing ++ embeddingToBytes emb) key).run.Only
        (storeOp user loadedFile) :=
      storeOp_saveEncryptedEmbedding (.inr (.inl rfl)) (.inr (.inr rfl)) ..
    rw [cache_of_storeOp hsaves hsave', cache_of_storeOp hloads hexisting']
  have hcalibration : v₃.file (.user user .irCalibration) = w.file (.user user .irCalibration) := by
    have hspares :
        ∀ {α : Type} {q : Proc α} {t t' : World} {b : α}, q.Only (userOp user loadedFile) →
        Exec (Step sealed .none) q t b t' →
        t'.file (.user user .irCalibration) = t.file (.user user .irCalibration) :=
      fun hq hrun => file_of_spares (hq.imp fun _ => spares_of_userOp (by simp [loadedFile])) hrun
    have hloads : (existingTemplate pr user reset key).Only (userOp user loadedFile) :=
      (storeOp_existingTemplate (.inr (.inl rfl)) (.inr (.inr rfl)) reset key).imp fun _ ho => ho.1
    rw [hspares (userOp_saveEncryptedEmbedding (.inr (.inl rfl)) (.inr (.inr rfl)) ..) hsave',
      hspares hloads hexisting', hspares (userOp_cachedTemplateKey (.inl rfl)) hkey']
  refine ⟨⟨key, blob, existing, ?_, ?_, hdec, hprior rfl⟩, ?_, ?_, hemb⟩
  · rw [cache_set, cache_set, hcache]
    exact cached_of_cachedTemplateKey hkey'
  · rw [file_set_of_ne _ _ (by simp), file_set_of_ne _ _ (by simp), hblob]
  · rw [file_set_of_ne _ _ (by simp), file_set_self]
  · rw [file_set_self, calibratedWith, storedCalibration, hcalibration]
    rfl

/-- An enrollment that is accepted captured a sample of unit length. -/
theorem accepted_of_enrolled {n : Nat} (hauth : Authentic pr.cl) (hunit : UnitEmbeddings pr)
    (hsound : TemplateSound pr.cl (Acceptable pr.fl) user w)
    (hcapture : captureIn env pr = .ok (emb, signals))
    (h : Exec (staged env sealed) (dispatch pr (.enroll user reset) peerUid) w (.enrolled n) w') :
    validateUser user = .ok () ∧ Accepted env pr user reset emb signals w w' := by
  obtain ⟨hname, henroll⟩ := exec_enroll_enrolled h
  obtain ⟨emb', signals', v, hrun, hstore⟩ := exec_doEnroll_captured henroll
  obtain ⟨hsame, rfl⟩ := capture_staged hrun
  obtain ⟨rfl, rfl⟩ := Prod.mk.inj (Except.ok.inj (hsame.trans hcapture))
  have hemb : Captured pr emb' := by
    have hcalm := exec_of_within (calm_of_staged hrun)
    exact (guided_captureAndEmbedSignals.keeps informed_step hsound hcalm).2 _ _ rfl
  exact ⟨hname, accepted_of_storeSample hauth hsound (hunit.sample hemb) (calm_of_staged hstore)⟩

/-! ## Verifying against what was recorded -/

theorem GoodSamples.parse {raw : Bytes} {fl : FloatLib} (h : GoodSamples (Acceptable fl) raw)
    (hne : raw ≠ []) :
    parseRawEmbeddings fl raw = .ok ((storedSamples raw).map (unitOf fl)) :=
  parseRawEmbeddings_ok_iff.2 ⟨⟨hne, h.size⟩, h.samples, rfl⟩

theorem UnitSample.cosine {fl : FloatLib} (h : UnitSample fl emb) :
    cosine (emb.map F32.value) (unitOf fl emb) = 1 := by
  have hunscaled : unitOf fl emb = emb.map F32.value := by
    rw [unitOf, h.norm]
    simp
  have hlen : ¬ (emb.map F32.value).length = 0 := by
    rw [List.length_map, h.dim]
    decide
  have hproducts : (List.zipWith (· * ·) (emb.map F32.value) (emb.map F32.value)).sum = 1 := by
    rw [List.zipWith_self]
    exact h.square
  rw [hunscaled, Biometrics.cosine, if_neg (by simpa using hlen), hproducts]
  norm_num [clamp]

theorem UnitSample.matched {fl : FloatLib} {samples : List (List ℚ)} (h : UnitSample fl emb)
    (hmem : unitOf fl emb ∈ samples) :
    (matchAgainst (matchThreshold pr) emb samples).matched = true := by
  obtain ⟨best, -, hscore, hbest⟩ := exists_best (matchThreshold pr) emb (List.ne_nil_of_mem hmem)
  rw [matched_iff, hscore, WithBot.coe_le_coe]
  calc matchThreshold pr ≤ 95 / 100 := (matchThreshold_mem pr).2
    _ ≤ 1 := by norm_num
    _ = Biometrics.cosine (emb.map F32.value) (unitOf fl emb) := h.cosine.symm
    _ ≤ Biometrics.cosine (emb.map F32.value) best := hbest _ hmem

theorem loadUserSamples_accepted {r : Except String (List (List ℚ))}
    (huser : validateUser user = .ok ()) (haccepted : Accepted env pr user reset emb signals w w₁)
    (hcameras : snapshotIn env' = snapshotIn env)
    (h : Exec (calm env' sealed) (loadUserSamples pr user).run w₁ r w') :
    w' = w₁ ∧ ∃ samples, r = .ok samples ∧ unitOf pr.fl emb ∈ samples := by
  obtain ⟨key, blob, existing, hcached, hblob, hdec, hexisting⟩ := haccepted.template
  have hholds : BindingHolds env' user w₁ := by
    intro json hjson
    rw [haccepted.binding] at hjson
    exact ⟨_, (Option.some.inj hjson).symm, hcameras ▸ verify_self _⟩
  have hbinding : ∀ x t, Exec (calm env' sealed) (checkCameraBinding user).run w₁ x t →
      x = .ok () ∧ t = w₁ := by
    intro x t hx
    obtain ⟨ht, hiff⟩ := checkCameraBinding_calm hx
    exact ⟨hiff.2 hholds, ht⟩
  have hkey : ∀ x t, Exec (calm env' sealed) (ExceptT.mk ((Except.mapError fun e =>
      "template key unavailable (" ++ e ++ "); refusing plaintext fallback") <$>
        (cachedTemplateKey user).run)).run w₁ x t → x = .ok key ∧ t = w₁ := by
    intro x t hx
    obtain ⟨y, hy, rfl⟩ := exec_map.1 hx
    obtain ⟨rfl, rfl⟩ := exec_cachedTemplateKey_hit hcached (exec_of_within hy)
    exact ⟨rfl, rfl⟩
  have hload : ∀ x t, Exec (calm env' sealed)
      (displayed LinuxHelloError.display (loadEncryptedEmbedding pr user key)).run w₁ x t →
      x = .ok (existing ++ embeddingToBytes emb) ∧ t = w₁ := by
    intro x t hx
    obtain ⟨y, hy, rfl⟩ := exec_map.1 hx
    obtain ⟨rfl, rfl⟩ := faultless_loadEncryptedEmbedding huser hblob (exec_of_within hy)
    rw [hdec]
    exact ⟨rfl, rfl⟩
  unfold loadUserSamples at h
  have hkeyed := exec_bind_of_ok hbinding h
  have hloaded := exec_bind_of_ok hkey hkeyed
  obtain ⟨rfl, rfl⟩ := exec_bind_of_ok hload hloaded
  have hsound : GoodSamples (Acceptable pr.fl) (existing ++ embeddingToBytes emb) :=
    hexisting.append haccepted.sample.dim haccepted.sample.acceptable
  have hne : existing ++ embeddingToBytes emb ≠ [] := by
    intro hnil
    have hlen := congrArg List.length (List.append_eq_nil_iff.1 hnil).2
    rw [length_embeddingToBytes, haccepted.sample.dim] at hlen
    cases hlen
  refine ⟨rfl, _, by rw [hsound.parse hne]; rfl, ?_⟩
  rw [storedSamples_append hexisting.size haccepted.sample.dim, List.map_append]
  exact List.mem_append_right _ List.mem_cons_self

/-- The IR gate is open for the capture: it is disabled, not calibrated yet, or the
capture carries an observation that is neither dim nor flat. -/
def GateOpen (pr : Process) (cal : IrCalibration) (signals : LivenessSignals) : Prop :=
  irGateDisabled pr = true ∨ cal.observations.length < MIN_CALIBRATION_OBSERVATIONS ∨
    ∃ obs, IrObservation.fromSignals signals = some obs ∧
      ¬ cal.Dim pr.fl pr.env obs ∧ ¬ cal.Flat pr.fl pr.env obs

theorem irGateVerdict_ok_iff {cal : IrCalibration} : irGateVerdict pr cal signals = .ok () ↔
    cal.observations.length < MIN_CALIBRATION_OBSERVATIONS ∨
      ∃ obs, IrObservation.fromSignals signals = some obs ∧
        ¬ cal.Dim pr.fl pr.env obs ∧ ¬ cal.Flat pr.fl pr.env obs := by
  unfold irGateVerdict
  by_cases hready : cal.isReady = true
  · have hlen : ¬ cal.observations.length < MIN_CALIBRATION_OBSERVATIONS :=
      Nat.not_lt.2 (of_decide_eq_true hready)
    rw [hready, Bool.not_true, if_neg Bool.false_ne_true, or_iff_right hlen]
    cases hobs : IrObservation.fromSignals signals with
    | none => simp
    | some obs =>
        have hpass : cal.gate pr.fl pr.env obs = .pass ↔
            ¬ cal.Dim pr.fl pr.env obs ∧ ¬ cal.Flat pr.fl pr.env obs :=
          IrCalibration.gate_eq_pass_iff hready
        cases hgate : cal.gate pr.fl pr.env obs with
        | pass =>
            simp only [hgate]
            exact iff_of_true trivial ⟨obs, rfl, hpass.1 hgate⟩
        | reject reason =>
            simp only [hgate]
            refine iff_of_false (by simp) ?_
            rintro ⟨obs', heq, hopen⟩
            obtain rfl := Option.some.inj heq
            rw [hpass.2 hopen] at hgate
            cases hgate
        | notCalibrated =>
            exact absurd (IrCalibration.gate_eq_notCalibrated_iff.1 hgate) hlen
  · have hlen : cal.observations.length < MIN_CALIBRATION_OBSERVATIONS := by
      simpa [IrCalibration.isReady] using hready
    rw [Bool.not_eq_true] at hready
    rw [hready, Bool.not_false, if_pos rfl]
    exact iff_of_true rfl (.inl hlen)

private theorem captureEmbedGated_staged {cal : IrCalibration} {r : Except String (List F32)}
    (hcal : w.file (.user user .irCalibration) = some (.value cal))
    (hcapture : captureIn env pr = .ok (emb, signals))
    (h : Exec (staged env sealed) (captureEmbedGated pr user).run w r w') :
    (GateOpen pr cal signals ∧ r = .ok emb) ∨ (¬ GateOpen pr cal signals ∧ ∃ e, r = .error e) := by
  have hseen : ∀ x t, Exec (staged env sealed)
      (displayed LinuxHelloError.display (captureAndEmbedSignals pr)).run w x t →
      x = .ok (emb, signals) ∧ t = w := by
    intro x t hx
    obtain ⟨y, hy, rfl⟩ := exec_map.1 hx
    obtain ⟨rfl, rfl⟩ := capture_staged hy
    rw [hcapture]
    exact ⟨rfl, rfl⟩
  unfold captureEmbedGated at h
  have hgate := exec_bind_of_ok hseen h
  unfold GateOpen
  rcases exec_exceptT_bind.1 hgate with ⟨_, v, hcheck, hret⟩ | ⟨e, hcheck, rfl⟩
  · obtain ⟨rfl, -⟩ := hret
    refine .inl ⟨?_, rfl⟩
    unfold irGateCheck at hcheck
    by_cases hdisabled : irGateDisabled pr = true
    · exact .inl hdisabled
    · rw [if_neg hdisabled] at hcheck
      obtain ⟨cal', u, hload, hverdict⟩ := exec_lift_bind.1 hcheck
      obtain ⟨rfl, rfl⟩ := loadIrCalibration_calm (calm_of_staged hload)
      rw [storedCalibration, hcal] at hverdict
      exact .inr (irGateVerdict_ok_iff.1 hverdict.1.symm)
  · refine .inr ⟨?_, e, rfl⟩
    unfold irGateCheck at hcheck
    by_cases hdisabled : irGateDisabled pr = true
    · rw [if_pos hdisabled] at hcheck
      cases hcheck.1
    · rw [if_neg hdisabled] at hcheck
      obtain ⟨cal', u, hload, hverdict⟩ := exec_lift_bind.1 hcheck
      obtain ⟨rfl, rfl⟩ := loadIrCalibration_calm (calm_of_staged hload)
      rw [storedCalibration, hcal] at hverdict
      rintro (h | hopen)
      · exact hdisabled h
      · have hok := irGateVerdict_ok_iff.2 hopen
        rw [hok] at hverdict
        cases hverdict.1

/-- After an accepted enrollment the same face passes, unless the IR gate stops it. -/
theorem verify_accepted (huser : validateUser user = .ok ())
    (haccepted : Accepted env pr user reset emb signals w w₁)
    (hcameras : snapshotIn env' = snapshotIn env)
    (hcapture : captureIn env' pr = .ok (emb, signals))
    (hpeer : MayAct env' peerUid user)
    (h : Exec (staged env' sealed) (dispatch pr (.verify user) peerUid) w₁ resp w') :
    (GateOpen pr (calibratedWith user reset signals w) signals ∧
        ∃ score, resp = .verified true score (matchThreshold pr)) ∨
      (¬ GateOpen pr (calibratedWith user reset signals w) signals ∧ resp.isError = true) := by
  simp only [dispatch, withUser, huser] at h
  obtain ⟨may, v, hmay, hverify⟩ := exec_bind.1 h
  obtain ⟨rfl, hiff⟩ := peerMayActAs_calm (calm_of_staged hmay)
  rw [hiff.2 hpeer, Bool.not_true, if_neg Bool.false_ne_true] at hverify
  obtain ⟨loaded, u, hload, hrest⟩ := exec_bind.1 hverify
  obtain ⟨rfl, samples, rfl, hmem⟩ :=
    loadUserSamples_accepted huser haccepted hcameras (calm_of_staged hload)
  obtain ⟨live, t, hlive, hend⟩ := exec_bind.1 hrest
  rcases captureEmbedGated_staged haccepted.calibration hcapture hlive with
    ⟨hopen, rfl⟩ | ⟨hclosed, e, rfl⟩
  · obtain ⟨rfl, -⟩ := hend
    refine .inl ⟨hopen, (matchAgainst (matchThreshold pr) emb samples).score, ?_⟩
    rw [haccepted.sample.matched hmem]
  · obtain ⟨rfl, -⟩ := hend
    exact .inr ⟨hclosed, rfl⟩

/-- A TPM that seals every key lets `Verify` come to an answer. -/
theorem answers_verify
    (hseal : ∀ key : Bytes, key.length = KEY_LEN → ∃ envelope, sealed envelope = some key) :
    Answers (staged env sealed) (dispatch pr (.verify user) peerUid) := by
  have hloads : Answers (staged env sealed) (loadUserSamples pr user).run := by
    intro w
    obtain ⟨r, v, hrun⟩ : ∃ r v, Exec (calm env sealed) (loadUserSamples pr user).run w r v :=
      answers_loadUserSamples hseal w
    exact ⟨r, v, staged_of_calm noCapture_loadUserSamples hrun⟩
  have hcaptures : Answers (staged env sealed) (captureEmbedGated pr user).run :=
    answers_of_looks_staged (looks_captureEmbedGated (F := fun _ => True) pr trivial)
  simp only [dispatch, withUser]
  cases validateUser user with
  | error e => exact .ret _
  | ok _ =>
      refine Answers.bind (answers_of_looks_staged (looks_peerMayActAs (F := fun _ => True) _ _))
        fun may => ?_
      cases may with
      | false => exact .ret _
      | true =>
          refine Answers.bind hloads fun samples => ?_
          cases samples with
          | error e => exact .ret _
          | ok samples =>
              refine Answers.bind hcaptures fun live => ?_
              cases live <;> exact .ret _

/-- After any history, an enrollment that is accepted lets the same face in, in front of the
same cameras, exactly when the IR gate is disabled, the calibration with the new capture
has fewer than three observations, or the capture carries one that is neither dim nor flat
against it. -/
theorem enrollment_usable_iff {n : Nat} {rootUid : Option Nat} (hauth : Authentic pr.cl)
    (hunit : UnitEmbeddings pr)
    (hseal : ∀ key : Bytes, key.length = KEY_LEN → ∃ envelope, sealed envelope = some key)
    (hhistory : History sealed flt pr.cl (Acceptable pr.fl) user w)
    (hcapture : captureIn env pr = .ok (emb, signals))
    (henroll :
      Exec (staged env sealed) (dispatch pr (.enroll user reset) rootUid) w (.enrolled n) w₁)
    (hcameras : snapshotIn env' = snapshotIn env) (hsame : captureIn env' pr = .ok (emb, signals))
    (hpeer : MayAct env' peerUid user) :
    (∀ resp w', Exec (staged env' sealed) (dispatch pr (.verify user) peerUid) w₁ resp w' →
        ∃ score, resp = .verified true score (matchThreshold pr)) ↔
      GateOpen pr (calibratedWith user reset signals w) signals := by
  obtain ⟨huser, haccepted⟩ :=
    accepted_of_enrolled hauth hunit (hhistory.sound hauth) hcapture henroll
  constructor
  · intro hall
    obtain ⟨resp, w', hverify⟩ : ∃ resp w', Exec (staged env' sealed)
        (dispatch pr (.verify user) peerUid) w₁ resp w' := answers_verify hseal w₁
    rcases verify_accepted huser haccepted hcameras hsame hpeer
      hverify with ⟨hopen, -⟩ | ⟨-, herror⟩
    · exact hopen
    · obtain ⟨score, rfl⟩ := hall resp w' hverify
      cases herror
  · intro hopen resp w' hverify
    rcases verify_accepted huser haccepted hcameras hsame hpeer hverify with ⟨-, hok⟩ | ⟨hclosed, -⟩
    · exact hok
    · exact absurd hopen hclosed

/-! ### A camera without infrared

A user enrolls three times in front of an IR camera, and once more in front of one that
has none. -/

theorem History.exec {good : List F32 → Prop} {req : Request} {n : Option Nat} {v : World}
    (before : History sealed flt pr.cl good user w) (captured : ∀ emb, Captured pr emb → good emb)
    (h : Exec (Step sealed flt) (dispatch pr req n) w resp v) :
    History sealed flt pr.cl good user v := by
  obtain ⟨log, hrun⟩ := interleaved_alone (.nil _ w) h
  exact before.served (fun _ => rfl) (fun _ => captured) hrun

def KeyCached (user : String) (w : World) : Prop :=
  ∃ key, w.cache.lookup user = some key ∧ key.length = KEY_LEN

theorem Accepted.keyCached (h : Accepted env pr user reset emb signals w w') :
    KeyCached user w' := by
  obtain ⟨key, blob, existing, hcached, -, hdec, -⟩ := h.template
  exact ⟨key, hcached, length_key_of_decrypt hdec⟩

/-- Every operation of the staged host has an answer if the TPM can seal whatever it is
given. -/
theorem answers_staged (hseal : ∀ s, ∃ envelope, sealed envelope = some s) (p : Proc α) :
    Answers (staged env sealed) p := by
  induction p with
  | ret a => exact .ret a
  | call o k ih =>
      intro w
      have hanswer : ∃ r v, staged env sealed w o r v := by
        by_cases hcapture : isCapture o = true
        · refine ⟨env.answer o, w, ⟨⟨?_, ?_⟩, fun _ => rfl⟩, fun _ => rfl⟩
          · cases o <;> first | rfl | cases hcapture
          · cases o <;> first | rfl | cases hcapture
        · obtain ⟨r, v, r', v', hstep, -, -⟩ : ∃ r v, Exec (calm env sealed) (perform o) w r v :=
            answers_calm hseal (perform o) w
          exact ⟨r', v', hstep, fun h => absurd h hcapture⟩
      obtain ⟨r, v, hstep⟩ := hanswer
      obtain ⟨a, w', hrest⟩ := ih r v
      exact ⟨a, w', r, v, hstep, hrest⟩

/-- With a cached key, an enrollment that captures a face is accepted. -/
theorem enrolled_of_keyCached (huser : validateUser user = .ok ())
    (haccepts : ∀ k n m, k.length = KEY_LEN → n.length = NONCE_LEN →
      (pr.cl.aeadSeal k n m).isSome = true)
    (hkey : KeyCached user w) (hcapture : captureIn env pr = .ok (emb, signals))
    (h : Exec (staged env sealed) (dispatch pr (.enroll user reset) (some 0)) w resp w') :
    ∃ n, resp = .enrolled n := by
  obtain ⟨key, hcached, hlen⟩ := hkey
  simp only [dispatch, rootOnly, withUser, huser] at h
  rw [if_neg (by decide)] at h
  obtain ⟨capture, v, hrun, hstore⟩ := exec_bind.1 h
  obtain ⟨rfl, rfl⟩ := capture_staged hrun
  rw [hcapture] at hstore
  obtain ⟨key?, v₁, hgot, hrest⟩ := exec_bind.1 hstore
  obtain ⟨rfl, rfl⟩ := exec_cachedTemplateKey_hit hcached (exec_of_within (calm_of_staged hgot))
  obtain ⟨existing, v₂, -, hsave⟩ := exec_bind.1 hrest
  obtain ⟨saved, v₃, hsaved, hend⟩ := exec_bind.1 hsave
  obtain rfl := faultless_saveEncryptedEmbedding huser hlen (fun n hn => haccepts key n _ hlen hn)
    (exec_of_within (calm_of_staged hsaved))
  obtain ⟨_, v₄, -, hret⟩ := exec_bind.1 hend
  exact ⟨_, hret.1⟩

theorem next_enrollment (hauth : Authentic pr.cl) (hunit : UnitEmbeddings pr)
    (hseal : ∀ s, ∃ envelope, sealed envelope = some s) (huser : validateUser user = .ok ())
    (haccepts : ∀ k n m, k.length = KEY_LEN → n.length = NONCE_LEN →
      (pr.cl.aeadSeal k n m).isSome = true)
    (hhistory : History sealed .none pr.cl (Acceptable pr.fl) user w) (hkey : KeyCached user w)
    (hcapture : captureIn env pr = .ok (emb, signals)) :
    ∃ n w', Exec (staged env sealed) (dispatch pr (.enroll user false) (some 0))
      w (.enrolled n) w' ∧
      History sealed .none pr.cl (Acceptable pr.fl) user w' ∧ KeyCached user w' ∧
      storedCalibration user w' = calibratedWith user false signals w := by
  obtain ⟨resp, w', hrun⟩ : ∃ resp w', Exec (staged env sealed)
      (dispatch pr (.enroll user false) (some 0)) w resp w' := answers_staged hseal _ w
  obtain ⟨n, rfl⟩ := enrolled_of_keyCached huser haccepts hkey hcapture hrun
  obtain ⟨-, haccepted⟩ := accepted_of_enrolled hauth hunit (hhistory.sound hauth) hcapture hrun
  refine ⟨n, w', hrun, ?_, haccepted.keyCached, ?_⟩
  · exact hhistory.exec (fun emb h => (hunit.sample h).acceptable)
      (exec_of_within (calm_of_staged hrun))
  · rw [storedCalibration, haccepted.calibration]

def playing (sc : Script) (hrandom : ∀ n, (sc.random n).length = n) : Surroundings where
  answer := sc.answer simulatedUnseal emptyWorld
  random := hrandom

theorem unitEmbeddings_simulated : UnitEmbeddings simulatedProcess where
  sqrt_one := by decide +kernel
  unit := by
    rintro emb ⟨infer, aligned, out, hinfer, hout, hcheck⟩
    obtain rfl := Except.ok.inj hinfer
    obtain rfl := Except.ok.inj hout
    have hvector : checkEmbedding (unitVector 0) = .ok (unitVector 0) := by decide +kernel
    obtain rfl := Except.ok.inj (hvector.symm.trans hcheck)
    decide +kernel

theorem random_simulated (n : Nat) : (simulatedScript.random n).length = n := List.length_replicate

/-- A capture that was computed, with what it shows to the IR gate. -/
theorem captureIn_of_isSome {o : Option IrObservation}
    (h : (captureIn env pr).toOption.map (fun x => IrObservation.fromSignals x.2) = some o) :
    ∃ emb signals, captureIn env pr = .ok (emb, signals) ∧
      IrObservation.fromSignals signals = o := by
  cases hcapture : captureIn env pr with
  | error e =>
      rw [hcapture] at h
      cases h
  | ok x =>
      rw [hcapture] at h
      exact ⟨x.1, x.2, rfl, Option.some.inj h⟩

theorem captureIn_simulated : ∃ emb signals,
    captureIn (playing simulatedScript random_simulated) simulatedProcess = .ok (emb, signals) ∧
      IrObservation.fromSignals signals = none :=
  captureIn_of_isSome (by decide +kernel)

theorem captureIn_infrared : ∃ emb signals obs,
    captureIn (playing infraredScript random_simulated) simulatedProcess = .ok (emb, signals) ∧
      IrObservation.fromSignals signals = some obs := by
  have hsome : ((captureIn (playing infraredScript random_simulated) simulatedProcess).toOption.bind
      fun x => IrObservation.fromSignals x.2).isSome = true := by
    decide +kernel
  obtain ⟨obs, hobs⟩ := Option.isSome_iff_exists.1 hsome
  obtain ⟨x, hx, hfrom⟩ := Option.bind_eq_some_iff.1 hobs
  have hshown : (captureIn (playing infraredScript random_simulated) simulatedProcess).toOption.map
      (fun x => IrObservation.fromSignals x.2) = some (some obs) := by
    rw [hx, Option.map_some, hfrom]
  obtain ⟨emb, signals, hcapture, hsignals⟩ := captureIn_of_isSome hshown
  exact ⟨emb, signals, obs, hcapture, hsignals⟩

/-- Two enrollments in front of an IR camera: the calibration still has too few observations,
and the face is let in. -/
theorem enrollment_usable_iff_alice : ∃ (n m : Nat) (w₁ w₂ : World),
    let env := playing infraredScript random_simulated
    Exec (staged env simulatedUnseal) (dispatch simulatedProcess (.enroll "alice" false) (some 0))
        unenrolledWorld (.enrolled n) w₁ ∧
      Exec (staged env simulatedUnseal) (dispatch simulatedProcess (.enroll "alice" false) (some 0))
        w₁ (.enrolled m) w₂ ∧
      ∀ resp w', Exec (staged env simulatedUnseal)
        (dispatch simulatedProcess (.verify "alice") (some 0)) w₂ resp w' →
        ∃ score, resp = .verified true score (matchThreshold simulatedProcess) := by
  obtain ⟨emb, signals, obs, hcapture, hobs⟩ := captureIn_infrared
  obtain ⟨n, w₁, hfirst, h₁, hkey₁, hcal₁⟩ := next_enrollment authentic_simulatedCrypto
    unitEmbeddings_simulated simulatedUnseal_seals rfl (fun _ _ _ _ _ => rfl)
      history_unenrolledWorld
    ⟨simulatedKey, rfl, rfl⟩ hcapture
  obtain ⟨m, w₂, hsecond, -⟩ := next_enrollment authentic_simulatedCrypto unitEmbeddings_simulated
    simulatedUnseal_seals rfl (fun _ _ _ _ _ => rfl) h₁ hkey₁ hcapture
  have hpush :
      ∀ w, calibratedWith "alice" false signals w = (storedCalibration "alice" w).push obs :=
    fun w => by simp only [calibratedWith, hobs, Bool.false_eq_true, if_false]
  have hfew : (calibratedWith "alice" false signals w₁).observations.length <
      MIN_CALIBRATION_OBSERVATIONS := by
    have htwo :
        (((storedCalibration "alice" unenrolledWorld).push obs).push obs).observations.length =
        2 := rfl
    rw [hpush, hcal₁, hpush, htwo]
    decide
  exact ⟨n, m, w₁, w₂, hfirst, hsecond, (enrollment_usable_iff authentic_simulatedCrypto
    unitEmbeddings_simulated (fun key _ => simulatedUnseal_seals key) h₁ hcapture hsecond rfl
      hcapture
    (.inl rfl)).2 (.inr (.inl hfew))⟩

/-- The last enrollment is accepted, and the face it stored is turned away. -/
theorem not_enrollment_usable :
    ¬ ∀ (env env' : Surroundings) (sealed : SealedEnvelope → Option Bytes) (flt : Faults)
      (pr : Process) (user : String) (peerUid rootUid : Option Nat) (reset : Bool) (emb : List F32)
      (signals : LivenessSignals) (w w₁ : World) (n : Nat), Authentic pr.cl → UnitEmbeddings pr →
      (∀ key : Bytes, key.length = KEY_LEN → ∃ envelope, sealed envelope = some key) →
      History sealed flt pr.cl (Acceptable pr.fl) user w → captureIn env pr = .ok (emb, signals) →
      Exec (staged env sealed) (dispatch pr (.enroll user reset) rootUid) w (.enrolled n) w₁ →
      snapshotIn env' = snapshotIn env → captureIn env' pr = .ok (emb, signals) →
      MayAct env' peerUid user → ∀ resp w',
      Exec (staged env' sealed) (dispatch pr (.verify user) peerUid) w₁ resp w' →
      ∃ score, resp = .verified true score (matchThreshold pr) := by
  intro hall
  obtain ⟨emb, signals, hcapture, hnone⟩ := captureIn_simulated
  obtain ⟨emb', signals', obs, hinfrared, hobs⟩ := captureIn_infrared
  have hpush :
      ∀ w, calibratedWith "alice" false signals' w = (storedCalibration "alice" w).push obs :=
    fun w => by simp only [calibratedWith, hobs, Bool.false_eq_true, if_false]
  have hnext : ∀ {env : Surroundings} {emb : List F32} {signals : LivenessSignals} {w : World},
      History simulatedUnseal .none simulatedCrypto (Acceptable simulatedFloats) "alice" w →
      KeyCached "alice" w → captureIn env simulatedProcess = .ok (emb, signals) → _ :=
    fun hhistory hkey hcaptured => next_enrollment
      authentic_simulatedCrypto unitEmbeddings_simulated simulatedUnseal_seals
      (by decide) (fun _ _ _ _ _ => rfl) hhistory hkey hcaptured
  have hkey : KeyCached "alice" unenrolledWorld := ⟨simulatedKey, rfl, rfl⟩
  -- three enrollments with infrared, one without
  obtain ⟨-, w₁, -, h₁, hkey₁, hcal₁⟩ := hnext history_unenrolledWorld hkey hinfrared
  obtain ⟨-, w₂, -, h₂, hkey₂, hcal₂⟩ := hnext h₁ hkey₁ hinfrared
  obtain ⟨-, w₃, -, h₃, hkey₃, hcal₃⟩ := hnext h₂ hkey₂ hinfrared
  obtain ⟨n, w₄, henroll, h₄, -, hcal₄⟩ := hnext h₃ hkey₃ hcapture
  have hlength : (calibratedWith "alice" false signals w₃).observations.length = 3 := by
    simp only [calibratedWith, hnone, Bool.false_eq_true, if_false]
    rw [hcal₃, hpush, hcal₂, hpush, hcal₁, hpush]
    rfl
  obtain ⟨huser, haccepted⟩ := accepted_of_enrolled authentic_simulatedCrypto
    unitEmbeddings_simulated (h₃.sound authentic_simulatedCrypto) hcapture henroll
  obtain ⟨resp, w₅, hverify⟩ : ∃ resp w₅, Exec
      (staged (playing simulatedScript random_simulated) simulatedUnseal)
      (dispatch simulatedProcess (.verify "alice") (some 0)) w₄ resp w₅ :=
    answers_staged simulatedUnseal_seals _ w₄
  obtain ⟨score, rfl⟩ := hall _ _ _ _ _ _ _ _ _ _ _ _ _ _ authentic_simulatedCrypto
    unitEmbeddings_simulated (fun key _ => simulatedUnseal_seals key)
      h₃ hcapture henroll rfl hcapture
    (.inl rfl) resp w₅ hverify
  rcases verify_accepted huser haccepted rfl hcapture (.inl rfl) hverify with
    ⟨hopen, -⟩ | ⟨-, herror⟩
  · rcases hopen with hdisabled | hfew | ⟨obs', hsome, -⟩
    · cases hdisabled
    · rw [hlength] at hfew
      exact absurd hfew (by decide)
    · rw [hnone] at hsome
      cases hsome
  · cases herror

end Linhello.Daemon
