import Linhello.Daemon.Append
import Linhello.Daemon.KeyStore
/-!
# The requests that keep the key

Every request of one user but a deletion keeps the promise on the template key,
whatever it knows when it starts.
-/

namespace Linhello.Daemon

open Common Linhello.Core Effect Host Host.World Liveness Biometrics

variable {ι : Type} [DecidableEq ι] {sealed : SealedEnvelope → Option Bytes} {user : String}
  {i : ι} {s : Sight} {flt : Faults} {Allowed : Rule host ι World} {pr : Process}
  {peerUid : Option Nat} {req : Request}

/-! ## Parts without the key -/

theorem benign_of_looks_only {α : Type} {p : Proc α} (hp : p.Only (looks fun _ => False)) :
    p.Only (Benign user) :=
  hp.imp fun _ => benign_of_looks id id

theorem benign_of_looks_binding {α : Type} {p : Proc α}
    (hp : p.Only (looks fun q => q = .user user .cameraBinding ∨ q = .user user .irCalibration)) :
    p.Only (Benign user) :=
  hp.imp fun _ => benign_of_looks (by simp) (by simp)

theorem benign_recordCapture (reset : Bool) (signals : LivenessSignals) :
    (recordCapture user reset signals).Only (Benign user) := by
  refine (only_recordCapture reset signals).imp fun o ho => ?_
  cases o with
  | write p d =>
      rcases ho with rfl | rfl
      · simp [Benign]
      · simp [Benign]
  | setPermissions p => trivial
  | _ => exact benign_of_looks (F := fun p => p = .user user .irCalibration) (by simp) (by simp) ho

theorem benign_captureEmbedGated : (captureEmbedGated pr user).run.Only (Benign user) :=
  benign_of_looks_binding (looks_captureEmbedGated pr (.inr rfl))

theorem benign_sealPassword (password : Bytes) :
    (sealPassword user password).run.Only (Benign user) := by
  unfold sealPassword
  split
  · exact .ret _
  · refine only_exceptT_bind only_orFail fun _ => ?_
    refine only_exceptT_bind (only_fallible (only_perform trivial)) fun env => ?_
    refine only_exceptT_bind ?_ fun _ => only_io (only_perform trivial)
    refine only_exceptT_bind (only_io (only_perform trivial)) fun _ => ?_
    exact only_io (only_perform (by simp [Benign]))

private theorem benign_unsealPassword : (unsealPassword user).run.Only (Benign user) := by
  refine only_exceptT_bind only_orFail fun _ => ?_
  refine only_exceptT_bind (only_readJson (by simp [Benign])) fun env => ?_
  exact only_fallible (only_perform trivial)

theorem benign_resealPassword : (resealPassword user).Only (Benign user) := by
  refine only_bind benign_unsealPassword fun r => ?_
  cases r with
  | error e => exact .ret _
  | ok plaintext =>
      refine only_bind (benign_sealPassword plaintext) fun r => ?_
      cases r with
      | error e => exact .ret _
      | ok u => exact .ret _

theorem benign_peerMayActAs : (peerMayActAs peerUid user).Only (Benign user) :=
  benign_of_looks_only (looks_peerMayActAs peerUid user)

/-! ## Requests -/

section Requests

variable (hrule : ∀ w log i e, Allowed w log i e → Orderly user w log i e)
  (hstat : flt.stat = false)

include hrule

theorem runs_resealTemplateKey :
    Runs sealed pr.cl user i flt Allowed s (resealTemplateKey user)
      fun _ => Sees sealed pr.cl user i .nothing := by
  have hdone : ∀ {e : Sight} (b : Bool), Runs sealed pr.cl user i flt Allowed e (.ret b)
      fun _ => Sees sealed pr.cl user i .nothing := fun _ =>
    Promises.ret stable_sees fun _ h => h.forget
  refine Promises.bind (tries_unsealTemplateKey hrule) fun r => ?_
  cases r with
  | error e => exact hdone _
  | ok key =>
      refine Promises.bind (tries_tpmSeal hrule key) fun r => ?_
      cases r with
      | error e => exact hdone _
      | ok env =>
          refine Promises.given fun hsealed => ?_
          cases validateUser user with
          | error e => exact hdone _
          | ok u =>
              refine Promises.bind (tries_saveKey hrule hsealed (.inl rfl)) fun r => ?_
              cases r with
              | error e => exact hdone _
              | ok u => exact Promises.bind (runs_cacheRemove hrule) fun _ => hdone _

private theorem runs_existingTemplate {key : Bytes} (reset : Bool) :
    Runs sealed pr.cl user i flt Allowed (.key key) (existingTemplate pr user reset key)
      fun _ => Sees sealed pr.cl user i (.key key) := by
  unfold existingTemplate
  split
  · exact Promises.ret stable_sees fun _ h => h
  · refine Promises.bind (tries_loadEncryptedEmbedding hrule rfl) fun r => ?_
    rcases r with e | raw <;> exact Promises.ret stable_sees fun _ h => h

include hstat

theorem runs_doEnroll (reset : Bool) :
    Runs sealed pr.cl user i flt Allowed s (doEnroll pr user reset)
      fun _ => Sees sealed pr.cl user i .nothing := by
  refine Promises.bind (runs_only hrule (benign_of_looks_only (looks_captureAndEmbedSignals pr)))
    fun r => ?_
  rcases r with e | ⟨emb, signals⟩
  · exact Promises.ret stable_sees fun _ h => h.forget
  refine Promises.bind (tries_cachedTemplateKey hrule hstat) fun r => ?_
  rcases r with e | key
  · exact Promises.ret stable_sees fun _ h => h
  refine Promises.bind (runs_existingTemplate hrule reset) fun existing => ?_
  refine Promises.bind (tries_saveEncryptedEmbedding hrule _) fun r => ?_
  rcases r with e | u
  · exact Promises.ret stable_sees fun _ h => h.forget
  refine Promises.bind (runs_only hrule (benign_recordCapture reset signals)) fun _ => ?_
  exact Promises.ret stable_sees fun _ h => h.forget

private theorem tries_loadUserSamples :
    Tries sealed pr.cl user i flt Allowed s (loadUserSamples pr user)
      (fun _ => Sees sealed pr.cl user i .nothing) .nothing := by
  have hforget : ∀ {e : Sight} (y : World × Log host ι), Sees sealed pr.cl user i e y →
      Sees sealed pr.cl user i .nothing y := fun _ h => h.forget
  have hbinding : Tries sealed pr.cl user i flt Allowed s (checkCameraBinding user)
      (fun _ => Sees sealed pr.cl user i s) .nothing :=
    (tries_only hrule (benign_of_looks_binding (looks_checkCameraBinding (.inl rfl)))).consequence
      (fun _ h => h) (fun _ _ h => h) hforget
  refine hbinding.bind stable_sees fun _ => ?_
  refine Attempts.bind (Q := fun key => Sees sealed pr.cl user i (.key key)) ?_ stable_sees
    fun key => ?_
  · refine Promises.map (Promises.consequence (tries_cachedTemplateKey hrule hstat)
      (fun _ h => h) ?_)
    rintro (e | key) y hy <;> exact hy
  · refine (tries_displayed ((tries_loadEncryptedEmbedding hrule rfl).consequence (fun _ h => h)
      (fun _ => hforget) hforget)).bind stable_sees fun raw => ?_
    refine Promises.ret stable_sees fun y hy => ?_
    cases parseRawEmbeddings pr.fl raw <;> exact hy

theorem runs_doVerify :
    Runs sealed pr.cl user i flt Allowed s (doVerify pr user)
      fun _ => Sees sealed pr.cl user i .nothing := by
  refine Promises.bind (tries_loadUserSamples hrule hstat) fun r => ?_
  rcases r with e | samples
  · exact Promises.ret stable_sees fun _ h => h
  · refine Promises.bind (runs_only hrule benign_captureEmbedGated) fun r => ?_
    rcases r with e | live <;> exact Promises.ret stable_sees fun _ h => h

omit hstat in
theorem runs_doRestoreFromRecovery (passphrase : Bytes) :
    Runs sealed pr.cl user i flt Allowed s (doRestoreFromRecovery pr user passphrase)
      fun _ => Sees sealed pr.cl user i .nothing := by
  refine Promises.bind (tries_restoreFromRecovery hrule passphrase) fun r => ?_
  rcases r with e | u
  · exact Promises.ret stable_sees fun _ h => h
  · exact Promises.bind (runs_cacheRemove hrule) fun _ => Promises.ret stable_sees fun _ h => h

end Requests

section Dispatch

variable {cl : CryptoLib} {handler : Proc Response}

theorem runs_withUser (h : Runs sealed cl user i flt Allowed .nothing handler
    fun _ => Sees sealed cl user i .nothing) :
    Runs sealed cl user i flt Allowed .nothing (withUser user handler)
      fun _ => Sees sealed cl user i .nothing := by
  unfold withUser
  split
  · exact Promises.ret stable_sees fun _ h => h
  · exact h

theorem runs_rootOnly {op : String} (h : Runs sealed cl user i flt Allowed .nothing handler
    fun _ => Sees sealed cl user i .nothing) :
    Runs sealed cl user i flt Allowed .nothing (rootOnly peerUid op user handler)
      fun _ => Sees sealed cl user i .nothing := by
  unfold rootOnly
  split
  · exact Promises.ret stable_sees fun _ h => h
  · exact runs_withUser h

end Dispatch

/-- The requests about a user's key, template and password that delete nothing. -/
inductive KeyRequest (user : String) : Request → Prop
  | enroll (reset : Bool) : KeyRequest user (.enroll user reset)
  | verify : KeyRequest user (.verify user)
  | sealPassword (password : Bytes) : KeyRequest user (.sealPassword user password)
  | resealUserEnvelopes : KeyRequest user (.resealUserEnvelopes user)
  | saveRecovery (passphrase : Bytes) : KeyRequest user (.saveRecovery user passphrase)
  | restoreFromRecovery (passphrase : Bytes) :
      KeyRequest user (.restoreFromRecovery user passphrase)

theorem runs_dispatch (hrule : ∀ w log i e, Allowed w log i e → Orderly user w log i e)
    (hstat : flt.stat = false) (hauth : Authentic pr.cl) (hreq : KeyRequest user req) :
    Runs sealed pr.cl user i flt Allowed .nothing (dispatch pr req peerUid)
      fun _ => Sees sealed pr.cl user i .nothing := by
  have hdone : ∀ resp : Response, Runs sealed pr.cl user i flt Allowed .nothing (.ret resp)
      fun _ => Sees sealed pr.cl user i .nothing := fun _ =>
    Promises.ret stable_sees fun _ h => h
  cases hreq with
  | enroll reset => exact runs_rootOnly (runs_doEnroll hrule hstat reset)
  | verify =>
      refine runs_withUser (Promises.bind (runs_only hrule benign_peerMayActAs) fun may => ?_)
      split
      · exact hdone _
      · exact runs_doVerify hrule hstat
  | sealPassword password =>
      exact runs_rootOnly
        (Promises.bind (runs_only hrule (benign_sealPassword password)) fun _ => hdone _)
  | resealUserEnvelopes =>
      refine runs_rootOnly (Promises.bind (runs_only hrule benign_resealPassword) fun _ => ?_)
      exact Promises.bind (runs_resealTemplateKey hrule) fun _ => hdone _
  | saveRecovery passphrase =>
      refine runs_rootOnly (Promises.bind (tries_saveRecovery hrule hauth passphrase) fun r => ?_)
      rcases r with e | u <;> exact hdone _
  | restoreFromRecovery passphrase =>
    exact runs_rootOnly (runs_doRestoreFromRecovery hrule passphrase)

end Linhello.Daemon
