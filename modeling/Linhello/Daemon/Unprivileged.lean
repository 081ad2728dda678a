import Linhello.Daemon.KeyTraces
import Linhello.Daemon.Planning
/-!
# What unprivileged requests leave on disk

A peer that is not root may have the host's signing key made by asking for the status, and
a user's directory and template key made by asking to be verified. `keeps_promise_iff` says
when a request leaves nothing it should not.
-/

namespace Linhello.Daemon

open Common Linhello.Core Effect Host Host.World Liveness Biometrics Computer

variable {P : Tpm.Platform} {pr : Process} {req : Request} {user service : String}
  {peerUid : Option Nat} {x y : Computer} {resp : Response}

/-! ## Requests that name no user -/

theorem reads_core {o : Op} {call : Tpm.Platform → Tpm.Proc o.Ans}
    (hcall : ∀ P, coreCall P o = some (call P)) (hquiet : ∀ P, (call P).Only Tpm.Op.Quiet) :
    (perform o).Only reads :=
  only_perform (.inr fun P => ⟨call P, hcall P, hquiet P⟩)

theorem exec_detect {level : SecurityLevel}
    (h : Exec (Step P) (perform .detectSecurityLevel) x level y) :
    SameFiles x y ∨ x.machine.sys.MakesHostKey P := by
  obtain ⟨hworld, hexec⟩ := exec_perform.1 h
  obtain ⟨p, hplan, -⟩ := exec_map.1 hexec
  rcases Tpm.exec_plan hplan with hsame | hmakes
  · exact .inl ⟨congrArg World.root hworld, congrArg World.users hworld, hsame⟩
  · exact .inr hmakes

private theorem exists_detect (h : x.machine.sys.MakesHostKey P) : ∃ level y,
    Exec (Step P) (perform .detectSecurityLevel) x level y ∧
      y.machine.sys.file .signingPub ≠ x.machine.sys.file .signingPub := by
  obtain ⟨p, m, hplan, hmade⟩ := Tpm.exists_plan_makes (F := False) h
  have hdetect : Step P x .detectSecurityLevel p.securityLevel ⟨x.world, m⟩ :=
    ⟨rfl, exec_map.2 ⟨p, hplan, rfl⟩⟩
  exact ⟨_, _, exec_perform.2 hdetect, hmade⟩

/-- A request that detects the security level and otherwise only reads. -/
theorem detecting_iff {f : SecurityLevel → Proc Response} (hf : ∀ level, (f level).Only reads) :
    (∀ resp y, Exec (Step P) (perform .detectSecurityLevel >>= f) x resp y → SameFiles x y) ↔
      ¬ x.machine.sys.MakesHostKey P := by
  constructor
  · intro h hmakes
    obtain ⟨level, v, hdetect, hmade⟩ := exists_detect hmakes
    obtain ⟨resp, y, hrest⟩ := answers_step (P := P) (f level) v
    have hsame := h resp y (exec_bind.2 ⟨level, v, hdetect, hrest⟩)
    have hkept := exec_reads (hf level) hrest
    exact hmade (by rw [← hkept.signing, hsame.signing])
  · intro hmakes resp y h
    obtain ⟨level, v, hdetect, hrest⟩ := exec_bind.1 h
    rcases exec_detect hdetect with hsame | hmakes'
    · exact hsame.trans (exec_reads (hf level) hrest)
    · exact absurd hmakes' hmakes

theorem detecting_after_iff {α : Type} {q : Proc α} {f : α → SecurityLevel → Proc Response}
    (hq : q.Only still) (hf : ∀ a level, (f a level).Only reads) :
    (∀ resp y, Exec (Step P) (do
      let a ← q
      let level ← perform .detectSecurityLevel
      f a level) x resp y → SameFiles x y) ↔ ¬ x.machine.sys.MakesHostKey P := by
  constructor
  · intro h
    obtain ⟨a, hexec⟩ := exists_exec_still (P := P) hq x
    exact (detecting_iff (hf a)).1 fun resp y hrest => h resp y (exec_bind.2 ⟨a, x, hexec, hrest⟩)
  · intro hmakes resp y h
    obtain ⟨a, v, hexec, hrest⟩ := exec_bind.1 h
    obtain rfl := exec_still hq hexec
    exact (detecting_iff (hf a)).2 hmakes resp y hrest

theorem doStatus_iff : (∀ resp y, Exec (Step P) doStatus x resp y → SameFiles x y) ↔
    ¬ x.machine.sys.MakesHostKey P := by
  apply detecting_iff
  intro level
  refine only_bind (reads_core (fun _ => rfl) fun _ => Tpm.quiet_detectBootMode) fun boot => ?_
  refine only_bind (reads_core (fun _ => rfl) fun _ => Tpm.quiet_isSecureBootEnabled) fun sb => ?_
  exact only_bind (only_perform (.inl ⟨rfl, fun _ => rfl⟩)) fun _ => .ret _

private theorem reads_diagnosePcrs {env : SealedEnvelope} :
    (perform (.diagnosePcrs env)).Only reads :=
  reads_core (fun _ => rfl) fun _ => Tpm.quiet_of_idle Tpm.idle_diagnosePcrs

theorem doDiagnose_iff : (∀ resp y, Exec (Step P) doDiagnose x resp y → SameFiles x y) ↔
    ¬ x.machine.sys.MakesHostKey P := by
  have hpresent : (perform (.pathExists (.root .tpmEnvelope))).Only still :=
    only_perform ⟨rfl, fun _ => rfl⟩
  refine detecting_after_iff hpresent fun present level => ?_
  split
  · exact .ret _
  · refine only_bind (only_readJson (.inl ⟨rfl, fun _ => rfl⟩)) fun env => ?_
    cases env with
    | error e => exact .ret _
    | ok env =>
        refine only_bind reads_diagnosePcrs fun changed => ?_
        cases changed <;> exact .ret _

/-! ## Requests that only look -/

theorem still_peerMayActAs : (peerMayActAs peerUid user).Only still :=
  (looks_peerMayActAs (F := fun _ => True) peerUid user).imp fun _ => still_of_looks

theorem still_doLivenessTest : (doLivenessTest pr).Only still :=
  only_bind ((looks_runLivenessTest (F := fun _ => True) pr).imp fun _ => still_of_looks)
    fun _ => .ret _

theorem still_doListProfiles : (doListProfiles peerUid).Only still := by
  refine only_bind (survey_enrolledProfiles.imp fun _ => still_of_surveyOp) fun users => ?_
  refine only_bind (only_mapM (fun user => ?_) users) fun _ => .ret _
  refine only_bind still_peerMayActAs fun mayAct => ?_
  have hname : (readProfileName user).Only still := by
    refine only_bind (still_perform rfl fun _ => rfl) fun r => ?_
    split <;> exact .ret _
  have hrest : ∀ hasPassword : Bool, Program.Only still (do
      let name ← readProfileName user
      let samples ← profileSampleCount user
      pure ({ user := user, name := name, samples := samples, hasPassword := hasPassword } :
        ProfileInfo)) := fun hasPassword =>
    only_bind hname fun _ =>
      only_bind (survey_profileSampleCount.imp fun _ => still_of_surveyOp) fun _ => .ret _
  simp only
  split
  · exact only_bind (still_perform rfl fun _ => rfl) hrest
  · exact only_bind only_pure hrest

theorem still_doPolicyStatus : (doPolicyStatus user).Only still :=
  (glances_doPolicyStatus (P := fun _ => True) trivial trivial).imp fun _ h => still_of_looks h.1

theorem still_doAuthIntent {peerIsRoot : Bool} :
    (doAuthIntent user service peerIsRoot).Only still :=
  (glances_doAuthIntent (P := fun _ => True) trivial trivial service peerIsRoot).imp
    fun _ h => still_of_looks h.1

theorem still_planAction {peerIsRoot : Bool} : (planAction user service peerIsRoot).Only still :=
  (glances_planAction (F := fun _ => True) trivial trivial service peerIsRoot).imp
    fun _ h => still_of_looks h.1

/-! ## Who is heard -/

/-- The peer may act as the user, whose name is valid. -/
def MayReach (peerUid : Option Nat) (user : String) : Prop :=
  (∃ uid, peerUid = some uid) ∧ validateUser user = .ok ()

section Heard

variable {Q : Computer → Prop} {handler : Proc Response}

private theorem exec_peerMayActAs {uid : Nat} :
    Exec (Step P) (peerMayActAs (some uid) user) x true x := by
  cases uid with
  | zero => exact ⟨rfl, rfl⟩
  | succ n =>
      refine exec_bind.2 ⟨some (n + 1), x, exec_perform.2 ⟨rfl, rfl, rfl⟩, ?_, rfl⟩
      exact (beq_self_eq_true (some (n + 1))).symm

/-- Only a peer with a user id can be heard in the name of an account. -/
theorem mayAct_iff {refusal : Response} (hself : Q x) :
    (∀ resp y, Exec (Step P) (do
      if !(← peerMayActAs peerUid user) then pure refusal else handler) x resp y → Q y) ↔
      ((∃ uid, peerUid = some uid) → ∀ resp y, Exec (Step P) handler x resp y → Q y) := by
  constructor
  · rintro h ⟨uid, rfl⟩ resp y hrun
    exact h resp y (exec_bind.2 ⟨true, x, exec_peerMayActAs, hrun⟩)
  · intro h resp y hrun
    obtain ⟨mayAct, v, hmay, hrest⟩ := exec_bind.1 hrun
    obtain rfl := exec_still still_peerMayActAs hmay
    cases mayAct with
    | false => exact hrest.2 ▸ hself
    | true =>
        cases peerUid with
        | none => cases hmay.1
        | some uid => exact h ⟨uid, rfl⟩ resp y hrest

theorem withUser_iff (hself : Q x) :
    (∀ resp y, Exec (Step P) (withUser user handler) x resp y → Q y) ↔
      (validateUser user = .ok () → ∀ resp y, Exec (Step P) handler x resp y → Q y) := by
  unfold withUser
  cases hvalid : validateUser user with
  | error e =>
      constructor
      · intro h hok
        cases hok
      · intro h resp y hrun
        exact hrun.2 ▸ hself
  | ok u =>
      constructor
      · intro h _
        exact h
      · intro h
        exact h rfl

theorem ownAccount_iff {op : String} (hself : Q x) :
    (∀ resp y, Exec (Step P) (ownAccount peerUid op user handler) x resp y → Q y) ↔
      (MayReach peerUid user → ∀ resp y, Exec (Step P) handler x resp y → Q y) := by
  refine (mayAct_iff hself).trans ?_
  rw [withUser_iff hself]
  exact and_imp.symm

end Heard

/-! ## Requests in the name of a user -/

theorem verify_iff (hlegacy : legacyMigrationAllowed pr = false) :
    (∀ resp y, Exec (Step P) (dispatch pr (.verify user) peerUid) x resp y → Kept user x y) ↔
      (MayReach peerUid user → Touchless P user x) := by
  have hself : Kept user x x := .of_same (.refl x)
  refine (withUser_iff hself).trans ?_
  rw [mayAct_iff hself]
  constructor
  · intro h hreach
    exact (doVerify_iff hlegacy hreach.2).1 (h hreach.2 hreach.1)
  · intro h hvalid hpeer
    exact (doVerify_iff hlegacy hvalid).2 (h ⟨hpeer, hvalid⟩)

/-- Without a root peer, only a plan to verify comes to the user's key. -/
theorem doAuthenticate_iff (hlegacy : legacyMigrationAllowed pr = false)
    (hvalid : validateUser user = .ok ()) :
    (∀ resp y, Exec (Step P) (doAuthenticate pr user service false) x resp y → Kept user x y) ↔
      ((∃ warm, actionIn user service false warm x.world = .verify) → Touchless P user x) := by
  rw [← doVerify_iff hlegacy hvalid, doAuthenticate_eq]
  constructor
  · rintro h ⟨warm, haction⟩ resp y hrun
    have hplans : PlansAction (fun _ => none) .none user service false warm x.world .verify :=
      (plansAction_iff rfl).2 haction.symm
    obtain ⟨plan, ⟨w', hplan⟩, -, hverify⟩ := hplans
    have hexec : Exec (Step P) (planAction user service false) x plan x :=
      exec_of_world still_planAction hplan
    refine h resp y (exec_bind.2 ⟨plan, x, hexec, ?_⟩)
    rw [carryOut, hverify]
    exact hrun
  · intro h resp y hrun
    obtain ⟨plan, v, hplan, hrest⟩ := exec_bind.1 hrun
    obtain rfl := exec_still still_planAction hplan
    have haction := (plansAction_iff rfl).1 ⟨plan, ⟨_, exec_world still_planAction hplan⟩, rfl, rfl⟩
    unfold carryOut at hrest
    cases hcase : plan.action with
    | deny =>
        rw [hcase] at hrest
        exact .of_same (.of_eq hrest.2)
    | verify =>
        rw [hcase] at hrest
        exact h ⟨plan.warm, haction.symm.trans hcase⟩ resp y hrest
    | «unseal» =>
        have hroot := (eq_unseal_of_capAction (haction.symm.trans hcase)).2.2
        cases hroot

theorem authenticate_iff (hlegacy : legacyMigrationAllowed pr = false)
    (hpeer : isRoot peerUid = false) :
    (∀ resp y, Exec (Step P) (dispatch pr (.authenticate user service) peerUid) x resp y →
      Kept user x y) ↔ (MayReach peerUid user →
        (∃ warm, actionIn user service false warm x.world = .verify) → Touchless P user x) := by
  rw [dispatch, hpeer, ownAccount_iff (.of_same (.refl x))]
  exact forall_congr' fun hreach => doAuthenticate_iff hlegacy hreach.2

/-! ## The law -/

/-- What an unprivileged request may do to the files: nothing, or for some heal the
signature file. -/
def Promised (req : Request) (x y : Computer) : Prop :=
  match req with
  | .status | .diagnose | .authIntent _ _ | .policyStatus _ => SameFiles x y
  | .verify user | .authenticate user _ => Kept user x y
  | _ => HealsAtMost x y

/-- No host key is made where the status asks for one, and no user key where a
verification does. -/
def LeavesNoTrace (P : Tpm.Platform) (req : Request) (peerUid : Option Nat) (x : Computer) : Prop :=
  match req with
  | .status | .diagnose => ¬ x.machine.sys.MakesHostKey P
  | .verify user => MayReach peerUid user → Touchless P user x
  | .authenticate user service => MayReach peerUid user →
      (∃ warm, actionIn user service false warm x.world = .verify) → Touchless P user x
  | _ => True

private theorem still_dispatch (hpeer : isRoot peerUid = false) :
    match req with
    | .status | .diagnose | .verify _ | .authenticate _ _ => True
    | _ => (dispatch pr req peerUid).Only still := by
  have hroot : ∀ {op user : String} {handler : Proc Response},
      (rootOnly peerUid op user handler).Only still := by
    intro op user handler
    rw [rootOnly, hpeer]
    exact .ret _
  have hforbidden : ∀ {op : String} {handler : Proc Response},
      Program.Only still (if !isRoot peerUid then pure (forbidden op) else handler) := by
    intro op handler
    rw [hpeer]
    exact .ret _
  have hown : ∀ {op user : String} {handler : Proc Response}, handler.Only still →
      (ownAccount peerUid op user handler).Only still :=
    fun h => only_ownAccount still_peerMayActAs h
  have hasks : ∀ {o : Op} {f : o.Ans → Response}, still o →
      (perform o >>= fun a => pure (f a)).Only still :=
    fun ho => only_bind (only_perform ho) fun _ => .ret _
  cases req with
  | status | diagnose | verify user | «authenticate» user service => trivial
  | enroll user reset | «unseal» user | sealPassword user password | unsealPassword user
  | resealUserEnvelopes user | setProfileName user name | deleteProfile user
  | saveRecovery user passphrase | restoreFromRecovery user passphrase => exact hroot
  | reseal | identify => exact hforbidden
  | authIntent user service => exact hown still_doAuthIntent
  | policyStatus user => exact hown still_doPolicyStatus
  | probe | positionSample => exact hasks ⟨rfl, fun _ => rfl⟩
  | livenessTest => exact still_doLivenessTest
  | listProfiles => exact still_doListProfiles

/-- A request of a peer that is not root leaves no more than it should exactly where no key is
made for it. -/
theorem keeps_promise_iff (hlegacy : legacyMigrationAllowed pr = false)
    (hpeer : isRoot peerUid = false) :
    (∀ resp y, Exec (Step P) (dispatch pr req peerUid) x resp y → Promised req x y) ↔
      LeavesNoTrace P req peerUid x := by
  have hstill := @still_dispatch pr req peerUid hpeer
  cases req with
  | status => exact doStatus_iff
  | diagnose => exact doDiagnose_iff
  | verify user => exact verify_iff hlegacy
  | «authenticate» user service => exact authenticate_iff hlegacy hpeer
  | authIntent user service | policyStatus user =>
      exact iff_of_true (fun resp y h => .of_eq (exec_still hstill h)) trivial
  | enroll user reset | «unseal» user | sealPassword user password | unsealPassword user
  | resealUserEnvelopes user | setProfileName user name | deleteProfile user
  | saveRecovery user passphrase | restoreFromRecovery user passphrase | reseal | identify
  | probe | positionSample | livenessTest | listProfiles =>
      exact iff_of_true
        (fun resp y h => (SameFiles.of_eq (exec_still hstill h)).healsAtMost) trivial

/-- A machine without Secure Boot, on which nothing is stored. -/
def bareComputer : Computer := ⟨emptyWorld, Tpm.simulatedMachine false none⟩

theorem keeps_promise_iff_status :
    (∀ resp y, Exec (Step Tpm.simulated) (dispatch simulatedProcess .status (some 1000))
      bareComputer resp y → SameFiles bareComputer y) ↔
      ¬ bareComputer.machine.sys.MakesHostKey Tpm.simulated :=
  keeps_promise_iff rfl rfl

/-- Asked to verify a user it knows nothing of, the daemon makes a key for that user. -/
theorem not_keeps_promise : ¬ ∀ (P : Tpm.Platform) (pr : Process) (req : Request)
    (peerUid : Option Nat) (x : Computer) (resp : Response) (y : Computer),
    legacyMigrationAllowed pr = false → isRoot peerUid = false →
    Exec (Step P) (dispatch pr req peerUid) x resp y → Promised req x y := by
  intro hall
  have hkept := (verify_iff rfl).1 fun resp y h =>
    hall Tpm.simulated simulatedProcess (.verify "alice") (some 1000) bareComputer resp y rfl rfl h
  have htouchless := hkept ⟨⟨1000, rfl⟩, by decide⟩
  have hleaves := htouchless (.inl rfl) rfl
  have hseal := Tpm.exec_of_respond (F := False) Tpm.simulatedChoices
    (Tpm.sealSecret Tpm.simulated (List.replicate KEY_LEN 0)).run bareComputer.machine
  exact hleaves.1 _ _ _ List.length_replicate hseal

end Linhello.Daemon
