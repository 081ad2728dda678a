import Linhello.Daemon.Computer
import Linhello.Daemon.Resealing
import Linhello.Host.Simulated
import Linhello.Tpm.Keeping
/-!
# Resealing on a computer

A seal of the core crate may answer `Ok` with an envelope that does not open. Where the plan
before each seal is one that an unseal can follow, a run on a `Computer` is one of a `World`
whose TPM opens what the computer opens at the end, and a reseal loses no secret.
-/

namespace Linhello.Daemon

open Common Linhello.Core Effect Host Host.World

namespace Computer

variable {P : Tpm.Platform} {flt : Faults} {x y z : Computer} {user : String} {secret : Bytes}
  {env : SealedEnvelope} {α : Type}

/-! ## Runs with failing steps -/

def Failed : (o : Op) → o.Ans → Prop
  | .tpmSeal _, .error _ => True
  | .tpmUnseal _, .error _ => True
  | _, _ => False

/-- As `Step`, where files and the TPM may fail as `flt` says; what fails does nothing. -/
def StepWith (P : Tpm.Platform) (flt : Faults) : Semantics host Computer := fun x o r y =>
  (flt.tpm = true ∧ Failed o r ∧ y = x) ∨
  match coreCall P o with
  | some call => y.world = x.world ∧ Exec (Tpm.Step P False) call x.machine r y.machine
  | none => y.machine = x.machine ∧ World.Step (fun _ => none) flt x.world o r y.world

/-- What a step needs of the computer before it: an unseal, an envelope without a policy
reference of its own; a seal, a plan whose signature verifies. -/
def Meets (P : Tpm.Platform) (x : Computer) : Op → Prop
  | .tpmUnseal env => Tpm.Refers [] env
  | .tpmSeal _ => Tpm.PlansPresentable P x.machine
  | _ => True

def MeetingStep (P : Tpm.Platform) (flt : Faults) : Semantics host Computer := fun x o r y =>
  Meets P x o ∧ StepWith P flt x o r y

/-! ## The world of such a run -/

open Classical in
/-- The secret an envelope opens to on a machine. -/
noncomputable def opensTo (P : Tpm.Platform) (m : Tpm.Machine) (env : SealedEnvelope) :
    Option Bytes :=
  if h : ∃ secret, Tpm.Yields P m env secret then some h.choose else none

private theorem yields_unique {m : Tpm.Machine} {secret' : Bytes} (h : Tpm.Yields P m env secret)
    (h' : Tpm.Yields P m env secret') : secret = secret' := by
  have hexec := Tpm.exec_of_respond (F := False) (Tpm.Choices.fixed P) (Tpm.«unseal» P env).run m
  exact Except.ok.inj ((h _ _ hexec).symm.trans (h' _ _ hexec))

theorem opensTo_iff {m : Tpm.Machine} :
    opensTo P m env = some secret ↔ Tpm.Yields P m env secret := by
  unfold opensTo
  split
  next h =>
    constructor
    · intro heq
      rw [← Option.some.inj heq]
      exact h.choose_spec
    · intro hyields
      rw [yields_unique h.choose_spec hyields]
  next h => exact ⟨nofun, fun hyields => absurd ⟨secret, hyields⟩ h⟩

/-- The faults of the world: an unseal fails for reasons that the oracle does not have. -/
def refusing (flt : Faults) : Faults := { flt with tpm := true }

theorem step_of_none {sealed : SealedEnvelope → Option Bytes} {w w' : World} {o : Op} {r : o.Ans}
    (ho : coreCall P o = none) (h : World.Step (fun _ => none) flt w o r w') :
    World.Step sealed (refusing flt) w o r w' := by
  refine ⟨?_, h.2⟩
  have hallows := h.1
  cases o with
  | tpmSeal s => cases ho
  | tpmUnseal env => cases ho
  | _ => exact hallows

/-- A step at which everything goes on opening, in the world of a later machine. -/
structure Carries (P : Tpm.Platform) (flt : Faults) (m : Tpm.Machine) (x : Computer) (o : Op)
    (r : o.Ans) (y : Computer) : Prop where
  opens : Tpm.StillOpens P [] x.machine y.machine
  step : Tpm.StillOpens P [] y.machine m →
    World.Step (opensTo P m) (refusing flt) x.world o r y.world

private theorem carries_of_step {m : Tpm.Machine} {o : Op} {r : o.Ans}
    (h : MeetingStep P flt x o r y) :
    Carries P flt m x o r y := by
  obtain ⟨hmeets, ⟨htpm, hfailed, rfl⟩ | hstep⟩ := h
  · refine ⟨.refl _, fun _ => ?_⟩
    cases o with
    | tpmSeal s =>
        cases r with
        | ok env => exact hfailed.elim
        | error e => exact ⟨rfl, rfl⟩
    | tpmUnseal env =>
        cases r with
        | ok s => exact hfailed.elim
        | error e => exact ⟨rfl, rfl⟩
    | _ => exact hfailed.elim
  · cases o with
    | tpmUnseal env =>
        obtain ⟨hworld, hexec⟩ := hstep
        have hopens := Tpm.keepsOpen_unseal hmeets hexec
        refine ⟨hopens, fun hlater => ?_⟩
        rw [hworld]
        cases r with
        | error e => exact ⟨rfl, rfl⟩
        | ok s =>
            have hopened := hlater _ _ hmeets (hopens _ _ hmeets (Tpm.opened_of_unseal hexec))
            exact ⟨decide_eq_true (opensTo_iff.2 (Tpm.yields_iff.2 hopened)), rfl⟩
    | tpmSeal s =>
        obtain ⟨hworld, hexec⟩ := hstep
        refine ⟨Tpm.keepsOpen_sealSecret hexec, fun hlater => ?_⟩
        rw [hworld]
        cases r with
        | error e => exact ⟨rfl, rfl⟩
        | ok env =>
            obtain ⟨hopened, hrefers⟩ := Tpm.opened_of_sealSecret hmeets hexec
            have hyields := Tpm.yields_iff.2 (hlater _ _ hrefers hopened)
            exact ⟨decide_eq_true (opensTo_iff.2 hyields), rfl⟩
    | detectSecurityLevel =>
        obtain ⟨hworld, hexec⟩ := hstep
        exact ⟨Tpm.keepsOpen_detect hexec, fun _ => ⟨rfl, hworld⟩⟩
    | bootMode =>
        obtain ⟨hworld, hexec⟩ := hstep
        exact ⟨Tpm.keepsOpen_framed Tpm.framed_detectBootMode hexec, fun _ => ⟨rfl, hworld⟩⟩
    | secureBoot =>
        obtain ⟨hworld, hexec⟩ := hstep
        exact ⟨Tpm.keepsOpen_framed (Tpm.framed_of_idle Tpm.idle_isSecureBootEnabled) hexec,
          fun _ => ⟨rfl, hworld⟩⟩
    | diagnosePcrs env =>
        obtain ⟨hworld, hexec⟩ := hstep
        exact ⟨Tpm.keepsOpen_framed (Tpm.framed_of_idle Tpm.idle_diagnosePcrs) hexec,
          fun _ => ⟨rfl, hworld⟩⟩
    | _ =>
        obtain ⟨hmachine, hworld⟩ := hstep
        refine ⟨?_, fun _ => step_of_none (P := P) rfl hworld⟩
        rw [hmachine]
        exact .refl _

/-- A run whose steps meet the condition is one of a world with an ideal TPM. -/
theorem exec_world_of_meeting {p : Proc α} {a : α} {es es' : List (Event host)}
    (h : Exec (recorded (MeetingStep P flt)) p (x, es) a (y, es')) :
    Tpm.StillOpens P [] x.machine y.machine ∧
      Exec (recorded (World.Step (opensTo P y.machine) (refusing flt))) p (x.world, es) a
        (y.world, es') := by
  induction p generalizing x es with
  | ret b =>
      obtain ⟨rfl, heq⟩ := h
      obtain ⟨rfl, rfl⟩ := Prod.mk.inj heq
      exact ⟨.refl _, rfl, rfl⟩
  | call o k ih =>
      obtain ⟨r, ⟨z, es₁⟩, ⟨hstep, hes⟩, hrest⟩ := h
      obtain ⟨hlater, hexec⟩ := ih r hrest
      have hcarries := carries_of_step (m := y.machine) hstep
      exact ⟨hcarries.opens.trans hlater, r, (z.world, es₁), ⟨hcarries.step hlater, hes⟩, hexec⟩

/-! ## The request -/

/-- The file is an envelope that opens to `secret` on this computer. -/
def Holds (P : Tpm.Platform) (x : Computer) (p : Path) (as : Json SealedEnvelope → p.Data)
    (secret : Bytes) : Prop :=
  ∃ env, x.world.file p = some (as (.value env)) ∧ Tpm.Yields P x.machine env secret

/-- The envelope in the file was unsealed, what it held was sealed, and that was written. -/
def Replaced (P : Tpm.Platform) (x y : Computer) (p : Path) (as : Json SealedEnvelope → p.Data)
    (events : List (Event host)) : Prop :=
  ∃ old secret new, x.world.file p = some (as (.value old)) ∧
    ⟨.tpmUnseal old, .ok secret⟩ ∈ events ∧ ⟨.tpmSeal secret, .ok new⟩ ∈ events ∧
    ⟨.write p (as (.value new)), .ok ()⟩ ∈ events ∧ y.world.file p = some (as (.value new)) ∧
    Tpm.Yields P y.machine new secret

/-- The user's two envelopes have no policy reference of their own. -/
def PlainEnvelopes (user : String) (w : World) : Prop :=
  (∀ env, w.file (.user user .passwordEnvelope) = some (.value env) → Tpm.Refers [] env) ∧
    ∀ env, w.file (.user user .templateKeyEnvelope) = some (.value env) → Tpm.Refers [] env

/-- What a reseal of both envelopes does, whichever of its steps fail. -/
structure ResealsTo (P : Tpm.Platform) (user : String) (x y : Computer)
    (events : List (Event host)) (r : Response) : Prop where
  password : ∀ secret, x.Holds P (.user user .passwordEnvelope) id secret →
    y.Holds P (.user user .passwordEnvelope) id secret
  templateKey : ∀ key, x.Holds P (.user user .templateKeyEnvelope) id key →
    y.Holds P (.user user .templateKeyEnvelope) id key
  flags : ∃ passwordDone keyDone, r = .userEnvelopesResealed passwordDone keyDone ∧
    (passwordDone = true → Replaced P x y (.user user .passwordEnvelope) id events) ∧
    (keyDone = true → Replaced P x y (.user user .templateKeyEnvelope) id events)
  cache : (∀ key, x.world.cache.lookup user = some key →
      x.Holds P (.user user .templateKeyEnvelope) id key) →
    ∀ key, y.world.cache.lookup user = some key → y.Holds P (.user user .templateKeyEnvelope) id key
  otherKeys : ∀ v, v ≠ user → y.world.cache.lookup v = x.world.cache.lookup v
  otherFiles : ∀ p, p ≠ .user user .passwordEnvelope → p ≠ .user user .templateKeyEnvelope →
    y.world.file p = x.world.file p

theorem replaced_of_resealed {p : Path} {as : Json SealedEnvelope → p.Data}
    {events : List (Event host)} (hunsealed : Unsealed p as secret x.world events)
    (hresealed : Resealed (opensTo P y.machine) p as secret (y.world, events)) :
    Replaced P x y p as events := by
  obtain ⟨old, hfile, hunseal⟩ := hunsealed
  obtain ⟨new, hopens, hseal, hwrite, hnew⟩ := hresealed
  exact ⟨old, secret, new, hfile, hunseal, hseal, hwrite, hnew, opensTo_iff.1 hopens⟩

/-- In every run whose steps meet the condition, with any of them failing. -/
theorem reseal_user_envelopes_preserves {events : List (Event host)} {r : Response}
    (hplain : PlainEnvelopes user x.world)
    (h : Exec (recorded (MeetingStep P flt)) (doResealUserEnvelopes user) (x, []) r (y, events)) :
    ResealsTo P user x y events r := by
  obtain ⟨hopens, hworld⟩ := exec_world_of_meeting h
  have hlaw := reseal_user_envelopes_ideal hworld
  -- what opens before the request opens on the machine after it
  have hstart : ∀ {env secret}, Tpm.Refers [] env → Tpm.Yields P x.machine env secret →
      opensTo P y.machine env = some secret := fun hrefers hyields =>
    opensTo_iff.2 (Tpm.yields_iff.2 (hopens _ _ hrefers (Tpm.yields_iff.1 hyields)))
  have hpassword : ∀ {secret}, x.Holds P (.user user .passwordEnvelope) id secret →
      OpensPassword (opensTo P y.machine) user x.world secret := by
    rintro secret ⟨env, hfile, hyields⟩
    exact ⟨env, hfile, hstart (hplain.1 env hfile) hyields⟩
  have hkey : ∀ {key}, x.Holds P (.user user .templateKeyEnvelope) id key →
      EnvKey (opensTo P y.machine) user x.world key := by
    rintro key ⟨env, hfile, hyields⟩
    exact ⟨env, hfile, hstart (hplain.2 env hfile) hyields⟩
  have hkeyAfter : ∀ {key}, EnvKey (opensTo P y.machine) user y.world key →
      y.Holds P (.user user .templateKeyEnvelope) id key := by
    rintro key ⟨env, hfile, hkey⟩
    exact ⟨env, hfile, opensTo_iff.1 hkey⟩
  refine ⟨fun secret hholds => ?_, fun key hholds => hkeyAfter (hlaw.templateKey key (hkey hholds)),
    ?_, fun hcached key hlookup => ?_, hlaw.otherKeys, hlaw.otherFiles⟩
  · obtain ⟨env, hfile, hopened⟩ := hlaw.password secret (hpassword hholds)
    exact ⟨env, hfile, opensTo_iff.1 hopened⟩
  · obtain ⟨passwordDone, keyDone, hr, hdone, hdone'⟩ := hlaw.flags
    refine ⟨passwordDone, keyDone, hr, fun hp => ?_, fun hk => ?_⟩
    · obtain ⟨secret, hunsealed, hresealed⟩ := hdone hp
      exact replaced_of_resealed hunsealed hresealed
    · obtain ⟨key, hunsealed, hresealed⟩ := hdone' hk
      exact replaced_of_resealed hunsealed hresealed
  · exact hkeyAfter (hlaw.cache (fun key hlookup => hkey (hcached key hlookup)) key hlookup)

/-! ## A simulated computer -/

/-- What a request does without the core crate, a step of `S` may do. -/
def Reaches (flt : Faults) (S : Semantics host Computer) : Prop :=
  ∀ x o r y, coreCall Tpm.simulated o = none → StepWith Tpm.simulated flt x o r y → S x o r y

theorem Reaches.step {S : Semantics host Computer} (hS : Reaches flt S) {o : Op} {r : o.Ans}
    {w w' : World} {m : Tpm.Machine} (ho : coreCall Tpm.simulated o = none)
    (h : World.Step (fun _ => none) flt w o r w') : S ⟨w, m⟩ o r ⟨w', m⟩ := by
  refine hS _ _ _ _ ho (.inr ?_)
  rw [ho]
  exact ⟨rfl, h⟩

theorem meeting_reaches : Reaches flt (MeetingStep Tpm.simulated flt) := by
  refine fun x o r y ho h => ⟨?_, h⟩
  cases o <;> first | exact trivial | cases ho

/-- The user's two envelopes, and nothing else. -/
def lockedWorld (held : SealedEnvelope) : World :=
  (emptyWorld.set (.user "alice" .passwordEnvelope) (.value held)).set
    (.user "alice" .templateKeyEnvelope) (.value held)

/-- The files once the password has been sealed again. -/
def sealedAgain (held env : SealedEnvelope) : World :=
  ((lockedWorld held).mkdir (some "alice")).set (.user "alice" .passwordEnvelope) (.value env)

theorem lockedWorld_password {held : SealedEnvelope} :
    (lockedWorld held).file (.user "alice" .passwordEnvelope) = some (.value held) := by
  rw [lockedWorld, file_set_of_ne _ _ (by decide), file_set_self]

theorem lockedWorld_key {held : SealedEnvelope} :
    (lockedWorld held).file (.user "alice" .templateKeyEnvelope) = some (.value held) := by
  rw [lockedWorld, file_set_self]

theorem sealedAgain_password {held : SealedEnvelope} :
    (sealedAgain held env).file (.user "alice" .passwordEnvelope) = some (.value env) := by
  rw [sealedAgain, file_set_self]

theorem sealedAgain_key {held : SealedEnvelope} :
    (sealedAgain held env).file (.user "alice" .templateKeyEnvelope) = some (.value held) := by
  rw [sealedAgain, file_set_of_ne _ _ (by decide), file_mkdir, lockedWorld_key]

theorem plainEnvelopes_locked {held : SealedEnvelope} (hrefers : Tpm.Refers [] held) :
    PlainEnvelopes "alice" (lockedWorld held) := by
  constructor
  · intro env hfile
    obtain rfl := Json.value.inj (Option.some.inj (lockedWorld_password.symm.trans hfile))
    exact hrefers
  · intro env hfile
    obtain rfl := Json.value.inj (Option.some.inj (lockedWorld_key.symm.trans hfile))
    exact hrefers

theorem step_read {w : World} {p : Path} {d : p.Data} (h : w.file p = some d) :
    World.Step (fun _ => none) flt w (.read p) (.ok d) w := by
  refine ⟨?_, rfl⟩
  simp [World.allows, ioAnswer, h]

section Locked

variable {S : Semantics host Computer} {held : SealedEnvelope} {m m₁ m₂ : Tpm.Machine}

/-- The password is unsealed and sealed again; then it is the template key's turn. -/
theorem exec_reseal_locked (hS : Reaches flt S) {done : Bool}
    (hunseal : S ⟨lockedWorld held, m⟩ (.tpmUnseal held) (.ok [1, 2, 3]) ⟨lockedWorld held, m₁⟩)
    (hseal : S ⟨lockedWorld held, m₁⟩ (.tpmSeal [1, 2, 3]) (.ok env) ⟨lockedWorld held, m₂⟩)
    (hkey : Exec S (resealTemplateKey "alice") ⟨sealedAgain held env, m₂⟩ done y) :
    Exec S (doResealUserEnvelopes "alice") ⟨lockedWorld held, m⟩ (.userEnvelopesResealed true done)
      y := by
  have hread : S ⟨lockedWorld held, m⟩ (.read (.user "alice" .passwordEnvelope))
      (.ok (.value held)) ⟨lockedWorld held, m⟩ := hS.step rfl (step_read lockedWorld_password)
  have hdir : S ⟨lockedWorld held, m₂⟩ (.createDirAll (some "alice")) (.ok ())
      ⟨(lockedWorld held).mkdir (some "alice"), m₂⟩ := hS.step rfl ⟨rfl, rfl⟩
  have hwrite : S ⟨(lockedWorld held).mkdir (some "alice"), m₂⟩
      (.write (.user "alice" .passwordEnvelope) (.value env))
        (.ok ()) ⟨sealedAgain held env, m₂⟩ := by
    refine hS.step rfl ⟨?_, rfl⟩
    have hhas : ((lockedWorld held).mkdir (some "alice")).hasDir (some "alice") = true :=
      hasDir_mkdir.2 (.inl rfl)
    simp [World.allows, ioAnswer, Path.parent, hhas]
  have hmode : S ⟨sealedAgain held env, m₂⟩ (.setPermissions (.user "alice" .passwordEnvelope))
      (.ok ()) ⟨sealedAgain held env, m₂⟩ := by
    refine hS.step rfl ⟨?_, rfl⟩
    simp [World.allows, ioAnswer, sealedAgain_password]
  have hpassword : Exec S (resealPassword "alice") ⟨lockedWorld held, m⟩ true
      ⟨sealedAgain held env, m₂⟩ := by
    refine exec_bind.2 ⟨.ok [1, 2, 3], ⟨lockedWorld held, m₁⟩, ?_, exec_bind.2
      ⟨.ok (), ⟨sealedAgain held env, m₂⟩, ?_, rfl, rfl⟩⟩
    · refine exec_exceptT_bind_ok.2 ⟨(), ⟨lockedWorld held, m⟩, exec_orFail.2 ⟨rfl, rfl⟩, ?_⟩
      refine exec_exceptT_bind_ok.2 ⟨held, ⟨lockedWorld held, m⟩,
        exec_readJson_ok.2 ⟨.value held, hread, rfl⟩, ?_⟩
      exact exec_fallible.2 (exec_perform.2 hunseal)
    · rw [sealPassword, if_neg (by decide)]
      refine exec_exceptT_bind_ok.2 ⟨(), ⟨lockedWorld held, m₁⟩, exec_orFail.2 ⟨rfl, rfl⟩, ?_⟩
      refine exec_exceptT_bind_ok.2 ⟨env, ⟨lockedWorld held, m₂⟩,
        exec_fallible.2 (exec_perform.2 hseal), ?_⟩
      refine exec_exceptT_bind_ok.2 ⟨(), ⟨sealedAgain held env, m₂⟩, ?_,
        exec_io_ok.2 (exec_perform.2 hmode)⟩
      exact exec_exceptT_bind_ok.2 ⟨(), ⟨(lockedWorld held).mkdir (some "alice"), m₂⟩,
        exec_io_ok.2 (exec_perform.2 hdir), exec_io_ok.2 (exec_perform.2 hwrite)⟩
  exact exec_bind.2 ⟨true, ⟨sealedAgain held env, m₂⟩, hpassword,
    exec_bind.2 ⟨done, y, hkey, rfl, rfl⟩⟩

/-- Where the envelope of the template key is not unsealed, it stays. -/
theorem exec_key_kept (hS : Reaches flt S) {e : LinuxHelloError}
    (hunseal : S ⟨sealedAgain held env, m⟩ (.tpmUnseal held) (.error e) ⟨sealedAgain held env, m⟩) :
    Exec S (resealTemplateKey "alice") ⟨sealedAgain held env, m⟩
      false ⟨sealedAgain held env, m⟩ := by
  refine exec_bind.2 ⟨.error e, ⟨sealedAgain held env, m⟩, ?_, rfl, rfl⟩
  refine exec_exceptT_bind.2 (.inl ⟨(), _, exec_orFail.2 ⟨rfl, rfl⟩, ?_⟩)
  refine exec_exceptT_bind.2 (.inl ⟨held, _, ?_, exec_fallible.2 (exec_perform.2 hunseal)⟩)
  exact exec_readJson_ok.2 ⟨.value held, hS.step rfl (step_read sealedAgain_key), rfl⟩

variable (flt) in
/-- What the simulated host does with the password, and its envelope afterwards. -/
theorem locked_password {signatures : Option (Json Tpm.Banks)} {sigs : List Tpm.PcrSignature}
    (hheld : Tpm.HeldBy signatures held [1, 2, 3])
    (hsigs : (Tpm.simulatedMachine true signatures).sys.hostSignatures Tpm.simulated
      Tpm.DEFAULT_BANK = .ok sigs) :
    ∃ env m₁ m₂, Tpm.Started signatures m₁ ∧
      StepWith Tpm.simulated flt ⟨lockedWorld held, Tpm.simulatedMachine true signatures⟩
        (.tpmUnseal held) (.ok [1, 2, 3]) ⟨lockedWorld held, m₁⟩ ∧
      StepWith Tpm.simulated flt ⟨lockedWorld held, m₁⟩ (.tpmSeal [1, 2, 3]) (.ok env)
        ⟨lockedWorld held, m₂⟩ ∧
      Exec (Tpm.Step Tpm.simulated False) (Tpm.sealAuthorized Tpm.simulated [1, 2, 3]
        Tpm.LINHELLO_SIGNED_PCRS "host.pem" []).run m₁ (.ok env) m₂ := by
  obtain ⟨m₁, hunseal, hstarted⟩ := hheld.unseals Tpm.started_simulated
  obtain ⟨env, m₂, hsecret, hseal⟩ := @Tpm.Started.sealSecret [1, 2, 3] _ _ _ hstarted (by decide) hsigs
  exact ⟨env, m₁, m₂, hstarted, .inr ⟨rfl, hunseal⟩, .inr ⟨rfl, hsecret⟩, hseal⟩

end Locked

/-- The password is sealed under the host's own signer, and the TPM fails before the key. -/
theorem reseal_user_envelopes_preserves_simulated : ∃ held y events env,
    let x : Computer := ⟨lockedWorld held, Tpm.simulatedMachine true none⟩
    let r : Response := .userEnvelopesResealed true false
    Exec (recorded (MeetingStep Tpm.simulated (refusing .none))) (doResealUserEnvelopes "alice")
        (x, []) r (y, events) ∧
      x.Holds Tpm.simulated (.user "alice" .passwordEnvelope) id [1, 2, 3] ∧
      x.Holds Tpm.simulated (.user "alice" .templateKeyEnvelope) id [1, 2, 3] ∧
      y.world.file (.user "alice" .passwordEnvelope) = some (.value env) ∧
      env.policy = .authorized "host.pem" [] ∧
      ResealsTo Tpm.simulated "alice" x y events r := by
  obtain ⟨held, hheld⟩ := Tpm.exists_heldBy none
  have hsigs : (Tpm.simulatedMachine true none).sys.hostSignatures Tpm.simulated
      Tpm.DEFAULT_BANK = .ok [] := rfl
  obtain ⟨env, m₁, m₂, hstarted, hunseal, hseal, hauthorized⟩ :=
    locked_password (refusing .none) hheld hsigs
  have hkey : Exec (MeetingStep Tpm.simulated (refusing .none)) (resealTemplateKey "alice")
      ⟨sealedAgain held env, m₂⟩ false ⟨sealedAgain held env, m₂⟩ :=
    exec_key_kept (e := .tpm "TPM_RC_RETRY") meeting_reaches
      ⟨hheld.refers, .inl ⟨rfl, trivial, rfl⟩⟩
  have hrun := exec_reseal_locked meeting_reaches ⟨hheld.refers, hunseal⟩
    ⟨hstarted.presentable, hseal⟩ hkey
  obtain ⟨events, hrecorded⟩ := exec_recorded hrun []
  obtain ⟨signer, key, -, -, -, hpolicy, -⟩ := Tpm.exec_sealAuthorized_accepted hauthorized
  have hyields := hheld.yields Tpm.started_simulated
  exact ⟨held, _, events, env, hrecorded, ⟨held, lockedWorld_password, hyields⟩,
    ⟨held, lockedWorld_key, hyields⟩, sealedAgain_password, hpolicy,
    reseal_user_envelopes_preserves (plainEnvelopes_locked hheld.refers) hrecorded⟩

/-- Over a signature of an earlier key the request answers `true`, and the password that opened
before does not open. -/
theorem resealed_under_stale_entry : ∃ held y events,
    let x : Computer := ⟨lockedWorld held,
      Tpm.simulatedMachine true (some (.value (Tpm.simulatedBanks [Tpm.oldKey])))⟩
    Exec (recorded (StepWith Tpm.simulated (refusing .none))) (doResealUserEnvelopes "alice")
        (x, []) (.userEnvelopesResealed true false) (y, events) ∧
      x.Holds Tpm.simulated (.user "alice" .passwordEnvelope) id [1, 2, 3] ∧
      ¬ y.Holds Tpm.simulated (.user "alice" .passwordEnvelope) id [1, 2, 3] := by
  obtain ⟨held, hheld⟩ := Tpm.exists_heldBy (some (.value (Tpm.simulatedBanks [Tpm.oldKey])))
  obtain ⟨env, m₁, m₂, hstarted, hunseal, hseal, hauthorized⟩ :=
    locked_password (refusing .none) hheld (@Tpm.simulatedBanks_signatures [Tpm.oldKey])
  have hreaches : Reaches (refusing .none) (StepWith Tpm.simulated (refusing .none)) :=
    fun _ _ _ _ _ h => h
  have hkey : Exec (StepWith Tpm.simulated (refusing .none)) (resealTemplateKey "alice")
      ⟨sealedAgain held env, m₂⟩ false ⟨sealedAgain held env, m₂⟩ :=
    exec_key_kept (e := .tpm "TPM_RC_RETRY") hreaches (.inl ⟨rfl, trivial, rfl⟩)
  obtain ⟨events, hrecorded⟩ := exec_recorded (exec_reseal_locked hreaches hunseal hseal hkey) []
  refine ⟨held, _, events, hrecorded,
    ⟨held, lockedWorld_password, hheld.yields Tpm.started_simulated⟩, ?_⟩
  rintro ⟨env', hfile, hyields⟩
  obtain rfl := Json.value.inj (Option.some.inj (sealedAgain_password.symm.trans hfile))
  have hpresentable := Tpm.presentable_of_opens hauthorized hyields
  exact Tpm.not_presentable_stale (hpresentable.congr hstarted.pcr.symm hstarted.file.symm)

end Computer

end Linhello.Daemon
