import Linhello.Daemon.Changes
import Linhello.Daemon.Lockstep
import Linhello.Daemon.Usable
import Linhello.Effect.Tracing
/-!
# A swapped camera

An enrollment takes a snapshot of the cameras and writes it to the user's binding; a later
match has to come from the same cameras. The write is best effort and a binding that is not
there is no binding, so this holds of enrollments whose binding was written
(`camera_swap_declined`).
-/

namespace Linhello.Daemon

open Common Linhello.Core Effect Host Host.World Liveness Biometrics

variable {sealed : SealedEnvelope → Option Bytes} {flt : Faults} {pr : Process} {user : String}
  {peerUid : Option Nat} {w v : World} {req : Request} {resp : Response} {reset : Bool}

/-! ## The same camera -/

/-- The same USB identity, as far as the enrolled one goes. -/
structure SameDevice (enrolled current : DeviceIdentity) : Prop where
  vid : enrolled.vid = current.vid
  pid : enrolled.pid = current.pid
  serial : enrolled.serial ≠ "" → enrolled.serial = current.serial

/-- The cameras agree with a snapshot. -/
structure Agrees (enrolled current : CameraBinding) : Prop where
  rgb : SameDevice enrolled.rgb current.rgb
  ir : ∀ device, enrolled.ir = some device → ∃ now, current.ir = some now ∧ SameDevice device now

theorem checkDevice_ok_iff {label : String} {enrolled current : DeviceIdentity} :
    checkDevice label enrolled current = .ok () ↔ SameDevice enrolled current := by
  unfold checkDevice
  by_cases hvid : enrolled.vid = current.vid
  · by_cases hpid : enrolled.pid = current.pid
    · by_cases hserial : enrolled.serial ≠ "" ∧ enrolled.serial ≠ current.serial
      · rw [if_neg (not_not.2 hvid), if_neg (not_not.2 hpid), if_pos hserial]
        exact ⟨nofun, fun h => absurd (h.serial hserial.1) hserial.2⟩
      · rw [if_neg (not_not.2 hvid), if_neg (not_not.2 hpid), if_neg hserial]
        have hsame : SameDevice enrolled current :=
          ⟨hvid, hpid, fun hne => by_contra fun hdiff => hserial ⟨hne, hdiff⟩⟩
        exact ⟨fun _ => hsame, fun _ => rfl⟩
    · rw [if_neg (not_not.2 hvid), if_pos hpid]
      exact ⟨nofun, fun h => absurd h.pid hpid⟩
  · rw [if_pos hvid]
    exact ⟨nofun, fun h => absurd h.vid hvid⟩

theorem verify_ok_iff {enrolled current : CameraBinding} :
    enrolled.verify current = .ok () ↔ Agrees enrolled current := by
  unfold CameraBinding.verify
  cases hrgb : checkDevice "RGB" enrolled.rgb current.rgb with
  | error e =>
      apply iff_of_false
      · intro h
        cases h
      · intro h
        rw [checkDevice_ok_iff.2 h.rgb] at hrgb
        cases hrgb
  | ok u =>
      have hsame := checkDevice_ok_iff.1 hrgb
      cases hdevice : enrolled.ir with
      | none =>
          apply iff_of_true rfl
          refine ⟨hsame, fun device hsome => ?_⟩
          rw [hdevice] at hsome
          cases hsome
      | some device =>
          cases hnow : current.ir with
          | none =>
              apply iff_of_false
              · intro h
                cases h
              · intro h
                obtain ⟨now, hsome, -⟩ := h.ir device hdevice
                rw [hnow] at hsome
                cases hsome
          | some now =>
              constructor
              · intro h
                refine ⟨hsame, fun device' hdevice' => ⟨now, hnow, ?_⟩⟩
                rw [hdevice] at hdevice'
                cases hdevice'
                exact checkDevice_ok_iff.1 h
              · intro h
                obtain ⟨now', hnow', hagrees⟩ := h.ir device hdevice
                rw [hnow] at hnow'
                cases hnow'
                exact checkDevice_ok_iff.2 hagrees

/-! ## What a request resolved -/

def Resolves (events : List (Event host)) (current : CameraBinding) : Prop :=
  ∃ pre es post, events = pre ++ es ++ post ∧ snapshotCameraBinding.Traces es current

theorem Resolves.within {events : List (Event host)} {current : CameraBinding}
    (h : Resolves events current) (before after : List (Event host)) :
    Resolves (before ++ events ++ after) current := by
  obtain ⟨pre, es, post, rfl, hes⟩ := h
  refine ⟨before ++ pre, es, post ++ after, ?_, hes⟩
  simp only [List.append_assoc]

def identifies : Op → Bool
  | .rgbDevice | .irDevice | .probeCamera _ => true
  | _ => false

/-- Throughout a request the cameras were those of these surroundings. -/
def CamerasIn (env : Surroundings) (events : List (Event host)) : Prop :=
  ∀ e ∈ events, identifies e.1 = true → e.2 = env.answer e.1

theorem identifies_fromDevice (path : String) (n : Nat) :
    (fromDevice path n).Only fun o => identifies o = true := by
  induction n with
  | zero => exact .ret _
  | succ n ih =>
      refine only_bind (only_perform rfl) fun found => ?_
      cases found with
      | none => exact ih
      | some id => exact .ret _

private theorem identifies_snapshotCameraBinding :
    snapshotCameraBinding.Only fun o => identifies o = true := by
  refine only_bind (only_perform rfl) fun rgbPath => ?_
  refine only_bind (only_perform rfl) fun irPath => ?_
  refine only_bind (identifies_fromDevice rgbPath _) fun rgb => ?_
  cases irPath with
  | none => exact .ret _
  | some path => exact only_bind (identifies_fromDevice path _) fun ir => .ret _

/-- Cameras that stay as they are are resolved to what they are. -/
theorem Resolves.unique {env : Surroundings} {events : List (Event host)} {current : CameraBinding}
    (h : Resolves events current) (hcameras : CamerasIn env events) : current = snapshotIn env := by
  obtain ⟨pre, es, post, rfl, hes⟩ := h
  have hstep : ∀ e ∈ es, calm env simulatedUnseal emptyWorld e.1 e.2 emptyWorld := by
    intro e he
    have hidentifies := identifies_snapshotCameraBinding.traces hes e he
    have hanswer : e.2 = env.answer e.1 := by
      apply hcameras e _ hidentifies
      simp [he]
    obtain ⟨o, r⟩ := e
    refine ⟨⟨?_, ?_⟩, fun _ => hanswer⟩
    · cases o <;> first | rfl | cases hidentifies
    · cases o <;> first | rfl | cases hidentifies
  exact (snapshotCameraBinding_calm (exec_of_traces hes hstep)).1

/-! ## Requests that leave the binding alone -/

/-- Neither an enrollment nor a deletion of the user. -/
def LeavesBinding (user : String) (req : Request) : Prop :=
  (∀ reset, req ≠ .enroll user reset) ∧ req ≠ .deleteProfile user

abbrev sparesBinding (user : String) : Op → Prop := spares (.user user .cameraBinding)

private theorem spares_of_changes {P : Path → Prop} {p : Path} (hP : ¬ P p) {o : Op}
    (h : changes P o) :
    spares p o := by
  cases o with
  | write q d =>
      rintro rfl
      exact hP h
  | removeFile q =>
      rintro rfl
      exact hP h
  | removeDir u =>
      intro hparent
      cases p with
      | root f => cases hparent
      | user other f =>
          obtain rfl := Option.some.inj hparent
          exact hP (h f)
  | _ => trivial

theorem sparesBinding_dispatch (h : LeavesBinding user req) :
    (dispatch pr req peerUid).Only (sparesBinding user) := by
  have hunchanged : ¬ changedBy req (.user user .cameraBinding) := by
    intro hchanged
    have hloaded : ∀ {other : String}, ¬ ∃ f, (.user user .cameraBinding : Path) = .user other f ∧
        loadedFile f := by
      rintro other ⟨f, heq, hf⟩
      obtain ⟨-, rfl⟩ := Path.user.inj heq
      rcases hf with hf | hf | hf <;> cases hf
    cases req with
    | enroll other reset =>
        obtain ⟨f, heq, -⟩ := hchanged
        obtain ⟨rfl, -⟩ := Path.user.inj heq
        exact h.1 reset rfl
    | deleteProfile other =>
        obtain rfl : user = other := Option.some.inj hchanged
        exact h.2 rfl
    | verify other => exact hloaded hchanged
    | «unseal» other => exact hloaded hchanged
    | unsealPassword other => exact hloaded hchanged
    | authenticate other service => exact hloaded hchanged
    | identify =>
        obtain ⟨other, hother⟩ := hchanged
        exact hloaded hother
    | resealUserEnvelopes other => rcases hchanged with heq | heq <;> cases heq
    | _ => cases hchanged
  exact (changes_dispatch req).imp fun o ho => spares_of_changes hunchanged ho

/-- The daemon, with what each request has performed in its answer. -/
def Tells (req : Request) (p : Proc (Response × List (Event host))) : Prop :=
  ∃ pr peerUid, p = (dispatch pr req peerUid).traced []

abbrev Observed := Server Tells World

variable {d d₁ d₂ d₃ : Observed} {file : Option (Json CameraBinding)} {b : CameraBinding}
  {events enrolled : List (Event host)} {n : Nat}

theorem sparesBinding_of_tells {p : Proc (Response × List (Event host))}
    (hreq : LeavesBinding user req)
    (h : Tells req p) : p.Only (sparesBinding user) := by
  obtain ⟨pr, peerUid, rfl⟩ := h
  exact (sparesBinding_dispatch hreq).traced []

/-- Nothing in service enrolls the user or deletes the profile. -/
def LeftAlone (user : String) (d : Observed) : Prop :=
  ∀ id job, d.jobs id = some job → LeavesBinding user job.request

theorem LeftAlone.spares (h : LeftAlone user d) :
    ∀ id job, d.jobs id = some job → job.rest.Only (sparesBinding user) := by
  intro id job hjob
  obtain ⟨p, htells, hleads⟩ := job.remains
  exact hleads.only (sparesBinding_of_tells (h id job hjob) htells)

/-! ## The enrollment -/

def SameBinding (user : String) (w v : World) : Prop :=
  v.file (.user user .cameraBinding) = w.file (.user user .cameraBinding)

theorem sameBinding_step {o : Op} {r : o.Ans} (ho : sparesBinding user o)
    (h : Step sealed flt w o r v) : SameBinding user w v := by
  rw [SameBinding, h.2]
  exact file_next_of_not_touches (not_touches_of_spares ho r)

/-- The one snapshot a request took and set out to save, and what came of it. -/
def Snapshots (user : String) (events : List (Event host)) (b : CameraBinding)
    (r : Except IoError Unit) : Prop :=
  ∃ pre es post, events = pre ++ es ++ ⟨.write (.user user .cameraBinding) (.value b), r⟩ :: post ∧
    snapshotCameraBinding.Traces es b ∧ ∀ e ∈ pre ++ es ++ post, sparesBinding user e.1

/-- The binding after an attempt to save a snapshot. -/
def savedOver (file : Option (Json CameraBinding)) (b : CameraBinding) :
    Except IoError Unit → Option (Json CameraBinding)
  | .ok _ => some (.value b)
  | .error _ => file

abbrev HasBinding (user : String) (file : Option (Json CameraBinding)) (w : World) : Prop :=
  w.file (.user user .cameraBinding) = file

theorem stable_hasBinding :
    Stable (Server.Bounds (SameBinding user)) true (HasBinding user file) := by
  intro w v hw hrely
  obtain ⟨served, hother, hbound⟩ := hrely
  rcases hbound with hserved | hsame
  · exact absurd hserved hother
  · exact Eq.trans hsame hw

theorem promises_stage {α : Type} {p : Proc α} (hp : p.Only (sparesBinding user))
    (es : List (Event host)) : Promises (fun _ : Bool => Step sealed flt)
      (Server.Bounds (SameBinding user)) true (HasBinding user file) (p.traced es) fun a w =>
        (∃ told, a.2 = es ++ told ∧ p.Traces told a.1) ∧ HasBinding user file w := by
  refine Promises.traced_only hp stable_hasBinding ?_ es
  intro w o r v ho hw hstep
  exact ⟨.inl rfl, Eq.trans (sameBinding_step ho hstep) hw⟩

theorem promises_spared {α : Type} {p : Proc α} (hp : p.Only (sparesBinding user))
    (es : List (Event host)) : Promises (fun _ : Bool => Step sealed flt)
      (Server.Bounds (SameBinding user)) true (HasBinding user file) (p.traced es) fun a w =>
        (∃ told, a.2 = es ++ told ∧ ∀ e ∈ told, sparesBinding user e.1) ∧
          HasBinding user file w :=
  (promises_stage hp es).consequence (fun _ h => h) fun _ _ ⟨⟨told, htold, htraces⟩, hw⟩ =>
    ⟨⟨told, htold, hp.traces htraces⟩, hw⟩

private theorem promises_saveCameraBinding (b : CameraBinding) (es : List (Event host)) :
    Promises (fun _ : Bool => Step sealed flt) (Server.Bounds (SameBinding user)) true
      (HasBinding user file) ((saveCameraBinding user b).traced es) fun a w =>
        ∃ r told, a.2 = es ++ ⟨.write (.user user .cameraBinding) (.value b), r⟩ :: told ∧
          (∀ e ∈ told, sparesBinding user e.1) ∧ HasBinding user (savedOver file b r) w := by
  have hmode : ((perform (.setPermissions (.user user .cameraBinding)) : Proc _) >>=
      fun _ => pure ()).Only (sparesBinding user) :=
    only_bind (only_perform trivial) fun _ => .ret _
  unfold saveCameraBinding
  rw [traced_bind]
  refine Promises.bind (Promises.traced_perform (M := fun r => HasBinding user (savedOver file b r))
    stable_hasBinding (fun _ => stable_hasBinding) fun w r v hw hstep => ⟨.inl rfl, ?_⟩) ?_
  · rw [HasBinding, hstep.2]
    cases r with
    | ok u => exact file_set_self w (.user user .cameraBinding) _
    | error e => exact hw
  · rintro ⟨r, es₁⟩
    refine Promises.given fun htold₁ => ?_
    have hes₁ : es₁ = es ++ [⟨.write (.user user .cameraBinding) (.value b), r⟩] := htold₁
    refine (promises_stage hmode es₁).consequence (fun _ hw => hw)
      fun a w ⟨⟨told, hes₂, htold⟩, hw⟩ => ?_
    refine ⟨r, told, ?_, hmode.traces htold, hw⟩
    calc a.2 = es₁ ++ told := hes₂
      _ = (es ++ [⟨.write (.user user .cameraBinding) (.value b), r⟩]) ++ told := by rw [hes₁]
      _ = _ := by rw [List.append_assoc, List.singleton_append]

theorem promises_recordCapture {signals : LivenessSignals} {es : List (Event host)}
    (hes : ∀ e ∈ es, sparesBinding user e.1) :
    Promises (fun _ : Bool => Step sealed flt) (Server.Bounds (SameBinding user)) true
      (HasBinding user file) ((recordCapture user reset signals).traced es) fun a w =>
        ∃ b r, Snapshots user a.2 b r ∧ HasBinding user (savedOver file b r) w := by
  have hsnapshot : snapshotCameraBinding.Only (sparesBinding user) :=
    (looks_snapshotCameraBinding (F := fun _ => False)).imp fun _ => spares_of_looks
  unfold recordCapture
  rw [traced_bind]
  refine Promises.bind (promises_stage hsnapshot es) ?_
  rintro ⟨b, es₁⟩
  refine Promises.given fun ⟨taken, htold₁, htaken⟩ => ?_
  have hes₁ : es₁ = es ++ taken := htold₁
  rw [traced_bind]
  refine Promises.bind (promises_saveCameraBinding b es₁) ?_
  rintro ⟨u, es₂⟩ w ⟨r, told, htold₂, htold, hw⟩
  have hes₂ : es₂ = es₁ ++ ⟨.write (.user user .cameraBinding) (.value b), r⟩ :: told := htold₂
  have hprior : (priorCalibration user reset).Only (sparesBinding user) := by
    unfold priorCalibration
    split
    · exact .ret _
    · have hlooks := looks_loadIrCalibration (F := fun p => p = .user user .irCalibration) rfl
      exact hlooks.imp fun _ => spares_of_looks
  have hsave : ∀ cal, (saveIrCalibration user cal).Only (sparesBinding user) := fun cal => by
    refine only_bind (only_perform ?_) fun _ => only_bind (only_perform trivial) fun _ => .ret _
    intro heq
    cases heq
  refine (promises_spared (only_bind hprior fun cal => hsave _) es₂).consequence (fun _ hw => hw)
    (fun a v hav => ?_) hw
  obtain ⟨⟨more, hes₃, hmore⟩, hv⟩ := hav
  refine ⟨b, r, ⟨es, taken, told ++ more, ?_, htaken, ?_⟩, hv⟩
  · calc a.2 = es₂ ++ more := hes₃
      _ = (es₁ ++ ⟨.write (.user user .cameraBinding) (.value b), r⟩ :: told) ++
        more := by rw [hes₂]
      _ = es₁ ++ ⟨.write (.user user .cameraBinding) (.value b), r⟩ :: (told ++ more) := by
        rw [List.append_assoc, List.cons_append]
      _ = _ := by rw [hes₁]
  · intro e he
    simp only [List.mem_append] at he
    rcases he with (he | he) | he | he
    · exact hes e he
    · exact hsnapshot.traces htaken e he
    · exact htold e he
    · exact hmore e he

/-- Of an accepted enrollment: the snapshot it took, and the binding it leaves. -/
def Enrolls (user : String) (file : Option (Json CameraBinding)) (a : Response × List (Event host))
    (w : World) : Prop :=
  ∀ n, a.1 = .enrolled n →
    ∃ b r, Snapshots user a.2 b r ∧ HasBinding user (savedOver file b r) w

theorem promises_before {α : Type} {p : Proc α} {es : List (Event host)}
    (hp : p.Only (sparesBinding user)) (hes : ∀ e ∈ es, sparesBinding user e.1) :
    Promises (fun _ : Bool => Step sealed flt) (Server.Bounds (SameBinding user)) true
      (HasBinding user file) (p.traced es) fun a w =>
        (∀ e ∈ a.2, sparesBinding user e.1) ∧ HasBinding user file w := by
  refine (promises_stage hp es).consequence (fun _ hw => hw) fun a w ⟨⟨told, heq, htold⟩, hw⟩ => ?_
  refine ⟨fun e he => ?_, hw⟩
  rw [heq, List.mem_append] at he
  rcases he with he | he
  · exact hes e he
  · exact hp.traces htold e he

theorem promises_refused {es : List (Event host)} (hresp : ∀ n, resp ≠ .enrolled n) :
    Promises (fun _ : Bool => Step sealed flt) (Server.Bounds (SameBinding user)) true
      (HasBinding user file) (.ret (resp, es)) (Enrolls user file) :=
  Promises.ret stable_hasBinding fun _ _ n heq => absurd heq (hresp n)

private theorem promises_storeSample {emb : List F32} {signals : LivenessSignals}
    {es : List (Event host)}
    (hes : ∀ e ∈ es, sparesBinding user e.1) :
    Promises (fun _ : Bool => Step sealed flt) (Server.Bounds (SameBinding user)) true
      (HasBinding user file) ((storeSample pr user reset emb signals).traced es)
      (Enrolls user file) := by
  have hspares : ∀ {α : Type} {p : Proc α}, p.Only (userOp user loadedFile) →
      p.Only (sparesBinding user) :=
    fun hp => hp.imp fun _ => spares_of_userOp (by simp [loadedFile])
  unfold storeSample
  rw [traced_bind]
  refine Promises.bind (promises_before (hspares (userOp_cachedTemplateKey (.inl rfl))) hes) ?_
  rintro ⟨key, es₁⟩
  refine Promises.given fun hes₁ => ?_
  cases key with
  | error e => exact promises_refused fun n h => by cases h
  | ok key =>
      have hexisting : (existingTemplate pr user reset key).Only (userOp user loadedFile) :=
        (storeOp_existingTemplate (.inr (.inl rfl)) (.inr (.inr rfl)) reset key).imp
          fun _ ho => ho.1
      simp only
      rw [traced_bind]
      refine Promises.bind (promises_before (hspares hexisting) hes₁) ?_
      rintro ⟨existing, es₂⟩
      refine Promises.given fun hes₂ => ?_
      rw [traced_bind]
      refine Promises.bind (promises_before (hspares (userOp_saveEncryptedEmbedding
        (.inr (.inl rfl)) (.inr (.inr rfl)) ..)) hes₂) ?_
      rintro ⟨saved, es₃⟩
      refine Promises.given fun hes₃ => ?_
      cases saved with
      | error e => exact promises_refused fun n h => by cases h
      | ok u =>
          simp only
          rw [traced_bind]
          refine Promises.bind (promises_recordCapture hes₃) ?_
          rintro ⟨x, es₄⟩ w ⟨b, r, htaken, hw⟩
          have hleft : ∀ m v, HasBinding user (savedOver file b r) v →
              Enrolls user file (.enrolled m, es₄) v := fun m v hv n _ => ⟨b, r, htaken, hv⟩
          exact Promises.ret stable_hasBinding (hleft _) hw

private theorem promises_doEnroll : Promises (fun _ : Bool => Step sealed flt)
    (Server.Bounds (SameBinding user)) true (HasBinding user file)
    ((doEnroll pr user reset).traced []) (Enrolls user file) := by
  have hcapture : (captureAndEmbedSignals pr).run.Only (sparesBinding user) :=
    (looks_captureAndEmbedSignals (F := fun _ => False) pr).imp fun _ => spares_of_looks
  unfold doEnroll
  rw [traced_bind]
  refine Promises.bind (promises_before hcapture (by simp)) ?_
  rintro ⟨capture, es⟩
  refine Promises.given fun hes => ?_
  cases capture with
  | error e => exact promises_refused fun n h => by cases h
  | ok x => exact promises_storeSample hes

theorem guarded_enrolling {p : Proc (Response × List (Event host))}
    (htells : Tells (.enroll user reset) p) : Guarded (fun _ : Bool => Step sealed flt)
      (Server.Bounds (SameBinding user)) true
      (Enrolls user (w.file (.user user .cameraBinding))) p w := by
  obtain ⟨pr, peerUid, rfl⟩ := htells
  have hw : HasBinding user (w.file (.user user .cameraBinding)) w := rfl
  simp only [dispatch, rootOnly]
  split
  · exact promises_refused (fun n h => by cases h) hw
  · unfold withUser
    split
    · exact promises_refused (fun n h => by cases h) hw
    · exact promises_doEnroll hw

/-! ## The match -/

/-- A binding at least as strict as a snapshot. -/
def Enforces (b : CameraBinding) : Option (Json CameraBinding) → Prop
  | none => False
  | some (.value old) => ∀ current, Agrees old current → Agrees b current
  | some _ => True

/-- What a request finds out about the user's binding while it stays as it is. -/
def Finds (user : String) (file : Option (Json CameraBinding)) (e : Event host) : Prop :=
  (∀ present, e = ⟨.pathExists (.user user .cameraBinding), present⟩ → present = file.isSome) ∧
    ∀ json, e = ⟨.read (.user user .cameraBinding), .ok json⟩ → file = some json

theorem finds_step {o : Op} {r : o.Ans} (hstat : flt.stat = false) (hw : HasBinding user file w)
    (h : Step sealed flt w o r v) : Finds user file ⟨o, r⟩ := by
  constructor
  · intro present heq
    cases heq
    have hallows := h.1
    simp only [allows, hstat, Bool.false_and, Bool.or_false, beq_iff_eq] at hallows
    rw [hallows, ← hw]
  · intro json heq
    cases heq
    rw [← hw]
    exact (step_read_ok h).1

/-- A check that passed against a binding found cameras that agree. -/
theorem agrees_of_checked {es : List (Event host)} (henforces : Enforces b file)
    (hreads : ∀ e ∈ es, Finds user file e)
    (h : (checkCameraBinding user).run.Traces es (.ok ())) :
    ∃ current, Resolves es current ∧ Agrees b current := by
  unfold checkCameraBinding at h
  obtain ⟨es₁, es₂, present, rfl, hpresent, h₁⟩ := traces_exceptT_bind_ok.1 h
  obtain ⟨_, hpresent, heq⟩ := traces_lift.1 hpresent
  obtain rfl := traces_perform.1 hpresent
  obtain rfl := Except.ok.inj heq
  cases hfile : file with
  | none =>
      rw [hfile] at henforces
      exact henforces.elim
  | some json =>
      have hthere : present = true := by
        have hread :=
          (hreads ⟨.pathExists (.user user .cameraBinding), present⟩ (by simp)).1 present rfl
        rw [hread, hfile]
        rfl
      subst hthere
      obtain ⟨es₃, es₄, x, rfl, hx, h₂⟩ := traces_exceptT_bind_ok.1 h₁
      obtain ⟨_, hx, heq⟩ := traces_lift.1 hx
      obtain rfl := traces_perform.1 hx
      obtain rfl := Except.ok.inj heq
      cases x with
      | error e => cases h₂.2
      | ok found =>
          have hread := hreads ⟨.read (.user user .cameraBinding), .ok found⟩ (by simp)
          have hjson : file = some found := hread.2 found rfl
          cases found with
          | invalidUtf8 => cases h₂.2
          | malformed e => cases h₂.2
          | value old =>
              obtain ⟨es₅, es₆, current, rfl, hcurrent, hverify⟩ := traces_exceptT_bind_ok.1 h₂
              obtain ⟨_, hsnapshot, heq⟩ := traces_lift.1 hcurrent
              obtain rfl := Except.ok.inj heq
              rw [hjson] at henforces
              refine ⟨current, ⟨[⟨.pathExists (.user user .cameraBinding), true⟩,
                ⟨.read (.user user .cameraBinding), .ok (.value old)⟩], es₅, es₆, ?_, hsnapshot⟩,
                  ?_⟩
              · simp
              · apply henforces
                exact verify_ok_iff.1 hverify.2.symm

/-- A request loaded the user's samples, and what it captured matched one of them. -/
def Matches (user : String) (events : List (Event host)) : Prop :=
  ∃ (pr : Process) (pre loading capturing post : List (Event host)) (samples : List (List ℚ))
    (live : List F32), events = pre ++ loading ++ capturing ++ post ∧
    (loadUserSamples pr user).run.Traces loading (.ok samples) ∧
    (captureEmbedGated pr user).run.Traces capturing (.ok live) ∧
    (matchAgainst (matchThreshold pr) live samples).matched = true

theorem Matches.after (h : Matches user events) (before : List (Event host)) :
    Matches user (before ++ events) := by
  obtain ⟨pr, pre, loading, capturing, post, samples, live, rfl, hrest⟩ := h
  refine ⟨pr, before ++ pre, loading, capturing, post, samples, live, ?_, hrest⟩
  simp only [List.append_assoc]

/-- A match among the same binding comes from cameras that agree. -/
theorem Matches.agrees (h : Matches user events) (henforces : Enforces b file)
    (hreads : ∀ e ∈ events, Finds user file e) :
    ∃ current, Resolves events current ∧ Agrees b current := by
  obtain ⟨pr, pre, loading, capturing, post, samples, live, rfl, hload, -, -⟩ := h
  unfold loadUserSamples at hload
  obtain ⟨es₁, es₂, u, rfl, hcheck, -⟩ := traces_exceptT_bind_ok.1 hload
  have hchecked : ∀ e ∈ es₁, Finds user file e := by
    intro e he
    apply hreads
    simp [he]
  obtain ⟨current, hresolves, hagrees⟩ := agrees_of_checked henforces hchecked hcheck
  have hwithin := hresolves.within pre (es₂ ++ capturing ++ post)
  refine ⟨current, ?_, hagrees⟩
  simpa only [List.append_assoc] using hwithin

/-! ### Answers that tell of a match -/

/-- The requests that match a face. -/
inductive Matching (user : String) : Request → Prop
  | verify : Matching user (.verify user)
  | «unseal» : Matching user (.unseal user)
  | unsealPassword : Matching user (.unsealPassword user)
  | authenticate (service : String) : Matching user (.authenticate user service)

def accepts : Response → Bool
  | .verified matched _ _ => matched
  | .unsealed _ | .passwordUnsealed _ => true
  | _ => false

theorem matches_doVerify {es : List (Event host)} (h : (doVerify pr user).Traces es resp)
    (haccepts : accepts resp = true) : Matches user es := by
  unfold doVerify at h
  obtain ⟨loading, es₁, loaded, rfl, hload, h₁⟩ := traces_bind.1 h
  cases loaded with
  | error e =>
      obtain ⟨-, rfl⟩ := h₁
      cases haccepts
  | ok samples =>
      obtain ⟨capturing, es₂, captured, rfl, hcapture, h₂⟩ := traces_bind.1 h₁
      cases captured with
      | error e =>
          obtain ⟨-, rfl⟩ := h₂
          cases haccepts
      | ok live =>
          obtain ⟨rfl, rfl⟩ := h₂
          exact ⟨pr, [], loading, capturing, [], samples, live, by simp, hload, hcapture, haccepts⟩

theorem matches_releaseIfMatched {release : Fallible Bytes} {answer : Bytes → Response}
    {es : List (Event host)} (h : (releaseIfMatched pr user release answer).Traces es resp)
    (haccepts : accepts resp = true) : Matches user es := by
  unfold releaseIfMatched at h
  obtain ⟨loading, es₁, loaded, rfl, hload, h₁⟩ := traces_bind.1 h
  cases loaded with
  | error e =>
      obtain ⟨-, rfl⟩ := h₁
      cases haccepts
  | ok samples =>
      obtain ⟨capturing, es₂, captured, rfl, hcapture, h₂⟩ := traces_bind.1 h₁
      cases captured with
      | error e =>
          obtain ⟨-, rfl⟩ := h₂
          cases haccepts
      | ok live =>
          simp only at h₂
          split at h₂
          · obtain ⟨-, rfl⟩ := h₂
            cases haccepts
          · next hmatched =>
              rw [Bool.not_eq_true', Bool.not_eq_false] at hmatched
              refine ⟨pr, [], loading, capturing, es₂, samples, live, ?_, hload, hcapture, hmatched⟩
              rw [List.nil_append, List.append_assoc]

theorem traces_withUser {handler : Proc Response} {es : List (Event host)}
    (h : (withUser user handler).Traces es resp) (haccepts : accepts resp = true) :
    handler.Traces es resp := by
  unfold withUser at h
  split at h
  · obtain ⟨-, rfl⟩ := h
    cases haccepts
  · exact h

theorem traces_rootOnly {op : String} {handler : Proc Response} {es : List (Event host)}
    (h : (rootOnly peerUid op user handler).Traces es resp) (haccepts : accepts resp = true) :
    handler.Traces es resp := by
  unfold rootOnly at h
  split at h
  · obtain ⟨-, rfl⟩ := h
    cases haccepts
  · exact traces_withUser h haccepts

theorem matches_of_accepts (hreq : Matching user req)
    (h : (dispatch pr req peerUid).Traces events resp) (haccepts : accepts resp = true) :
    Matches user events := by
  have hrefused : ∀ {es : List (Event host)} {e : String},
      ¬ (Program.ret (Response.error e) : Proc Response).Traces es resp := by
    intro es e htraces
    obtain ⟨-, rfl⟩ := htraces
    cases haccepts
  cases hreq with
  | verify =>
      obtain ⟨es₁, es₂, mayAct, rfl, -, hverify⟩ := traces_bind.1 (traces_withUser h haccepts)
      split at hverify
      · exact absurd hverify hrefused
      · exact (matches_doVerify hverify haccepts).after es₁
  | «unseal» => exact matches_releaseIfMatched (traces_rootOnly h haccepts) haccepts
  | unsealPassword => exact matches_releaseIfMatched (traces_rootOnly h haccepts) haccepts
  | authenticate service =>
      obtain ⟨es₁, es₂, mayAct, rfl, -, hrest⟩ := traces_bind.1 h
      apply Matches.after
      split at hrest
      · exact absurd hrest hrefused
      · obtain ⟨es₃, es₄, plan, rfl, -, haction⟩ :=
          traces_bind.1 (traces_withUser hrest haccepts)
        apply Matches.after
        split at haction
        · exact absurd haction hrefused
        · exact matches_doVerify haction haccepts
        · exact matches_releaseIfMatched haction haccepts

/-! ## The run -/

theorem keeps_binding (hstat : flt.stat = false) : Server.Keeps (Step sealed flt) Restarts Tells
    (LeavesBinding user) (Finds user file) (sparesBinding user) (HasBinding user file) where
  operate := fun hw ho hstep =>
    ⟨finds_step hstat hw hstep, Eq.trans (sameBinding_step ho hstep) hw⟩
  accept := fun haccepts htells => (sparesBinding_of_tells haccepts htells).guided
  restart := by
    rintro w v hw rfl
    rw [HasBinding, file_withCache]
    exact hw

theorem Matching.leaves (h : Matching user req) {other : String} : LeavesBinding other req := by
  constructor
  · rintro reset rfl
    cases h
  · rintro rfl
    cases h

/-- The snapshot of an accepted enrollment was written, or the binding there was before is at
least as strict. -/
def Bound (user : String) (d : Observed) (enrolled : List (Event host)) : Prop :=
  ∀ b r, Snapshots user enrolled b r →
    (∃ u, r = .ok u) ∨ Enforces b (d.world.file (.user user .cameraBinding))

/-- Once an enrollment whose binding was written has been accepted, a match comes from cameras
that agree with its snapshot, whatever else is served before, meanwhile and after, short of
another enrollment or a deletion of the user. -/
theorem camera_swap_declined (hstat : flt.stat = false) (halone : LeftAlone user d)
    (henroll : Server.Asks (Step sealed flt) Restarts (LeavesBinding user) d (.enroll user reset)
      (.enrolled n, enrolled) d₁) (hbound : Bound user d enrolled)
    (hlater : Server.Steps (Step sealed flt) Restarts (LeavesBinding user) d₁ d₂)
    (hreq : Matching user req)
    (hasks : Server.Asks (Step sealed flt) Restarts (LeavesBinding user) d₂ req (resp, events) d₃) :
    ∃ b r, Snapshots user enrolled b r ∧ (accepts resp = true → Matches user events) ∧
      (Matches user events → ∃ current, Resolves events current ∧ Agrees b current ∧
        ∀ env, CamerasIn env events → current = snapshotIn env) := by
  obtain ⟨hleft, hjobs⟩ := henroll.guarded (R := SameBinding user) (P := sparesBinding user)
    sameBinding_step halone.spares (fun haccepts htells => sparesBinding_of_tells haccepts htells)
    fun p htells => guarded_enrolling htells
  obtain ⟨b, r, htaken, hbinding⟩ := hleft n rfl
  have henforces : Enforces b (savedOver (d.world.file (.user user .cameraBinding)) b r) := by
    rcases hbound b r htaken with ⟨u, rfl⟩ | henforces
    · exact fun current h => h
    · cases r with
      | ok u => exact fun current h => h
      | error e => exact henforces
  have hkeeps := @keeps_binding sealed flt user
    (savedOver (d.world.file (.user user .cameraBinding)) b r) hstat
  have hsteady : d₁.Steady (Finds user (savedOver (d.world.file (.user user .cameraBinding)) b r))
      (sparesBinding user)
      (HasBinding user (savedOver (d.world.file (.user user .cameraBinding)) b r)) :=
    ⟨hbinding, fun id job hjob => (hjobs id job hjob).guided⟩
  obtain ⟨-, p, ⟨pr, peerUid, rfl⟩, hexec⟩ := (hsteady.steps hkeeps hlater).asks hkeeps
    (fun p htells => hkeeps.accept hreq.leaves htells) hasks
  have hrecorded := exec_traced.1 hexec
  obtain ⟨es, hes, htraces⟩ := traces_of_recorded hrecorded
  obtain rfl : events = es := hes
  have hfinds : ∀ e ∈ events,
      Finds user (savedOver (d.world.file (.user user .cameraBinding)) b r) e := by
    intro e he
    rcases forall_recorded (fun h => h) hrecorded e he with hnil | hfinds
    · cases hnil
    · exact hfinds
  refine ⟨b, r, htaken, fun haccepts => matches_of_accepts hreq htraces haccepts, ?_⟩
  intro hmatches
  obtain ⟨current, hresolves, hagrees⟩ := hmatches.agrees henforces hfinds
  exact ⟨current, hresolves, hagrees, fun env hcameras => hresolves.unique hcameras⟩

/-! One enrollment and one verification, each alone, on hosts that answer as scripted but for
the write of the binding. -/

def answering (sc : Script) (saved : Except IoError Unit) : World.Responder
  | _, .write (.user _ .cameraBinding) _ => saved
  | w, o => sc.answer simulatedUnseal w o

def answeringRun {α : Type} (sc : Script) (saved : Except IoError Unit) (flt : Faults) (p : Proc α)
    (w : World) : Option (α × World) :=
  execute (fun _ : Unit => World.step simulatedUnseal flt (answering sc saved)) p w
    (List.replicate 60 ())

def AnsweredBy (sc : Script) (saved : Except IoError Unit) (e : Event host) : Prop :=
  (identifies e.1 = true → e.2 = sc.answer simulatedUnseal emptyWorld e.1) ∧
    ∀ user b r, e = ⟨.write (.user user .cameraBinding) (.value b), r⟩ → r = saved

theorem asks_of_answeringRun {sc : Script} {saved : Except IoError Unit}
    {Accepts : Request → Prop}
    (h : answeringRun sc saved flt (dispatch simulatedProcess req (some 0)) w = some (resp, v)) :
    ∃ events, (∀ e ∈ events, AnsweredBy sc saved e) ∧
      Server.Asks (Step simulatedUnseal flt) Restarts Accepts (⟨w, fun _ => none⟩ : Observed) req
        (resp, events) ⟨v, fun _ => none⟩ := by
  have hrun : Exec (fun w o r v => Step simulatedUnseal flt w o r v ∧ AnsweredBy sc saved ⟨o, r⟩)
      (dispatch simulatedProcess req (some 0)) w resp v := by
    refine exec_of_execute (fun _ w o r v hstep => ?_) h
    have hanswer : r = answering sc saved w o := by
      simp only [World.step] at hstep
      split at hstep
      · exact (Prod.mk.inj (Option.some.inj hstep)).1.symm
      · cases hstep
    refine ⟨step_sound hstep, ?_, ?_⟩
    · intro hidentifies
      rw [hanswer]
      cases o <;> first | rfl | cases hidentifies
    · intro user b r' heq
      cases heq
      exact hanswer
  obtain ⟨events, hrecorded⟩ := exec_recorded hrun []
  refine ⟨events, fun e he => ?_, ?_⟩
  · rcases forall_recorded (fun h => h.2) hrecorded e he with hnil | hanswered
    · cases hnil
    · exact hanswered
  · have hstep : Exec (recorded (Step simulatedUnseal flt)) (dispatch simulatedProcess req (some 0))
        (w, []) resp (v, events) := exec_mono (fun _ _ _ _ h => ⟨h.1.1, h.2⟩) hrecorded
    exact Server.asks_of_exec (x := ⟨w, fun _ => none⟩) (i := 0) rfl ⟨simulatedProcess, some 0, rfl⟩
      (exec_traced.2 hstep)

theorem leftAlone_idle : LeftAlone user (⟨w, fun _ => none⟩ : Observed) := by
  intro id job hjob
  cases hjob

def withCamera (id : DeviceIdentity) : Script :=
  { simulatedScript with identity := fun _ => some id }

def enrolledCamera : DeviceIdentity := ⟨"046d", "0825", "A1", "enrolled"⟩

def swappedCamera : DeviceIdentity := ⟨"1bcf", "2c99", "B2", "swapped"⟩

/-- An enrollment with one camera, then a verification with another. -/
def enrolledThenVerified (first second : DeviceIdentity) (saved : Except IoError Unit)
    (flt : Faults) : Option (Response × Bool) :=
  (answeringRun (withCamera first)
    saved flt (dispatch simulatedProcess (.enroll "alice" true) (some 0))
    emptyWorld).bind fun x =>
      (answeringRun (withCamera second)
        saved flt (dispatch simulatedProcess (.verify "alice") (some 0))
        x.2).map fun y => (x.1, accepts y.1)

theorem exists_of_enrolledThenVerified {first second : DeviceIdentity}
    {saved : Except IoError Unit}
    (h : enrolledThenVerified first second saved flt = some (.enrolled n, true)) :
    ∃ (enrolled events : List (Event host)) (resp : Response) (d₁ d₂ : Observed),
      (∀ e ∈ enrolled, AnsweredBy (withCamera first) saved e) ∧
      (∀ e ∈ events, AnsweredBy (withCamera second) saved e) ∧ accepts resp = true ∧
      Server.Asks (Step simulatedUnseal flt) Restarts (LeavesBinding "alice")
        (⟨emptyWorld, fun _ => none⟩ : Observed) (.enroll "alice" true) (.enrolled n, enrolled) d₁ ∧
      Server.Asks (Step simulatedUnseal flt) Restarts (LeavesBinding "alice") d₁ (.verify "alice")
        (resp, events) d₂ := by
  obtain ⟨⟨r, w⟩, henroll, hrest⟩ := Option.bind_eq_some_iff.1 h
  obtain ⟨⟨resp, v⟩, hverify, heq⟩ := Option.map_eq_some_iff.1 hrest
  obtain ⟨rfl, haccepts⟩ := Prod.mk.inj heq
  obtain ⟨enrolled, henrolled, hfirst⟩ := asks_of_answeringRun henroll
  obtain ⟨events, hevents, hsecond⟩ := asks_of_answeringRun hverify
  exact ⟨enrolled, events, resp, _, _, henrolled, hevents, haccepts, hfirst, hsecond⟩

theorem camera_swap_declined_alice : ∃ (enrolled events : List (Event host)) (b : CameraBinding)
    (r : Except IoError Unit), Snapshots "alice" enrolled b r ∧
      ∃ current, Resolves events current ∧ Agrees b current := by
  have hran : enrolledThenVerified enrolledCamera enrolledCamera (.ok ()) .none =
      some (.enrolled 1, true) := by
    decide +kernel
  obtain ⟨enrolled, events, resp, d₁, d₂, henrolled, -, haccepts, hfirst, hsecond⟩ :=
    exists_of_enrolledThenVerified hran
  have hbound : Bound "alice" ⟨emptyWorld, fun _ => none⟩ enrolled := by
    intro b r hsnapshot
    obtain ⟨pre, es, post, rfl, -, -⟩ := hsnapshot
    have hanswered := henrolled ⟨.write (.user "alice" .cameraBinding) (.value b), r⟩ (by simp)
    exact .inl ⟨(), hanswered.2 "alice" b r rfl⟩
  obtain ⟨b, r, htaken, hmatches, hagrees⟩ :=
    camera_swap_declined rfl leftAlone_idle hfirst hbound .refl .verify hsecond
  obtain ⟨current, hresolves, hagree, -⟩ := hagrees (hmatches haccepts)
  exact ⟨enrolled, events, b, r, htaken, current, hresolves, hagree⟩

/-- The binding could not be written; another camera is accepted. -/
theorem not_camera_swap_declined :
    ¬ ∀ (sealed : SealedEnvelope → Option Bytes) (flt : Faults) (user : String) (reset : Bool)
      (n : Nat) (enrolled events : List (Event host)) (req : Request) (resp : Response)
      (d d₁ d₂ d₃ : Observed), flt.stat = false → LeftAlone user d →
      Server.Asks (Step sealed flt) Restarts (LeavesBinding user) d (.enroll user reset)
        (.enrolled n, enrolled) d₁ →
      Server.Steps (Step sealed flt) Restarts (LeavesBinding user) d₁ d₂ → Matching user req →
      Server.Asks (Step sealed flt) Restarts (LeavesBinding user) d₂ req (resp, events) d₃ →
      accepts resp = true → ∀ b r env, Snapshots user enrolled b r → CamerasIn env events →
      Agrees b (snapshotIn env) := by
  intro hall
  have hran : enrolledThenVerified enrolledCamera swappedCamera
      (.error (.other "No space left on device (os error 28)")) ⟨false, false, true, false⟩ =
      some (.enrolled 1, true) := by
    decide +kernel
  obtain ⟨enrolled, events, resp, d₁, d₂, henrolled, hevents, haccepts, hfirst, hsecond⟩ :=
    exists_of_enrolledThenVerified hran
  obtain ⟨hleft, -⟩ := hfirst.guarded (R := SameBinding "alice") (P := sparesBinding "alice")
    sameBinding_step leftAlone_idle.spares
    (fun haccepts htells => sparesBinding_of_tells haccepts htells)
    fun p htells => guarded_enrolling htells
  obtain ⟨b, r, htaken, -⟩ := hleft 1 rfl
  have hrandom : ∀ (id : DeviceIdentity) (n : Nat), ((withCamera id).random n).length = n :=
    fun _ n => List.length_replicate
  have hcameras : CamerasIn (playing (withCamera swappedCamera) (hrandom _)) events :=
    fun e he hidentifies => (hevents e he).1 hidentifies
  have hsame := hall _ _ _ _ _ _ _ _ _ _ _ _ _ rfl leftAlone_idle hfirst .refl .verify hsecond
    haccepts b r _ htaken hcameras
  -- the snapshot was of the camera that was there then
  obtain ⟨pre, es, post, rfl, hes, -⟩ := htaken
  have hresolved : Resolves es b := ⟨[], es, [], by simp, hes⟩
  have hthen : b = snapshotIn (playing (withCamera enrolledCamera) (hrandom _)) := by
    apply hresolved.unique
    intro e he hidentifies
    exact (henrolled e (by simp [he])).1 hidentifies
  rw [hthen] at hsame
  have hvid : "046d" = "1bcf" := hsame.rgb.vid
  exact absurd hvid (by decide)

end Linhello.Daemon
