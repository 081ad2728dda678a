import Linhello.Biometrics.Camera
import Linhello.Daemon.Tiers
import Linhello.Daemon.UserFootprint
/-!
# The camera behind the Secure tier

Which device is resolved as the IR camera, and what an enrollment makes of it: a binding with
an IR camera puts the user on the Secure tier.
-/

namespace Linhello.Daemon

open Common Linhello.Core Effect Host Host.World Liveness Biometrics Biometrics.Camera

/-- What the cameras of a machine are resolved to. -/
def cameraAnswers (m : Machine) : (o : Op) → o.Ans → Prop
  | .rgbDevice, r => r = resolveRgb m
  | .irDevice, r => r = resolveIr m
  | _, _ => True

/-- The host on a machine whose video nodes, environment and `cameras.conf` stay as they are. -/
def onMachine (m : Machine) (sealed : SealedEnvelope → Option Bytes) (flt : Faults) :
    Semantics host World :=
  fun w o r w' => Step sealed flt w o r w' ∧ cameraAnswers m o r

/-! ## What an enrollment records -/

/-- Saving a camera binding with an IR camera. -/
def bindsIr : Op → Prop
  | .write (.user _ .cameraBinding) (.value b) => b.ir.isSome = true
  | _ => False

/-- An operation that records an IR camera only if one is resolved. -/
def SavesResolved (m : Machine) (o : Op) : Prop := bindsIr o → (resolveIr m).isSome = true

section Recorded

variable {m : Machine} {pr : Process} {user : String} {sealed : SealedEnvelope → Option Bytes}
  {flt : Faults} {w w' : World}

abbrev Relied (m : Machine) : Event host → Prop := fun e => cameraAnswers m e.1 e.2

theorem savesResolved_of_looks {F : Path → Prop} {o : Op} (h : looks F o) : SavesResolved m o := by
  intro hbinds
  cases o with
  | write p d => exact h.elim
  | _ => exact hbinds.elim

theorem savesResolved_of_userOp {o : Op} (h : userOp user (fun f => f ≠ .cameraBinding) o) :
    SavesResolved m o := by
  intro hbinds
  cases o with
  | write p d =>
      obtain ⟨f, rfl, hf⟩ := h
      cases f with
      | cameraBinding => exact absurd rfl hf
      | _ => exact hbinds.elim
  | _ => exact hbinds.elim

theorem guided_answer {o : Op} (h : SavesResolved m o) :
    (perform o).Guided (Relied m) (SavesResolved m) (cameraAnswers m o) := guided_perform h

private theorem guided_snapshotCameraBinding :
    snapshotCameraBinding.Guided (Relied m) (SavesResolved m)
    fun b => b.ir.isSome = true → (resolveIr m).isSome = true := by
  have hquiet :
      ∀ path : String, (fromDevice path PROBE_ATTEMPTS).Guided (Relied m) (SavesResolved m)
      fun _ => True := fun path => ((glances_fromDevice (F := fun _ => False) path _).imp
    fun _ h => savesResolved_of_looks (looks_of_glances h)).guided
  refine guided_bind (guided_answer fun h => h.elim) fun rgbPath _ => ?_
  refine guided_bind (guided_answer fun h => h.elim) fun irPath hir => ?_
  have hir : irPath = resolveIr m := hir
  refine guided_bind (hquiet rgbPath) fun rgb _ => ?_
  cases irPath with
  | none => exact .ret nofun
  | some path =>
      refine guided_bind (hquiet path) fun ir _ => .ret fun _ => ?_
      rw [← hir]
      rfl

private theorem guided_recordCapture (reset : Bool) (signals : LivenessSignals) :
    (recordCapture user reset signals).Guided (Relied m) (SavesResolved m) fun _ => True := by
  have hcal :
      (priorCalibration user reset).Only (looks fun p => p = .user user .irCalibration) := by
    unfold priorCalibration
    split
    · exact .ret _
    · exact looks_loadIrCalibration rfl
  refine guided_bind guided_snapshotCameraBinding fun binding hbinding => ?_
  refine guided_bind (Q := fun _ => True) ?_ fun _ _ => ?_
  · refine guided_bind (guided_answer hbinding) fun _ _ => ?_
    exact guided_bind (guided_answer fun h => h.elim) fun _ _ => .ret trivial
  · refine guided_bind (hcal.imp fun _ => savesResolved_of_looks).guided fun cal _ => ?_
    refine guided_bind (guided_answer fun h => h.elim) fun _ _ => ?_
    exact guided_bind (guided_answer fun h => h.elim) fun _ _ => .ret trivial

theorem guided_doEnroll (reset : Bool) :
    (doEnroll pr user reset).Guided (Relied m) (SavesResolved m) fun _ => True := by
  have hother : ∀ {α : Type} {p : Proc α}, p.Only (userOp user fun f => f ≠ .cameraBinding) →
      p.Guided (Relied m) (SavesResolved m) fun _ => True :=
    fun hp => (hp.imp fun _ => savesResolved_of_userOp).guided
  refine guided_bind (Q := fun _ => True) ?_ fun capture _ => ?_
  · exact ((looks_captureAndEmbedSignals (F := fun _ => False) pr).imp
      fun _ => savesResolved_of_looks).guided
  cases capture with
  | error e => exact .ret trivial
  | ok x =>
      refine guided_bind (hother (userOp_cachedTemplateKey (by decide))) fun key _ => ?_
      cases key with
      | error e => exact .ret trivial
      | ok key =>
          refine guided_bind (Q := fun _ => True) ?_ fun existing _ => ?_
          · unfold existingTemplate
            split
            · exact .ret trivial
            · refine guided_bind
                (hother (userOp_loadEncryptedEmbedding (by decide) (by decide) key))
                fun loaded _ => ?_
              cases loaded <;> exact .ret trivial
          refine guided_bind (hother (userOp_saveEncryptedEmbedding (by decide) (by decide) ..))
            fun saved _ => ?_
          cases saved with
          | error e => exact .ret trivial
          | ok _ => exact guided_bind (guided_recordCapture reset _) fun _ _ => .ret trivial

/-- A binding that is saved with an IR camera was saved because one is resolved. -/
theorem resolved_of_recorded {reset : Bool} {resp : Response} {events : List (Event host)}
    (h : Exec (recorded (onMachine m sealed flt)) (doEnroll pr user reset) (w, [])
      resp (w', events)) :
    ∀ e ∈ events, bindsIr e.1 → (resolveIr m).isSome = true := by
  have hanswers : ∀ e ∈ events, Relied m e := by
    intro e he
    rcases forall_recorded (A := Relied m) (fun hstep => hstep.2) h e he with hnil | hrelied
    · exact nomatch hnil
    · exact hrelied
  intro e he
  rcases (guided_doEnroll reset).events h hanswers e he with hnil | hsaves
  · exact nomatch hnil
  · exact hsaves

/-- A step puts a user on the Secure tier only by saving a binding with an IR camera. -/
theorem secure_of_step {o : Op} {r : o.Ans} (hsaves : SavesResolved m o)
    (h : onMachine m sealed flt w o r w')
    (hsecure : enrolledTier (w'.file (.user user .cameraBinding)) = .secure) :
    enrolledTier (w.file (.user user .cameraBinding)) = .secure ∨ (resolveIr m).isSome = true := by
  obtain ⟨⟨-, rfl⟩, -⟩ := h
  by_cases htouch : touches (.user user .cameraBinding) ⟨o, r⟩
  · cases o with
    | write p d =>
        obtain ⟨rfl, rfl⟩ := htouch
        have hfile : (w.next (.write (.user user .cameraBinding) d) (.ok ())).file
            (.user user .cameraBinding) = some d := file_set_self w _ d
        rw [hfile] at hsecure
        right
        apply hsaves
        cases d with
        | value b =>
            by_cases hir : b.ir.isSome = true
            · exact hir
            · rw [enrolledTier, if_neg hir] at hsecure
              cases hsecure
        | invalidUtf8 => cases hsecure
        | malformed msg => cases hsecure
    | removeFile p =>
        obtain ⟨rfl, rfl⟩ := htouch
        have hfile : (w.next (.removeFile (.user user .cameraBinding)) (.ok ())).file
            (.user user .cameraBinding) = none := file_erase_self w (.user user .cameraBinding)
        rw [hfile] at hsecure
        cases hsecure
    | removeDir u =>
        obtain ⟨hparent, rfl⟩ := htouch
        obtain rfl := Option.some.inj hparent
        have hfile : (w.next (.removeDir user) (.ok ())).file (.user user .cameraBinding) = none :=
          file_rmdir_self w user _
        rw [hfile] at hsecure
        cases hsecure
    | _ => exact htouch.elim
  · rw [file_next_of_not_touches htouch] at hsecure
    exact .inl hsecure

/-- An enrollment that puts a user on the Secure tier ran on a machine with an IR device. -/
theorem resolved_of_secure {reset : Bool} {resp : Response}
    (h : Exec (onMachine m sealed flt) (doEnroll pr user reset) w resp w')
    (hbefore : enrolledTier (w.file (.user user .cameraBinding)) ≠ .secure)
    (hafter : enrolledTier (w'.file (.user user .cameraBinding)) = .secure) :
    (resolveIr m).isSome = true := by
  have htrans : ∀ {t u v : World},
      (enrolledTier (u.file (.user user .cameraBinding)) = .secure →
        enrolledTier (t.file (.user user .cameraBinding)) = .secure ∨ (resolveIr m).isSome = true) →
      (enrolledTier (v.file (.user user .cameraBinding)) = .secure →
        enrolledTier (u.file (.user user .cameraBinding)) = .secure ∨ (resolveIr m).isSome = true) →
      enrolledTier (v.file (.user user .cameraBinding)) = .secure →
        enrolledTier (t.file (.user user .cameraBinding)) = .secure ∨
          (resolveIr m).isSome = true := by
    intro t u v hfirst hrest hsecure
    rcases hrest hsecure with hsecure | hsome
    · exact hfirst hsecure
    · exact .inr hsome
  have hexec := (@guided_doEnroll m pr user reset).exec
    (R := fun w w' => enrolledTier (w'.file (.user user .cameraBinding)) = .secure →
      enrolledTier (w.file (.user user .cameraBinding)) = .secure ∨ (resolveIr m).isSome = true)
    (fun _ hsecure => .inl hsecure) htrans (fun hstep => hstep.2) secure_of_step h
  exact (hexec hafter).resolve_left hbefore

/-- A user whose tier is read as Secure has a binding with an IR camera. -/
theorem secure_of_userTier (h : Exec (Step sealed flt) (userTier user) w .secure w') :
    enrolledTier (w.file (.user user .cameraBinding)) = .secure := by
  unfold userTier at h
  obtain ⟨b, u, hb, hret⟩ := exec_bind.1 h
  unfold enrolledBinding at hb
  obtain ⟨r, v, hread, hb⟩ := exec_bind.1 hb
  rw [exec_perform] at hread
  cases r with
  | error e =>
      obtain ⟨rfl, -⟩ := hb
      cases hret.1
  | ok d =>
      rw [(step_read_ok hread).1]
      cases d with
      | value c =>
          obtain ⟨rfl, -⟩ := hb
          exact hret.1.symm
      | invalidUtf8 =>
          obtain ⟨rfl, -⟩ := hb
          cases hret.1
      | malformed msg =>
          obtain ⟨rfl, -⟩ := hb
          cases hret.1

end Recorded

/-! ## A real IR camera -/

variable (m : Machine)

def Pinned (p : String) : Prop :=
  envDevice m "LINHELLO_IR_DEVICE" = some p ∨ confDevice m "ir" = some p

/-- A node of the machine with this path is an IR camera and not a virtual one. -/
def TrustedIr (p : String) : Prop :=
  ∃ c ∈ enumerateBlocking m, c.path = p ∧ c.kind = .ir ∧ c.trusted = true

def GenuineNode (p : String) : Prop := Pinned m p ∨ TrustedIr m p

/-- Whatever is resolved as the IR camera, recorded by an enrollment or behind a user's Secure
tier is pinned or a real IR camera; with colour cameras alone and no pin nothing is. -/
structure SecureIsGenuine : Prop where
  resolved : ∀ p, resolveIr m = some p → GenuineNode m p
  recorded : ∀ pr user reset sealed flt w resp w' events,
    Exec (recorded (onMachine m sealed flt)) (doEnroll pr user reset) (w, []) resp (w', events) →
    ∀ e ∈ events, bindsIr e.1 → ∃ p, resolveIr m = some p ∧ GenuineNode m p
  secure : ∀ pr user reset sealed flt w resp w' v,
    Exec (onMachine m sealed flt) (doEnroll pr user reset) w resp w' →
    enrolledTier (w.file (.user user .cameraBinding)) ≠ .secure →
    Exec (Step sealed flt) (userTier user) w' .secure v → ∃ p, resolveIr m = some p ∧
      GenuineNode m p
  colourOnly : (∀ c ∈ enumerateBlocking m, c.kind = .rgb) →
    envDevice m "LINHELLO_IR_DEVICE" = none → confDevice m "ir" = none → resolveIr m = none

/-- The machines on which that is so: an IR device is pinned; or the first IR node is trusted; or
there is none, and no device at the default path that is not one. -/
def WellEquipped : Prop :=
  (envDevice m "LINHELLO_IR_DEVICE").isSome = true ∨ (confDevice m "ir").isSome = true ∨
    match (enumerate m).find? fun c => c.kind = .ir with
    | some c => c.trusted = true
    | none => m.tree.pathExists DEFAULT_IR_DEVICE = true → TrustedIr m DEFAULT_IR_DEVICE

variable {m}

private theorem trustedIr_path {c : Camera.CameraInfo} (hc : c ∈ enumerateBlocking m)
    (hkind : c.kind = .ir) :
    TrustedIr m c.path ↔ c.trusted = true := by
  constructor
  · rintro ⟨c', hc', hpath, -, htrusted⟩
    rw [trusted_of_mem hc', hpath] at htrusted
    rwa [trusted_of_mem hc]
  · exact fun htrusted => ⟨c, hc, rfl, hkind, htrusted⟩

/-- Every resolved device is pinned or a real IR camera on the well-equipped machines only. -/
theorem genuine_iff : (∀ p, resolveIr m = some p → GenuineNode m p) ↔ WellEquipped m := by
  unfold resolveIr WellEquipped GenuineNode Pinned
  cases henv : envDevice m "LINHELLO_IR_DEVICE" with
  | some q =>
      refine iff_of_true ?_ (.inl rfl)
      intro p hp
      obtain ⟨-, rfl⟩ := ifExists_eq_some.1 hp
      exact .inl (.inl rfl)
  | none =>
      cases hconf : confDevice m "ir" with
      | some q =>
          refine iff_of_true ?_ (.inr (.inl rfl))
          intro p hp
          obtain ⟨-, rfl⟩ := ifExists_eq_some.1 hp
          exact .inl (.inr rfl)
      | none =>
          have hpin : ∀ p : String, ¬((none : Option String) = some p ∨ none = some p) := by
            rintro p (h | h)
            · cases h
            · cases h
          simp only [hpin, Option.isSome_none, Bool.false_eq_true, false_or]
          cases hfind : (enumerate m).find? fun c => c.kind = .ir with
          | some c =>
              have hmem := mem_enumerateBlocking_of_enumerate (List.mem_of_find?_eq_some hfind)
              have hkind : c.kind = .ir := by simpa using List.find?_some hfind
              have htrusted := trustedIr_path hmem hkind
              constructor
              · exact fun h => htrusted.1 (h c.path rfl)
              · intro h p hp
                rw [← Option.some.inj hp]
                exact htrusted.2 h
          | none =>
              constructor
              · exact fun h hexists => h _ (ifExists_eq_some.2 ⟨hexists, rfl⟩)
              · intro h p hp
                obtain ⟨hexists, rfl⟩ := ifExists_eq_some.1 hp
                exact h hexists

/-- The Secure tier needs a real IR camera exactly on the well-equipped machines. -/
theorem resolve_ir_iff (m : Machine) : SecureIsGenuine m ↔ WellEquipped m := by
  rw [← genuine_iff]
  constructor
  · exact SecureIsGenuine.resolved
  · intro hgenuine
    have hsome : (resolveIr m).isSome = true → ∃ p, resolveIr m = some p ∧ GenuineNode m p := by
      intro h
      obtain ⟨p, hp⟩ := Option.isSome_iff_exists.1 h
      exact ⟨p, hp, hgenuine p hp⟩
    constructor
    · exact hgenuine
    · intro pr user reset sealed flt w resp w' events hrun e he hbinds
      exact hsome (resolved_of_recorded hrun e he hbinds)
    · intro pr user reset sealed flt w resp w' v hrun hbefore htier
      exact hsome (resolved_of_secure hrun hbefore (secure_of_userTier htier))
    · intro hcolour henv hconf
      by_contra hne
      obtain ⟨p, hp⟩ := Option.ne_none_iff_exists'.1 hne
      rcases hgenuine p hp with (hpin | hpin) | ⟨c, hc, -, hkind, -⟩
      · rw [henv] at hpin
        cases hpin
      · rw [hconf] at hpin
        cases hpin
      · rw [hcolour c hc] at hkind
        cases hkind

/-! ### A laptop with two colour cameras -/

/-- Two colour cameras, the second of which is the third video node, and no IR camera. -/
def colourMachine : Machine where
  nodes := [⟨some "/dev/video0", none, some ⟨none, some [[0x4D, 0x4A, 0x50, 0x47]]⟩⟩,
    ⟨some "/dev/video2", none, some ⟨none, some [[0x59, 0x55, 0x59, 0x56]]⟩⟩]
  inTime := true
  tree := .ofList [(["dev"], .dir), (["dev", "video0"], .device), (["dev", "video2"], .device)]
  env _ := none
  camerasConf := none

/-- The second colour camera of the laptop is taken for an IR camera. -/
theorem not_resolve_ir_genuine : ¬ ∀ m : Machine, SecureIsGenuine m := by
  intro hall
  have hcolour : ∀ c ∈ enumerateBlocking colourMachine, c.kind = .rgb := by decide +kernel
  have hnone := (hall colourMachine).colourOnly hcolour rfl rfl
  revert hnone
  decide +kernel

end Linhello.Daemon
